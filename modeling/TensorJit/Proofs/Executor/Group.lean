import TensorJit.Proofs.Executor.Slots

/-!
# Groups of a pipeline

When the tensors of a pipeline are made, they get the next identities, row by row and column by
column: the tensor of a row and a column is told by its identity (`rowId`), and **no two places
of a pipeline have the same tensor**. What a pipeline knows of its groups stays right when a
group is lent and when it is given back, and a group that has been lent can be given back.
-/

namespace TensorJit

open ExecState (Within OnlyMemory)

namespace Pipeline

variable {τ : Type} {f : Function} {m : Memory}

/-! ### Building a pipeline -/

section Build

variable {p : Pipeline τ} {inputs outputs : List (List τ)} {depth : Nat}

theorem raggedRow?_eq_none_iff {side : Side} {position : Nat} {rows : List (List τ)} :
    raggedRow? side depth position rows = none ↔ ∀ row ∈ rows, row.length = depth := by
  induction rows generalizing position with
  | nil => exact ⟨fun _ => List.forall_mem_nil _, fun _ => rfl⟩
  | cons row rows ih =>
    rw [List.forall_mem_cons]
    unfold raggedRow?
    split
    · rename_i hne
      exact ⟨fun h => (Option.some_ne_none _ h).elim, fun h => absurd h.1 hne⟩
    · rename_i heq
      exact ih.trans ⟨fun h => ⟨Decidable.not_not.1 heq, h⟩, And.right⟩

/-- The pipeline with all groups free in order. -/
def allFree (inputs outputs : List (List τ)) (depth : Nat) : Pipeline τ :=
  ⟨inputs, outputs, depth, List.range depth, List.replicate depth false⟩

/-- **When a pipeline is built.** -/
theorem ofRows_eq_ok_iff : ofRows inputs outputs depth = .ok p ↔
    (inputs ≠ [] ∧ outputs ≠ [] ∧ 1 ≤ depth ∧ (∀ row ∈ inputs, row.length = depth) ∧
      ∀ row ∈ outputs, row.length = depth) ∧ p = allFree inputs outputs depth := by
  unfold ofRows
  simp only [List.isEmpty_iff]
  split
  · rename_i hempty
    exact ⟨nofun, fun h => hempty.elim (absurd · h.1.1) (absurd · h.1.2.1)⟩
  rename_i hnonempty
  obtain ⟨hinputs, houtputs⟩ := not_or.1 hnonempty
  split
  · rename_i hdepth
    exact ⟨nofun, fun h => absurd h.1.2.2.1 (by omega)⟩
  rename_i hdepth
  split
  · rename_i fault hfault
    refine ⟨nofun, fun h => ?_⟩
    obtain ⟨⟨-, -, -, hins, houts⟩, -⟩ := h
    rw [raggedRow?_eq_none_iff.2 hins, raggedRow?_eq_none_iff.2 houts] at hfault
    cases hfault
  · rename_i hnone
    rw [Option.or_eq_none_iff, raggedRow?_eq_none_iff, raggedRow?_eq_none_iff] at hnone
    constructor
    · rintro ⟨⟩
      exact ⟨⟨hinputs, houtputs, Nat.one_le_iff_ne_zero.2 hdepth, hnone⟩, rfl⟩
    · rintro ⟨-, rfl⟩
      rfl

end Build

/-! ### Lending and giving back -/

/-- The tensor of each position, where every row reaches to the column. -/
theorem getElem?_column {rows : List (List τ)} {index : Nat}
    (h : ∀ row ∈ rows, index < row.length) (position : Nat) :
    (column rows index)[position]? = (rows[position]?).bind (·[index]?) := by
  unfold column
  induction rows generalizing position with
  | nil => rfl
  | cons row rows ih =>
    have hlt := h row List.mem_cons_self
    have hrow : row[index]? = some row[index] := List.getElem?_eq_getElem hlt
    rw [List.filterMap_cons, hrow]
    cases position with
    | zero => exact hrow.symm
    | succ position => exact ih (fun r hr => h r (List.mem_cons_of_mem _ hr)) position

theorem length_column {rows : List (List τ)} {index : Nat}
    (h : ∀ row ∈ rows, index < row.length) : (column rows index).length = rows.length := by
  unfold column
  induction rows with
  | nil => rfl
  | cons row rows ih =>
    have hlt := h row List.mem_cons_self
    have hrow : row[index]? = some row[index] := List.getElem?_eq_getElem hlt
    rw [List.filterMap_cons, hrow]
    exact congrArg (· + 1) (ih fun r hr => h r (List.mem_cons_of_mem _ hr))

/-- What lending a group does. -/
structure Lent (p : Pipeline τ) (g : PipelineGroup τ) (q : Pipeline τ) : Prop where
  /-- The group has been free the longest. -/
  free : p.free = g.index :: q.free
  /-- It has the tensors of its column. -/
  inputs : g.inputs = column p.inputs g.index
  /-- It has the tensors of its column. -/
  outputs : g.outputs = column p.outputs g.index
  /-- The rows are the same. -/
  rows : ∀ side, q.rows side = p.rows side
  /-- There are as many groups. -/
  depth : q.depth = p.depth
  /-- The group is in flight. -/
  flags : q.flags = p.flags.set g.index true

theorem lent_of_acquire? {p q : Pipeline τ} {g : PipelineGroup τ}
    (h : p.acquire? = some (g, q)) : p.Lent g q := by
  unfold acquire? at h
  split at h
  · cases h
  · rename_i index free hfree
    cases h
    exact ⟨hfree, rfl, rfl, fun side => by cases side <;> rfl, rfl, rfl⟩

theorem Fits.lent {p q : Pipeline TensorId} {g : PipelineGroup TensorId} (h : p.Fits m f)
    (hl : p.Lent g q) : q.Fits m f ∧ g.index < p.depth ∧ q.flags[g.index]? = some true := by
  have hindex : g.index < p.depth := h.free g.index (hl.free ▸ List.mem_cons_self)
  refine ⟨⟨h.positions, fun side => ?_, fun side row hrow => ?_,
    fun side position row id hrow hid => ?_, fun i hi => ?_, ?_⟩, hindex, ?_⟩
  · rw [hl.rows]
    exact h.rows side
  · rw [hl.depth]
    exact h.columns side row (hl.rows side ▸ hrow)
  · exact h.tensors side position row id (hl.rows side ▸ hrow) hid
  · rw [hl.depth]
    exact h.free i (hl.free ▸ List.mem_cons_of_mem _ hi)
  · rw [hl.flags, List.length_set, hl.depth, h.flags]
  · rw [hl.flags, List.getElem?_set_self (by rw [h.flags]; exact hindex)]

/-- What giving a group back does. -/
structure Returned (p : Pipeline τ) (index : Nat) (q : Pipeline τ) : Prop where
  /-- The group was in flight. -/
  flag : p.flags[index]? = some true
  /-- It is the last of the free ones. -/
  free : q.free = p.free ++ [index]
  /-- The rows are the same. -/
  rows : ∀ side, q.rows side = p.rows side
  /-- There are as many groups. -/
  depth : q.depth = p.depth
  /-- The group is not in flight. -/
  flags : q.flags = p.flags.set index false

theorem returned_of_giveBack {p q : Pipeline τ} {index : Nat} (h : p.giveBack index = .ok q) :
    p.Returned index q := by
  unfold giveBack at h
  split at h
  · rename_i hflag
    cases h
    refine ⟨?_, rfl, fun side => by cases side <;> rfl, rfl, rfl⟩
    rw [List.getD_eq_getElem?_getD] at hflag
    cases hf : p.flags[index]? with
    | none => rw [hf] at hflag; cases hflag
    | some b => rw [hf] at hflag; exact congrArg some hflag
  · cases h

/-- **A group in flight can be given back.** -/
theorem giveBack_of_flag {p : Pipeline τ} {index : Nat} (h : p.flags[index]? = some true) :
    ∃ q, p.giveBack index = .ok q := by
  unfold giveBack
  rw [List.getD_eq_getElem?_getD, h]
  exact ⟨_, rfl⟩

theorem Fits.returned {p q : Pipeline TensorId} {index : Nat} (h : p.Fits m f)
    (hr : p.Returned index q) : q.Fits m f := by
  have hindex : index < p.depth := h.flags ▸ (List.getElem?_eq_some_iff.1 hr.flag).1
  refine ⟨h.positions, fun side => ?_, fun side row hrow => ?_,
    fun side position row id hrow hid => ?_, fun i hi => ?_, ?_⟩
  · rw [hr.rows]
    exact h.rows side
  · rw [hr.depth]
    exact h.columns side row (hr.rows side ▸ hrow)
  · exact h.tensors side position row id (hr.rows side ▸ hrow) hid
  · rw [hr.depth]
    rw [hr.free] at hi
    rcases List.mem_append.1 hi with hi | hi
    · exact h.free i hi
    · rw [List.mem_singleton.1 hi]
      exact hindex
  · rw [hr.flags, List.length_set, hr.depth, h.flags]

end Pipeline

/-! ### Making the tensors -/

/-- The identity of the tensor of a row and a column, when the rows are made one after the other
from an identity on. -/
def rowId (base depth position column : Nat) : TensorId := base + (position * depth + column)

theorem rowId_injective {base depth p q c d : Nat} (hc : c < depth) (hd : d < depth)
    (h : rowId base depth p c = rowId base depth q d) : p = q ∧ c = d := by
  unfold rowId at h
  have heq : p * depth + c = q * depth + d := Nat.add_left_cancel h
  have hpos : 0 < depth := Nat.lt_of_le_of_lt (Nat.zero_le c) hc
  have hp : (p * depth + c) / depth = p := by
    rw [Nat.mul_comm, Nat.mul_add_div hpos, Nat.div_eq_of_lt hc, Nat.add_zero]
  have hq : (q * depth + d) / depth = q := by
    rw [Nat.mul_comm, Nat.mul_add_div hpos, Nat.div_eq_of_lt hd, Nat.add_zero]
  have hpq : p = q := by rw [← hp, ← hq, heq]
  subst hpq
  exact ⟨rfl, Nat.add_left_cancel heq⟩

/-- A new tensor with storage of its own. -/
def newTensor (spec : TensorSpec) : DeviceTensor := ⟨spec, .own (Tensor.zeros spec).bytes, true⟩

/-- Tensors have been made, and nothing else has happened. -/
structure Memory.Made (m : Memory) (specs : List TensorSpec) (n : Memory) : Prop where
  /-- There are so many more. -/
  size : n.tensors.size = m.tensors.size + specs.length
  /-- These are the new ones. -/
  new : ∀ (k : Nat) (spec : TensorSpec), specs[k]? = some spec →
    n.tensor (m.tensors.size + k) = newTensor spec
  /-- Those that there were are as they were. -/
  old : ∀ j, j < m.tensors.size → n.tensor j = m.tensor j
  /-- The storages of the host are equal. -/
  storages : n.storages = m.storages

theorem Memory.Made.nil (m : Memory) : m.Made [] m := ⟨rfl, nofun, fun _ _ => rfl, rfl⟩

theorem Memory.Made.append {m n k : Memory} {specs specs' : List TensorSpec}
    (h : m.Made specs n) (h' : n.Made specs' k) : m.Made (specs ++ specs') k where
  size := by rw [h'.size, h.size, List.length_append, Nat.add_assoc]
  new j spec hspec := by
    rcases Nat.lt_or_ge j specs.length with hlt | hge
    · rw [List.getElem?_append_left hlt] at hspec
      rw [h'.old _ (by rw [h.size]; omega)]
      exact h.new j spec hspec
    · rw [List.getElem?_append_right hge] at hspec
      have hnew := h'.new (j - specs.length) spec hspec
      rw [h.size, Nat.add_assoc, Nat.add_sub_cancel' hge] at hnew
      exact hnew
  old j hj := (h'.old j (by rw [h.size]; omega)).trans (h.old j hj)
  storages := h'.storages.trans h.storages

theorem Backend.ends_createOwn (spec : TensorSpec) (d : Device) :
    Ends (createOwn spec d)
      (fun id e => id = d.memory.tensors.size ∧ d.memory.Made [spec] e.memory)
      fun _ _ => False := by
  refine ⟨rfl, ?_, fun k s hs => ?_, fun j hj => ?_, rfl⟩
  · exact Array.size_push _
  · cases k with
    | zero =>
      obtain rfl := Option.some.inj hs
      exact (d.memory.tensor_createTensor _ _ _).trans (if_pos rfl)
    | succ k => cases hs
  · exact (d.memory.tensor_createTensor _ _ _).trans (if_neg (Nat.ne_of_lt hj))

/-- **The tensors of one position**: as many as there are groups, with the next identities. -/
theorem Backend.ends_createPipelined {e : Executable} {side : Side} {position : Nat}
    {spec : TensorSpec} {d : Device} (depth : Nat)
    (hkind : d.backend.kind = .recording .pipelined)
    (hspec : (e.function.specs side)[position]? = some spec) :
    Ends (createPipelined e side position depth d)
      (fun row d' => row = List.range' d.memory.tensors.size depth ∧
        d.memory.Made (List.replicate depth spec) d'.memory) fun _ _ => False := by
  unfold createPipelined
  rw [ends_bind, ends_kindOf]
  dsimp only
  rw [hkind, if_neg fun h => h rfl]
  have hwalk : Ends ((List.replicate depth spec).mapM createOwn d)
      (fun row d' => row = List.range' d.memory.tensors.size (List.replicate depth spec).length ∧
        d.memory.Made (List.replicate depth spec) d'.memory) fun _ _ => False := by
    refine ends_mapM (I := fun done row (d' : Device) =>
      row = List.range' d.memory.tensors.size done.length ∧ d.memory.Made done d'.memory)
      (fun done s rest row d' hl hI => ?_) ⟨rfl, .nil _⟩
    obtain ⟨rfl, hmade⟩ := hI
    refine (ends_createOwn s d').mono (fun id d'' h => ?_) fun _ _ h => h
    obtain ⟨rfl, hmade'⟩ := h
    refine ⟨?_, hmade.append hmade'⟩
    rw [hmade.size, List.length_append, List.length_singleton, List.range'_concat, Nat.one_mul]
  rw [List.length_replicate] at hwalk
  cases side with
  | input =>
    dsimp only
    rw [show e.function.parameters[position]? = some spec from hspec]
    exact hwalk
  | output =>
    dsimp only
    rw [show e.function.results[position]? = some spec from hspec]
    exact hwalk

/-! ### Making a pipeline -/

theorem length_flatMap_replicate {α : Type} (l : List α) (depth : Nat) :
    (l.flatMap (List.replicate depth)).length = l.length * depth := by
  induction l with
  | nil => exact (Nat.zero_mul _).symm
  | cons a l ih =>
    rw [List.flatMap_cons, List.length_append, List.length_replicate, ih, List.length_cons,
      Nat.succ_mul, Nat.add_comm]

theorem getElem?_flatMap_replicate {α : Type} (l : List α) {depth q c : Nat} (hc : c < depth) :
    (l.flatMap (List.replicate depth))[q * depth + c]? = l[q]? := by
  induction l generalizing q with
  | nil => rfl
  | cons a l ih =>
    rw [List.flatMap_cons]
    cases q with
    | zero =>
      rw [Nat.zero_mul, Nat.zero_add, List.getElem?_append_left (by rwa [List.length_replicate]),
        List.getElem?_replicate, if_pos hc]
      rfl
    | succ q =>
      have hge : (List.replicate depth a).length ≤ (q + 1) * depth + c := by
        rw [List.length_replicate, Nat.succ_mul]
        omega
      rw [List.getElem?_append_right hge, List.length_replicate, Nat.succ_mul]
      rw [show q * depth + depth + c - depth = q * depth + c by omega]
      exact ih

/-- The rows of as many positions, made one after the other from an identity on. -/
def rowsFrom (base depth count : Nat) : List (List TensorId) :=
  (List.range count).map fun q => List.range' (base + q * depth) depth

theorem getElem?_rowsFrom {base depth count position : Nat} {row : List TensorId} :
    (rowsFrom base depth count)[position]? = some row ↔
      position < count ∧ row = List.range' (base + position * depth) depth := by
  unfold rowsFrom
  rw [List.getElem?_map]
  constructor
  · intro h
    obtain ⟨q, hq, rfl⟩ := Option.map_eq_some_iff.1 h
    obtain ⟨hlt, heq⟩ := List.getElem?_eq_some_iff.1 hq
    rw [List.getElem_range] at heq
    rw [List.length_range] at hlt
    exact ⟨hlt, by rw [heq]⟩
  · rintro ⟨hlt, rfl⟩
    rw [List.getElem?_range hlt]
    rfl

/-- What stands in a row and a column. -/
theorem getElem?_rowsFrom_bind {base depth count position column : Nat} {id : TensorId} :
    ((rowsFrom base depth count)[position]?).bind (·[column]?) = some id ↔
      position < count ∧ column < depth ∧ id = rowId base depth position column := by
  constructor
  · intro h
    obtain ⟨row, hrow, hid⟩ := Option.bind_eq_some_iff.1 h
    obtain ⟨hlt, rfl⟩ := getElem?_rowsFrom.1 hrow
    obtain ⟨hc, hid⟩ := List.getElem?_eq_some_iff.1 hid
    rw [List.length_range'] at hc
    rw [List.getElem_range', Nat.one_mul, Nat.add_assoc] at hid
    exact ⟨hlt, hc, hid.symm⟩
  · rintro ⟨hlt, hc, rfl⟩
    rw [getElem?_rowsFrom.2 ⟨hlt, rfl⟩, Option.bind_some, List.getElem?_range' hc, Nat.one_mul,
      Nat.add_assoc]
    rfl

theorem length_rowsFrom (base depth count : Nat) : (rowsFrom base depth count).length = count := by
  unfold rowsFrom
  rw [List.length_map, List.length_range]

theorem rowsFrom_eq_nil_iff {α : Type} {base depth : Nat} {l : List α} :
    rowsFrom base depth l.length = [] ↔ l = [] := by
  rw [← List.length_eq_zero_iff, length_rowsFrom, List.length_eq_zero_iff]

theorem length_of_mem_rowsFrom {base depth count : Nat} {row : List TensorId}
    (h : row ∈ rowsFrom base depth count) : row.length = depth := by
  obtain ⟨_, -, rfl⟩ := List.mem_map.1 h
  exact List.length_range'

namespace Function

variable {f : Function} {side side' : Side} {position position' : Nat}

/-- The number of the row of a position when the rows of the outputs follow those of the
inputs. -/
def row (f : Function) (side : Side) (position : Nat) : Nat :=
  match side with
  | .input => position
  | .output => f.parameters.length + position

theorem getElem?_row (h : position < (f.specs side).length) :
    (f.parameters ++ f.results)[f.row side position]? = (f.specs side)[position]? := by
  cases side with
  | input => exact List.getElem?_append_left h
  | output =>
    unfold row
    dsimp only
    rw [List.getElem?_append_right (Nat.le_add_right _ _), Nat.add_sub_cancel_left]
    rfl

theorem row_injective (hp : position < (f.specs side).length)
    (hp' : position' < (f.specs side').length) (h : f.row side position = f.row side' position') :
    side = side' ∧ position = position' := by
  cases side with
  | input =>
    cases side' with
    | input => exact ⟨rfl, h⟩
    | output =>
      change position < f.parameters.length at hp
      change position = f.parameters.length + position' at h
      omega
  | output =>
    cases side' with
    | input =>
      change position' < f.parameters.length at hp'
      change f.parameters.length + position = position' at h
      omega
    | output => exact ⟨rfl, Nat.add_left_cancel h⟩

/-- The rows of a side count on from the first of them. -/
theorem rowId_row (f : Function) (base depth : Nat) (side : Side) (position column : Nat) :
    rowId (base + f.row side 0 * depth) depth position column =
      rowId base depth (f.row side position) column := by
  cases side with
  | input =>
    unfold row
    rw [Nat.zero_mul, Nat.add_zero]
  | output =>
    unfold rowId row
    simp only [Nat.add_mul, Nat.add_assoc, Nat.zero_mul, Nat.zero_add]

end Function

/-- Among the tensors that were made for the rows of a function is that of each row and column. -/
theorem Memory.Made.at_row {f : Function} {m n : Memory} {depth position column : Nat}
    {side : Side} (h : m.Made ((f.parameters ++ f.results).flatMap (List.replicate depth)) n)
    (hp : position < (f.specs side).length) (hc : column < depth) :
    ∃ spec, (f.specs side)[position]? = some spec ∧
      rowId m.tensors.size depth (f.row side position) column < n.tensors.size ∧
      n.tensor (rowId m.tensors.size depth (f.row side position) column) = newTensor spec := by
  have hspec : (f.specs side)[position]? = some _ := List.getElem?_eq_getElem hp
  have hnew : ((f.parameters ++ f.results).flatMap
      (List.replicate depth))[f.row side position * depth + column]? =
      some (f.specs side)[position] := by
    rw [getElem?_flatMap_replicate _ hc, Function.getElem?_row hp, hspec]
  refine ⟨_, hspec, ?_, h.new _ _ hnew⟩
  rw [h.size]
  exact Nat.add_lt_add_left (List.getElem?_eq_some_iff.1 hnew).1 _

namespace Pipeline

variable {f : Function} {m n : Memory} {base depth : Nat} {side : Side}

/-- The pipeline of a function whose tensors have the identities from one on, first those of the
inputs and then those of the outputs. All groups are free. -/
def numbered (f : Function) (base depth : Nat) : Pipeline TensorId :=
  allFree (rowsFrom base depth f.parameters.length)
    (rowsFrom (base + f.parameters.length * depth) depth f.results.length) depth

theorem rows_numbered (f : Function) (base depth : Nat) (side : Side) :
    (numbered f base depth).rows side =
      rowsFrom (base + f.row side 0 * depth) depth (f.specs side).length := by
  cases side with
  | input =>
    unfold Function.row
    rw [Nat.zero_mul, Nat.add_zero]
    rfl
  | output => rfl

/-- **Where a tensor is, is told by its identity.** -/
theorem getElem?_numbered {position column : Nat} {id : TensorId} :
    (((numbered f base depth).rows side)[position]?).bind (·[column]?) = some id ↔
      position < (f.specs side).length ∧ column < depth ∧
        id = rowId base depth (f.row side position) column := by
  rw [rows_numbered, getElem?_rowsFrom_bind, Function.rowId_row]

/-- The pipeline fits the function if its tensors have been made. -/
theorem fits_numbered (h : m.Made ((f.parameters ++ f.results).flatMap (List.replicate depth)) n)
    (hfilled : ∀ side, f.specs side ≠ []) :
    (numbered f m.tensors.size depth).Fits n f where
  positions := hfilled
  rows side := by rw [rows_numbered, length_rowsFrom]
  columns side row hrow := length_of_mem_rowsFrom (rows_numbered f _ depth side ▸ hrow)
  tensors side position row id hrow hid := by
    obtain ⟨column, hcolumn⟩ := List.getElem?_of_mem hid
    obtain ⟨hp, hc, rfl⟩ := getElem?_numbered.1
      (show (((numbered f m.tensors.size depth).rows side)[position]?).bind (·[column]?) = some id
        by rw [hrow]; exact hcolumn)
    obtain ⟨spec, hspec, hlive, htensor⟩ := h.at_row hp hc
    refine ⟨spec, hspec, hlive, congrArg DeviceTensor.spec htensor, ?_⟩
    unfold Memory.home
    rw [htensor]
    exact congrArg Home.own (Tensor.wellSized_zeros _)
  free i hi := List.mem_range.1 hi
  flags := List.length_replicate

end Pipeline

namespace ExecM

variable {s : ExecState}

/-- **The tensors of one position.** -/
theorem ends_makeRow {e : Executable} {side : Side} {position : Nat} {spec : TensorSpec}
    (hkind : s.kind = .recording .pipelined)
    (hspec : (e.function.specs side)[position]? = some spec) :
    Ends (makeRow e side position s)
      (fun row t => row = List.range' s.memory.tensors.size s.executor.config.pipelineDepth ∧
        s.OnlyMemory t.memory t ∧
        s.memory.Made (List.replicate s.executor.config.pipelineDepth spec) t.memory)
      fun _ _ => False := by
  unfold makeRow
  rw [ends_bind, ends_executor, ends_onBackend]
  refine ((Backend.ends_createPipelined _ hkind hspec).and
    (Backend.keeps_createPipelined e side position _ s.device)).mono (fun row d hd => ?_)
    fun _ _ h => h.1
  exact ⟨hd.1.1, ExecState.onlyMemory_withDevice hd.2.toLater, hd.1.2⟩

/-- **The tensors of all positions of one side**, row by row. -/
theorem ends_makeRows (e : Executable) (side : Side) (hkind : s.kind = .recording .pipelined) :
    Ends ((List.range (e.function.specs side).length).mapM (makeRow e side) s)
      (fun rows t => rows = rowsFrom s.memory.tensors.size s.executor.config.pipelineDepth
          (e.function.specs side).length ∧
        s.OnlyMemory t.memory t ∧ s.memory.Made ((e.function.specs side).flatMap
          (List.replicate s.executor.config.pipelineDepth)) t.memory)
      fun _ _ => False := by
  -- The invariant: there is a row for every position so far, as long as the pipeline is deep.
  refine (ends_mapM (I := fun done rows t => rows = rowsFrom s.memory.tensors.size
      s.executor.config.pipelineDepth done.length ∧ s.OnlyMemory t.memory t ∧
      s.memory.Made (((e.function.specs side).take done.length).flatMap
        (List.replicate s.executor.config.pipelineDepth)) t.memory)
    (fun done position rest rows t hl hI => ?_) ⟨rfl, .of_untouched (.refl s), .nil _⟩).mono
    (fun rows t ht => ?_) fun _ _ h => h
  · obtain ⟨rfl, honly, hmade⟩ := hI
    have hposition : (List.range (e.function.specs side).length)[done.length]? = some position := by
      rw [hl, List.getElem?_append_right (Nat.le_refl _), Nat.sub_self]
      rfl
    obtain ⟨hlt, hposition⟩ := List.getElem?_eq_some_iff.1 hposition
    rw [List.getElem_range] at hposition
    subst hposition
    rw [List.length_range] at hlt
    have hspec : (e.function.specs side)[done.length]? = some _ := List.getElem?_eq_getElem hlt
    refine (ends_makeRow (honly.later.kind_eq.trans hkind) hspec).mono (fun row u hu => ?_)
      fun _ _ h => h
    obtain ⟨rfl, honly', hmade'⟩ := hu
    rw [honly.later.config] at hmade' ⊢
    refine ⟨?_, honly'.memory.symm ▸ honly.trans honly', ?_⟩
    · unfold rowsFrom
      rw [List.length_append, List.length_singleton, List.range_succ, List.map_append,
        List.map_singleton, hmade.size, length_flatMap_replicate, List.length_take,
        Nat.min_eq_left (Nat.le_of_lt hlt)]
    · rw [List.length_append, List.length_singleton, List.take_add_one, hspec, List.flatMap_append]
      have happend := hmade.append hmade'
      rwa [← List.flatMap_singleton (List.replicate _)] at happend
  · obtain ⟨rfl, honly, hmade⟩ := ht
    rw [List.length_range, List.take_length] at hmade
    rw [List.length_range]
    exact ⟨rfl, honly, hmade⟩

/-- What making a pipeline for a function does. -/
structure PipelineMade (s : ExecState) (f : Function) (p : Pipeline TensorId) (t : ExecState) :
    Prop where
  /-- Only memory has changed. -/
  only : s.OnlyMemory t.memory t
  /-- The storages of the host are equal. -/
  storages : t.memory.storages = s.memory.storages
  /-- Tensors that there were are as they were. -/
  old : ∀ j, j < s.memory.tensors.size → t.memory.tensor j = s.memory.tensor j
  /-- The pipeline fits the function. -/
  fits : p.Fits t.memory f
  /-- Every group is free. -/
  free : p.free = List.range p.depth
  /-- There is one. -/
  pos : 0 < p.depth
  /-- Its tensors are new. -/
  new : ∀ side (position column : Nat) (id : TensorId),
    ((p.rows side)[position]?).bind (·[column]?) = some id → s.memory.tensors.size ≤ id
  /-- They are all zero. -/
  blank : ∀ side (position column : Nat) (id : TensorId),
    ((p.rows side)[position]?).bind (·[column]?) = some id →
    ∃ spec, t.memory.tensor id = newTensor spec
  /-- Two places have two tensors. -/
  apart : ∀ side side' (position column position' column' : Nat) (id : TensorId),
    ((p.rows side)[position]?).bind (·[column]?) = some id →
    ((p.rows side')[position']?).bind (·[column']?) = some id →
    side = side' ∧ position = position' ∧ column = column'

/-- The pipeline of a function is made when its tensors are. -/
theorem pipelineMade_numbered {f : Function} {t : ExecState} {depth : Nat}
    (honly : s.OnlyMemory t.memory t)
    (hmade : s.memory.Made ((f.parameters ++ f.results).flatMap (List.replicate depth)) t.memory)
    (hfilled : ∀ side, f.specs side ≠ []) (hpos : 0 < depth) :
    PipelineMade s f (.numbered f s.memory.tensors.size depth) t where
  only := honly
  storages := hmade.storages
  old := hmade.old
  fits := Pipeline.fits_numbered hmade hfilled
  free := rfl
  pos := hpos
  new side position column id hid := by
    obtain ⟨-, -, rfl⟩ := Pipeline.getElem?_numbered.1 hid
    exact Nat.le_add_right _ _
  blank side position column id hid := by
    obtain ⟨hp, hc, rfl⟩ := Pipeline.getElem?_numbered.1 hid
    obtain ⟨spec, -, -, htensor⟩ := hmade.at_row hp hc
    exact ⟨spec, htensor⟩
  apart side side' position column position' column' id hid hid' := by
    obtain ⟨hp, hc, rfl⟩ := Pipeline.getElem?_numbered.1 hid
    obtain ⟨hp', hc', heq⟩ := Pipeline.getElem?_numbered.1 hid'
    obtain ⟨hrow, rfl⟩ := rowId_injective hc hc' heq
    obtain ⟨rfl, rfl⟩ := Function.row_injective hp hp' hrow
    exact ⟨rfl, rfl, rfl⟩

/-- **Making a pipeline** fails only if there are no inputs, no results or no groups. -/
theorem ends_makePipeline (f : Function) (hkind : s.kind = .recording .pipelined) :
    Ends (makePipeline ⟨f⟩ s) (fun p t => PipelineMade s f p t)
      fun _ t => s.OnlyMemory t.memory t ∧ t.memory.storages = s.memory.storages ∧
        (∀ j, j < s.memory.tensors.size → t.memory.tensor j = s.memory.tensor j) ∧
        (f.parameters = [] ∨ f.results = [] ∨ s.executor.config.pipelineDepth = 0) := by
  unfold makePipeline
  rw [ends_bind]
  refine (ends_makeRows ⟨f⟩ .input hkind).mono (fun ins t ht => ?_) fun _ _ h => h.elim
  obtain ⟨hins, honly, hmade⟩ := ht
  rw [ends_bind]
  refine (ends_makeRows ⟨f⟩ .output (honly.later.kind_eq.trans hkind)).mono (fun outs u hu => ?_)
    fun _ _ h => h.elim
  obtain ⟨houts, honly', hmade'⟩ := hu
  replace honly' : s.OnlyMemory u.memory u := honly'.memory.symm ▸ honly.trans honly'
  rw [honly.later.config] at houts hmade'
  rw [ends_bind, ends_executor, honly'.later.config]
  obtain ⟨depth, hdepth⟩ : ∃ depth, depth = s.executor.config.pipelineDepth := ⟨_, rfl⟩
  rw [← hdepth] at hins houts hmade hmade' ⊢
  have hall : s.memory.Made ((f.parameters ++ f.results).flatMap (List.replicate depth))
      u.memory := by
    rw [List.flatMap_append]
    exact hmade.append hmade'
  -- The rows of the outputs count on from those of the inputs.
  rw [hmade.size, length_flatMap_replicate] at houts
  change ins = rowsFrom s.memory.tensors.size depth f.parameters.length at hins
  change outs = rowsFrom (s.memory.tensors.size + f.parameters.length * depth) depth
    f.results.length at houts
  cases hp : Pipeline.ofRows ins outs depth with
  | ok p =>
    subst hins houts
    obtain ⟨⟨hins, houts, hpos, -⟩, rfl⟩ := Pipeline.ofRows_eq_ok_iff.1 hp
    refine pipelineMade_numbered honly' hall (fun side => ?_) hpos
    cases side with
    | input => exact mt rowsFrom_eq_nil_iff.2 hins
    | output => exact mt rowsFrom_eq_nil_iff.2 houts
  | error fault =>
    subst hins houts
    refine ⟨honly', hall.storages, hall.old, ?_⟩
    by_contra hfilled
    obtain ⟨hins, hfilled⟩ := not_or.1 hfilled
    obtain ⟨houts, hzero⟩ := not_or.1 hfilled
    rw [Pipeline.ofRows_eq_ok_iff.2 ⟨⟨mt rowsFrom_eq_nil_iff.1 hins, mt rowsFrom_eq_nil_iff.1 houts,
      Nat.pos_of_ne_zero hzero, fun _ => length_of_mem_rowsFrom, fun _ => length_of_mem_rowsFrom⟩,
      rfl⟩] at hp
    cases hp

/-! ### Taking a group back -/

/-- **Taking a group back** gives it to the pipeline of the artifact and does nothing else; if the
group is not in flight, nothing happens at all. -/
theorem returned_returnGroup (id : ArtifactId) (index : Nat) :
    Ends (returnGroup id index s)
      (fun _ t => ∃ a p q, s.cache.get? id = some a ∧ a.pipeline = some p ∧ p.Returned index q ∧
        t = { s with executor.cache := s.cache.update id { a with pipeline := some q } })
      fun _ t => t = s ∧ ∀ a p, s.cache.get? id = some a → a.pipeline = some p →
        p.flags[index]? ≠ some true := by
  unfold returnGroup
  rw [ends_bind, ends_artifact]
  refine ⟨fun a ha => ?_, fun hnone => ⟨rfl, fun a p ha => ?_⟩⟩
  · cases hpipeline : a.pipeline with
    | none =>
      refine ⟨rfl, fun b p hb hp => ?_⟩
      cases ha.symm.trans hb
      rw [hpipeline] at hp
      cases hp
    | some p =>
      dsimp only
      cases hback : p.giveBack index with
      | ok q => exact ⟨a, p, q, ha, hpipeline, Pipeline.returned_of_giveBack hback, rfl⟩
      | error fault =>
        refine ⟨rfl, fun b p' hb hp hflag => ?_⟩
        cases ha.symm.trans hb
        rw [hpipeline] at hp
        cases hp
        obtain ⟨q, hq⟩ := Pipeline.giveBack_of_flag hflag
        rw [hq] at hback
        cases hback
  · rw [hnone] at ha
    cases ha

end ExecM

end TensorJit
