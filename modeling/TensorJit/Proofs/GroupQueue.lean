import Mathlib.Data.List.Induction
import TensorJit.Proofs.Executor.Lending

/-!
# Groups are handed out in turn

A pipeline is asked for groups and given groups back, in any order and as often as one likes, also
groups that it has never handed out. Every group that is not with a borrower has been free since
some moment: since it was given back, or from the beginning, when the groups stand in the order of
their columns (`GroupEvent.freeSince`). **The next group is always the one that has been free the
longest**, it has the tensors of its column, and there is none only while all are in flight.

The list of the free groups and the flags say the same twice (`Pipeline.Coherent`). That they do is
what makes the number of groups in flight a difference of lengths that cannot be negative, and
what keeps the column of a group inside every row.
-/

namespace TensorJit

variable {τ : Type}

/-! ### Calls and what comes of them -/

/-- What a pipeline can be asked. -/
inductive GroupCall where
  /-- For a group. -/
  | acquire
  /-- To take a group back. -/
  | giveBack (index : Nat)
  deriving DecidableEq, Repr

/-- What comes of a call. -/
inductive GroupEvent where
  /-- A group has been handed out. -/
  | lent (index : Nat)
  /-- A group has been taken back. -/
  | returned (index : Nat)
  /-- The call has failed. -/
  | refused
  deriving DecidableEq, Repr

/-- What comes of a call, and the pipeline after it. -/
def GroupCall.serve (p : Pipeline τ) : GroupCall → GroupEvent × Pipeline τ
  | acquire =>
    match p.acquire? with
    | some (g, q) => (.lent g.index, q)
    | none => (.refused, p)
  | giveBack index =>
    match p.giveBack index with
    | .ok q => (.returned index, q)
    | .error _ => (.refused, p)

/-- What has come of calls, latest first, and the pipeline after them. -/
def Pipeline.serveAll (p : Pipeline τ) (calls : List GroupCall) : List GroupEvent × Pipeline τ :=
  calls.foldl (fun s call => ((call.serve s.2).1 :: s.1, (call.serve s.2).2)) ([], p)

namespace GroupEvent

/-- Since when a group is free, if it is: the number of the event that has freed it, where the
groups count as freed one after the other before the first event. -/
def freeSince (depth : Nat) : List GroupEvent → Nat → Option Nat
  | [], i => if i < depth then some i else none
  | lent j :: past, i => if i = j then none else freeSince depth past i
  | returned j :: past, i => if i = j then some (depth + past.length) else freeSince depth past i
  | refused :: past, i => freeSince depth past i

/-- No other group has been free for as long. -/
def LongestFree (depth : Nat) (past : List GroupEvent) (i : Nat) : Prop :=
  ∃ t, freeSince depth past i = some t ∧
    ∀ j s, j ≠ i → freeSince depth past j = some s → t < s

/-- A group has become free before now. -/
theorem freeSince_lt {depth i t : Nat} {past : List GroupEvent}
    (h : freeSince depth past i = some t) : t < depth + past.length := by
  induction past with
  | nil =>
    unfold freeSince at h
    split at h
    · cases h
      assumption
    · cases h
  | cons event past ih =>
    have hlater : depth + past.length < depth + (event :: past).length := Nat.lt_succ_self _
    cases event with
    | lent j =>
      unfold freeSince at h
      split at h
      · cases h
      · exact (ih h).trans hlater
    | returned j =>
      unfold freeSince at h
      split at h
      · cases h
        exact hlater
      · exact (ih h).trans hlater
    | refused => exact (ih h).trans hlater

end GroupEvent

namespace Pipeline

open GroupEvent

variable {p q : Pipeline τ} {g : PipelineGroup τ} {inputs outputs : List (List τ)} {depth i : Nat}
  {past : List GroupEvent}

/-! ### What is kept -/

/-- The pipeline has the rows and as many groups as it was built with, its flags and its list agree,
and the list has the free groups in the order in which they have become free. -/
structure Queues (inputs outputs : List (List τ)) (depth : Nat) (past : List GroupEvent)
    (p : Pipeline τ) : Prop where
  /-- The rows of the inputs. -/
  inputs : p.inputs = inputs
  /-- The rows of the outputs. -/
  outputs : p.outputs = outputs
  /-- The flags and the list agree. -/
  coherent : p.Coherent depth
  /-- The list has the groups that are free. -/
  since : ∀ i, i ∈ p.free ↔ ∃ t, freeSince depth past i = some t
  /-- They are in order. -/
  order : p.free.Pairwise fun i j =>
    ∀ s t, freeSince depth past i = some s → freeSince depth past j = some t → s < t

theorem queues_allFree (inputs outputs : List (List τ)) (depth : Nat)
    (hcoherent : (allFree inputs outputs depth).Coherent depth) :
    Queues inputs outputs depth [] (allFree inputs outputs depth) where
  inputs := rfl
  outputs := rfl
  coherent := hcoherent
  since i := by
    refine List.mem_range.trans ⟨fun hi => ⟨i, if_pos hi⟩, fun ⟨t, ht⟩ => ?_⟩
    unfold freeSince at ht
    split at ht
    · assumption
    · cases ht
  order := by
    refine List.pairwise_lt_range.imp fun {i j} hlt s t hs ht => ?_
    unfold freeSince at hs ht
    split at hs
    · split at ht
      · cases hs
        cases ht
        exact hlt
      · cases ht
    · cases hs

/-- **The first of the list has been free the longest.** -/
theorem Queues.longestFree (h : Queues inputs outputs depth past p) (hl : p.Lent g q) :
    LongestFree depth past g.index := by
  have horder := h.order
  rw [hl.free, List.pairwise_cons] at horder
  obtain ⟨t, ht⟩ := (h.since g.index).1 (hl.free ▸ List.mem_cons_self)
  refine ⟨t, ht, fun j s hj hs => ?_⟩
  have hmem := (h.since j).2 ⟨s, hs⟩
  rw [hl.free] at hmem
  exact horder.1 j ((List.mem_cons.1 hmem).resolve_left hj) t s ht hs

/-- **Handing out a group** takes the first of the list. -/
theorem Queues.lent (h : Queues inputs outputs depth past p) (hl : p.Lent g q) :
    Queues inputs outputs depth (.lent g.index :: past) q := by
  have hsince : ∀ j, freeSince depth (.lent g.index :: past) j =
      if j = g.index then none else freeSince depth past j := fun _ => rfl
  have hnodup := h.coherent.nodup
  rw [hl.free, List.nodup_cons] at hnodup
  refine ⟨(hl.rows .input).trans h.inputs, (hl.rows .output).trans h.outputs,
    (h.coherent.lent hl).1, fun j => ?_, ?_⟩
  · rw [hsince]
    have hj := h.since j
    rw [hl.free, List.mem_cons] at hj
    split
    · rename_i heq
      exact ⟨fun hmem => absurd (heq ▸ hmem) hnodup.1, fun ⟨t, ht⟩ => nomatch ht⟩
    · rename_i hne
      exact ⟨fun hmem => hj.1 (.inr hmem), fun ht => (hj.2 ht).resolve_left hne⟩
  · have horder := h.order
    rw [hl.free, List.pairwise_cons] at horder
    refine horder.2.imp_of_mem fun {a b} ha hb hlt s t hs ht => ?_
    rw [hsince, if_neg (ne_of_mem_of_not_mem ha hnodup.1)] at hs
    rw [hsince, if_neg (ne_of_mem_of_not_mem hb hnodup.1)] at ht
    exact hlt s t hs ht

/-- **Taking a group back** puts it at the end of the list. -/
theorem Queues.returned (h : Queues inputs outputs depth past p) (hr : p.Returned i q) :
    Queues inputs outputs depth (.returned i :: past) q := by
  have hsince : ∀ j, freeSince depth (.returned i :: past) j =
      if j = i then some (depth + past.length) else freeSince depth past j := fun _ => rfl
  have hnot : i ∉ p.free := fun hmem => by
    have hflag := hr.flag
    rw [(h.coherent.free i).1 hmem] at hflag
    cases hflag
  refine ⟨(hr.rows .input).trans h.inputs, (hr.rows .output).trans h.outputs,
    (h.coherent.returned hr).1, fun j => ?_, ?_⟩
  · rw [hsince, hr.free, List.mem_append, List.mem_singleton, h.since]
    split
    · rename_i heq
      exact ⟨fun _ => ⟨_, rfl⟩, fun _ => .inr heq⟩
    · rename_i hne
      exact ⟨fun hor => hor.resolve_right hne, .inl⟩
  · rw [hr.free, List.pairwise_append]
    refine ⟨h.order.imp_of_mem fun {a b} ha hb hlt s t hs ht => ?_, List.pairwise_singleton ..,
      fun a ha b hb s t hs ht => ?_⟩
    · rw [hsince, if_neg (ne_of_mem_of_not_mem ha hnot)] at hs
      rw [hsince, if_neg (ne_of_mem_of_not_mem hb hnot)] at ht
      exact hlt s t hs ht
    · -- Whatever is in the list has become free before the group that is given back.
      rw [hsince, if_neg (ne_of_mem_of_not_mem ha hnot)] at hs
      rw [List.mem_singleton.1 hb, hsince, if_pos rfl] at ht
      cases ht
      exact freeSince_lt hs

/-- **One call.** -/
theorem Queues.serve (h : Queues inputs outputs depth past p) (call : GroupCall) :
    Queues inputs outputs depth ((call.serve p).1 :: past) (call.serve p).2 := by
  have hrefused : Queues inputs outputs depth (.refused :: past) p := { h with }
  unfold GroupCall.serve
  cases call with
  | acquire =>
    dsimp only
    split
    · rename_i hacquire
      exact h.lent (lent_of_acquire? hacquire)
    · exact hrefused
  | giveBack index =>
    dsimp only
    split
    · rename_i hback
      exact h.returned (returned_of_giveBack hback)
    · exact hrefused

/-- **Any calls**, by induction on them. -/
theorem Queues.serveAll (h : Queues inputs outputs depth [] p) (calls : List GroupCall) :
    Queues inputs outputs depth (p.serveAll calls).1 (p.serveAll calls).2 := by
  unfold Pipeline.serveAll
  induction calls using List.reverseRecOn with
  | nil => exact h
  | append_singleton calls call ih =>
    rw [List.foldl_concat]
    exact ih.serve call

/-! ### What a pipeline answers -/

theorem count_flags (p : Pipeline τ) : p.flags.count true = p.lent.length := by
  unfold Pipeline.lent
  generalize p.flags = flags
  induction flags using List.reverseRecOn with
  | nil => rfl
  | append_singleton flags flag ih =>
    have hold : (List.range flags.length).filter ((flags ++ [flag]).getD · false) =
        (List.range flags.length).filter (flags.getD · false) := by
      refine List.filter_congr fun i hi => ?_
      rw [List.getD_eq_getElem?_getD, List.getD_eq_getElem?_getD,
        List.getElem?_append_left (List.mem_range.1 hi)]
    have hlast : (flags ++ [flag]).getD flags.length false = flag := by
      rw [List.getD_eq_getElem?_getD, List.getElem?_concat_length, Option.getD_some]
    rw [List.count_append, ih, List.length_append, List.length_singleton, List.range_succ,
      List.filter_append, List.length_append, hold, List.filter_singleton, hlast]
    cases flag with
    | false => rfl
    | true => rfl

/-- A column has the tensor of each row. -/
theorem map_some_column {rows : List (List τ)} (h : ∀ row ∈ rows, i < row.length) :
    (column rows i).map some = rows.map (·[i]?) := by
  refine List.ext_getElem? fun position => ?_
  rw [List.getElem?_map, List.getElem?_map, getElem?_column h]
  cases hrow : rows[position]? with
  | none => rfl
  | some row =>
    have hlt := h row (List.mem_of_getElem? hrow)
    rw [Option.bind_some, Option.map_some, List.getElem?_eq_getElem hlt]
    rfl

/-- What holds of a pipeline to which something has happened since it was built. -/
structure InTurn (inputs outputs : List (List τ)) (depth : Nat) (past : List GroupEvent)
    (p : Pipeline τ) : Prop where
  /-- No group is free twice. -/
  nodup : p.free.Nodup
  /-- A group is free exactly if it is not marked as being in flight. -/
  free_iff : ∀ i, i ∈ p.free ↔ p.flags[i]? = some false
  /-- It is marked exactly if it has been handed out and not been given back. -/
  flag_iff : ∀ i, p.flags[i]? = some true ↔ i < depth ∧ freeSince depth past i = none
  /-- The marks are counted right, and what they are counted from is not less. -/
  inFlight : p.inFlight = p.flags.count true ∧ p.free.length ≤ p.depth
  /-- There is no group exactly while all are in flight. -/
  acquire_eq_none_iff : p.acquire? = none ↔ ∀ i < depth, p.flags[i]? = some true
  /-- Otherwise it is the one that has been free the longest, with the tensors of its column. -/
  acquire : ∀ g q, p.acquire? = some (g, q) → LongestFree depth past g.index ∧
    g.inputs.map some = inputs.map (·[g.index]?) ∧ g.outputs.map some = outputs.map (·[g.index]?)
  /-- A group can be given back exactly if it is in flight. -/
  giveBack_iff : ∀ i, (∃ q, p.giveBack i = .ok q) ↔ p.flags[i]? = some true
  /-- A call that fails changes nothing. -/
  refused : ∀ call : GroupCall, (call.serve p).1 = .refused → (call.serve p).2 = p

theorem Coherent.flag_of_not_free (h : p.Coherent depth) (hi : i < depth) (hfree : i ∉ p.free) :
    p.flags[i]? = some true := by
  have hlt : i < p.flags.length := h.flags.symm ▸ hi
  rw [h.free, List.getElem?_eq_getElem hlt] at hfree
  rw [List.getElem?_eq_getElem hlt]
  cases hflag : p.flags[i] with
  | true => rfl
  | false => exact absurd (congrArg some hflag) hfree

theorem refused_unchanged (p : Pipeline τ) (call : GroupCall) (h : (call.serve p).1 = .refused) :
    (call.serve p).2 = p := by
  unfold GroupCall.serve at h ⊢
  cases call with
  | acquire =>
    dsimp only at h ⊢
    split at h
    · cases h
    · rfl
  | giveBack index =>
    dsimp only at h ⊢
    split at h
    · cases h
    · rfl

/-- **A pipeline that keeps its queue hands out its groups in turn.** -/
theorem Queues.inTurn (h : Queues inputs outputs depth past p)
    (hinputs : ∀ row ∈ inputs, row.length = depth)
    (houtputs : ∀ row ∈ outputs, row.length = depth) : InTurn inputs outputs depth past p where
  nodup := h.coherent.nodup
  free_iff := h.coherent.free
  flag_iff i := by
    constructor
    · intro hflag
      refine ⟨h.coherent.flags ▸ (List.getElem?_eq_some_iff.1 hflag).1, ?_⟩
      refine Option.eq_none_iff_forall_ne_some.2 fun t ht => ?_
      rw [(h.coherent.free i).1 ((h.since i).2 ⟨t, ht⟩)] at hflag
      cases hflag
    · rintro ⟨hi, hnone⟩
      refine h.coherent.flag_of_not_free hi fun hfree => ?_
      obtain ⟨t, ht⟩ := (h.since i).1 hfree
      exact nomatch hnone.symm.trans ht
  inFlight := by
    refine ⟨by rw [h.coherent.inFlight.1, count_flags], ?_⟩
    -- The free groups are distinct and below the depth, so there are no more of them than that.
    have hsubset : p.free ⊆ List.range p.depth := fun i hi => by
      rw [List.mem_range, h.coherent.depth_eq, ← h.coherent.flags]
      exact (List.getElem?_eq_some_iff.1 ((h.coherent.free i).1 hi)).1
    exact (List.subperm_of_subset h.coherent.nodup hsubset).length_le.trans_eq List.length_range
  acquire_eq_none_iff := by
    unfold acquire?
    split
    · rename_i hnil
      exact ⟨fun _ i hi => h.coherent.flag_of_not_free hi (by rw [hnil]; exact List.not_mem_nil),
        fun _ => rfl⟩
    · rename_i i free hfree
      have hflag := (h.coherent.free i).1 (hfree ▸ List.mem_cons_self)
      have hi : i < depth := h.coherent.flags ▸ (List.getElem?_eq_some_iff.1 hflag).1
      exact ⟨nofun, fun hall => nomatch hflag.symm.trans (hall i hi)⟩
  acquire g q hacquire := by
    have hl := lent_of_acquire? hacquire
    have hflag := (h.coherent.free g.index).1 (hl.free ▸ List.mem_cons_self)
    have hi : g.index < depth := h.coherent.flags ▸ (List.getElem?_eq_some_iff.1 hflag).1
    refine ⟨h.longestFree hl, ?_, ?_⟩
    · rw [hl.inputs, h.inputs, map_some_column fun row hrow => by rw [hinputs row hrow]; exact hi]
    · rw [hl.outputs, h.outputs,
        map_some_column fun row hrow => by rw [houtputs row hrow]; exact hi]
  giveBack_iff _ := ⟨fun ⟨_, hback⟩ => (returned_of_giveBack hback).flag, giveBack_of_flag⟩
  refused := p.refused_unchanged

/-- **A pipeline is a queue of groups.** It is built exactly if there are inputs, outputs and groups
and every row reaches over all groups; and whatever it is asked then, its flags and its list agree,
it hands out the group that has been free the longest, and it takes back what it has handed out and
nothing else. -/
theorem handed_out_in_turn (inputs outputs : List (List τ)) (depth : Nat) :
    ((∃ p, ofRows inputs outputs depth = .ok p) ↔
      inputs ≠ [] ∧ outputs ≠ [] ∧ 1 ≤ depth ∧ (∀ row ∈ inputs, row.length = depth) ∧
        ∀ row ∈ outputs, row.length = depth) ∧
    ∀ p, ofRows inputs outputs depth = .ok p → ∀ calls : List GroupCall,
      InTurn inputs outputs depth (p.serveAll calls).1 (p.serveAll calls).2 := by
  refine ⟨⟨fun ⟨_, h⟩ => (ofRows_eq_ok_iff.1 h).1, fun h => ⟨_, ofRows_eq_ok_iff.2 ⟨h, rfl⟩⟩⟩,
    fun p hp calls => ?_⟩
  obtain ⟨⟨-, -, -, hinputs, houtputs⟩, rfl⟩ := ofRows_eq_ok_iff.1 hp
  have hqueues := queues_allFree inputs outputs depth (coherent_ofRows hp).1
  exact (hqueues.serveAll calls).inTurn hinputs houtputs

/-- Two groups of one input and one output. -/
def twoGroups : Pipeline Nat := allFree [[10, 11]] [[20, 21]] 2

/-- Both groups are handed out, and given back in the other order. -/
def givenBackCrosswise : List GroupCall := [.acquire, .acquire, .giveBack 1, .giveBack 1, .giveBack 0]

/-- The group that was given back first is the next, and giving it back once more was refused. -/
theorem crosswise_in_turn : ofRows [[10, 11]] [[20, 21]] 2 = .ok twoGroups ∧
    (twoGroups.serveAll givenBackCrosswise).1 =
      [.returned 0, .refused, .returned 1, .lent 1, .lent 0] ∧
    LongestFree 2 (twoGroups.serveAll givenBackCrosswise).1 1 := by
  have hturn := (handed_out_in_turn [[10, 11]] [[20, 21]] 2).2 twoGroups rfl givenBackCrosswise
  exact ⟨rfl, rfl, (hturn.acquire ⟨1, [11], [21]⟩ _ rfl).1⟩

end Pipeline

end TensorJit
