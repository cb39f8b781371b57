import TensorJit.Executor.Compile
import TensorJit.Proofs.Lowering
import TensorJit.Proofs.Signature.Text

/-!
# What is made of a signature

An executor has a table, or it makes functions. Function and executable depend on nothing but the
executor and the inputs (`Executor.product?`); where functions are made by lowering, they are **what
lowering makes of the graph of the unit**, under the name of the unit, and an executable of this
function (`Executor.Lowers.product?_eq_some_iff`). Inputs of one signature and of the same element
types have the same product then (`Signature.lowered_eq_of_signature_eq`).
-/

namespace TensorJit

/-- The executor makes functions by lowering, and has no table. -/
structure Executor.Lowers (e : Executor) : Prop where
  /-- Functions are made by lowering. -/
  translator : e.translator = some .lowering
  /-- There is no table of precompiled functions. -/
  table : e.config.aot = none

/-- What lowering makes of the graph of a unit, under the name of the unit. -/
def ExecutionUnit.lowered (u : ExecutionUnit) (computed : Signature.Computed) :
    Except Error Function :=
  (Translator.lowering u.graph computed.specs computed.statics).map fun f =>
    { f with name := u.name }

/-! ### What is made of a signature -/

namespace Executor

variable {e : Executor} {computed : Signature.Computed} {f : Function} {x : Executable}

/-- The function that an executor has or makes for a signature, if it has or can make one. -/
def function? (e : Executor) (computed : Signature.Computed) : Option Function :=
  match e.config.aot, e.translator with
  | some table, _ => (table.function? computed.signature).join
  | none, none => none
  | none, some translate =>
    (translate e.unit.graph computed.specs computed.statics).toOption.map fun f =>
      { f with name := e.unit.name }

/-- The executable that becomes of a function, if none of the table is loaded instead. -/
def executable? (e : Executor) (signature : Signature) (f : Function) : Option Executable :=
  match e.config.aot with
  | none => some ⟨f⟩
  | some table => ((table.executable? signature).bind Function.deserialize?).map Executable.mk

/-- A function and its executable. -/
def product? (e : Executor) (computed : Signature.Computed) : Option (Function × Executable) :=
  (e.function? computed).bind fun f => (e.executable? computed.signature f).map (f, ·)

theorem product?_eq_some_iff : e.product? computed = some (f, x) ↔
    e.function? computed = some f ∧ e.executable? computed.signature f = some x := by
  unfold product?
  constructor
  · intro h
    obtain ⟨g, hg, h⟩ := Option.bind_eq_some_iff.1 h
    obtain ⟨y, hy, heq⟩ := Option.map_eq_some_iff.1 h
    obtain ⟨rfl, rfl⟩ := Prod.mk.inj heq
    exact ⟨hg, hy⟩
  · rintro ⟨hf, hx⟩
    rw [hf, Option.bind_some, hx]
    rfl

/-- There is no product if there is no function. -/
theorem product?_of_function?_eq_none (h : e.function? computed = none) :
    e.product? computed = none := by
  unfold product?
  rw [h]
  rfl

/-- Executors of one unit that make functions in the same way. -/
theorem product?_congr {e e' : Executor} (hunit : e'.unit = e.unit)
    (htranslator : e'.translator = e.translator) (hconfig : e'.config = e.config) :
    e'.product? = e.product? := by
  funext computed
  unfold product? function? executable?
  rw [hunit, htranslator, hconfig]

theorem Lowers.function?_eq (h : e.Lowers) (computed : Signature.Computed) :
    e.function? computed = (e.unit.lowered computed).toOption := by
  unfold function? ExecutionUnit.lowered
  rw [h.table, h.translator]
  dsimp only
  cases Translator.lowering e.unit.graph computed.specs computed.statics with
  | ok f => rfl
  | error fault => rfl

/-- Where functions are made by lowering, the product is what lowering makes. -/
theorem Lowers.product?_eq_some_iff (h : e.Lowers) : e.product? computed = some (f, x) ↔
    e.unit.lowered computed = .ok f ∧ x = ⟨f⟩ := by
  have hexecutable : ∀ g, e.executable? computed.signature g = some ⟨g⟩ := fun g => by
    unfold executable?
    rw [h.table]
  rw [Executor.product?_eq_some_iff, h.function?_eq, hexecutable]
  cases e.unit.lowered computed with
  | ok g =>
    constructor
    · rintro ⟨hg, hx⟩
      exact ⟨congrArg Except.ok (Option.some.inj hg), (Option.some.inj hx).symm⟩
    · rintro ⟨hg, rfl⟩
      exact ⟨congrArg some (Except.ok.inj hg), rfl⟩
  | error fault =>
    constructor
    · rintro ⟨hg, -⟩
      cases hg
    · rintro ⟨hg, -⟩
      cases hg

end Executor

/-! ### Signatures and lowering -/

theorem ExecutionUnit.lowered_eq_ok {u : ExecutionUnit} {computed : Signature.Computed}
    {f : Function} (h : u.lowered computed = .ok f) :
    f.parameters = computed.specs ∧ f.Typed := by
  unfold ExecutionUnit.lowered Translator.lowering at h
  cases hl : u.graph.lower computed.specs computed.statics with
  | error e => rw [hl] at h; cases h
  | ok g =>
    rw [hl] at h
    cases h
    obtain ⟨htyped, hparameters⟩ := Lowering.lower_typed hl
    exact ⟨hparameters, htyped.body, htyped.outputs⟩

/-- The function of a graph with an output has a result. -/
theorem ExecutionUnit.results_ne_nil_of_lowered {u : ExecutionUnit} {computed : Signature.Computed}
    {f : Function} (h : u.lowered computed = .ok f)
    (hretval : ∃ node ∈ u.graph.nodes, node.isRetval = true) : f.results ≠ [] := by
  obtain ⟨node, hnode, hretval⟩ := hretval
  unfold ExecutionUnit.lowered Translator.lowering at h
  cases hl : u.graph.lower computed.specs computed.statics with
  | error e => rw [hl] at h; cases h
  | ok g =>
    rw [hl] at h
    cases h
    have hne : g.results ≠ [] := Lowering.lower_results_ne_nil hl hnode hretval
    exact hne

namespace Signature

variable {flags : StaticInputs} {ts us : List Tensor} {c d : Computed}

/-- Inputs of one signature and of the same element types have the same specs. -/
theorem specs_eq_of_signature_eq (hc : compute flags ts = .ok c) (hd : compute flags us = .ok d)
    (h : c.signature = d.signature) (hdtypes : ts.map (·.spec.dtype) = us.map (·.spec.dtype)) :
    c.specs = d.specs := by
  obtain ⟨-, -, -, hcspecs, -⟩ := compute_eq_ok hc
  obtain ⟨-, -, -, hdspecs, -⟩ := compute_eq_ok hd
  have hshapes := shapes_eq_of_signature_eq hc hd h
  rw [hcspecs, hdspecs]
  have hzip : ∀ l : List Tensor, l.map (·.spec) =
      List.zipWith TensorSpec.mk (l.map (·.spec.dtype)) (l.map (·.spec.shape)) := fun l => by
    induction l with
    | nil => rfl
    | cons t l ih => rw [List.map_cons, ih]; rfl
  rw [hzip ts, hzip us, hdtypes, hshapes]

/-- Inputs of one signature are equally many. -/
theorem length_eq_of_signature_eq (hc : compute flags ts = .ok c) (hd : compute flags us = .ok d)
    (h : c.signature = d.signature) : ts.length = us.length := by
  have hshapes := congrArg List.length (shapes_eq_of_signature_eq hc hd h)
  rwa [List.length_map, List.length_map] at hshapes

/-- **Inputs of one signature and of the same element types lower to one function.** -/
theorem lowered_eq_of_signature_eq (u : ExecutionUnit) (hc : compute flags ts = .ok c)
    (hd : compute flags us = .ok d) (h : c.signature = d.signature)
    (hdtypes : ts.map (·.spec.dtype) = us.map (·.spec.dtype)) : u.lowered c = u.lowered d := by
  have hspecs := specs_eq_of_signature_eq hc hd h hdtypes
  have hstatics := integers_eq_of_signature_eq hc hd h hspecs
  unfold ExecutionUnit.lowered Translator.lowering
  rw [hspecs, Lowering.lower_congr hstatics]

end Signature

/-! ### Inputs of given element types -/

/-- Each input has the element type that its position is to have. -/
def HasDTypes (δ : Nat → DType) (ts : List Tensor) : Prop :=
  ∀ (position : Nat) (t : Tensor), ts[position]? = some t → t.spec.dtype = δ position

theorem HasDTypes.dtypes_eq {δ : Nat → DType} {ts us : List Tensor} (hts : HasDTypes δ ts)
    (hus : HasDTypes δ us) (hlen : ts.length = us.length) :
    ts.map (·.spec.dtype) = us.map (·.spec.dtype) := by
  refine List.ext_getElem (by rw [List.length_map, List.length_map, hlen]) fun q hq hq' => ?_
  rw [List.length_map] at hq hq'
  rw [List.getElem_map, List.getElem_map, hts q _ (List.getElem?_eq_getElem hq),
    hus q _ (List.getElem?_eq_getElem hq')]

/-- Inputs of one signature, of which each has the element type of its position, have the same
specs. -/
theorem HasDTypes.specs_eq {δ : Nat → DType} {flags : StaticInputs} {ts us : List Tensor}
    {c d : Signature.Computed} (hts : HasDTypes δ ts) (hus : HasDTypes δ us)
    (hc : Signature.compute flags ts = .ok c) (hd : Signature.compute flags us = .ok d)
    (h : c.signature = d.signature) : c.specs = d.specs :=
  Signature.specs_eq_of_signature_eq hc hd h
    (hts.dtypes_eq hus (Signature.length_eq_of_signature_eq hc hd h))

/-- What the executor makes for inputs with the element types of their positions can be called with
them. -/
def Executor.Suits (e : Executor) (δ : Nat → DType) : Prop :=
  ∀ ts computed f x, HasDTypes δ ts → Signature.compute e.statics ts = .ok computed →
    e.product? computed = some (f, x) → x.function.Typed ∧ x.function.parameters = computed.specs

/-- So can what lowering makes, whatever the element types. -/
theorem Executor.Lowers.suits {e : Executor} (h : e.Lowers) (δ : Nat → DType) : e.Suits δ := by
  intro ts computed f x _ _ hproduct
  obtain ⟨hlowered, rfl⟩ := h.product?_eq_some_iff.1 hproduct
  exact (ExecutionUnit.lowered_eq_ok hlowered).symm

/-- Executors that make the same things of the same inputs. -/
theorem Executor.Suits.congr {e e' : Executor} {δ : Nat → DType} (h : e.Suits δ)
    (hstatics : e'.statics = e.statics) (hproduct : e'.product? = e.product?) : e'.Suits δ := by
  unfold Executor.Suits
  rw [hstatics, hproduct]
  exact h

end TensorJit
