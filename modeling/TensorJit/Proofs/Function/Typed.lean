import TensorJit.Function.Evaluation
import TensorJit.Proofs.Step

/-!
# Typed functions

Evaluation checks the sizes of its operands except where an operation takes its size from its
operand alone. A function is **typed** when these operations, a change of sign and the identity,
are declared with the spec of their operand, and every value returned has the spec declared for
it.

When a typed function is evaluated on values that have the specs of its parameters and as many
elements as these say, **every result has the spec and the number of elements that the function
declares** (`Function.Typed.evaluate_sized`). All of them are floating point, since nothing else
can be computed or returned.
-/

namespace TensorJit

variable {α : Type}

/-- A floating-point value with as many elements as its spec says. -/
def Value.Sized (v : Value α) : Prop := v.spec.dtype = .f32 ∧ v.data.length = v.spec.elements

/-- The spec that parameters and instructions declare for what a reference points to. -/
def ValueRef.specIn (parameters : List TensorSpec) (body : List Instruction) :
    ValueRef → Option TensorSpec
  | .parameter position => parameters[position]?
  | .instruction position => (body[position]?).map (·.spec)

/-- More instructions do not change what a reference points to. -/
theorem ValueRef.specIn_append {parameters : List TensorSpec} {body more : List Instruction}
    {r : ValueRef} {spec : TensorSpec} (h : r.specIn parameters body = some spec) :
    r.specIn parameters (body ++ more) = some spec := by
  cases r with
  | parameter position => exact h
  | instruction position =>
    obtain ⟨i, hi, rfl⟩ := Option.map_eq_some_iff.1 h
    have hlt : position < body.length := (List.getElem?_eq_some_iff.1 hi).1
    exact Option.map_eq_some_iff.2 ⟨i, by rw [List.getElem?_append_left hlt, hi], rfl⟩

namespace Function

/-- The spec that a function declares for what a reference points to. -/
def specOf (f : Function) (r : ValueRef) : Option TensorSpec := r.specIn f.parameters f.body

/-- Where evaluation checks no sizes, the declared specs agree. -/
structure Typed (f : Function) : Prop where
  /-- An operation that takes its size from its operand has the spec of its operand. -/
  body : ∀ i ∈ f.body, i.op = .neg ∨ i.op = .identity →
    ∀ r ∈ i.operands, f.specOf r = some i.spec
  /-- What is returned has the declared specs. -/
  outputs : f.outputs.map f.specOf = f.results.map some

/-- Parameters that have the declared specs and their sizes, where they are not absent. -/
def Fits (f : Function) (parameters : List (Option (Value α))) : Prop :=
  ∀ (position : Nat) (v : Value α), parameters[position]? = some (some v) →
    f.parameters[position]? = some v.spec ∧ v.Sized

end Function

namespace Evaluation

variable {arith : Ieee.Arithmetic α} {f : Function} {parameters : List (Option (Value α))}

/-- The results of the first instructions have the declared specs and their sizes. -/
def Prefix (f : Function) (results : List (Value α)) : Prop :=
  ∀ (position : Nat) (v : Value α), results[position]? = some v →
    (f.body[position]?).map (·.spec) = some v.spec ∧ v.Sized

theorem fetch_sized {results : List (Value α)} {r : ValueRef} {v : Value α}
    (hfits : f.Fits parameters) (hresults : Prefix f results)
    (h : Env.fetch ⟨parameters, results⟩ r = .ok v) : f.specOf r = some v.spec ∧ v.Sized := by
  cases r with
  | parameter position =>
    unfold Env.fetch at h
    dsimp only at h
    split at h
    · rename_i w hw
      cases h
      exact hfits position v hw
    · cases h
  | instruction position =>
    unfold Env.fetch at h
    dsimp only at h
    split at h
    · rename_i w hw
      cases h
      exact hresults position v hw
    · cases h

theorem mapM_fetch_sized {results : List (Value α)} {refs : List ValueRef} {vs : List (Value α)}
    (hfits : f.Fits parameters) (hresults : Prefix f results)
    (h : refs.mapM (Env.fetch ⟨parameters, results⟩) = .ok vs) :
    refs.map f.specOf = vs.map (some ·.spec) ∧ ∀ v ∈ vs, v.Sized := by
  induction refs generalizing vs with
  | nil =>
    rw [List.mapM_nil] at h
    cases h
    exact ⟨rfl, nofun⟩
  | cons r refs ih =>
    rw [List.mapM_cons] at h
    obtain ⟨v, hv, h⟩ := except_bind_eq_ok.1 h
    obtain ⟨ws, hws, h⟩ := except_bind_eq_ok.1 h
    cases h
    obtain ⟨hspec, hsized⟩ := fetch_sized hfits hresults hv
    obtain ⟨hspecs, hall⟩ := ih hws
    refine ⟨by rw [List.map_cons, List.map_cons, hspec, hspecs], fun w hw => ?_⟩
    rcases List.mem_cons.1 hw with rfl | hw
    · exact hsized
    · exact hall w hw

theorem binary_sized {op : α → α → α} {spec : TensorSpec} {operands : List (Value α)}
    {v : Value α} (h : binary op spec operands = .ok v) :
    v.spec = spec ∧ v.data.length = spec.elements := by
  unfold binary at h
  split at h
  · split at h
    · cases h
    · rename_i hlen
      cases h
      simp only [not_or, not_not] at hlen
      refine ⟨rfl, ?_⟩
      rw [List.length_zipWith, ← hlen.1, Nat.min_self, hlen.2]
  · cases h

theorem unary_sized {op : α → α} {spec : TensorSpec} {operands : List (Value α)} {v : Value α}
    (hop : ∀ x ∈ operands, x.spec = spec ∧ x.Sized) (h : unary op spec operands = .ok v) :
    v.spec = spec ∧ v.data.length = spec.elements := by
  unfold unary at h
  split at h
  · rename_i x
    cases h
    obtain ⟨hspec, -, hlen⟩ := hop x List.mem_cons_self
    exact ⟨rfl, by rw [List.length_map, hlen, hspec]⟩
  · cases h

theorem reshape_sized {spec : TensorSpec} {operands : List (Value α)} {v : Value α}
    (h : reshape spec operands = .ok v) : v.spec = spec ∧ v.data.length = spec.elements := by
  unfold reshape at h
  split at h
  · split at h
    · cases h
    · rename_i hlen
      cases h
      exact ⟨rfl, not_not.1 hlen⟩
  · cases h

/-- **One instruction**: its result has the declared spec and its size. -/
theorem execute_sized {i : Instruction} {operands : List (Value α)} {v : Value α}
    (hop : i.op = .neg ∨ i.op = .identity → ∀ x ∈ operands, x.spec = i.spec ∧ x.Sized)
    (h : execute arith i operands = .ok v) : v.spec = i.spec ∧ v.Sized := by
  unfold execute at h
  split at h
  · cases h
  · rename_i hdtype
    have hsized : v.spec = i.spec ∧ v.data.length = i.spec.elements := by
      cases hi : i.op with
      | add => rw [hi] at h; exact binary_sized h
      | sub => rw [hi] at h; exact binary_sized h
      | mul => rw [hi] at h; exact binary_sized h
      | neg => rw [hi] at h; exact unary_sized (hop (.inl hi)) h
      | identity => rw [hi] at h; exact unary_sized (hop (.inr hi)) h
      | reshape => rw [hi] at h; exact reshape_sized h
    obtain ⟨hspec, hlen⟩ := hsized
    exact ⟨hspec, by rw [hspec]; exact not_not.1 hdtype, by rw [hspec, hlen]⟩

/-- **All instructions**, by induction on those that are left: what has been computed stays a
prefix of what is declared. -/
theorem run_sized (htyped : f.Typed) (hfits : f.Fits parameters) {done rest : List Instruction}
    {results all : List (Value α)} (hbody : f.body = done ++ rest)
    (hlen : results.length = done.length) (hresults : Prefix f results)
    (h : run arith parameters rest results = .ok all) : Prefix f all := by
  induction rest generalizing done results with
  | nil =>
    cases h
    exact hresults
  | cons i rest ih =>
    unfold run at h
    obtain ⟨operands, hoperands, h⟩ := except_bind_eq_ok.1 h
    obtain ⟨v, hv, h⟩ := except_bind_eq_ok.1 h
    obtain ⟨hspecs, hsized⟩ := mapM_fetch_sized hfits hresults hoperands
    have hi : i ∈ f.body := by
      rw [hbody]
      exact List.mem_append_right _ List.mem_cons_self
    have hop : i.op = .neg ∨ i.op = .identity → ∀ x ∈ operands, x.spec = i.spec ∧ x.Sized := by
      intro hunary x hx
      obtain ⟨r, hr, hrx⟩ := List.mem_map.1
        (hspecs ▸ List.mem_map_of_mem (f := fun v : Value α => some v.spec) hx)
      exact ⟨Option.some.inj (hrx.symm.trans (htyped.body i hi hunary r hr)), hsized x hx⟩
    -- Operands are parameters or earlier results, so they are sized, and so is what comes of them.
    obtain ⟨hspec, hv⟩ := execute_sized hop hv
    refine ih (show f.body = (done ++ [i]) ++ rest by simp [hbody]) (by simp [hlen]) ?_ h
    intro position w hw
    rcases Nat.lt_or_ge position results.length with hlt | hge
    · rw [List.getElem?_append_left hlt] at hw
      exact hresults position w hw
    · rw [List.getElem?_append_right hge] at hw
      obtain ⟨hposition, rfl⟩ : position - results.length = 0 ∧ v = w := by
        rcases hp : position - results.length with _ | n
        · rw [hp] at hw
          exact ⟨rfl, Option.some.inj hw⟩
        · rw [hp] at hw
          simp at hw
      have hpos : position = done.length := by omega
      refine ⟨?_, hv⟩
      rw [hbody, hpos, List.getElem?_append_right (Nat.le_refl _), Nat.sub_self, hspec]
      rfl

end Evaluation

/-- **The results of a typed function have the declared specs and their sizes.** -/
theorem Function.Typed.evaluate_sized {arith : Ieee.Arithmetic α} {f : Function}
    {parameters : List (Option (Value α))} {results : List (Value α)} (htyped : f.Typed)
    (hfits : f.Fits parameters) (h : f.evaluate arith parameters = .ok results) :
    results.map (·.spec) = f.results ∧ ∀ v ∈ results, v.Sized := by
  unfold Function.evaluate at h
  split at h
  · cases h
  · obtain ⟨all, hall, h⟩ := except_bind_eq_ok.1 h
    have hnone : Evaluation.Prefix f ([] : List (Value α)) := fun _ _ h => by simp at h
    have hprefix := Evaluation.run_sized htyped hfits (show f.body = [] ++ f.body from rfl) rfl
      hnone hall
    obtain ⟨hspecs, hsized⟩ := Evaluation.mapM_fetch_sized hfits hprefix h
    refine ⟨?_, hsized⟩
    have hsome : (results.map (·.spec)).map some = f.results.map some := by
      rw [List.map_map, ← htyped.outputs, hspecs]
      rfl
    exact List.map_injective_iff.2 (fun _ _ => Option.some.inj) hsome

end TensorJit
