import TensorJit.Backend.Basic
import TensorJit.Proofs.Function.Run

/-!
# What can be evaluated is accepted

The reference backend takes a function only if it is well formed and computes nothing but floating
point. Evaluation checks the same things, but for the number of values returned, each when it comes
to it: a reference that could be followed is defined, an operation that went through had as many
operands as it takes, and its result was floating point. So **a function that evaluates on some
parameters is accepted** if it returns as many values as it declares (`Backend.accept_of_evaluate`),
and a function that is refused cannot be evaluated anywhere.
-/

namespace TensorJit

variable {α : Type} {arith : Ieee.Arithmetic α} {f : Function}
  {parameters : List (Option (Value α))} {results all : List (Value α)}

namespace Evaluation

theorem defined_of_fetch (hparameters : parameters.length = f.parameters.length) {r : ValueRef}
    {v : Value α} (h : Env.fetch ⟨parameters, results⟩ r = .ok v) : f.Defined results.length r := by
  cases r with
  | parameter position =>
    unfold Env.fetch at h
    dsimp only at h
    split at h
    · rename_i w hw
      have hlt : position < parameters.length := (List.getElem?_eq_some_iff.1 hw).1
      exact Nat.lt_of_lt_of_eq hlt hparameters
    · cases h
  | instruction position =>
    unfold Env.fetch at h
    dsimp only at h
    split at h
    · rename_i w hw
      exact (List.getElem?_eq_some_iff.1 hw).1
    · cases h

theorem checkRefs_of_mapM_fetch (hparameters : parameters.length = f.parameters.length)
    {refs : List ValueRef} {values : List (Value α)}
    (h : refs.mapM (Env.fetch ⟨parameters, results⟩) = .ok values) :
    f.checkRefs results.length refs = .ok () := by
  have hdefined : ∀ r ∈ refs, f.Defined results.length r := by
    intro r hr
    obtain ⟨q, hq⟩ := List.getElem?_of_mem hr
    obtain ⟨hlt, rfl⟩ := List.getElem?_eq_some_iff.1 hq
    have hfetches := except_mapM_eq_ok.1 h
    exact defined_of_fetch hparameters
      (hfetches.get hlt (Nat.lt_of_lt_of_eq hlt hfetches.length_eq))
  have hnone : refs.find? (fun r => !decide (f.Defined results.length r)) = none := by
    rw [List.find?_eq_none]
    intro r hr
    simp [hdefined r hr]
  unfold Function.checkRefs
  rw [hnone]

/-- An operation that went through. -/
theorem arity_of_execute {i : Instruction} {operands : List (Value α)} {v : Value α}
    (h : execute arith i operands = .ok v) :
    i.spec.dtype = .f32 ∧ operands.length = i.op.arity := by
  have hbinary : ∀ apply, binary apply i.spec operands = .ok v → operands.length = 2 := by
    intro apply h
    unfold binary at h
    split at h
    · rfl
    · cases h
  have hunary : ∀ apply, unary apply i.spec operands = .ok v → operands.length = 1 := by
    intro apply h
    unfold unary at h
    split at h
    · rfl
    · cases h
  have hreshape : reshape i.spec operands = .ok v → operands.length = 1 := by
    intro h
    unfold reshape at h
    split at h
    · rfl
    · cases h
  unfold execute at h
  split at h
  · cases h
  · rename_i hdtype
    refine ⟨not_not.1 hdtype, ?_⟩
    cases hop : i.op with
    | add | sub | mul =>
      rw [hop] at h
      exact hbinary _ h
    | neg | identity =>
      rw [hop] at h
      exact hunary _ h
    | reshape =>
      rw [hop] at h
      exact hreshape h

/-- **Instructions that went through are well formed.** By induction on the instructions that are
left, where there are as many results as instructions before them. -/
theorem checkBody_of_run (hparameters : parameters.length = f.parameters.length)
    {body : List Instruction} (h : run arith parameters body results = .ok all) :
    f.checkBody results.length body = .ok () ∧ (∀ i ∈ body, i.spec.dtype = .f32) ∧
      all.length = results.length + body.length := by
  induction body generalizing results with
  | nil =>
    cases h
    exact ⟨rfl, nofun, rfl⟩
  | cons i rest ih =>
    unfold run at h
    obtain ⟨operands, hoperands, h⟩ := except_bind_eq_ok.1 h
    obtain ⟨v, hv, h⟩ := except_bind_eq_ok.1 h
    obtain ⟨hrest, hdtypes, hlength⟩ := ih h
    obtain ⟨hdtype, harity⟩ := arity_of_execute hv
    rw [List.length_append, List.length_singleton] at hrest hlength
    have hcount : i.operands.length = i.op.arity :=
      ((except_mapM_eq_ok.1 hoperands).length_eq).trans harity
    refine ⟨?_, ?_, by rw [hlength, List.length_cons]; omega⟩
    · unfold Function.checkBody Function.checkInstruction
      rw [if_neg (not_not.2 hcount), checkRefs_of_mapM_fetch hparameters hoperands]
      exact hrest
    · intro j hj
      rcases List.mem_cons.1 hj with rfl | hj
      · exact hdtype
      · exact hdtypes j hj

end Evaluation

/-- **A function that evaluates is accepted**, if it returns as many values as it declares. -/
theorem Backend.accept_of_evaluate {returned : List (Value α)}
    (h : f.evaluate arith parameters = .ok returned)
    (hcount : f.outputs.length = f.results.length) :
    accept f = .ok ⟨f⟩ := by
  unfold Function.evaluate at h
  split at h
  · cases h
  rename_i hlength
  obtain ⟨all, hrun, houtputs⟩ := except_bind_eq_ok.1 h
  obtain ⟨hbody, hdtypes, hall⟩ := Evaluation.checkBody_of_run (not_not.1 hlength) hrun
  have hrefs := Evaluation.checkRefs_of_mapM_fetch (not_not.1 hlength) houtputs
  rw [hall, List.length_nil, Nat.zero_add] at hrefs
  have hvalid : f.validate = .ok () := by
    unfold Function.validate
    rw [show f.checkBody 0 f.body = .ok () from hbody]
    change (do
      if f.outputs.length ≠ f.results.length then
        .error (.resultCount f.name f.results.length f.outputs.length)
      f.checkRefs f.body.length f.outputs) = Except.ok ()
    rw [if_neg (not_not.2 hcount)]
    exact hrefs
  have hnone : f.body.find? (fun i => i.spec.dtype ≠ .f32) = none := by
    rw [List.find?_eq_none]
    intro i hi
    simp [hdtypes i hi]
  unfold accept
  rw [hvalid, hnone]
  rfl

end TensorJit
