import TensorJit.Function.Evaluation
import TensorJit.Proofs.Step

/-!
# Outlines of values

The outline of a value is its spec with the number of its elements. Evaluation decides by outlines
alone whether it goes on: it asks for the element types, for the number of elements and for the
presence of a parameter, and never for an element. So **the outlines of the results are those that
evaluation gives for the outlines of the parameters** (`Function.evaluate_outlines`), and it stops
for the one where it stops for the other.

Two calls whose parameters have the same outlines therefore write the same number of bytes to each
output, whatever is in them.
-/

namespace TensorJit

/-- The arithmetic of elements that nobody tells apart. -/
def Ieee.Arithmetic.blank : Ieee.Arithmetic Unit := ⟨fun _ _ => (), fun _ _ => (), fun _ _ => (), id⟩

variable {α : Type}

/-- A value without its elements, of which the number is left. -/
def Value.outline (v : Value α) : Value Unit := ⟨v.spec, v.data.map fun _ => ()⟩

theorem Value.length_outline (v : Value α) : v.outline.data.length = v.data.length :=
  List.length_map _

/-- Two values have one outline if they have one spec and as many elements. -/
theorem Value.outline_eq_iff {v : Value α} {w : Value Unit} :
    v.outline = w ↔ v.spec = w.spec ∧ v.data.length = w.data.length := by
  constructor
  · rintro rfl
    exact ⟨rfl, v.length_outline.symm⟩
  · rintro ⟨hspec, hlength⟩
    obtain ⟨spec, data⟩ := w
    unfold outline
    rw [Value.mk.injEq]
    refine ⟨hspec, List.ext_getElem (by rwa [List.length_map]) fun _ _ _ => rfl⟩

/-- The outlines of parameters, where they are not absent. -/
def Value.outlines (parameters : List (Option (Value α))) : List (Option (Value Unit)) :=
  parameters.map (·.map Value.outline)

namespace Evaluation

variable {arith : Ieee.Arithmetic α} {parameters : List (Option (Value α))}

/-- The result of a step with the outline of its value. -/
def outlined (x : Except EvalFault (Value α)) : Except EvalFault (Value Unit) := x.map Value.outline

/-- What a reference leads to has the outline that it leads to among outlines. -/
theorem outlined_fetch (results : List (Value α)) (r : ValueRef) :
    outlined (Env.fetch ⟨parameters, results⟩ r) =
      Env.fetch ⟨Value.outlines parameters, results.map Value.outline⟩ r := by
  cases r with
  | parameter position =>
    unfold Env.fetch Value.outlines
    dsimp only
    rw [List.getElem?_map]
    rcases parameters[position]? with _ | _ | v
    · rfl
    · rfl
    · rfl
  | instruction position =>
    unfold Env.fetch
    dsimp only
    rw [List.getElem?_map]
    cases results[position]? with
    | none => rfl
    | some v => rfl

theorem mapM_outlined_fetch (results : List (Value α)) (refs : List ValueRef) :
    (refs.mapM (Env.fetch ⟨parameters, results⟩)).map (List.map Value.outline) =
      refs.mapM (Env.fetch ⟨Value.outlines parameters, results.map Value.outline⟩) := by
  induction refs with
  | nil => rfl
  | cons r refs ih =>
    rw [List.mapM_cons, List.mapM_cons, ← ih, ← outlined_fetch]
    cases Env.fetch ⟨parameters, results⟩ r with
    | error fault => rfl
    | ok v =>
      cases refs.mapM (Env.fetch ⟨parameters, results⟩) with
      | error fault => rfl
      | ok vs => rfl

theorem outlined_binary (op : α → α → α) (spec : TensorSpec) (operands : List (Value α)) :
    outlined (binary op spec operands) =
      binary (fun _ _ => ()) spec (operands.map Value.outline) := by
  rcases operands with _ | ⟨x, _ | ⟨y, _ | ⟨z, rest⟩⟩⟩
  · rfl
  · rfl
  · unfold binary
    simp only [List.map_cons, List.map_nil, Value.length_outline]
    split
    · rfl
    · exact congrArg Except.ok (Value.outline_eq_iff.2 ⟨rfl, by simp [Value.outline]⟩)
  · rfl

theorem outlined_unary {op : α → α} {op' : Unit → Unit} (spec : TensorSpec)
    (operands : List (Value α)) :
    outlined (unary op spec operands) = unary op' spec (operands.map Value.outline) := by
  rcases operands with _ | ⟨x, _ | ⟨y, rest⟩⟩
  · rfl
  · exact congrArg Except.ok (Value.outline_eq_iff.2 ⟨rfl, by simp [Value.outline]⟩)
  · unfold unary outlined
    simp [Except.map]

theorem outlined_reshape (spec : TensorSpec) (operands : List (Value α)) :
    outlined (reshape spec operands) = reshape spec (operands.map Value.outline) := by
  rcases operands with _ | ⟨x, _ | ⟨y, rest⟩⟩
  · rfl
  · unfold reshape
    simp only [List.map_cons, List.map_nil, Value.length_outline]
    split
    · rfl
    · rfl
  · unfold reshape outlined
    simp [Except.map]

/-- **One instruction.** -/
theorem outlined_execute (arith : Ieee.Arithmetic α) (i : Instruction)
    (operands : List (Value α)) :
    outlined (execute arith i operands) = execute .blank i (operands.map Value.outline) := by
  unfold execute
  split
  · rfl
  · cases i.op with
    | add => exact outlined_binary _ _ _
    | sub => exact outlined_binary _ _ _
    | mul => exact outlined_binary _ _ _
    | neg => exact outlined_unary _ _
    | identity => exact outlined_unary _ _
    | reshape => exact outlined_reshape _ _

/-- **All instructions**, by induction on those that are left. -/
theorem run_outlines (arith : Ieee.Arithmetic α) (parameters : List (Option (Value α)))
    (body : List Instruction) (results : List (Value α)) :
    (run arith parameters body results).map (List.map Value.outline) =
      run .blank (Value.outlines parameters) body (results.map Value.outline) := by
  induction body generalizing results with
  | nil => rfl
  | cons i rest ih =>
    unfold run
    rw [← mapM_outlined_fetch]
    cases i.operands.mapM (Env.fetch ⟨parameters, results⟩) with
    | error fault => rfl
    | ok operands =>
      change Except.map _ (execute arith i operands >>= _) =
        (execute .blank i (operands.map Value.outline) >>= _)
      rw [← outlined_execute arith]
      cases execute arith i operands with
      | error fault => rfl
      | ok v =>
        refine (ih (results ++ [v])).trans ?_
        rw [List.map_append]
        rfl

end Evaluation

namespace Function

variable {arith : Ieee.Arithmetic α} {parameters parameters' : List (Option (Value α))}

/-- **Evaluation goes by outlines**: it gives the outlines of the results for the outlines of the
parameters, and stops there for the same reason. -/
theorem evaluate_outlines (f : Function) (arith : Ieee.Arithmetic α)
    (parameters : List (Option (Value α))) :
    (f.evaluate arith parameters).map (List.map Value.outline) =
      f.evaluate .blank (Value.outlines parameters) := by
  unfold evaluate
  rw [show (Value.outlines parameters).length = parameters.length from List.length_map _]
  split
  · rfl
  · change Except.map _ (Evaluation.run arith parameters f.body [] >>= _) =
      (Evaluation.run .blank (Value.outlines parameters) f.body [] >>= _)
    have hrun := Evaluation.run_outlines arith parameters f.body []
    rw [List.map_nil] at hrun
    rw [← hrun]
    cases Evaluation.run arith parameters f.body [] with
    | error fault => rfl
    | ok results => exact Evaluation.mapM_outlined_fetch results f.outputs

/-- Results have the outlines that evaluation gives for those of the parameters. -/
theorem evaluate_outlines_eq_ok {f : Function} {results : List (Value α)}
    (h : f.evaluate arith parameters = .ok results) :
    f.evaluate .blank (Value.outlines parameters) = .ok (results.map Value.outline) := by
  rw [← evaluate_outlines, h]
  rfl

end Function

end TensorJit
