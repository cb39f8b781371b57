import TensorJit.Proofs.Graph.Denotation
import TensorJit.Proofs.Step

/-!
# What evaluation comes to

Evaluation adds one value per instruction and takes none back, so a reference that could be
followed at some point leads to the same value at the end (`Env.fetch_of_isPrefix`). Hence
**every instruction can be read against all results at once** (`Evaluation.run_eq_ok`): its
operands are what its references lead to, and its result stands at its position.

What an instruction does to the elements is told by its operation alone (`binary_of_execute`,
`unary_of_execute`); the specs decide only whether it goes through.
-/

namespace TensorJit

namespace Evaluation

variable {α : Type} {arith : Ieee.Arithmetic α} {parameters : List (Option (Value α))}
  {results all : List (Value α)}

/-- A reference that can be followed leads to the same value when there are more results. -/
theorem Env.fetch_of_isPrefix {r : ValueRef} {v : Value α} (hpre : results <+: all)
    (h : Env.fetch ⟨parameters, results⟩ r = .ok v) : Env.fetch ⟨parameters, all⟩ r = .ok v := by
  cases r with
  | parameter position => exact h
  | instruction position =>
    unfold Env.fetch at h ⊢
    dsimp only at h ⊢
    split at h
    · rename_i w hw
      cases h
      obtain ⟨rest, rfl⟩ := hpre
      rw [List.getElem?_append_left (List.getElem?_eq_some_iff.1 hw).1, hw]
    · cases h

/-- The values that the references of a list lead to. -/
def Fetches (parameters : List (Option (Value α))) (all : List (Value α)) (refs : List ValueRef)
    (values : List (Value α)) : Prop :=
  List.Forall₂ (fun r v => Env.fetch ⟨parameters, all⟩ r = .ok v) refs values

/-- **Every instruction, read against all results.** By induction on the instructions that are
left, where the results so far stay a prefix. -/
theorem run_eq_ok {body : List Instruction} (h : run arith parameters body results = .ok all) :
    results <+: all ∧ all.length = results.length + body.length ∧
      ∀ (k : Nat) (i : Instruction), body[k]? = some i → ∃ operands v,
        Fetches parameters all i.operands operands ∧ execute arith i operands = .ok v ∧
          all[results.length + k]? = some v := by
  induction body generalizing results with
  | nil =>
    cases h
    exact ⟨List.prefix_rfl, rfl, nofun⟩
  | cons i rest ih =>
    unfold run at h
    obtain ⟨operands, hoperands, h⟩ := except_bind_eq_ok.1 h
    obtain ⟨v, hv, h⟩ := except_bind_eq_ok.1 h
    obtain ⟨hpre, hlength, hrest⟩ := ih h
    have hbefore : results <+: all := (List.prefix_append results [v]).trans hpre
    have hshift : ∀ k, (results ++ [v]).length + k = results.length + (k + 1) := fun k => by
      rw [List.length_append, List.length_singleton]
      omega
    refine ⟨hbefore, by rw [hlength, hshift, List.length_cons], fun k j hj => ?_⟩
    cases k with
    | zero =>
      obtain rfl := Option.some.inj hj
      refine ⟨operands, v, (except_mapM_eq_ok.1 hoperands).imp fun _ _ hfetch =>
        Env.fetch_of_isPrefix hbefore hfetch, hv, ?_⟩
      obtain ⟨more, rfl⟩ := hpre
      rw [List.append_assoc, Nat.add_zero, List.getElem?_append_right (Nat.le_refl _), Nat.sub_self]
      rfl
    | succ k =>
      obtain ⟨operands', w, hfetches, hw, hget⟩ := hrest k j hj
      exact ⟨operands', w, hfetches, hw, hshift k ▸ hget⟩

/-- What an operation of two operands makes of their elements. -/
theorem binary_of_execute {i : Instruction} {x y v : Value α} (hop : i.op.arity = 2)
    (h : execute arith i [x, y] = .ok v) : ∃ apply, i.op.binary? arith = some apply ∧
      x.data.length = y.data.length ∧ v.data = List.zipWith apply x.data y.data := by
  have hbinary : ∀ apply, binary apply i.spec [x, y] = .ok v →
      x.data.length = y.data.length ∧ v.data = List.zipWith apply x.data y.data := by
    intro apply h
    dsimp only [binary] at h
    split at h
    · cases h
    · rename_i hlength
      cases h
      exact ⟨not_not.1 (not_or.1 hlength).1, rfl⟩
  unfold execute at h
  split at h
  · cases h
  · cases hi : i.op with
    | add | sub | mul =>
      rw [hi] at h
      exact ⟨_, rfl, hbinary _ h⟩
    | neg | identity | reshape =>
      rw [hi] at hop
      cases hop

/-- What an operation of one operand makes of its elements. -/
theorem unary_of_execute {i : Instruction} {x v : Value α} (hop : i.op.arity = 1)
    (h : execute arith i [x] = .ok v) :
    ∃ apply, i.op.unary? arith = some apply ∧ v.data = x.data.map apply := by
  have hreshape : reshape i.spec [x] = .ok v → v.data = x.data := by
    intro h
    dsimp only [reshape] at h
    split at h
    · cases h
    · cases h
      rfl
  unfold execute at h
  split at h
  · cases h
  · cases hi : i.op with
    | add | sub | mul =>
      rw [hi] at hop
      cases hop
    | neg | identity =>
      rw [hi] at h
      cases h
      exact ⟨_, rfl, rfl⟩
    | reshape =>
      rw [hi] at h
      exact ⟨id, rfl, by rw [hreshape h, List.map_id]⟩

end Evaluation

/-- **What a function returns**, read against the results of all its instructions. -/
theorem Function.evaluate_eq_ok {α : Type} {arith : Ieee.Arithmetic α} {f : Function}
    {parameters : List (Option (Value α))} {returned : List (Value α)}
    (h : f.evaluate arith parameters = .ok returned) : ∃ all,
      Evaluation.run arith parameters f.body [] = .ok all ∧
        Evaluation.Fetches parameters all f.outputs returned := by
  unfold evaluate at h
  split at h
  · cases h
  · obtain ⟨all, hall, h⟩ := except_bind_eq_ok.1 h
    exact ⟨all, hall, except_mapM_eq_ok.1 h⟩

end TensorJit
