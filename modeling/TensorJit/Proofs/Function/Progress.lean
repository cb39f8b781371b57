import TensorJit.Proofs.Function.Typed

/-!
# Functions that run

Evaluation stops where an instruction cannot be executed. An instruction is **fed** by those before
it (`Instruction.Fed`) if it has as many operands as its operation takes, and each of them is
declared, by a parameter or an earlier instruction, with the element type and the number of elements
of the result. In a function of fed instructions (`Function.Fed`) nothing is left that could stop
the evaluation of floating point:

| what stops evaluation | why it does not occur |
|---|---|
| a wrong number of operands | there are as many as the operation takes |
| a reference to a later instruction | what it points to is declared before |
| an absent parameter | it is floating point like the result, and those are supplied |
| sizes that differ | operands and result are declared with one number of elements |

So **it returns a value for each result, with the declared spec and as many elements as that says**
(`Function.Fed.evaluates`). Such a function is well formed, too (`Function.Fed.validate`).
-/

namespace TensorJit

variable {α : Type}

/-! ### Fed instructions -/

/-- There are operands for an instruction among the parameters and the instructions before it. -/
structure Instruction.Fed (parameters : List TensorSpec) (before : List Instruction)
    (i : Instruction) : Prop where
  /-- There are as many of them as the operation takes. -/
  count : i.operands.length = i.op.arity
  /-- They have the element type and the number of elements of the result. -/
  operands : ∀ r ∈ i.operands, ∃ s, r.specIn parameters before = some s ∧
    s.dtype = i.spec.dtype ∧ s.elements = i.spec.elements

/-- Every instruction is fed by those before it. -/
def FedBody (parameters : List TensorSpec) (body : List Instruction) : Prop :=
  ∀ (k : Nat) (i : Instruction), body[k]? = some i → i.Fed parameters (body.take k)

theorem FedBody.append {parameters : List TensorSpec} {body : List Instruction} {i : Instruction}
    (h : FedBody parameters body) (hi : i.Fed parameters body) :
    FedBody parameters (body ++ [i]) := by
  intro k j hj
  rcases Nat.lt_or_ge k body.length with hlt | hge
  · rw [List.getElem?_append_left hlt] at hj
    rw [List.take_append_of_le_length (Nat.le_of_lt hlt)]
    exact h k j hj
  · -- It is the last one.
    obtain ⟨hk, -⟩ := List.getElem?_eq_some_iff.1 hj
    rw [List.length_append, List.length_singleton] at hk
    obtain rfl : k = body.length := by omega
    rw [List.getElem?_concat_length] at hj
    rw [List.take_left, ← Option.some.inj hj]
    exact hi

namespace Function

/-- Every instruction of a function is fed, and what it returns is declared. -/
structure Fed (f : Function) : Prop where
  /-- Every instruction is fed by those before it. -/
  body : FedBody f.parameters f.body
  /-- What is returned has the declared specs. -/
  outputs : f.outputs.map f.specOf = f.results.map some

/-! ### Well-formed functions -/

variable {f : Function}

theorem checkRefs_eq_ok_iff {limit : Nat} {refs : List ValueRef} :
    f.checkRefs limit refs = .ok () ↔ ∀ r ∈ refs, f.Defined limit r := by
  rw [checkRefs]
  cases hfind : refs.find? fun r => !decide (f.Defined limit r) with
  | none =>
    rw [List.find?_eq_none] at hfind
    exact ⟨fun _ r hr => by simpa using hfind r hr, fun _ => rfl⟩
  | some r =>
    have hnot : ¬ f.Defined limit r := by simpa using List.find?_some hfind
    exact ⟨nofun, fun h => absurd (h r (List.mem_of_find?_eq_some hfind)) hnot⟩

/-- The instructions from a position on are well formed if each of them is, at its place. -/
theorem checkBody_eq_ok_iff {position : Nat} {body : List Instruction} :
    f.checkBody position body = .ok () ↔ ∀ (k : Nat) (i : Instruction), body[k]? = some i →
      i.operands.length = i.op.arity ∧ ∀ r ∈ i.operands, f.Defined (position + k) r := by
  induction body generalizing position with
  | nil => exact ⟨fun _ => nofun, fun _ => rfl⟩
  | cons i rest ih =>
    have hfirst : f.checkInstruction position i = .ok () ↔
        i.operands.length = i.op.arity ∧ ∀ r ∈ i.operands, f.Defined position r := by
      rw [checkInstruction, ← checkRefs_eq_ok_iff]
      split
      · rename_i hne
        exact ⟨nofun, fun h => absurd h.1 hne⟩
      · rename_i heq
        exact ⟨fun h => ⟨not_not.1 heq, h⟩, And.right⟩
    have hshift : ∀ k, position + 1 + k = position + (k + 1) := by
      intro k
      omega
    rw [checkBody, except_bind_eq_ok]
    constructor
    · rintro ⟨⟨⟩, hi, hrest⟩ k j hj
      cases k with
      | zero =>
        obtain rfl := Option.some.inj hj
        exact hfirst.1 hi
      | succ k =>
        rw [← hshift]
        exact ih.1 hrest k j hj
    · intro h
      refine ⟨(), hfirst.2 (h 0 i rfl), ih.2 fun k j hj => ?_⟩
      rw [hshift]
      exact h (k + 1) j hj

/-- **When a function is well formed.** -/
theorem validate_eq_ok_iff : f.validate = .ok () ↔
    (∀ (k : Nat) (i : Instruction), f.body[k]? = some i →
      i.operands.length = i.op.arity ∧ ∀ r ∈ i.operands, f.Defined k r) ∧
    f.outputs.length = f.results.length ∧ ∀ r ∈ f.outputs, f.Defined f.body.length r := by
  have hbody : f.checkBody 0 f.body = .ok () ↔ ∀ (k : Nat) (i : Instruction),
      f.body[k]? = some i → i.operands.length = i.op.arity ∧ ∀ r ∈ i.operands, f.Defined k r := by
    rw [checkBody_eq_ok_iff]
    simp only [Nat.zero_add]
  rw [validate, except_bind_eq_ok, ← hbody, ← checkRefs_eq_ok_iff]
  by_cases hcount : f.outputs.length = f.results.length
  · constructor
    · rintro ⟨⟨⟩, h, hrest⟩
      rw [if_neg (not_not.2 hcount)] at hrest
      exact ⟨h, hcount, hrest⟩
    · rintro ⟨h, -, hrest⟩
      refine ⟨(), h, ?_⟩
      rw [if_neg (not_not.2 hcount)]
      exact hrest
  · constructor
    · rintro ⟨⟨⟩, -, hrest⟩
      rw [if_pos hcount] at hrest
      cases hrest
    · exact fun h => absurd h.2.1 hcount

/-- What is declared before an instruction is defined there. -/
theorem defined_of_specIn {before : List Instruction} {r : ValueRef} {s : TensorSpec}
    (h : r.specIn f.parameters before = some s) : f.Defined before.length r := by
  cases r with
  | parameter position => exact (List.getElem?_eq_some_iff.1 h).1
  | instruction position =>
    obtain ⟨i, hi, -⟩ := Option.map_eq_some_iff.1 h
    exact (List.getElem?_eq_some_iff.1 hi).1

theorem Fed.specOf_output (hf : f.Fed) {r : ValueRef} (hr : r ∈ f.outputs) :
    ∃ s ∈ f.results, f.specOf r = some s := by
  have hmem : f.specOf r ∈ f.results.map some := hf.outputs ▸ List.mem_map_of_mem hr
  obtain ⟨s, hs, hspec⟩ := List.mem_map.1 hmem
  exact ⟨s, hs, hspec.symm⟩

/-- **Functions of fed instructions are well formed.** -/
theorem Fed.validate (hf : f.Fed) : f.validate = .ok () := by
  refine validate_eq_ok_iff.2 ⟨fun k i hi => ?_, ?_, fun r hr => ?_⟩
  · obtain ⟨hcount, hoperands⟩ := hf.body k i hi
    refine ⟨hcount, fun r hr => ?_⟩
    obtain ⟨s, hs, -⟩ := hoperands r hr
    have hlt := (List.getElem?_eq_some_iff.1 hi).1
    have hdefined := defined_of_specIn hs
    rwa [List.length_take, Nat.min_eq_left (Nat.le_of_lt hlt)] at hdefined
  · have hlength := congrArg List.length hf.outputs
    rwa [List.length_map, List.length_map] at hlength
  · obtain ⟨s, -, hspec⟩ := hf.specOf_output hr
    exact defined_of_specIn hspec

/-- There are as many parameters as declared, and the ones declared as floating point are there,
with the declared spec and as many elements as it says. Nothing is asked of the others. -/
structure Supplied (f : Function) (parameters : List (Option (Value α))) : Prop where
  /-- There is an entry for every parameter. -/
  length : parameters.length = f.parameters.length
  /-- It is a value of the declared spec if that is floating point. -/
  floats : ∀ (position : Nat) (s : TensorSpec), f.parameters[position]? = some s →
    s.dtype = .f32 → ∃ v, parameters[position]? = some (some v) ∧ v.spec = s ∧
      v.data.length = s.elements

end Function

/-! ### Evaluation goes through -/

namespace Evaluation

variable {arith : Ieee.Arithmetic α} {f : Function} {parameters : List (Option (Value α))}

/-- A value is as a spec says. -/
def Meets (s : TensorSpec) (v : Value α) : Prop := v.spec = s ∧ v.data.length = s.elements

/-- Instructions have been executed, and each has given what it declares. -/
def Done (body : List Instruction) (results : List (Value α)) : Prop :=
  List.Forall₂ (fun i v => Meets i.spec v) body results

/-- **What is declared as floating point is there.** -/
theorem fetch_eq_ok (hsupplied : f.Supplied parameters) {before : List Instruction}
    {results : List (Value α)} (hdone : Done before results) {r : ValueRef} {s : TensorSpec}
    (hr : r.specIn f.parameters before = some s) (hs : s.dtype = .f32) :
    ∃ v, Env.fetch ⟨parameters, results⟩ r = .ok v ∧ Meets s v := by
  cases r with
  | parameter position =>
    obtain ⟨v, hv, hspec⟩ := hsupplied.floats position s hr hs
    refine ⟨v, ?_, hspec⟩
    simp only [Env.fetch, hv]
  | instruction position =>
    obtain ⟨i, hi, rfl⟩ := Option.map_eq_some_iff.1 hr
    obtain ⟨hlt, rfl⟩ := List.getElem?_eq_some_iff.1 hi
    have hlt' : position < results.length := Nat.lt_of_lt_of_eq hlt hdone.length_eq
    refine ⟨results[position], ?_, hdone.get hlt hlt'⟩
    simp only [Env.fetch, List.getElem?_eq_getElem hlt']

/-- **An instruction goes through** if its operands are as many as it takes, and as large as its
result. -/
theorem execute_eq_ok {i : Instruction} {operands : List (Value α)} (hfloat : i.spec.dtype = .f32)
    (hcount : operands.length = i.op.arity)
    (hsizes : ∀ x ∈ operands, x.data.length = i.spec.elements) :
    ∃ v, execute arith i operands = .ok v ∧ Meets i.spec v := by
  -- Operations differ in the number of operands, and in which sizes they compare.
  have hbinary : ∀ apply, operands.length = 2 →
      ∃ v, binary apply i.spec operands = .ok v ∧ Meets i.spec v := by
    intro apply htwo
    obtain ⟨x, y, rfl⟩ := List.length_eq_two.1 htwo
    have hx := hsizes x List.mem_cons_self
    have hy := hsizes y (List.mem_cons_of_mem x List.mem_cons_self)
    refine ⟨⟨i.spec, List.zipWith apply x.data y.data⟩, ?_, rfl, ?_⟩
    · rw [binary, if_neg]
      rw [hx, hy]
      simp
    · rw [List.length_zipWith, hx, hy, Nat.min_self]
  have hunary : ∀ apply, operands.length = 1 →
      ∃ v, unary apply i.spec operands = .ok v ∧ Meets i.spec v := by
    intro apply hone
    obtain ⟨x, rfl⟩ := List.length_eq_one_iff.1 hone
    refine ⟨⟨i.spec, x.data.map apply⟩, rfl, rfl, ?_⟩
    rw [List.length_map, hsizes x List.mem_cons_self]
  have hreshape : operands.length = 1 →
      ∃ v, reshape i.spec operands = .ok v ∧ Meets i.spec v := by
    intro hone
    obtain ⟨x, rfl⟩ := List.length_eq_one_iff.1 hone
    have hx := hsizes x List.mem_cons_self
    refine ⟨⟨i.spec, x.data⟩, ?_, rfl, hx⟩
    rw [reshape, if_neg (not_not.2 hx)]
  rw [execute, if_neg (not_not.2 hfloat)]
  cases hop : i.op with
  | add | sub | mul =>
    rw [hop] at hcount
    exact hbinary _ hcount
  | neg | identity =>
    rw [hop] at hcount
    exact hunary _ hcount
  | reshape =>
    rw [hop] at hcount
    exact hreshape hcount

variable (arith) in
/-- **One step of evaluation**: a fed instruction finds its operands, and goes through. -/
theorem exists_execute_of_fed (hsupplied : f.Supplied parameters) {before : List Instruction}
    {results : List (Value α)} (hdone : Done before results) {i : Instruction}
    (hi : i.Fed f.parameters before) (hfloat : i.spec.dtype = .f32) : ∃ operands v,
      i.operands.mapM (Env.fetch ⟨parameters, results⟩) = .ok operands ∧
        execute arith i operands = .ok v ∧ Meets i.spec v := by
  obtain ⟨operands, hfetch, hall⟩ := except_mapM_ok_of_forall
    (P := fun _ (v : Value α) => v.data.length = i.spec.elements) fun r hr => by
      obtain ⟨s, hspec, hdtype, helements⟩ := hi.operands r hr
      obtain ⟨v, hv, -, hsize⟩ := fetch_eq_ok hsupplied hdone hspec (hdtype.trans hfloat)
      exact ⟨v, hv, hsize.trans helements⟩
  have hsizes : ∀ x ∈ operands, x.data.length = i.spec.elements := by
    intro x hx
    obtain ⟨k, hk, rfl⟩ := List.getElem_of_mem hx
    exact hall.get (Nat.lt_of_lt_of_eq hk hall.length_eq.symm) hk
  obtain ⟨v, hv, hmeets⟩ := execute_eq_ok hfloat (hall.length_eq.symm.trans hi.count) hsizes
  exact ⟨operands, v, hfetch, hv, hmeets⟩

variable (arith) in
/-- **All steps**, by induction on the instructions that are left; those before them are done. -/
theorem exists_run_of_fed (hsupplied : f.Supplied parameters) (hfed : FedBody f.parameters f.body)
    (hfloat : ∀ i ∈ f.body, i.spec.dtype = .f32) {before rest : List Instruction}
    {results : List (Value α)} (hbody : f.body = before ++ rest) (hdone : Done before results) :
    ∃ all, run arith parameters rest results = .ok all ∧ Done f.body all := by
  induction rest generalizing before results with
  | nil =>
    rw [List.append_nil] at hbody
    exact ⟨results, rfl, hbody ▸ hdone⟩
  | cons i rest ih =>
    have hget : f.body[before.length]? = some i := by
      rw [hbody, List.getElem?_append_right (Nat.le_refl _), Nat.sub_self]
      rfl
    -- What comes before it in the body is what has been done.
    have hi : i.Fed f.parameters before := by
      have htake : f.body.take before.length = before := by rw [hbody, List.take_left]
      exact htake ▸ hfed before.length i hget
    obtain ⟨operands, v, hfetch, hv, hmeets⟩ :=
      exists_execute_of_fed arith hsupplied hdone hi (hfloat i (List.mem_of_getElem? hget))
    have hsplit : f.body = (before ++ [i]) ++ rest := by
      rw [hbody, List.append_assoc, List.singleton_append]
    have hnext : Done (before ++ [i]) (results ++ [v]) :=
      List.rel_append hdone (.cons hmeets .nil)
    obtain ⟨all, hall, hdone'⟩ := ih hsplit hnext
    refine ⟨all, ?_, hdone'⟩
    rw [run, hfetch]
    change (execute arith i operands >>= _) = _
    rw [hv]
    exact hall

end Evaluation

open Evaluation in
/-- **A function of fed instructions runs.** If all of its instructions and results are floating
point and its parameters are supplied, then it returns a value for each result, as declared. -/
theorem Function.Fed.evaluates (arith : Ieee.Arithmetic α) {f : Function} (hf : f.Fed)
    (hbody : ∀ i ∈ f.body, i.spec.dtype = .f32) (hresults : ∀ s ∈ f.results, s.dtype = .f32)
    {parameters : List (Option (Value α))} (hsupplied : f.Supplied parameters) :
    ∃ results, f.evaluate arith parameters = .ok results ∧
      List.Forall₂ Meets f.results results := by
  obtain ⟨all, hall, hdone⟩ := exists_run_of_fed arith hsupplied hf.body hbody
    (List.nil_append f.body).symm .nil
  -- What is returned is looked up like an operand of one more instruction.
  obtain ⟨results, hfetch, hmeets⟩ := except_mapM_ok_of_forall
    (P := fun r (v : Value α) => ∃ s, f.specOf r = some s ∧ Meets s v) fun r hr => by
      obtain ⟨s, hs, hspec⟩ := hf.specOf_output hr
      obtain ⟨v, hv, hmeet⟩ := fetch_eq_ok hsupplied hdone hspec (hresults s hs)
      exact ⟨v, hv, s, hspec, hmeet⟩
  refine ⟨results, ?_, ?_⟩
  · rw [Function.evaluate, if_neg (not_not.2 hsupplied.length)]
    change (run arith parameters f.body [] >>= _) = _
    rw [hall]
    exact hfetch
  · have hspecs : List.Forall₂ (fun o v => ∃ s, o = some s ∧ Meets s v)
        (f.outputs.map f.specOf) results := List.forall₂_map_left_iff.2 hmeets
    rw [hf.outputs, List.forall₂_map_left_iff] at hspecs
    refine hspecs.imp fun s v h => ?_
    obtain ⟨s', hs', hmeet⟩ := h
    exact Option.some.inj hs' ▸ hmeet

end TensorJit
