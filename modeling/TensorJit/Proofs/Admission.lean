import TensorJit.Proofs.Function.Progress
import TensorJit.Proofs.Function.Run
import TensorJit.Proofs.Loading
import TensorJit.Proofs.Text.Decimal

/-!
# What can stop a function that was admitted

A reference backend admits a function, whoever made it, if it is well formed and computes floating
point only (`Function.Admissible`). It looks at the function once, when it is compiled or loaded
from bytes that may come from anywhere; evaluation goes by the references again and again.

The check is static and the limit of what may be referred to moves with the instructions: the k-th
one may refer to the k instructions before it. When its turn comes, **there are as many results as
instructions before it** (`Evaluation.stops_of_run`). So of what stops evaluation some things are
left over, and some are not:

| what stops evaluation | in a well-formed function |
|---|---|
| a parameter that is absent | yes, if there is such a parameter and it is absent |
| a reference to a later instruction | no |
| another number of operands than the operation takes | no |
| a result that is not floating point | yes, but not in a function that was admitted |
| sizes that differ | yes |

These are the reasons of `Function.Stops`, and their texts tell them apart from those that do not
occur (`references_followed`).
-/

namespace TensorJit

/-! ### What is admitted -/

/-- A function that a reference backend admits. -/
structure Function.Admissible (f : Function) : Prop where
  /-- It is well formed. -/
  valid : f.validate = .ok ()
  /-- Every instruction computes floating point. -/
  floats : ∀ i ∈ f.body, i.spec.dtype = .f32

namespace Backend

theorem accept_eq_ok_iff {f : Function} {e : Executable} :
    accept f = .ok e ↔ e = ⟨f⟩ ∧ f.Admissible := by
  rw [accept, except_bind_eq_ok]
  constructor
  · rintro ⟨⟨⟩, hvalid, h⟩
    split at h
    · cases h
    · rename_i hfind
      refine ⟨(Except.ok.inj h).symm, mapError_eq_ok.1 hvalid, fun i hi => ?_⟩
      simpa using List.find?_eq_none.1 hfind i hi
  · rintro ⟨rfl, hvalid, hfloats⟩
    have hfind : f.body.find? (fun i => i.spec.dtype ≠ .f32) = none := by
      simpa [List.find?_eq_none] using hfloats
    refine ⟨(), mapError_eq_ok.2 hvalid, ?_⟩
    rw [hfind]

/-- **A reference backend compiles** the functions that it admits. -/
theorem compile_eq_ok_iff {f : Function} {d : Device} {e : Executable}
    (hd : d.backend.kind = .reference) :
    (∃ d', compile f d = .ok e d') ↔ e = ⟨f⟩ ∧ f.Admissible := by
  rw [← accept_eq_ok_iff]
  constructor
  · rintro ⟨d', h⟩
    exact accept_of_compile hd h
  · intro h
    have hends : Ends (compile f d) (fun x _ => x = e) fun _ _ => False := by
      rw [compile, ends_bind, ends_kindOf, hd]
      change Ends (acceptLive f d) _ _
      rw [acceptLive, h]
      exact rfl
    cases hcompile : compile f d with
    | ok x d' =>
      obtain rfl := hends.ok hcompile
      exact ⟨d', rfl⟩
    | error fault d' => exact (hends.error hcompile).elim

/-- **A reference backend loads** the functions that it admits, and reads them off the front of
what it is given. -/
theorem load_eq_ok_iff {bytes : Bytes} {d : Device} {e : Executable}
    (hd : d.backend.kind = .reference) :
    (∃ d', load bytes d = .ok e d') ↔
      Function.deserialize? bytes = some e.function ∧ e.function.Admissible := by
  have hloaded : (∃ d', load bytes d = .ok e d') ↔ loaded? d bytes = some e := by
    rw [loaded?]
    cases load bytes d with
    | ok x d' => simp
    | error fault d' => simp
  rw [hloaded, loaded?_of_reference hd, Option.bind_eq_some_iff]
  simp only [toOption_eq_some, accept_eq_ok_iff]
  constructor
  · rintro ⟨f, hf, rfl, hadmissible⟩
    exact ⟨hf, hadmissible⟩
  · rintro ⟨hf, hadmissible⟩
    exact ⟨e.function, hf, rfl, hadmissible⟩

end Backend

/-! ### What stops evaluation -/

variable {α : Type} {arith : Ieee.Arithmetic α} {f : Function}
  {parameters : List (Option (Value α))} {results : List (Value α)} {fault : EvalFault}

/-- What can stop the evaluation of a well-formed function. -/
inductive Function.Stops (f : Function) (parameters : List (Option (Value α))) : EvalFault → Prop
  /-- A parameter that is absent. -/
  | absent {position : Nat} (hlt : position < f.parameters.length)
      (habsent : parameters[position]? = some none) : Stops f parameters (.absentParameter position)
  /-- An instruction that does not compute floating point. -/
  | notFloat {i : Instruction} (hi : i ∈ f.body) (hdtype : i.spec.dtype ≠ .f32) :
      Stops f parameters (.notFloat i.op)
  /-- Sizes that differ at an operation of two operands. -/
  | elementCount {i : Instruction} (hi : i ∈ f.body) (harity : i.op.arity = 2) :
      Stops f parameters .elementCount
  /-- Sizes that differ at a reshape. -/
  | reshapeCount {i : Instruction} (hi : i ∈ f.body) (hop : i.op = .reshape) :
      Stops f parameters .reshapeCount

namespace Evaluation

/-- **A defined reference can be followed**, unless it points to a parameter that is absent. -/
theorem stops_of_fetch (hlength : parameters.length = f.parameters.length) {r : ValueRef}
    (hr : f.Defined results.length r) (h : Env.fetch ⟨parameters, results⟩ r = .error fault) :
    f.Stops parameters fault := by
  cases r with
  | parameter position =>
    have hlt : position < parameters.length := Nat.lt_of_lt_of_eq hr hlength.symm
    simp only [Env.fetch, List.getElem?_eq_getElem hlt] at h
    cases hvalue : parameters[position] with
    | none =>
      simp only [hvalue, Except.error.injEq] at h
      subst h
      exact .absent hr (by rw [List.getElem?_eq_getElem hlt, hvalue])
    | some v => simp [hvalue] at h
  | instruction position =>
    have hlt : position < results.length := hr
    simp [Env.fetch, List.getElem?_eq_getElem hlt] at h

/-- **An instruction that has its operands** stops at element types and sizes only. -/
theorem stops_of_execute {i : Instruction} (hi : i ∈ f.body) {operands : List (Value α)}
    (hcount : operands.length = i.op.arity) (h : execute arith i operands = .error fault) :
    f.Stops parameters fault := by
  -- The operands are as many as the operator takes, so a binary kernel can only find their counts
  -- to differ, and a unary one cannot fail.
  have hbinary : ∀ apply, operands.length = 2 → i.op.arity = 2 →
      binary apply i.spec operands = .error fault → f.Stops parameters fault := by
    intro apply htwo harity h
    obtain ⟨x, y, rfl⟩ := List.length_eq_two.1 htwo
    rw [binary] at h
    split at h
    · obtain rfl := Except.error.inj h
      exact .elementCount hi harity
    · cases h
  have hunary : ∀ apply, operands.length = 1 → unary apply i.spec operands ≠ .error fault := by
    intro apply hone
    obtain ⟨x, rfl⟩ := List.length_eq_one_iff.1 hone
    simp [unary]
  have hreshape : operands.length = 1 → i.op = .reshape →
      reshape i.spec operands = .error fault → f.Stops parameters fault := by
    intro hone hop h
    obtain ⟨x, rfl⟩ := List.length_eq_one_iff.1 hone
    rw [reshape] at h
    split at h
    · obtain rfl := Except.error.inj h
      exact .reshapeCount hi hop
    · cases h
  rw [execute] at h
  split at h
  · rename_i hdtype
    obtain rfl := Except.error.inj h
    exact .notFloat hi hdtype
  · cases hop : i.op with
    | add | sub | mul =>
      rw [hop] at h hcount
      exact hbinary _ hcount (by rw [hop]; rfl) h
    | neg | identity =>
      rw [hop] at h hcount
      exact absurd h (hunary _ hcount)
    | reshape =>
      rw [hop] at h hcount
      exact hreshape hcount hop h

/-- **All instructions of a well-formed function**, by induction on those that are left. There are
as many results as instructions before them, which is the limit that their references keep to. -/
theorem stops_of_run (hlength : parameters.length = f.parameters.length)
    (hvalid : f.validate = .ok ()) {before rest : List Instruction}
    (hbody : f.body = before ++ rest) (hdone : results.length = before.length)
    (h : run arith parameters rest results = .error fault) : f.Stops parameters fault := by
  induction rest generalizing before results with
  | nil => cases h
  | cons i rest ih =>
    have hget : f.body[before.length]? = some i := by simp [hbody]
    have hi : i ∈ f.body := List.mem_of_getElem? hget
    obtain ⟨harity, hdefined⟩ := (Function.validate_eq_ok_iff.1 hvalid).1 _ i hget
    rw [← hdone] at hdefined
    rw [run] at h
    rcases except_bind_eq_error.1 h with hfetch | ⟨operands, hoperands, h⟩
    · obtain ⟨r, hr, hfetch⟩ := except_mapM_eq_error hfetch
      exact stops_of_fetch hlength (hdefined r hr) hfetch
    · have hcount : operands.length = i.op.arity :=
        (except_mapM_eq_ok.1 hoperands).length_eq.symm.trans harity
      rcases except_bind_eq_error.1 h with hexecute | ⟨v, -, h⟩
      · exact stops_of_execute hi hcount hexecute
      · -- One more instruction is done, and there is one more result.
        have hmore : f.body = (before ++ [i]) ++ rest := by simp [hbody]
        exact ih hmore (by simp [hdone]) h

end Evaluation

/-- **What stops the evaluation of a well-formed function.** -/
theorem Function.stops_of_evaluate (hvalid : f.validate = .ok ())
    (hlength : parameters.length = f.parameters.length)
    (h : f.evaluate arith parameters = .error fault) : f.Stops parameters fault := by
  rw [evaluate, if_neg (not_not.2 hlength)] at h
  rcases except_bind_eq_error.1 h with h | ⟨all, hall, h⟩
  · exact Evaluation.stops_of_run hlength hvalid (List.nil_append f.body).symm rfl h
  · -- What is returned may refer to all instructions, and all have been executed.
    obtain ⟨r, hr, hfetch⟩ := except_mapM_eq_error h
    have hdefined := (Function.validate_eq_ok_iff.1 hvalid).2.2 r hr
    have hcount := (Evaluation.run_eq_ok hall).2.1
    rw [List.length_nil, Nat.zero_add] at hcount
    rw [← hcount] at hdefined
    exact Evaluation.stops_of_fetch hlength hdefined hfetch

/-! ### What is reported -/

namespace EvalFault

theorem message_absentParameter (position : Nat) : (absentParameter position).message =
    "parameter " ++ String.ofList (Text.natDigits position) ++ " is not available" := rfl

theorem message_pendingInstruction (position : Nat) : (pendingInstruction position).message =
    "instruction " ++ String.ofList (Text.natDigits position) ++ " has not been evaluated" := rfl

theorem message_notOneOperand (found : Nat) : (notOneOperand found).message =
    "expected a single input, got " ++ String.ofList (Text.natDigits found) := rfl

theorem message_notFloat (op : OpKind) :
    (notFloat op).message = op.name ++ " only supports f32 results" := rfl

theorem message_notTwoOperands :
    notTwoOperands.message = "elementwise binary expects 2 inputs" := rfl

theorem message_elementCount : elementCount.message = "elementwise size mismatch" := rfl

theorem message_reshapeCount : reshapeCount.message = "reshape element count mismatch" := rfl

end EvalFault

open EvalFault in
/-- **The texts tell apart** what can stop a well-formed function and what cannot. -/
theorem Function.Stops.told_apart (h : f.Stops parameters fault) :
    (∀ position, fault.message ≠ (pendingInstruction position).message) ∧
      fault.message ≠ notTwoOperands.message ∧
      (∀ found, fault.message ≠ (notOneOperand found).message) ∧
      ∀ position, fault.message = (absentParameter position).message →
        fault = .absentParameter position := by
  simp only [message_pendingInstruction, message_notTwoOperands, message_notOneOperand,
    message_absentParameter, ne_eq, ← String.toList_inj, String.toList_append, String.toList_ofList]
  cases h with
  | @absent k =>
    simp only [message_absentParameter, String.toList_append, String.toList_ofList]
    -- The texts have the same words, so they have the same number between them.
    refine ⟨by simp, by simp, by simp, fun position hsame => ?_⟩
    have hdigits := List.append_cancel_left (List.append_cancel_right hsame)
    rw [Text.natDigits_injective hdigits]
  | @notFloat i =>
    simp only [message_notFloat, String.toList_append]
    cases i.op <;> simp [OpKind.name]
  | elementCount => simp [message_elementCount]
  | reshapeCount => simp [message_reshapeCount]

/-! ### Functions that were admitted -/

/-- **In a function that was admitted every reference can be followed.** A reference backend
compiles exactly the functions that it admits, and loads exactly those of the functions it reads,
whatever the bytes are. Whenever the evaluation of a well-formed function stops with as many
parameters as it has, then neither at a reference to an instruction that has not been executed nor
at an operation with another number of operands than it takes; and at a parameter only if that is
one of the function's, and absent. -/
theorem references_followed {α : Type} (arith : Ieee.Arithmetic α) (d : Device)
    (hd : d.backend.kind = .reference) :
    (∀ f e, (∃ d', Backend.compile f d = .ok e d') ↔ e = ⟨f⟩ ∧ f.Admissible) ∧
    (∀ bytes e, (∃ d', Backend.load bytes d = .ok e d') ↔
      Function.deserialize? bytes = some e.function ∧ e.function.Admissible) ∧
    ∀ (f : Function) (parameters : List (Option (Value α))) (fault : EvalFault),
      f.validate = .ok () → parameters.length = f.parameters.length →
      f.evaluate arith parameters = .error fault →
        (∀ position, fault.message ≠ (EvalFault.pendingInstruction position).message) ∧
        fault.message ≠ EvalFault.notTwoOperands.message ∧
        (∀ found, fault.message ≠ (EvalFault.notOneOperand found).message) ∧
        ∀ position, fault.message = (EvalFault.absentParameter position).message →
          position < f.parameters.length ∧ parameters[position]? = some none := by
  refine ⟨fun f e => Backend.compile_eq_ok_iff hd, fun bytes e => Backend.load_eq_ok_iff hd,
    fun f parameters fault hvalid hlength h => ?_⟩
  have hstops := f.stops_of_evaluate hvalid hlength h
  obtain ⟨hpending, htwo, hone, habsent⟩ := hstops.told_apart
  refine ⟨hpending, htwo, hone, fun position hsame => ?_⟩
  obtain rfl := habsent position hsame
  cases hstops with
  | absent hlt hnone => exact ⟨hlt, hnone⟩

/-- An instruction that refers to itself. -/
def Function.sampleLoop : Function where
  name := "loop"
  parameters := [⟨.f32, []⟩]
  results := [⟨.f32, []⟩]
  body := [⟨.neg, [.instruction 0], ⟨.f32, []⟩⟩]
  outputs := [.instruction 0]

/-- The difference of two vectors is admitted, from bytes that go on after it too, and stops at its
second parameter if that is absent; an instruction that refers to itself is never compiled. -/
theorem stopped_of_difference :
    (∃ d', Backend.load (Function.sampleDifference.serialize ++ [255])
      ⟨.new "cpu" .reference none, default⟩ = .ok ⟨.sampleDifference⟩ d') ∧
    (∀ e d', Backend.compile .sampleLoop ⟨.new "cpu" .reference none, default⟩ ≠ .ok e d') ∧
    ∃ fault : EvalFault, Function.sampleDifference.evaluate .binary32
        [some ⟨⟨.f32, [4]⟩, [0, 0, 0, 0]⟩, none] = .error fault ∧
      fault.message = "parameter 1 is not available" ∧
      (1 < Function.sampleDifference.parameters.length ∧
        [some (⟨⟨.f32, [4]⟩, [0, 0, 0, 0]⟩ : Value UInt32), none][1]? = some none) ∧
      ∀ position, fault.message ≠ (EvalFault.pendingInstruction position).message := by
  obtain ⟨hcompile, hload, hstops⟩ := references_followed .binary32
    ⟨.new "cpu" .reference none, default⟩ rfl
  have hvalid : Function.sampleDifference.validate = .ok () := by decide +kernel
  have hadmissible : Function.sampleDifference.Admissible := ⟨hvalid, by decide⟩
  refine ⟨(hload _ _).2 ⟨?_, hadmissible⟩, fun e d' h => ?_, .absentParameter 1, ?_⟩
  · decide +kernel
  · obtain ⟨-, hloop⟩ := (hcompile _ _).1 ⟨d', h⟩
    exact absurd hloop.valid (by decide +kernel)
  · have hevaluate : Function.sampleDifference.evaluate .binary32
        [some ⟨⟨.f32, [4]⟩, [0, 0, 0, 0]⟩, none] = .error (.absentParameter 1) := by decide +kernel
    obtain ⟨hpending, -, -, habsent⟩ := hstops _ _ _ hvalid rfl hevaluate
    exact ⟨hevaluate, by decide +kernel, habsent 1 rfl, hpending⟩

end TensorJit
