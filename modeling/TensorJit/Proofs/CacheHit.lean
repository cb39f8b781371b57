import TensorJit.Graph.Samples
import TensorJit.Proofs.Executor.Request
import TensorJit.Proofs.Process

/-!
# What a cache hit stands for

An artifact that is found in the cache was compiled for other inputs of the same signature.
A signature says everything about the inputs that lowering reads **except their element
types**: shapes and static values are in its text, and what lowering reads of a static value
are its integers. So a hit serves the function that lowering would make now exactly when the
inputs have the element types of the function's parameters (`hit_iff_dtypes_agree`).

That the element types matter is not a matter of the graph: one that passes its input on is
served the function for floating-point inputs when it is given integers (`hit_of_other_dtype`).
-/

namespace TensorJit

/-! ### Every artifact was made for some inputs -/

/-- **One request**: artifacts stay what was made for inputs that satisfy `P`, if the request names
such inputs. -/
theorem Compiled.perform {P : List Tensor → Prop} {s : ExecState} (h : Compiled P s)
    {r : Request} (hP : ∀ inputs, r.inputs? = some inputs → P (inputs.map s.memory.read)) :
    Ends (r.perform s) (fun _ t => Compiled P t) fun _ t => Compiled P t := by
  have hleads : ∀ t, r.Leads s t → Compiled P t := by
    rintro t (⟨-, hlater, hsame⟩ | ⟨inputs, computed, l, a, u, -, hinputs, hcompute, hfound,
      hlater, hsame⟩)
    · exact h.sameArtifacts hlater hsame
    · exact (h.found (hP inputs hinputs) hcompute hfound).sameArtifacts hlater hsame
  exact (r.ends_perform h).mono (fun _ => hleads) fun _ => hleads

/-- **Every command**: the artifacts of every executor stay what was made for some inputs. -/
theorem compiled_step {w : Process} {c : Command}
    (h : ∀ (k : Nat) e o, w.executors[k]? = some e → Compiled (fun _ => True) (w.stateOf e o)) :
    ∀ (k : Nat) e o, (w.step c).executors[k]? = some e →
      Compiled (fun _ => True) ((w.step c).stateOf e o) := by
  intro k e' o he
  rcases Process.executor_step (fun o r e _ he => (h k e o he).perform (r := r) fun _ _ => trivial)
    he with ⟨hold, -⟩ | ⟨o', r, e, s, rfl, -, hstep, rfl, hs⟩ | ⟨r, rfl, -, hbuilt⟩
  · exact (h k e' o hold).of_executor_eq rfl (w.grows_step c).nextArtifact
  · rw [hstep]
    exact hs.of_executor_eq rfl (Nat.le_refl _)
  · exact compiled_of_built (s := (w.step (.build r)).stateOf e' o) hbuilt

/-- In every process, the artifacts of every executor were made for some inputs. -/
theorem compiled_run (commands : List Command) {k : Nat} {e : Executor} (o : Nat)
    (he : (Process.empty.run commands).executors[k]? = some e) :
    Compiled (fun _ => True) ((Process.empty.run commands).stateOf e o) :=
  Process.empty_run_induction
    (P := fun w => ∀ (k : Nat) e o, w.executors[k]? = some e →
      Compiled (fun _ => True) (w.stateOf e o))
    (fun _ _ _ h => by cases h) (fun _ _ => compiled_step) commands k e o he

/-! ### Hits -/

section Made

variable {P : List Tensor → Prop} {e : Executor} {a : Artifact}

/-- What lowering has made is an executable of its function. -/
theorem Executor.Lowers.executable_of_made (h : e.Lowers) (hmade : e.Made P a) :
    a.executable = ⟨a.function⟩ := by
  obtain ⟨_, _, -, -, -, hproduct⟩ := hmade
  exact (h.product?_eq_some_iff.1 hproduct).2

/-- **What lowering has made, it would make now** for inputs of the signature exactly if they have
the element types of the parameters. -/
theorem Executor.Lowers.lowered_iff_of_made (h : e.Lowers) (hmade : e.Made P a)
    {ts : List Tensor} {computed : Signature.Computed}
    (hcompute : Signature.compute e.statics ts = .ok computed)
    (hsignature : a.signature = computed.signature) :
    e.unit.lowered computed = .ok a.function ↔
      a.function.parameters.map (·.dtype) = ts.map (·.spec.dtype) := by
  obtain ⟨us, made, -, hmade, hsame, hproduct⟩ := hmade
  obtain ⟨hlowered, -⟩ := h.product?_eq_some_iff.1 hproduct
  obtain ⟨hparameters, -⟩ := ExecutionUnit.lowered_eq_ok hlowered
  obtain ⟨-, -, -, hmadeSpecs, -⟩ := Signature.compute_eq_ok hmade
  obtain ⟨-, -, -, hspecs, -⟩ := Signature.compute_eq_ok hcompute
  constructor
  · intro hnow
    obtain ⟨hnowParameters, -⟩ := ExecutionUnit.lowered_eq_ok hnow
    rw [hnowParameters, hspecs, List.map_map]
    rfl
  · intro hdtypes
    rw [← Signature.lowered_eq_of_signature_eq e.unit hmade hcompute (hsame.trans hsignature),
      hlowered]
    rw [hparameters, hmadeSpecs, List.map_map] at hdtypes
    exact hdtypes

end Made

/-- **A hit** serves what lowering would make now exactly when the element types of the inputs
are those of the parameters. -/
theorem Compiled.lowered_iff_of_hit {P : List Tensor → Prop} {s t : ExecState}
    (h : Compiled P s) (hlowers : s.executor.Lowers) {inputs : List HostBuffer}
    {computed : Signature.Computed} {l : Lookup} {a : Artifact}
    (hcompute : Signature.compute s.executor.statics (inputs.map s.memory.read) = .ok computed)
    (hfound : ExecM.Found s computed l a t) (hhit : l.hit = true) :
    s.executor.unit.lowered computed = .ok a.function ↔
      a.function.parameters.map (·.dtype) = inputs.map (·.spec.dtype) := by
  rw [hlowers.lowered_iff_of_made (h.made _ a (hfound.before hhit)) hcompute hfound.signature_eq,
    List.map_map]
  rfl

/-- **A cache hit serves what lowering would make now exactly when the inputs have the element
types of the function's parameters**, in every process and for every executor that makes its
functions by lowering; and inputs of one signature and of the same element types lower to the
same function. -/
theorem hit_iff_dtypes_agree :
    (∀ (commands : List Command) (k o : Nat) (e : Executor) (inputs : List HostBuffer)
      (l : Lookup), (Process.empty.run commands).executors[k]? = some e → e.Lowers →
      ((Process.empty.run commands).ask k o (.getExecutable inputs)).1 = some (.ok (.found l)) →
      l.hit = true →
      ∃ computed a, Signature.compute e.statics
          (inputs.map (Process.empty.run commands).platform.memory.read) = .ok computed ∧
        (((Process.empty.run commands).ask k o (.getExecutable inputs)).2.executors[k]?.bind
          (·.cache.get? l.artifact)) = some a ∧
        l.executable = ⟨a.function⟩ ∧
        (e.unit.lowered computed = .ok a.function ↔
          a.function.parameters.map (·.dtype) = inputs.map (·.spec.dtype))) ∧
    ∀ (u : ExecutionUnit) (flags : StaticInputs) (ts us : List Tensor) (c d : Signature.Computed),
      Signature.compute flags ts = .ok c → Signature.compute flags us = .ok d →
      c.signature = d.signature → ts.map (·.spec.dtype) = us.map (·.spec.dtype) →
      u.lowered c = u.lowered d := by
  refine ⟨fun commands k o e inputs l he hlowers hask hhit => ?_,
    fun u flags ts us c d hc hd => Signature.lowered_eq_of_signature_eq u hc hd⟩
  have h := compiled_run commands o he
  have hends : Ends ((Request.getExecutable inputs).perform
      ((Process.empty.run commands).stateOf e o))
      (fun answer t => ∃ l computed a, answer = .found l ∧ Signature.compute e.statics
        (inputs.map (Process.empty.run commands).platform.memory.read) = .ok computed ∧
        ExecM.Found ((Process.empty.run commands).stateOf e o) computed l a t)
      fun _ _ => True := by
    unfold Request.perform
    rw [ends_bind]
    exact (ExecM.ends_getExecutable h inputs).mono
      (fun l t ⟨computed, a, hcompute, hfound⟩ => ⟨l, computed, a, rfl, hcompute, hfound⟩)
      fun _ _ _ => trivial
  obtain ⟨t, hput, ⟨answer, hanswer, l', computed, a, rfl, hcompute, hfound⟩ |
    ⟨error, herror, -⟩⟩ := Process.ask_of_ends he hends
  · rw [hanswer] at hask
    cases hask
    refine ⟨computed, a, hcompute, ?_, ?_, h.lowered_iff_of_hit hlowers hcompute hfound hhit⟩
    · have hlt := (List.getElem?_eq_some_iff.1 he).1
      rw [hput]
      change ((Process.empty.run commands).executors.set k t.executor)[k]?.bind _ = _
      rw [List.getElem?_set_self hlt]
      exact hfound.found
    · -- What is hit was made by an earlier lookup, and lowering made it.
      exact hfound.executable.trans (hlowers.executable_of_made (h.made _ a (hfound.before hhit)))
  · rw [herror] at hask
    cases hask

/-! ### Hits that differ -/

/-- An executor of a run in which nothing else is asked for than a plain executor. -/
theorem Process.executor_of_plain {commands : List Command} {k : Nat} {e : Executor} {g : Graph}
    {name : String} {wanted : BackendClass} {tracker : Tracker}
    (he : (empty.run commands).executors[k]? = some e)
    (honly : ∀ r, Command.build r ∈ commands → r = .plain g name wanted tracker) :
    e.unit = (BuildRequest.plain g name wanted tracker).unit ∧ e.Lowers ∧ e.tracker = tracker := by
  obtain ⟨r, hr, hunit, htranslator, htracker, -, options, hsettings⟩ := built_of_run commands he
  obtain rfl := honly r hr
  have hstandard : (BuildRequest.plain g name wanted tracker).settings =
      .ok (.standard, .empty) := rfl
  rw [hstandard] at hsettings
  have hconfig : Config.standard = e.config := congrArg Prod.fst (Except.ok.inj hsettings)
  exact ⟨hunit, ⟨htranslator, hconfig ▸ rfl⟩, htracker⟩

/-- The request for an executor of the sum of two inputs. -/
def BuildRequest.sampleSum : BuildRequest := .plain Graph.sampleAdd "host" .recording .never

/-- The sum of two scalars in a row, of one element type. -/
def sumFunction (dtype : DType) : Function where
  name := "cluster_0"
  parameters := [⟨dtype, [1]⟩, ⟨dtype, [1]⟩]
  results := [⟨dtype, [1]⟩]
  body := [⟨.add, [.parameter 0, .parameter 1], ⟨dtype, [1]⟩⟩]
  outputs := [.instruction 0]

/-- Two host buffers of one shape, floating point and integers, and an executor for the sum of
two inputs that has compiled it for floating point. -/
def twoDtypes : List Command :=
  [.register "host" (.recording .host) none,
    .allocate ⟨⟨.f32, [1]⟩, [0, 0, 128, 63]⟩, .allocate ⟨⟨.i32, [1]⟩, [1, 0, 0, 0]⟩,
    .build .sampleSum, .ask 0 0 (.getExecutable [⟨⟨.f32, [1]⟩, 0⟩, ⟨⟨.f32, [1]⟩, 0⟩])]

theorem executor_of_twoDtypes : ∃ e, (Process.empty.run twoDtypes).executors[0]? = some e ∧
    e.unit = BuildRequest.sampleSum.unit ∧ e.Lowers ∧ e.statics = ⟨[false, false]⟩ := by
  obtain ⟨e, he⟩ := Option.isSome_iff_exists.1
    (show ((Process.empty.run twoDtypes).executors[0]?).isSome = true from by decide +kernel)
  obtain ⟨hunit, hlowers, -⟩ := Process.executor_of_plain he
    (show ∀ r, Command.build r ∈ twoDtypes → r = .plain Graph.sampleAdd "host" .recording .never
      from fun r hr => by simpa [twoDtypes, BuildRequest.sampleSum] using hr)
  have hflags : ((Process.empty.run twoDtypes).executors[0]?.map (·.statics)) =
    some ⟨[false, false]⟩ := by decide +kernel
  rw [he] at hflags
  exact ⟨e, he, hunit, hlowers, Option.some.inj hflags⟩

/-- The first buffer again is a hit, and the function is the one for floating point. -/
theorem hit_of_same_dtype : ∃ e l, (Process.empty.run twoDtypes).executors[0]? = some e ∧
    e.Lowers ∧ ((Process.empty.run twoDtypes).ask 0 0
      (.getExecutable [⟨⟨.f32, [1]⟩, 0⟩, ⟨⟨.f32, [1]⟩, 0⟩])).1 = some (.ok (.found l)) ∧
    l.hit = true ∧ ∃ computed, ∃ a : Artifact, e.unit.lowered computed = .ok a.function ∧
      l.executable = ⟨a.function⟩ := by
  obtain ⟨e, he, hunit, hlowers, hstatics⟩ := executor_of_twoDtypes
  have hask : ((Process.empty.run twoDtypes).ask 0 0
      (.getExecutable [⟨⟨.f32, [1]⟩, 0⟩, ⟨⟨.f32, [1]⟩, 0⟩])).1 =
      some (.ok (.found ⟨0, ⟨sumFunction .f32⟩, "1,;1,;/", true⟩)) := by decide +kernel
  obtain ⟨computed, a, -, -, hexecutable, hiff⟩ :=
    hit_iff_dtypes_agree.1 twoDtypes 0 0 e _ _ he hlowers hask rfl
  refine ⟨e, _, he, hlowers, hask, rfl, computed, a, hiff.2 ?_, hexecutable⟩
  rw [← Executable.mk.inj hexecutable]
  rfl

/-- **A hit may serve another function than lowering would make now.** The second buffer has
the signature of the first, and is served the function for floating point; lowering would make
the one for integers. -/
theorem hit_of_other_dtype : ∃ e l computed a,
    (Process.empty.run twoDtypes).executors[0]? = some e ∧ e.Lowers ∧
    ((Process.empty.run twoDtypes).ask 0 0
      (.getExecutable [⟨⟨.i32, [1]⟩, 1⟩, ⟨⟨.i32, [1]⟩, 1⟩])).1 = some (.ok (.found l)) ∧
    l.hit = true ∧
    Signature.compute e.statics ([⟨⟨.i32, [1]⟩, 1⟩, ⟨⟨.i32, [1]⟩, 1⟩].map
      (Process.empty.run twoDtypes).platform.memory.read) = .ok computed ∧
    (((Process.empty.run twoDtypes).ask 0 0
      (.getExecutable [⟨⟨.i32, [1]⟩, 1⟩, ⟨⟨.i32, [1]⟩, 1⟩])).2.executors[0]?.bind
        (·.cache.get? l.artifact)) = some a ∧
    a.function = sumFunction .f32 ∧ e.unit.lowered computed = .ok (sumFunction .i32) := by
  obtain ⟨e, he, hunit, hlowers, hstatics⟩ := executor_of_twoDtypes
  have hask : ((Process.empty.run twoDtypes).ask 0 0
      (.getExecutable [⟨⟨.i32, [1]⟩, 1⟩, ⟨⟨.i32, [1]⟩, 1⟩])).1 =
      some (.ok (.found ⟨0, ⟨sumFunction .f32⟩, "1,;1,;/", true⟩)) := by decide +kernel
  have hfound : (((Process.empty.run twoDtypes).ask 0 0
      (.getExecutable [⟨⟨.i32, [1]⟩, 1⟩, ⟨⟨.i32, [1]⟩, 1⟩])).2.executors[0]?.bind
        (·.cache.get? 0)) =
      some (.new 0 "1,;1,;/" ⟨sumFunction .f32⟩ (sumFunction .f32)) := by decide +kernel
  have hcompute : (Signature.compute ⟨[false, false]⟩ ([⟨⟨.i32, [1]⟩, 1⟩, ⟨⟨.i32, [1]⟩, 1⟩].map
      (Process.empty.run twoDtypes).platform.memory.read)).toOption =
      some ⟨"1,;1,;/", [⟨.i32, [1]⟩, ⟨.i32, [1]⟩], [none, none]⟩ := by decide +kernel
  have hlowered : (BuildRequest.sampleSum.unit.lowered
      ⟨"1,;1,;/", [⟨.i32, [1]⟩, ⟨.i32, [1]⟩], [none, none]⟩).toOption =
      some (sumFunction .i32) := by decide +kernel
  refine ⟨e, _, ⟨"1,;1,;/", [⟨.i32, [1]⟩, ⟨.i32, [1]⟩], [none, none]⟩, _, he, hlowers, hask, rfl,
    ?_, hfound, rfl, ?_⟩
  · rw [hstatics]
    exact toOption_eq_some.1 hcompute
  · rw [hunit]
    exact toOption_eq_some.1 hlowered

end TensorJit
