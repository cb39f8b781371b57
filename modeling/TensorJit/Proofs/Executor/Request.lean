import TensorJit.Proofs.Executor.Compile

/-!
# What a request leads to

Two of the requests name a signature by their inputs, and the first thing that happens to them is
that the executable is looked up (`Request.lookup?`). Nothing that follows changes which artifacts
there are. So there are two ways for a request to end, whether or not it succeeds
(`Request.Leads`): the artifacts are those before, or they are those after the look-up.
-/

namespace TensorJit

/-- What is found or compiled first for a request, if anything is. -/
def Request.lookup? (r : Request) (s : ExecState) : Option Lookup :=
  r.inputs?.bind fun inputs =>
    match ExecM.getExecutable inputs s with
    | .ok l _ => some l
    | .error _ _ => none

/-- How a request may leave the artifacts. -/
inductive Request.Leads (r : Request) (s t : ExecState) : Prop
  /-- Nothing is found, and the artifacts are those before, with other tensors. -/
  | unchanged (hlookup : r.lookup? s = none) (hlater : s.Later t) (hsame : s.SameArtifacts t)
  /-- The artifacts are those after the look-up, with other tensors. -/
  | found (inputs : List HostBuffer) (computed : Signature.Computed) (l : Lookup) (a : Artifact)
    (u : ExecState) (hlookup : r.lookup? s = some l) (hinputs : r.inputs? = some inputs)
    (hcompute : Signature.compute s.executor.statics (inputs.map s.memory.read) = .ok computed)
    (hfound : ExecM.Found s computed l a u) (hlater : u.Later t) (hsame : u.SameArtifacts t)

variable {P : List Tensor → Prop} {s : ExecState}

/-- A look-up ends as the executable is found, and what may follow it keeps the artifacts. -/
theorem Request.ends_lookup {α : Type} (h : Compiled P s) {r : Request} {inputs : List HostBuffer}
    (hinputs : r.inputs? = some inputs) {next : Lookup → ExecM α}
    (hlater : ∀ l, Keeps ExecState.Later (next l))
    (hsame : ∀ l, Keeps ExecState.SameArtifacts (next l)) :
    Ends ((ExecM.getExecutable inputs >>= next) s) (fun _ t => r.Leads s t)
      fun _ t => r.Leads s t := by
  have hends := ExecM.ends_getExecutable h inputs
  rw [ends_bind]
  cases hget : ExecM.getExecutable inputs s with
  | ok l u =>
    obtain ⟨computed, a, hcompute, hfound⟩ := hends.ok hget
    have hlookup : r.lookup? s = some l := by
      unfold lookup?
      rw [hinputs, Option.bind_some, hget]
    exact ((hlater l u).and (hsame l u)).mono
      (fun _ t ht => .found inputs computed l a u hlookup hinputs hcompute hfound ht.1 ht.2)
      fun _ t ht => .found inputs computed l a u hlookup hinputs hcompute hfound ht.1 ht.2
  | error error u =>
    obtain ⟨huntouched, -⟩ := hends.error hget
    have hlookup : r.lookup? s = none := by
      unfold lookup?
      rw [hinputs, Option.bind_some, hget]
    exact .unchanged hlookup huntouched.later (.of_cache_eq huntouched.cache)

/-- **However a request ends**, it leaves the artifacts in one of these ways. -/
theorem Request.ends_perform (h : Compiled P s) (r : Request) :
    Ends (r.perform s) (fun _ t => r.Leads s t) fun _ t => r.Leads s t := by
  have hother : r.inputs? = none →
      Ends (r.perform s) (fun _ t => r.Leads s t) fun _ t => r.Leads s t := fun hr => by
    have hlookup : r.lookup? s = none := by
      unfold lookup?
      rw [hr, Option.bind_none]
    exact ((r.later_perform s).and
      (keeps_perform_of_inputs?_eq_none (T := ExecState.SameArtifacts) hr s)).mono
      (fun _ t ht => .unchanged hlookup ht.1 ht.2) fun _ t ht => .unchanged hlookup ht.1 ht.2
  cases r with
  | execute inputs =>
    refine ends_bind.2 ((ends_lookup (r := .execute inputs) h rfl
      (fun l => ExecM.keeps_runFound l inputs) fun l => ExecM.keeps_runFound l inputs).mono
      (fun _ _ ht => ht) fun _ _ ht => ht)
  | getExecutable inputs =>
    exact ends_lookup (r := .getExecutable inputs) h rfl (fun _ => keeps_pure _)
      fun _ => keeps_pure _
  | allocateInputs artifact inputs => exact hother rfl
  | allocateOutputs artifact outputs => exact hother rfl
  | acquireGroup artifact => exact hother rfl
  | returnGroup artifact index => exact hother rfl

/-- What is looked up for a request is what is found for its inputs. -/
theorem Request.found_of_lookup?_eq (h : Compiled P s) {r : Request} {l : Lookup}
    (hl : r.lookup? s = some l) : ∃ inputs computed a u, r.inputs? = some inputs ∧
      Signature.compute s.executor.statics (inputs.map s.memory.read) = .ok computed ∧
      ExecM.Found s computed l a u := by
  unfold lookup? at hl
  obtain ⟨inputs, hinputs, hl⟩ := Option.bind_eq_some_iff.1 hl
  cases hget : ExecM.getExecutable inputs s with
  | error error u =>
    rw [hget] at hl
    cases hl
  | ok l' u =>
    rw [hget] at hl
    cases hl
    obtain ⟨computed, a, hcompute, hfound⟩ := (ExecM.ends_getExecutable h inputs).ok hget
    exact ⟨inputs, computed, a, u, hinputs, hcompute, hfound⟩

/-! ### What is reported -/

/-- Artifact, signature, and whether it was a hit. -/
def Lookup.summary (l : Lookup) : ArtifactId × Signature × Bool := (l.artifact, l.signature, l.hit)

/-- What an answer says about the look-up, if there was one. -/
def Answer.summary? : Answer → Option (ArtifactId × Signature × Bool)
  | report r => some (r.artifact, r.signature, r.hit)
  | found l => some l.summary
  | _ => none

/-- A call reports what was found for it. -/
theorem ExecM.ends_runFound_summary (l : Lookup) (inputs : List HostBuffer) (s : ExecState) :
    Ends (runFound l inputs s) (fun r _ => (Answer.report r).summary? = some l.summary)
      fun _ _ => True := by
  -- Both ways to run end in a report on the lookup they were given.
  have hgroup : ∀ group t, Ends (runOnGroup l group inputs t)
      (fun r _ => (Answer.report r).summary? = some l.summary) fun _ _ => True := by
    intro group t
    unfold runOnGroup
    exact ends_bind_of_forall fun _ _ => ends_bind_of_forall fun _ _ =>
      ends_bind_of_forall fun _ _ => ends_bind_of_forall fun _ _ => ends_bind_of_forall
        fun _ _ => rfl
  have hpipelined : ∀ t, Ends (runPipelined l inputs t)
      (fun r _ => (Answer.report r).summary? = some l.summary) fun _ _ => True := by
    intro t
    unfold runPipelined
    refine ends_bind_of_forall fun group u => ?_
    rw [ends_bind, ends_observe]
    have hreturn : ∀ (result : Except Error Report) v, (∀ r, result = .ok r →
        (Answer.report r).summary? = some l.summary) → Ends ((do
          returnGroup l.artifact group.index
          ofExcept result) v) (fun r _ => (Answer.report r).summary? = some l.summary)
          fun _ _ => True := fun result v hresult =>
      ends_bind_of_forall fun _ _ => ends_ofExcept.2 ⟨hresult, fun _ _ => trivial⟩
    exact (hgroup group u).mono (fun r v hr => hreturn (.ok r) v fun _ h => by cases h; exact hr)
      fun e v _ => hreturn (.error e) v nofun
  have hslots : ∀ t, Ends (runOnSlots l inputs t)
      (fun r _ => (Answer.report r).summary? = some l.summary) fun _ _ => True := by
    intro t
    unfold runOnSlots
    refine ends_bind_of_forall fun _ _ => ends_bind_of_forall fun _ _ => ends_bind_of_forall
      fun _ _ => ends_bind_of_forall fun _ _ => ends_bind_of_forall fun _ _ => ?_
    dsimp only
    split
    · exact ends_bind_of_forall fun _ _ => rfl
    · rfl
  have hrest : ∀ t, Ends ((do
      prepareOutputs l.executable.function.results
      let report ← if (← kind).isPipelined then runPipelined l inputs else runOnSlots l inputs
      invalidateOutputs
      count fun c => { c with executions := c.executions + 1 }
      return report) t) (fun r _ => (Answer.report r).summary? = some l.summary)
      fun _ _ => True := by
    intro t
    have hend : ∀ (r : Report) u, (Answer.report r).summary? = some l.summary → Ends ((do
        invalidateOutputs
        count fun c => { c with executions := c.executions + 1 }
        return r) u) (fun r _ => (Answer.report r).summary? = some l.summary)
        fun _ _ => True := fun r u hr =>
      ends_bind_of_forall fun _ _ => ends_bind_of_forall fun _ _ => hr
    refine ends_bind_of_forall fun _ u => ?_
    rw [ends_bind, ends_kind]
    split
    · exact ends_bind.2 ((hpipelined u).mono hend fun _ _ h => h)
    · exact ends_bind.2 ((hslots u).mono hend fun _ _ h => h)
  unfold runFound
  dsimp only
  split
  · exact ends_bind_of_forall fun _ => hrest
  · exact hrest s

/-- **Every answer says what was found.** -/
theorem Request.ends_summary (r : Request) (s : ExecState) :
    Ends (r.perform s) (fun answer _ => answer.summary? = (r.lookup? s).map Lookup.summary)
      fun _ _ => True := by
  have hlook : ∀ {inputs : List HostBuffer} {r : Request} {next : Lookup → ExecM Answer},
      r.inputs? = some inputs → (∀ l t, Ends (next l t)
        (fun answer _ => answer.summary? = some l.summary) fun _ _ => True) →
      Ends ((ExecM.getExecutable inputs >>= next) s)
        (fun answer _ => answer.summary? = (r.lookup? s).map Lookup.summary) fun _ _ => True := by
    intro inputs r next hinputs hnext
    unfold lookup?
    rw [hinputs, Option.bind_some, ends_bind]
    cases ExecM.getExecutable inputs s with
    | ok l t => exact hnext l t
    | error error t => exact trivial
  cases r with
  | execute inputs =>
    change Ends (((ExecM.getExecutable inputs >>= fun l => ExecM.runFound l inputs) >>=
      fun report => pure (Answer.report report)) s) _ _
    rw [bind_assoc]
    exact hlook (r := .execute inputs) rfl fun l t =>
      ends_bind.2 (ExecM.ends_runFound_summary l inputs t)
  | getExecutable inputs => exact hlook (r := .getExecutable inputs) rfl fun _ _ => rfl
  | allocateInputs artifact inputs => exact ends_bind_of_forall fun _ _ => rfl
  | allocateOutputs artifact outputs => exact ends_bind_of_forall fun _ _ => rfl
  | acquireGroup artifact => exact ends_bind_of_forall fun _ _ => rfl
  | returnGroup artifact index => exact ends_bind_of_forall fun _ _ => rfl

end TensorJit
