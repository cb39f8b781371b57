import TensorJit.Process
import TensorJit.Proofs.Step

/-!
# The steps of an executor

What an executor can do in one step, each with the condition under which it ends as wanted. A
step of the backend is a step on the **device** of the executor, its backend and the memory, and
`ends_onBackend` hands a statement over from the one to the other.
-/

namespace TensorJit

namespace Platform

/-- The backend with an identity, and the memory. -/
def device (p : Platform) (id : BackendId) : Device := ⟨p.backend id, p.memory⟩

/-- The platform after a step of a backend. -/
def withDevice (p : Platform) (id : BackendId) (d : Device) : Platform :=
  { p with memory := d.memory, backends := p.backends.setIfInBounds id d.backend }

/-- A step of the backend leaves its device, however it ends. -/
theorem runBackend_eq {α : Type} (p : Platform) (id : BackendId) (step : BackendM α) :
    p.runBackend id step = match step (p.device id) with
      | .ok a d => (.ok a, p.withDevice id d)
      | .error e d => (.error e, p.withDevice id d) := rfl

end Platform

namespace ExecState

/-- The memory. -/
abbrev memory (s : ExecState) : Memory := s.platform.memory

/-- The artifacts of the executor. -/
abbrev cache (s : ExecState) : Cache := s.executor.cache

/-- The backend of the executor, and the memory. -/
def device (s : ExecState) : Device := s.platform.device s.executor.backend

/-- The state after a step of the backend. -/
def withDevice (s : ExecState) (d : Device) : ExecState :=
  { s with platform := s.platform.withDevice s.executor.backend d }

/-- The class and mode of the executor's backend. -/
def kind (s : ExecState) : BackendKind := s.device.backend.kind

@[simp] theorem device_memory (s : ExecState) : s.device.memory = s.memory := rfl

end ExecState

namespace ExecM

variable {α β : Type} {s : ExecState} {E : Error → ExecState → Prop}

/-- Asking changes nothing. -/
@[simp] theorem ends_executor {Q : Executor → ExecState → Prop} :
    Ends (executor s) Q E ↔ Q s.executor s := Iff.rfl

@[simp] theorem ends_platform {Q : Platform → ExecState → Prop} :
    Ends (platform s) Q E ↔ Q s.platform s := Iff.rfl

@[simp] theorem ends_kind {Q : BackendKind → ExecState → Prop} :
    Ends (kind s) Q E ↔ Q s.kind s := Iff.rfl

/-- The platform is changed and nothing else. -/
@[simp] theorem ends_changePlatform {change : Platform → Platform}
    {Q : Unit → ExecState → Prop} :
    Ends (changePlatform change s) Q E ↔ Q () { s with platform := change s.platform } := Iff.rfl

@[simp] theorem ends_count {change : Stats → Stats} {Q : Unit → ExecState → Prop} :
    Ends (count change s) Q E ↔ Q () { s with executor.stats := change s.executor.stats } := Iff.rfl

@[simp] theorem ends_fail {fault : InternalFault} {Q : α → ExecState → Prop} :
    Ends (fail fault s) Q E ↔ E (.internal s.executor.unit.name fault) s := Iff.rfl

/-- The artifact is replaced if it is there. -/
@[simp] theorem ends_setArtifact {id : ArtifactId} {a : Artifact} {Q : Unit → ExecState → Prop} :
    Ends (setArtifact id a s) Q E ↔
      Q () { s with executor.cache := s.executor.cache.update id a } := Iff.rfl

/-- A value or an error that is there already. -/
theorem ends_ofExcept {x : Except Error α} {Q : α → ExecState → Prop} :
    Ends (ofExcept x s) Q E ↔ (∀ a, x = .ok a → Q a s) ∧ ∀ e, x = .error e → E e s := by
  cases x with
  | ok a =>
    change Q a s ↔ _
    constructor
    · intro h
      constructor
      · rintro b ⟨⟩
        exact h
      · rintro e ⟨⟩
    · intro h
      exact h.1 a rfl
  | error e =>
    change E e s ↔ _
    constructor
    · intro h
      constructor
      · rintro b ⟨⟩
      · rintro b ⟨⟩
        exact h
    · intro h
      exact h.2 e rfl

/-- An error that is taken as a value is a way to end well. -/
theorem ends_observe {x : ExecM α} {Q : Except Error α → ExecState → Prop} :
    Ends (observe x s) Q E ↔ Ends (x s) (fun a t => Q (.ok a) t) fun e t => Q (.error e) t := by
  unfold observe
  cases x s with
  | ok a t => exact Iff.rfl
  | error e t => exact Iff.rfl

/-- What a step of the backend is, on the device. -/
theorem tryBackend_eq (step : BackendM α) (s : ExecState) :
    tryBackend step s = match step s.device with
      | .ok a d => .ok (.ok a) (s.withDevice d)
      | .error e d => .ok (.error e) (s.withDevice d) := by
  change EStateM.Result.ok (s.platform.runBackend s.executor.backend step).1
    { s with platform := (s.platform.runBackend s.executor.backend step).2 } = _
  rw [Platform.runBackend_eq,
    show step (s.platform.device s.executor.backend) = step s.device from rfl]
  cases step s.device with
  | ok a d => rfl
  | error e d => rfl

/-- **A step of the backend is a step on the device.** -/
theorem ends_tryBackend {step : BackendM α} {Q : Except BackendError α → ExecState → Prop} :
    Ends (tryBackend step s) Q E ↔
      Ends (step s.device) (fun a d => Q (.ok a) (s.withDevice d))
        fun e d => Q (.error e) (s.withDevice d) := by
  rw [tryBackend_eq]
  cases step s.device with
  | ok a d => exact Iff.rfl
  | error e d => exact Iff.rfl

/-- The same, with an error that becomes one of the executor. -/
theorem ends_onBackend {step : BackendM α} {fault : BackendError → InternalFault}
    {Q : α → ExecState → Prop} :
    Ends (onBackend fault step s) Q E ↔
      Ends (step s.device) (fun a d => Q a (s.withDevice d))
        fun e d => E (.internal s.executor.unit.name (fault e)) (s.withDevice d) := by
  unfold onBackend
  rw [ends_bind, ends_tryBackend]
  exact Iff.rfl

/-- **An artifact is in the cache or missing**, and to look for it changes nothing. -/
theorem ends_artifact {id : ArtifactId} {Q : Artifact → ExecState → Prop} :
    Ends (artifact id s) Q E ↔ (∀ a, s.cache.get? id = some a → Q a s) ∧
      (s.cache.get? id = none → E (.internal s.executor.unit.name (.notCached id)) s) := by
  unfold artifact
  rw [ends_bind, ends_executor]
  cases h : s.executor.cache.get? id with
  | some a => exact ⟨fun hq => ⟨fun b hb => by cases hb; exact hq, nofun⟩, fun hq => hq.1 a rfl⟩
  | none => exact ⟨fun he => ⟨nofun, fun _ => he⟩, fun he => he.2 rfl⟩

/-- An artifact that is in the cache. -/
theorem ends_artifact_of_some {id : ArtifactId} {a : Artifact} {Q : Artifact → ExecState → Prop}
    (h : s.cache.get? id = some a) : Ends (artifact id s) Q E ↔ Q a s := by
  rw [ends_artifact, h]
  exact ⟨fun hq => hq.1 a rfl, fun hq => ⟨fun b hb => by cases hb; exact hq, nofun⟩⟩

end ExecM

end TensorJit
