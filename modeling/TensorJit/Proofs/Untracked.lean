import TensorJit.Proofs.Executor.Untracked
import TensorJit.Proofs.Process

/-!
# Runs without trackers

Every run of a process has a run beside it in which all executors ask nobody whether a copy is
current (`Command.untracked`). The two processes stay twins (`Process.Twin`) as long as no call of the
one can be told from the call of the other, and for all other commands this goes without saying
(`Process.Twin.step`).
-/

namespace TensorJit

/-! ### The commands -/

/-- The command, with nobody to ask for the executor that it builds. -/
def Command.untracked : Command → Command
  | .build r => .build { r with tracker := .never }
  | c => c

namespace Platform.Twin

variable {p q : Platform}

theorem getD_backends (h : p.Twin q) (id : BackendId) : q.backends[id]?.getD default =
    { p.backends[id]?.getD default with counters := (q.backends[id]?.getD default).counters } := by
  have hbackend := h.backend id
  unfold Platform.backend at hbackend
  rwa [Array.getD_eq_getD_getElem?, Array.getD_eq_getD_getElem?] at hbackend

theorem register (h : p.Twin q) (b : Backend) : (p.register b).2.Twin (q.register b).2 where
  size := by
    change (q.backends.push b).size = (p.backends.push b).size
    rw [Array.size_push, Array.size_push, h.size]
  backend id := by
    unfold Platform.register Platform.backend
    dsimp only
    rw [Array.getD_eq_getD_getElem?, Array.getD_eq_getD_getElem?, Array.getElem?_push,
      Array.getElem?_push, h.size]
    split
    · rfl
    · exact h.getD_backends id
  memory := h.memory
  registered := by
    change q.registered.insert b.name q.backends.size = p.registered.insert b.name p.backends.size
    rw [h.registered, h.size]
  nextArtifact := h.nextArtifact
  files := h.files

theorem unregister (h : p.Twin q) (name : String) :
    (p.unregister name).Twin (q.unregister name) :=
  ⟨h.size, h.backend, h.memory, congrArg (·.erase name) h.registered, h.nextArtifact, h.files⟩

theorem inject (h : p.Twin q) (id : BackendId) (injections : Injections) :
    ({ p with backends := p.backends.modify id fun b => { b with injections } } : Platform).Twin
      { q with backends := q.backends.modify id fun b => { b with injections } } where
  size := by rw [Array.size_modify, Array.size_modify, h.size]
  backend j := by
    have hback := h.getD_backends j
    unfold Platform.backend
    dsimp only
    rw [Array.getD_eq_getD_getElem?, Array.getD_eq_getD_getElem?, Array.getElem?_modify,
      Array.getElem?_modify]
    split
    · rename_i hj
      subst hj
      rcases Nat.lt_or_ge id p.backends.size with hlt | hge
      · rw [Array.getElem?_eq_getElem hlt, Array.getElem?_eq_getElem (h.size.symm ▸ hlt)] at hback ⊢
        exact congrArg (fun b : Backend => { b with injections }) hback
      · rw [Array.getElem?_eq_none hge, Array.getElem?_eq_none (h.size.symm ▸ hge)]
    · exact hback
  memory := h.memory
  registered := h.registered
  nextArtifact := h.nextArtifact
  files := h.files

/-- A name stands for the same backend. -/
theorem findBackend (h : p.Twin q) (name : String) (wanted : BackendClass) :
    q.findBackend name wanted = p.findBackend name wanted := by
  unfold Platform.findBackend
  rw [h.registered]
  cases p.registered.get? name with
  | none => rfl
  | some id =>
    dsimp only
    rw [h.backend id]

end Platform.Twin

/-- **An executor is built** on each side, or there is the same error. -/
theorem Executor.abreast_build {p q : Platform} (h : p.Twin q) (r : BuildRequest) :
    Abreast (Executor.build r p) (Executor.build { r with tracker := .never } q)
      (fun e p e' q => e.Twin e' ∧ p.Twin q) Platform.Twin := by
  have hconfigure : ∀ id options, Respects Platform.Twin (r.configureBackend id options) := by
    intro id options
    unfold BuildRequest.configureBackend
    split
    · exact respects_pure _
    · refine respects_unit fun p q h => ?_
      obtain ⟨hresult, hplatform⟩ := h.runBackend (Backend.respects_configure options) id
      rw [abreast_get_bind, abreast_set_bind, hresult]
      cases (p.runBackend id (Backend.configure options)).1 with
      | ok _ => exact abreast_pure hplatform
      | error e => exact abreast_throw hplatform
  have hsettings : ({ r with tracker := .never } : BuildRequest).settings = r.settings := rfl
  unfold Executor.build
  rw [hsettings]
  cases r.settings with
  | error cause => exact abreast_throw h
  | ok settings =>
    obtain ⟨config, options⟩ := settings
    refine (abreast_pure (Q := fun a p b q => b = a ∧ a = (config, options) ∧ p.Twin q)
      ⟨rfl, rfl, h⟩).bind fun a p b q hab => ?_
    obtain ⟨rfl, rfl, h⟩ := hab
    dsimp only
    rw [abreast_get_bind, h.findBackend]
    cases p.findBackend r.unit.backendName r.backendClass with
    | error e => exact abreast_throw h
    | ok id =>
      refine ((hconfigure id options).abreast h).bind fun _ p _ q h => ?_
      cases StaticInputs.analyze r.unit.graph r.query with
      | error fault => exact abreast_throw h
      | ok statics => exact abreast_pure ⟨rfl, h⟩

namespace Process

/-- Two processes whose executors are twins, on platforms that are. -/
structure Twin (w w' : Process) : Prop where
  /-- The platforms are twins. -/
  platform : w.platform.Twin w'.platform
  /-- There are as many executors. -/
  length : w'.executors.length = w.executors.length
  /-- They are twins. -/
  executors : ∀ (k : Nat) (e e' : Executor), w.executors[k]? = some e →
    w'.executors[k]? = some e' → e.Twin e'
  /-- The sets of output buffers are equal. -/
  outputs : w'.outputs = w.outputs

namespace Twin

variable {w w' : Process} {k o : Nat} {e e' : Executor}

theorem empty : Process.empty.Twin Process.empty where
  platform := .refl _
  length := rfl
  executors _ _ _ he := by cases he
  outputs := rfl

/-- There is an executor beside every one. -/
theorem exists_beside (h : w.Twin w') (he : w.executors[k]? = some e) :
    ∃ e', w'.executors[k]? = some e' ∧ e.Twin e' := by
  have hlt : k < w'.executors.length := h.length.symm ▸ (List.getElem?_eq_some_iff.1 he).1
  exact ⟨_, List.getElem?_eq_getElem hlt, h.executors k e _ he (List.getElem?_eq_getElem hlt)⟩

theorem outputsOf (h : w.Twin w') (o : Nat) : w'.outputsOf o = w.outputsOf o := by
  unfold Process.outputsOf
  rw [h.outputs]

theorem stateOf (h : w.Twin w') (he : e.Twin e') (o : Nat) :
    (w.stateOf e o).Twin (w'.stateOf e' o) := ⟨he, h.outputsOf o, h.platform⟩

/-- Something happens to the platform on each side. -/
theorem withPlatform (h : w.Twin w') {p q : Platform} (hp : p.Twin q) :
    ({ w with platform := p } : Process).Twin { w' with platform := q } :=
  ⟨hp, h.length, h.executors, h.outputs⟩

/-- An executor has worked on each side. -/
theorem put (h : w.Twin w') {s s' : ExecState} (hs : s.Twin s') (k o : Nat) :
    (w.put k o s).Twin (w'.put k o s') where
  platform := hs.platform
  length := by
    change (w'.executors.set k s'.executor).length = (w.executors.set k s.executor).length
    rw [List.length_set, List.length_set, h.length]
  executors j f f' hf hf' := by
    change (w.executors.set k s.executor)[j]? = some f at hf
    change (w'.executors.set k s'.executor)[j]? = some f' at hf'
    rw [List.getElem?_set] at hf hf'
    by_cases hj : k = j
    · rw [if_pos hj] at hf hf'
      obtain ⟨-, hf⟩ := Option.ite_none_right_eq_some.1 hf
      obtain ⟨-, hf'⟩ := Option.ite_none_right_eq_some.1 hf'
      cases hf
      cases hf'
      exact hs.executor
    · rw [if_neg hj] at hf hf'
      exact h.executors j f f' hf hf'
  outputs := by
    change w'.outputs.insert o s'.outputs = w.outputs.insert o s.outputs
    rw [h.outputs, hs.outputs]

/-- An executor has been built on each side. -/
theorem append (h : w.Twin w') (he : e.Twin e') {p q : Platform} (hp : p.Twin q) :
    ({ w with platform := p, executors := w.executors ++ [e] } : Process).Twin
      { w' with platform := q, executors := w'.executors ++ [e'] } where
  platform := hp
  length := by rw [List.length_append, List.length_append, h.length]; rfl
  executors j f f' hf hf' := by
    rcases executor_append hf with hf | ⟨hj, rfl⟩
    · rcases executor_append hf' with hf' | ⟨hj, -⟩
      · exact h.executors j f f' hf hf'
      · exact absurd (List.getElem?_eq_some_iff.1 hf).1 (by rw [hj, h.length]; exact Nat.lt_irrefl _)
    · rcases executor_append hf' with hf' | ⟨-, rfl⟩
      · exact absurd (List.getElem?_eq_some_iff.1 hf').1 (by rw [hj, h.length]; exact Nat.lt_irrefl _)
      · exact he
  outputs := h.outputs

/-- **One command**, if a request to an executor cannot be told from the one beside it. -/
theorem step (h : w.Twin w') {c : Command}
    (hask : ∀ k o r e e', c = .ask k o r → w.executors[k]? = some e → e.Twin e' →
      Abreast (r.perform (w.stateOf e o)) (r.perform (w'.stateOf e' o))
        (fun _ t _ u => t.Twin u) ExecState.Twin) : (w.step c).Twin (w'.step c.untracked) := by
  cases c with
  | register name kind rejected => exact h.withPlatform (h.platform.register _)
  | unregister name => exact h.withPlatform (h.platform.unregister name)
  | inject id injections => exact h.withPlatform (h.platform.inject id injections)
  | allocate t => exact h.withPlatform (h.platform.withMemory (h.platform.memory.allocate t).2)
  | write storage bytes =>
    exact h.withPlatform (h.platform.withMemory (h.platform.memory.setStorage storage bytes))
  | newRegistry => exact h.withPlatform (h.platform.withRegistries _ _)
  | invalidate tracker storage => exact h.withPlatform (h.platform.tell _ _ _ _)
  | take number => exact ⟨h.platform, h.length, h.executors, congrArg (·.insert number .empty) h.outputs⟩
  | build r =>
    have hbuild := Executor.abreast_build h.platform r
    -- The executor beside is built without a tracker, and the build ends alike.
    change (w.build r).Twin (w'.build { r with tracker := .never })
    unfold Process.build
    cases hr : Executor.build r w.platform with
    | ok e p =>
      obtain ⟨e', q, hr', he, hp⟩ := hbuild.exists_ok hr
      rw [hr']
      exact h.append he hp
    | error error p =>
      obtain ⟨q, hr', hp⟩ := hbuild.exists_error hr
      rw [hr']
      exact h.withPlatform hp
  | ask k o r =>
    change (w.ask k o r).2.Twin (w'.ask k o r).2
    cases he : w.executors[k]? with
    | none =>
      have hnone : w'.executors[k]? = none := by
        rw [List.getElem?_eq_none_iff] at he ⊢
        rwa [h.length]
      rwa [ask_of_none he, ask_of_none hnone]
    | some e =>
      obtain ⟨e', he', htwin⟩ := h.exists_beside he
      have hask := hask k o r e e' rfl he htwin
      unfold Process.ask
      rw [he, he']
      dsimp only
      cases hr : r.perform (w.stateOf e o) with
      | ok a s =>
        obtain ⟨a', s', hr', hs⟩ := hask.exists_ok hr
        rw [hr']
        exact h.put hs k o
      | error error s =>
        obtain ⟨s', hr', hs⟩ := hask.exists_error hr
        rw [hr']
        exact h.put hs k o

end Twin

end Process

end TensorJit
