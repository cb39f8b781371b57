import TensorJit.Proofs.Executor.Moves

/-!
# What building an executor does

An executor that has been built has what it was asked for: the unit, what makes functions, the
tracker, the static inputs of the graph, the backend that is registered under the name, and an
empty cache. Building never touches memory, whether or not it succeeds; what it changes are the
options of the backend.

Most of what can be wrong with a request is found before the options are set, or is that they cannot
be set. **Only the graph is looked at afterwards**: when its inputs cannot be analyzed, there is no
executor, but the backend has its options (`Executor.ends_build_exact`).
-/

namespace TensorJit

/-- The platform with more options for a backend. -/
def Platform.configured (p : Platform) (id : BackendId) (options : BackendOptions) : Platform :=
  p.withDevice id
    ⟨{ p.backend id with options := (p.backend id).options.insertMany options }, p.memory⟩

/-- Putting a backend back where it is changes nothing. -/
theorem Platform.withDevice_device (p : Platform) (id : BackendId) :
    p.withDevice id (p.device id) = p := by
  have hset : p.backends.setIfInBounds id (p.backend id) = p.backends := by
    refine Array.ext_getElem? fun i => ?_
    rw [Array.getElem?_setIfInBounds]
    by_cases hi : id = i
    · subst hi
      unfold backend
      by_cases hlt : id < p.backends.size
      · simp [hlt]
      · simp [hlt]
    · rw [if_neg hi]
  unfold withDevice device
  rw [hset]

theorem Platform.configured_of_isEmpty {p : Platform} {id : BackendId} {options : BackendOptions}
    (h : options.isEmpty = true) : p.configured id options = p := by
  have hmany : (p.backend id).options.insertMany options = (p.backend id).options := by
    unfold SortedMap.insertMany
    rw [List.isEmpty_iff.1 h]
    rfl
  unfold configured
  rw [hmany]
  exact p.withDevice_device id

/-- What a backend does with options. -/
theorem Backend.configure_eq (options : BackendOptions) (d : Device) :
    configure options d = (match d.backend.refusal? options with
      | some key => fail (.unsupportedOption key)
      | none => set { d with backend.options := d.backend.options.insertMany options } :
        BackendM Unit) d :=
  rfl

/-- **Setting options** is all or nothing. -/
theorem BuildRequest.ends_configureBackend (r : BuildRequest) (p : Platform) (id : BackendId)
    (options : BackendOptions) : Ends (r.configureBackend id options p)
      (fun _ q => q = p.configured id options) fun e q => q = p ∧
        (∃ key, (p.backend id).refusal? options = some key) ∧ ∃ cause, e = .configInvalid cause := by
  unfold configureBackend
  split
  · rename_i hempty
    exact (Platform.configured_of_isEmpty hempty).symm
  · rw [ends_bind, ends_get, Platform.runBackend_eq, Backend.configure_eq,
      show (p.device id).backend = p.backend id from rfl]
    cases (p.backend id).refusal? options with
    | some key => exact ⟨p.withDevice_device id, ⟨key, rfl⟩, _, rfl⟩
    | none => exact rfl

/-- Only options of backends differ between two platforms. -/
structure Platform.SameButOptions (p q : Platform) : Prop where
  /-- Executors may see the one after the other. -/
  calm : p.Calm q
  /-- The memories are equal. -/
  memory : q.memory = p.memory
  /-- The registries of fresh copies are equal. -/
  registries : q.registries = p.registries
  /-- The next artifact gets the same identity. -/
  nextArtifact : q.nextArtifact = p.nextArtifact

theorem Platform.SameButOptions.later {p q : Platform} (h : p.SameButOptions q) : p.Later q :=
  h.calm.toLater

theorem Platform.SameButOptions.refl (p : Platform) : p.SameButOptions p :=
  ⟨.refl p, rfl, rfl, rfl⟩

/-- An executor as it comes out of a request on a platform. -/
structure BuildRequest.Built (r : BuildRequest) (p : Platform) (e : Executor) : Prop where
  /-- The unit is the one asked for. -/
  unit : e.unit = r.unit
  /-- Functions are made as asked for. -/
  translator : e.translator = r.translator
  /-- The tracker is the one asked for. -/
  tracker : e.tracker = r.tracker
  /-- The static inputs are those of the graph. -/
  statics : StaticInputs.analyze r.unit.graph r.query = .ok e.statics
  /-- The configuration is valid. -/
  settings : ∃ options, r.settings = .ok (e.config, options)
  /-- The backend is registered under the name. -/
  backend : p.findBackend r.unit.backendName r.backendClass = .ok e.backend
  /-- There are no artifacts. -/
  cache : e.cache = .new e.config.cacheDepth
  /-- Nothing has been counted. -/
  stats : e.stats = .zero

/-- The configuration of an executor allows at least one artifact and at least one group. -/
theorem BuildRequest.depth_pos {r : BuildRequest} {c : Config} {options : BackendOptions}
    (h : r.settings = .ok (c, options)) : 1 ≤ c.cacheDepth ∧ 1 ≤ c.pipelineDepth := by
  have hvalid : ∀ d : Config, d.validate = .ok () → 1 ≤ d.cacheDepth ∧ 1 ≤ d.pipelineDepth := by
    intro d hd
    unfold Config.validate at hd
    split at hd
    · cases hd
    · split at hd
      · cases hd
      · omega
  obtain ⟨d, hd, h⟩ := except_bind_eq_ok.1 h
  obtain ⟨attrs, -, h⟩ := except_bind_eq_ok.1 h
  have hcheck : ∀ chosen : Config, (chosen.validate >>= fun _ => pure chosen) = .ok d →
      d.validate = .ok () := by
    intro chosen hchosen
    obtain ⟨⟨⟩, hvalidate, hchosen⟩ := except_bind_eq_ok.1 hchosen
    cases hchosen
    exact hvalidate
  have hvalidate : d.validate = .ok () := by
    replace hd := mapError_eq_ok.1 hd
    unfold chosenConfig at hd
    cases hconfig : r.config with
    | some chosen =>
      rw [hconfig] at hd
      exact hcheck chosen hd
    | none =>
      rw [hconfig] at hd
      obtain ⟨chosen, -, hd⟩ := except_bind_eq_ok.1 hd
      exact hcheck chosen hd
  have hc : c.cacheDepth = d.cacheDepth ∧ c.pipelineDepth = d.pipelineDepth := by
    dsimp only at h
    split at h
    · cases h
    · cases h
      exact ⟨rfl, rfl⟩
  rw [hc.1, hc.2]
  exact hvalid d hvalidate

theorem Platform.sameButOptions_configured (p : Platform) (id : BackendId)
    (options : BackendOptions) : p.SameButOptions (p.configured id options) :=
  ⟨Platform.calm_withDevice ⟨⟨⟨rfl, fun h => h, .refl p.memory⟩, rfl⟩, rfl⟩, rfl, rfl, rfl⟩

theorem BuildRequest.keeps_configureBackend (r : BuildRequest) (id : BackendId)
    (options : BackendOptions) :
    Keeps Platform.SameButOptions (r.configureBackend id options) := fun p =>
  (r.ends_configureBackend p id options).mono
    (fun _ _ hq => hq ▸ p.sameButOptions_configured id options)
    fun _ _ hq => hq.1 ▸ .refl p

/-- **Building** gives what was asked for, or an error, and touches no memory. -/
theorem Executor.ends_build (r : BuildRequest) (p : Platform) :
    Ends (Executor.build r p) (fun e q => r.Built p e ∧ p.SameButOptions q)
      fun _ q => p.SameButOptions q := by
  unfold Executor.build
  cases hsettings : r.settings with
  | error cause => exact Platform.SameButOptions.refl p
  | ok settings =>
    obtain ⟨config, options⟩ := settings
    dsimp only
    rw [ends_bind, ends_pure]
    dsimp only
    rw [ends_bind, ends_get]
    cases hbackend : p.findBackend r.unit.backendName r.backendClass with
    | error e => exact Platform.SameButOptions.refl p
    | ok id =>
      dsimp only
      rw [ends_bind, ends_pure, ends_bind]
      refine (r.keeps_configureBackend id options p).mono (fun _ q hq => ?_) fun _ q hq => hq
      cases hstatics : StaticInputs.analyze r.unit.graph r.query with
      | error fault => exact hq
      | ok statics =>
        exact ⟨⟨rfl, rfl, rfl, hstatics, ⟨options, hsettings⟩, hbackend, rfl, rfl⟩, hq⟩

/-- **Where building fails** decides what it has changed: nothing, unless it is the graph that
cannot be analyzed. Then the options have been set. -/
theorem Executor.ends_build_exact (r : BuildRequest) (p : Platform) :
    Ends (Executor.build r p) (fun _ _ => True) fun e q =>
      (∀ fault, e ≠ .construction (.graph fault)) ∧ q = p ∨
      ∃ fault config options id, e = .construction (.graph fault) ∧
        StaticInputs.analyze r.unit.graph r.query = .error fault ∧
        r.settings = .ok (config, options) ∧
        p.findBackend r.unit.backendName r.backendClass = .ok id ∧ q = p.configured id options := by
  unfold Executor.build
  cases hsettings : r.settings with
  | error cause => exact .inl ⟨nofun, rfl⟩
  | ok settings =>
    obtain ⟨config, options⟩ := settings
    dsimp only
    rw [ends_bind, ends_pure]
    dsimp only
    rw [ends_bind, ends_get]
    cases hbackend : p.findBackend r.unit.backendName r.backendClass with
    | error e =>
      have hne : ∀ fault, e ≠ .construction (.graph fault) := by
        rintro fault rfl
        unfold Platform.findBackend at hbackend
        split at hbackend
        · cases hbackend
        · split at hbackend
          · cases hbackend
          · cases hbackend
      exact .inl ⟨hne, rfl⟩
    | ok id =>
      dsimp only
      rw [ends_bind, ends_pure, ends_bind]
      refine (r.ends_configureBackend p id options).mono (fun _ q hq => ?_) ?_
      · cases hstatics : StaticInputs.analyze r.unit.graph r.query with
        | error fault => exact .inr ⟨fault, config, options, id, rfl, rfl, rfl, rfl, hq⟩
        | ok statics => exact trivial
      · rintro e q ⟨hq, -, cause, rfl⟩
        exact .inl ⟨nofun, hq⟩

/-- A backend that refuses nothing takes all options. -/
theorem BuildRequest.ends_configureBackend_of_accepts (r : BuildRequest) {p : Platform}
    {id : BackendId} (hrejected : (p.backend id).rejected = none) (options : BackendOptions) :
    Ends (r.configureBackend id options p) (fun _ _ => True) fun _ _ => False := by
  have hrefusal : (p.backend id).refusal? options = none := by
    unfold Backend.refusal?
    rw [hrejected]
    cases (p.backend id).kind with
    | reference => rfl
    | recording mode => rfl
  refine (r.ends_configureBackend p id options).mono (fun _ _ _ => trivial) ?_
  rintro e q ⟨-, ⟨key, hkey⟩, -⟩
  rw [hrefusal] at hkey
  cases hkey

/-- **If a backend is there that refuses nothing**, building fails only for what is wrong with the
request itself. -/
theorem Executor.ends_build_of_found {r : BuildRequest} {p : Platform} {id : BackendId}
    (hfound : p.findBackend r.unit.backendName r.backendClass = .ok id)
    (hrejected : (p.backend id).rejected = none) :
    Ends (Executor.build r p) (fun _ _ => True) fun _ _ => ∀ settings statics,
      r.settings = .ok settings → StaticInputs.analyze r.unit.graph r.query ≠ .ok statics := by
  unfold Executor.build
  cases hsettings : r.settings with
  | error cause => exact nofun
  | ok settings =>
    obtain ⟨config, options⟩ := settings
    dsimp only
    rw [ends_bind, ends_pure]
    dsimp only
    rw [ends_bind, ends_get, hfound]
    dsimp only
    rw [ends_bind, ends_pure, ends_bind]
    refine (r.ends_configureBackend_of_accepts hrejected options).mono (fun _ q _ => ?_) fun _ _ h => h.elim
    cases hstatics : StaticInputs.analyze r.unit.graph r.query with
    | error fault => exact nofun
    | ok statics => exact trivial

end TensorJit
