import TensorJit.Proofs.Executor.Request

/-!
# What finding an executable is counted as

Three places count what happens to executables: the statistics of the executor, the counters of its
backend, and the profile of the process. One entry (`Entry`) says what a step adds to all three
(`Booked`), and **entries add up** (`Booked.trans`):

| | hits | misses | compiles or loads | evictions |
|---|---|---|---|---|
| an artifact that was there | 1 | | | |
| a new artifact | | 1 | 1 | 1 if the cache was full |
| an error, after the signature | | 1 | | |
| an error, without a signature | | | | |

The reference backend counts live executables only and takes one off for each eviction. It never
counts below zero, because the new executable is there before the old one is released.
-/

namespace TensorJit

/-- What is added to the counts of executables. -/
structure Entry where
  /-- Signatures found in the cache. -/
  hits : Nat
  /-- Signatures not found in the cache. -/
  misses : Nat
  /-- Functions compiled. -/
  compiles : Nat
  /-- Executables loaded. -/
  loads : Nat
  /-- Artifacts evicted. -/
  evictions : Nat

namespace Entry

/-- Nothing. -/
def nothing : Entry := ⟨0, 0, 0, 0, 0⟩

/-- One entry after another. -/
def plus (x y : Entry) : Entry :=
  ⟨x.hits + y.hits, x.misses + y.misses, x.compiles + y.compiles, x.loads + y.loads,
    x.evictions + y.evictions⟩

/-- The statistics with an entry added. -/
def post (x : Entry) (c : Stats) : Stats :=
  { c with
    hits := c.hits + x.hits
    misses := c.misses + x.misses
    compiles := c.compiles + x.compiles
    loads := c.loads + x.loads
    evictions := c.evictions + x.evictions }

/-- What an entry says about the counters of a backend of a kind. -/
def Used (x : Entry) : BackendKind → BackendCounters → BackendCounters → Prop
  | .reference, c, d => d.live + x.evictions = c.live + x.compiles + x.loads ∧
    d.compiles = c.compiles ∧ d.loads = c.loads ∧ d.releases = c.releases
  | .recording _, c, d => d.live = c.live ∧ d.compiles = c.compiles + x.compiles ∧
    d.loads = c.loads + x.loads ∧ d.releases = c.releases + x.evictions

variable {x y : Entry} {κ : BackendKind} {b c d : BackendCounters}

theorem post_plus (x y : Entry) (c : Stats) : (x.plus y).post c = y.post (x.post c) := by
  simp only [post, plus, Nat.add_assoc]

theorem Used.trans (h : x.Used κ b c) (h' : y.Used κ c d) : (x.plus y).Used κ b d := by
  cases κ with
  | reference =>
    obtain ⟨h₁, h₂, h₃, h₄⟩ := h
    obtain ⟨h₁', h₂', h₃', h₄'⟩ := h'
    refine ⟨?_, h₂'.trans h₂, h₃'.trans h₃, h₄'.trans h₄⟩
    simp only [plus]
    omega
  | recording mode =>
    obtain ⟨h₁, h₂, h₃, h₄⟩ := h
    obtain ⟨h₁', h₂', h₃', h₄'⟩ := h'
    refine ⟨h₁'.trans h₁, ?_, ?_, ?_⟩ <;> simp only [plus] <;> omega

theorem used_nothing_iff : nothing.Used κ c d ↔ d.use = c.use := by
  unfold BackendCounters.use
  cases κ with
  | reference => simp [Used, nothing]
  | recording mode => simp [Used, nothing]

end Entry

/-- Between two states of an executor, this has been counted, and nothing on other backends. -/
structure ExecState.Booked (x : Entry) (s t : ExecState) : Prop where
  /-- The executor is the same. -/
  later : s.Later t
  /-- The statistics of the executor. -/
  stats : t.executor.stats = x.post s.executor.stats
  /-- The counters of its backend. -/
  used : x.Used s.kind s.device.backend.counters t.device.backend.counters
  /-- The counters of the other backends. -/
  others : ∀ id, id ≠ s.executor.backend →
    (t.platform.backend id).counters.use = (s.platform.backend id).counters.use
  /-- The profile. -/
  lookups : t.platform.profile.lookups = (s.platform.profile.lookups.1 + x.hits,
    s.platform.profile.lookups.2.1 + x.misses, s.platform.profile.lookups.2.2 + x.evictions)

namespace ExecState

variable {x y : Entry} {s t u : ExecState}

theorem Booked.trans (h : s.Booked x t) (h' : t.Booked y u) : s.Booked (x.plus y) u where
  later := h.later.trans h'.later
  stats := by rw [h'.stats, h.stats, Entry.post_plus]
  used := h.used.trans (h.later.kind_eq ▸ h'.used)
  others id hid := (h'.others id (by rw [h.later.backend]; exact hid)).trans (h.others id hid)
  lookups := by
    rw [h'.lookups, h.lookups]
    simp only [Entry.plus, Nat.add_assoc]

theorem Aside.trans (h : s.Aside t) (h' : t.Aside u) : s.Aside u :=
  ⟨h'.executor.trans h.executor, h'.outputs.trans h.outputs, h'.memory.trans h.memory,
    h'.registries.trans h.registries, h'.nextArtifact.trans h.nextArtifact,
    h.platform.trans h'.platform⟩

theorem Aside.booked (h : s.Aside t) : s.Booked .nothing t where
  later := h.untouched.later
  stats := by
    rw [h.executor]
    rfl
  used := by
    unfold device Platform.device
    rw [h.executor]
    exact Entry.used_nothing_iff.2 (h.platform.use _)
  others id _ := h.platform.use id
  lookups := h.platform.lookups

theorem device_withDevice {d : Device} (h : s.executor.backend < s.platform.backends.size) :
    (s.withDevice d).device = d := by
  unfold device withDevice Platform.device
  rw [Platform.backend_withDevice, if_pos ⟨rfl, h⟩]
  rfl

theorem backend_withDevice_of_ne {d : Device} {id : BackendId} (h : id ≠ s.executor.backend) :
    (s.withDevice d).platform.backend id = s.platform.backend id := by
  unfold withDevice
  rw [Platform.backend_withDevice, if_neg fun hid => h hid.1]

end ExecState

/-! ### The backend -/

namespace Entry

/-- A function has been compiled. -/
def compiled : Entry := ⟨0, 0, 1, 0, 0⟩

/-- An executable has been loaded. -/
def loaded : Entry := ⟨0, 0, 0, 1, 0⟩

/-- An artifact has been evicted. -/
def evicted : Entry := ⟨0, 0, 0, 0, 1⟩

/-- A signature was in the cache. -/
def hit : Entry := ⟨1, 0, 0, 0, 0⟩

/-- A signature was not in the cache. -/
def miss : Entry := ⟨0, 1, 0, 0, 0⟩

end Entry

namespace Profile

theorem lookups_hit (p : Profile) : (p.cacheEvent "executable_cache_hit").lookups =
    (p.lookups.1 + 1, p.lookups.2.1, p.lookups.2.2) := by
  simp [lookups, cacheCount, cacheEvent]

theorem lookups_miss (p : Profile) : (p.cacheEvent "executable_cache_miss").lookups =
    (p.lookups.1, p.lookups.2.1 + 1, p.lookups.2.2) := by
  simp [lookups, cacheCount, cacheEvent]

theorem lookups_evict (p : Profile) : (p.cacheEvent "executable_cache_evict").lookups =
    (p.lookups.1, p.lookups.2.1, p.lookups.2.2 + 1) := by
  simp [lookups, cacheCount, cacheEvent]

end Profile

namespace Backend

theorem ends_takeInjection_counters {injected : Injections → Bool}
    {clear : Injections → Injections} (d : Device) : Ends (takeInjection injected clear d)
      (fun _ e => e.backend.kind = d.backend.kind ∧ e.backend.counters = d.backend.counters)
      fun _ _ => False := by
  unfold takeInjection
  rw [ends_bind, ends_get]
  split
  · exact ⟨rfl, rfl⟩
  · exact ⟨rfl, rfl⟩

theorem ends_acceptLive_used (x : Entry) (hx : x.compiles + x.loads = 1 ∧ x.evictions = 0)
    (f : Function) (d : Device) : Ends (acceptLive f d)
      (fun _ e => x.Used .reference d.backend.counters e.backend.counters)
      fun _ e => e.backend.counters.use = d.backend.counters.use := by
  unfold acceptLive
  cases accept f with
  | error e => exact rfl
  | ok e =>
    refine ⟨?_, rfl, rfl, rfl⟩
    change d.backend.counters.live + 1 + x.evictions = _
    omega

/-- **Compiling counts**, unless it fails. -/
theorem ends_compile_used (f : Function) (d : Device) : Ends (compile f d)
    (fun _ e => Entry.compiled.Used d.backend.kind d.backend.counters e.backend.counters)
    fun _ e => e.backend.counters.use = d.backend.counters.use := by
  unfold compile
  rw [ends_bind, ends_kindOf]
  cases hκ : d.backend.kind with
  | reference => exact ends_acceptLive_used .compiled ⟨rfl, rfl⟩ f d
  | recording mode =>
    dsimp only
    rw [ends_bind]
    refine (ends_takeInjection_counters d).mono (fun broken e he => ?_) fun _ _ h => h.elim
    cases broken with
    | true => exact congrArg BackendCounters.use he.2
    | false =>
      rw [if_neg Bool.false_ne_true, ends_bind]
      refine (ends_takeInjection_counters e).mono (fun failed e' he' => ?_) fun _ _ h => h.elim
      have hcounters := he'.2.trans he.2
      cases failed with
      | true => exact congrArg BackendCounters.use hcounters
      | false =>
        rw [← hcounters]
        exact ⟨rfl, rfl, rfl, rfl⟩

/-- **Loading counts**, unless it fails. -/
theorem ends_load_used (bytes : Bytes) (d : Device) : Ends (load bytes d)
    (fun _ e => Entry.loaded.Used d.backend.kind d.backend.counters e.backend.counters)
    fun _ e => e.backend.counters.use = d.backend.counters.use := by
  unfold load
  rw [ends_bind, ends_kindOf]
  generalize Function.deserialize? bytes = read
  cases hκ : d.backend.kind with
  | reference =>
    cases read with
    | none => exact rfl
    | some f => exact ends_acceptLive_used .loaded ⟨rfl, rfl⟩ f d
  | recording mode =>
    cases read with
    | none => exact rfl
    | some f => exact ⟨rfl, rfl, rfl, rfl⟩

/-- **Releasing counts**; the reference backend needs something to release. -/
theorem ends_release_used {d : Device}
    (hlive : d.backend.kind = .reference → 1 ≤ d.backend.counters.live) : Ends (release d)
      (fun _ e => Entry.evicted.Used d.backend.kind d.backend.counters e.backend.counters)
      fun _ _ => False := by
  unfold release
  rw [ends_bind, ends_kindOf]
  cases hκ : d.backend.kind with
  | reference =>
    refine ⟨?_, rfl, rfl, rfl⟩
    have hpos := hlive hκ
    change d.backend.counters.live - 1 + 1 = d.backend.counters.live + 0 + 0
    omega
  | recording mode => exact ⟨rfl, rfl, rfl, rfl⟩

end Backend

/-! ### The executor -/

namespace ExecM

variable {s : ExecState}

/-- What the backend is asked for, with what it counts. -/
theorem ends_loadOrCompile_booked (serialized : Option Bytes) (f : Function) :
    Ends ((match serialized with
        | some serialized => Backend.load serialized
        | none => Backend.compile f) s.device)
      (fun _ d => (Entry.Used (if serialized.isSome then .loaded else .compiled) s.kind
        s.device.backend.counters d.backend.counters) ∧ s.device.Later d)
      fun _ d => d.backend.counters.use = s.device.backend.counters.use ∧ s.device.Later d := by
  cases serialized with
  | some bytes => exact (Backend.ends_load_used bytes s.device).and ((Backend.keeps_load _).later _)
  | none => exact (Backend.ends_compile_used f s.device).and ((Backend.keeps_compile _).later _)

/-- **Compiling a function, or loading its executable.** -/
theorem ends_compile_booked (hbackend : s.executor.backend < s.platform.backends.size)
    (signature : Signature) (f : Function) :
    Ends (compile signature f s)
      (fun _ t => ∃ x : Entry, s.Booked x t ∧ x.hits = 0 ∧ x.misses = 0 ∧
        x.compiles + x.loads = 1 ∧ x.evictions = 0 ∧
        (s.executor.config.aot.isSome = true → x.compiles = 0))
      fun _ t => s.Booked .nothing t := by
  have hstep : s.Aside { s with platform := s.platform.compileStep "compile" } :=
    ExecState.aside_platform (s.platform.calm_compileStep _).toSteady rfl rfl rfl
  unfold compile
  rw [ends_bind, ends_executor, ends_bind]
  refine (ends_serializedFor signature).mono (fun serialized t ht => ?_)
    fun _ t ht => ht.1 ▸ (ExecState.Aside.refl s).booked
  obtain ⟨rfl, htable, -⟩ := ht
  rw [ends_bind, ends_changePlatform, ends_bind, ends_platform, ends_bind, ends_ofExcept]
  refine ⟨fun _ _ => ?_, fun e _ => hstep.booked⟩
  obtain ⟨u, hu⟩ : ∃ u : ExecState,
    u = { t with platform := t.platform.compileStep "compile" } := ⟨_, rfl⟩
  rw [← hu] at hstep ⊢
  have hlt : u.executor.backend < u.platform.backends.size := by
    rw [hu]
    exact hbackend
  rw [ends_bind, ends_tryBackend]
  refine (ends_loadOrCompile_booked serialized f).mono (fun x d hd => ?_) fun e d hd => ?_
  · obtain ⟨hused, hlater⟩ := hd
    have hbooked : u.Booked (if serialized.isSome then .loaded else .compiled)
        { u.withDevice d with executor.stats :=
          if serialized.isSome then { u.executor.stats with loads := u.executor.stats.loads + 1 }
          else { u.executor.stats with compiles := u.executor.stats.compiles + 1 } } :=
      { later := { ExecState.Later.refl u with platform := Platform.later_withDevice hlater }
        stats := by
          split
          · rfl
          · rfl
        used := by
          change Entry.Used _ _ _ (u.withDevice d).device.backend.counters
          rw [ExecState.device_withDevice hlt]
          exact hused
        others := fun id hid => by
          change ((u.withDevice d).platform.backend id).counters.use = _
          rw [ExecState.backend_withDevice_of_ne hid]
        lookups := by
          split
          · rfl
          · rfl }
    dsimp only
    rw [ends_bind, ends_count, ends_pure]
    refine ⟨_, hstep.booked.trans hbooked, ?_⟩
    split
    · exact ⟨rfl, rfl, rfl, rfl, fun _ => rfl⟩
    · rename_i hnone
      exact ⟨rfl, rfl, rfl, rfl, fun hsome => absurd (htable.trans hsome) hnone⟩
  · have hbooked : u.Booked .nothing (u.withDevice d) :=
      { later := { ExecState.Later.refl u with platform := Platform.later_withDevice hd.2 }
        stats := rfl
        used := by
          rw [ExecState.device_withDevice hlt]
          exact Entry.used_nothing_iff.2 hd.1
        others := fun id hid => by rw [ExecState.backend_withDevice_of_ne hid]
        lookups := rfl }
    rw [ends_bind]
    -- The path has to be opaque before anything is taken apart, or elaboration tries to compute it.
    generalize errorDumpPath t.executor.config.dumpDirectory t.executor.unit.name = path
    refine (aside_dump path f (u.withDevice d)).mono (fun _ v hv => ?_) fun _ _ h => h.elim
    rw [ends_bind, ends_changePlatform, ends_throw]
    exact ((hstep.booked.trans hbooked).trans hv.booked).trans
      (ExecState.aside_platform (v.platform.calm_note _).toSteady rfl rfl rfl).booked

/-- **Evicting**; the reference backend needs something to release. -/
theorem ends_evict_booked (hbackend : s.executor.backend < s.platform.backends.size)
    (hcache : s.cache.Consistent) (hne : s.cache.order ≠ [])
    (hlive : s.kind = .reference → 1 ≤ s.device.backend.counters.live) :
    Ends (evict s) (fun _ t => s.Booked .evicted t) fun _ _ => False := by
  obtain ⟨a, hevict, hevicted, -⟩ := hcache.evict hne
  have hcounted : s.executor.cache.evictCounted s.platform.profile =
      (some a, s.cache.evict.2, s.platform.profile.cacheEvent "executable_cache_evict") := by
    unfold Cache.evictCounted
    rw [hevict]
  unfold evict
  rw [ends_bind, ends_get, hcounted]
  dsimp only
  obtain ⟨u, hu⟩ : ∃ u : ExecState, u = { s with
    executor.cache := s.cache.evict.2
    platform.profile := s.platform.profile.cacheEvent "executable_cache_evict" } := ⟨_, rfl⟩
  rw [ends_bind, ends_set, ends_bind, ends_discard, ends_tryBackend]
  change Ends (Backend.release { s with
    executor.cache := s.cache.evict.2
    platform.profile := s.platform.profile.cacheEvent "executable_cache_evict" }.device) _ _
  rw [← hu]
  have hlater : s.Later u := by
    rw [hu]
    exact { ExecState.Later.refl s with
      depth := hevicted.depth
      platform := { Platform.Later.refl s.platform with } }
  have hdevice : u.device = s.device := by
    rw [hu]
    rfl
  have hlt : u.executor.backend < u.platform.backends.size := by
    rw [hu]
    exact hbackend
  have hlive' : u.device.backend.kind = .reference → 1 ≤ u.device.backend.counters.live := by
    rw [hdevice]
    exact hlive
  -- The backend releases one executable, and the executor counts one eviction.
  refine ((Backend.ends_release_used hlive').and (Backend.keeps_release.later _)).mono
    (fun _ d hd => ?_) fun _ _ h => h.1.elim
  rw [ends_bind, ends_platform, ends_bind, ends_changePlatform, ends_bind, ends_count,
    ends_changePlatform]
  refine ⟨hlater.trans { ExecState.Later.refl u with
      platform := ((Platform.later_withDevice hd.2).trans (Platform.calm_tell _ _ _).toLater).trans
        (Platform.calm_note _ _).toLater }, ?_, ?_, fun id hid => ?_, ?_⟩
  · rw [hu]
    rfl
  · change Entry.Used _ _ _ (u.withDevice d).device.backend.counters
    rw [ExecState.device_withDevice hlt]
    have hused := hd.1
    rw [hdevice] at hused
    exact hused
  · change ((u.withDevice d).platform.backend id).counters.use = _
    rw [ExecState.backend_withDevice_of_ne (by rw [hu]; exact hid), hu]
    rfl
  · rw [hu]
    change Profile.lookups (s.platform.profile.cacheEvent "executable_cache_evict") = _
    exact Profile.lookups_evict _

/-- **Keeping a new artifact**, for which another is evicted if the cache is full. -/
theorem ends_keep_booked (hbackend : s.executor.backend < s.platform.backends.size)
    (hcache : s.cache.Consistent)
    (hlive : s.kind = .reference → 1 ≤ s.device.backend.counters.live) (signature : Signature)
    (executable : Executable) (f : Function) :
    Ends (keep signature executable f s)
      (fun _ t => s.Booked (if s.cache.isFull then .evicted else .nothing) t)
      fun _ _ => False := by
  -- Nothing is counted for keeping an artifact; only the eviction before it is.
  have hrest : ∀ u : ExecState, Ends ((do
      let id := (← platform).nextArtifact
      modify fun (s : ExecState) => { s with
        executor.cache := s.executor.cache.insert (.new id signature executable f)
        platform.nextArtifact := id + 1 }
      changePlatform (·.note (.compiled (← executor).cache.size f.graphSize))
      return id) u) (fun _ t => u.Booked .nothing t) fun _ _ => False := by
    intro u
    rw [ends_bind, ends_platform]
    dsimp only
    rw [ends_bind, ends_modify, ends_bind, ends_executor, ends_bind, ends_changePlatform, ends_pure]
    obtain ⟨c, hc⟩ : ∃ c, c = u.executor.cache.insert
      (.new u.platform.nextArtifact signature executable f) := ⟨_, rfl⟩
    have hdepth : c.depth = u.cache.depth := by
      rw [hc]
      rfl
    rw [← hc]
    exact ⟨{ ExecState.Later.refl u with
        depth := hdepth
        platform := { (Platform.calm_note _ _).toLater with nextArtifact := Nat.le_succ _ } },
      rfl, Entry.used_nothing_iff.2 rfl, fun _ _ => rfl, rfl⟩
  cases hfull : s.cache.isFull with
  | false =>
    unfold keep
    rw [ends_bind, ends_executor, hfull, if_neg Bool.false_ne_true]
    exact hrest s
  | true =>
    unfold keep
    rw [ends_bind, ends_executor, hfull, if_pos rfl]
    dsimp only
    rw [if_pos rfl, ends_bind]
    refine (ends_evict_booked hbackend hcache (hcache.order_ne_nil hfull) hlive).mono
      (fun _ t ht => ?_) fun _ _ h => h
    exact (hrest t).mono (fun _ u hu => ht.trans hu) fun _ _ h => h

/-- **An artifact that was there.** -/
theorem ends_useCached_booked {c : Cache} {id : ArtifactId} {σ : Signature}
    (hcache : s.cache.Consistent) (hl : s.cache.lookup σ = (some id, c)) :
    Ends (useCached id σ { s with executor.cache := c })
      (fun l t => l.hit = true ∧ s.Booked .hit t) fun _ _ => False := by
  obtain ⟨-, hindex, rfl⟩ := hcache.lookup hl
  obtain ⟨a, ha, -⟩ := hcache.indexed _ _ hindex
  unfold useCached
  rw [ends_bind]
  refine ends_artifact.2 ⟨fun b hb => ?_, fun hnone => ?_⟩
  swap
  · cases hnone.symm.trans ha
  rw [ends_bind, ends_count, ends_bind, ends_changePlatform, ends_pure]
  exact ⟨rfl, { ExecState.Later.refl s with platform := s.platform.later_cacheEvent _ }, rfl,
    Entry.used_nothing_iff.2 rfl, fun _ _ => rfl, Profile.lookups_hit _⟩

/-- What a new artifact is counted as. -/
structure Entry.New (x : Entry) (full : Bool) : Prop where
  /-- Its signature was not in the cache. -/
  hits : x.hits = 0
  /-- That is a miss. -/
  misses : x.misses = 1
  /-- It has been compiled or loaded. -/
  made : x.compiles + x.loads = 1
  /-- Another has been evicted if the cache was full. -/
  evictions : x.evictions = if full then 1 else 0

/-- **A new artifact**, or a miss at least. -/
theorem ends_compileNew_booked (hbackend : s.executor.backend < s.platform.backends.size)
    (hcache : s.cache.Consistent) (computed : Signature.Computed) :
    Ends (compileNew computed s)
      (fun l t => l.hit = false ∧ ∃ x, s.Booked x t ∧ Entry.New x s.cache.isFull ∧
        (s.executor.config.aot.isSome = true → x.compiles = 0))
      fun _ t => s.Booked .miss t := by
  obtain ⟨u, hu⟩ : ∃ u : ExecState, u = { s with
    executor.stats := { s.executor.stats with misses := s.executor.stats.misses + 1 }
    platform := s.platform.cacheEvent "executable_cache_miss" } := ⟨_, rfl⟩
  have hmiss : s.Booked .miss u := by
    rw [hu]
    exact ⟨{ ExecState.Later.refl s with platform := s.platform.later_cacheEvent _ }, rfl,
      Entry.used_nothing_iff.2 rfl, fun _ _ => rfl, Profile.lookups_miss _⟩
  have hucache : u.cache = s.cache := by rw [hu]
  -- From here on the cache is that of the beginning until the artifact is kept.
  have hrest : ∀ f v, u.Aside v → Ends ((do
      let executable ← compile computed.signature f
      let id ← keep computed.signature executable f
      return (⟨id, executable, computed.signature, false⟩ : Lookup)) v)
      (fun l t => l.hit = false ∧ ∃ x, s.Booked x t ∧ Entry.New x s.cache.isFull ∧
        (s.executor.config.aot.isSome = true → x.compiles = 0))
      fun _ t => s.Booked .miss t := by
    intro f v hv
    have hsv := hmiss.trans hv.booked
    have hlt : v.executor.backend < v.platform.backends.size := by
      rw [hsv.later.backend, hsv.later.platform.backends]
      exact hbackend
    rw [ends_bind]
    refine ((ends_compile_booked hlt computed.signature f).and
      (ends_compile computed.signature f)).mono (fun x t ht => ?_) fun _ t ht => hsv.trans ht.1
    obtain ⟨⟨x, hbooked, hhits, hmisses, hmade, hevictions, htable⟩, huntouched, -⟩ := ht
    have hst := hsv.trans hbooked
    have htcache : t.cache = s.cache := by
      rw [huntouched.cache, hv.untouched.cache, hucache]
    have hlive : t.kind = .reference → 1 ≤ t.device.backend.counters.live := by
      intro hkind
      have hused := hbooked.used
      rw [← hbooked.later.kind_eq, hkind] at hused
      have hlive := hused.1
      omega
    rw [ends_bind]
    refine (ends_keep_booked (by rw [hst.later.backend, hst.later.platform.backends]; exact hbackend)
      (htcache ▸ hcache) hlive _ _ f).mono (fun id w hw => ?_) fun _ _ h => h.elim
    rw [htcache] at hw
    rw [hsv.later.config] at htable
    refine ⟨rfl, _, hst.trans hw, ?_, fun hsome => ?_⟩
    · cases s.cache.isFull with
      | true => constructor <;> simp [Entry.plus, Entry.miss, Entry.nothing, Entry.evicted, *]
      | false => constructor <;> simp [Entry.plus, Entry.miss, Entry.nothing, *]
    · have hzero := htable hsome
      cases s.cache.isFull with
      | true => simp [Entry.plus, Entry.miss, Entry.nothing, Entry.evicted, hzero]
      | false => simp [Entry.plus, Entry.miss, Entry.nothing, hzero]
  unfold compileNew
  rw [ends_bind, ends_count, ends_bind, ends_changePlatform, ends_bind]
  change Ends (obtainFunction computed { s with
    executor.stats := { s.executor.stats with misses := s.executor.stats.misses + 1 }
    platform := s.platform.cacheEvent "executable_cache_miss" }) _ _
  rw [← hu]
  refine (ends_obtainFunction computed).mono (fun f t ht => ?_)
    fun _ t ht => hmiss.trans ht.1.booked
  rw [ends_bind, ends_executor]
  dsimp only
  split
  · rw [ends_bind, ends_discard]
    generalize dumpPath t.executor.config.dumpDirectory t.executor.unit.name = path
    exact (aside_dump path f t).mono (fun _ v hv => hrest f v (ht.1.trans hv)) fun _ _ h => h.elim
  · exact hrest f t ht.1

/-- **Finding or compiling an executable** is counted as one of four things. -/
theorem ends_getExecutable_booked (hbackend : s.executor.backend < s.platform.backends.size)
    (hcache : s.cache.Consistent) (inputs : List HostBuffer) :
    Ends (getExecutable inputs s)
      (fun l t => (∃ computed, Signature.compute s.executor.statics
          (inputs.map s.memory.read) = .ok computed) ∧
        ∃ x, s.Booked x t ∧ (if l.hit then x = .hit else Entry.New x s.cache.isFull) ∧
          (s.executor.config.aot.isSome = true → x.compiles = 0))
      fun _ t => (∃ e, Signature.compute s.executor.statics (inputs.map s.memory.read) = .error e) ∧
          s.Booked .nothing t ∨
        (∃ computed, Signature.compute s.executor.statics (inputs.map s.memory.read) =
          .ok computed) ∧ s.Booked .miss t := by
  unfold getExecutable computeSignature
  rw [ends_bind, ends_bind, ends_get, ends_ofExcept]
  refine ⟨fun computed hcomputed => ?_, fun e he => .inl ⟨?_, (ExecState.Aside.refl s).booked⟩⟩
  · have hcompute := mapError_eq_ok.1 hcomputed
    rw [ends_bind, ends_get]
    rcases hl : s.executor.cache.lookup computed.signature with ⟨_ | id, c⟩
    · obtain ⟨-, rfl⟩ := Cache.lookup_eq_none hl
      dsimp only
      rw [ends_bind, ends_set]
      refine (ends_compileNew_booked hbackend hcache computed).mono (fun l t ht => ?_)
        fun _ t ht => .inr ⟨⟨computed, hcompute⟩, ht⟩
      obtain ⟨hhit, x, hbooked, hnew, htable⟩ := ht
      exact ⟨⟨computed, hcompute⟩, x, hbooked, by rw [hhit]; exact hnew, htable⟩
    · dsimp only
      rw [ends_bind, ends_set]
      refine (ends_useCached_booked hcache hl).mono (fun l t ht => ?_) fun _ _ h => h.elim
      exact ⟨⟨computed, hcompute⟩, .hit, ht.2, by rw [ht.1]; exact rfl, fun _ => rfl⟩
  · cases hc : Signature.compute s.executor.statics (inputs.map s.memory.read) with
    | ok c =>
      rw [show s.platform.memory.read = s.memory.read from rfl, hc] at he
      cases he
    | error e' => exact ⟨e', rfl⟩

end ExecM

/-! ### Requests -/

/-- Between two states of an executor, this has been counted of executables, and nothing on other
backends. -/
structure ExecState.Posted (x : Entry) (s t : ExecState) : Prop where
  /-- The executor is the same. -/
  later : s.Later t
  /-- The statistics of the executor. -/
  tally : t.executor.stats.tally = (x.post s.executor.stats).tally
  /-- The counters of its backend. -/
  used : x.Used s.kind s.device.backend.counters t.device.backend.counters
  /-- The counters of the other backends. -/
  others : ∀ id, id ≠ s.executor.backend →
    (t.platform.backend id).counters.use = (s.platform.backend id).counters.use
  /-- The profile. -/
  lookups : t.platform.profile.lookups = (s.platform.profile.lookups.1 + x.hits,
    s.platform.profile.lookups.2.1 + x.misses, s.platform.profile.lookups.2.2 + x.evictions)

namespace ExecState

variable {x y : Entry} {s t u : ExecState}

theorem Booked.posted (h : s.Booked x t) : s.Posted x t :=
  ⟨h.later, congrArg Stats.tally h.stats, h.used, h.others, h.lookups⟩

theorem Posted.trans (h : s.Posted x t) (h' : t.Posted y u) : s.Posted (x.plus y) u where
  later := h.later.trans h'.later
  tally := by
    have hs := h.tally
    have ht := h'.tally
    simp only [Stats.tally, Entry.post, Entry.plus, Prod.mk.injEq] at hs ht ⊢
    omega
  used := h.used.trans (h.later.kind_eq ▸ h'.used)
  others id hid := (h'.others id (by rw [h.later.backend]; exact hid)).trans (h.others id hid)
  lookups := by
    rw [h'.lookups, h.lookups]
    simp only [Entry.plus, Nat.add_assoc]

/-- Everything but finding and compiling counts nothing here. -/
instance : TensorMoves (Posted .nothing) where
  refl s := (Aside.refl s).booked.posted
  trans h h' := h.trans h'
  calm s _ h _ := ⟨{ Later.refl s with platform := h.toLater }, rfl,
    Entry.used_nothing_iff.2 (h.use _), fun id _ => h.use id, h.lookups⟩
  counted s _ h _ := ⟨{ Later.refl s with }, h, Entry.used_nothing_iff.2 rfl, fun _ _ => rfl, rfl⟩
  prepared s specs := ⟨Moves.prepared s specs, rfl, Entry.used_nothing_iff.2 rfl, fun _ _ => rfl,
    rfl⟩
  tensors s _ _ _ _ _ := ⟨{ Later.refl s with }, rfl, Entry.used_nothing_iff.2 rfl,
    fun _ _ => rfl, rfl⟩

instance : CopyMoves (Posted .nothing) where
  steady s _ h _ := ⟨{ Later.refl s with platform := h.toLater }, rfl,
    Entry.used_nothing_iff.2 (h.use _), fun id _ => h.use id, h.lookups⟩
  recounted s _ h := ⟨{ Later.refl s with }, h, Entry.used_nothing_iff.2 rfl, fun _ _ => rfl, rfl⟩

instance : TellMoves (Posted .nothing) where
  marked s id a storage h := ⟨TellMoves.marked s id a storage h, rfl,
    Entry.used_nothing_iff.2 rfl, fun _ _ => rfl, rfl⟩
  invalidated s storage := ⟨TellMoves.invalidated s storage, rfl, Entry.used_nothing_iff.2 rfl,
    fun _ _ => rfl, rfl⟩

end ExecState

/-- The signature of the inputs of a request, if it has inputs and they have one. -/
def Request.computed? (r : Request) (s : ExecState) : Option Signature.Computed :=
  r.inputs?.bind fun inputs =>
    (Signature.compute s.executor.statics (inputs.map s.memory.read)).toOption

/-- What a request is counted as: the artifacts are those compiled and loaded less those evicted,
there is a hit or a miss if there is a signature, and nothing is compiled where there is a table. -/
def Request.Posts (r : Request) (s t : ExecState) : Prop :=
  ∃ x : Entry, s.Posted x t ∧ x.compiles + x.loads + s.cache.size = x.evictions + t.cache.size ∧
    x.hits + x.misses = (r.computed? s).toList.length ∧
    (s.executor.config.aot.isSome = true → x.compiles = 0)

/-- A look-up leaves as many artifacts as there were, or one more. -/
theorem ExecM.Found.size {s t : ExecState} {computed : Signature.Computed} {l : Lookup}
    {a : Artifact} (h : Found s computed l a t) (hs : s.cache.Consistent) :
    t.cache.size + (if l.hit then 0 else if s.cache.isFull then 1 else 0) =
      s.cache.size + if l.hit then 0 else 1 := by
  have ht := h.consistent.size_eq
  have hsize := hs.size_eq
  rw [h.order] at ht
  cases hhit : l.hit with
  | true =>
    rw [hhit, if_pos rfl, Cache.length_touch (h.hit.1 hhit)] at ht
    simp only [if_true]
    omega
  | false =>
    rw [hhit, if_neg Bool.false_ne_true, List.length_cons] at ht
    simp only [Bool.false_eq_true, if_false]
    cases hfull : s.cache.isFull with
    | true =>
      have hpos := List.length_pos_iff.2 (hs.order_ne_nil hfull)
      rw [hfull, if_pos rfl, List.length_dropLast] at ht
      simp only [if_true]
      omega
    | false =>
      rw [hfull, if_neg Bool.false_ne_true] at ht
      simp only [Bool.false_eq_true, if_false]
      omega

/-- A look-up, and what may follow it. -/
theorem Request.ends_lookup_posts {α : Type} {P : List Tensor → Prop} {s : ExecState}
    (h : Compiled P s) (hbackend : s.executor.backend < s.platform.backends.size) {r : Request}
    {inputs : List HostBuffer} (hinputs : r.inputs? = some inputs) {next : Lookup → ExecM α}
    (hnext : ∀ (T : ExecState → ExecState → Prop) [TensorMoves T] [CopyMoves T] [TellMoves T] l,
      Keeps T (next l)) :
    Ends ((ExecM.getExecutable inputs >>= next) s) (fun _ t => r.Posts s t)
      fun _ t => r.Posts s t := by
  have hcomputed : ∀ computed, Signature.compute s.executor.statics
      (inputs.map s.memory.read) = .ok computed → (r.computed? s).toList.length = 1 := by
    intro computed hcompute
    unfold computed?
    rw [hinputs, Option.bind_some, hcompute]
    rfl
  rw [ends_bind]
  refine ((ExecM.ends_getExecutable_booked hbackend h.consistent inputs).and
    (ExecM.ends_getExecutable h inputs)).mono (fun l t ht => ?_) fun _ t ht => ?_
  · obtain ⟨⟨⟨computed, hcompute⟩, x, hbooked, hx, htable⟩, _, a, -, hfound⟩ := ht
    have hsize := hfound.size h.consistent
    -- What follows the lookup posts nothing more and leaves the artifacts as they are.
    have hposts : ∀ u, t.Posted .nothing u → t.SameArtifacts u → r.Posts s u := by
      intro u hu hsame
      refine ⟨x.plus .nothing, hbooked.posted.trans hu, ?_, ?_, htable⟩
      · have hsame' := hsame.size
        cases hhit : l.hit with
        | true =>
          rw [hhit, if_pos rfl] at hx
          subst hx
          rw [hhit] at hsize
          simp only [if_true, Entry.plus, Entry.hit, Entry.nothing] at hsize ⊢
          omega
        | false =>
          rw [hhit, if_neg Bool.false_ne_true] at hx
          have hmade := hx.made
          have hevictions := hx.evictions
          rw [hhit] at hsize
          simp only [Bool.false_eq_true, if_false, Entry.plus, Entry.nothing] at hsize ⊢
          omega
      · rw [hcomputed computed hcompute]
        cases hhit : l.hit with
        | true =>
          rw [hhit, if_pos rfl] at hx
          subst hx
          rfl
        | false =>
          rw [hhit, if_neg Bool.false_ne_true] at hx
          simp only [Entry.plus, Entry.nothing, hx.hits, hx.misses]
    exact ((hnext (ExecState.Posted .nothing) l t).and (hnext ExecState.SameArtifacts l t)).mono
      (fun _ u hu => hposts u hu.1 hu.2) fun _ u hu => hposts u hu.1 hu.2
  · -- A lookup that fails has missed if there was a signature, and leaves the cache alone.
    obtain ⟨hcounted, huntouched, -⟩ := ht
    have hsize : t.cache.size = s.cache.size := by rw [huntouched.cache]
    rcases hcounted with ⟨⟨e, he⟩, hbooked⟩ | ⟨⟨computed, hcompute⟩, hbooked⟩
    · refine ⟨.nothing, hbooked.posted, by simp only [Entry.nothing]; omega, ?_, fun _ => rfl⟩
      unfold computed?
      rw [hinputs, Option.bind_some, he]
      rfl
    · refine ⟨.miss, hbooked.posted, by simp only [Entry.miss]; omega, ?_, fun _ => rfl⟩
      rw [hcomputed computed hcompute]
      rfl

/-- **However a request ends**, what it did is counted. -/
theorem Request.ends_posts {P : List Tensor → Prop} {s : ExecState} (h : Compiled P s)
    (hbackend : s.executor.backend < s.platform.backends.size) (r : Request) :
    Ends (r.perform s) (fun _ t => r.Posts s t) fun _ t => r.Posts s t := by
  have hother : r.inputs? = none →
      Ends (r.perform s) (fun _ t => r.Posts s t) fun _ t => r.Posts s t := by
    intro hr
    have hposts : ∀ t, s.Posted .nothing t → s.SameArtifacts t → r.Posts s t := by
      intro t ht hsame
      refine ⟨.nothing, ht, ?_, ?_, fun _ => rfl⟩
      · have hsize := hsame.size
        simp only [Entry.nothing]
        omega
      · unfold computed?
        rw [hr]
        rfl
    exact ((keeps_perform_of_inputs?_eq_none (T := ExecState.Posted .nothing) hr s).and
      (keeps_perform_of_inputs?_eq_none (T := ExecState.SameArtifacts) hr s)).mono
      (fun _ t ht => hposts t ht.1 ht.2) fun _ t ht => hposts t ht.1 ht.2
  cases r with
  | execute inputs =>
    exact ends_bind.2 ((ends_lookup_posts (r := .execute inputs) h hbackend rfl
      fun _ _ _ _ l => ExecM.keeps_runFound l inputs).mono (fun _ _ ht => ht) fun _ _ ht => ht)
  | getExecutable inputs =>
    exact ends_lookup_posts (r := .getExecutable inputs) h hbackend rfl fun _ _ _ _ _ => keeps_pure _
  | allocateInputs artifact inputs => exact hother rfl
  | allocateOutputs artifact outputs => exact hother rfl
  | acquireGroup artifact => exact hother rfl
  | returnGroup artifact index => exact hother rfl

end TensorJit
