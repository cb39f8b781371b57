import Mathlib.Algebra.BigOperators.Group.List.Basic
import TensorJit.Proofs.CacheHit
import TensorJit.Proofs.Executor.Ledger
import TensorJit.Proofs.WellFormed

/-!
# Executables are conserved

An executable that has been compiled or loaded is in the cache of its executor until it is evicted,
and is then released. So what the executors of a process count, taken together, is what their
backends and the profile count (`executables_conserved`), **whatever fails on the way**.

The proof adds up entries. A request adds one entry to the statistics of one executor, to the
counters of its backend and to the profile (`Request.Posts`), and no other command adds anything.
-/

namespace TensorJit

namespace Executor

/-- A quantity of the executors on one backend. -/
def on (id : BackendId) (f : Executor → Nat) (e : Executor) : Nat := if e.backend = id then f e else 0

end Executor

namespace Process

/-- The sum of a quantity over the executors. -/
def total (w : Process) (f : Executor → Nat) : Nat := (w.executors.map f).sum

/-- What the executors on a backend have counted. -/
def account (w : Process) (id : BackendId) : Entry where
  hits := w.total (Executor.on id (·.stats.hits))
  misses := w.total (Executor.on id (·.stats.misses))
  compiles := w.total (Executor.on id (·.stats.compiles))
  loads := w.total (Executor.on id (·.stats.loads))
  evictions := w.total (Executor.on id (·.stats.evictions))

/-! ### Sums -/

theorem sum_map_set {l : List Executor} {k : Nat} {e e' : Executor} {f : Executor → Nat} {n : Nat}
    (he : l[k]? = some e) (hf : f e' = f e + n) :
    ((l.set k e').map f).sum = (l.map f).sum + n := by
  induction l generalizing k with
  | nil => cases he
  | cons d rest ih =>
    cases k with
    | zero =>
      obtain rfl : d = e := Option.some.inj he
      rw [List.set_cons_zero, List.map_cons, List.map_cons, List.sum_cons, List.sum_cons, hf]
      omega
    | succ k =>
      rw [List.set_cons_succ, List.map_cons, List.map_cons, List.sum_cons, List.sum_cons,
        ih (k := k) he]
      omega

variable {w : Process} {k o : Nat} {e : Executor} {s : ExecState} {f g : Executor → Nat} {n : Nat}

/-- A request changes a sum by what it changes for its executor. -/
theorem total_put (he : w.executors[k]? = some e) (hf : f s.executor = f e + n) :
    (w.put k o s).total f = w.total f + n := sum_map_set he hf

theorem total_put_on {id : BackendId} (he : w.executors[k]? = some e)
    (hbackend : s.executor.backend = e.backend) (hf : f s.executor = f e + n) :
    (w.put k o s).total (Executor.on id f) =
      w.total (Executor.on id f) + if e.backend = id then n else 0 := by
  refine total_put he ?_
  unfold Executor.on
  rw [hbackend]
  split
  · exact hf
  · rfl

theorem total_congr (h : ∀ (k : Nat) e, w.executors[k]? = some e → f e = g e) :
    w.total f = w.total g := by
  unfold total
  congr 1
  refine List.map_congr_left fun e he => ?_
  obtain ⟨k, hk⟩ := List.getElem?_of_mem he
  exact h k e hk

theorem total_add (w : Process) (f g : Executor → Nat) :
    w.total (fun e => f e + g e) = w.total f + w.total g := List.sum_map_add

theorem total_on_add (w : Process) (id : BackendId) (f g : Executor → Nat) :
    w.total (Executor.on id fun e => f e + g e) =
      w.total (Executor.on id f) + w.total (Executor.on id g) := by
  rw [← total_add]
  refine total_congr fun k e _ => ?_
  unfold Executor.on
  split
  · rfl
  · rfl

/-- There is nothing on a backend on which no executor runs. -/
theorem total_on_eq_zero {id : BackendId}
    (h : ∀ (k : Nat) e, w.executors[k]? = some e → e.backend ≠ id) : w.total (Executor.on id f) = 0 := by
  unfold total
  refine List.sum_eq_zero fun n hn => ?_
  obtain ⟨e, he, rfl⟩ := List.mem_map.1 hn
  obtain ⟨k, hk⟩ := List.getElem?_of_mem he
  exact if_neg (h k e hk)

/-! ### The accounts -/

/-- The counts of executors, backends and profile agree. -/
structure Conserved (w : Process) : Prop where
  /-- What an executor has compiled and loaded is in its cache, or has been evicted. -/
  balance : ∀ (k : Nat) e, w.executors[k]? = some e →
    e.stats.compiles + e.stats.loads = e.cache.size + e.stats.evictions
  /-- A backend has counted what the executors on it have counted. -/
  used : ∀ id, id < w.platform.backends.size →
    (w.account id).Used (w.platform.backend id).kind ⟨0, 0, 0, 0, 0, 0, 0, 0, 0⟩
      (w.platform.backend id).counters
  /-- The profile has counted what all executors have counted. -/
  lookups : w.platform.profile.lookups =
    (w.total (·.stats.hits), w.total (·.stats.misses), w.total (·.stats.evictions))

namespace Conserved

theorem empty : Conserved empty where
  balance _ _ h := by cases h
  used _ h := by cases h
  lookups := rfl

/-- A command that changes no executor, and no counter of executables. -/
theorem of_steady {w' : Process} (h : w.Conserved) (hexecutors : w'.executors = w.executors)
    (hsize : w'.platform.backends.size = w.platform.backends.size)
    (hkind : ∀ id, (w'.platform.backend id).kind = (w.platform.backend id).kind)
    (huse : ∀ id, (w'.platform.backend id).counters.use = (w.platform.backend id).counters.use)
    (hlookups : w'.platform.profile.lookups = w.platform.profile.lookups) : w'.Conserved := by
  have htotal : ∀ f, w'.total f = w.total f := fun f => by
    unfold total
    rw [hexecutors]
  have haccount : ∀ id, w'.account id = w.account id := fun id => by
    simp only [account, htotal]
  refine ⟨fun k e he => h.balance k e (hexecutors ▸ he), fun id hid => ?_, ?_⟩
  · have hused := (h.used id (hsize ▸ hid)).trans (Entry.used_nothing_iff.2 (huse id))
    rw [haccount, hkind]
    exact hused
  · rw [hlookups, h.lookups]
    simp only [htotal]

theorem step_register (h : w.Conserved) (hw : w.WellFormed) (b : Backend)
    (hb : b.counters.use = (0, 0, 0, 0)) : (w.change fun p => (p.register b).2).Conserved := by
  refine ⟨h.balance, fun id hid => ?_, h.lookups⟩
  change id < (w.platform.backends.push b).size at hid
  rw [Array.size_push] at hid
  change (w.account id).Used ((w.platform.register b).2.backend id).kind _
    ((w.platform.register b).2.backend id).counters
  rcases Nat.lt_or_ge id w.platform.backends.size with hlt | hge
  · rw [Platform.backend_register b hlt]
    exact h.used id hlt
  · -- No executor runs on the backend that has just been registered.
    have hzero : ∀ f, w.total (Executor.on id f) = 0 := fun f => total_on_eq_zero fun k e he =>
      Nat.ne_of_lt (Nat.lt_of_lt_of_le (hw.backends k e he) hge)
    have haccount : w.account id = .nothing := by simp only [account, hzero, Entry.nothing]
    rw [haccount, show id = w.platform.backends.size by omega, Platform.backend_register_self]
    exact Entry.used_nothing_iff.2 hb

/-- **Building** gives an executor that has counted nothing. -/
theorem step_build (h : w.Conserved) (r : BuildRequest) : (w.step (.build r)).Conserved := by
  obtain ⟨q, hq, hbuild⟩ := w.build_cases r
  have hsame : Conserved { w with platform := q } :=
    h.of_steady rfl hq.later.backends hq.later.kind hq.calm.use hq.calm.lookups
  rcases hbuild with ⟨e, hbuilt, hstep⟩ | hstep
  · rw [hstep]
    -- The new executor has counted nothing, so no total changes.
    have htotal : ∀ f : Executor → Nat, f e = 0 →
        total { w with platform := q, executors := w.executors ++ [e] } f =
          total { w with platform := q } f := fun f hf => by
      unfold total
      rw [List.map_append, List.sum_append, List.map_singleton, List.sum_singleton, hf,
        Nat.add_zero]
    have hstats : ∀ g : Stats → Nat, g .zero = 0 → g e.stats = 0 := fun g hg => by
      rw [hbuilt.stats, hg]
    have hon : ∀ (id : BackendId) (g : Stats → Nat), g .zero = 0 →
        Executor.on id (fun e => g e.stats) e = 0 := by
      intro id g hg
      unfold Executor.on
      dsimp only
      rw [hstats g hg, ite_self]
    refine ⟨fun k e' he' => ?_, fun id hid => ?_, ?_⟩
    · rcases executor_append he' with hold | ⟨-, rfl⟩
      · exact h.balance k e' hold
      · rw [hbuilt.stats, hbuilt.cache]
        rfl
    · have hused := hsame.used id hid
      have haccount : account { w with platform := q, executors := w.executors ++ [e] } id =
          account { w with platform := q } id := by
        unfold account
        rw [htotal _ (hon id Stats.hits rfl), htotal _ (hon id Stats.misses rfl),
          htotal _ (hon id Stats.compiles rfl), htotal _ (hon id Stats.loads rfl),
          htotal _ (hon id Stats.evictions rfl)]
      rw [haccount]
      exact hused
    · refine hsame.lookups.trans ?_
      rw [htotal _ (hstats Stats.hits rfl), htotal _ (hstats Stats.misses rfl),
        htotal _ (hstats Stats.evictions rfl)]
  · rw [hstep]
    exact hsame

/-- **A request** adds one entry everywhere. -/
theorem put (h : w.Conserved) {r : Request} (he : w.executors[k]? = some e)
    (hposts : r.Posts (w.stateOf e o) s) : (w.put k o s).Conserved := by
  obtain ⟨x, hposted, hsize, -⟩ := hposts
  have hbackend : s.executor.backend = e.backend := hposted.later.backend
  have htally : s.executor.stats.hits = e.stats.hits + x.hits ∧
      s.executor.stats.misses = e.stats.misses + x.misses ∧
      s.executor.stats.compiles = e.stats.compiles + x.compiles ∧
      s.executor.stats.loads = e.stats.loads + x.loads ∧
      s.executor.stats.evictions = e.stats.evictions + x.evictions := by
    have htally := hposted.tally
    simpa only [Stats.tally, Entry.post, Prod.mk.injEq, stateOf_executor] using htally
  obtain ⟨hhits, hmisses, hcompiles, hloads, hevictions⟩ := htally
  refine ⟨fun j e' he' => ?_, fun id hid => ?_, ?_⟩
  · rcases executor_put he he' with ⟨rfl, rfl⟩ | ⟨-, hold⟩
    · have hbalance := h.balance j e he
      change x.compiles + x.loads + e.cache.size = x.evictions + s.executor.cache.size at hsize
      omega
    · exact h.balance j e' hold
  · have hkind : (s.platform.backend id).kind = (w.platform.backend id).kind :=
      hposted.later.platform.kind id
    have hid' : id < w.platform.backends.size := by
      rw [← show s.platform.backends.size = w.platform.backends.size from
        hposted.later.platform.backends]
      exact hid
    change Entry.Used _ (s.platform.backend id).kind _ (s.platform.backend id).counters
    rw [hkind]
    have hused := h.used id hid'
    unfold account
    rw [total_put_on (f := (·.stats.hits)) he hbackend hhits,
      total_put_on (f := (·.stats.misses)) he hbackend hmisses,
      total_put_on (f := (·.stats.compiles)) he hbackend hcompiles,
      total_put_on (f := (·.stats.loads)) he hbackend hloads,
      total_put_on (f := (·.stats.evictions)) he hbackend hevictions]
    -- Only the backend of this executor is used, and as much as the executor counts.
    by_cases hid'' : e.backend = id
    · subst hid''
      simp only [if_true]
      refine hused.trans ?_
      have hown := hposted.used
      unfold ExecState.kind ExecState.device Platform.device at hown
      rw [hbackend] at hown
      exact hown
    · simp only [if_neg hid'', Nat.add_zero]
      exact hused.trans (Entry.used_nothing_iff.2 (hposted.others id (Ne.symm hid'')))
  · rw [total_put (f := (·.stats.hits)) he hhits, total_put (f := (·.stats.misses)) he hmisses,
      total_put (f := (·.stats.evictions)) he hevictions]
    refine hposted.lookups.trans ?_
    rw [stateOf_platform, h.lookups]

/-- **Every command** keeps the accounts. -/
theorem step (h : w.Conserved) (hw : w.WellFormed)
    (hcompiled : ∀ (k : Nat) e o, w.executors[k]? = some e →
      Compiled (fun _ => True) (w.stateOf e o)) (c : Command) : (w.step c).Conserved := by
  cases c with
  | register name kind rejected => exact h.step_register hw _ rfl
  | inject id injections =>
    have hbackend : ∀ j, (({ w.platform with
        backends := w.platform.backends.modify id fun b => { b with injections } } :
          Platform).backend j).kind = (w.platform.backend j).kind ∧
        (({ w.platform with
        backends := w.platform.backends.modify id fun b => { b with injections } } :
          Platform).backend j).counters = (w.platform.backend j).counters := fun j => by
      rw [Platform.backend_inject]
      exact ⟨rfl, rfl⟩
    exact h.of_steady rfl Array.size_modify (fun j => (hbackend j).1)
      (fun j => congrArg BackendCounters.use (hbackend j).2) rfl
  | build r => exact h.step_build r
  | ask k o r =>
    cases he : w.executors[k]? with
    | none =>
      change (w.ask k o r).2.Conserved
      rw [ask_of_none he]
      exact h
    | some e =>
      obtain ⟨s, hput, hposts⟩ := put_of_ends he (r.ends_posts (hcompiled k e o he)
        (hw.backends k e he))
      rw [hput]
      exact h.put he hposts
  | _ => exact h.of_steady rfl rfl (fun _ => rfl) (fun _ => rfl) rfl

/-- On each backend, what has been compiled and loaded is kept or has been evicted. -/
theorem balance_on (h : w.Conserved) (id : BackendId) :
    w.total (Executor.on id (·.stats.compiles)) + w.total (Executor.on id (·.stats.loads)) =
      w.total (Executor.on id (·.cache.size)) +
        w.total (Executor.on id (·.stats.evictions)) := by
  rw [← total_on_add, ← total_on_add]
  refine total_congr fun k e he => ?_
  have hbalance := h.balance k e he
  unfold Executor.on
  split
  · exact hbalance
  · rfl

/-- Every backend has been used as the account of the executors on it says. -/
theorem used_getElem? (h : w.Conserved) {id : BackendId} {b : Backend}
    (hb : w.platform.backends[id]? = some b) :
    (w.account id).Used b.kind ⟨0, 0, 0, 0, 0, 0, 0, 0, 0⟩ b.counters := by
  obtain ⟨hlt, -⟩ := Array.getElem?_eq_some_iff.1 hb
  have hbackend : w.platform.backend id = b := by
    unfold Platform.backend
    rw [Array.getD_eq_getD_getElem?, hb]
    rfl
  rw [← hbackend]
  exact h.used id hlt

end Conserved

/-- **In every process** the accounts agree. -/
theorem conserved_run (commands : List Command) : (empty.run commands).Conserved := by
  induction commands using List.reverseRecOn with
  | nil => exact .empty
  | append_singleton rest c ih =>
    rw [run_concat]
    exact ih.step (wellFormed_run rest) (fun k e o he => compiled_run rest o he) c

/-- An executor has as many hits and misses as it has been asked something that has a signature. -/
theorem hits_add_misses (commands : List Command) {k : Nat} {e : Executor}
    (he : (empty.run commands).executors[k]? = some e) :
    e.stats.hits + e.stats.misses = (asked Request.computed? k empty commands).length := by
  induction commands using List.reverseRecOn generalizing e with
  | nil => cases he
  | append_singleton rest c ih =>
    rw [run_concat] at he
    rw [asked_concat, List.length_append]
    rcases executor_step (fun o r e _ he => r.ends_posts (compiled_run rest o he)
        ((wellFormed_run rest).backends k e he)) he with
      ⟨hold, hother⟩ | ⟨o, r, e₀, s, rfl, hold, -, rfl, x, hposted, -, hsigned, -⟩ |
      ⟨r, rfl, hk, hbuilt⟩
    · rw [Command.asked?_eq_none hother, ih hold]
      exact (Nat.zero_add _).symm
    · rw [Command.asked?_ask hold, ← ih hold, ← hsigned]
      have htally := hposted.tally
      simp only [Stats.tally, Entry.post, Prod.mk.injEq, stateOf_executor] at htally
      omega
    · have hnil : asked Request.computed? k empty rest = [] :=
        asked_eq_nil rest (List.getElem?_eq_none_iff.2 (Nat.le_of_eq hk.symm))
      rw [hnil, hbuilt.stats]
      rfl

end Process

/-- **Executables are conserved.** In every process: what an executor has compiled and loaded is in
its cache or has been evicted, and it has a hit or a miss for each request that had a signature.
What is live on a backend is what is in the caches of the executors on it, and what they have
evicted has been released, once each; since the live executables of the reference backend and the
evictions make up what was compiled and loaded, it was never at zero when it released one. The
profile has counted the hits, misses and evictions of all executors. -/
theorem executables_conserved (commands : List Command) :
    (∀ (k : Nat) (e : Executor), (Process.empty.run commands).executors[k]? = some e →
      e.stats.compiles + e.stats.loads = e.cache.size + e.stats.evictions ∧
      e.stats.hits + e.stats.misses =
        (Process.asked Request.computed? k .empty commands).length) ∧
    (∀ (id : BackendId) (b : Backend), (Process.empty.run commands).platform.backends[id]? = some b →
      b.kind = .reference →
      b.counters.live = (Process.empty.run commands).total (Executor.on id (·.cache.size)) ∧
      b.counters.live + (Process.empty.run commands).total (Executor.on id (·.stats.evictions)) =
        (Process.empty.run commands).total
          (Executor.on id fun e => e.stats.compiles + e.stats.loads)) ∧
    (∀ (id : BackendId) (b : Backend) (mode : RecordingMode),
      (Process.empty.run commands).platform.backends[id]? = some b → b.kind = .recording mode →
      b.counters.compiles + b.counters.loads = b.counters.releases +
        (Process.empty.run commands).total (Executor.on id (·.cache.size)) ∧
      b.counters.releases =
        (Process.empty.run commands).total (Executor.on id (·.stats.evictions))) ∧
    (Process.empty.run commands).platform.profile.cacheCount "executable_cache_hit" =
      (Process.empty.run commands).total (·.stats.hits) ∧
    (Process.empty.run commands).platform.profile.cacheCount "executable_cache_miss" =
      (Process.empty.run commands).total (·.stats.misses) ∧
    (Process.empty.run commands).platform.profile.cacheCount "executable_cache_evict" =
      (Process.empty.run commands).total (·.stats.evictions) := by
  have hconserved := Process.conserved_run commands
  have hlookups := hconserved.lookups
  simp only [Profile.lookups, Prod.mk.injEq] at hlookups
  refine ⟨fun k e he => ⟨hconserved.balance k e he, Process.hits_add_misses commands he⟩,
    fun id b hb hkind => ?_, fun id b mode hb hkind => ?_, hlookups⟩
  · have hid := hconserved.used_getElem? hb
    have hbal := hconserved.balance_on id
    rw [hkind] at hid
    obtain ⟨hlive, -⟩ := hid
    rw [Process.total_on_add]
    simp only [Process.account] at hlive
    omega
  · have hid := hconserved.used_getElem? hb
    have hbal := hconserved.balance_on id
    rw [hkind] at hid
    obtain ⟨-, hcompiles, hloads, hreleases⟩ := hid
    simp only [Process.account] at hcompiles hloads hreleases
    omega

/-- The request for an executor of the sum of two inputs on the reference backend, with a cache for
one artifact. -/
def BuildRequest.singleSum : BuildRequest :=
  { BuildRequest.plain Graph.sampleAdd "cpu" .reference .never with
    config := some { Config.standard with cacheDepth := 1 } }

/-- Two such executors, of which the first is asked for the sums of one and of two numbers, and the
second for those of one number. -/
def threeOnOne : List Command :=
  [.register "cpu" .reference none, .build .singleSum, .build .singleSum,
    .ask 0 0 (.getExecutable (pairOf 1)), .ask 0 0 (.getExecutable (pairOf 2)),
    .ask 1 0 (.getExecutable (pairOf 1))]

/-- Three executables have been compiled, one has been released, and two are live. -/
theorem two_live_of_threeOnOne : ∃ b,
    (Process.empty.run threeOnOne).platform.backends[0]? = some b ∧ b.kind = .reference ∧
    b.counters.live = 2 ∧
    (Process.empty.run threeOnOne).total (Executor.on 0 (·.stats.evictions)) = 1 ∧
    2 + 1 = (Process.empty.run threeOnOne).total
      (Executor.on 0 fun e => e.stats.compiles + e.stats.loads) := by
  obtain ⟨b, hb⟩ := Option.isSome_iff_exists.1
    (show ((Process.empty.run threeOnOne).platform.backends[0]?).isSome = true from
      by decide +kernel)
  have hkind : ((Process.empty.run threeOnOne).platform.backends[0]?.map (·.kind)) =
    some .reference := by decide +kernel
  rw [hb] at hkind
  have hreference : b.kind = .reference := Option.some.inj hkind
  obtain ⟨hlive, hsum⟩ := (executables_conserved threeOnOne).2.1 0 b hb hreference
  have hsize : (Process.empty.run threeOnOne).total (Executor.on 0 (·.cache.size)) = 2 := by
    decide +kernel
  have hevicted : (Process.empty.run threeOnOne).total (Executor.on 0 (·.stats.evictions)) = 1 := by
    decide +kernel
  rw [hsize] at hlive
  rw [hlive, hevicted] at hsum
  exact ⟨b, hb, hreference, hlive, hevicted, hsum⟩

end TensorJit
