import TensorJit.Proofs.Execution
import TensorJit.Proofs.Untracked

/-!
# When copies may be left out

Executors on devices that share one registry of fresh copies leave out the copies that the registry
vouches for. If everybody who changes a buffer tells the registry before the next call
(`Process.Announced`), and no call gives one buffer at two positions (`ExecState.TellsApart`), then
**every executable is called with what the buffers hold** (`passed_eq_storage`), and what a call
writes is what it would write without a registry. Nobody can tell the run from one in which every
input is copied every time (`Process.Faithful.twin_run`).

Without the second condition this is false: the registry vouches for a buffer and an artifact, but
each position has a tensor of its own. When a buffer is copied for the first of two positions, the
copy for the second one is left out (`six_of_sumOfShared`).
-/

namespace TensorJit

open ExecState (Sound)

namespace Process

/-! ### Runs in which changes are announced -/

/-- The buffers that have been changed since the registry was told of it last. -/
def unannounced (n : Nat) (D : List StorageId) : Command → List StorageId
  | .write storage _ => storage :: D
  | .invalidate tracker storage => if tracker = .registry n then D.filter (· ≠ storage) else D
  | _ => D

/-- A command to executors on devices that ask one registry: they are called with inputs that are in
order and told apart, and not before all changes have been announced. -/
def Elides (n : Nat) (δ : Nat → Nat → DType) (D : List StorageId) (w : Process) : Command → Prop
  | .register _ kind _ => kind = .recording .device
  | .build r => r.tracker = .registry n
  | .ask k o (.execute inputs) => D = [] ∧ w.Presents (δ k) o inputs ∧
    ∀ e, w.executors[k]? = some e → (w.stateOf e o).TellsApart inputs
  | .ask _ _ _ => False
  | _ => True

/-- A run of such commands. -/
def Announced (n : Nat) (δ : Nat → Nat → DType) : List StorageId → Process → List Command → Prop
  | _, _, [] => True
  | D, w, c :: rest => w.Elides n δ D c ∧ Announced n δ (unannounced n D c) (w.step c) rest

/-- The executors of a process share nothing but the registry, and what it vouches for is what their
tensors hold. -/
structure Faithful (n : Nat) (δ : Nat → Nat → DType) (D : List StorageId) (w : Process) : Prop where
  /-- Everything that is referred to exists. -/
  wellFormed : w.WellFormed
  /-- All backends are devices. -/
  devices : ∀ id, id < w.platform.backends.size →
    (w.platform.backend id).kind = .recording .device
  /-- All executors ask the registry. -/
  trackers : ∀ (k : Nat) (e : Executor), w.executors[k]? = some e → e.tracker = .registry n
  /-- All executors are sound. -/
  sound : ∀ k, w.SoundAt (δ k) k
  /-- No artifact is in two caches. -/
  artifacts : ∀ (j k : Nat) (e f : Executor) id a b, w.executors[j]? = some e →
    w.executors[k]? = some f → e.cache.get? id = some a → f.cache.get? id = some b → j = k
  /-- No tensor is in two caches. -/
  tensors : ∀ (j k : Nat) (e f : Executor) i i' p p' x, w.executors[j]? = some e →
    w.executors[k]? = some f → e.cache.tensorAt i p = some x → f.cache.tensorAt i' p' = some x →
    j = k
  /-- What is vouched for is current. -/
  faithful : ∀ (k o : Nat) (e : Executor), w.executors[k]? = some e →
    (w.stateOf e o).Faithful (· ∈ D)

section Faithful

variable {n : Nat} {δ : Nat → Nat → DType} {D D' : List StorageId} {w : Process} {k o : Nat}
  {e : Executor} {c : Command}

theorem Faithful.kind_eq (h : w.Faithful n δ D) (he : w.executors[k]? = some e) (o : Nat) :
    (w.stateOf e o).kind = .recording .device :=
  h.devices e.backend (h.wellFormed.backends k e he)

theorem Faithful.soundOf (h : w.Faithful n δ D) (he : w.executors[k]? = some e) (o : Nat) :
    Sound (δ k) (w.stateOf e o) := by
  refine h.sound k e o he fun hpipelined => ?_
  rw [show (w.platform.backend e.backend).kind = .recording .device from h.kind_eq he o]
    at hpipelined
  cases hpipelined

/-- The inputs of every executor are in order. -/
theorem Elides.orderly (h : w.Elides n δ D c) (k : Nat) : w.Orderly (δ k) k c := by
  cases c with
  | ask j o r =>
    cases r with
    | execute inputs =>
      rintro rfl
      exact h.2.1
    | _ => exact h.elim
  | _ => exact trivial

theorem faithful_empty (n : Nat) (δ : Nat → Nat → DType) : empty.Faithful n δ [] where
  wellFormed := .empty
  devices _ h := absurd h (Nat.not_lt_zero _)
  trackers _ _ he := by cases he
  sound _ _ _ he := by cases he
  artifacts _ _ _ _ _ _ _ he := by cases he
  tensors _ _ _ _ _ _ _ _ _ he := by cases he
  faithful _ _ _ he := by cases he

/-- **Something happens to the platform**, and only what has not changed is vouched for. -/
theorem Faithful.of_platform (h : w.Faithful n δ D) (hc : w.Elides n δ D c)
    (hexecutors : (w.step c).executors = w.executors)
    (hdevices : ∀ id, id < (w.step c).platform.backends.size →
      ((w.step c).platform.backend id).kind = .recording .device)
    (htensors : (w.step c).platform.memory.tensors = w.platform.memory.tensors)
    (hvouched : ∀ storage id, storage ∉ D' →
      (w.step c).platform.isFresh (.registry n) storage id = true →
      w.platform.isFresh (.registry n) storage id = true ∧ storage ∉ D ∧
        (storage < w.platform.memory.storages.size →
          (w.step c).platform.memory.storage storage = w.platform.memory.storage storage)) :
    (w.step c).Faithful n δ D' where
  wellFormed := h.wellFormed.step c
  devices := hdevices
  trackers k e he := h.trackers k e (hexecutors ▸ he)
  sound k := (h.sound k).step h.wellFormed (hc.orderly k)
  artifacts j k e f id a b he hf := h.artifacts j k e f id a b (hexecutors ▸ he) (hexecutors ▸ hf)
  tensors j k e f i i' p p' x he hf :=
    h.tensors j k e f i i' p p' x (hexecutors ▸ he) (hexecutors ▸ hf)
  faithful k o e he := by
    rw [hexecutors] at he
    have hfaithful := h.faithful k o e he
    have htracker : e.tracker = .registry n := h.trackers k e he
    refine ⟨fun id a q slot ha hslot => ?_, fun id a q slot ha hslot hin hD hf => ?_,
      hfaithful.prior⟩
    · exact Nat.lt_of_lt_of_le (hfaithful.live id a q slot ha hslot)
        (w.grows_step c).memory.storages
    · obtain ⟨hf, hD', hstorage⟩ := hvouched slot.host id hD (htracker ▸ hf)
      refine (((h.soundOf he o).atHome.contents_eq (by rw [h.kind_eq he o]; rfl) ha hslot ?_).trans
        (hfaithful.current id a q slot ha hslot hin hD' (htracker.symm ▸ hf))).trans
        (hstorage (hfaithful.live id a q slot ha hslot)).symm
      change (w.step c).platform.memory.tensor slot.tensor = w.platform.memory.tensor slot.tensor
      unfold Memory.tensor
      rw [htensors]

/-- **An executor is built.** -/
theorem Faithful.build (h : w.Faithful n δ D) (r : BuildRequest)
    (hc : w.Elides n δ D (.build r)) : (w.step (.build r)).Faithful n δ D := by
  have hgrows := w.grows_step (.build r)
  have hsame : w.platform.SameButOptions (w.step (.build r)).platform := by
    obtain ⟨q, hq, ⟨e, -, hstep⟩ | hstep⟩ := w.build_cases r
    · rw [hstep]
      exact hq
    · rw [hstep]
      exact hq
  -- An executor that was not there before has nothing in its cache.
  have hold : ∀ (k : Nat) (e : Executor), (w.step (.build r)).executors[k]? = some e →
      w.executors[k]? = some e ∨
        e.tracker = .registry n ∧ (∀ id, e.cache.get? id = none) := by
    intro k e he
    rcases executor_step (fun _ _ _ _ _ => ends_trivial _) he with
      ⟨hold, -⟩ | ⟨_, _, _, _, hask, -⟩ | ⟨r', hr', -, hbuilt⟩
    · exact .inl hold
    · cases hask
    · obtain rfl := Command.build.inj hr'
      refine .inr ⟨hbuilt.tracker.trans hc, fun id => ?_⟩
      rw [hbuilt.cache]
      rfl
  have hget : ∀ (k : Nat) (e : Executor) id a, (w.step (.build r)).executors[k]? = some e →
      e.cache.get? id = some a → w.executors[k]? = some e := by
    intro k e id a he ha
    rcases hold k e he with hold | ⟨-, hnone⟩
    · exact hold
    · rw [hnone] at ha
      cases ha
  have hat : ∀ (k : Nat) (e : Executor) i p x, (w.step (.build r)).executors[k]? = some e →
      e.cache.tensorAt i p = some x → w.executors[k]? = some e := by
    intro k e i p x he hx
    obtain ⟨a, ha, -⟩ := Option.bind_eq_some_iff.1 hx
    exact hget k e i a he ha
  refine ⟨h.wellFormed.step _, fun id hid => ?_, fun k e he => ?_,
    fun k => (h.sound k).step h.wellFormed (hc.orderly k), fun j k e f id a b he hf ha hb =>
      h.artifacts j k e f id a b (hget j e id a he ha) (hget k f id b hf hb) ha hb,
    fun j k e f i i' p p' x he hf hx hx' =>
      h.tensors j k e f i i' p p' x (hat j e i p x he hx) (hat k f i' p' x hf hx') hx hx',
    fun k o e he => ⟨fun id a q slot ha hslot => ?_, fun id a q slot ha hslot hin hD hf => ?_,
      fun id a p q ha => (h.faithful k o e (hget k e id a he ha)).prior id a p q ha⟩⟩
  · rw [hsame.later.backends] at hid
    rw [hsame.later.kind]
    exact h.devices id hid
  · rcases hold k e he with hold | ⟨htracker, -⟩
    · exact h.trackers k e hold
    · exact htracker
  · exact Nat.lt_of_lt_of_le ((h.faithful k o e (hget k e id a he ha)).live id a q slot ha hslot)
      hgrows.memory.storages
  · have hcurrent := (h.faithful k o e (hget k e id a he ha)).current id a q slot ha hslot hin hD
    rw [stateOf_platform] at hf
    unfold Platform.isFresh at hf
    rw [hsame.registries] at hf
    change (w.step (.build r)).platform.memory.contents slot.tensor =
      (w.step (.build r)).platform.memory.storage slot.host
    rw [hsame.memory]
    exact hcurrent hf

/-- What other executors have is not in the cache of the one that is called. -/
theorem Faithful.foreign (h : w.Faithful n δ []) {j : Nat} {e f : Executor} {id : ArtifactId}
    {a : Artifact} (he : w.executors[k]? = some e) (hj : j ≠ k) (hf : w.executors[j]? = some f)
    (ha : f.cache.get? id = some a) : (w.stateOf e o).Foreign id := by
  refine ⟨Option.eq_none_iff_forall_ne_some.2 fun b hb => ?_,
    (h.soundOf hf o).compiled.issued id a ha⟩
  exact hj (h.artifacts j k f e id a b hf he ha hb)

/-- A discreet call leaves the tensors of other executors alone. -/
theorem Faithful.loose (h : w.Faithful n δ []) {j : Nat} {e f : Executor} {s : ExecState}
    (hdiscreet : (w.stateOf e o).Discreet s) (he : w.executors[k]? = some e) (hj : j ≠ k)
    (hf : w.executors[j]? = some f) {i : ArtifactId} {p : Place} {x : TensorId}
    (hx : f.cache.tensorAt i p = some x) :
    s.memory.tensor x = w.platform.memory.tensor x ∧
      ∀ i' p', s.cache.tensorAt i' p' ≠ some x := by
  refine hdiscreet.loose x ((h.soundOf hf o).owns.live i p x hx) fun i' p' hx' => ?_
  exact hj (h.tensors j k f e i i' p p' x hf he hx hx')

/-- After a discreet call of one executor the others are as faithful as before. -/
theorem Faithful.faithful_other (h : w.Faithful n δ []) {j o' : Nat} {e f : Executor}
    {s : ExecState} (hdiscreet : (w.stateOf e o).Discreet s) (he : w.executors[k]? = some e)
    (hj : j ≠ k) (hf : w.executors[j]? = some f) :
    ((w.put k o s).stateOf f o').Faithful fun storage => storage ∈ [] := by
  have hlater : (w.stateOf e o).Later s := hdiscreet.later
  have hbefore := h.faithful j o f hf
  refine ⟨fun id a q slot ha hslot => ?_, fun id a q slot ha hslot hin hD hfresh => ?_,
    hbefore.prior⟩
  · exact Nat.lt_of_lt_of_le (hbefore.live id a q slot ha hslot) hlater.platform.memory.storages
  · have htracker : f.tracker = e.tracker := (h.trackers j f hf).trans (h.trackers k e he).symm
    have hplace : f.cache.tensorAt id (.slot .input q) = some slot.tensor :=
      Cache.tensorAt_slot ha hslot
    obtain ⟨hfresh', hstorage⟩ := hdiscreet.vouched slot.host id
      (h.foreign he hj hf ha) (htracker ▸ hfresh)
    refine (((h.soundOf hf o).atHome.contents_eq (by rw [h.kind_eq hf o]; rfl) ha hslot
      (h.loose hdiscreet he hj hf hplace).1).trans
      (hbefore.current id a q slot ha hslot hin hD (htracker.symm ▸ hfresh'))).trans
      (hstorage (hbefore.live id a q slot ha hslot)).symm

/-- **An executor is called.** -/
theorem Faithful.call (h : w.Faithful n δ []) {inputs : List HostBuffer}
    (hc : w.Elides n δ [] (.ask k o (.execute inputs))) :
    (w.step (.ask k o (.execute inputs))).Faithful n δ [] := by
  cases he : w.executors[k]? with
  | none =>
    change Faithful n δ [] (w.ask k o (.execute inputs)).2
    rw [ask_of_none he]
    exact h
  | some e =>
    have hends : Ends ((Request.execute inputs).perform (w.stateOf e o))
        (fun _ s => (s.Faithful fun _ => False) ∧ (w.stateOf e o).Discreet s)
        fun _ s => (s.Faithful fun _ => False) ∧ (w.stateOf e o).Discreet s :=
      ends_bind.2 (ExecM.ends_execute_faithful (h.soundOf he o)
        (hc.2.1.presented h.wellFormed e) (h.kind_eq he o)
        (by simpa using h.faithful k o e he) (hc.2.2 e he))
    obtain ⟨s, hstep, hfaithful, hdiscreet⟩ := put_of_ends he hends
    have hlater : (w.stateOf e o).Later s := hdiscreet.later
    have hsize : s.platform.backends.size = w.platform.backends.size := hlater.platform.backends
    -- An executor afterwards is the one that was called, or is as it was.
    have hexecutor : ∀ (j : Nat) (f : Executor), (w.put k o s).executors[j]? = some f →
        j = k ∧ f = s.executor ∨ j ≠ k ∧ w.executors[j]? = some f := fun _ _ => executor_put he
    rw [hstep]
    refine ⟨hstep ▸ h.wellFormed.step _, fun id hid => ?_, fun j f hf => ?_,
      fun j => hstep ▸ (h.sound j).step h.wellFormed (hc.orderly j),
      fun j j' f f' id a b hf hf' ha hb => ?_, fun j j' f f' i i' p p' x hf hf' hx hx' => ?_,
      fun j o' f hf => ?_⟩
    · exact (hlater.platform.kind id).trans (h.devices id (hsize ▸ hid))
    · rcases hexecutor j f hf with ⟨rfl, rfl⟩ | ⟨-, hf⟩
      · exact hlater.tracker.trans (h.trackers j e he)
      · exact h.trackers j f hf
    · rcases hexecutor j f hf with ⟨rfl, rfl⟩ | ⟨hj, hold⟩
      · rcases hexecutor j' f' hf' with ⟨rfl, -⟩ | ⟨hj', hold'⟩
        · rfl
        · have hnone := hdiscreet.foreign id (h.foreign he hj' hold' hb)
          exact absurd (hnone.symm.trans ha) nofun
      · rcases hexecutor j' f' hf' with ⟨rfl, rfl⟩ | ⟨hj', hold'⟩
        · have hnone := hdiscreet.foreign id (h.foreign he hj hold ha)
          exact absurd (hnone.symm.trans hb) nofun
        · exact h.artifacts j j' f f' id a b hold hold' ha hb
    · rcases hexecutor j f hf with ⟨rfl, rfl⟩ | ⟨hj, hold⟩
      · rcases hexecutor j' f' hf' with ⟨rfl, -⟩ | ⟨hj', hold'⟩
        · rfl
        · exact absurd hx ((h.loose hdiscreet he hj' hold' hx').2 i p)
      · rcases hexecutor j' f' hf' with ⟨rfl, rfl⟩ | ⟨hj', hold'⟩
        · exact absurd hx' ((h.loose hdiscreet he hj hold hx).2 i' p')
        · exact h.tensors j j' f f' i i' p p' x hold hold' hx hx'
    · rcases hexecutor j f hf with ⟨rfl, rfl⟩ | ⟨hj, hf⟩
      · exact ⟨hfaithful.live, fun id a q slot ha hslot hin _ hfresh =>
          hfaithful.current id a q slot ha hslot hin nofun hfresh, hfaithful.prior⟩
      · exact h.faithful_other hdiscreet he hj hf

/-- **One command.** -/
theorem Faithful.step (h : w.Faithful n δ D) (hc : w.Elides n δ D c) :
    (w.step c).Faithful n δ (unannounced n D c) := by
  cases c with
  | register name kind rejected =>
    refine h.of_platform hc rfl (fun id hid => ?_) rfl fun storage id hD hf => ⟨hf, hD, fun _ => rfl⟩
    rcases Nat.lt_or_ge id w.platform.backends.size with hlt | hge
    · exact ((w.grows_step (.register name kind rejected)).kind id hlt).trans (h.devices id hlt)
    · change id < (w.platform.backends.push _).size at hid
      obtain rfl : id = w.platform.backends.size := by
        rw [Array.size_push] at hid
        omega
      change ((w.platform.backends.push _).getD _ _).kind = _
      rw [Array.getD_eq_getD_getElem?, Array.getElem?_push_size]
      exact hc
  | unregister name =>
    exact h.of_platform hc rfl h.devices rfl fun storage id hD hf => ⟨hf, hD, fun _ => rfl⟩
  | inject backend injections =>
    refine h.of_platform hc rfl (fun id hid => ?_) rfl fun storage id hD hf => ⟨hf, hD, fun _ => rfl⟩
    have hlt : id < w.platform.backends.size := by
      change id < (w.platform.backends.modify _ _).size at hid
      rwa [Array.size_modify] at hid
    exact ((w.grows_step (.inject backend injections)).kind id hlt).trans (h.devices id hlt)
  | allocate t =>
    exact h.of_platform hc rfl h.devices rfl fun storage id hD hf =>
      ⟨hf, hD, fun hlt => w.platform.memory.storage_allocate_of_lt t hlt⟩
  | write storage bytes =>
    refine h.of_platform hc rfl h.devices rfl fun storage' id hD hf => ?_
    -- The buffer that is written is unannounced from now on, and nothing is asked of it.
    obtain ⟨hne, hD⟩ := not_or.1 (mt List.mem_cons.2 hD)
    exact ⟨hf, hD, fun _ => w.platform.memory.storage_setStorage_of_ne bytes hne⟩
  | newRegistry =>
    exact h.of_platform hc rfl h.devices rfl fun storage id hD hf =>
      ⟨Tracker.isFresh_of_push hf, hD, fun _ => rfl⟩
  | invalidate tracker storage =>
    refine h.of_platform hc rfl h.devices rfl fun storage' id hD hf => ?_
    obtain ⟨hf, hne⟩ := Tracker.isFresh_of_update_invalidate hf
    refine ⟨hf, fun hmem => hD ?_, fun _ => rfl⟩
    change storage' ∈ if tracker = .registry n then _ else D
    split
    · rename_i htracker
      exact List.mem_filter.2 ⟨hmem, decide_eq_true (hne htracker)⟩
    · exact hmem
  | take number =>
    exact h.of_platform hc rfl h.devices rfl fun storage id hD hf => ⟨hf, hD, fun _ => rfl⟩
  | build r => exact h.build r hc
  | ask k o r =>
    cases r with
    | execute inputs =>
      obtain rfl := hc.1
      exact h.call hc
    | _ => exact hc.elim

/-- Before each command of such a run, what is vouched for is current. -/
theorem Faithful.run {commands : List Command} (h : w.Faithful n δ D)
    (hrun : Announced n δ D w (commands ++ [c])) :
    ∃ D', (w.run commands).Faithful n δ D' ∧ (w.run commands).Elides n δ D' c := by
  induction commands generalizing w D with
  | nil => exact ⟨D, h, hrun.1⟩
  | cons d rest ih => exact ih (h.step hrun.1) hrun.2

/-! ### Beside a run in which nobody is asked -/

/-- **A call cannot be told from the one beside it.** -/
theorem Faithful.abreast_execute (h : w.Faithful n δ []) {inputs : List HostBuffer}
    (hc : w.Elides n δ [] (.ask k o (.execute inputs))) (he : w.executors[k]? = some e)
    {s' : ExecState} (hs : (w.stateOf e o).Twin s') :
    Abreast (ExecM.execute inputs (w.stateOf e o)) (ExecM.execute inputs s')
      (fun r t r' u => r.SameButCopies r' ∧ t.Twin u) ExecState.Twin :=
  ExecM.abreast_execute_of_faithful (h.soundOf he o) (hc.2.1.presented h.wellFormed e)
    (h.kind_eq he o) (by simpa using h.faithful k o e he) (hc.2.2 e he) hs

/-- Nor can any other command. -/
theorem Faithful.twin_step {w' : Process} (h : w.Faithful n δ D) (hc : w.Elides n δ D c)
    (htwin : w.Twin w') : (w.step c).Twin (w'.step c.untracked) := by
  refine htwin.step fun k o r e e' hask he hee' => ?_
  subst hask
  cases r with
  | execute inputs =>
    obtain rfl := hc.1
    exact (h.abreast_execute hc he (htwin.stateOf hee' o)).bind fun _ _ _ _ hu =>
      abreast_pure hu.2
  | _ => exact hc.elim

/-- **A run goes like the one beside it**, command by command. -/
theorem Faithful.twin_run {commands : List Command} {w' : Process} (h : w.Faithful n δ D)
    (hrun : Announced n δ D w (commands ++ [c])) (htwin : w.Twin w') :
    (w.run commands).Twin (w'.run (commands.map Command.untracked)) := by
  induction commands generalizing w w' D with
  | nil => exact htwin
  | cons d rest ih => exact ih (h.step hrun.1) hrun.2 (h.twin_step hrun.1 htwin)

end Faithful

end Process

/-! ### What a call is given, and what it computes -/

/-- Buffers are told apart if no two of them have the same storage. -/
theorem ExecState.tellsApart_of_nodup {inputs : List HostBuffer}
    (h : (inputs.map (·.storage)).Nodup) (s : ExecState) : s.TellsApart inputs := by
  intro p q b c hb hc _ _ heq
  have hp : (inputs.map (·.storage))[p]? = some b.storage := by rw [List.getElem?_map, hb]; rfl
  have hq : (inputs.map (·.storage))[q]? = some b.storage := by
    rw [List.getElem?_map, hc, heq]
    rfl
  exact (List.getElem?_inj (List.getElem?_eq_some_iff.1 hp).1 h).1 (hp.trans hq.symm)

/-- **A call of a faithful executor** whose buffers are told apart computes what it is to
compute. -/
theorem ExecM.ends_execute_of_faithful {δ : Nat → DType} {s : ExecState}
    {inputs : List HostBuffer} (h : Sound δ s) (hlowers : s.executor.Lowers)
    (hpresented : Presented δ s inputs) (hown : s.kind.isHostBound = false)
    (hs : s.Faithful fun _ => False) (htells : s.TellsApart inputs) :
    Ends (execute inputs s)
      (fun r u => s.executor.Computes inputs s.memory r.signature u.outputs u.memory)
      fun _ _ => True := by
  refine (ends_execute h hpresented fun _ => hlowers.suits δ).mono (fun r u hu => ?_)
    fun _ _ _ => trivial
  obtain ⟨l, a, t, v, hfor, hr, -, hperformed, hconcluded⟩ := hu
  obtain ⟨hf, hdiscreet⟩ := hfor.faithful h.atHome hown hs
  obtain ⟨computed, hcompute, hfound⟩ := hfor
  have hp := hpresented.poised h.owns h.atHome hfound
  obtain ⟨results, hyields, hdelivered⟩ :=
    hperformed.yields hp (h.callable (hlowers.suits δ) hpresented.dtypes hcompute hfound) fun _ =>
      hf.skipsCurrent hp.found (tellsApart_of_later htells hdiscreet.later)
  rw [hr.signature]
  exact FoundFor.computes ⟨computed, hcompute, hfound⟩ h hlowers hpresented hyields hdelivered
    hconcluded

/-- **A call of a faithful executor** comes to its executable with what the buffers hold. -/
theorem ExecM.ends_present_of_faithful {δ : Nat → DType} {s : ExecState}
    {inputs : List HostBuffer} (h : Sound δ s) (hpresented : Presented δ s inputs)
    (hown : s.kind.isHostBound = false) (hs : s.Faithful fun _ => False)
    (htells : s.TellsApart inputs) :
    Ends (present inputs s)
      (fun p u => ∀ (q : Nat) (host : HostBuffer), inputs[q]? = some host →
        s.executor.unit.externalInputs.contains q = false →
        ∃ x, p.2.1.tensors[q]? = some (some x) ∧
          u.memory.contents x = u.memory.storage host.storage)
      fun _ _ => True := by
  refine (ends_present h hpresented).mono (fun p u hp => ?_) fun _ _ _ => trivial
  obtain ⟨a, t, hfor, hlength, slots, slots', hstaged⟩ := hp
  obtain ⟨hf, hdiscreet⟩ := hfor.faithful h.atHome hown hs
  obtain ⟨computed, hcompute, hfound⟩ := hfor
  have hp := hpresented.poised h.owns h.atHome hfound
  intro q host hhost hin
  have hserved := hstaged.ins_getElem? hhost hlength
  rw [hdiscreet.later.unit, hin, if_neg Bool.false_ne_true] at hserved
  obtain ⟨x, hx⟩ := hserved
  refine ⟨x, hx, ?_⟩
  rw [hstaged.contents_eq_storage hp.found
    (hf.skipsCurrent hp.found (tellsApart_of_later htells hdiscreet.later)) hhost hx]
  unfold Memory.storage
  rw [hstaged.storages_eq]

/-- **Copies may be left out.** Let executors on devices ask one registry whether a copy is current,
and let every buffer that is changed be announced before the next call. A call of inputs that are
told apart comes to its executable with what the buffers hold at that time, whatever was called,
evicted or had failed before. If it succeeds, so does the call that asks nobody, be it in the same
state or after a run in which nobody was ever asked, and the output buffers are filled with the same
bytes; and if the unit is lowered, these are what it is to compute. -/
theorem passed_eq_storage (n : Nat) (δ : Nat → Nat → DType) (commands : List Command) (k o : Nat)
    (e : Executor) (inputs : List HostBuffer)
    (hrun : Process.Announced n δ [] .empty (commands ++ [.ask k o (.execute inputs)]))
    (he : (Process.empty.run commands).executors[k]? = some e) :
    ExecM.execute inputs ((Process.empty.run commands).stateOf e o) =
        (ExecM.present inputs >>= fun p => ExecM.conclude p.1 p.2.1 p.2.2)
          ((Process.empty.run commands).stateOf e o) ∧
      (∀ l ins outs u,
        ExecM.present inputs ((Process.empty.run commands).stateOf e o) = .ok (l, ins, outs) u →
        ∀ (q : Nat) (host : HostBuffer), inputs[q]? = some host →
          e.unit.externalInputs.contains q = false → ∃ x, ins.tensors[q]? = some (some x) ∧
            u.memory.contents x = u.memory.storage host.storage) ∧
      ∀ r u, ExecM.execute inputs ((Process.empty.run commands).stateOf e o) = .ok r u →
        (∃ r' u', ExecM.execute inputs
            ((Process.empty.run commands).stateOf e o).neverFresh = .ok r' u' ∧
          r.SameButCopies r' ∧ u.SameHost u') ∧
        (∃ e' r' u',
          (Process.empty.run (commands.map Command.untracked)).executors[k]? = some e' ∧
          ExecM.execute inputs ((Process.empty.run (commands.map Command.untracked)).stateOf e' o) =
              .ok r' u' ∧
          r.SameButCopies r' ∧ u.SameHost u') ∧
        (e.Lowers → e.Computes inputs (Process.empty.run commands).platform.memory r.signature
          u.outputs u.memory) := by
  have hempty := Process.faithful_empty n δ
  obtain ⟨D, hfaithful, helides⟩ := hempty.run hrun
  obtain rfl := helides.1
  have htwin := hempty.twin_run hrun Process.Twin.empty
  have hkind := hfaithful.kind_eq he o
  have hown : ((Process.empty.run commands).stateOf e o).kind.isHostBound = false := by
    rw [hkind]
    rfl
  have hsound := hfaithful.soundOf he o
  have hpresented := helides.2.1.presented hfaithful.wellFormed e
  have hs : ((Process.empty.run commands).stateOf e o).Faithful fun _ => False := by
    simpa using hfaithful.faithful k o e he
  have htells := helides.2.2 e he
  refine ⟨ExecM.execute_eq_present (by rw [hkind]; rfl), fun l ins outs u hu => ?_,
    fun r u hu => ⟨?_, ?_, fun hlowers => ?_⟩⟩
  · exact (ExecM.ends_present_of_faithful hsound hpresented hown hs htells).ok hu
  · obtain ⟨r', u', hu', hreport, hsame⟩ :=
      (hfaithful.abreast_execute helides he (ExecState.twin_neverFresh _)).exists_ok hu
    exact ⟨r', u', hu', hreport, hsame.sameHost⟩
  · obtain ⟨e', he', hee'⟩ := htwin.exists_beside he
    obtain ⟨r', u', hu', hreport, hsame⟩ :=
      (hfaithful.abreast_execute helides he (htwin.stateOf hee' o)).exists_ok hu
    exact ⟨e', r', u', he', hu', hreport, hsame.sameHost⟩
  · exact (ExecM.ends_execute_of_faithful hsound hlowers hpresented hown hs htells).ok hu

/-- A sum on a device that asks a registry, and then five in the first buffer, announced. -/
def sumThenChange (inputs : List HostBuffer) : List Command :=
  [.newRegistry, .register "host" (.recording .device) none,
    .allocate ⟨⟨.f32, [1]⟩, [0, 0, 128, 63]⟩, .allocate ⟨⟨.f32, [1]⟩, [0, 0, 128, 63]⟩,
    .build (.plain Graph.sampleAdd "host" .recording (.registry 0)), .ask 0 0 (.execute inputs),
    .write 0 [0, 0, 160, 64], .invalidate (.registry 0) 0]

/-- With two buffers, one copy is enough to make five and one six, as they do when both are copied. -/
theorem one_copy_of_sumThenChange : ∃ e l ins outs u x,
    (Process.empty.run (sumThenChange [⟨⟨.f32, [1]⟩, 0⟩, ⟨⟨.f32, [1]⟩, 1⟩])).executors[0]? = some e ∧
    ExecM.present [⟨⟨.f32, [1]⟩, 0⟩, ⟨⟨.f32, [1]⟩, 1⟩] ((Process.empty.run
      (sumThenChange [⟨⟨.f32, [1]⟩, 0⟩, ⟨⟨.f32, [1]⟩, 1⟩])).stateOf e 0) = .ok (l, ins, outs) u ∧
    ins.copies = 1 ∧ ins.tensors[1]? = some (some x) ∧
    u.memory.contents x = u.memory.storage 1 ∧ e.Lowers ∧
    ∃ r v, ExecM.execute [⟨⟨.f32, [1]⟩, 0⟩, ⟨⟨.f32, [1]⟩, 1⟩] ((Process.empty.run
        (sumThenChange [⟨⟨.f32, [1]⟩, 0⟩, ⟨⟨.f32, [1]⟩, 1⟩])).stateOf e 0) = .ok r v ∧
      v.memory.storage 2 = [0, 0, 192, 64] ∧
      e.Computes [⟨⟨.f32, [1]⟩, 0⟩, ⟨⟨.f32, [1]⟩, 1⟩] (Process.empty.run
        (sumThenChange [⟨⟨.f32, [1]⟩, 0⟩, ⟨⟨.f32, [1]⟩, 1⟩])).platform.memory r.signature v.outputs
        v.memory ∧
      ∃ r' v', ExecM.execute [⟨⟨.f32, [1]⟩, 0⟩, ⟨⟨.f32, [1]⟩, 1⟩] ((Process.empty.run
          (sumThenChange [⟨⟨.f32, [1]⟩, 0⟩, ⟨⟨.f32, [1]⟩, 1⟩])).stateOf e 0).neverFresh =
            .ok r' v' ∧ v'.memory.storage 2 = [0, 0, 192, 64] := by
  obtain ⟨inputs, hinputs⟩ : ∃ inputs : List HostBuffer,
    inputs = [⟨⟨.f32, [1]⟩, 0⟩, ⟨⟨.f32, [1]⟩, 1⟩] := ⟨_, rfl⟩
  rw [← hinputs]
  have hdtypes : ∀ (q : Nat) (b : HostBuffer), inputs[q]? = some b → b.spec.dtype = .f32 := by
    rw [hinputs]
    rintro (_ | _ | q) b hb
    · cases hb; rfl
    · cases hb; rfl
    · cases hb
  have hnodup : (inputs.map (·.storage)).Nodup := by
    rw [hinputs]
    decide
  have hrun : Process.Announced 0 (fun _ _ => .f32) [] .empty
      (sumThenChange inputs ++ [.ask 0 0 (.execute inputs)]) := by
    refine ⟨trivial, rfl, trivial, trivial, rfl, ⟨rfl, ⟨hdtypes, ?_, ?_, ?_⟩, fun _ _ =>
      ExecState.tellsApart_of_nodup hnodup _⟩, trivial, trivial, ⟨rfl, ⟨hdtypes, ?_, ?_, ?_⟩,
      fun _ _ => ExecState.tellsApart_of_nodup hnodup _⟩, trivial⟩
    all_goals
      subst hinputs
      decide +kernel
  obtain ⟨e, he⟩ := Option.isSome_iff_exists.1
    (show ((Process.empty.run (sumThenChange inputs)).executors[0]?).isSome = true from by
      subst hinputs
      decide +kernel)
  obtain ⟨hunit, hlowers, -⟩ := Process.executor_of_plain he
    (show ∀ r, Command.build r ∈ sumThenChange inputs →
        r = .plain Graph.sampleAdd "host" .recording (.registry 0) from
      fun r hr => by simpa [sumThenChange] using hr)
  obtain ⟨-, hpassed, hcomputed⟩ := passed_eq_storage 0 _ _ 0 0 e _ hrun he
  -- What the two parts of the call come to.
  have hpresent : ((Process.empty.run (sumThenChange inputs)).executors[0]?.map fun e =>
      match ExecM.present inputs ((Process.empty.run (sumThenChange inputs)).stateOf e 0) with
      | .ok p _ => some p.2.1.copies
      | .error _ _ => none) = some (some 1) := by
    subst hinputs
    decide +kernel
  have hexecute : ((Process.empty.run (sumThenChange inputs)).executors[0]?.map fun e =>
      match ExecM.execute inputs ((Process.empty.run (sumThenChange inputs)).stateOf e 0) with
      | .ok _ v => some (v.memory.storage 2)
      | .error _ _ => none) = some (some [0, 0, 192, 64]) := by
    subst hinputs
    decide +kernel
  rw [he, Option.map_some] at hpresent hexecute
  cases hp : ExecM.present inputs ((Process.empty.run (sumThenChange inputs)).stateOf e 0) with
  | error error u =>
    rw [hp] at hpresent
    cases hpresent
  | ok p u =>
    rw [hp] at hpresent
    cases hr : ExecM.execute inputs ((Process.empty.run (sumThenChange inputs)).stateOf e 0) with
    | error error v =>
      rw [hr] at hexecute
      cases hexecute
    | ok r v =>
      rw [hr] at hexecute
      obtain ⟨x, hx, hcontents⟩ := hpassed p.1 p.2.1 p.2.2 u hp 1 ⟨⟨.f32, [1]⟩, 1⟩
        (by rw [hinputs]; rfl) (by rw [hunit]; rfl)
      refine ⟨e, p.1, p.2.1, p.2.2, u, x, he, hp, Option.some.inj (Option.some.inj hpresent), hx,
        hcontents, hlowers, r, v, hr, Option.some.inj (Option.some.inj hexecute),
        (hcomputed r v hr).2.2 hlowers, ?_⟩
      obtain ⟨r', v', hr', -, hsame⟩ := (hcomputed r v hr).1
      exact ⟨r', v', hr', (hsame.storage 2).trans (Option.some.inj (Option.some.inj hexecute))⟩

/-- With one buffer at both positions, one copy is made and should have been two: five and one make
six, where five and five make ten. -/
theorem six_of_sumOfShared :
    ((Process.empty.run (sumThenChange [⟨⟨.f32, [1]⟩, 0⟩, ⟨⟨.f32, [1]⟩, 0⟩])).executors[0]?.map
      fun e =>
        match ExecM.execute [⟨⟨.f32, [1]⟩, 0⟩, ⟨⟨.f32, [1]⟩, 0⟩] ((Process.empty.run
          (sumThenChange [⟨⟨.f32, [1]⟩, 0⟩, ⟨⟨.f32, [1]⟩, 0⟩])).stateOf e 0) with
        | .ok r v => some (r.inputCopies, v.memory.storage 2)
        | .error _ _ => none) = some (some (1, [0, 0, 192, 64])) ∧
    ((Process.empty.run (sumThenChange [⟨⟨.f32, [1]⟩, 0⟩, ⟨⟨.f32, [1]⟩, 0⟩])).executors[0]?.map
      fun e =>
        match ExecM.execute [⟨⟨.f32, [1]⟩, 0⟩, ⟨⟨.f32, [1]⟩, 0⟩] ((Process.empty.run
          (sumThenChange [⟨⟨.f32, [1]⟩, 0⟩, ⟨⟨.f32, [1]⟩, 0⟩])).stateOf e 0).neverFresh with
        | .ok r v => some (r.inputCopies, v.memory.storage 2)
        | .error _ _ => none) = some (some (2, [0, 0, 32, 65])) := by
  constructor
  · decide +kernel
  · decide +kernel

end TensorJit
