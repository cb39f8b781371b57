import Mathlib.Algebra.BigOperators.Group.List.Basic
import Mathlib.Algebra.Group.Prod
import TensorJit.Proofs.Executor.Failure
import TensorJit.Proofs.Executor.Lending

/-!
# What a step copies

A copy from the host is counted in three places: by the backend, as an event, and in the statistics
of the executor. The backend and the event count it at once. **The statistics wait**, with tensors
from slots until all inputs have been served, and with a group until all outputs have been read, so
an error in between leaves them behind (`Error.losesCopies`).

A step is described by what it copies and what of that gets into the statistics
(`ExecState.Copies`). A request either settles what it has copied, or loses all of it
(`Request.ends_copies`), and its error says which.
-/

namespace TensorJit

/-- How often a backend has been written to, and how many bytes. -/
def Platform.written (p : Platform) (id : BackendId) : Nat × Nat :=
  (p.backend id).counters.written

theorem Platform.written_withDevice {p : Platform} {id : BackendId} {d : Device}
    (hid : id < p.backends.size) : (p.withDevice id d).written id = d.backend.counters.written := by
  unfold written
  rw [backend_withDevice, if_pos ⟨rfl, hid⟩]

/-- The copies of a position, and their bytes. -/
def Service.volume (r : Service) : Nat × Nat := (r.copied.map fun n => (1, n)).getD 0

/-- The copies of all positions, and their bytes. -/
def Allocation.volume (a : Allocation) : Nat × Nat := (a.copies, a.bytesCopied)

/-- The copies of all positions are those of each, added up. -/
theorem volume_ofServices (services : List Service) :
    (Allocation.ofServices services).volume = (services.map Service.volume).sum := by
  induction services with
  | nil => rfl
  | cons r rest ih =>
    rw [List.map_cons, List.sum_cons, ← ih]
    unfold Allocation.volume Allocation.ofServices Service.volume
    cases hcopied : r.copied with
    | none => simp [hcopied]
    | some n => simp [hcopied, Nat.add_comm]

/-! ### States -/

namespace ExecState

variable {s t u : ExecState} {x y x' y' : Nat × Nat}

/-- Between two states `x` has been copied to the backend, and `y` has been added to the
statistics. -/
structure Copies (x y : Nat × Nat) (s t : ExecState) : Prop where
  /-- The backend is the same. -/
  backend : t.executor.backend = s.executor.backend
  /-- There are as many backends. -/
  backends : t.platform.backends.size = s.platform.backends.size
  /-- The backend has counted the copies. -/
  written : t.platform.written s.executor.backend = s.platform.written s.executor.backend + x
  /-- Each copy is an event. -/
  copies : t.platform.profile.copies = s.platform.profile.copies + x.1
  /-- What the statistics have counted. -/
  counted : t.executor.stats.copied = s.executor.stats.copied + y

/-- Everything that has been copied has been counted. -/
def Settles (s t : ExecState) : Prop := ∃ x, s.Copies x x t

/-- Nothing that has been copied has been counted. -/
def Loses (s t : ExecState) : Prop := ∃ x, s.Copies x 0 t

theorem Copies.refl (s : ExecState) : s.Copies 0 0 s := ⟨rfl, rfl, rfl, rfl, rfl⟩

/-- **Copies add up**, and so does what has been counted of them. -/
theorem Copies.trans (h : s.Copies x y t) (h' : t.Copies x' y' u) :
    s.Copies (x + x') (y + y') u where
  backend := h'.backend.trans h.backend
  backends := h'.backends.trans h.backends
  written := by rw [← h.backend, h'.written, h.backend, h.written, add_assoc]
  copies := by rw [h'.copies, h.copies, Prod.fst_add, add_assoc]
  counted := by rw [h'.counted, h.counted, add_assoc]

/-- The backend is still there. -/
theorem Copies.bound (h : s.Copies x y t) (hb : s.executor.backend < s.platform.backends.size) :
    t.executor.backend < t.platform.backends.size := by
  rw [h.backend, h.backends]
  exact hb

/-- **Only copying copies.** -/
instance : CacheMoves (Copies 0 0) where
  refl := Copies.refl
  trans h h' := h.trans h'
  shared _ _ h := ⟨rfl, h.backends, h.written _, h.copies, rfl⟩
  stats _ _ h := ⟨rfl, rfl, rfl, rfl, h⟩
  prepared _ _ := ⟨rfl, rfl, rfl, rfl, rfl⟩
  tensors _ _ _ _ _ _ := ⟨rfl, rfl, rfl, rfl, rfl⟩
  cache _ _ _ := ⟨rfl, rfl, rfl, rfl, rfl⟩

/-- Nothing is copied afterwards. -/
theorem Copies.append (h : s.Copies x y t) (h' : t.Copies 0 0 u) : s.Copies x y u := h.trans h'

/-- Nothing has been copied before. -/
theorem Copies.prepend (h : s.Copies 0 0 t) (h' : t.Copies x y u) : s.Copies x y u := by
  have hall := h.trans h'
  rwa [zero_add, zero_add] at hall

/-- What has been copied is added to the statistics. -/
theorem Copies.settles (h : s.Copies x 0 t) {c : Stats}
    (hc : c.copied = t.executor.stats.copied + x) :
    s.Settles { t with executor.stats := c } := by
  refine ⟨x, h.backend, h.backends, h.written, h.copies, hc.trans ?_⟩
  rw [h.counted, add_zero]

theorem Settles.append (h : s.Settles t) (h' : t.Copies 0 0 u) : s.Settles u := by
  obtain ⟨x, hx⟩ := h
  exact ⟨x, hx.append h'⟩

theorem Settles.prepend (h : s.Copies 0 0 t) (h' : t.Settles u) : s.Settles u := by
  obtain ⟨x, hx⟩ := h'
  exact ⟨x, h.prepend hx⟩

theorem Loses.append (h : s.Loses t) (h' : t.Copies 0 0 u) : s.Loses u := by
  obtain ⟨x, hx⟩ := h
  exact ⟨x, hx.append h'⟩

theorem Loses.prepend (h : s.Copies 0 0 t) (h' : t.Loses u) : s.Loses u := by
  obtain ⟨x, hx⟩ := h'
  exact ⟨x, h.prepend hx⟩

end ExecState

/-! ### Errors -/

/-- Whether copies have been made in a stage that are not in the statistics yet: the inputs have not
all been served, or an executor that works with groups has not read all outputs. -/
def Stage.losesCopies (stage : Stage) (pipelined : Bool) : Bool :=
  match stage with
  | .feeding => true
  | .calling | .reading => pipelined
  | .missing | .offering => false

/-- Whether an error keeps the copies of its request out of the statistics. -/
def Error.losesCopies (e : Error) (pipelined : Bool) : Bool :=
  e.stage?.any (·.losesCopies pipelined)

/-- How a request fails: it settles its copies or loses them, and the error says which. -/
def ExecState.Fails (pipelined : Bool) (s : ExecState) (e : Error) (t : ExecState) : Prop :=
  if e.losesCopies pipelined then s.Loses t else s.Settles t

section Fails

variable {s t u : ExecState} {e : Error} {pipelined : Bool}

/-- An error of a stage that loses copies. -/
theorem ExecState.Loses.fails (h : s.Loses t) (he : e.losesCopies pipelined = true) :
    s.Fails pipelined e t := by
  rw [Fails, if_pos he]
  exact h

/-- An error of any other stage. -/
theorem ExecState.Settles.fails (h : s.Settles t) (he : e.losesCopies pipelined = false) :
    s.Fails pipelined e t := by
  rw [Fails, he]
  exact h

/-- What copies nothing loses nothing. -/
theorem ExecState.Copies.fails (h : s.Copies 0 0 t) : s.Fails pipelined e t := by
  rw [Fails]
  split
  · exact ⟨0, h⟩
  · exact ⟨0, h⟩

theorem ExecState.Fails.prepend (h : s.Copies 0 0 t) (h' : t.Fails pipelined e u) :
    s.Fails pipelined e u := by
  rw [Fails] at h' ⊢
  split
  · rename_i he
    rw [if_pos he] at h'
    exact h'.prepend h
  · rename_i he
    rw [if_neg he] at h'
    exact h'.prepend h

/-- Whether copies are lost is told by the stage. -/
theorem Error.losesCopies_of_stage {stage : Stage} (h : e.stage? = some stage) :
    e.losesCopies pipelined = stage.losesCopies pipelined := by
  unfold losesCopies
  rw [h, Option.any_some]

end Fails

/-! ### Copying -/

/-- The backend counts a write if it succeeds. -/
theorem Backend.ends_write_written (id : TensorId) (source : Bytes) (offset : Nat) (d : Device) :
    Ends (write id source offset d)
      (fun _ e => e.backend.counters.written = d.backend.counters.written + (1, source.length))
      fun _ e => e.backend.counters.written = d.backend.counters.written := by
  unfold write
  rw [ends_bind]
  refine (keeps_overwrite id source offset d).mono (fun _ e he => ?_) fun _ _ he => he.written
  rw [← he.written]
  rfl

namespace ExecM

open ExecState (Copies)

variable {β : Type} {s : ExecState}

/-- **A copy** is counted by the backend and as an event, and not yet in the statistics. -/
theorem ends_writeInput_copies (hb : s.executor.backend < s.platform.backends.size)
    (position : Nat) (tensor : TensorId) (host : HostBuffer) :
    Ends (writeInput position tensor host s) (fun n t => s.Copies (1, n) 0 t)
      fun _ t => s.Copies 0 0 t := by
  unfold writeInput
  rw [ends_bind, ends_platform]
  dsimp only
  split
  · rw [ends_bind, ends_fail]
    exact Copies.refl s
  · rename_i hlength
    rw [ends_bind, ends_onBackend]
    refine (Backend.ends_write_written _ _ _ _).mono (fun _ d hd => ?_) fun _ d hd => ?_
    · rw [ends_bind, ends_changePlatform, ends_pure]
      rw [List.length_take, Nat.min_eq_left (Nat.le_of_not_lt hlength)] at hd
      refine ⟨rfl, Array.size_setIfInBounds, ?_, ?_, rfl⟩
      · exact (Platform.written_withDevice hb).trans hd
      · exact (Profile.countIn_increment _ _ _).trans (if_pos rfl)
    · exact ⟨rfl, Array.size_setIfInBounds, (Platform.written_withDevice hb).trans hd, rfl, rfl⟩

/-- **A position that is served** is copied at most once, and nothing is copied if this fails. -/
theorem ends_serveInput_copies (hb : s.executor.backend < s.platform.backends.size)
    (id : ArtifactId) (position : Nat) (host : HostBuffer) :
    Ends (serveInput id position host s) (fun r t => s.Copies r.volume 0 t)
      fun _ t => s.Copies 0 0 t := by
  unfold serveInput
  rw [ends_bind, ends_executor]
  dsimp only
  split
  · exact Copies.refl s
  rw [ends_bind, ends_artifact]
  refine ⟨fun a _ => ?_, fun _ => Copies.refl s⟩
  rw [ends_bind, ends_platform, ends_bind]
  refine (keeps_onBackend (T := Copies 0 0) (SlotTable.keeps_resolve _ _ _ _ _) s).mono
    (fun ⟨r, slots⟩ t ht => ?_) fun _ _ ht => ht
  rw [ends_bind, ends_setArtifact, ends_bind, ends_kind]
  have hset := Moves.trans ht
    (CacheMoves.cache t (t.cache.update id { a with inputs := slots }) rfl)
  split
  · rw [ends_bind]
    refine (ends_writeInput_copies (hset.bound hb) position r.tensor host).mono
      (fun n u hu => ?_) fun _ u hu => hset.prepend hu
    rw [ends_bind, ends_changePlatform, ends_pure]
    exact (hset.prepend hu).append
      (CacheMoves.shared u _ (u.platform.calm_tell _ _).toUnwritten)
  · exact hset

/-- So is the tensor of a group. -/
theorem ends_feedInput_copies (hb : s.executor.backend < s.platform.backends.size)
    (group : PipelineGroup TensorId) (position : Nat) (host : HostBuffer) :
    Ends (feedInput group position host s) (fun r t => s.Copies r.volume 0 t)
      fun _ t => s.Copies 0 0 t := by
  unfold feedInput
  rw [ends_bind, ends_executor]
  split
  · exact Copies.refl s
  · cases group.inputs[position]? with
    | none => exact Copies.refl s
    | some tensor =>
      dsimp only
      rw [ends_bind]
      refine (keeps_markStale (T := Copies 0 0) _ s).mono (fun _ t ht => ?_) fun _ _ ht => ht
      rw [ends_bind]
      refine (ends_writeInput_copies (ht.bound hb) position _ host).mono (fun n u hu => ?_)
        fun _ u hu => ht.prepend hu
      exact ht.prepend hu

/-- **Position by position** the copies add up, and an error leaves those made so far. -/
theorem ends_services_copies {f : β → ExecM Service}
    (hf : ∀ b (t : ExecState), t.executor.backend < t.platform.backends.size →
      Ends (f b t) (fun r u => t.Copies r.volume 0 u) fun _ u => t.Copies 0 0 u)
    (hb : s.executor.backend < s.platform.backends.size) (l : List β) :
    Ends (l.mapM f s) (fun rs t => s.Copies (Allocation.ofServices rs).volume 0 t)
      fun _ t => s.Loses t := by
  refine (ends_mapM (I := fun _ rs t => s.Copies (rs.map Service.volume).sum 0 t)
    (E := fun _ t => s.Loses t) (fun done b _ rs t _ ht => ?_) (Copies.refl s)).mono
    (fun rs t ht => ?_) fun _ _ ht => ht
  · refine (hf b t (ht.bound hb)).mono (fun r u hu => ?_) fun _ u hu => ⟨_, ht.append hu⟩
    rw [List.map_append, List.sum_append, List.map_singleton, List.sum_singleton]
    exact ht.trans hu
  · rw [volume_ofServices]
    exact ht

/-- **Serving all inputs** settles what has been copied. -/
theorem ends_allocateInputs_copies (hb : s.executor.backend < s.platform.backends.size)
    (id : ArtifactId) (inputs : List HostBuffer) :
    Ends (allocateInputs id inputs s) (fun _ t => s.Settles t) fun _ t => s.Loses t := by
  unfold allocateInputs
  rw [ends_bind]
  refine ((keeps_artifact (T := Copies 0 0) id).discard s).mono (fun _ t ht => ?_)
    fun _ t ht => ⟨0, ht⟩
  rw [ends_bind]
  refine (ends_services_copies (fun b u hu => ends_serveInput_copies hu id b.2 b.1) (ht.bound hb)
    inputs.zipIdx).mono (fun rs u hu => ?_) fun _ u hu => hu.prepend ht
  rw [ends_bind, ends_count, ends_pure]
  exact (ht.prepend hu).settles rfl

/-! ### Running -/

/-- **On slots** copies are settled as soon as all inputs have been served, so only an error before
this loses them. -/
theorem ends_runOnSlots_copies (hb : s.executor.backend < s.platform.backends.size)
    (found : Lookup) (inputs : List HostBuffer) (hhas : s.Has found.artifact) :
    Ends (runOnSlots found inputs s) (fun _ t => s.Settles t) fun e t => s.Fails false e t := by
  unfold runOnSlots
  rw [ends_bind]
  refine ((ends_allocateInputs_copies hb _ inputs).and (raises_allocateInputs inputs s hhas)).mono
    (fun ins t ht => ?_) fun e t ht => ht.1.fails (Error.losesCopies_of_stage ht.2.2)
  obtain ⟨ht, hhas⟩ := ht
  rw [ends_bind, ends_get, ends_bind]
  refine ((keeps_allocateOutputs (T := Copies 0 0) _ _ t).and
    (raises_allocateOutputs _ t hhas)).mono (fun outs u hu => ?_)
    fun e u hu => (ht.append hu.1).fails (Error.losesCopies_of_stage hu.2.2)
  obtain ⟨hu, hhas⟩ := hu
  replace hu := ht.append hu
  rw [ends_bind]
  refine ((keeps_callExecutable (T := Copies 0 0) _ _ _ u).and
    (raises_callExecutable _ _ _ u hhas)).mono (fun _ v hv => ?_)
    fun e v hv => (hu.append hv.1).fails (Error.losesCopies_of_stage hv.2.2)
  obtain ⟨hv, hhas⟩ := hv
  replace hv := hu.append hv
  rw [ends_bind, ends_kind]
  split
  · rw [ends_bind]
    exact ((keeps_readOutputs (T := Copies 0 0) _ v).and (raises_readOutputs _ v hhas)).mono
      (fun _ z hz => hv.append hz.1)
      fun e z hz => (hv.append hz.1).fails (Error.losesCopies_of_stage hz.2.2)
  · exact hv

/-- **On a group** they are settled at the end, so every error loses them. -/
theorem ends_runOnGroup_copies (hb : s.executor.backend < s.platform.backends.size)
    (found : Lookup) (group : PipelineGroup TensorId) (inputs : List HostBuffer)
    (hhas : s.Has found.artifact) :
    Ends (runOnGroup found group inputs s) (fun _ t => s.Settles t)
      fun e t => e.losesCopies true = true ∧ s.Loses t := by
  unfold runOnGroup
  rw [ends_bind]
  refine ((ends_services_copies (fun b u hu => ends_feedInput_copies hu group b.2 b.1) hb
    inputs.zipIdx).and (Raises.mapM (fun b : HostBuffer × Nat =>
      raises_feedInput group b.2 b.1) _ s hhas)).mono (fun services t ht => ?_)
    fun e t ht => ⟨Error.losesCopies_of_stage ht.2.2, ht.1⟩
  obtain ⟨ht, hhas⟩ := ht
  dsimp only
  rw [ends_bind]
  refine ((Keeps.mapM (T := Copies 0 0) (fun b : TensorId × Nat =>
      keeps_offerOutput b.2 b.1) _ t).and (Raises.mapM (F := fun _ => False)
      (fun b : TensorId × Nat => raises_offerOutput b.2 b.1) _ t hhas)).mono
    (fun outs u hu => ?_) fun e u hu => hu.2.2.elim
  obtain ⟨hu, hhas⟩ := hu
  replace hu := ht.append hu
  rw [ends_bind]
  refine ((keeps_callExecutable (T := Copies 0 0) _ _ _ u).and
    (raises_callExecutable _ _ _ u hhas)).mono (fun _ v hv => ?_)
    fun e v hv => ⟨Error.losesCopies_of_stage hv.2.2, _, hu.append hv.1⟩
  obtain ⟨hv, hhas⟩ := hv
  replace hv := hu.append hv
  rw [ends_bind]
  refine ((keeps_readOutputs (T := Copies 0 0) _ v).and (raises_readOutputs _ v hhas)).mono
    (fun _ z hz => ?_) fun e z hz => ⟨Error.losesCopies_of_stage hz.2.2, _, hv.append hz.1⟩
  rw [ends_bind, ends_count, ends_pure]
  exact (hv.append hz.1).settles rfl

/-- The group is given back whatever has happened, so **the error of the run comes out**. -/
theorem ends_runPipelined_copies {depth : Nat} (hb : s.executor.backend < s.platform.backends.size)
    (found : Lookup) (inputs : List HostBuffer) (hhas : s.Has found.artifact)
    (hcoherent : s.cache.Coherent depth) (hdepth : s.executor.config.pipelineDepth = depth) :
    Ends (runPipelined found inputs s) (fun _ t => s.Settles t) fun e t => s.Fails true e t := by
  unfold runPipelined
  rw [ends_bind]
  refine ((ends_acquireGroup_lent found.artifact hcoherent hdepth).and
    ((keeps_acquireGroup (T := Copies 0 0) found.artifact s).and
      (raises_acquireGroup s hhas))).mono (fun group t ht => ?_)
    fun e t ht => ht.2.1.fails
  obtain ⟨hlends, ht, hhas⟩ := ht
  have hback : ∀ u, t.SameCache u → Ends (returnGroup found.artifact group.index u)
      (fun _ v => u.Copies 0 0 v) fun _ _ => False := fun u hu =>
    ((hlends.ends_returnGroup hu).and
      (keeps_returnGroup (T := Copies 0 0) found.artifact group.index u)).mono
      (fun _ _ hv => hv.2) fun _ _ hv => hv.1
  rw [ends_bind, ends_observe]
  refine ((ends_runOnGroup_copies (ht.bound hb) found group inputs hhas).and
    (keeps_runOnGroup (T := ExecState.SameCache) found group inputs t)).mono
    (fun report u hu => ?_) fun e u hu => ?_
  · rw [ends_bind]
    exact (hback u hu.2).mono (fun _ v hv => (hu.1.prepend ht).append hv) fun _ _ h => h.elim
  · rw [ends_bind]
    exact (hback u hu.2).mono
      (fun _ v hv => ((hu.1.2.prepend ht).append hv).fails hu.1.1) fun _ _ h => h.elim

/-- What a call does after its look-up settles its copies, or fails in one of these ways. -/
theorem ends_runFound_copies {depth : Nat} (hb : s.executor.backend < s.platform.backends.size)
    (found : Lookup) (inputs : List HostBuffer) (hhas : s.Has found.artifact)
    (hcoherent : s.cache.Coherent depth) (hdepth : s.executor.config.pipelineDepth = depth) :
    Ends (runFound found inputs s) (fun _ t => s.Settles t)
      fun e t => s.Fails s.kind.isPipelined e t := by
  -- Once the outputs are written nothing can fail, and nothing more is copied.
  have hend : ∀ (report : Report) (t : ExecState), s.Settles t → t.Has found.artifact → Ends ((do
      invalidateOutputs
      count fun c => { c with executions := c.executions + 1 }
      return report) t) (fun _ u => s.Settles u) fun _ _ => False := by
    intro report t ht hhas
    rw [ends_bind]
    refine ((keeps_invalidateOutputs (T := Copies 0 0) t).and
      (raises_invalidateOutputs (F := fun _ => False) t hhas)).mono (fun _ u hu => ?_)
      fun _ _ hu => hu.2.2
    rw [ends_bind, ends_count, ends_pure]
    exact (ht.append hu.1).append (Moves.counted u _ rfl rfl)
  have hrun : Ends ((do
      prepareOutputs found.executable.function.results
      let report ← if (← kind).isPipelined then runPipelined found inputs
        else runOnSlots found inputs
      invalidateOutputs
      count fun c => { c with executions := c.executions + 1 }
      return report) s) (fun _ t => s.Settles t) fun e t => s.Fails s.kind.isPipelined e t := by
    rw [ends_bind]
    refine ((keeps_prepareOutputs (T := Copies 0 0) _ s).and
      ((keeps_prepareOutputs (T := ExecState.Later) _ s).and
        ((keeps_prepareOutputs (T := ExecState.SameCache) _ s).and
          (raises_prepareOutputs (F := fun _ => False) _ s hhas)))).mono (fun _ t ht => ?_)
      fun _ _ ht => ht.2.2.2.2.elim
    obtain ⟨ht, hlater, hcache, hhas⟩ := ht
    replace hcache : t.cache = s.cache := hcache
    have hb := ht.bound hb
    rw [ends_bind, ends_kind, ← hlater.kind_eq]
    split
    · rename_i hpipelined
      rw [ends_bind, hpipelined]
      refine ((ends_runPipelined_copies hb found inputs hhas (by rw [hcache]; exact hcoherent)
        (hlater.config ▸ hdepth)).and (raises_runPipelined found inputs t hhas)).mono
        (fun report u hu => ?_) fun e u hu => hu.1.prepend ht
      exact (hend report u (hu.1.prepend ht) hu.2).mono (fun _ _ h => h) fun _ _ h => h.elim
    · rename_i hpipelined
      rw [ends_bind, Bool.eq_false_of_not_eq_true hpipelined]
      refine ((ends_runOnSlots_copies hb found inputs hhas).and
        (raises_runOnSlots found inputs t hhas)).mono (fun report u hu => ?_)
        fun e u hu => hu.1.prepend ht
      exact (hend report u (hu.1.prepend ht) hu.2).mono (fun _ _ h => h) fun _ _ h => h.elim
  unfold runFound
  dsimp only
  split
  · rw [ends_bind, ends_fail]
    exact (Copies.refl s).fails
  · exact hrun

end ExecM

end TensorJit
