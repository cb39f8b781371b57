import TensorJit.Proofs.Conservation
import TensorJit.Proofs.Executor.Copies
import TensorJit.Proofs.Lending

/-!
# Copies are accounted for, but for those of calls that fail

The copies that an executor makes are counted by its backend, as events, and in its own statistics.
Backend and events always agree. The statistics agree with them as long as no request fails between
copying and counting; **what such a request has copied they never get** (`copies_accounted`).

Each request adds to all three, and what is missing from the statistics is what it lost
(`Request.Accounts`). A run adds up its requests.
-/

namespace TensorJit

open ExecState (Copies)

/-! ### Requests -/

/-- **However a request ends**, it settles what it has copied, or its error says that all of it is
lost. -/
theorem Request.ends_copies {P : List Tensor → Prop} {s : ExecState} (h : Compiled P s)
    (hb : s.executor.backend < s.platform.backends.size)
    (hcoherent : s.cache.Coherent s.executor.config.pipelineDepth) (r : Request) :
    Ends (r.perform s) (fun _ t => s.Settles t) fun e t => s.Fails s.kind.isPipelined e t := by
  have hnone : ∀ {α : Type} {x : ExecM α} (f : α → Answer), Keeps (Copies 0 0) x →
      Ends ((x >>= fun a => pure (f a)) s) (fun _ t => s.Settles t)
        fun e t => s.Fails s.kind.isPipelined e t := fun f hx =>
    ends_bind.2 ((hx s).mono (fun _ t ht => ⟨0, ht⟩) fun _ _ ht => ht.fails)
  cases r with
  | execute inputs =>
    unfold perform
    rw [ends_bind, ExecM.execute_eq, ends_bind]
    refine ((ExecM.ends_getExecutable h inputs).and
      (ExecM.keeps_getExecutable (T := Copies 0 0) inputs s)).mono
      (fun found t ht => ?_) fun e t ht => ht.2.fails
    obtain ⟨⟨computed, a, -, hfound⟩, ht⟩ := ht
    rw [← hfound.later.kind_eq]
    exact (ExecM.ends_runFound_copies (ht.bound hb) found inputs (.of_some hfound.found)
      (hfound.keepsLent.coherent hcoherent) (congrArg _ hfound.later.config)).mono
      (fun _ _ hu => hu.prepend ht) fun _ _ hu => hu.prepend ht
  | getExecutable inputs => exact hnone _ (ExecM.keeps_getExecutable inputs)
  | allocateInputs artifact inputs =>
    refine ends_bind.2 ?_
    by_cases hhas : s.Has artifact
    · exact ((ExecM.ends_allocateInputs_copies hb artifact inputs).and
        (ExecM.raises_allocateInputs inputs s hhas)).mono (fun _ _ ht => ht.1)
        fun _ _ ht => ht.1.fails (Error.losesCopies_of_stage ht.2.2)
    · unfold ExecM.allocateInputs
      rw [ends_bind, ends_discard]
      exact ExecM.ends_artifact.2 ⟨fun a ha => absurd (.of_some ha) hhas,
        fun _ => (Copies.refl s).fails⟩
  | allocateOutputs artifact outputs => exact hnone _ (ExecM.keeps_allocateOutputs _ _)
  | acquireGroup artifact => exact hnone _ (ExecM.keeps_acquireGroup _)
  | returnGroup artifact index => exact hnone _ (ExecM.keeps_returnGroup _ _)

/-- The copies that a request made and lost, and their bytes, if its error says that it lost any. -/
def Request.lost (r : Request) (s : ExecState) : Option (Nat × Nat) :=
  match r.perform s with
  | .ok _ _ => none
  | .error e t =>
    if e.losesCopies s.kind.isPipelined then
      some (t.platform.written s.executor.backend - s.platform.written s.executor.backend)
    else none

theorem Request.lost_of_ok {r : Request} {s t : ExecState} {a : Answer}
    (h : r.perform s = .ok a t) : r.lost s = none := by
  unfold lost
  rw [h]

theorem Request.lost_of_error {r : Request} {s t : ExecState} {e : Error}
    (h : r.perform s = .error e t) : r.lost s =
      if e.losesCopies s.kind.isPipelined then
        some (t.platform.written s.executor.backend - s.platform.written s.executor.backend)
      else none := by
  unfold lost
  rw [h]

/-- What a request has copied is in the statistics, or lost. -/
def Request.Accounts (r : Request) (s t : ExecState) : Prop :=
  ∃ y, s.Copies (y + (r.lost s).toList.sum) y t

theorem Request.ends_accounts {P : List Tensor → Prop} {s : ExecState} (h : Compiled P s)
    (hb : s.executor.backend < s.platform.backends.size)
    (hcoherent : s.cache.Coherent s.executor.config.pipelineDepth) (r : Request) :
    Ends (r.perform s) (fun _ t => r.Accounts s t) fun _ t => r.Accounts s t := by
  have hends := r.ends_copies h hb hcoherent
  cases hr : r.perform s with
  | ok a t =>
    obtain ⟨x, hx⟩ := hends.ok hr
    refine ⟨x, ?_⟩
    rw [lost_of_ok hr]
    exact hx
  | error e t =>
    have hfails := hends.error hr
    change r.Accounts s t
    unfold Accounts
    rw [lost_of_error hr]
    rw [ExecState.Fails] at hfails
    split
    · rename_i he
      rw [if_pos he] at hfails
      obtain ⟨x, hx⟩ := hfails
      have hlost : t.platform.written s.executor.backend - s.platform.written s.executor.backend =
          x := by
        rw [hx.written]
        exact Prod.ext (Nat.add_sub_cancel_left ..) (Nat.add_sub_cancel_left ..)
      refine ⟨0, ?_⟩
      rw [hlost, Option.toList_some, List.sum_singleton, zero_add]
      exact hx
    · rename_i he
      rw [if_neg he] at hfails
      obtain ⟨x, hx⟩ := hfails
      exact ⟨x, hx⟩

/-! ### Runs -/

namespace Process

/-- Between two states of a process an executor has copied, and lost what is said. -/
structure Copies (lost : Nat × Nat) (w w' : Process) (e e' : Executor) : Prop where
  /-- The executor is on the same backend. -/
  backend : e'.backend = e.backend
  /-- The backend has counted what the statistics have counted, and what was lost. -/
  written : w'.platform.written e.backend + e.stats.copied =
    w.platform.written e.backend + e'.stats.copied + lost
  /-- What the backend has counted were events. -/
  copies : w'.platform.profile.copies + (w.platform.written e.backend).1 =
    w.platform.profile.copies + (w'.platform.written e.backend).1

theorem Copies.trans {x y : Nat × Nat} {w w' w'' : Process} {e e' e'' : Executor}
    (h : Copies x w w' e e') (h' : Copies y w' w'' e' e'') : Copies (y + x) w w'' e e'' := by
  have hwritten := h.written
  have hwritten' := h'.written
  have hcopies := h.copies
  have hcopies' := h'.copies
  rw [h.backend] at hwritten' hcopies'
  simp only [Prod.ext_iff, Prod.fst_add, Prod.snd_add] at hwritten hwritten'
  refine ⟨h'.backend.trans h.backend, Prod.ext ?_ ?_, ?_⟩
  · simp only [Prod.fst_add]
    omega
  · simp only [Prod.snd_add]
    omega
  · omega

/-- **Nothing is copied** unless an executor is asked for something. -/
theorem copies_of_unasked {w : Process} {c : Command} {e : Executor}
    (hb : e.backend < w.platform.backends.size) (hc : ∀ j o r, c ≠ .ask j o r) :
    Copies 0 w (w.step c) e e := by
  suffices (w.step c).platform.written e.backend = w.platform.written e.backend ∧
      (w.step c).platform.profile.copies = w.platform.profile.copies from
    ⟨rfl, by rw [this.1, add_zero], by rw [this.1, this.2]⟩
  cases c with
  | register name kind rejected =>
    exact ⟨congrArg (·.counters.written) (Platform.backend_register _ hb), rfl⟩
  | inject id injections =>
    refine ⟨?_, rfl⟩
    unfold Platform.written
    exact (congrArg (·.counters.written) (Platform.backend_inject _ _ _ _)).trans rfl
  | build r =>
    obtain ⟨q, hq, ⟨e', -, hstep⟩ | hstep⟩ := w.build_cases r
    · rw [hstep]
      exact ⟨hq.calm.written _, hq.calm.copies⟩
    · rw [hstep]
      exact ⟨hq.calm.written _, hq.calm.copies⟩
  | ask j o r => exact absurd rfl (hc j o r)
  | invalidate tracker storage =>
    have hcalm := w.platform.calm_tell tracker (·.invalidate storage)
    exact ⟨hcalm.written _, hcalm.copies⟩
  | _ => exact ⟨rfl, rfl⟩

/-- **One command** in a process in which only one executor is asked. -/
theorem copies_step (commands : List Command) {k : Nat} {e : Executor}
    (he : (empty.run commands).executors[k]? = some e) {c : Command}
    (hc : ∀ j o r, c = .ask j o r → j = k) :
    ∃ e', ((empty.run commands).step c).executors[k]? = some e' ∧
      Copies (c.asked? Request.lost k (empty.run commands)).toList.sum (empty.run commands)
        ((empty.run commands).step c) e e' := by
  have hb := (wellFormed_run commands).backends k e he
  obtain ⟨e', he', -⟩ := executor_of_run he [c]
  refine ⟨e', he', ?_⟩
  rcases executor_step (fun o r f _ hf => r.ends_accounts (compiled_run commands o hf)
      ((wellFormed_run commands).backends k f hf) ((lends_run commands).coherent k f hf)) he' with
    ⟨hold, hother⟩ | ⟨o, r, f, s, rfl, hf, hput, rfl, y, hcopies⟩ | ⟨r, -, hk, -⟩
  · obtain rfl := Option.some.inj (hold.symm.trans he)
    rw [Command.asked?_eq_none hother]
    exact copies_of_unasked hb fun j o r hask => hother o r (hc j o r hask ▸ hask)
  · obtain rfl := Option.some.inj (he.symm.trans hf)
    rw [Command.asked?_ask he, hput]
    have hwritten : s.platform.written e.backend = _ := hcopies.written
    have hevents : s.platform.profile.copies = _ := hcopies.copies
    have hcounted : s.executor.stats.copied = _ := hcopies.counted
    refine ⟨hcopies.backend, ?_, ?_⟩
    · change s.platform.written e.backend + e.stats.copied = _ + s.executor.stats.copied + _
      rw [hwritten, hcounted]
      simp only [stateOf_executor, stateOf_platform]
      ac_rfl
    · change s.platform.profile.copies + _ = _ + (s.platform.written e.backend).1
      rw [hwritten, hevents]
      simp only [stateOf_executor, stateOf_platform, Prod.fst_add]
      omega
  · exact absurd hk (Nat.ne_of_lt (List.getElem?_eq_some_iff.1 he).1)

/-- **A run** in which only one executor is asked. -/
theorem copies_run (commands : List Command) {k : Nat} {e : Executor}
    (he : (empty.run commands).executors[k]? = some e) (more : List Command)
    (hmore : ∀ j o r, Command.ask j o r ∈ more → j = k) :
    ∃ e', ((empty.run commands).run more).executors[k]? = some e' ∧
      Copies (asked Request.lost k (empty.run commands) more).sum (empty.run commands)
        ((empty.run commands).run more) e e' := by
  induction more using List.reverseRecOn with
  | nil => exact ⟨e, he, rfl, rfl, rfl⟩
  | append_singleton rest c ih =>
    obtain ⟨e', he', hrest⟩ := ih fun j o r h => hmore j o r (List.mem_append_left _ h)
    have hall : (empty.run commands).run rest = empty.run (commands ++ rest) :=
      (List.foldl_append ..).symm
    rw [hall] at he' hrest
    obtain ⟨e'', he'', hstep⟩ := copies_step (commands ++ rest) he' (c := c) fun j o r h =>
      hmore j o r (h ▸ List.mem_append_right _ List.mem_cons_self)
    rw [run_concat, asked_concat, List.sum_append, hall]
    exact ⟨e'', he'', hrest.trans hstep⟩

end Process

/-- **Copies are accounted for, but for those that are lost.** While only one executor is asked for
anything, every write to its backend is an event of a copy, and the backend has counted the copies
and the bytes that are in the statistics of the executor and those of the requests that ended in an
error before they counted what they had copied. -/
theorem copies_accounted (commands more : List Command) (k : Nat) (e : Executor)
    (he : (Process.empty.run commands).executors[k]? = some e)
    (hmore : ∀ j o r, Command.ask j o r ∈ more → j = k) :
    ∃ e', ((Process.empty.run commands).run more).executors[k]? = some e' ∧
      (((Process.empty.run commands).run more).platform.profile.cacheCount "input_copy" +
          ((Process.empty.run commands).platform.backend e.backend).counters.writes =
        (Process.empty.run commands).platform.profile.cacheCount "input_copy" +
          (((Process.empty.run commands).run more).platform.backend e.backend).counters.writes) ∧
      ((((Process.empty.run commands).run more).platform.backend e.backend).counters.writes +
          e.stats.inputCopies =
        ((Process.empty.run commands).platform.backend e.backend).counters.writes +
          e'.stats.inputCopies +
          (Process.asked Request.lost k (Process.empty.run commands) more).sum.1) ∧
      (((Process.empty.run commands).run more).platform.backend e.backend).counters.bytesWritten +
          e.stats.bytesCopied =
        ((Process.empty.run commands).platform.backend e.backend).counters.bytesWritten +
          e'.stats.bytesCopied +
          (Process.asked Request.lost k (Process.empty.run commands) more).sum.2 := by
  obtain ⟨e', he', hcopies⟩ := Process.copies_run commands he more hmore
  have hwritten := Prod.ext_iff.1 hcopies.written
  exact ⟨e', he', hcopies.copies, hwritten.1, hwritten.2⟩

/-- A sum on a device that has been called with floating point of 32 bits, and a buffer of 64. -/
def summedOnDevice : List Command :=
  [.register "host" (.recording .device) none, .allocate ⟨⟨.f32, [1]⟩, [0, 0, 128, 63]⟩,
    .allocate ⟨⟨.f64, [1]⟩, [0, 0, 0, 0, 0, 0, 240, 63]⟩, .build .sampleSum,
    .ask 0 0 (.execute [⟨⟨.f32, [1]⟩, 0⟩, ⟨⟨.f32, [1]⟩, 0⟩])]

/-- A call with the buffer of 64 bits for the second input. -/
def callWider : Command := .ask 0 0 (.execute [⟨⟨.f32, [1]⟩, 0⟩, ⟨⟨.f64, [1]⟩, 1⟩])

/-- The buffer of 64 bits has the signature of the other one, and does not fit into the tensor of
the second input. By then the first input has been copied, and the statistics do not get it. -/
theorem lost_of_callWider : ∃ e e',
    (Process.empty.run summedOnDevice).executors[0]? = some e ∧
    (∀ j o r, Command.ask j o r ∈ [callWider] → j = 0) ∧
    ((Process.empty.run summedOnDevice).run [callWider]).executors[0]? = some e' ∧
    Process.asked Request.lost 0 (Process.empty.run summedOnDevice) [callWider] = [(1, 4)] ∧
    e'.stats.inputCopies = e.stats.inputCopies ∧ e'.stats.bytesCopied = e.stats.bytesCopied := by
  obtain ⟨e, he⟩ := Option.isSome_iff_exists.1
    (show ((Process.empty.run summedOnDevice).executors[0]?).isSome = true by decide +kernel)
  have hbackend : (Process.empty.run summedOnDevice).executors[0]?.map (·.backend) = some 0 := by
    decide +kernel
  rw [he, Option.map_some] at hbackend
  have hmore : ∀ j o r, Command.ask j o r ∈ [callWider] → j = 0 := by
    intro j o r h
    cases List.mem_singleton.1 h
    rfl
  obtain ⟨e', he', -, hwrites, hbytes⟩ := copies_accounted summedOnDevice [callWider] 0 e he hmore
  have hlost : Process.asked Request.lost 0 (Process.empty.run summedOnDevice) [callWider] =
      [(1, 4)] := by decide +kernel
  have hbefore : (Process.empty.run summedOnDevice).platform.written 0 = (2, 8) := by
    decide +kernel
  have hafter : ((Process.empty.run summedOnDevice).run [callWider]).platform.written 0 =
      (3, 12) := by decide +kernel
  obtain ⟨hwritesBefore, hbytesBefore⟩ := Prod.mk.inj hbefore
  obtain ⟨hwritesAfter, hbytesAfter⟩ := Prod.mk.inj hafter
  rw [Option.some.inj hbackend, hlost, hwritesBefore, hwritesAfter] at hwrites
  rw [Option.some.inj hbackend, hlost, hbytesBefore, hbytesAfter] at hbytes
  refine ⟨e, e', he, hmore, he', hlost, ?_, ?_⟩
  · simp only [List.sum_singleton] at hwrites
    omega
  · simp only [List.sum_singleton] at hbytes
    omega

/-- **The statistics fall behind.** The backend has counted three copies of twelve bytes, the events
are three, and the statistics of the only executor have two and eight. -/
theorem statistics_fall_behind :
    ((Process.empty.run (summedOnDevice ++ [callWider])).executors.map fun e =>
      (e.backend, e.stats.inputCopies, e.stats.bytesCopied)) = [(0, 2, 8)] ∧
    (Process.empty.run (summedOnDevice ++ [callWider])).platform.written 0 = (3, 12) ∧
    (Process.empty.run (summedOnDevice ++ [callWider])).platform.profile.cacheCount "input_copy" =
      3 := by
  refine ⟨?_, ?_, ?_⟩
  · decide +kernel
  · decide +kernel
  · decide +kernel

end TensorJit
