import Mathlib.Data.List.Induction
import TensorJit.Proofs.Executor.Build
import TensorJit.Process

/-!
# One command of a process

A command changes one executor at most, and the platform only grows (`Platform.Grows`). What an
executor is after a command is said case by case in `Process.executor_step`: it is the executor
it was, or it was the one that was asked, or it has just been built. An invariant of all
executors is proved by going through these cases.
-/

namespace TensorJit

/-- A platform is another after commands. -/
structure Platform.Grows (p q : Platform) : Prop where
  /-- The backends are still there. -/
  backends : p.backends.size ≤ q.backends.size
  /-- Their classes and modes are the same. -/
  kind : ∀ id, id < p.backends.size → (q.backend id).kind = (p.backend id).kind
  /-- The registries of fresh copies are still there. -/
  registries : p.registries.size ≤ q.registries.size
  /-- Identities of artifacts are used up. -/
  nextArtifact : p.nextArtifact ≤ q.nextArtifact
  /-- Memory has only grown. -/
  memory : p.memory.Extends q.memory

namespace Platform

theorem Grows.refl (p : Platform) : p.Grows p :=
  ⟨Nat.le_refl _, fun _ _ => rfl, Nat.le_refl _, Nat.le_refl _, .refl p.memory⟩

theorem Grows.trans {p q r : Platform} (h : p.Grows q) (h' : q.Grows r) : p.Grows r where
  backends := Nat.le_trans h.backends h'.backends
  kind id hid := (h'.kind id (Nat.lt_of_lt_of_le hid h.backends)).trans (h.kind id hid)
  registries := Nat.le_trans h.registries h'.registries
  nextArtifact := Nat.le_trans h.nextArtifact h'.nextArtifact
  memory := h.memory.trans h'.memory

theorem Later.grows {p q : Platform} (h : p.Later q) : p.Grows q :=
  ⟨Nat.le_of_eq h.backends.symm, fun id _ => h.kind id, Nat.le_of_eq h.registries.symm,
    h.nextArtifact, h.memory⟩

theorem backend_register {p : Platform} {id : BackendId} (b : Backend)
    (hid : id < p.backends.size) : (p.register b).2.backend id = p.backend id := by
  unfold register backend
  rw [Array.getD_eq_getD_getElem?, Array.getD_eq_getD_getElem?, Array.getElem?_push_lt hid]
  simp [hid]

theorem backend_register_self (p : Platform) (b : Backend) :
    (p.register b).2.backend p.backends.size = b := by
  unfold register backend
  rw [Array.getD_eq_getD_getElem?, Array.getElem?_push_size]
  rfl

/-- Telling a backend what to fail at changes neither its class and mode nor its counters. -/
theorem backend_inject (p : Platform) (id : BackendId) (injections : Injections) (j : BackendId) :
    ({ p with backends := p.backends.modify id fun b => { b with injections } } :
        Platform).backend j =
      { p.backend j with
        injections := (({ p with backends := p.backends.modify id fun b =>
          { b with injections } } : Platform).backend j).injections } := by
  unfold backend
  rw [Array.getD_eq_getD_getElem?, Array.getD_eq_getD_getElem?, Array.getElem?_modify]
  split
  · cases p.backends[j]? with
    | none => rfl
    | some b => rfl
  · rfl

theorem grows_register (p : Platform) (b : Backend) : p.Grows (p.register b).2 where
  backends := by
    change p.backends.size ≤ (p.backends.push b).size
    rw [Array.size_push]
    exact Nat.le_succ _
  kind id hid := by rw [backend_register b hid]
  registries := Nat.le_refl _
  nextArtifact := Nat.le_refl _
  memory := .refl p.memory

theorem grows_inject (p : Platform) (id : BackendId) (injections : Injections) :
    p.Grows { p with backends := p.backends.modify id fun b => { b with injections } } where
  backends := Nat.le_of_eq Array.size_modify.symm
  kind j _ := by rw [backend_inject]
  registries := Nat.le_refl _
  nextArtifact := Nat.le_refl _
  memory := .refl p.memory

theorem grows_allocate (p : Platform) (t : Tensor) : p.Grows (p.allocate t).2 :=
  { Grows.refl p with memory := p.memory.extends_allocate t }

theorem grows_newRegistry (p : Platform) : p.Grows p.newRegistry.2 :=
  { Grows.refl p with
    registries := by
      change p.registries.size ≤ (p.registries.push .empty).size
      rw [Array.size_push]
      exact Nat.le_succ _ }

end Platform

/-- An executor has what it was built with. -/
structure Executor.Remains (e e' : Executor) : Prop where
  /-- The unit. -/
  unit : e'.unit = e.unit
  /-- The backend. -/
  backend : e'.backend = e.backend
  /-- The maker of functions. -/
  translator : e'.translator = e.translator
  /-- The tracker. -/
  tracker : e'.tracker = e.tracker
  /-- The static inputs. -/
  statics : e'.statics = e.statics
  /-- The configuration. -/
  config : e'.config = e.config

theorem Executor.Remains.refl (e : Executor) : e.Remains e := ⟨rfl, rfl, rfl, rfl, rfl, rfl⟩

theorem Executor.Remains.trans {e e' e'' : Executor} (h : e.Remains e') (h' : e'.Remains e'') :
    e.Remains e'' :=
  ⟨h'.unit.trans h.unit, h'.backend.trans h.backend, h'.translator.trans h.translator,
    h'.tracker.trans h.tracker, h'.statics.trans h.statics, h'.config.trans h.config⟩

namespace Process

variable {w : Process} {k o : Nat} {e : Executor}

@[simp] theorem stateOf_executor (w : Process) (e : Executor) (o : Nat) :
    (w.stateOf e o).executor = e := rfl

@[simp] theorem stateOf_platform (w : Process) (e : Executor) (o : Nat) :
    (w.stateOf e o).platform = w.platform := rfl

theorem outputsOf_put (w : Process) (k o : Nat) (s : ExecState) (j : Nat) :
    (w.put k o s).outputsOf j = if j = o then s.outputs else w.outputsOf j := by
  unfold outputsOf put
  rw [SortedMap.get?_insert]
  split
  · rfl
  · rfl

/-- The executor works on what it has left. -/
theorem stateOf_put (w : Process) (k o : Nat) (s : ExecState) :
    (w.put k o s).stateOf s.executor o = s := by
  unfold stateOf
  rw [outputsOf_put, if_pos rfl]
  rfl

/-- What is said of both ways for a request to end is said of the process afterwards. -/
theorem ask_of_ends {r : Request} (he : w.executors[k]? = some e)
    {Q : Answer → ExecState → Prop} {E : Error → ExecState → Prop}
    (h : Ends (r.perform (w.stateOf e o)) Q E) :
    ∃ s, (w.ask k o r).2 = w.put k o s ∧
      ((∃ a, (w.ask k o r).1 = some (.ok a) ∧ Q a s) ∨
        ∃ error, (w.ask k o r).1 = some (.error error) ∧ E error s) := by
  unfold ask
  rw [he]
  dsimp only
  cases hr : r.perform (w.stateOf e o) with
  | ok a s => exact ⟨s, rfl, .inl ⟨a, rfl, h.ok hr⟩⟩
  | error error s => exact ⟨s, rfl, .inr ⟨error, rfl, h.error hr⟩⟩

theorem ask_of_none {r : Request} (he : w.executors[k]? = none) : w.ask k o r = (none, w) := by
  unfold ask
  rw [he]

/-- What is said alike of both ways for a request to end. -/
theorem put_of_ends {r : Request} (he : w.executors[k]? = some e) {Q : ExecState → Prop}
    (h : Ends (r.perform (w.stateOf e o)) (fun _ s => Q s) fun _ s => Q s) :
    ∃ s, w.step (.ask k o r) = w.put k o s ∧ Q s := by
  obtain ⟨s, hput, hs⟩ := ask_of_ends he h
  refine ⟨s, hput, ?_⟩
  rcases hs with ⟨-, -, hs⟩ | ⟨-, -, hs⟩
  · exact hs
  · exact hs

/-- An executor after one of them has worked. -/
theorem executor_put (he : w.executors[k]? = some e) {s : ExecState} {j : Nat} {f : Executor}
    (hf : (w.put k o s).executors[j]? = some f) :
    j = k ∧ f = s.executor ∨ j ≠ k ∧ w.executors[j]? = some f := by
  change (w.executors.set k s.executor)[j]? = some f at hf
  by_cases hj : k = j
  · subst hj
    rw [List.getElem?_set_self (List.getElem?_eq_some_iff.1 he).1] at hf
    exact .inl ⟨rfl, (Option.some.inj hf).symm⟩
  · rw [List.getElem?_set_ne hj] at hf
    exact .inr ⟨Ne.symm hj, hf⟩

/-- **Building** adds an executor, or none, and changes options of backends at most. -/
theorem build_cases (w : Process) (r : BuildRequest) :
    ∃ q, w.platform.SameButOptions q ∧ ((∃ e, r.Built w.platform e ∧
      w.step (.build r) = { w with platform := q, executors := w.executors ++ [e] }) ∨
        w.step (.build r) = { w with platform := q }) := by
  have hends := Executor.ends_build r w.platform
  change ∃ q, w.platform.SameButOptions q ∧ ((∃ e, r.Built w.platform e ∧
    w.build r = { w with platform := q, executors := w.executors ++ [e] }) ∨
      w.build r = { w with platform := q })
  unfold Process.build
  cases hr : Executor.build r w.platform with
  | ok e q =>
    obtain ⟨hbuilt, hq⟩ := hends.ok hr
    exact ⟨q, hq, .inl ⟨e, hbuilt, rfl⟩⟩
  | error error q => exact ⟨q, hends.error hr, .inr rfl⟩

/-- Whether an executor is built shows in how many there are. -/
theorem length_executors_build (w : Process) (r : BuildRequest) :
    (∃ e q, Executor.build r w.platform = .ok e q ∧
      (w.step (.build r)).executors.length = w.executors.length + 1) ∨
    ∃ e q, Executor.build r w.platform = .error e q ∧
      (w.step (.build r)).executors.length = w.executors.length := by
  change (∃ e q, _ ∧ (w.build r).executors.length = _) ∨ ∃ e q, _ ∧ (w.build r).executors.length = _
  unfold Process.build
  cases Executor.build r w.platform with
  | ok e q => exact .inl ⟨e, q, rfl, List.length_append⟩
  | error e q => exact .inr ⟨e, q, rfl, rfl⟩

/-- An executor after one has been built. -/
theorem executor_append {f : Executor} (h : (w.executors ++ [e])[k]? = some f) :
    w.executors[k]? = some f ∨ k = w.executors.length ∧ f = e := by
  rcases Nat.lt_or_ge k w.executors.length with hlt | hge
  · rw [List.getElem?_append_left hlt] at h
    exact .inl h
  · rw [List.getElem?_append_right hge, List.getElem?_singleton] at h
    split at h
    · exact .inr ⟨by omega, (Option.some.inj h).symm⟩
    · cases h

/-- **An executor after a command** is the one it was, or has been asked, or has been built; if it has
been asked, then what is known of the request is known of it. -/
theorem executor_step {c : Command} {e' : Executor}
    {R : Nat → Request → Executor → ExecState → Prop}
    (hR : ∀ o r e, c = .ask k o r → w.executors[k]? = some e →
      Ends (r.perform (w.stateOf e o)) (fun _ s => R o r e s) fun _ s => R o r e s)
    (h : (w.step c).executors[k]? = some e') :
    (w.executors[k]? = some e' ∧ ∀ o r, c ≠ .ask k o r) ∨
    (∃ o r e s, c = .ask k o r ∧ w.executors[k]? = some e ∧ w.step c = w.put k o s ∧
      s.executor = e' ∧ R o r e s) ∨
    ∃ r, c = .build r ∧ k = w.executors.length ∧ r.Built w.platform e' := by
  -- A command builds an executor, asks one, or leaves them all as they are.
  cases c with
  | build r =>
    obtain ⟨q, -, ⟨e, hbuilt, hstep⟩ | hstep⟩ := w.build_cases r
    · rw [hstep] at h
      rcases executor_append h with hold | ⟨hk, rfl⟩
      · exact .inl ⟨hold, nofun⟩
      · exact .inr (.inr ⟨r, rfl, hk, hbuilt⟩)
    · rw [hstep] at h
      exact .inl ⟨h, nofun⟩
  | ask j o r =>
    cases hj : w.executors[j]? with
    | none =>
      change (w.ask j o r).2.executors[k]? = some e' at h
      rw [ask_of_none hj] at h
      refine .inl ⟨h, ?_⟩
      rintro _ _ ⟨⟩
      rw [h] at hj
      cases hj
    | some e =>
      by_cases hk : j = k
      · subst hk
        obtain ⟨s, hput, hs⟩ := put_of_ends hj (hR o r e rfl hj)
        rw [hput] at h
        rcases executor_put hj h with ⟨-, rfl⟩ | ⟨hne, -⟩
        · exact .inr (.inl ⟨o, r, e, s, rfl, hj, hput, rfl, hs⟩)
        · exact absurd rfl hne
      · obtain ⟨s, hput, -⟩ := put_of_ends (Q := fun _ => True) (r := r) (o := o) hj
          (ends_trivial _)
        rw [hput] at h
        rcases executor_put hj h with ⟨heq, -⟩ | ⟨-, hold⟩
        · exact absurd heq.symm hk
        · refine .inl ⟨hold, ?_⟩
          rintro _ _ ⟨⟩
          exact hk rfl
  | _ => exact .inl ⟨h, nofun⟩

/-- **A command only lets the platform grow.** -/
theorem grows_step (w : Process) (c : Command) : w.platform.Grows (w.step c).platform := by
  cases c with
  | register name kind rejected => exact w.platform.grows_register _
  | unregister name => exact { Platform.Grows.refl w.platform with }
  | inject id injections => exact w.platform.grows_inject id injections
  | allocate t => exact w.platform.grows_allocate t
  | write storage bytes =>
    exact { Platform.Grows.refl w.platform with
      memory := w.platform.memory.extends_setStorage storage bytes }
  | newRegistry => exact w.platform.grows_newRegistry
  | invalidate tracker storage => exact (w.platform.calm_tell tracker _).toLater.grows
  | take number => exact .refl w.platform
  | build r =>
    obtain ⟨q, hq, ⟨e, -, hstep⟩ | hstep⟩ := w.build_cases r
    · rw [hstep]
      exact hq.later.grows
    · rw [hstep]
      exact hq.later.grows
  | ask j o r =>
    cases hj : w.executors[j]? with
    | none =>
      change w.platform.Grows (w.ask j o r).2.platform
      rw [ask_of_none hj]
      exact .refl w.platform
    | some e =>
      obtain ⟨s, hput, hs⟩ := put_of_ends hj (r.later_perform (w.stateOf e o))
      rw [hput]
      exact hs.platform.grows

/-- A run only lets the platform grow. -/
theorem grows_run (w : Process) (commands : List Command) :
    w.platform.Grows (w.run commands).platform := by
  induction commands generalizing w with
  | nil => exact .refl w.platform
  | cons c rest ih => exact (w.grows_step c).trans (ih (w.step c))

/-- What holds at the start and is kept by every command holds in every process. -/
theorem empty_run_induction {P : Process → Prop} (hempty : P empty)
    (hstep : ∀ w c, P w → P (w.step c)) (commands : List Command) : P (empty.run commands) := by
  suffices ∀ w, P w → P (w.run commands) from this empty hempty
  intro w hw
  induction commands generalizing w with
  | nil => exact hw
  | cons c rest ih => exact ih (w.step c) (hstep w c hw)

/-- **What an executor was built with.** Whatever happens, it keeps the unit, the maker of
functions, the tracker and the static inputs that it was built with. -/
theorem built_of_run (commands : List Command) {k : Nat} {e : Executor}
    (he : (empty.run commands).executors[k]? = some e) :
    ∃ r, Command.build r ∈ commands ∧ e.unit = r.unit ∧ e.translator = r.translator ∧
      e.tracker = r.tracker ∧ StaticInputs.analyze r.unit.graph r.query = .ok e.statics ∧
      ∃ options, r.settings = .ok (e.config, options) := by
  suffices ∀ (w : Process) (all : List Command), (∀ c ∈ commands, c ∈ all) →
      (∀ (k : Nat) e, w.executors[k]? = some e → ∃ r, Command.build r ∈ all ∧ e.unit = r.unit ∧
        e.translator = r.translator ∧ e.tracker = r.tracker ∧
        StaticInputs.analyze r.unit.graph r.query = .ok e.statics ∧
        ∃ options, r.settings = .ok (e.config, options)) →
      ∀ (k : Nat) e, (w.run commands).executors[k]? = some e → ∃ r, Command.build r ∈ all ∧
        e.unit = r.unit ∧ e.translator = r.translator ∧ e.tracker = r.tracker ∧
        StaticInputs.analyze r.unit.graph r.query = .ok e.statics ∧
        ∃ options, r.settings = .ok (e.config, options) from
    this empty commands (fun _ hc => hc) (fun _ _ h => by cases h) k e he
  clear he
  intro w all hall hw
  induction commands generalizing w with
  | nil => exact hw
  | cons c rest ih =>
    refine ih (w.step c) (fun d hd => hall d (List.mem_cons_of_mem _ hd)) fun k e' he' => ?_
    rcases executor_step (fun o r e _ _ => r.later_perform (w.stateOf e o)) he' with
      ⟨hold, -⟩ | ⟨o, r, e, s, -, hold, -, rfl, hlater⟩ | ⟨r, rfl, -, hbuilt⟩
    · exact hw k e' hold
    · have hconfig : s.executor.config = e.config := hlater.config
      obtain ⟨r, hr, hunit, htranslator, htracker, hstatics, options, hsettings⟩ := hw k e hold
      exact ⟨r, hr, hlater.unit.trans hunit, hlater.translator.trans htranslator,
        hlater.tracker.trans htracker, by rw [hlater.statics]; exact hstatics,
        options, by rw [hconfig]; exact hsettings⟩
    · obtain ⟨options, hsettings⟩ := hbuilt.settings
      exact ⟨r, hall _ List.mem_cons_self, hbuilt.unit, hbuilt.translator, hbuilt.tracker,
        hbuilt.statics, options, hsettings⟩

/-- Executors stay there. -/
theorem length_executors_step (w : Process) (c : Command) :
    w.executors.length ≤ (w.step c).executors.length := by
  cases c with
  | build r =>
    obtain ⟨q, -, ⟨e, -, hstep⟩ | hstep⟩ := w.build_cases r
    · rw [hstep, List.length_append]
      exact Nat.le_add_right _ _
    · exact Nat.le_of_eq (congrArg (·.executors.length) hstep).symm
  | ask j o r =>
    cases hj : w.executors[j]? with
    | none => exact Nat.le_of_eq (congrArg (·.2.executors.length) (ask_of_none hj)).symm
    | some e =>
      obtain ⟨s, hput, -⟩ := put_of_ends (r := r) (o := o) hj (ends_trivial _)
      rw [hput]
      exact Nat.le_of_eq List.length_set.symm
  | _ => exact Nat.le_refl _

/-- Whatever happens to a process, its executors stay, each with what it was built with. -/
theorem executor_of_run {w : Process} {k : Nat} {e : Executor} (he : w.executors[k]? = some e)
    (commands : List Command) :
    ∃ e', (w.run commands).executors[k]? = some e' ∧ e.Remains e' := by
  induction commands generalizing w e with
  | nil => exact ⟨e, he, .refl e⟩
  | cons c rest ih =>
    have hlt := (List.getElem?_eq_some_iff.1 he).1
    obtain ⟨e', he'⟩ : ∃ e', (w.step c).executors[k]? = some e' :=
      ⟨_, List.getElem?_eq_getElem (Nat.lt_of_lt_of_le hlt (w.length_executors_step c))⟩
    have hsame : e.Remains e' := by
      rcases executor_step (fun o r e _ _ => r.later_perform (w.stateOf e o)) he' with
        ⟨hold, -⟩ | ⟨o, r, f, s, -, hold, -, rfl, hlater⟩ | ⟨r, -, hk, -⟩
      · obtain rfl := Option.some.inj (hold.symm.trans he)
        exact .refl e'
      · obtain rfl := Option.some.inj (hold.symm.trans he)
        exact ⟨hlater.unit, hlater.backend, hlater.translator, hlater.tracker, hlater.statics,
          hlater.config⟩
      · exact absurd hk (Nat.ne_of_lt hlt)
    obtain ⟨f, hf, hremains⟩ := ih he'
    exact ⟨f, hf, hsame.trans hremains⟩

/-- An executor allows as many artifacts as its configuration says, at least one. -/
theorem depth_of_run (commands : List Command) {k : Nat} {e : Executor}
    (he : (empty.run commands).executors[k]? = some e) :
    e.cache.depth = e.config.cacheDepth ∧ 1 ≤ e.config.cacheDepth ∧
      1 ≤ e.config.pipelineDepth := by
  refine empty_run_induction (P := fun w => ∀ (k : Nat) e, w.executors[k]? = some e →
    e.cache.depth = e.config.cacheDepth ∧ 1 ≤ e.config.cacheDepth ∧ 1 ≤ e.config.pipelineDepth)
    (fun _ _ h => by cases h) (fun w c hw k e' he' => ?_) commands k e he
  rcases executor_step (fun o r e _ _ => r.later_perform (w.stateOf e o)) he' with
    ⟨hold, -⟩ | ⟨o, r, e, s, -, hold, -, rfl, hlater⟩ | ⟨r, -, -, hbuilt⟩
  · exact hw k e' hold
  · have hdepth : s.executor.cache.depth = e.cache.depth := hlater.depth
    rw [hlater.config, hdepth]
    exact hw k e hold
  · obtain ⟨options, hsettings⟩ := hbuilt.settings
    obtain ⟨hcache, hpipeline⟩ := BuildRequest.depth_pos hsettings
    refine ⟨?_, hcache, hpipeline⟩
    rw [hbuilt.cache]
    exact Nat.max_eq_left hcache

/-! ### What an executor has been asked -/

@[simp] theorem run_nil (w : Process) : w.run [] = w := rfl

theorem run_append (w : Process) (commands more : List Command) :
    w.run (commands ++ more) = (w.run commands).run more := List.foldl_append ..

theorem run_concat (w : Process) (commands : List Command) (c : Command) :
    w.run (commands ++ [c]) = (w.run commands).step c := run_append w commands [c]

end Process

variable {α : Type} {f : Request → ExecState → Option α}

/-- What there is to say about a command that is a request to an executor. -/
def Command.asked? (f : Request → ExecState → Option α) (c : Command) (k : Nat) (w : Process) :
    Option α :=
  match c with
  | .ask j o r => if j = k then w.executors[j]?.bind fun e => f r (w.stateOf e o) else none
  | _ => none

namespace Command

variable {c : Command} {k o : Nat} {w : Process} {e : Executor} {r : Request} {a : α}

theorem asked?_ask (he : w.executors[k]? = some e) :
    (Command.ask k o r).asked? f k w = f r (w.stateOf e o) := by
  refine (if_pos rfl).trans ?_
  rw [he, Option.bind_some]

theorem asked?_eq_none (h : ∀ o r, c ≠ .ask k o r) : c.asked? f k w = none := by
  cases c with
  | ask j o r =>
    refine if_neg fun hj => ?_
    subst hj
    exact h o r rfl
  | _ => rfl

theorem asked?_eq_some (h : c.asked? f k w = some a) : ∃ o r, c = .ask k o r ∧
    ∃ e, w.executors[k]? = some e ∧ f r (w.stateOf e o) = some a := by
  cases c with
  | ask j o r =>
    unfold asked? at h
    dsimp only at h
    split at h
    · rename_i hj
      subst hj
      obtain ⟨e, he, hf⟩ := Option.bind_eq_some_iff.1 h
      exact ⟨o, r, rfl, e, he, hf⟩
    · cases h
  | _ => cases h

end Command

namespace Process

/-- What there is to say about the requests to an executor in a run, latest first. -/
def asked (f : Request → ExecState → Option α) (k : Nat) : Process → List Command → List α
  | _, [] => []
  | w, c :: rest => asked f k (w.step c) rest ++ (c.asked? f k w).toList

theorem asked_concat (k : Nat) (w : Process) (commands : List Command) (c : Command) :
    asked f k w (commands ++ [c]) = (c.asked? f k (w.run commands)).toList ++
      asked f k w commands := by
  induction commands generalizing w with
  | nil => exact (List.append_nil _).symm
  | cons d rest ih =>
    change asked f k (w.step d) (rest ++ [c]) ++ _ = _ ++ (asked f k (w.step d) rest ++ _)
    rw [ih, List.append_assoc]
    rfl

/-- An executor that is not there has not been asked anything. -/
theorem asked_eq_nil (commands : List Command) {k : Nat}
    (h : (empty.run commands).executors[k]? = none) : asked f k empty commands = [] := by
  induction commands using List.reverseRecOn with
  | nil => rfl
  | append_singleton rest c ih =>
    rw [run_concat] at h
    have hrest : (empty.run rest).executors[k]? = none := by
      have hle : (empty.run rest).executors.length ≤
          ((empty.run rest).step c).executors.length := length_executors_step _ c
      rw [List.getElem?_eq_none_iff] at h ⊢
      omega
    rw [asked_concat, ih hrest, List.append_nil]
    cases hc : c.asked? f k (empty.run rest) with
    | none => rfl
    | some a =>
      obtain ⟨o, r, -, e, he, -⟩ := Command.asked?_eq_some hc
      rw [hrest] at he
      cases he

end Process

/-- A request for an executor of one graph, with nothing else said: functions are made by
lowering, and the configuration is the standard one. -/
def BuildRequest.plain (g : Graph) (backendName : String) (backendClass : BackendClass)
    (tracker : Tracker) : BuildRequest where
  unit :=
    { clusterId := 0, graphId := 0, backendName, graph := g, attributes := .empty
      externalInputs := [], externalOutputs := [] }
  backendClass
  config := some .standard
  environment := .empty
  translator := some .lowering
  tracker
  query := StaticQuery.byAttribute

/-- Two buffers of a shape with one dimension. -/
def pairOf (n : Nat) : List HostBuffer := [⟨⟨.f32, [n]⟩, n⟩, ⟨⟨.f32, [n]⟩, n⟩]

end TensorJit
