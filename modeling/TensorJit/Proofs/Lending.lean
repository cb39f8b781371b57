import TensorJit.Proofs.CacheHit
import TensorJit.Proofs.Executor.Lending

/-!
# Every group is lent to one

Somebody who asks an executor for a group of an artifact and gets one has it until it is given back
(`Process.outstanding`, read off the answers to the requests in a run). The pipeline of an artifact
in the cache knows exactly which groups are outstanding, so **no group is lent to two, and every
group that is given back can be lent again** (`groups_lent_exclusively`).

| | groups in flight afterwards |
|---|---|
| a group is asked for and lent | one more, which was free |
| a group is given back | one less |
| anything else, or an error | those before |
| a new artifact | none |

Executing is among the others: the group that a call borrows is back when it ends, even if the call
fails.
-/

namespace TensorJit

/-! ### Outstanding groups -/

/-- What becomes of a group. -/
inductive Lending where
  /-- It is lent. -/
  | lent (index : Nat)
  /-- It is given back. -/
  | returned (index : Nat)
  deriving DecidableEq, Repr

namespace Lending

/-- The groups that are outstanding afterwards, if these were before. -/
def post : Lending → List Nat → List Nat
  | lent index, out => index :: out
  | returned index, out => out.erase index

end Lending

/-- What becomes of the groups of an artifact when a request is performed. -/
def Request.lending? (id : ArtifactId) : Request → ExecState → Option Lending
  | acquireGroup artifact, s =>
    match ExecM.acquireGroup artifact s with
    | .ok g _ => if artifact = id then some (.lent g.index) else none
    | .error _ _ => none
  | returnGroup artifact index, s =>
    match ExecM.returnGroup artifact index s with
    | .ok _ _ => if artifact = id then some (.returned index) else none
    | .error _ _ => none
  | _, _ => none

/-- The groups of an artifact that an executor has lent in a run and not been given back. -/
def Process.outstanding (k : Nat) (id : ArtifactId) (commands : List Command) : List Nat :=
  (asked (Request.lending? id) k empty commands).foldr Lending.post []

/-- These groups are outstanding and no others, each once. -/
structure Artifact.Agrees (a : Artifact) (out : List Nat) : Prop where
  /-- No group is outstanding twice. -/
  nodup : out.Nodup
  /-- The pipeline knows which ones are. -/
  mem : ∀ i, i ∈ out ↔ i ∈ a.lent

namespace Artifact

variable {a : Artifact} {out : List Nat} {depth i : Nat}

theorem agrees_nil (h : a.lent = []) : a.Agrees [] := ⟨List.nodup_nil, fun i => by rw [h]⟩

theorem nodup_lent (a : Artifact) : a.lent.Nodup := by
  unfold lent
  cases a.pipeline with
  | none => exact List.nodup_nil
  | some p => exact p.nodup_lent

theorem Agrees.length (h : a.Agrees out) : out.length = a.lent.length :=
  ((List.perm_ext_iff_of_nodup h.nodup a.nodup_lent).2 h.mem).length_eq

/-- An artifact counts the groups that are in flight, and has no others. -/
theorem Coherent.inFlight (h : a.Coherent depth) :
    a.inFlight = a.lent.length ∧ ∀ i ∈ a.lent, i < depth := by
  unfold Artifact.inFlight lent
  cases hp : a.pipeline with
  | none => exact ⟨rfl, fun i hi => absurd hi List.not_mem_nil⟩
  | some p =>
    refine ⟨(h p hp).inFlight.1, fun i hi => ?_⟩
    rw [← (h p hp).flags]
    exact (List.getElem?_eq_some_iff.1 (Pipeline.mem_lent.1 hi)).1

end Artifact

/-! ### One request -/

/-- What a request does to the groups that are outstanding. -/
structure Request.Moves (depth : Nat) (r : Request) (s t : ExecState) : Prop where
  /-- The pipelines are coherent. -/
  coherent : t.cache.Coherent depth
  /-- Only groups of artifacts that are there are lent or given back. -/
  cached : ∀ id, r.lending? id s ≠ none → ∃ a, s.cache.get? id = some a
  /-- An artifact has got to know of what happened to its groups, or it is new. -/
  agrees : ∀ id b, t.cache.get? id = some b → (∃ a, s.cache.get? id = some a ∧
    ∀ out, a.Agrees out → b.Agrees ((r.lending? id s).toList.foldr Lending.post out)) ∨
      s.platform.nextArtifact ≤ id ∧ b.lent = []

section Request

variable {P : List Tensor → Prop} {s t : ExecState} {depth : Nat} {r : Request}

/-- Nothing is lent and nothing given back. -/
theorem ExecState.KeepsLent.moves (h : s.KeepsLent depth t) (hs : s.cache.Coherent depth)
    (hr : ∀ id, r.lending? id s = none) : r.Moves depth s t where
  coherent := h.coherent hs
  cached id hid := absurd (hr id) hid
  agrees id b hb := by
    rcases h.lent id b hb with ⟨a, ha, hlent⟩ | hnew
    · refine .inl ⟨a, ha, fun out hout => ?_⟩
      rw [hr]
      exact ⟨hout.nodup, fun i => by rw [hlent]; exact hout.mem i⟩
    · exact .inr hnew

/-- A pipeline of one artifact is changed, and what happens to its groups is posted. -/
theorem Request.moves_of_update {a : Artifact} {q : Pipeline TensorId} {artifact : ArtifactId}
    {l : Lending} (ha : s.cache.get? artifact = some a) (ht : t.cache.Coherent depth)
    (hcache : t.cache = s.cache.update artifact { a with pipeline := some q })
    (hlending : ∀ id, r.lending? id s = if artifact = id then some l else none)
    (hagrees : ∀ out, a.Agrees out →
      Artifact.Agrees { a with pipeline := some q } (l.post out)) : r.Moves depth s t where
  coherent := ht
  cached id hid := by
    rw [hlending] at hid
    split at hid
    · rename_i heq
      exact ⟨a, heq ▸ ha⟩
    · exact absurd rfl hid
  agrees id b hb := by
    rw [hcache, Cache.get?_update, ha] at hb
    split at hb
    · rename_i hid
      obtain rfl := Option.some.inj hb
      refine .inl ⟨a, hid ▸ ha, fun out hout => ?_⟩
      rw [hlending, if_pos hid.symm]
      exact hagrees out hout
    · rename_i hid
      refine .inl ⟨b, hb, fun out hout => ?_⟩
      rw [hlending, if_neg (Ne.symm hid)]
      exact hout

/-- **A group that is lent** was not outstanding. -/
theorem ExecM.Lends.moves {artifact : ArtifactId} {g : PipelineGroup TensorId}
    (h : Lends depth s artifact g t) (hlending : ∀ id, r.lending? id s =
      if artifact = id then some (.lent g.index) else none) : r.Moves depth s t := by
  obtain ⟨ht, a, p, q, ha, hp, hlent, hq, hcache⟩ := h
  obtain ⟨-, hnew, hmem⟩ := hp.lent hq
  refine Request.moves_of_update ha ht hcache hlending fun out hout => ⟨?_, fun i => ?_⟩
  · exact List.nodup_cons.2 ⟨fun h => hnew (hlent ▸ (hout.mem _).1 h), hout.nodup⟩
  · rw [Artifact.lent_of_pipeline rfl, hmem, hlent, ← hout.mem]
    exact List.mem_cons.trans or_comm

/-- **A group that is given back** was outstanding. -/
theorem ExecM.TakesBack.moves {artifact : ArtifactId} {index : Nat}
    (h : TakesBack depth s artifact index t) (hs : s.cache.Coherent depth)
    (hlending : ∀ id, r.lending? id s = if artifact = id then some (.returned index) else none) :
    r.Moves depth s t := by
  obtain ⟨ht, a, p, q, ha, hp, hq, hcache⟩ := h
  obtain ⟨-, -, hmem⟩ := (hs artifact a ha p hp).returned hq
  refine Request.moves_of_update ha ht hcache hlending fun out hout =>
    ⟨hout.nodup.erase index, fun i => ?_⟩
  rw [Artifact.lent_of_pipeline rfl, hmem, ← Artifact.lent_of_pipeline hp, ← hout.mem]
  exact hout.nodup.mem_erase_iff.trans and_comm

/-- What is found or compiled has no group in flight that it did not have. -/
theorem ExecM.Found.keepsLent {computed : Signature.Computed} {l : Lookup} {a : Artifact}
    (h : Found s computed l a t) : s.KeepsLent depth t := by
  have hlent : ∀ id b, t.cache.get? id = some b → s.cache.get? id = some b ∨
      s.platform.nextArtifact ≤ id ∧ b.pipeline = none := fun id b hb => by
    by_cases hid : id = l.artifact
    · subst hid
      obtain rfl := Option.some.inj (h.found.symm.trans hb)
      cases hhit : l.hit with
      | true => exact .inl (h.before hhit)
      | false =>
        obtain ⟨hnew, -, -, ha⟩ := h.made hhit
        exact .inr ⟨Nat.le_of_eq hnew.symm, by rw [ha]; rfl⟩
    · exact .inl (h.old id b hid hb)
  refine ⟨fun hs id b hb p hp => ?_, h.later.platform.nextArtifact, fun id b hb => ?_⟩
  · rcases hlent id b hb with hold | ⟨-, hnone⟩
    · exact hs id b hold p hp
    · rw [hnone] at hp
      cases hp
  · rcases hlent id b hb with hold | ⟨hnew, hnone⟩
    · exact .inl ⟨b, hold, rfl⟩
    · refine .inr ⟨hnew, ?_⟩
      unfold Artifact.lent
      rw [hnone]
      rfl

/-- **Finding, compiling and running** lend nothing. -/
theorem ExecM.ends_execute_lent (h : Compiled P s) (inputs : List HostBuffer)
    (hs : s.cache.Coherent depth) (hdepth : s.executor.config.pipelineDepth = depth) :
    Ends (execute inputs s) (fun _ t => s.KeepsLent depth t) fun _ t => s.KeepsLent depth t := by
  rw [execute_eq, ends_bind]
  refine (ends_getExecutable h inputs).mono (fun l t ht => ?_) fun e t ht => ?_
  · obtain ⟨computed, a, -, hfound⟩ := ht
    have hkept : s.KeepsLent depth t := hfound.keepsLent
    exact (ends_runFound_lent l inputs (hkept.coherent hs)
      (by rw [hfound.later.config]; exact hdepth)).mono (fun _ _ hu => hkept.trans hu)
      fun _ _ hu => hkept.trans hu
  · exact .of_cache_eq ht.1.cache ht.1.later.platform.nextArtifact

/-- **Whatever is asked for**, the artifacts know which of their groups are outstanding. -/
theorem Request.ends_moves (h : Compiled P s) (r : Request) (hs : s.cache.Coherent depth)
    (hdepth : s.executor.config.pipelineDepth = depth) :
    Ends (r.perform s) (fun _ t => r.Moves depth s t) fun _ t => r.Moves depth s t := by
  -- Only a request for a group, or one that returns it, moves a group.
  cases r with
  | execute inputs =>
    exact ends_bind.2 ((ExecM.ends_execute_lent h inputs hs hdepth).mono
      (fun _ _ ht => ht.moves hs fun _ => rfl) fun _ _ ht => ht.moves hs fun _ => rfl)
  | getExecutable inputs =>
    refine ends_bind.2 ((ExecM.ends_getExecutable h inputs).mono (fun l t ht => ?_)
      fun e t ht => ?_)
    · obtain ⟨computed, a, -, hfound⟩ := ht
      exact hfound.keepsLent.moves hs fun _ => rfl
    · exact ExecState.KeepsLent.moves
        (.of_cache_eq ht.1.cache ht.1.later.platform.nextArtifact) hs fun _ => rfl
  | allocateInputs artifact inputs =>
    exact ends_bind.2 ((ExecM.keeps_allocateInputs (T := ExecState.KeepsLent depth) artifact inputs
      s).mono (fun _ _ ht => ht.moves hs fun _ => rfl) fun _ _ ht => ht.moves hs fun _ => rfl)
  | allocateOutputs artifact outputs =>
    exact ends_bind.2 ((ExecM.keeps_allocateOutputs (T := ExecState.KeepsLent depth) artifact
      outputs s).mono (fun _ _ ht => ht.moves hs fun _ => rfl) fun _ _ ht => ht.moves hs fun _ => rfl)
  | acquireGroup artifact =>
    have hends := ExecM.ends_acquireGroup_lent artifact hs hdepth
    refine ends_bind.2 ?_
    cases hget : ExecM.acquireGroup artifact s with
    | error e t =>
      refine (hends.error hget).same.moves hs fun id => ?_
      unfold lending?
      dsimp only
      rw [hget]
    | ok g t =>
      have hlends := hends.ok hget
      have hlending : ∀ id, (acquireGroup artifact).lending? id s =
          if artifact = id then some (.lent g.index) else none := fun id => by
        unfold lending?
        dsimp only
        rw [hget]
      exact hlends.moves hlending
  | returnGroup artifact index =>
    have hends := ExecM.ends_returnGroup_lent artifact index hs
    refine ends_bind.2 ?_
    cases hget : ExecM.returnGroup artifact index s with
    | error e t =>
      refine (hends.error hget).1.moves hs fun id => ?_
      unfold lending?
      dsimp only
      rw [hget]
    | ok _ t =>
      have htakes := hends.ok hget
      have hlending : ∀ id, (returnGroup artifact index).lending? id s =
          if artifact = id then some (.returned index) else none := fun id => by
        unfold lending?
        dsimp only
        rw [hget]
      exact htakes.moves hs hlending

end Request

/-! ### Runs -/

namespace Process

/-- The process knows of the groups that are outstanding after a run. -/
structure Lends (commands : List Command) : Prop where
  /-- The pipelines are coherent. -/
  coherent : ∀ (k : Nat) (e : Executor), (empty.run commands).executors[k]? = some e →
    e.cache.Coherent e.config.pipelineDepth
  /-- Artifacts know which of their groups are outstanding. -/
  agrees : ∀ (k : Nat) (e : Executor), (empty.run commands).executors[k]? = some e →
    ∀ id a, e.cache.get? id = some a → a.Agrees (outstanding k id commands)
  /-- Nothing has been lent of artifacts that are still to come. -/
  new : ∀ k id, (empty.run commands).platform.nextArtifact ≤ id →
    asked (Request.lending? id) k empty commands = []

/-- **A request** is known of. -/
theorem Lends.ends_perform {commands : List Command} (h : Lends commands) {k o : Nat}
    {e : Executor} (he : (empty.run commands).executors[k]? = some e) (r : Request) :
    Ends (r.perform ((empty.run commands).stateOf e o))
      (fun _ t => r.Moves e.config.pipelineDepth ((empty.run commands).stateOf e o) t ∧
        ((empty.run commands).stateOf e o).Later t)
      fun _ t => r.Moves e.config.pipelineDepth ((empty.run commands).stateOf e o) t ∧
        ((empty.run commands).stateOf e o).Later t :=
  (r.ends_moves (compiled_run commands o he) (h.coherent k e he) rfl).and (r.later_perform _)

/-- **In every process** it is known which groups are outstanding. -/
theorem lends_run (commands : List Command) : Lends commands := by
  induction commands using List.reverseRecOn with
  | nil =>
    have hnone : ∀ (k : Nat) (e : Executor), (empty.run []).executors[k]? ≠ some e := nofun
    exact ⟨fun k e he => absurd he (hnone k e), fun k e he => absurd he (hnone k e),
      fun _ _ _ => rfl⟩
  | append_singleton rest c ih =>
    -- Nothing is lent of an artifact that there is not.
    have hnone : ∀ (k o : Nat) (e : Executor) (r : Request) id,
        (empty.run rest).executors[k]? = some e →
        (empty.run rest).platform.nextArtifact ≤ id →
        r.lending? id ((empty.run rest).stateOf e o) = none := by
      intro k o e r id he hid
      by_contra hlending
      obtain ⟨t, -, hmoves, -⟩ := put_of_ends he (ih.ends_perform (o := o) he r)
      obtain ⟨a, ha⟩ := hmoves.cached id hlending
      exact absurd ((compiled_run rest o he).issued id a ha) (Nat.not_lt.2 hid)
    have hstep : ∀ (k : Nat) (e : Executor),
        (empty.run (rest ++ [c])).executors[k]? = some e →
        e.cache.Coherent e.config.pipelineDepth ∧
          ∀ id a, e.cache.get? id = some a → a.Agrees (outstanding k id (rest ++ [c])) := by
      intro k e he
      rw [run_concat] at he
      unfold outstanding
      simp only [asked_concat, List.foldr_append]
      rcases executor_step (fun o r e _ he => ih.ends_perform he r) he with
        ⟨hold, hother⟩ | ⟨o, r, e₀, s, rfl, hold, -, rfl, hmoves, hlater⟩ | ⟨r, rfl, -, hbuilt⟩
      · simp only [Command.asked?_eq_none hother]
        exact ⟨ih.coherent k e hold, ih.agrees k e hold⟩
      · rw [hlater.config]
        refine ⟨hmoves.coherent, fun id b hb => ?_⟩
        rw [Command.asked?_ask hold]
        rcases hmoves.agrees id b hb with ⟨a, ha, hagrees⟩ | ⟨hid, hlent⟩
        · exact hagrees _ (ih.agrees k e₀ hold id a ha)
        · rw [ih.new k id hid, hnone k o e₀ r id hold hid]
          exact Artifact.agrees_nil hlent
      · have hempty : ∀ id, e.cache.get? id = none := fun id => by
          rw [hbuilt.cache]
          rfl
        refine ⟨fun id a ha => ?_, fun id a ha => ?_⟩
        · rw [hempty] at ha
          cases ha
        · rw [hempty] at ha
          cases ha
    refine ⟨fun k e he => (hstep k e he).1, fun k e he => (hstep k e he).2, fun k id hid => ?_⟩
    rw [run_concat] at hid
    have hid' := Nat.le_trans ((empty.run rest).grows_step c).nextArtifact hid
    rw [asked_concat, ih.new k id hid', List.append_nil]
    cases hasked : c.asked? (Request.lending? id) k (empty.run rest) with
    | none => rfl
    | some l =>
      obtain ⟨o, r, rfl, e, he, hr⟩ := Command.asked?_eq_some hasked
      rw [hnone k o e r id he hid'] at hr
      cases hr

end Process

/-! ### What an executor answers -/

section Answers

variable {P : List Tensor → Prop} {commands : List Command} {k o : Nat} {e : Executor}
  {id : ArtifactId} {a : Artifact}

/-- **Groups run out** when all are outstanding, and not before. -/
theorem Process.Lends.acquire (h : Process.Lends commands)
    (he : (Process.empty.run commands).executors[k]? = some e)
    (hkind : ((Process.empty.run commands).platform.backend e.backend).kind =
      .recording .pipelined) (ha : e.cache.get? id = some a) :
    ((∃ unit message, ((Process.empty.run commands).ask k o (.acquireGroup id)).1 =
        some (.error (.resourceExhausted unit message))) ↔
      (Process.outstanding k id commands).length = e.config.pipelineDepth) ∧
    (a.executable.function.parameters ≠ [] → a.executable.function.results ≠ [] →
      (Process.outstanding k id commands).length ≠ e.config.pipelineDepth →
      ∃ g, ((Process.empty.run commands).ask k o (.acquireGroup id)).1 = some (.ok (.group g)) ∧
        g.index ∉ Process.outstanding k id commands) := by
  obtain ⟨s, hs⟩ : ∃ s, s = (Process.empty.run commands).stateOf e o := ⟨_, rfl⟩
  have hagrees := h.agrees k e he id a ha
  have hpos : e.config.pipelineDepth ≠ 0 :=
    Nat.ne_of_gt (Process.depth_of_run commands he).2.2
  have hends : Ends ((Request.acquireGroup id).perform ((Process.empty.run commands).stateOf e o))
      (fun answer t => ∃ g, answer = .group g ∧
        ExecM.Lends e.config.pipelineDepth s id g t)
      fun error t => ExecM.LendsNone e.config.pipelineDepth s id error t := by
    rw [← hs]
    refine ends_bind.2 ((ExecM.ends_acquireGroup_lent id (s := s) ?_ ?_).mono
      (fun g t ht => ⟨g, rfl, ht⟩) fun _ _ ht => ht)
    · rw [hs]
      exact h.coherent k e he
    · rw [hs]
      rfl
  have has : s.cache.get? id = some a := by
    rw [hs]
    exact ha
  have hkind' : s.kind = .recording .pipelined := by
    rw [hs]
    exact hkind
  obtain ⟨t, -, ht⟩ := Process.ask_of_ends he hends
  rcases ht with ⟨answer, hanswer, g, rfl, hlends⟩ | ⟨error, herror, hnone⟩
  · obtain ⟨-, b, p, q, hb, hp, hlent, hq, -⟩ := hlends
    obtain rfl := Option.some.inj (has.symm.trans hb)
    rw [hanswer]
    refine ⟨⟨nofun, fun hlength => ?_⟩, fun _ _ _ => ⟨g, rfl, fun hmem => ?_⟩⟩
    · -- If all groups were outstanding, none would have been free.
      have hfree := hp.inFlight.2.2 (by rw [hlent, ← hagrees.length, hlength])
      rw [hq.free] at hfree
      cases hfree
    · exact (hp.lent hq).2.1 (hlent ▸ (hagrees.mem _).1 hmem)
  · have hexhausted : (∃ unit message, error = .resourceExhausted unit message) →
        (Process.outstanding k id commands).length = e.config.pipelineDepth := fun hwhy => by
      obtain ⟨b, hb, hlength⟩ := hnone.exhausted hwhy
      obtain rfl := Option.some.inj (has.symm.trans hb)
      rw [hagrees.length, hlength]
    rw [herror]
    refine ⟨⟨?_, fun hlength => ?_⟩, fun hparameters hresults hlength => ?_⟩
    · rintro ⟨unit, message, hwhy⟩
      exact hexhausted ⟨unit, message, by simpa using hwhy⟩
    · -- Groups are outstanding, so there is a pipeline, and it can only have run out.
      have hne : a.lent ≠ [] := fun hnil => by
        rw [hagrees.length, hnil] at hlength
        exact hpos hlength.symm
      obtain ⟨unit, message, rfl⟩ := hnone.otherwise a has hkind' (.inl hne)
      exact ⟨unit, message, rfl⟩
    · exact absurd (hexhausted (hnone.otherwise a has hkind' (.inr ⟨hparameters, hresults, hpos⟩)))
        hlength

/-- **A group can be given back** if it is outstanding. -/
theorem Process.Lends.giveBack (h : Process.Lends commands)
    (he : (Process.empty.run commands).executors[k]? = some e) (index : Nat) :
    ((Process.empty.run commands).ask k o (.returnGroup id index)).1 = some (.ok .done) ↔
      (∃ a, e.cache.get? id = some a) ∧ index ∈ Process.outstanding k id commands := by
  have hends : Ends ((Request.returnGroup id index).perform
        ((Process.empty.run commands).stateOf e o))
      (fun answer t => answer = .done ∧ ExecM.TakesBack e.config.pipelineDepth
        ((Process.empty.run commands).stateOf e o) id index t)
      fun _ _ => ∀ a, e.cache.get? id = some a → index ∉ a.lent :=
    ends_bind.2 ((ExecM.ends_returnGroup_lent id index (h.coherent k e he)).mono
      (fun _ _ ht => ⟨rfl, ht⟩) fun _ _ ht => ht.2)
  obtain ⟨t, -, ht⟩ := Process.ask_of_ends he hends
  rcases ht with ⟨answer, hanswer, rfl, -, a, p, q, ha, hp, hq, -⟩ | ⟨error, herror, hnone⟩
  · rw [hanswer]
    refine ⟨fun _ => ⟨⟨a, ha⟩, ?_⟩, fun _ => rfl⟩
    rw [(h.agrees k e he id a ha).mem, Artifact.lent_of_pipeline hp]
    exact Pipeline.mem_lent.2 hq.flag
  · rw [herror]
    refine ⟨nofun, ?_⟩
    rintro ⟨⟨a, ha⟩, hmem⟩
    exact absurd (((h.agrees k e he id a ha).mem _).1 hmem) (hnone a ha)

/-- **Executing** leaves every artifact the groups that it has in flight. -/
theorem Process.Lends.execute (h : Process.Lends commands)
    (he : (Process.empty.run commands).executors[k]? = some e) {inputs : List HostBuffer}
    {e' : Executor} {b : Artifact} (he' : ((Process.empty.run commands).step
      (.ask k o (.execute inputs))).executors[k]? = some e')
    (ha : e.cache.get? id = some a) (hb : e'.cache.get? id = some b) : b.lent = a.lent := by
  have hcompiled := compiled_run commands o he
  have hends : Ends ((Request.execute inputs).perform ((Process.empty.run commands).stateOf e o))
      (fun _ t => ((Process.empty.run commands).stateOf e o).KeepsLent e.config.pipelineDepth t)
      fun _ t => ((Process.empty.run commands).stateOf e o).KeepsLent e.config.pipelineDepth t :=
    ends_bind.2 (ExecM.ends_execute_lent hcompiled inputs (h.coherent k e he) rfl)
  obtain ⟨t, hput, hkept⟩ := Process.put_of_ends he hends
  rw [hput] at he'
  obtain ⟨-, rfl⟩ | ⟨hne, -⟩ := Process.executor_put he he'
  swap
  · exact absurd rfl hne
  rcases hkept.lent id b hb with ⟨a', ha', hlent⟩ | ⟨hnew, -⟩
  · obtain rfl := Option.some.inj (ha.symm.trans ha')
    exact hlent
  · exact absurd (hcompiled.issued id a ha) (Nat.not_lt.2 hnew)

end Answers

/-- **Every group is lent to one.** In every process, for an executor on a pipelined backend: the
groups of an artifact in its cache that are outstanding are different groups of the pipeline, and
the artifact counts them. Asking for a group fails for want of one exactly when all are outstanding,
and if the executable has parameters and results it fails for no other reason, and gives a group
that is not outstanding. Giving a group back succeeds exactly when it is outstanding. Executing,
whether or not it succeeds, leaves what is in flight and outstanding as it is. -/
theorem groups_lent_exclusively (commands : List Command) (k : Nat) (e : Executor)
    (he : (Process.empty.run commands).executors[k]? = some e)
    (hkind : ((Process.empty.run commands).platform.backend e.backend).kind =
      .recording .pipelined) :
    (∀ (id : ArtifactId) (a : Artifact), e.cache.get? id = some a →
      (Process.outstanding k id commands).Nodup ∧
      (∀ i ∈ Process.outstanding k id commands, i < e.config.pipelineDepth) ∧
      a.inFlight = (Process.outstanding k id commands).length ∧
      ∀ o, ((∃ unit message, ((Process.empty.run commands).ask k o (.acquireGroup id)).1 =
            some (.error (.resourceExhausted unit message))) ↔
          (Process.outstanding k id commands).length = e.config.pipelineDepth) ∧
        (a.executable.function.parameters ≠ [] → a.executable.function.results ≠ [] →
          (Process.outstanding k id commands).length ≠ e.config.pipelineDepth →
          ∃ g, ((Process.empty.run commands).ask k o (.acquireGroup id)).1 =
              some (.ok (.group g)) ∧ g.index ∉ Process.outstanding k id commands)) ∧
    (∀ (id : ArtifactId) (index o : Nat),
      ((Process.empty.run commands).ask k o (.returnGroup id index)).1 = some (.ok .done) ↔
        (∃ a, e.cache.get? id = some a) ∧ index ∈ Process.outstanding k id commands) ∧
    ∀ (inputs : List HostBuffer) (o : Nat) (e' : Executor), ((Process.empty.run commands).step
        (.ask k o (.execute inputs))).executors[k]? = some e' →
      ∀ (id : ArtifactId) (a b : Artifact), e.cache.get? id = some a → e'.cache.get? id = some b →
        b.lent = a.lent ∧ (∀ i, i ∈ b.lent ↔ i ∈ Process.outstanding k id commands) ∧
        Process.outstanding k id (commands ++ [.ask k o (.execute inputs)]) =
          Process.outstanding k id commands := by
  have hlends := Process.lends_run commands
  refine ⟨fun id a ha => ?_, fun id index o => hlends.giveBack he index,
    fun inputs o e' he' id a b ha hb => ?_⟩
  · have hagrees := hlends.agrees k e he id a ha
    obtain ⟨hcount, hlt⟩ := Artifact.Coherent.inFlight (hlends.coherent k e he id a ha)
    refine ⟨hagrees.nodup, fun i hi => hlt i ((hagrees.mem i).1 hi), ?_,
      fun o => hlends.acquire he hkind ha⟩
    rw [hcount, hagrees.length]
  · have hlent := hlends.execute he he' ha hb
    refine ⟨hlent, fun i => ?_, ?_⟩
    · rw [hlent, (hlends.agrees k e he id a ha).mem]
    · unfold Process.outstanding
      rw [Process.asked_concat, Command.asked?_ask he]
      rfl

/-- A sum on a pipelined backend with two groups for each artifact. Both groups are lent, the call
after that finds none, and the second group is given back. -/
def twoLent : List Command :=
  [.register "host" (.recording .pipelined) none, .allocate ⟨⟨.f32, [1]⟩, [0, 0, 128, 63]⟩,
    .build { BuildRequest.sampleSum with
      config := some { Config.standard with pipelineDepth := 2 } },
    .ask 0 0 (.getExecutable (pairOf 1)), .ask 0 0 (.acquireGroup 0), .ask 0 0 (.acquireGroup 0),
    .ask 0 0 (.execute [⟨⟨.f32, [1]⟩, 0⟩, ⟨⟨.f32, [1]⟩, 0⟩]), .ask 0 0 (.returnGroup 0 1)]

/-- The first group is outstanding, and it is the only one that can be given back. -/
theorem first_of_twoLent : ∃ e a, (Process.empty.run twoLent).executors[0]? = some e ∧
    ((Process.empty.run twoLent).platform.backend e.backend).kind = .recording .pipelined ∧
    e.cache.get? 0 = some a ∧ Process.outstanding 0 0 twoLent = [0] ∧ a.inFlight = 1 ∧
    ((Process.empty.run twoLent).ask 0 0 (.returnGroup 0 0)).1 = some (.ok .done) ∧
    ((Process.empty.run twoLent).ask 0 0 (.returnGroup 0 1)).1 ≠ some (.ok .done) := by
  obtain ⟨e, he⟩ := Option.isSome_iff_exists.1
    (show ((Process.empty.run twoLent).executors[0]?).isSome = true from by decide +kernel)
  have hkind : ((Process.empty.run twoLent).executors[0]?.map fun e =>
      ((Process.empty.run twoLent).platform.backend e.backend).kind) =
      some (.recording .pipelined) := by decide +kernel
  have hcached : (((Process.empty.run twoLent).executors[0]?.bind (·.cache.get? 0)).isSome) =
      true := by decide +kernel
  rw [he] at hkind hcached
  replace hkind := Option.some.inj hkind
  obtain ⟨a, ha⟩ := Option.isSome_iff_exists.1
    (show (e.cache.get? 0).isSome = true from hcached)
  have hout : Process.outstanding 0 0 twoLent = [0] := by decide +kernel
  obtain ⟨hgroups, hback, -⟩ := groups_lent_exclusively twoLent 0 e he hkind
  obtain ⟨-, -, hcount, -⟩ := hgroups 0 a ha
  rw [hout] at hcount
  refine ⟨e, a, he, hkind, ha, hout, hcount, (hback 0 0 0).2 ⟨⟨a, ha⟩, ?_⟩, fun hone => ?_⟩
  · rw [hout]
    exact List.mem_singleton_self 0
  · have hmem := ((hback 0 1 0).1 hone).2
    rw [hout] at hmem
    exact absurd hmem (by decide)

end TensorJit
