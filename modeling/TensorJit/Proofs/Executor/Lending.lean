import Mathlib.Data.List.Nodup
import Mathlib.Data.List.Perm.Basic
import TensorJit.Proofs.Executor.Group
import TensorJit.Proofs.Executor.Request

/-!
# Which groups are lent

A pipeline keeps two lists of its groups, the free ones in the order in which they are handed out,
and for each group whether it is in flight. The two agree (`Pipeline.Coherent`): a group is in
flight exactly when it is not free. What is in flight changes with a request for a group and with
one that gives a group back, and with no other, since **a call gives back the group that it has
borrowed, whether or not it succeeds** (`ExecM.ends_runPipelined_lent`).
-/

namespace TensorJit

/-! ### Pipelines -/

namespace Pipeline

variable {τ : Type} {p q : Pipeline τ} {g : PipelineGroup τ} {depth i : Nat}

/-- The groups in flight. -/
def lent (p : Pipeline τ) : List Nat := (List.range p.flags.length).filter (p.flags.getD · false)

theorem mem_lent : i ∈ p.lent ↔ p.flags[i]? = some true := by
  unfold lent
  rw [List.mem_filter, List.mem_range, List.getD_eq_getElem?_getD]
  constructor
  · rintro ⟨hlt, hflag⟩
    rw [List.getElem?_eq_getElem hlt] at hflag ⊢
    exact congrArg some hflag
  · intro h
    rw [h]
    exact ⟨(List.getElem?_eq_some_iff.1 h).1, rfl⟩

theorem nodup_lent (p : Pipeline τ) : p.lent.Nodup := List.nodup_range.filter _

/-- A group is free exactly when it is not in flight. -/
structure Coherent (p : Pipeline τ) (depth : Nat) : Prop where
  /-- There are as many groups as there are to be. -/
  depth_eq : p.depth = depth
  /-- There is a flag for each. -/
  flags : p.flags.length = depth
  /-- No group is free twice. -/
  nodup : p.free.Nodup
  /-- A group is free if it is not in flight. -/
  free : ∀ i, i ∈ p.free ↔ p.flags[i]? = some false

/-- The groups are free or in flight. -/
theorem Coherent.inFlight (h : p.Coherent depth) : p.inFlight = p.lent.length ∧
    (p.free = [] ↔ p.lent.length = depth) := by
  have hperm : (p.free ++ p.lent).Perm (List.range depth) := by
    refine (List.perm_ext_iff_of_nodup ?_ List.nodup_range).2 fun i => ?_
    · refine List.nodup_append'.2 ⟨h.nodup, p.nodup_lent, fun i hfree hlent => ?_⟩
      rw [mem_lent, (h.free i).1 hfree] at hlent
      cases hlent
    · rw [List.mem_append, h.free, mem_lent, List.mem_range, ← h.flags]
      constructor
      · rintro (hi | hi)
        · exact (List.getElem?_eq_some_iff.1 hi).1
        · exact (List.getElem?_eq_some_iff.1 hi).1
      · intro hi
        rw [List.getElem?_eq_getElem hi]
        cases p.flags[i] with
        | false => exact .inl rfl
        | true => exact .inr rfl
  have hlength := hperm.length_eq
  rw [List.length_append, List.length_range] at hlength
  have hdepth := h.depth_eq
  refine ⟨?_, fun hnil => ?_, fun hlent => ?_⟩
  · unfold Pipeline.inFlight
    omega
  · rw [hnil, List.length_nil] at hlength
    omega
  · exact List.length_eq_zero_iff.1 (by omega)

/-- **A new pipeline** has all groups free. -/
theorem coherent_ofRows {inputs outputs : List (List τ)} (h : ofRows inputs outputs depth = .ok p) :
    p.Coherent depth ∧ p.lent = [] := by
  obtain ⟨-, rfl⟩ := ofRows_eq_ok_iff.1 h
  have hflag : ∀ i, (allFree inputs outputs depth).flags[i]? =
      if i < depth then some false else none := fun _ => List.getElem?_replicate
  refine ⟨⟨rfl, List.length_replicate, List.nodup_range, fun i => List.mem_range.trans ?_⟩, ?_⟩
  · rw [hflag]
    split
    · rename_i hi
      exact ⟨fun _ => rfl, fun _ => hi⟩
    · rename_i hi
      exact ⟨fun h => absurd h hi, nofun⟩
  · refine List.eq_nil_iff_forall_not_mem.2 fun i hi => ?_
    rw [mem_lent, hflag] at hi
    split at hi
    · cases hi
    · cases hi

/-- **Lending** puts a group in flight that was free. -/
theorem Coherent.lent (h : p.Coherent depth) (hl : p.Lent g q) : q.Coherent depth ∧
    g.index ∉ p.lent ∧ ∀ i, i ∈ q.lent ↔ i ∈ p.lent ∨ i = g.index := by
  have hfree : p.flags[g.index]? = some false := (h.free _).1 (hl.free ▸ List.mem_cons_self)
  have hlt : g.index < p.flags.length := (List.getElem?_eq_some_iff.1 hfree).1
  have hnodup := h.nodup
  rw [hl.free, List.nodup_cons] at hnodup
  have hflag : ∀ i, q.flags[i]? = if g.index = i then some true else p.flags[i]? := fun i => by
    rw [hl.flags, List.getElem?_set, if_pos hlt]
  refine ⟨⟨hl.depth.trans h.depth_eq, ?_, hnodup.2, fun i => ?_⟩, ?_, fun i => ?_⟩
  · rw [hl.flags, List.length_set, h.flags]
  · rw [hflag]
    have hi := h.free i
    rw [hl.free, List.mem_cons] at hi
    split
    · rename_i heq
      subst heq
      exact ⟨fun hmem => absurd hmem hnodup.1, nofun⟩
    · rename_i hne
      exact ⟨fun hmem => hi.1 (.inr hmem), fun hf => (hi.2 hf).resolve_left (Ne.symm hne)⟩
  · rw [mem_lent, hfree]
    nofun
  · rw [mem_lent, mem_lent, hflag]
    split
    · rename_i heq
      exact ⟨fun _ => .inr heq.symm, fun _ => rfl⟩
    · rename_i hne
      exact ⟨.inl, fun h => h.resolve_right (Ne.symm hne)⟩

/-- **Giving back** frees a group that was in flight. -/
theorem Coherent.returned (h : p.Coherent depth) (hr : p.Returned i q) : q.Coherent depth ∧
    i ∈ p.lent ∧ ∀ j, j ∈ q.lent ↔ j ∈ p.lent ∧ j ≠ i := by
  have hlt : i < p.flags.length := (List.getElem?_eq_some_iff.1 hr.flag).1
  have hnot : i ∉ p.free := fun hi => by
    have hflag := hr.flag
    rw [(h.free i).1 hi] at hflag
    cases hflag
  have hflag : ∀ j, q.flags[j]? = if i = j then some false else p.flags[j]? := fun j => by
    rw [hr.flags, List.getElem?_set, if_pos hlt]
  refine ⟨⟨hr.depth.trans h.depth_eq, ?_, ?_, fun j => ?_⟩, mem_lent.2 hr.flag, fun j => ?_⟩
  · rw [hr.flags, List.length_set, h.flags]
  · rw [hr.free]
    exact List.nodup_append'.2 ⟨h.nodup, List.nodup_singleton i, fun j hj hji => by
      rw [List.mem_singleton] at hji
      exact hnot (hji ▸ hj)⟩
  · rw [hr.free, List.mem_append, List.mem_singleton, hflag]
    split
    · rename_i heq
      exact ⟨fun _ => rfl, fun _ => .inr heq.symm⟩
    · rename_i hne
      rw [← h.free]
      exact ⟨fun hj => hj.resolve_right (Ne.symm hne), .inl⟩
  · rw [mem_lent, mem_lent, hflag]
    split
    · rename_i heq
      exact ⟨nofun, fun hj => absurd heq.symm hj.2⟩
    · rename_i hne
      exact ⟨fun hj => ⟨hj, Ne.symm hne⟩, fun hj => hj.1⟩

/-- A group that is lent and given back is as if it had not been lent. -/
theorem Coherent.lent_returned {r : Pipeline τ} (h : p.Coherent depth) (hl : p.Lent g q)
    (hr : q.Returned g.index r) : r.lent = p.lent := by
  have hfree : p.flags[g.index]? = some false := (h.free _).1 (hl.free ▸ List.mem_cons_self)
  obtain ⟨hlt, hflag⟩ := List.getElem?_eq_some_iff.1 hfree
  have hflags : r.flags = p.flags := by
    rw [hr.flags, hl.flags, List.set_set, ← hflag, List.set_getElem_self]
  unfold Pipeline.lent
  rw [hflags]

end Pipeline

/-! ### Artifacts and caches -/

namespace Artifact

/-- The groups in flight; there are none before there is a pipeline. -/
def lent (a : Artifact) : List Nat := (a.pipeline.map Pipeline.lent).getD []

/-- The pipeline of the artifact, if it has one, is coherent. -/
def Coherent (a : Artifact) (depth : Nat) : Prop := ∀ p, a.pipeline = some p → p.Coherent depth

theorem lent_of_pipeline {a : Artifact} {p : Pipeline TensorId} (h : a.pipeline = some p) :
    a.lent = p.lent := by
  unfold lent
  rw [h]
  rfl

end Artifact

namespace Cache

/-- All pipelines are coherent. -/
def Coherent (c : Cache) (depth : Nat) : Prop := ∀ id a, c.get? id = some a → a.Coherent depth

variable {c : Cache} {id : ArtifactId} {a b : Artifact} {depth : Nat}

/-- An artifact is given another pipeline. -/
theorem Coherent.update (h : c.Coherent depth) (ha : c.get? id = some a) (hb : b.Coherent depth) :
    (c.update id b).Coherent depth := by
  intro j x hx
  rw [get?_update, ha] at hx
  split at hx
  · obtain rfl := Option.some.inj hx
    exact hb
  · exact h j x hx

end Cache

/-- Between two states no group of an artifact is lent or given back. -/
structure ExecState.KeepsLent (depth : Nat) (s t : ExecState) : Prop where
  /-- The pipelines stay coherent. -/
  coherent : s.cache.Coherent depth → t.cache.Coherent depth
  /-- Identities of artifacts are used up. -/
  next : s.platform.nextArtifact ≤ t.platform.nextArtifact
  /-- An artifact has the same groups in flight, or it is new and has none. -/
  lent : ∀ id b, t.cache.get? id = some b →
    (∃ a, s.cache.get? id = some a ∧ b.lent = a.lent) ∨
      s.platform.nextArtifact ≤ id ∧ b.lent = []

namespace ExecState

variable {depth : Nat} {s t u : ExecState}

theorem KeepsLent.of_cache_eq (h : t.cache = s.cache)
    (hnext : s.platform.nextArtifact ≤ t.platform.nextArtifact) : s.KeepsLent depth t :=
  ⟨fun hs => h ▸ hs, hnext, fun _ b hb => .inl ⟨b, h ▸ hb, rfl⟩⟩

theorem KeepsLent.trans (h : s.KeepsLent depth t) (h' : t.KeepsLent depth u) :
    s.KeepsLent depth u := by
  refine ⟨h'.coherent ∘ h.coherent, Nat.le_trans h.next h'.next, fun id c hc => ?_⟩
  rcases h'.lent id c hc with ⟨b, hb, hcb⟩ | ⟨hnew, hnone⟩
  · rw [hcb]
    exact h.lent id b hb
  · exact .inr ⟨Nat.le_trans h.next hnew, hnone⟩

/-- An artifact is given other tensors, and the same groups are in flight. -/
theorem keepsLent_update {id : ArtifactId} {a b : Artifact} (ha : s.cache.get? id = some a)
    (hcoherent : a.Coherent depth → b.Coherent depth) (hlent : b.lent = a.lent) :
    s.KeepsLent depth { s with executor.cache := s.cache.update id b } := by
  have hget : ∀ j, (s.cache.update id b).get? j = if j = id then some b else s.cache.get? j :=
    fun j => by
      rw [Cache.get?_update, ha]
      rfl
  refine ⟨fun hs => hs.update ha (hcoherent (hs id a ha)), Nat.le_refl _, fun j c hc => .inl ?_⟩
  change (s.cache.update id b).get? j = some c at hc
  rw [hget] at hc
  split at hc
  · rename_i hj
    subst hj
    cases hc
    exact ⟨a, ha, hlent⟩
  · exact ⟨c, hc, rfl⟩

/-- **Only lending and giving back** change what is in flight. -/
instance : SlotMoves (KeepsLent depth) where
  refl _ := .of_cache_eq rfl (Nat.le_refl _)
  trans := KeepsLent.trans
  calm _ _ h _ := .of_cache_eq rfl h.nextArtifact
  counted _ _ _ _ := .of_cache_eq rfl (Nat.le_refl _)
  prepared _ _ := .of_cache_eq rfl (Nat.le_refl _)
  slots s id a b ha _ hpipeline := by
    refine keepsLent_update ha (fun h p hp => h p (hpipeline ▸ hp)) ?_
    unfold Artifact.lent
    rw [hpipeline]

instance : CopyMoves (KeepsLent depth) where
  steady _ _ h _ := .of_cache_eq rfl h.nextArtifact
  recounted _ _ _ := .of_cache_eq rfl (Nat.le_refl _)

instance : TellMoves (KeepsLent depth) where
  marked _ _ _ _ _ := .of_cache_eq rfl (Nat.le_refl _)
  invalidated _ _ := .of_cache_eq rfl (Nat.le_refl _)

end ExecState

/-! ### Steps -/

namespace ExecM

open ExecState (KeepsLent SameCache)

variable {s t u : ExecState} {depth : Nat} {id : ArtifactId} {g : PipelineGroup TensorId}

/-- **A new pipeline** has all groups free. -/
theorem ends_makePipeline_lent (x : Executable) (hkind : s.kind = .recording .pipelined)
    (hdepth : s.executor.config.pipelineDepth = depth) :
    Ends (makePipeline x s) (fun p t => t.cache = s.cache ∧ p.Coherent depth ∧ p.lent = [])
      fun e t => (∀ unit message, e ≠ .resourceExhausted unit message) ∧ t.cache = s.cache ∧
        (x.function.parameters = [] ∨ x.function.results = [] ∨ depth = 0) := by
  have hmade := (ends_makePipeline x.function hkind).and
    (keeps_makePipeline (T := SameCache) x s)
  have hrow : ∀ side l, Keeps ExecState.Later (List.mapM (makeRow x side) l) := fun side l =>
    Keeps.mapM (keeps_makeRow x side) l
  have hcoherent : Ends (makePipeline x s) (fun p _ => p.Coherent depth ∧ p.lent = [])
      fun e _ => ∀ unit message, e ≠ .resourceExhausted unit message := by
    unfold makePipeline
    rw [ends_bind]
    refine ((hrow .input _ s).and (ends_makeRows x .input hkind)).mono (fun ins t ht => ?_)
      fun _ _ h => h.2.elim
    rw [ends_bind]
    refine ((hrow .output _ t).and (ends_makeRows x .output (ht.1.kind_eq.trans hkind))).mono
      (fun outs u hu => ?_) fun _ _ h => h.2.elim
    rw [ends_bind, ends_executor, hu.1.config, ht.1.config, hdepth]
    cases hrows : Pipeline.ofRows ins outs depth with
    | ok p => exact Pipeline.coherent_ofRows hrows
    | error fault => exact nofun
  refine (hmade.and hcoherent).mono (fun p t ht => ⟨ht.1.2, ht.2⟩) fun e t ht => ?_
  exact ⟨ht.2, ht.1.2, hdepth ▸ ht.1.1.2.2.2⟩

/-- **A group is lent**: it was free, and now it is in flight. -/
structure Lends (depth : Nat) (s : ExecState) (id : ArtifactId) (g : PipelineGroup TensorId)
    (t : ExecState) : Prop where
  /-- The pipelines stay coherent. -/
  coherent : t.cache.Coherent depth
  /-- The artifact is there, and it has got a pipeline from which the group was taken. -/
  cache : ∃ (a : Artifact) (p q : Pipeline TensorId), s.cache.get? id = some a ∧
    p.Coherent depth ∧ p.lent = a.lent ∧ p.Lent g q ∧
    t.cache = s.cache.update id { a with pipeline := some q }

/-- **No group is lent.** -/
structure LendsNone (depth : Nat) (s : ExecState) (id : ArtifactId) (e : Error) (t : ExecState) :
    Prop where
  /-- The same groups are in flight. -/
  same : s.KeepsLent depth t
  /-- The groups have run out only if all are in flight. -/
  exhausted : (∃ unit message, e = .resourceExhausted unit message) →
    ∃ a, s.cache.get? id = some a ∧ a.lent.length = depth
  /-- They have run out if there is or can be a pipeline. -/
  otherwise : ∀ a, s.cache.get? id = some a → s.kind = .recording .pipelined →
    a.lent ≠ [] ∨ a.executable.function.parameters ≠ [] ∧ a.executable.function.results ≠ [] ∧
      depth ≠ 0 → ∃ unit message, e = .resourceExhausted unit message

theorem ends_lend_lent {a : Artifact} {p : Pipeline TensorId} (e : Executor)
    (hs : s.cache.Coherent depth) (ha : s.cache.get? id = some a) (hp : p.Coherent depth)
    (hlent : p.lent = a.lent) (hst : s.KeepsLent depth t) (ht : t.cache = s.cache) :
    Ends ((do
      setArtifact id { a with pipeline := some p }
      match p.acquire? with
      | none => throw (Error.resourceExhausted e.unit.name "no free tensor available")
      | some (group, p) =>
        setArtifact id { a with pipeline := some p }
        return group) t) (fun g u => Lends depth s id g u)
      fun error u => LendsNone depth s id error u := by
  have hcoherent : ∀ q : Pipeline TensorId, q.Coherent depth →
      Artifact.Coherent { a with pipeline := some q } depth := fun q hq r hr => by
    obtain rfl := Option.some.inj hr
    exact hq
  rw [ends_bind, ends_setArtifact]
  cases hacquire : p.acquire? with
  | none =>
    rw [ends_throw]
    have hset : t.KeepsLent depth
        { t with executor.cache := t.cache.update id { a with pipeline := some p } } :=
      ExecState.keepsLent_update (by rw [ht]; exact ha) (fun _ => hcoherent p hp)
        ((Artifact.lent_of_pipeline rfl).trans hlent)
    refine ⟨hst.trans hset, fun _ => ⟨a, ha, ?_⟩, fun _ _ _ _ => ⟨_, _, rfl⟩⟩
    rw [← hlent]
    refine hp.inFlight.2.1 ?_
    unfold Pipeline.acquire? at hacquire
    split at hacquire
    · assumption
    · cases hacquire
  | some found =>
    obtain ⟨g, q⟩ := found
    dsimp only
    rw [ends_bind, ends_setArtifact, ends_pure]
    have hq := Pipeline.lent_of_acquire? hacquire
    have hcache : (t.cache.update id { a with pipeline := some p }).update id
        { a with pipeline := some q } = s.cache.update id { a with pipeline := some q } := by
      rw [ht, Cache.update_update]
    refine ⟨?_, a, p, q, ha, hp, hlent, hq, hcache⟩
    change Cache.Coherent (Cache.update _ id _) depth
    rw [show Cache.update _ id { a with pipeline := some q } = _ from hcache]
    exact hs.update ha (hcoherent q (hp.lent hq).1)

/-- **Asking for a group.** -/
theorem ends_acquireGroup_lent (id : ArtifactId) (hs : s.cache.Coherent depth)
    (hdepth : s.executor.config.pipelineDepth = depth) :
    Ends (acquireGroup id s) (fun g t => Lends depth s id g t)
      fun e t => LendsNone depth s id e t := by
  have hrefl : s.KeepsLent depth s := .of_cache_eq rfl (Nat.le_refl _)
  unfold acquireGroup
  rw [ends_bind, ends_executor, ends_bind, ends_kind]
  dsimp only
  split
  · rename_i hkind
    refine ⟨hrefl, ?_, fun a _ hpipelined => ?_⟩
    · rintro ⟨unit, message, ⟨⟩⟩
    · rw [hpipelined] at hkind
      exact absurd hkind (by decide)
  · rename_i hkind
    replace hkind : s.kind = .recording .pipelined := by
      unfold BackendKind.isPipelined at hkind
      simpa using hkind
    rw [ends_bind, ends_artifact]
    refine ⟨fun a ha => ?_, fun hnone => ⟨hrefl, ?_, fun a ha => ?_⟩⟩
    · -- The first group that is asked for makes the pipeline, of which nothing is lent yet.
      cases hpipeline : a.pipeline with
      | some p =>
        exact ends_lend_lent s.executor hs ha (hs id a ha p hpipeline)
          (Artifact.lent_of_pipeline hpipeline).symm hrefl rfl
      | none =>
        have hempty : a.lent = [] := by
          unfold Artifact.lent
          rw [hpipeline]
          rfl
        refine ends_bind.2 (((ends_makePipeline_lent a.executable hkind hdepth).and
          (keeps_makePipeline (T := KeepsLent depth) a.executable s)).mono (fun p t ht => ?_)
          fun e t ht => ?_)
        · obtain ⟨⟨hcache, hp, hlent⟩, hkeeps⟩ := ht
          exact ends_lend_lent s.executor hs ha hp (hlent.trans hempty.symm) hkeeps hcache
        · obtain ⟨⟨hother, -, hwhy⟩, hkeeps⟩ := ht
          refine ⟨hkeeps, ?_, fun b hb _ hcan => ?_⟩
          · rintro ⟨unit, message, he⟩
            exact absurd he (hother unit message)
          · obtain rfl := Option.some.inj (ha.symm.trans hb)
            rcases hcan with hne | ⟨hparameters, hresults, hpos⟩
            · exact absurd hempty hne
            · rcases hwhy with h | h | h
              · exact absurd h hparameters
              · exact absurd h hresults
              · exact absurd h hpos
    · rintro ⟨unit, message, ⟨⟩⟩
    · rw [hnone] at ha
      cases ha

/-- **A group is given back**: it was in flight, and now it is free. -/
structure TakesBack (depth : Nat) (s : ExecState) (id : ArtifactId) (index : Nat)
    (t : ExecState) : Prop where
  /-- The pipelines stay coherent. -/
  coherent : t.cache.Coherent depth
  /-- The artifact is there, and it has a pipeline to which the group was given. -/
  cache : ∃ a p q, s.cache.get? id = some a ∧ a.pipeline = some p ∧ p.Returned index q ∧
    t.cache = s.cache.update id { a with pipeline := some q }

/-- **Giving a group back** succeeds for the groups in flight. -/
theorem ends_returnGroup_lent (id : ArtifactId) (index : Nat) (hs : s.cache.Coherent depth) :
    Ends (returnGroup id index s) (fun _ t => TakesBack depth s id index t)
      fun _ t => s.KeepsLent depth t ∧
        ∀ a, s.cache.get? id = some a → index ∉ a.lent := by
  refine (returned_returnGroup id index).mono (fun _ t ht => ?_) fun _ t ht => ?_
  · obtain ⟨a, p, q, ha, hp, hq, rfl⟩ := ht
    refine ⟨hs.update ha fun r hr => ?_, a, p, q, ha, hp, hq, rfl⟩
    obtain rfl := Option.some.inj hr
    exact ((hs id a ha p hp).returned hq).1
  · obtain ⟨rfl, hflag⟩ := ht
    refine ⟨.of_cache_eq rfl (Nat.le_refl _), fun a ha hmem => ?_⟩
    cases hpipeline : a.pipeline with
    | none =>
      unfold Artifact.lent at hmem
      rw [hpipeline] at hmem
      cases hmem
    | some p =>
      rw [Artifact.lent_of_pipeline hpipeline, Pipeline.mem_lent] at hmem
      exact hflag a p ha hpipeline hmem

/-- **A group that has been lent is taken back** if no artifact has been touched meanwhile. -/
theorem Lends.ends_returnGroup (h : Lends depth s id g t) (hsame : t.SameCache u) :
    Ends (returnGroup id g.index u) (fun _ v => TakesBack depth u id g.index v)
      fun _ _ => False := by
  obtain ⟨hcoherent, a, p, q, ha, hp, -, hq, ht⟩ := h
  replace hsame : u.cache = t.cache := hsame
  have hau : u.cache.get? id = some { a with pipeline := some q } := by
    rw [hsame, ht, Cache.get?_update, if_pos rfl, ha]
    rfl
  refine (ends_returnGroup_lent id g.index (by rw [hsame]; exact hcoherent)).mono
    (fun _ _ hv => hv) fun _ v hv => ?_
  refine hv.2 _ hau ?_
  rw [Artifact.lent_of_pipeline rfl]
  exact ((hp.lent hq).2.2 _).2 (.inr rfl)

/-- **A call gives back the group that it has borrowed**, however it ends. -/
theorem ends_runPipelined_lent (found : Lookup) (inputs : List HostBuffer)
    (hs : s.cache.Coherent depth) (hdepth : s.executor.config.pipelineDepth = depth) :
    Ends (runPipelined found inputs s) (fun _ t => s.KeepsLent depth t)
      fun _ t => s.KeepsLent depth t := by
  have hacquire := (ends_acquireGroup_lent found.artifact hs hdepth).and
    (keeps_acquireGroup (T := ExecState.Later) found.artifact s)
  unfold runPipelined
  rw [ends_bind]
  refine hacquire.mono (fun group t ht => ?_) fun e t ht => ht.1.same
  obtain ⟨hlends, hlater⟩ := ht
  -- What the call does in between touches no artifact.
  have hrest : ∀ (result : Except Error Report) (u : ExecState), t.Later u → t.SameCache u →
      Ends ((do
        returnGroup found.artifact group.index
        ofExcept result) u) (fun _ v => s.KeepsLent depth v) fun _ v => s.KeepsLent depth v := by
    intro result u hlater' hsame
    rw [ends_bind]
    refine ((hlends.ends_returnGroup hsame).and
      (keeps_returnGroup (T := ExecState.Later) found.artifact group.index u)).mono
      (fun _ v hv => ?_) fun _ v hv => hv.1.elim
    obtain ⟨⟨hv, b, p', r, hb, hp', hr, hcache⟩, hlater''⟩ := hv
    obtain ⟨hcoherent, a, p, q, ha, hp, hlent, hq, ht⟩ := hlends
    have hu : u.cache = t.cache := hsame
    have hat : t.cache.get? found.artifact = some { a with pipeline := some q } := by
      rw [ht, Cache.get?_update, if_pos rfl, ha]
      rfl
    rw [hu, hat] at hb
    obtain rfl := Option.some.inj hb
    obtain rfl := Option.some.inj hp'
    have hkept : s.KeepsLent depth v := by
      refine ⟨fun _ => hv, ((hlater.trans hlater').trans hlater'').platform.nextArtifact,
        fun j c hc => .inl ?_⟩
      rw [hcache, hu, ht, Cache.update_update, Cache.get?_update, ha] at hc
      split at hc
      · rename_i hj
        obtain rfl := Option.some.inj hc
        refine ⟨a, hj ▸ ha, (Artifact.lent_of_pipeline rfl).trans ?_⟩
        rw [← hlent]
        exact hp.lent_returned hq hr
      · exact ⟨c, hc, rfl⟩
    rw [ends_ofExcept]
    exact ⟨fun _ _ => hkept, fun _ _ => hkept⟩
  rw [ends_bind, ends_observe]
  exact ((keeps_runOnGroup (T := ExecState.Later) found group inputs t).and
    (keeps_runOnGroup (T := SameCache) found group inputs t)).mono
    (fun r u hu => hrest (.ok r) u hu.1 hu.2) fun e u hu => hrest (.error e) u hu.1 hu.2

/-- **Running** lends nothing for good. -/
theorem ends_runFound_lent (found : Lookup) (inputs : List HostBuffer)
    (hs : s.cache.Coherent depth) (hdepth : s.executor.config.pipelineDepth = depth) :
    Ends (runFound found inputs s) (fun _ t => s.KeepsLent depth t)
      fun _ t => s.KeepsLent depth t := by
  -- After the run no group changes hands.
  have hend : ∀ (report : Report) (t : ExecState), s.KeepsLent depth t → Ends ((do
      invalidateOutputs
      count fun c => { c with executions := c.executions + 1 }
      return report) t) (fun _ u => s.KeepsLent depth u) fun _ u => s.KeepsLent depth u := by
    intro report t ht
    have hkeeps : Keeps (KeepsLent depth) (do
        invalidateOutputs
        count fun c => { c with executions := c.executions + 1 }
        return report) :=
      keeps_invalidateOutputs.bind fun _ =>
        (keeps_count (by intro; rfl) (by intro; rfl)).bind fun _ =>
        keeps_pure report
    exact (hkeeps t).mono (fun _ _ hu => ht.trans hu) fun _ _ hu => ht.trans hu
  have hrun : Ends ((do
      prepareOutputs found.executable.function.results
      let report ← if (← kind).isPipelined then runPipelined found inputs
        else runOnSlots found inputs
      invalidateOutputs
      count fun c => { c with executions := c.executions + 1 }
      return report) s) (fun _ u => s.KeepsLent depth u) fun _ u => s.KeepsLent depth u := by
    rw [ends_bind]
    refine ((keeps_prepareOutputs (T := KeepsLent depth) found.executable.function.results s).and
      (keeps_prepareOutputs (T := ExecState.Later) found.executable.function.results s)).mono
      (fun _ t ht => ?_) fun _ _ ht => ht.1
    obtain ⟨hkeeps, hlater⟩ := ht
    rw [ends_bind, ends_kind]
    split
    · exact ends_bind.2 ((ends_runPipelined_lent found inputs (hkeeps.coherent hs)
        (by rw [hlater.config]; exact hdepth)).mono (fun r u hu => hend r u (hkeeps.trans hu))
        fun _ _ hu => hkeeps.trans hu)
    · exact ends_bind.2 ((keeps_runOnSlots (T := KeepsLent depth) found inputs t).mono
        (fun r u hu => hend r u (hkeeps.trans hu)) fun _ _ hu => hkeeps.trans hu)
  unfold runFound
  dsimp only
  split
  · rw [ends_bind, ends_fail]
    exact .of_cache_eq rfl (Nat.le_refl _)
  · exact hrun

end ExecM

end TensorJit
