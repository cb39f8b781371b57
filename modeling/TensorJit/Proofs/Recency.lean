import Mathlib.Data.List.Nodup
import TensorJit.Proofs.CacheHit

/-!
# The cache keeps what was used last

The signatures that an executor has found or compiled an executable for are its history
(`Process.asked` for `Request.lookup?`), and its cache is a function of it: **the signatures in the
cache are the latest different ones of the history, as many as the cache is deep**, in the order of
their last use (`cache_order_eq_recent`). A call that fails after its executable has been found
counts, one that fails before does not.

The proof goes along the run. What is found is moved to the front or is put there, and in the
second case the last member goes if there are too many; both agree with what happens to the latest
different members of a list when something is put in front of it (`recent_cons_of_mem`,
`recent_cons_of_notMem`).
-/

namespace TensorJit

/-! ### The latest different members of a list -/

section Recent

variable {α : Type} [BEq α] [LawfulBEq α]

/-- Duplicates may be removed before or after a selection. -/
theorem eraseDups_filter (p : α → Bool) (l : List α) :
    (l.filter p).eraseDups = l.eraseDups.filter p := by
  -- Removing the duplicates of the head shortens the tail, so the induction is on the length.
  induction hn : l.length using Nat.strongRecOn generalizing l with
  | ind n ih =>
    cases l with
    | nil => rfl
    | cons a rest =>
      have hshort : (rest.filter fun b => !b == a).length < n := by
        have := List.length_filter_le (fun b => !b == a) rest
        rw [List.length_cons] at hn
        omega
      have hrest := ih _ hshort (rest.filter fun b => !b == a) rfl
      rw [List.filter_filter, List.filter_congr (fun b _ => Bool.and_comm _ _),
        ← List.filter_filter] at hrest
      rw [List.eraseDups_cons, List.filter_cons, List.filter_cons]
      split
      · rw [List.eraseDups_cons, hrest]
      · rename_i hp
        have hout : (rest.filter p).filter (fun b => !b == a) = rest.filter p := by
          refine List.filter_eq_self.2 fun b hb => ?_
          have hpb := (List.mem_filter.1 hb).2
          simp only [Bool.not_eq_eq_eq_not, Bool.not_true, beq_eq_false_iff_ne]
          rintro rfl
          exact hp hpb
        rw [← hrest, hout]

theorem nodup_eraseDups (l : List α) : l.eraseDups.Nodup := by
  induction hn : l.length using Nat.strongRecOn generalizing l with
  | ind n ih =>
    cases l with
    | nil => exact List.nodup_nil
    | cons a rest =>
      have hshort : (rest.filter fun b => !b == a).length < n := by
        have := List.length_filter_le (fun b => !b == a) rest
        rw [List.length_cons] at hn
        omega
      rw [List.eraseDups_cons, List.nodup_cons]
      refine ⟨fun h => ?_, ih _ hshort _ rfl⟩
      simpa using List.mem_filter.1 (List.mem_eraseDups.1 h)

/-- A new first member takes the place of the later one. -/
theorem eraseDups_cons_eq_erase (a : α) (l : List α) :
    (a :: l).eraseDups = a :: l.eraseDups.erase a := by
  rw [List.eraseDups_cons, eraseDups_filter, (nodup_eraseDups l).erase_eq_filter]
  rfl

theorem eraseDups_of_nodup {l : List α} (h : l.Nodup) : l.eraseDups = l := by
  induction l with
  | nil => rfl
  | cons a rest ih =>
    obtain ⟨hnotMem, hrest⟩ := List.nodup_cons.1 h
    rw [eraseDups_cons_eq_erase, ih hrest, List.erase_of_not_mem hnotMem]

/-- The first `depth` different members of a list. -/
def recent (depth : Nat) (l : List α) : List α := l.eraseDups.take depth

variable {depth : Nat} {a : α} {l : List α}

/-- A member that is put in front once more moves there. -/
theorem recent_cons_of_mem (h : a ∈ recent depth l) :
    recent depth (a :: l) = a :: (recent depth l).erase a := by
  unfold recent at h ⊢
  cases depth with
  | zero => simp at h
  | succ d =>
    rw [eraseDups_cons_eq_erase, List.take_succ_cons]
    congr 1
    conv_lhs => rw [← List.take_append_drop (d + 1) l.eraseDups, List.erase_append_left _ h]
    have hlength := List.length_erase_of_mem h
    rw [List.length_take] at hlength
    rcases Nat.lt_or_ge d l.eraseDups.length with hlt | hge
    · exact List.take_left' (by omega)
    · rw [List.drop_of_length_le (by omega), List.append_nil, List.take_of_length_le (by omega)]

/-- Any other takes the place of the last one, if there are as many as there may be. -/
theorem recent_cons_of_notMem (h : a ∉ recent depth l) (hd : 1 ≤ depth) :
    recent depth (a :: l) =
      a :: if depth ≤ (recent depth l).length then (recent depth l).dropLast
        else recent depth l := by
  unfold recent at h ⊢
  obtain ⟨d, rfl⟩ : ∃ d, depth = d + 1 := ⟨depth - 1, by omega⟩
  rw [eraseDups_cons_eq_erase, List.take_succ_cons]
  congr 1
  rcases Nat.lt_or_ge d l.eraseDups.length with hlt | hge
  · rw [if_pos (by rw [List.length_take]; omega), List.dropLast_eq_take, List.take_take]
    conv_lhs => rw [← List.take_append_drop (d + 1) l.eraseDups, List.erase_append_right _ h]
    rw [List.take_append_of_le_length (by rw [List.length_take]; omega), List.take_take,
      List.length_take]
    congr 1
    omega
  · rw [List.take_of_length_le (by omega : l.eraseDups.length ≤ d + 1)] at h ⊢
    rw [if_neg (by omega), List.erase_of_not_mem h, List.take_of_length_le hge]

end Recent

/-! ### The order of the signatures -/

theorem Cache.touch_of_mem {σ : Signature} {order : List Signature} (h : σ ∈ order) :
    Cache.touch σ order = σ :: order.erase σ := by
  unfold Cache.touch
  split
  · rename_i hhead
    cases order with
    | nil => cases hhead
    | cons τ rest =>
      obtain rfl : τ = σ := Option.some.inj hhead
      rw [List.erase_cons_head]
  · rfl

/-- **One look-up** puts its signature in front of the history. -/
theorem ExecM.Found.order_eq_recent {s t : ExecState} {computed : Signature.Computed} {l : Lookup}
    {a : Artifact} {history : List Signature} (hfound : Found s computed l a t)
    (hcache : s.cache.Consistent) (h : s.cache.order = recent s.cache.depth history) :
    t.cache.order = recent s.cache.depth (l.signature :: history) := by
  rw [hfound.order, hfound.signature]
  have hhit := hfound.hit
  cases hl : l.hit with
  | true =>
    have hmem : computed.signature ∈ s.cache.order := hhit.1 hl
    rw [if_pos rfl, Cache.touch_of_mem hmem, h]
    exact (recent_cons_of_mem (h ▸ hmem)).symm
  | false =>
    have hnot : computed.signature ∉ s.cache.order := fun hmem => by
      rw [hhit.2 hmem] at hl
      cases hl
    have hfull : s.cache.isFull = true ↔ s.cache.depth ≤ s.cache.order.length := by
      unfold Cache.isFull
      rw [decide_eq_true_iff, hcache.size_eq]
    rw [if_neg Bool.false_ne_true, recent_cons_of_notMem (h ▸ hnot) hcache.depth_pos, ← h]
    exact congrArg (computed.signature :: ·) (if_congr hfull rfl rfl)

/-- An artifact stays that of its signature for as long as the signature is listed. -/
theorem Request.Leads.peek?_eq {r : Request} {s t : ExecState} (h : r.Leads s t)
    (hcache : s.cache.Consistent) {σ : Signature} (hs : σ ∈ s.cache.order)
    (ht : σ ∈ t.cache.order) : t.cache.peek? σ = s.cache.peek? σ := by
  rcases h with ⟨-, -, hsame⟩ | ⟨inputs, computed, l, a, u, -, -, -, hfound, -, hsame⟩
  · unfold Cache.peek?
    rw [hsame.index]
  · rw [hsame.order] at ht
    obtain ⟨id, hid⟩ := Option.isSome_iff_exists.1 ((hfound.consistent.listed σ).1 ht)
    obtain ⟨b, hb, hσ⟩ := hfound.consistent.indexed σ id hid
    have hbefore : s.cache.get? id = some b := by
      by_cases hl : id = l.artifact
      · -- The artifact that was found has this signature, so it was a hit.
        subst hl
        obtain rfl : a = b := Option.some.inj (hfound.found.symm.trans hb)
        refine hfound.before (hfound.hit.2 ?_)
        rwa [← hfound.signature_eq, hσ]
      · exact hfound.old id b hl hb
    have hindex := (hcache.kept id b hbefore).2
    rw [hσ] at hindex
    unfold Cache.peek?
    rw [hsame.index, hid, hindex]

/-- What has been found is there afterwards, under an identity that is in use. -/
theorem Request.Leads.of_lookup? {P : List Tensor → Prop} {r : Request} {s t : ExecState}
    {l : Lookup} (h : r.Leads s t) (hs : Compiled P s) (hl : r.lookup? s = some l) :
    t.cache.peek? l.signature = some l.artifact ∧ l.artifact < t.platform.nextArtifact := by
  rcases h with ⟨hnone, -, -⟩ | ⟨inputs, computed, l', a, u, hl', -, -, hfound, hlater, hsame⟩
  · rw [hnone] at hl
    cases hl
  · obtain rfl := Option.some.inj (hl.symm.trans hl')
    have hnext := hlater.platform.nextArtifact
    constructor
    · unfold Cache.peek?
      rw [hsame.index, hfound.signature, ← hfound.signature_eq]
      exact (hfound.consistent.kept _ _ hfound.found).2
    · cases hhit : l.hit with
      | true =>
        exact Nat.lt_of_lt_of_le (hs.issued _ a (hfound.before hhit))
          (Nat.le_trans hfound.later.platform.nextArtifact hnext)
      | false =>
        obtain ⟨hid, hissued, -⟩ := hfound.made hhit
        rw [hid]
        exact Nat.lt_of_lt_of_le (by rw [hissued]; exact Nat.lt_succ_self _) hnext

namespace Process

/-- The cache of an executor lists a signature. -/
def Lists (k : Nat) (σ : Signature) (w : Process) : Prop :=
  ∃ e, w.executors[k]? = some e ∧ σ ∈ e.cache.order

/-- The artifact that an executor has for a signature. -/
def artifactOf (k : Nat) (σ : Signature) (w : Process) : Option ArtifactId :=
  w.executors[k]?.bind fun e => e.cache.peek? σ

/-- **The order of an executor's signatures**, in every process. -/
theorem order_eq_recent (commands : List Command) {k : Nat} {e : Executor}
    (he : (empty.run commands).executors[k]? = some e) :
    e.cache.order = recent e.cache.depth ((asked Request.lookup? k empty commands).map (·.signature)) := by
  induction commands using List.reverseRecOn generalizing e with
  | nil => cases he
  | append_singleton rest c ih =>
    rw [run_concat] at he
    rw [asked_concat]
    rcases executor_step (fun o r e _ he => r.ends_perform (compiled_run rest o he)) he with
      ⟨hold, hother⟩ | ⟨o, r, e₀, s, rfl, hold, -, rfl, hleads⟩ | ⟨r, rfl, hk, hbuilt⟩
    · rw [Command.asked?_eq_none hother]
      exact ih hold
    · rw [Command.asked?_ask hold]
      rcases hleads with ⟨hnone, -, hsame⟩ | ⟨inputs, computed, l, a, u, hl, -, -, hfound, -, hsame⟩
      · rw [hnone, show s.executor.cache.order = e₀.cache.order from hsame.order,
          show s.executor.cache.depth = e₀.cache.depth from hsame.depth]
        exact ih hold
      · rw [hl, show s.executor.cache.order = u.cache.order from hsame.order,
          show s.executor.cache.depth = e₀.cache.depth from hsame.depth.trans hfound.later.depth]
        exact hfound.order_eq_recent (compiled_run rest o hold).consistent (ih hold)
    · have hnil : asked Request.lookup? k empty rest = [] :=
        asked_eq_nil rest (List.getElem?_eq_none_iff.2 (Nat.le_of_eq hk.symm))
      rw [hnil, hbuilt.cache]
      exact List.take_nil.symm

/-- **An artifact stays that of its signature** for as long as the signature is listed. -/
theorem artifactOf_run (commands more : List Command) {k : Nat} {σ : Signature}
    (hlists : Admits (fun w _ => w.Lists k σ) (empty.run commands) more)
    (hlast : ((empty.run commands).run more).Lists k σ) :
    ((empty.run commands).run more).artifactOf k σ = (empty.run commands).artifactOf k σ := by
  induction more generalizing commands with
  | nil => rfl
  | cons c rest ih =>
    obtain ⟨hfirst, hrest⟩ := hlists
    have hnext : ((empty.run commands).step c).Lists k σ := by
      cases rest with
      | nil => exact hlast
      | cons d rest => exact hrest.1
    rw [← run_concat] at hrest
    have hstep := ih (commands ++ [c]) hrest (by rw [run_concat]; exact hlast)
    rw [run_concat] at hstep
    refine hstep.trans ?_
    obtain ⟨e, he, hσ⟩ := hfirst
    obtain ⟨e', he', hσ'⟩ := hnext
    unfold artifactOf
    rw [he, he', Option.bind_some, Option.bind_some]
    rcases executor_step (fun o r e _ he => r.ends_perform (compiled_run commands o he)) he' with
      ⟨hold, -⟩ | ⟨o, r, e₀, s, -, hold, -, rfl, hleads⟩ | ⟨r, -, hk, -⟩
    · rw [Option.some.inj (he.symm.trans hold)]
    · obtain rfl := Option.some.inj (he.symm.trans hold)
      exact hleads.peek?_eq (compiled_run commands o hold).consistent hσ hσ'
    · rw [List.getElem?_eq_none_iff.2 (Nat.le_of_eq hk.symm)] at he
      cases he

/-- The identity of what has been found is in use. -/
theorem artifact_lt_of_mem_asked (commands : List Command) {k : Nat} {l : Lookup}
    (hl : l ∈ asked Request.lookup? k empty commands) :
    l.artifact < (empty.run commands).platform.nextArtifact := by
  induction commands using List.reverseRecOn with
  | nil => cases hl
  | append_singleton rest c ih =>
    rw [asked_concat] at hl
    rw [run_concat]
    have hgrows := ((empty.run rest).grows_step c).nextArtifact
    rcases List.mem_append.1 hl with hl | hl
    · cases hlookup : c.asked? Request.lookup? k (empty.run rest) with
      | none =>
        rw [hlookup] at hl
        cases hl
      | some l' =>
        rw [hlookup] at hl
        obtain rfl : l = l' := by simpa using hl
        obtain ⟨o, r, rfl, e, he, hr⟩ := Command.asked?_eq_some hlookup
        obtain ⟨s, hput, hleads⟩ := put_of_ends he (r.ends_perform (compiled_run rest o he))
        rw [hput]
        exact (hleads.of_lookup? (compiled_run rest o he) hr).2
    · exact Nat.lt_of_lt_of_le (ih hl) hgrows

end Process

/-- **The cache keeps what was used last.** In every process, the signatures in the cache of an
executor are the latest different ones for which an executable was found or compiled, in the order
of their last use, and as many as the cache is deep. What is found next is a hit exactly when its
signature is one of them. An artifact stays that of its signature until the signature leaves the
list, and what is compiled gets an identity that nothing had that any executor found before. -/
theorem cache_order_eq_recent (commands : List Command) (k : Nat) (e : Executor)
    (he : (Process.empty.run commands).executors[k]? = some e) :
    e.cache.order = recent e.config.cacheDepth
      ((Process.asked Request.lookup? k .empty commands).map (·.signature)) ∧
    e.cache.size = e.cache.order.length ∧
    (∀ (o : Nat) (r : Request) (l : Lookup),
      r.lookup? ((Process.empty.run commands).stateOf e o) = some l →
        (∃ inputs computed, r.inputs? = some inputs ∧ Signature.compute e.statics
          (inputs.map (Process.empty.run commands).platform.memory.read) = .ok computed ∧
          l.signature = computed.signature) ∧
        (l.hit = true ↔ l.signature ∈ e.cache.order) ∧
        ((Process.empty.run commands).step (.ask k o r)).artifactOf k l.signature =
          some l.artifact ∧
        (l.hit = false → ∀ j, ∀ l' ∈ Process.asked Request.lookup? j .empty commands,
          l'.artifact ≠ l.artifact) ∧
        ∀ answer, ((Process.empty.run commands).ask k o r).1 = some (.ok answer) →
          answer.summary? = some l.summary) ∧
    ∀ (more : List Command) (σ : Signature),
      Process.Admits (fun w _ => w.Lists k σ) (Process.empty.run commands) more →
      ((Process.empty.run commands).run more).Lists k σ →
      ((Process.empty.run commands).run more).artifactOf k σ =
        (Process.empty.run commands).artifactOf k σ := by
  have hcompiled := fun o => compiled_run commands o he
  refine ⟨?_, (hcompiled 0).consistent.size_eq, fun o r l hl => ?_,
    fun more σ => Process.artifactOf_run commands more⟩
  · rw [Process.order_eq_recent commands he, (Process.depth_of_run commands he).1]
  · obtain ⟨inputs, computed, a, u, hinputs, hcompute, hfound⟩ :=
      r.found_of_lookup?_eq (hcompiled o) hl
    obtain ⟨s, hput, hs⟩ := Process.ask_of_ends he
      ((r.ends_perform (hcompiled o)).and (r.ends_summary ((Process.empty.run commands).stateOf e o)))
    -- Whatever comes of the request, its lookup leads to the same artifact.
    have hleads : r.Leads ((Process.empty.run commands).stateOf e o) s := by
      rcases hs with ⟨-, -, hs, -⟩ | ⟨-, -, hs, -⟩
      · exact hs
      · exact hs
    refine ⟨⟨inputs, computed, hinputs, hcompute, hfound.signature⟩, ?_, ?_, fun hmiss j l' hl' => ?_,
      fun answer hanswer => ?_⟩
    · rw [hfound.signature]
      exact hfound.hit
    · have hlt := (List.getElem?_eq_some_iff.1 he).1
      change ((Process.empty.run commands).ask k o r).2.artifactOf k l.signature = _
      rw [hput]
      change ((Process.empty.run commands).executors.set k s.executor)[k]?.bind _ = _
      rw [List.getElem?_set_self hlt, Option.bind_some]
      exact (hleads.of_lookup? (hcompiled o) hl).1
    · rw [(hfound.made hmiss).1]
      exact Nat.ne_of_lt (Process.artifact_lt_of_mem_asked commands hl')
    · rcases hs with ⟨answer', hanswer', -, hsummary⟩ | ⟨error, herror, -⟩
      · rw [hanswer'] at hanswer
        cases hanswer
        rw [hsummary, hl]
        rfl
      · rw [herror] at hanswer
        cases hanswer

/-- An executor with a cache for two artifacts is asked for the sums of one, two, one and three
numbers; the last of these compiles only when it is asked for once more. -/
def threeSums : List Command :=
  [.register "host" (.recording .host) none,
    .build { BuildRequest.sampleSum with config := some { Config.standard with cacheDepth := 2 } },
    .ask 0 0 (.getExecutable (pairOf 1)), .ask 0 0 (.getExecutable (pairOf 2)),
    .ask 0 0 (.getExecutable (pairOf 1)), .inject 0 ⟨true, false, false⟩,
    .ask 0 0 (.getExecutable (pairOf 3)), .ask 0 0 (.getExecutable (pairOf 3))]

/-- The sum of two numbers has gone, since the sum of one was used after it. -/
theorem order_of_threeSums : ∃ e, (Process.empty.run threeSums).executors[0]? = some e ∧
    ((Process.asked Request.lookup? 0 .empty threeSums).map (·.signature)) =
      ["3,;3,;/", "1,;1,;/", "2,;2,;/", "1,;1,;/"] ∧
    e.cache.order = ["3,;3,;/", "1,;1,;/"] := by
  obtain ⟨e, he⟩ := Option.isSome_iff_exists.1
    (show ((Process.empty.run threeSums).executors[0]?).isSome = true from by decide +kernel)
  have hdepth : ((Process.empty.run threeSums).executors[0]?.map (·.config.cacheDepth)) =
    some 2 := by decide +kernel
  rw [he] at hdepth
  have hhistory : ((Process.asked Request.lookup? 0 .empty threeSums).map (·.signature)) =
      ["3,;3,;/", "1,;1,;/", "2,;2,;/", "1,;1,;/"] := by decide +kernel
  have horder := (cache_order_eq_recent threeSums 0 e he).1
  rw [hhistory, show e.config.cacheDepth = 2 from Option.some.inj hdepth] at horder
  exact ⟨e, he, hhistory, horder.trans (by decide +kernel)⟩

end TensorJit
