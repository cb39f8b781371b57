import TensorJit.Proofs.Executor.Call

/-!
# Which output buffers are kept

Output buffers are made ready for one list of results after another, and taken away in between.
**A position keeps its buffer exactly if it had one with the spec that is asked for**; every other
position gets a buffer that is all zero and that has never stood at any position, also not in
buffers that have been taken away. So no two positions ever share a buffer, and buffers that are
ready stay as they are.

Between the calls anything may happen to memory: buffers are written, others are made. What carries
the argument is that storages are given out in order, so that what has stood at a position is below
whatever is made later (`OutputBuffers.Recorded`).
-/

namespace TensorJit

namespace OutputBuffers

variable {buffers : List HostBuffer} {specs : List TensorSpec} {spec : TensorSpec} {m : Memory}
  {b : HostBuffer}

/-! ### Making buffers ready once -/

/-- The first buffer is kept. -/
theorem refit_of_kept (hkept : buffers.head?.filter (·.spec = spec) = some b) :
    refit buffers (spec :: specs) m =
      ((b :: (refit buffers.tail specs m).1.1, (refit buffers.tail specs m).1.2),
        (refit buffers.tail specs m).2) := by
  conv_lhs => unfold refit
  rw [hkept]
  rfl

/-- The first buffer is replaced, and the rest is made ready in later storages. -/
theorem refit_of_new (hnone : buffers.head?.filter (·.spec = spec) = none) :
    refit buffers (spec :: specs) m =
      ((⟨spec, m.storages.size⟩ :: (refit buffers.tail specs (m.allocate (.zeros spec)).2).1.1,
        (refit buffers.tail specs (m.allocate (.zeros spec)).2).1.2 + 1),
        (refit buffers.tail specs (m.allocate (.zeros spec)).2).2) := by
  conv_lhs => unfold refit
  rw [hnone]
  rfl

/-- What a position has been given: the buffer that it had, if that has the right spec, or a new
one. -/
inductive Given (old : Option HostBuffer) (m m' : Memory) (b : HostBuffer) : Prop where
  /-- The buffer that it had. -/
  | kept (hold : old = some b)
  /-- A new buffer, since the position had none with the spec. -/
  | new (hold : old.map (·.spec) ≠ some b.spec) (hlater : m.storages.size ≤ b.storage)
      (hread : m'.read b = .zeros b.spec)

/-- A new buffer for the first result is all zero in the end. -/
theorem given_first (hnone : buffers.head?.filter (·.spec = spec) = none) :
    Given buffers[0]? m (refit buffers (spec :: specs) m).2 ⟨spec, m.storages.size⟩ := by
  have hsize : (m.allocate (.zeros spec)).2.storages.size = m.storages.size + 1 :=
    Memory.size_storages_allocate m _
  have hrest := refitted buffers.tail specs (m.allocate (.zeros spec)).2
  rw [refit_of_new hnone]
  refine .new (fun hmap => ?_) (Nat.le_refl _) (congrArg (Tensor.mk spec) ?_)
  · obtain ⟨c, hc, hspec⟩ := Option.map_eq_some_iff.1 hmap
    rw [← List.head?_eq_getElem?] at hc
    exact Option.filter_eq_none_iff.1 hnone c hc (decide_eq_true hspec)
  · refine (hrest.storages m.storages.size ?_).trans (m.storage_allocate_size _)
    rw [hsize]
    exact Nat.lt_succ_self _

/-- **What each position is given**, by induction on the results. -/
theorem given_refit (buffers : List HostBuffer) (specs : List TensorSpec) (m : Memory)
    {position : Nat} (hb : (refit buffers specs m).1.1[position]? = some b) :
    Given buffers[position]? m (refit buffers specs m).2 b := by
  induction specs generalizing buffers m position with
  | nil => cases hb
  | cons spec specs ih =>
    cases hkept : buffers.head?.filter (·.spec = spec) with
    | some kept =>
      rw [refit_of_kept hkept] at hb ⊢
      cases position with
      | zero =>
        cases hb
        rw [← List.head?_eq_getElem?]
        exact .kept (Option.filter_eq_some_iff.1 hkept).1
      | succ position =>
        rw [← List.getElem?_tail]
        exact ih buffers.tail m hb
    | none =>
      cases position with
      | zero =>
        rw [refit_of_new hkept] at hb
        cases hb
        exact given_first hkept
      | succ position =>
        have hsize : (m.allocate (.zeros spec)).2.storages.size = m.storages.size + 1 :=
          Memory.size_storages_allocate m _
        rw [refit_of_new hkept] at hb ⊢
        rw [← List.getElem?_tail]
        cases ih buffers.tail (m.allocate (.zeros spec)).2 hb with
        | kept hold => exact .kept hold
        | new hold hlater hread =>
          rw [hsize] at hlater
          exact .new hold (Nat.le_of_succ_le hlater) hread

/-- **The new buffers are counted**, those whose storage is later than all that there were. -/
theorem count_refit (specs : List TensorSpec) {buffers : List HostBuffer} {m : Memory}
    (hlive : ∀ b ∈ buffers, b.storage < m.storages.size) :
    (refit buffers specs m).1.2 =
      (refit buffers specs m).1.1.countP fun b => m.storages.size ≤ b.storage := by
  induction specs generalizing buffers m with
  | nil => rfl
  | cons spec specs ih =>
    have htail : ∀ b ∈ buffers.tail, b.storage < m.storages.size := fun b hb =>
      hlive b (List.mem_of_mem_tail hb)
    cases hkept : buffers.head?.filter (·.spec = spec) with
    | some kept =>
      have hlt := hlive kept (List.mem_of_head? (Option.filter_eq_some_iff.1 hkept).1)
      rw [refit_of_kept hkept]
      refine (ih htail).trans (List.countP_cons_of_neg ?_).symm
      exact fun hle => Nat.not_le_of_lt hlt (of_decide_eq_true hle)
    | none =>
      have hsize : (m.allocate (.zeros spec)).2.storages.size = m.storages.size + 1 :=
        Memory.size_storages_allocate m _
      have hlater : ∀ b ∈ buffers.tail,
          b.storage < (m.allocate (.zeros spec)).2.storages.size := fun b hb => by
        rw [hsize]
        exact Nat.lt_succ_of_lt (htail b hb)
      rw [refit_of_new hkept, List.countP_cons, ih hlater, if_pos (decide_eq_true (Nat.le_refl _))]
      refine congrArg (· + 1) (List.countP_congr fun b hb => ?_)
      -- No later buffer is in the storage that has just been made.
      have horigin := (refitted buffers.tail specs (m.allocate (.zeros spec)).2).origin b hb
      rw [decide_eq_true_iff, decide_eq_true_iff, hsize]
      rcases horigin with hold | ⟨hge, -⟩
      · exact ⟨Nat.le_of_succ_le, fun hle => absurd hle (Nat.not_le_of_lt (htail b hold))⟩
      · rw [hsize] at hge
        omega

/-- **Nothing is written** but what the buffers are in the end. -/
theorem storage_refit (specs : List TensorSpec) {buffers : List HostBuffer} {m : Memory}
    {j : StorageId} (h : ∀ b ∈ (refit buffers specs m).1.1, b.storage ≠ j) :
    (refit buffers specs m).2.storage j = m.storage j := by
  induction specs generalizing buffers m with
  | nil => rfl
  | cons spec specs ih =>
    cases hkept : buffers.head?.filter (·.spec = spec) with
    | some kept =>
      rw [refit_of_kept hkept] at h ⊢
      exact ih fun b hb => h b (List.mem_cons_of_mem _ hb)
    | none =>
      rw [refit_of_new hkept] at h ⊢
      refine (ih fun b hb => h b (List.mem_cons_of_mem _ hb)).trans (m.storage_allocate_of_ne _ ?_)
      exact Ne.symm (h _ List.mem_cons_self)

/-- **Buffers that are ready stay as they are.** -/
theorem refit_self (buffers : List HostBuffer) (m : Memory) :
    refit buffers (buffers.map (·.spec)) m = ((buffers, 0), m) := by
  induction buffers with
  | nil => rfl
  | cons b buffers ih =>
    have hkept : (b :: buffers).head?.filter (·.spec = b.spec) = some b :=
      Option.filter_eq_some_iff.2 ⟨rfl, decide_eq_true rfl⟩
    rw [List.map_cons, refit_of_kept hkept, List.tail_cons, ih]

/-! ### Making buffers ready again and again -/

/-- The output buffers and memories that can come of making ready and taking away, with the storages
of all buffers that have been handed out. -/
inductive Reached : List StorageId → OutputBuffers → Memory → Prop where
  /-- No buffers as yet. -/
  | start (m : Memory) : Reached [] .empty m
  /-- Buffers are made ready. -/
  | prepared {seen : List StorageId} {o : OutputBuffers} {m : Memory} (h : Reached seen o m)
      (specs : List TensorSpec) :
      Reached ((o.prepare specs m).1.2.buffers.map (·.storage) ++ seen) (o.prepare specs m).1.2
        (o.prepare specs m).2
  /-- The buffers are taken away. -/
  | taken {seen : List StorageId} {o : OutputBuffers} {m : Memory} (h : Reached seen o m) :
      Reached seen o.take.2 m
  /-- Memory is used for something else. -/
  | elsewhere {seen : List StorageId} {o : OutputBuffers} {m n : Memory} (h : Reached seen o m)
      (hsize : m.storages.size ≤ n.storages.size) : Reached seen o n

/-- Every buffer has been handed out, what has been handed out exists, and no two positions share a
buffer. -/
structure Recorded (seen : List StorageId) (o : OutputBuffers) (m : Memory) : Prop where
  /-- Every buffer has been handed out. -/
  handed : ∀ b ∈ o.buffers, b.storage ∈ seen
  /-- What has been handed out exists. -/
  live : ∀ storage ∈ seen, storage < m.storages.size
  /-- No two positions share a buffer. -/
  apart : (o.buffers.map (·.storage)).Nodup

variable {seen : List StorageId} {o : OutputBuffers}

theorem prepare_eq (o : OutputBuffers) (specs : List TensorSpec) (m : Memory) :
    o.prepare specs m = (((refit o.buffers specs m).1.2, ⟨(refit o.buffers specs m).1.1⟩),
      (refit o.buffers specs m).2) := rfl

theorem Recorded.lt (h : Recorded seen o m) : ∀ b ∈ o.buffers, b.storage < m.storages.size :=
  fun b hb => h.live _ (h.handed b hb)

/-- **Making buffers ready** keeps the record. -/
theorem Recorded.prepared (h : Recorded seen o m) (specs : List TensorSpec) :
    Recorded ((o.prepare specs m).1.2.buffers.map (·.storage) ++ seen) (o.prepare specs m).1.2
      (o.prepare specs m).2 := by
  have hrefitted := refitted o.buffers specs m
  rw [prepare_eq]
  refine ⟨fun b hb => List.mem_append_left _ (List.mem_map_of_mem hb), fun storage hmem => ?_,
    hrefitted.separate h.lt h.apart⟩
  rcases List.mem_append.1 hmem with hmem | hmem
  · obtain ⟨b, hb, rfl⟩ := List.mem_map.1 hmem
    rcases hrefitted.origin b hb with hold | ⟨-, hlt, -⟩
    · exact Nat.lt_of_lt_of_le (h.lt b hold) hrefitted.size
    · exact hlt
  · exact Nat.lt_of_lt_of_le (h.live storage hmem) hrefitted.size

/-- **Whatever has happened, the record is right**, by induction on it. -/
theorem Reached.recorded (h : Reached seen o m) : Recorded seen o m := by
  induction h with
  | start m => exact ⟨nofun, nofun, List.nodup_nil⟩
  | prepared _ specs ih => exact ih.prepared specs
  | taken _ ih => exact ⟨nofun, ih.live, List.nodup_nil⟩
  | elsewhere _ hsize ih =>
    exact ⟨ih.handed, fun storage hmem => Nat.lt_of_lt_of_le (ih.live storage hmem) hsize, ih.apart⟩

/-- Output buffers after they have been made ready for results with given specs, and how many of
them are said to be new. -/
structure Ready (seen : List StorageId) (o : OutputBuffers) (m : Memory) (specs : List TensorSpec)
    (count : Nat) (o' : OutputBuffers) (m' : Memory) : Prop where
  /-- There is one buffer for each result, in order and with its spec. -/
  specs_eq : o'.buffers.map (·.spec) = specs
  /-- A position keeps its buffer exactly if it had one with the spec. -/
  kept_iff : ∀ (position : Nat) (b : HostBuffer), o'.buffers[position]? = some b →
    (o.buffers[position]? = some b ↔ o.buffers[position]?.map (·.spec) = some b.spec)
  /-- A buffer that is kept keeps its bytes. -/
  bytes : ∀ (position : Nat) (b : HostBuffer), o'.buffers[position]? = some b →
    o.buffers[position]? = some b → m'.read b = m.read b
  /-- One that is not kept is all zero, and has not been handed out before. -/
  new : ∀ (position : Nat) (b : HostBuffer), o'.buffers[position]? = some b →
    o.buffers[position]? ≠ some b → m'.read b = .zeros b.spec ∧ b.storage ∉ seen
  /-- These are counted. -/
  count_eq : count = o'.buffers.countP fun b => b.storage ∉ seen
  /-- No two positions share a buffer. -/
  apart : ∀ (p q : Nat) (b c : HostBuffer), o'.buffers[p]? = some b → o'.buffers[q]? = some c →
    b.storage = c.storage → p = q
  /-- Doing it again does nothing. -/
  again : o'.prepare specs m' = ((0, o'), m')

/-- What has been handed out is exactly what is not later than all there was. -/
theorem Recorded.mem_seen_iff (h : Recorded seen o m) {position : Nat} {b : HostBuffer}
    (hb : (refit o.buffers specs m).1.1[position]? = some b) :
    b.storage ∉ seen ↔ m.storages.size ≤ b.storage := by
  refine ⟨fun hnew => ?_, fun hge hmem => Nat.not_le_of_lt (h.live _ hmem) hge⟩
  cases given_refit o.buffers specs m hb with
  | kept hold => exact absurd (h.handed b (List.mem_of_getElem? hold)) hnew
  | new _ hlater _ => exact hlater

/-- **Buffers are kept where they may be.** Whatever has happened to output buffers, making them
ready leaves one for each result, keeps exactly those that have the right spec with their bytes,
makes the others anew and counts these; no two positions share a buffer, and doing it again does
nothing. -/
theorem kept_exactly (h : Reached seen o m) (specs : List TensorSpec) :
    Ready seen o m specs (o.prepare specs m).1.1 (o.prepare specs m).1.2 (o.prepare specs m).2 := by
  have hrec := h.recorded
  have hrefitted := refitted o.buffers specs m
  have hready := hrec.prepared specs
  rw [prepare_eq] at hready ⊢
  refine ⟨hrefitted.specs_eq, fun position b hb => ?_, fun position b hb hold => ?_,
    fun position b hb hold => ?_, ?_, fun p q b c hb hc hstorage => ?_, ?_⟩
  · refine ⟨fun hold => by rw [hold]; rfl, fun hspec => ?_⟩
    cases given_refit o.buffers specs m hb with
    | kept hold => exact hold
    | new hold _ _ => exact absurd hspec hold
  · have hlt := hrec.lt b (List.mem_of_getElem? hold)
    exact congrArg (Tensor.mk b.spec) (hrefitted.storages b.storage hlt)
  · cases given_refit o.buffers specs m hb with
    | kept hkept => exact absurd hkept hold
    | new _ hlater hread => exact ⟨hread, (hrec.mem_seen_iff hb).2 hlater⟩
  · refine (count_refit specs hrec.lt).trans (List.countP_congr fun b hb => ?_)
    obtain ⟨position, hb⟩ := List.mem_iff_getElem?.1 hb
    rw [decide_eq_true_iff, decide_eq_true_iff]
    exact (hrec.mem_seen_iff hb).symm
  · have hseparate : Separate ⟨(refit o.buffers specs m).1.1⟩ (refit o.buffers specs m).2 :=
      ⟨hready.lt, hready.apart⟩
    exact hseparate.eq_of_storage_eq hb hc hstorage
  · have hself := refit_self (refit o.buffers specs m).1.1 (refit o.buffers specs m).2
    rw [hrefitted.specs_eq] at hself
    rw [prepare_eq, hself]

/-- Buffers for two results, made ready in a memory without storages. -/
def twoReady : (Nat × OutputBuffers) × Memory :=
  empty.prepare [⟨.f32, [1]⟩, ⟨.u8, [2]⟩] .empty

/-- If only the second result changes its spec, the first buffer is kept and the second is new. -/
theorem second_replaced : Reached [0, 1] twoReady.1.2 twoReady.2 ∧
    ∃ o m, twoReady.1.2.prepare [⟨.f32, [1]⟩, ⟨.u8, [3]⟩] twoReady.2 = ((1, o), m) ∧
      o.buffers = [⟨⟨.f32, [1]⟩, 0⟩, ⟨⟨.u8, [3]⟩, 2⟩] ∧ m.storage 2 = [0, 0, 0] := by
  have hreached : Reached [0, 1] twoReady.1.2 twoReady.2 :=
    (Reached.start .empty).prepared [⟨.f32, [1]⟩, ⟨.u8, [2]⟩]
  have hready := kept_exactly hreached [⟨.f32, [1]⟩, ⟨.u8, [3]⟩]
  have hnew := hready.new 1 ⟨⟨.u8, [3]⟩, 2⟩ rfl (by decide)
  exact ⟨hreached, _, _, rfl, rfl, (Tensor.mk.inj hnew.1).2⟩

end OutputBuffers

end TensorJit
