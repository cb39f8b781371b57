import Mathlib.Data.List.Induction
import Mathlib.Logic.Equiv.Basic
import Mathlib.Order.Nat
import TensorJit.Graph.Samples
import TensorJit.Graph.StaticInputs
import TensorJit.Proofs.Graph.Denotation
import TensorJit.Proofs.Lowering

/-!
# Which inputs are static

The analysis of a graph sets one flag for each input in turn, so of several inputs with one index
the last one in the order of nodes decides, and what the others feed is lost
(`static_of_last_input`). Everything else is as one would read it off the graph:

| what | when |
|---|---|
| there is no answer | an input has no integer as index, or a negative one |
| there are so many flags | one more than the greatest index |
| a position is static | its last input feeds a slot that must be known (`Graph.FeedsStatic`) |

**Where the inputs of one index agree, any of them will do**, and then it does not matter how the
graph is listed (`Graph.Relists`). The order of edges never matters.
-/

namespace TensorJit

namespace Graph

variable {g h : Graph} {query : StaticQuery} {arg : Node} {i : Nat}

/-- A data edge takes an output of the node to a slot that must be known. -/
def FeedsStatic (g : Graph) (query : StaticQuery) (arg : Node) : Prop :=
  ∃ e ∈ g.edges, ∃ dst ∈ g.nodes, e.src = arg.id ∧ e.control = false ∧ e.dst = dst.id ∧
    dst.isOp = true ∧ query dst e.dstInput = true

/-- The inputs with an index, in the order of nodes. -/
def argsAt (g : Graph) (i : Nat) : List Node :=
  g.args.filter fun n => n.index.toOption = some i

/-- Of the inputs with an index, all feed slots that must be known, or none does. -/
def InputsAgree (g : Graph) (query : StaticQuery) (i : Nat) : Prop :=
  ∀ m ∈ g.argsAt i, ∀ n ∈ g.argsAt i, g.FeedsStatic query m → g.FeedsStatic query n

/-- The same graph with its nodes and edges listed in another way: the nodes have other numbers, and
edges name them by these. -/
structure Relists (g : Graph) (number : Nat → Nat) (h : Graph) : Prop where
  /-- Different nodes have different numbers. -/
  injective : Function.Injective number
  /-- There are the same nodes. -/
  nodes : (g.nodes.map fun n => { n with id := number n.id }).Perm h.nodes
  /-- There are the same edges. -/
  edges : (g.edges.map fun e => { e with src := number e.src, dst := number e.dst }).Perm h.edges

theorem mem_argsAt : arg ∈ g.argsAt i ↔ arg ∈ g.nodes ∧ arg.isArg = true ∧ arg.index = .ok i := by
  unfold argsAt args
  rw [List.mem_filter, List.mem_filter, decide_eq_true_eq, toOption_eq_some, and_assoc]

/-- There is one input with an index if indices are distinct. -/
theorem IndicesDistinct.eq_of_mem_argsAt (hg : g.IndicesDistinct Node.isArg) {m n : Node}
    (hm : m ∈ g.argsAt i) (hn : n ∈ g.argsAt i) : m = n := by
  obtain ⟨hm, hmarg, hmi⟩ := mem_argsAt.1 hm
  obtain ⟨hn, hnarg, hni⟩ := mem_argsAt.1 hn
  exact List.inj_on_of_nodup_map hg (List.mem_filter.2 ⟨hm, hmarg⟩) (List.mem_filter.2 ⟨hn, hnarg⟩)
    (hmi.trans hni.symm)

/-! ### Another order -/

/-- The inputs with an index are the same. -/
theorem Relists.argsAt {number : Nat → Nat} (hr : g.Relists number h) (i : Nat) :
    ((g.argsAt i).map fun n => { n with id := number n.id }).Perm (h.argsAt i) := by
  have hperm := (hr.nodes.filter Node.isArg).filter fun n => n.index.toOption = some i
  rwa [List.filter_map, List.filter_map] at hperm

/-- **They feed the same slots**, if what must be known does not depend on numbers. -/
theorem Relists.feedsStatic_iff {number : Nat → Nat} (hr : g.Relists number h)
    (hquery : ∀ (n : Node) id slot, query { n with id } slot = query n slot) :
    h.FeedsStatic query { arg with id := number arg.id } ↔ g.FeedsStatic query arg := by
  constructor
  · rintro ⟨e, he, dst, hdst, hsrc, hcontrol, hto, hop, hslot⟩
    obtain ⟨e₀, he₀, rfl⟩ := List.mem_map.1 (hr.edges.mem_iff.2 he)
    obtain ⟨dst₀, hdst₀, rfl⟩ := List.mem_map.1 (hr.nodes.mem_iff.2 hdst)
    exact ⟨e₀, he₀, dst₀, hdst₀, hr.injective hsrc, hcontrol, hr.injective hto, hop,
      (hquery dst₀ _ _).symm.trans hslot⟩
  · rintro ⟨e, he, dst, hdst, hsrc, hcontrol, hto, hop, hslot⟩
    exact ⟨_, hr.edges.mem_iff.1 (List.mem_map_of_mem he), _,
      hr.nodes.mem_iff.1 (List.mem_map_of_mem hdst), congrArg number hsrc, hcontrol,
      congrArg number hto, hop, (hquery dst _ _).trans hslot⟩

end Graph

/-- **When a boundary node has no index.** -/
theorem Node.index_eq_error_iff {n : Node} : (∃ fault, n.index = .error fault) ↔
    ∀ i, n.attrInt? "index" = some i → i < 0 := by
  unfold index
  cases hi : n.attrInt? "index" with
  | none => simp
  | some i =>
    by_cases hneg : i < 0
    · simp [hneg]
    · simp [hneg]

namespace StaticInputs

open TensorJit.Graph (argsAt FeedsStatic)

variable {g : Graph} {query : StaticQuery} {flags : StaticInputs} {arg : Node} {i : Nat}

/-! ### Setting one flag after another -/

section Flags

variable {β : Type} (v : β → Bool)

theorem length_foldl_set (pairs : List (β × Nat)) (flags : List Bool) :
    (pairs.foldl (fun flags a => flags.set a.2 (v a.1)) flags).length = flags.length := by
  induction pairs generalizing flags with
  | nil => rfl
  | cons a rest ih => rw [List.foldl_cons, ih, List.length_set]

/-- **Of several entries for one position the last one stays.** -/
theorem getElem?_foldl_set (pairs : List (β × Nat)) {flags : List Bool} (h : i < flags.length) :
    (pairs.foldl (fun flags a => flags.set a.2 (v a.1)) flags)[i]? =
      ((pairs.filter (·.2 = i)).getLast?.map fun a => v a.1).or flags[i]? := by
  induction pairs using List.reverseRecOn with
  | nil => rfl
  | append_singleton rest a ih =>
    rw [List.foldl_append, List.foldl_cons, List.foldl_nil, List.filter_append]
    by_cases ha : a.2 = i
    · subst ha
      rw [List.getElem?_set_self (by rw [length_foldl_set]; exact h)]
      simp
    · rw [List.getElem?_set_ne ha, ih]
      simp [ha]

/-- There is one flag more than the greatest position. -/
theorem foldl_max_cases (pairs : List (β × Nat)) :
    pairs = [] ∧ pairs.foldl (fun n a => max n (a.2 + 1)) 0 = 0 ∨
      ∃ a ∈ pairs, pairs.foldl (fun n a => max n (a.2 + 1)) 0 = a.2 + 1 := by
  induction pairs using List.reverseRecOn with
  | nil => exact .inl ⟨rfl, rfl⟩
  | append_singleton rest b ih =>
    rw [List.foldl_append, List.foldl_cons, List.foldl_nil]
    rcases Nat.le_total (rest.foldl (fun n a => max n (a.2 + 1)) 0) (b.2 + 1) with hle | hle
    · exact .inr ⟨b, by simp, Nat.max_eq_right hle⟩
    · rcases ih with ⟨-, hzero⟩ | ⟨a, ha, hmax⟩
      · omega
      · exact .inr ⟨a, by simp [ha], by omega⟩

end Flags

/-! ### The analysis -/

/-- The nodes of a list, each with its index. -/
theorem mapM_index_eq_ok_iff {nodes : List Node} {pairs : List (Node × Nat)} :
    nodes.mapM (fun n => return (n, ← n.index)) = .ok pairs ↔
      pairs.map (·.1) = nodes ∧ ∀ a ∈ pairs, a.1.index = .ok a.2 := by
  have hpair : ∀ {n : Node} {a : Node × Nat},
      (do return (n, ← n.index) : Except GraphFault (Node × Nat)) = .ok a ↔
        a.1 = n ∧ a.1.index = .ok a.2 := by
    intro n a
    rw [except_bind_eq_ok]
    constructor
    · rintro ⟨i, hi, ha⟩
      obtain rfl := Except.ok.inj ha
      exact ⟨rfl, hi⟩
    · rintro ⟨rfl, hi⟩
      exact ⟨a.2, hi, rfl⟩
  rw [except_mapM_eq_ok]
  induction nodes generalizing pairs with
  | nil =>
    rw [List.forall₂_nil_left_iff, List.map_eq_nil_iff]
    refine ⟨fun h => ⟨h, ?_⟩, And.left⟩
    rw [h]
    exact fun _ ha => absurd ha List.not_mem_nil
  | cons n rest ih =>
    cases pairs with
    | nil => simp
    | cons a pairs =>
      refine List.forall₂_cons.trans ((and_congr hpair ih).trans ?_)
      rw [List.map_cons, List.cons.injEq, List.forall_mem_cons]
      tauto

/-- What the analysis makes of the inputs and their indices. -/
theorem analyze_eq_ok (h : analyze g query = .ok flags) : ∃ pairs : List (Node × Nat),
    pairs.map (·.1) = g.args ∧ (∀ a ∈ pairs, a.1.index = .ok a.2) ∧
      flags.flags = pairs.foldl (fun flags a => flags.set a.2 (feedsStatic g query a.1))
        (List.replicate (pairs.foldl (fun n a => max n (a.2 + 1)) 0) false) := by
  unfold analyze at h
  obtain ⟨pairs, hpairs, h⟩ := except_bind_eq_ok.1 h
  obtain ⟨hargs, hindex⟩ := mapM_index_eq_ok_iff.1 hpairs
  exact ⟨pairs, hargs, hindex, congrArg StaticInputs.flags (Except.ok.inj h).symm⟩

/-- **There is no answer** exactly if an input has no index. -/
theorem analyze_eq_error_iff : (∃ fault, analyze g query = .error fault) ↔
    ∃ arg ∈ g.nodes, arg.isArg = true ∧ ∀ i, arg.attrInt? "index" = some i → i < 0 := by
  constructor
  · rintro ⟨fault, h⟩
    unfold analyze at h
    rcases except_bind_eq_error.1 h with h | ⟨pairs, -, h⟩
    · obtain ⟨arg, harg, h⟩ := except_mapM_eq_error h
      obtain ⟨harg, hisArg⟩ := List.mem_filter.1 harg
      rcases except_bind_eq_error.1 h with h | ⟨_, -, h⟩
      · exact ⟨arg, harg, hisArg, Node.index_eq_error_iff.1 ⟨fault, h⟩⟩
      · cases h
    · cases h
  · rintro ⟨arg, harg, hisArg, hi⟩
    obtain ⟨fault, hfault⟩ := Node.index_eq_error_iff.2 hi
    cases h : analyze g query with
    | error fault' => exact ⟨fault', rfl⟩
    | ok flags =>
      obtain ⟨pairs, hargs, hindex, -⟩ := analyze_eq_ok h
      have hmem : arg ∈ pairs.map (·.1) := hargs ▸ List.mem_filter.2 ⟨harg, hisArg⟩
      obtain ⟨a, ha, rfl⟩ := List.mem_map.1 hmem
      cases (hindex a ha).symm.trans hfault

/-- The inputs with an index, from all inputs and their indices. -/
theorem map_filter_eq_argsAt {pairs : List (Node × Nat)} (hargs : pairs.map (·.1) = g.args)
    (hindex : ∀ a ∈ pairs, a.1.index = .ok a.2) (i : Nat) :
    (pairs.filter (·.2 = i)).map (·.1) = g.argsAt i := by
  unfold argsAt
  rw [← hargs, List.filter_map]
  congr 1
  refine List.filter_congr fun a ha => ?_
  simp [hindex a ha, Except.toOption]

/-- **There are so many flags**: none if there are no inputs, and else one more than the greatest
index. -/
theorem length_cases (h : analyze g query = .ok flags) :
    flags.flags.length = 0 ∧ g.args = [] ∨
      ∃ k, flags.flags.length = k + 1 ∧ g.argsAt k ≠ [] ∧ ∀ i, g.argsAt i ≠ [] → i ≤ k := by
  obtain ⟨pairs, hargs, hindex, hflags⟩ := analyze_eq_ok h
  rw [hflags, length_foldl_set, List.length_replicate]
  have hmem : ∀ {i}, g.argsAt i ≠ [] → ∃ a ∈ pairs, a.2 = i := by
    intro i hi
    rw [← map_filter_eq_argsAt hargs hindex, ne_eq, List.map_eq_nil_iff] at hi
    obtain ⟨a, ha⟩ := List.exists_mem_of_ne_nil _ hi
    exact ⟨a, by simpa using ha⟩
  rcases foldl_max_cases pairs with ⟨hnil, hzero⟩ | ⟨a, ha, hmax⟩
  · exact .inl ⟨hzero, by rw [← hargs, hnil]; rfl⟩
  · refine .inr ⟨a.2, hmax, ?_, fun i hi => ?_⟩
    · rw [← map_filter_eq_argsAt hargs hindex, ne_eq, List.map_eq_nil_iff]
      exact List.ne_nil_of_mem (List.mem_filter.2 ⟨ha, by simp⟩)
    · obtain ⟨b, hb, rfl⟩ := hmem hi
      have hlt := Lowering.lt_foldl_max Prod.snd hb 0
      omega

/-- There is a flag for every position up to that of an input, and for no other. -/
theorem lt_length_iff (h : analyze g query = .ok flags) {k : Nat} :
    k < flags.flags.length ↔ ∃ i, k ≤ i ∧ g.argsAt i ≠ [] := by
  rcases length_cases h with ⟨hzero, hnil⟩ | ⟨top, hlength, htop, hmax⟩
  · rw [hzero]
    refine ⟨fun hk => absurd hk (Nat.not_lt_zero k), ?_⟩
    rintro ⟨i, -, hi⟩
    unfold argsAt at hi
    rw [hnil] at hi
    exact absurd rfl hi
  · rw [hlength]
    constructor
    · exact fun hk => ⟨top, Nat.le_of_lt_succ hk, htop⟩
    · rintro ⟨i, hk, hi⟩
      have := hmax i hi
      omega

/-- **The last input with an index decides.** -/
theorem isStatic_eq (h : analyze g query = .ok flags) (i : Nat) :
    flags.isStatic i = ((g.argsAt i).getLast?.map (feedsStatic g query)).getD false := by
  obtain ⟨pairs, hargs, hindex, hflags⟩ := analyze_eq_ok h
  unfold isStatic
  rw [List.getD_eq_getElem?_getD, ← map_filter_eq_argsAt hargs hindex, List.getLast?_map,
    Option.map_map]
  by_cases hlt : i < flags.flags.length
  · have hsize := hlt
    rw [hflags, length_foldl_set] at hsize
    rw [hflags, getElem?_foldl_set _ _ hsize]
    cases (pairs.filter (·.2 = i)).getLast? with
    | some a => rfl
    | none =>
      rw [List.length_replicate] at hsize
      simp [hsize]
  · -- There is no input with such an index.
    have hnil : g.argsAt i = [] := by
      by_contra hne
      exact hlt ((lt_length_iff h).2 ⟨i, Nat.le_refl i, hne⟩)
    rw [← map_filter_eq_argsAt hargs hindex, List.map_eq_nil_iff] at hnil
    rw [hnil, List.getElem?_eq_none (Nat.le_of_not_lt hlt)]
    rfl

/-- **An input is static if it feeds a slot that must be known**, where the indices of the inputs
are distinct. -/
theorem isStatic_eq_feedsStatic (h : analyze g query = .ok flags)
    (hdistinct : g.IndicesDistinct Node.isArg) (hmem : arg ∈ g.nodes) (harg : arg.isArg = true)
    (hindex : arg.index = .ok i) : flags.isStatic i = feedsStatic g query arg := by
  have hat : arg ∈ g.argsAt i := Graph.mem_argsAt.2 ⟨hmem, harg, hindex⟩
  have hlast := List.getLast?_eq_some_getLast (List.ne_nil_of_mem hat)
  rw [isStatic_eq h, hlast, ← hdistinct.eq_of_mem_argsAt hat (List.getLast_mem _)]
  rfl

/-- What the analysis asks of an input is what is said of it. -/
theorem feedsStatic_iff (hg : g.Numbered) : feedsStatic g query arg = true ↔
    g.FeedsStatic query arg := by
  have hnode : ∀ {position : Nat} {n : Node}, g.node? position = some n ↔
      n ∈ g.nodes ∧ n.id = position := by
    intro position n
    constructor
    · exact fun h => ⟨List.mem_of_getElem? h, hg _ _ h⟩
    · rintro ⟨hn, rfl⟩
      obtain ⟨p, hp⟩ := List.mem_iff_getElem?.1 hn
      rwa [hg p n hp]
  unfold feedsStatic FeedsStatic Graph.outEdges
  rw [List.any_eq_true]
  constructor
  · rintro ⟨e, he, hfeeds⟩
    obtain ⟨he, hsrc⟩ := List.mem_filter.1 he
    cases hdst : g.node? e.dst with
    | none => simp [hdst] at hfeeds
    | some dst =>
      obtain ⟨hmem, hid⟩ := hnode.1 hdst
      simp only [hdst, Bool.and_eq_true, Bool.not_eq_true'] at hfeeds
      exact ⟨e, he, dst, hmem, of_decide_eq_true hsrc, hfeeds.1, hid.symm, hfeeds.2.1, hfeeds.2.2⟩
  · rintro ⟨e, he, dst, hmem, hsrc, hcontrol, hto, hop, hslot⟩
    refine ⟨e, List.mem_filter.2 ⟨he, decide_eq_true hsrc⟩, ?_⟩
    rw [hnode.2 ⟨hmem, hto.symm⟩]
    simp [hcontrol, hop, hslot]

theorem isStatic_iff (hg : g.Numbered) (h : analyze g query = .ok flags) :
    flags.isStatic i = true ↔ ∃ arg, (g.argsAt i).getLast? = some arg ∧ g.FeedsStatic query arg := by
  rw [isStatic_eq h]
  cases hlast : (g.argsAt i).getLast? with
  | none => simp
  | some arg => simp [feedsStatic_iff hg]

/-- **Where the inputs of an index agree, any of them decides.** -/
theorem isStatic_iff_of_inputsAgree (hg : g.Numbered) (h : analyze g query = .ok flags)
    (hagree : g.InputsAgree query i) :
    flags.isStatic i = true ↔ ∃ arg ∈ g.argsAt i, g.FeedsStatic query arg := by
  rw [isStatic_iff hg h]
  constructor
  · rintro ⟨arg, hlast, hfeeds⟩
    exact ⟨arg, List.mem_of_getLast? hlast, hfeeds⟩
  · rintro ⟨arg, hmem, hfeeds⟩
    exact ⟨_, List.getLast?_eq_some_getLast (List.ne_nil_of_mem hmem),
      hagree arg hmem _ (List.getLast_mem _) hfeeds⟩

/-! ### Listing a graph in another way -/

/-- **The order of edges does not matter.** -/
theorem analyze_congr {h : Graph} (hnodes : h.nodes = g.nodes) (hedges : h.edges.Perm g.edges) :
    analyze h query = analyze g query := by
  have hfeeds : feedsStatic h query = feedsStatic g query := by
    funext arg
    unfold feedsStatic Graph.outEdges Graph.node?
    rw [hnodes]
    exact (hedges.filter _).any_eq
  unfold analyze Graph.args
  rw [hnodes, hfeeds]

/-- **The order of nodes does not matter** for a position whose inputs agree. -/
theorem analyze_relists {number : Nat → Nat} {h : Graph} (hr : g.Relists number h) (hg : g.Numbered)
    (hh : h.Numbered) (hquery : ∀ (n : Node) id slot, query { n with id } slot = query n slot)
    (hflags : analyze g query = .ok flags) : ∃ flags', analyze h query = .ok flags' ∧
      flags'.flags.length = flags.flags.length ∧
      ∀ i, g.InputsAgree query i → flags'.isStatic i = flags.isStatic i := by
  -- The arguments of the one graph are those of the other, renumbered.
  have hmem : ∀ {i : Nat} {n : Node}, n ∈ h.argsAt i →
      ∃ m ∈ g.argsAt i, { m with id := number m.id } = n := fun hn =>
    List.mem_map.1 ((hr.argsAt _).mem_iff.2 hn)
  have hmap : ∀ {i : Nat} {m : Node}, m ∈ g.argsAt i →
      { m with id := number m.id } ∈ h.argsAt i := fun hm =>
    (hr.argsAt _).mem_iff.1 (List.mem_map_of_mem hm)
  cases hflags' : analyze h query with
  | error fault =>
    obtain ⟨arg, harg, hisArg, hi⟩ := analyze_eq_error_iff.1 ⟨fault, hflags'⟩
    obtain ⟨m, hm, rfl⟩ := List.mem_map.1 (hr.nodes.mem_iff.2 harg)
    obtain ⟨fault', hfault'⟩ : ∃ fault, analyze g query = .error fault :=
      analyze_eq_error_iff.2 ⟨m, hm, hisArg, hi⟩
    cases hfault'.symm.trans hflags
  | ok flags' =>
    refine ⟨flags', rfl, eq_of_forall_lt_iff fun k => ?_, fun i hagree => ?_⟩
    · rw [lt_length_iff hflags', lt_length_iff hflags]
      refine exists_congr fun i => and_congr_right fun _ => not_congr ?_
      rw [← List.length_eq_zero_iff, ← List.length_eq_zero_iff, ← (hr.argsAt i).length_eq,
        List.length_map]
    · have hagree' : h.InputsAgree query i := by
        intro m' hm' n' hn' hfeeds
        obtain ⟨m, hm, rfl⟩ := hmem hm'
        obtain ⟨n, hn, rfl⟩ := hmem hn'
        exact (hr.feedsStatic_iff hquery).2 (hagree m hm n hn ((hr.feedsStatic_iff hquery).1 hfeeds))
      rw [Bool.eq_iff_iff, isStatic_iff_of_inputsAgree hh hflags' hagree',
        isStatic_iff_of_inputsAgree hg hflags hagree]
      constructor
      · rintro ⟨n, hn, hfeeds⟩
        obtain ⟨m, hm, rfl⟩ := hmem hn
        exact ⟨m, hm, (hr.feedsStatic_iff hquery).1 hfeeds⟩
      · rintro ⟨m, hm, hfeeds⟩
        exact ⟨_, hmap hm, (hr.feedsStatic_iff hquery).2 hfeeds⟩

end StaticInputs

/-- **What the analysis of a graph says.** There is no answer exactly if an input has no integer as
index, or a negative one. The order of edges does not matter. If there are inputs, then there is one
flag more than the greatest index, and otherwise there is none. A position is static exactly if the
last of its inputs feeds a slot that must be known; if its inputs agree, then exactly if any of them
does, and then it is so as well when the nodes are listed in another order. -/
theorem static_of_last_input (g : Graph) (query : StaticQuery) (hg : g.Numbered) :
    ((∃ fault, StaticInputs.analyze g query = .error fault) ↔
      ∃ arg ∈ g.nodes, arg.isArg = true ∧ ∀ i, arg.attrInt? "index" = some i → i < 0) ∧
    (∀ h : Graph, h.nodes = g.nodes → h.edges.Perm g.edges →
      StaticInputs.analyze h query = StaticInputs.analyze g query) ∧
    ∀ flags, StaticInputs.analyze g query = .ok flags →
      (flags.flags.length = 0 ∧ g.args = [] ∨
        ∃ k, flags.flags.length = k + 1 ∧ g.argsAt k ≠ [] ∧ ∀ i, g.argsAt i ≠ [] → i ≤ k) ∧
      (∀ i, flags.isStatic i = true ↔
        ∃ arg, (g.argsAt i).getLast? = some arg ∧ g.FeedsStatic query arg) ∧
      (∀ i, g.InputsAgree query i →
        (flags.isStatic i = true ↔ ∃ arg ∈ g.argsAt i, g.FeedsStatic query arg)) ∧
      ∀ (number : Nat → Nat) (h : Graph), g.Relists number h → h.Numbered →
        (∀ (n : Node) id slot, query { n with id } slot = query n slot) →
        ∃ flags', StaticInputs.analyze h query = .ok flags' ∧
          flags'.flags.length = flags.flags.length ∧
          ∀ i, g.InputsAgree query i → flags'.isStatic i = flags.isStatic i :=
  ⟨StaticInputs.analyze_eq_error_iff, fun _ => StaticInputs.analyze_congr, fun _ hflags =>
    ⟨StaticInputs.length_cases hflags, fun _ => StaticInputs.isStatic_iff hg hflags,
      fun _ => StaticInputs.isStatic_iff_of_inputsAgree hg hflags,
      fun _ _ hr hh hquery => StaticInputs.analyze_relists hr hg hh hquery hflags⟩⟩

/-- The axes of two reductions are two inputs with one index; no input has an index between this one
and that of the data, and none has a lower one. -/
def Graph.sharedAxes : Graph :=
  .ofSample
    [("axes", "_Arg", some 1), ("data", "_Arg", some 3), ("more_axes", "_Arg", some 1),
      ("sum", "Sum", none), ("max", "Max", none), ("out", "_Retval", some 0)]
    [(1, 3, 0), (0, 3, 1), (3, 4, 0), (2, 4, 1), (4, 5, 0)]

/-- The position of the axes is static, since both inputs feed axes. -/
theorem static_of_sharedAxes :
    Graph.sharedAxes.Numbered ∧ Graph.sharedAxes.InputsAgree StaticQuery.byAttribute 1 ∧
    ∃ flags, StaticInputs.analyze Graph.sharedAxes StaticQuery.byAttribute = .ok flags ∧
      flags.flags.length = 4 ∧ flags.isStatic 1 = true ∧ flags.isStatic 3 = false := by
  have hnumbered : Graph.sharedAxes.Numbered := by decide +kernel
  have hanalyze : StaticInputs.analyze Graph.sharedAxes StaticQuery.byAttribute =
      .ok ⟨[false, true, false, false]⟩ := by decide +kernel
  have hfeeds : ∀ arg ∈ Graph.sharedAxes.argsAt 1,
      Graph.sharedAxes.FeedsStatic StaticQuery.byAttribute arg := by
    intro arg harg
    refine (StaticInputs.feedsStatic_iff hnumbered).1 ?_
    have : ∀ arg ∈ Graph.sharedAxes.argsAt 1, StaticInputs.feedsStatic Graph.sharedAxes
        StaticQuery.byAttribute arg = true := by decide +kernel
    exact this arg harg
  have hagree : Graph.sharedAxes.InputsAgree StaticQuery.byAttribute 1 :=
    fun _ _ n hn _ => hfeeds n hn
  obtain ⟨-, -, hflags⟩ := static_of_last_input Graph.sharedAxes StaticQuery.byAttribute hnumbered
  obtain ⟨-, -, hany, -⟩ := hflags _ hanalyze
  have hsome : ∃ arg, arg ∈ Graph.sharedAxes.argsAt 1 :=
    List.exists_mem_of_length_pos (by decide +kernel)
  obtain ⟨arg, harg⟩ := hsome
  exact ⟨hnumbered, hagree, _, hanalyze, rfl, (hany 1 hagree).2 ⟨arg, harg, hfeeds arg harg⟩, rfl⟩

/-- Two inputs with one index, of which the first is a shape and the other is not used. -/
def Graph.usedThenUnused : Graph :=
  .ofSample
    [("used", "_Arg", some 0), ("unused", "_Arg", some 0), ("fill", "Fill", none),
      ("out", "_Retval", some 0)]
    [(0, 2, 0), (2, 3, 0)]

/-- The same inputs in the other order. -/
def Graph.unusedThenUsed : Graph :=
  .ofSample
    [("unused", "_Arg", some 0), ("used", "_Arg", some 0), ("fill", "Fill", none),
      ("out", "_Retval", some 0)]
    [(1, 2, 0), (2, 3, 0)]

/-- **The input that is used is lost** when one that is not comes after it, and only then. -/
theorem lost_of_usedThenUnused : Graph.usedThenUnused.Numbered ∧
    (∃ arg ∈ Graph.usedThenUnused.argsAt 0,
      Graph.usedThenUnused.FeedsStatic StaticQuery.byAttribute arg) ∧
    StaticInputs.analyze Graph.usedThenUnused StaticQuery.byAttribute = .ok ⟨[false]⟩ ∧
    Graph.usedThenUnused.Relists (Equiv.swap 0 1) Graph.unusedThenUsed ∧
    Graph.unusedThenUsed.Numbered ∧
    StaticInputs.analyze Graph.unusedThenUsed StaticQuery.byAttribute = .ok ⟨[true]⟩ := by
  have hnumbered : Graph.usedThenUnused.Numbered := by decide +kernel
  refine ⟨hnumbered, ?_, by decide +kernel, ⟨Equiv.injective _, ?_, ?_⟩, by decide +kernel,
    by decide +kernel⟩
  · have : ∃ arg ∈ Graph.usedThenUnused.argsAt 0, StaticInputs.feedsStatic Graph.usedThenUnused
        StaticQuery.byAttribute arg = true := by decide +kernel
    obtain ⟨arg, harg, hfeeds⟩ := this
    exact ⟨arg, harg, (StaticInputs.feedsStatic_iff hnumbered).1 hfeeds⟩
  · decide +kernel
  · decide +kernel

end TensorJit
