import TensorJit.Function.Evaluation
import TensorJit.Graph.Order

/-!
# What a graph means

A graph has a meaning of its own, read off its nodes and edges and nothing else. A slot of a node
is fed by the first data edge into it, in the order of the graph (`Graph.feed?`); an input stands
for the elements of its parameter, an operation for what it makes of the elements that its slots
are fed with, and an output for what it is fed with (`Graph.Denotes`).

| node | what it denotes |
|---|---|
| input | the elements of the parameter of its index |
| sum, difference, product | the elementwise operation on what feeds slots 0 and 1 |
| change of sign, identity | the elementwise operation on what feeds slot 0 |
| reshape, output | what feeds slot 0 |

Control edges do not enter, and neither do shapes: the elements of a tensor stand in one order
whatever its shape is. A node on a cycle denotes nothing. **No node denotes two things**
(`Graph.Denotes.unique`), since there is one rule for every node.
-/

namespace TensorJit

/-! ### What feeds a slot -/

namespace Graph

/-- Every node has its position as number. -/
def Numbered (g : Graph) : Prop :=
  ∀ (position : Nat) (node : Node), g.node? position = some node → node.id = position

instance (g : Graph) : Decidable g.Numbered :=
  decidable_of_iff (∀ position < g.nodes.length, ∀ node ∈ g.node? position, node.id = position)
    ⟨fun h position node hnode =>
      h position (List.getElem?_eq_some_iff.1 hnode).1 node (Option.mem_def.2 hnode),
    fun h position _ node hnode => h position node (Option.mem_def.1 hnode)⟩

/-- No two boundary nodes of a kind have the same index. -/
def IndicesDistinct (g : Graph) (kind : Node → Bool) : Prop :=
  ((g.nodes.filter kind).map Node.index).Nodup

/-- The index of a boundary node tells where it is. -/
theorem IndicesDistinct.eq_of_index_eq {g : Graph} {kind : Node → Bool}
    (h : g.IndicesDistinct kind) {p q : Nat} {m n : Node} (hm : g.node? p = some m)
    (hn : g.node? q = some n) (hmkind : kind m = true) (hnkind : kind n = true)
    (hindex : m.index = n.index) : p = q := by
  unfold IndicesDistinct List.Nodup at h
  rw [List.pairwise_map, List.pairwise_filter, List.pairwise_iff_getElem] at h
  obtain ⟨hp, rfl⟩ := List.getElem?_eq_some_iff.1 hm
  obtain ⟨hq, rfl⟩ := List.getElem?_eq_some_iff.1 hn
  rcases Nat.lt_trichotomy p q with hlt | heq | hgt
  · exact absurd hindex (h p q hp hq hlt hmkind hnkind)
  · exact heq
  · exact absurd hindex.symm (h q p hq hp hgt hnkind hmkind)

/-- The first data edge into a slot of a node. -/
def feed? (g : Graph) (id slot : Nat) : Option Edge :=
  g.edges.find? fun e => (e.dst = id && !e.control) && e.dstInput = slot

/-- What is known of the edge that feeds a slot. -/
theorem of_feed?_eq_some {g : Graph} {id slot : Nat} {e : Edge} (h : g.feed? id slot = some e) :
    e ∈ g.edges ∧ e.dst = id ∧ e.control = false ∧ e.dstInput = slot := by
  have hp := List.find?_some h
  simp only [Bool.and_eq_true, decide_eq_true_eq, Bool.not_eq_true'] at hp
  exact ⟨List.mem_of_find?_eq_some h, hp.1.1, hp.1.2, hp.2⟩

theorem find?_insertBySlot (e : Edge) (edges : List Edge) (slot : Nat) :
    (insertBySlot e edges).find? (·.dstInput = slot) =
      if e.dstInput = slot then some e else edges.find? (·.dstInput = slot) := by
  induction edges with
  | nil => by_cases h : e.dstInput = slot <;> simp [insertBySlot, h]
  | cons f rest ih =>
    unfold insertBySlot
    split
    · by_cases h : e.dstInput = slot <;> simp [h]
    · rename_i hlt
      rw [List.find?_cons, ih]
      by_cases h : e.dstInput = slot
      · -- The edges in front of it are those of lower slots.
        have hne : f.dstInput ≠ slot := by omega
        simp [h, hne]
      · simp [h, List.find?_cons]

/-- **Going by slots does not change which edge into a slot comes first.** -/
theorem find?_dataInputs (g : Graph) (id slot : Nat) :
    (g.dataInputs id).find? (·.dstInput = slot) = g.feed? id slot := by
  have hfoldr : ∀ edges : List Edge, (edges.foldr insertBySlot []).find? (·.dstInput = slot) =
      edges.find? (·.dstInput = slot) := by
    intro edges
    induction edges with
    | nil => rfl
    | cons e rest ih =>
      rw [List.foldr_cons, find?_insertBySlot, ih, List.find?_cons]
      by_cases h : e.dstInput = slot <;> simp [h]
  unfold dataInputs feed?
  rw [hfoldr, List.find?_filter]
  simp only [Bool.decide_and, Bool.decide_eq_true]

end Graph

/-! ### The meaning of operations -/

namespace OpKind

variable {α : Type}

/-- The function that an elementwise operation of two operands applies to their elements. -/
def binary? (arith : Ieee.Arithmetic α) : OpKind → Option (α → α → α)
  | add => some arith.add
  | sub => some arith.sub
  | mul => some arith.mul
  | _ => none

/-- The function that an operation of one operand applies to its elements. -/
def unary? (arith : Ieee.Arithmetic α) : OpKind → Option (α → α)
  | neg => some arith.neg
  | identity | reshape => some id
  | _ => none

theorem unary?_of_binary?_eq_some {arith : Ieee.Arithmetic α} {op : OpKind} {apply : α → α → α}
    (h : op.binary? arith = some apply) : op.unary? arith = none := by
  cases op <;> first | rfl | cases h

/-- An operation is found by its own tag. -/
theorem tag_of_ofTag?_eq_some {tag : String} {op : OpKind} (h : ofTag? tag = some op) :
    tag = op.tag := by
  have htag := List.find?_some h
  exact (of_decide_eq_true htag).symm

/-- The tags of operations are none of boundary nodes. -/
theorem isOp_of_ofTag?_eq_some {node : Node} {op : OpKind} (h : ofTag? node.op = some op) :
    node.isArg = false ∧ node.isRetval = false := by
  have hboundary : ofTag? "_Arg" = none ∧ ofTag? "_Retval" = none := by decide
  constructor
  · rw [Node.isArg, decide_eq_false_iff_not]
    rintro harg
    rw [harg, hboundary.1] at h
    cases h
  · rw [Node.isRetval, decide_eq_false_iff_not]
    rintro hretval
    rw [hretval, hboundary.2] at h
    cases h

end OpKind

theorem Node.isArg_eq_false_of_isRetval {node : Node} (h : node.isRetval = true) :
    node.isArg = false := by
  rw [Node.isRetval, decide_eq_true_eq] at h
  rw [Node.isArg, h]
  decide

/-! ### The meaning of nodes -/

namespace Graph

variable {α : Type} {g : Graph} {arith : Ieee.Arithmetic α} {parameters : List (Option (Value α))}

/-- The elements that the node at a position stands for. -/
inductive Denotes (g : Graph) (arith : Ieee.Arithmetic α) (parameters : List (Option (Value α))) :
    Nat → List α → Prop
  /-- An input stands for its parameter. -/
  | arg {position index : Nat} {node : Node} {v : Value α} (hnode : g.node? position = some node)
      (harg : node.isArg = true) (hindex : node.index = .ok index)
      (hv : parameters[index]? = some (some v)) : Denotes g arith parameters position v.data
  /-- An operation of two operands takes the elements in pairs. -/
  | binary {position : Nat} {node : Node} {op : OpKind} {apply : α → α → α} {e f : Edge}
      {xs ys : List α} (hnode : g.node? position = some node) (hop : OpKind.ofTag? node.op = some op)
      (happly : op.binary? arith = some apply) (hfirst : g.feed? position 0 = some e)
      (hsecond : g.feed? position 1 = some f) (hxs : Denotes g arith parameters e.src xs)
      (hys : Denotes g arith parameters f.src ys) (hlength : xs.length = ys.length) :
      Denotes g arith parameters position (List.zipWith apply xs ys)
  /-- An operation of one operand takes the elements one by one. -/
  | unary {position : Nat} {node : Node} {op : OpKind} {apply : α → α} {e : Edge} {xs : List α}
      (hnode : g.node? position = some node) (hop : OpKind.ofTag? node.op = some op)
      (happly : op.unary? arith = some apply) (hfirst : g.feed? position 0 = some e)
      (hxs : Denotes g arith parameters e.src xs) :
      Denotes g arith parameters position (xs.map apply)
  /-- An output stands for what it is fed with. -/
  | retval {position : Nat} {node : Node} {e : Edge} {xs : List α}
      (hnode : g.node? position = some node) (hretval : node.isRetval = true)
      (hfirst : g.feed? position 0 = some e) (hxs : Denotes g arith parameters e.src xs) :
      Denotes g arith parameters position xs

/-- **A node denotes one thing.** -/
theorem Denotes.unique {position : Nat} {xs ys : List α}
    (hxs : g.Denotes arith parameters position xs) (hys : g.Denotes arith parameters position ys) :
    xs = ys := by
  -- By induction on the first derivation. The second one ends in the same rule, since the node at
  -- the position decides which applies.
  induction hxs generalizing ys with
  | arg hnode harg hindex hv =>
    cases hys with
    | arg hnode' _ hindex' hv' =>
      obtain rfl := Option.some.inj (hnode.symm.trans hnode')
      obtain rfl := Except.ok.inj (hindex.symm.trans hindex')
      rw [Option.some.inj (Option.some.inj (hv.symm.trans hv'))]
    | binary hnode' hop' | unary hnode' hop' =>
      obtain rfl := Option.some.inj (hnode.symm.trans hnode')
      rw [(OpKind.isOp_of_ofTag?_eq_some hop').1] at harg
      cases harg
    | retval hnode' hretval' =>
      obtain rfl := Option.some.inj (hnode.symm.trans hnode')
      rw [Node.isArg_eq_false_of_isRetval hretval'] at harg
      cases harg
  | binary hnode hop happly hfirst hsecond _ _ _ ihx ihy =>
    cases hys with
    | arg hnode' harg' =>
      obtain rfl := Option.some.inj (hnode.symm.trans hnode')
      rw [(OpKind.isOp_of_ofTag?_eq_some hop).1] at harg'
      cases harg'
    | binary hnode' hop' happly' hfirst' hsecond' hx' hy' =>
      obtain rfl := Option.some.inj (hnode.symm.trans hnode')
      obtain rfl := Option.some.inj (hop.symm.trans hop')
      obtain rfl := Option.some.inj (happly.symm.trans happly')
      obtain rfl := Option.some.inj (hfirst.symm.trans hfirst')
      obtain rfl := Option.some.inj (hsecond.symm.trans hsecond')
      rw [ihx hx', ihy hy']
    | unary hnode' hop' happly' =>
      obtain rfl := Option.some.inj (hnode.symm.trans hnode')
      obtain rfl := Option.some.inj (hop.symm.trans hop')
      rw [OpKind.unary?_of_binary?_eq_some happly] at happly'
      cases happly'
    | retval hnode' hretval' =>
      obtain rfl := Option.some.inj (hnode.symm.trans hnode')
      rw [(OpKind.isOp_of_ofTag?_eq_some hop).2] at hretval'
      cases hretval'
  | unary hnode hop happly hfirst _ ih =>
    cases hys with
    | arg hnode' harg' =>
      obtain rfl := Option.some.inj (hnode.symm.trans hnode')
      rw [(OpKind.isOp_of_ofTag?_eq_some hop).1] at harg'
      cases harg'
    | binary hnode' hop' happly' =>
      obtain rfl := Option.some.inj (hnode.symm.trans hnode')
      obtain rfl := Option.some.inj (hop.symm.trans hop')
      rw [OpKind.unary?_of_binary?_eq_some happly'] at happly
      cases happly
    | unary hnode' hop' happly' hfirst' hx' =>
      obtain rfl := Option.some.inj (hnode.symm.trans hnode')
      obtain rfl := Option.some.inj (hop.symm.trans hop')
      obtain rfl := Option.some.inj (happly.symm.trans happly')
      obtain rfl := Option.some.inj (hfirst.symm.trans hfirst')
      rw [ih hx']
    | retval hnode' hretval' =>
      obtain rfl := Option.some.inj (hnode.symm.trans hnode')
      rw [(OpKind.isOp_of_ofTag?_eq_some hop).2] at hretval'
      cases hretval'
  | retval hnode hretval hfirst _ ih =>
    cases hys with
    | arg hnode' harg' =>
      obtain rfl := Option.some.inj (hnode.symm.trans hnode')
      rw [Node.isArg_eq_false_of_isRetval hretval] at harg'
      cases harg'
    | binary hnode' hop' | unary hnode' hop' =>
      obtain rfl := Option.some.inj (hnode.symm.trans hnode')
      rw [(OpKind.isOp_of_ofTag?_eq_some hop').2] at hretval
      cases hretval
    | retval hnode' _ hfirst' hx' =>
      obtain rfl := Option.some.inj (hnode.symm.trans hnode')
      obtain rfl := Option.some.inj (hfirst.symm.trans hfirst')
      exact ih hx'

end Graph

end TensorJit
