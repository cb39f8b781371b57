import Mathlib.Data.List.Perm.Basic
import TensorJit.Graph.Samples
import TensorJit.Proofs.Lowering.Operands

/-!
# Lowering keeps the meaning

The function that a graph is lowered to returns, at the position of every output, the elements
that the output denotes in the graph (`lower_denotes`); whatever the arithmetic is, and whatever
the shapes and the static inputs were that it was lowered for.

Lowering goes through the nodes in topological order, but the order is not what the proof is
about: a node is lowered when the nodes that feed it have been, or not at all. What is preserved
from node to node is that **every entry in the table of values leads to what its node denotes**
(`Lowering.Progress.Means`), read against the results of the finished function, of which the
instructions so far are the beginning.
-/

namespace TensorJit

namespace Lowering

variable {src : Source} {p q : Progress} {position : Nat}

/-! ### The table of values -/

section Means

variable {α : Type} {arith : Ieee.Arithmetic α} {parameters : List (Option (Value α))}
  {all : List (Value α)}

/-- Every instruction has its result. -/
def Ran (arith : Ieee.Arithmetic α) (parameters : List (Option (Value α))) (all : List (Value α))
    (body : List Instruction) : Prop :=
  ∀ (k : Nat) (i : Instruction), body[k]? = some i → ∃ operands v,
    Evaluation.Fetches parameters all i.operands operands ∧
      Evaluation.execute arith i operands = .ok v ∧ all[k]? = some v

theorem Ran.of_isPrefix {body body' : List Instruction} (h : Ran arith parameters all body')
    (hpre : body <+: body') : Ran arith parameters all body := by
  intro k i hi
  obtain ⟨rest, rfl⟩ := hpre
  refine h k i ?_
  rw [List.getElem?_append_left (List.getElem?_eq_some_iff.1 hi).1, hi]

/-- What a reference leads to, if it leads anywhere, is what the node at a position denotes. -/
def LeadsTo (g : Graph) (arith : Ieee.Arithmetic α) (parameters : List (Option (Value α)))
    (all : List (Value α)) (r : ValueRef) (position : Nat) : Prop :=
  ∀ v, Evaluation.Env.fetch ⟨parameters, all⟩ r = .ok v →
    g.Denotes arith parameters position v.data

/-- What has been lowered means what the graph means. -/
structure Progress.Means (g : Graph) (arith : Ieee.Arithmetic α)
    (parameters : List (Option (Value α))) (all : List (Value α)) (p : Progress) : Prop where
  /-- The value of a node leads to what the node denotes. -/
  values : ∀ e ∈ p.values, LeadsTo g arith parameters all e.2.ref e.1.1
  /-- What is returned at an index leads to what the output with this index denotes. -/
  outputs : ∀ e ∈ p.outputs, ∃ position node, g.node? position = some node ∧
    node.isRetval = true ∧ node.index = .ok e.1 ∧ LeadsTo g arith parameters all e.2.ref position

theorem Progress.means_start (g : Graph) (arith : Ieee.Arithmetic α)
    (parameters : List (Option (Value α))) (all : List (Value α)) :
    Progress.start.Means g arith parameters all where
  values _ h := absurd h List.not_mem_nil
  outputs _ h := absurd h List.not_mem_nil

theorem operand_leadsTo {node : Node} {slot origin : Nat} {v : Lowered}
    (hp : p.Means src.graph arith parameters all)
    (h : operand src p node slot = .ok (origin, v)) : ∃ e,
      src.graph.feed? node.id slot = some e ∧ LeadsTo src.graph arith parameters all v.ref e.src := by
  obtain ⟨e, he, rfl, hlookup⟩ := operand_eq_ok h
  exact ⟨e, he, hp.values _ (mem_of_lookup_eq_some hlookup)⟩

/-- **One operation**: its instruction computes what its node denotes. -/
theorem lowerOperands_leadsTo {node : Node} {op : OpKind} {refs : List ValueRef}
    {spec : TensorSpec} {k : Nat} (hp : p.Means src.graph arith parameters all)
    (hnode : src.graph.node? node.id = some node) (hop : OpKind.ofTag? node.op = some op)
    (hrefs : lowerOperands src p node op = .ok (refs, spec))
    (hran : ∃ operands v, Evaluation.Fetches parameters all refs operands ∧
      Evaluation.execute arith ⟨op, refs, spec⟩ operands = .ok v ∧ all[k]? = some v) :
    LeadsTo src.graph arith parameters all (.instruction k) node.id := by
  intro w hw
  obtain ⟨operands, v, hfetches, hexecute, hv⟩ := hran
  obtain rfl : v = w := by
    unfold Evaluation.Env.fetch at hw
    dsimp only at hw
    rw [hv] at hw
    exact Except.ok.inj hw
  obtain ⟨origin, first, hfirst, hcount⟩ := (lowerOperands_eq_ok_iff.1 hrefs).slots
  obtain ⟨e, he, hfirst⟩ := operand_leadsTo hp hfirst
  rcases hcount with ⟨harity, rfl⟩ | ⟨origin', second, hsecond, harity, rfl⟩
  · obtain ⟨x, rest, hx, hrest, rfl⟩ := List.forall₂_cons_left_iff.1 hfetches
    obtain rfl := List.forall₂_nil_left_iff.1 hrest
    obtain ⟨apply, happly, hdata⟩ := Evaluation.unary_of_execute harity hexecute
    rw [hdata]
    exact .unary hnode hop happly he (hfirst x hx)
  · obtain ⟨f, hf, hsecond⟩ := operand_leadsTo hp hsecond
    obtain ⟨x, more, hx, hmore, rfl⟩ := List.forall₂_cons_left_iff.1 hfetches
    obtain ⟨y, rest, hy, hrest, rfl⟩ := List.forall₂_cons_left_iff.1 hmore
    obtain rfl := List.forall₂_nil_left_iff.1 hrest
    obtain ⟨apply, happly, hlength, hdata⟩ := Evaluation.binary_of_execute harity hexecute
    rw [hdata]
    exact .binary hnode hop happly he hf (hfirst x hx) (hsecond y hy) hlength

/-- **One node**: what has been lowered goes on meaning what the graph means. -/
theorem Progress.Means.step (hg : src.graph.Numbered) (hp : p.Means src.graph arith parameters all)
    (h : Stepped src p position q) (hran : Ran arith parameters all q.body) :
    q.Means src.graph arith parameters all := by
  cases h with
  | @arg node index spec hnode harg hindex hspec =>
    refine ⟨fun e he => ?_, hp.outputs⟩
    rcases List.mem_cons.1 he with rfl | he
    · intro v hv
      unfold Evaluation.Env.fetch at hv
      dsimp only at hv
      split at hv
      · rename_i w hw
        cases hv
        exact .arg hnode harg hindex hw
      · cases hv
    · exact hp.values e he
  | @retval node index origin v hnode hretval hindex hv =>
    refine ⟨hp.values, fun e he => ?_⟩
    rcases List.mem_cons.1 he with rfl | he
    · obtain ⟨e, he, hleads⟩ := operand_leadsTo hp hv
      rw [hg position node hnode] at he
      exact ⟨position, node, hnode, hretval, hindex, fun x hx =>
        .retval hnode hretval he (hleads x hx)⟩
    · exact hp.outputs e he
  | @op node op refs spec hnode hop hrefs =>
    refine ⟨fun e he => ?_, hp.outputs⟩
    rcases List.mem_cons.1 he with rfl | he
    · refine lowerOperands_leadsTo hp (hg position node hnode ▸ hnode) hop hrefs ?_
      exact hran p.body.length ⟨op, refs, spec⟩ (by simp)
    · exact hp.values e he

end Means

/-- **As many results as outputs**, if the indices of the outputs are distinct: the indices are
those below their number. -/
theorem length_results {g : Graph} {inputs : List TensorSpec} {statics : List (Option Tensor)}
    {p : Progress} {order : List Nat} {outputs : List Lowered}
    (hdistinct : g.IndicesDistinct Node.isRetval) (horder : g.topologicalOrder = .ok order)
    (hp : lowerNodes ⟨g, inputs, statics⟩ .start order = .ok p)
    (houtputs : collectOutputs p = .ok outputs)
    (hnamed : ∀ e ∈ p.outputs, ∃ position node, g.node? position = some node ∧
      node.isRetval = true ∧ node.index = .ok e.1) :
    outputs.length = (g.nodes.filter Node.isRetval).length := by
  obtain ⟨hlength, hmem⟩ := collectOutputs_eq_ok houtputs
  have hnodup : ((List.range outputs.length).map (Except.ok (ε := GraphFault))).Nodup :=
    List.nodup_range.map fun _ _ h => Except.ok.inj h
  have hperm : ((List.range outputs.length).map (Except.ok (ε := GraphFault))).Perm
      ((g.nodes.filter Node.isRetval).map Node.index) := by
    refine (List.perm_ext_iff_of_nodup hnodup hdistinct).2 fun x => ?_
    simp only [List.mem_map, List.mem_range, List.mem_filter]
    constructor
    · rintro ⟨index, hlt, rfl⟩
      obtain ⟨position, node, hnode, hretval, hindex⟩ :=
        hnamed _ (hmem index _ (List.getElem?_eq_getElem hlt))
      exact ⟨node, ⟨List.mem_of_getElem? hnode, hretval⟩, hindex⟩
    · rintro ⟨node, ⟨hnode, hretval⟩, rfl⟩
      obtain ⟨position, hposition⟩ := List.getElem?_of_mem hnode
      have hin : position ∈ order := (Graph.topologicalOrder_perm horder).mem_iff.2
        (List.mem_range.2 (List.getElem?_eq_some_iff.1 hposition).1)
      obtain ⟨index, v, hindex, hv⟩ := lowerNodes_outputs hp hin hposition hretval
      exact ⟨index, hlength ▸ lt_outputCount hv, hindex.symm⟩
  have := hperm.length_eq
  rwa [List.length_map, List.length_map, List.length_range] at this

end Lowering

open Lowering in
/-- **A lowered function returns what the outputs of its graph denote.** For a graph whose nodes
have their positions as numbers and whose outputs have distinct indices, and for any arithmetic
on the elements: when evaluation goes through, there is one result for each output, and the
result at the index of an output has exactly the elements that this output denotes. -/
theorem lower_denotes {α : Type} (arith : Ieee.Arithmetic α) (g : Graph)
    (inputs : List TensorSpec) (statics : List (Option Tensor)) (f : Function)
    (parameters : List (Option (Value α))) (results : List (Value α)) (hg : g.Numbered)
    (hdistinct : g.IndicesDistinct Node.isRetval) (hlower : g.lower inputs statics = .ok f)
    (heval : f.evaluate arith parameters = .ok results) :
    f.results.length = (g.nodes.filter Node.isRetval).length ∧
      results.length = f.results.length ∧
      ∀ (position : Nat) (node : Node) (index : Nat), g.node? position = some node →
        node.isRetval = true → node.index = .ok index →
          ∃ v, results[index]? = some v ∧
            ∀ xs, g.Denotes arith parameters position xs ↔ xs = v.data := by
  obtain ⟨order, p, outputs, horder, hp, houtputs, -, hbody, hresults, hrefs, -⟩ := lower_eq_ok hlower
  obtain ⟨all, hall, hfetches⟩ := Function.evaluate_eq_ok heval
  have hran : Ran arith parameters all p.body := by
    intro k i hi
    obtain ⟨operands, v, hoperands, hv, hget⟩ := (Evaluation.run_eq_ok hall).2.2 k i (hbody ▸ hi)
    exact ⟨operands, v, hoperands, hv, by simpa using hget⟩
  have hmeans : p.Means g arith parameters all :=
    lowerNodes_induction (P := Progress.Means g arith parameters all)
      (fun hp hstep hbody => hp.step hg hstep (hran.of_isPrefix hbody))
      (Progress.means_start g arith parameters all) hp
  have hcount := length_results hdistinct horder hp houtputs fun e he => by
    obtain ⟨position, node, hnode, hretval, hindex, -⟩ := hmeans.outputs e he
    exact ⟨position, node, hnode, hretval, hindex⟩
  have hlength : results.length = outputs.length := by
    rw [← hfetches.length_eq, hrefs, List.length_map]
  refine ⟨by rw [hresults, List.length_map, hcount], by rw [hresults, List.length_map, hlength],
    fun position node index hnode hretval hindex => ?_⟩
  -- The output is named at its index, and by no other node.
  have hin : position ∈ order := (Graph.topologicalOrder_perm horder).mem_iff.2
    (List.mem_range.2 (List.getElem?_eq_some_iff.1 hnode).1)
  obtain ⟨index', named, hindex', hnamed⟩ := lowerNodes_outputs hp hin hnode hretval
  obtain rfl := Except.ok.inj (hindex.symm.trans hindex')
  have hlt : index < outputs.length := (collectOutputs_eq_ok houtputs).1 ▸ lt_outputCount hnamed
  have hv : index < results.length := hlength ▸ hlt
  obtain ⟨position', node', hnode', hretval', hindex', hleads⟩ :=
    hmeans.outputs _ ((collectOutputs_eq_ok houtputs).2 index _ (List.getElem?_eq_getElem hlt))
  obtain rfl := hdistinct.eq_of_index_eq hnode hnode' hretval hretval' (hindex.trans hindex'.symm)
  have hfetch := hfetches.get (by rw [hrefs, List.length_map]; exact hlt) hv
  simp only [hrefs, List.get_eq_getElem, List.getElem_map] at hfetch
  have hdenotes := hleads _ hfetch
  exact ⟨results[index], List.getElem?_eq_getElem hv, fun xs =>
    ⟨fun hxs => hxs.unique hdenotes, fun hxs => hxs ▸ hdenotes⟩⟩

/-- The square of an input in the shape that another one names, and the input itself. Two edges feed
the second slot of the product, a change of sign is of no use, and the first output waits for the
second. -/
def Graph.sampleSquare : Graph :=
  ((ofSample
    [("x", "_Arg", some 0), ("shape", "_Arg", some 1), ("square", "Mul", none),
      ("reshape", "Reshape", none), ("unused", "Neg", none), ("square_out", "_Retval", some 0),
      ("x_out", "_Retval", some 1)]
    [(0, 2, 0), (0, 2, 1), (0, 4, 0), (4, 2, 1), (2, 3, 0), (1, 3, 1), (3, 5, 0), (0, 6, 0)]).addControlEdge
    6 5)

/-- Integers, with their operations. -/
def Ieee.Arithmetic.integers : Ieee.Arithmetic Int := ⟨(· + ·), (· - ·), (· * ·), (- ·)⟩

/-- The outputs denote nine and twenty-five, and three and minus five. -/
theorem squares_of_sampleSquare : ∃ f results,
    Graph.sampleSquare.Numbered ∧ Graph.sampleSquare.IndicesDistinct Node.isRetval ∧
    Graph.sampleSquare.lower [⟨.f32, [2]⟩, ⟨.u8, [2]⟩] [none, some ⟨⟨.u8, [2]⟩, [2, 1]⟩] = .ok f ∧
    f.evaluate .integers [some ⟨⟨.f32, [2]⟩, [3, -5]⟩, none] = .ok results ∧
    f.results = [⟨.f32, [2, 1]⟩, ⟨.f32, [2]⟩] ∧
    (∀ xs, Graph.sampleSquare.Denotes .integers [some ⟨⟨.f32, [2]⟩, [3, -5]⟩, none] 5 xs ↔
      xs = [9, 25]) ∧
    ∀ xs, Graph.sampleSquare.Denotes .integers [some ⟨⟨.f32, [2]⟩, [3, -5]⟩, none] 6 xs ↔
      xs = [3, -5] := by
  obtain ⟨f, hf⟩ : ∃ f : Function, f =
    { name := "ref_cpu_function"
      parameters := [⟨.f32, [2]⟩, ⟨.u8, [2]⟩]
      results := [⟨.f32, [2, 1]⟩, ⟨.f32, [2]⟩]
      body := [⟨.neg, [.parameter 0], ⟨.f32, [2]⟩⟩,
        ⟨.mul, [.parameter 0, .parameter 0], ⟨.f32, [2]⟩⟩,
        ⟨.reshape, [.instruction 1], ⟨.f32, [2, 1]⟩⟩]
      outputs := [.instruction 2, .parameter 0] } := ⟨_, rfl⟩
  have hnumbered : Graph.sampleSquare.Numbered := by decide +kernel
  have hdistinct : Graph.sampleSquare.IndicesDistinct Node.isRetval := by
    unfold Graph.IndicesDistinct
    decide +kernel
  have hlower : Graph.sampleSquare.lower [⟨.f32, [2]⟩, ⟨.u8, [2]⟩]
      [none, some ⟨⟨.u8, [2]⟩, [2, 1]⟩] = .ok f := by
    subst hf
    decide +kernel
  have heval : f.evaluate .integers [some ⟨⟨.f32, [2]⟩, [3, -5]⟩, none] =
      .ok [⟨⟨.f32, [2, 1]⟩, [9, 25]⟩, ⟨⟨.f32, [2]⟩, [3, -5]⟩] := by
    subst hf
    rfl
  obtain ⟨-, -, hdenotes⟩ :=
    lower_denotes .integers _ _ _ f _ _ hnumbered hdistinct hlower heval
  refine ⟨f, _, hnumbered, hdistinct, hlower, heval, by rw [hf], ?_, ?_⟩
  · obtain ⟨v, hv, h⟩ := hdenotes 5 _ 0 rfl rfl rfl
    obtain rfl := Option.some.inj hv
    exact h
  · obtain ⟨v, hv, h⟩ := hdenotes 6 _ 1 rfl rfl rfl
    obtain rfl := Option.some.inj hv
    exact h

end TensorJit
