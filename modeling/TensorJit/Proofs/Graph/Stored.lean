import Mathlib.Data.List.Forall2
import TensorJit.Graph.Stored
import TensorJit.Proofs.Json.Record
import TensorJit.Proofs.SortedMap

/-!
# Reading stored graphs back

A graph is read back from its stored form (`Graph.ofJson?_toJson`) if the numbers in it are those
of 64-bit machines (`Graph.Words`): positions and slots unsigned, integers in attributes signed.
Names, operations and texts may be anything, and any list may be empty.

Attributes are written in the order of their names, no name twice, so entering them one after the
other gives **the map that they were written from** (`SortedMap.ofList_toList`).
-/

namespace TensorJit

open Json (readable_record readable_array_map record?_record list?_array word?_nat)

/-- A map is made again from its entries. -/
theorem SortedMap.ofList_toList {κ α : Type} [Ord κ] [Std.TransOrd κ] [Std.LawfulEqOrd κ]
    [DecidableEq κ] (m : SortedMap κ α) : ofList m.toList = m := by
  refine ext_toList fun e => ?_
  have hid : Function.Injective (id : κ → κ) := Function.injective_id
  refine (mem_foldl_insert_toList m empty id hid).trans
    ⟨?_, fun he => .inl ⟨e.1, e.2, get?_eq_some_iff.2 he, rfl⟩⟩
  rintro (⟨k, a, ha, rfl⟩ | ⟨he, -⟩)
  · exact get?_eq_some_iff.1 ha
  · cases he

/-! ### Attributes -/

/-- An integer of 64 bits in two's complement. -/
def IsInt64 (n : Int) : Prop := -2 ^ 63 ≤ n ∧ n < 2 ^ 63

instance (n : Int) : Decidable (IsInt64 n) := inferInstanceAs (Decidable (_ ∧ _))

/-- A signed machine word is read back. -/
theorem Json.int64?_number {n : Int} (h : IsInt64 n) : int64? (.number n) = some n := by
  unfold int64?
  dsimp only
  rw [Int64.toInt_minValue, Int64.toInt_maxValue]
  exact if_pos ⟨h.1, Int.le_sub_one_of_lt h.2⟩

namespace AttrValue

/-- The integers of an attribute value have 64 bits. -/
def Words : AttrValue → Prop
  | .int value => IsInt64 value
  | .intList values => ∀ n ∈ values, IsInt64 n
  | _ => True

instance : (v : AttrValue) → Decidable v.Words
  | .int _ => inferInstanceAs (Decidable (IsInt64 _))
  | .intList _ => inferInstanceAs (Decidable (∀ n ∈ _, IsInt64 n))
  | .str _ | .bool _ | .dtype _ => inferInstanceAs (Decidable True)

theorem readable_toJson (v : AttrValue) : v.toJson.Readable := by
  have hnumber : ∀ n, (Json.number n).Readable := fun _ => trivial
  cases v with
  | int | str | bool | dtype => exact ⟨rfl, trivial, trivial⟩
  | intList values => exact ⟨rfl, readable_array_map hnumber values, trivial⟩

theorem ofJson?_toJson {v : AttrValue} (h : v.Words) : ofJson? v.toJson = some v := by
  cases v with
  | int value => exact congrArg (Option.map AttrValue.int) (Json.int64?_number h)
  | str value => rfl
  | bool value => rfl
  | intList values =>
    exact congrArg (Option.map AttrValue.intList) (list?_array fun n hn => Json.int64?_number (h n hn))
  | dtype value => exact congrArg (Option.map AttrValue.dtype) (DType.ofTag?_tag value)

end AttrValue

/-- Attributes are written as a record, in which every name occurs once. -/
theorem readable_attrsToJson (attrs : SortedMap String AttrValue) :
    (attrsToJson attrs).Readable := by
  refine readable_record fun f hf => ?_
  obtain ⟨a, -, rfl⟩ := List.mem_map.1 hf
  exact a.2.readable_toJson

/-- **Attributes are read back**, whatever their names are. -/
theorem attrsOfJson?_attrsToJson {attrs : SortedMap String AttrValue}
    (h : ∀ a ∈ attrs.toList, a.2.Words) : attrsOfJson? (attrsToJson attrs) = some attrs := by
  have hentries : (attrs.toList.map fun a => (a.1, a.2.toJson)).mapM
      (fun f => do some (f.1, ← AttrValue.ofJson? f.2)) = some attrs.toList := by
    rw [List.mapM_map]
    refine (Json.option_mapM_eq_some (g := id) fun a ha => ?_).trans (by rw [List.map_id])
    simp only [Function.comp_apply, AttrValue.ofJson?_toJson (h a ha)]
    rfl
  rw [attrsOfJson?, attrsToJson, Json.fields?_record]
  exact (congrArg (Option.bind · fun l => some (SortedMap.ofList l)) hentries).trans
    (congrArg some (SortedMap.ofList_toList attrs))

/-! ### Nodes and edges -/

/-- The numbers of a node have 64 bits. -/
structure Node.Words (n : Node) : Prop where
  /-- The number by which edges name it. -/
  id : n.id < 2 ^ 64
  /-- The integers in its attributes. -/
  attrs : ∀ a ∈ n.attrs.toList, a.2.Words

theorem Node.readable_toJson (n : Node) : n.toJson.Readable := by
  refine readable_record fun f hf => ?_
  simp only [List.mem_cons, List.not_mem_nil, or_false] at hf
  rcases hf with rfl | rfl | rfl | rfl
  · exact trivial
  · exact trivial
  · exact trivial
  · exact readable_attrsToJson n.attrs

/-- A node with all its fields is read field by field. -/
theorem Node.ofJson?_of_record {j id name op attrs : Json}
    (h : j.record? ["id", "name", "op", "attrs"] = some [some id, some name, some op, some attrs]) :
    ofJson? j = id.word?.bind fun id => name.string?.bind fun name => op.string?.bind fun op =>
      (attrsOfJson? attrs).bind fun attrs => some ⟨id, name, op, attrs⟩ := by
  rw [ofJson?, h]
  rfl

/-- **A node is read back.** -/
theorem Node.ofJson?_toJson {n : Node} (h : n.Words) : ofJson? n.toJson = some n := by
  have hrecord : n.toJson.record? ["id", "name", "op", "attrs"] =
      some [some (.nat n.id), some (.string n.name), some (.string n.op),
        some (attrsToJson n.attrs)] :=
    record?_record (show ["id", "name", "op", "attrs"].Nodup by decide)
  simp only [ofJson?_of_record hrecord, word?_nat h.id, attrsOfJson?_attrsToJson h.attrs,
    Json.string?, Option.bind_some]

/-- The numbers of an edge have 64 bits. -/
structure Edge.Words (e : Edge) : Prop where
  /-- The node it leaves. -/
  src : e.src < 2 ^ 64
  /-- The output it carries. -/
  srcOutput : e.srcOutput < 2 ^ 64
  /-- The node it enters. -/
  dst : e.dst < 2 ^ 64
  /-- The slot it feeds. -/
  dstInput : e.dstInput < 2 ^ 64

theorem Edge.readable_toJson (e : Edge) : e.toJson.Readable := by
  refine readable_record fun f hf => ?_
  simp only [List.mem_cons, List.not_mem_nil, or_false] at hf
  rcases hf with rfl | rfl | rfl | rfl | rfl <;> exact trivial

/-- An edge with all its fields is read field by field. -/
theorem Edge.ofJson?_of_record {j src srcOutput dst dstInput control : Json}
    (h : j.record? ["src", "src_output", "dst", "dst_input", "control"] =
      some [some src, some srcOutput, some dst, some dstInput, some control]) :
    ofJson? j = src.word?.bind fun src => srcOutput.word?.bind fun srcOutput =>
      dst.word?.bind fun dst => dstInput.word?.bind fun dstInput =>
        control.bool?.bind fun control => some ⟨src, srcOutput, dst, dstInput, control⟩ := by
  rw [ofJson?, h]
  rfl

/-- **An edge is read back.** -/
theorem Edge.ofJson?_toJson {e : Edge} (h : e.Words) : ofJson? e.toJson = some e := by
  have hrecord : e.toJson.record? ["src", "src_output", "dst", "dst_input", "control"] =
      some [some (.nat e.src), some (.nat e.srcOutput), some (.nat e.dst), some (.nat e.dstInput),
        some (.bool e.control)] :=
    record?_record (show ["src", "src_output", "dst", "dst_input", "control"].Nodup by decide)
  simp only [ofJson?_of_record hrecord, word?_nat h.src, word?_nat h.srcOutput, word?_nat h.dst,
    word?_nat h.dstInput, Json.bool?, Option.bind_some]

/-! ### Graphs -/

namespace Graph

/-- The numbers of a graph have 64 bits. -/
structure Words (g : Graph) : Prop where
  /-- Those of its nodes. -/
  nodes : ∀ n ∈ g.nodes, n.Words
  /-- Those of its edges. -/
  edges : ∀ e ∈ g.edges, e.Words

theorem readable_toJson (g : Graph) : g.toJson.Readable := by
  refine readable_record fun f hf => ?_
  simp only [List.mem_cons, List.not_mem_nil, or_false] at hf
  rcases hf with rfl | rfl
  · exact readable_array_map Node.readable_toJson _
  · exact readable_array_map Edge.readable_toJson _

instance (n : Node) : Decidable n.Words :=
  decidable_of_iff (n.id < 2 ^ 64 ∧ ∀ a ∈ n.attrs.toList, a.2.Words)
    ⟨fun h => ⟨h.1, h.2⟩, fun h => ⟨h.id, h.attrs⟩⟩

instance (e : Edge) : Decidable e.Words :=
  decidable_of_iff (e.src < 2 ^ 64 ∧ e.srcOutput < 2 ^ 64 ∧ e.dst < 2 ^ 64 ∧ e.dstInput < 2 ^ 64)
    ⟨fun h => ⟨h.1, h.2.1, h.2.2.1, h.2.2.2⟩, fun h => ⟨h.src, h.srcOutput, h.dst, h.dstInput⟩⟩

instance (g : Graph) : Decidable g.Words :=
  decidable_of_iff ((∀ n ∈ g.nodes, n.Words) ∧ ∀ e ∈ g.edges, e.Words)
    ⟨fun h => ⟨h.1, h.2⟩, fun h => ⟨h.nodes, h.edges⟩⟩

/-- **A graph is read back from its stored form.** -/
theorem ofJson?_toJson {g : Graph} (h : g.Words) : ofJson? g.toJson = some g := by
  have hrecord : g.toJson.record? ["nodes", "edges"] =
      some [some (.array (g.nodes.map Node.toJson)), some (.array (g.edges.map Edge.toJson))] :=
    record?_record (show ["nodes", "edges"].Nodup by decide)
  rw [ofJson?, hrecord]
  simp only [Option.bind_eq_bind, Option.bind_some,
    list?_array fun n hn => Node.ofJson?_toJson (h.nodes n hn),
    list?_array fun e he => Edge.ofJson?_toJson (h.edges e he)]

end Graph

end TensorJit
