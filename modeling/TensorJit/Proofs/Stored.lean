import TensorJit.AotTable
import TensorJit.Proofs.Function.Stored
import TensorJit.Proofs.Graph.Stored

/-!
# What is stored is read back

Functions, graphs and specs are stored as JSON texts, functions over several lines and the others
in either layout. Each of them is **read back from its text** (`stored_read_back`), and so is the
function that a table holds under a signature.

| layer | what reads it back |
|---|---|
| text | `Json.read?_compact`, `Json.read?_prettyAt` |
| records, lists and choices | `Json.record?_record`, `Json.list?_array` |
| the formats | `Function.ofJson?_toJson`, `Graph.ofJson?_toJson`, `TensorSpec.ofJson?_toJson` |

The numbers have to be those of 64-bit machines, since a reader takes no others; nothing is asked
of names, keys and texts.
-/

namespace TensorJit

/-- A value is read back from its text on one line. -/
theorem Json.ofText?_render {j : Json} (h : j.Readable) : ofText? j.render = some j := by
  rw [ofText?, render, String.toList_ofList, read?_compact h]

/-- So it is from its text on many lines. -/
theorem Json.ofText?_renderPretty {j : Json} (h : j.Readable) :
    ofText? j.renderPretty = some j := by
  rw [ofText?, renderPretty, String.toList_ofList, read?_prettyAt h]

namespace Graph

theorem ofText?_of_json {g : Graph} (h : g.Words) {text : String}
    (htext : Json.ofText? text = some g.toJson) : ofText? text = some g := by
  rw [ofText?, htext]
  exact ofJson?_toJson h

end Graph

namespace TensorSpec

theorem ofText?_of_json {s : TensorSpec} (h : s.Words) {text : String}
    (htext : Json.ofText? text = some s.toJson) : ofText? text = some s := by
  rw [ofText?, htext]
  exact ofJson?_toJson h

end TensorSpec

/-- **Stored forms are read back.** A function whose numbers are machine words is read back from
its text, and found in a table after it has been set there; a graph and a spec are read back from
their texts in both layouts. -/
theorem stored_read_back (f : Function) (g : Graph) (s : TensorSpec) (hf : f.Words)
    (hg : g.Words) (hs : s.Words) :
    (Function.ofText? f.toText = some f ∧
      ∀ (t : AotTable) (signature : Signature),
        (t.insertFunction signature f).function? signature = some (some f)) ∧
    (Graph.ofText? g.toJson.render = some g ∧ Graph.ofText? g.toJson.renderPretty = some g) ∧
    TensorSpec.ofText? s.toJson.render = some s ∧
      TensorSpec.ofText? s.toJson.renderPretty = some s := by
  have hfunction : Function.ofText? f.toText = some f := Function.ofText?_toText hf
  refine ⟨⟨hfunction, fun t signature => ?_⟩, ⟨?_, ?_⟩, ?_, ?_⟩
  · have hget : (t.insertFunction signature f).functions.get? signature = some f.toText :=
      (SortedMap.get?_insert ..).trans (if_pos rfl)
    rw [AotTable.function?, hget, Option.map_some, hfunction]
  · exact Graph.ofText?_of_json hg (Json.ofText?_render g.readable_toJson)
  · exact Graph.ofText?_of_json hg (Json.ofText?_renderPretty g.readable_toJson)
  · exact TensorSpec.ofText?_of_json hs (Json.ofText?_render s.readable_toJson)
  · exact TensorSpec.ofText?_of_json hs (Json.ofText?_renderPretty s.readable_toJson)

/-- A text with everything that is escaped, and with characters that are not. -/
def awkwardName : String := "\"\\\n\r\t\x08\x0c\x01\x1f/\x7fß日😀"

/-- The largest numbers, and lists that are empty. -/
def Function.sampleAwkward : Function where
  name := awkwardName
  parameters := [⟨.f32, []⟩, ⟨.bool, [2 ^ 64 - 1, 0]⟩]
  results := []
  body := [⟨.identity, [.parameter (2 ^ 64 - 1)], ⟨.i64, []⟩⟩, ⟨.add, [], ⟨.u8, [0]⟩⟩]
  outputs := []

/-- Attributes of every kind, under awkward names, with integers at both limits. -/
def Graph.sampleAwkward : Graph where
  nodes := [⟨2 ^ 64 - 1, awkwardName, "", .ofList [("", .int (-2 ^ 63)), (awkwardName, .str awkwardName),
    ("b", .bool false), ("l", .intList [2 ^ 63 - 1, 0, -1]), ("n", .intList []), ("t", .dtype .f64)]⟩]
  edges := [⟨2 ^ 64 - 1, 0, 7, 2 ^ 64 - 1, true⟩]

/-- They are read back. -/
theorem read_back_of_awkward :
    Function.sampleAwkward.Words ∧ Graph.sampleAwkward.Words ∧
    (⟨.i32, [2 ^ 64 - 1]⟩ : TensorSpec).Words ∧
    (AotTable.empty.insertFunction awkwardName .sampleAwkward).function? awkwardName =
      some (some .sampleAwkward) ∧
    Graph.ofText? Graph.sampleAwkward.toJson.render = some .sampleAwkward ∧
    TensorSpec.ofText? (TensorSpec.toJson ⟨.i32, [2 ^ 64 - 1]⟩).renderPretty =
      some ⟨.i32, [2 ^ 64 - 1]⟩ := by
  have hfits : Function.sampleAwkward.FitsWords := by decide +kernel
  have hg : Graph.sampleAwkward.Words := by decide +kernel
  have hs : (⟨.i32, [2 ^ 64 - 1]⟩ : TensorSpec).Words :=
    show ∀ d ∈ [2 ^ 64 - 1], d < 2 ^ 64 by decide
  obtain ⟨⟨-, htable⟩, ⟨hgraph, -⟩, -, hspec⟩ := stored_read_back _ _ _ hfits.words hg hs
  exact ⟨hfits.words, hg, hs, htable .empty awkwardName, hgraph, hspec⟩

end TensorJit
