import TensorJit.Function.Stored
import TensorJit.Proofs.Function.Serialized
import TensorJit.Proofs.Json.Record

/-!
# Reading stored functions back

A function is read back from its text (`Function.ofText?_toText`) if the dimensions and positions in
it are machine words (`Function.Words`). Its name may be any text, and any of its lists may be
empty.
-/

namespace TensorJit

open Json (readable_record readable_array_map record?_record list?_array word?_nat)

/-! ### Specs -/

/-- Dimensions are written as a list of numbers, which can be read. -/
theorem Shape.readable_toJson (s : Shape) : s.toJson.Readable := by
  have hnat : ∀ n, (Json.nat n).Readable := fun _ => trivial
  refine readable_record fun f hf => ?_
  rw [List.mem_singleton.1 hf]
  exact readable_array_map hnat s

/-- Dimensions that are machine words are read back. -/
theorem Shape.ofJson?_toJson {s : Shape} (h : ∀ d ∈ s, d < 2 ^ 64) : ofJson? s.toJson = some s := by
  have hrecord : s.toJson.record? ["dims"] = some [some (.array (s.map .nat))] :=
    record?_record (List.nodup_singleton _)
  unfold ofJson?
  rw [hrecord]
  exact list?_array fun d hd => word?_nat (h d hd)

theorem TensorSpec.readable_toJson (s : TensorSpec) : s.toJson.Readable := by
  refine readable_record fun f hf => ?_
  simp only [List.mem_cons, List.not_mem_nil, or_false] at hf
  rcases hf with rfl | rfl
  · exact trivial
  · exact s.shape.readable_toJson

/-- The dimensions of a spec are machine words. -/
def TensorSpec.Words (s : TensorSpec) : Prop := ∀ d ∈ s.shape, d < 2 ^ 64

/-- **A spec is read back** from its two fields. -/
theorem TensorSpec.ofJson?_toJson {s : TensorSpec} (h : s.Words) : ofJson? s.toJson = some s := by
  have hrecord : s.toJson.record? ["dtype", "shape"] =
      some [some (.string s.dtype.tag), some s.shape.toJson] :=
    record?_record (show ["dtype", "shape"].Nodup by decide)
  unfold ofJson?
  rw [hrecord]
  change ((DType.ofTag? s.dtype.tag).bind fun dtype =>
    (Shape.ofJson? s.shape.toJson).bind fun shape => some (TensorSpec.mk dtype shape)) = _
  rw [DType.ofTag?_tag, Shape.ofJson?_toJson h]
  rfl

/-! ### Functions -/

theorem ValueRef.readable_toJson (r : ValueRef) : r.toJson.Readable := by
  cases r <;> exact ⟨rfl, trivial, trivial⟩

/-- What the name of a variant holds is read as its number. -/
theorem ValueRef.ofJson?_parameter (held : Json) :
    ofJson? (.record [("Parameter", held)]) = held.word?.map .parameter := rfl

theorem ValueRef.ofJson?_instruction (held : Json) :
    ofJson? (.record [("Instruction", held)]) = held.word?.map .instruction := rfl

/-- A reference is read back. -/
theorem ValueRef.ofJson?_toJson {r : ValueRef} (h : r.FitsWords) : ofJson? r.toJson = some r := by
  cases r with
  | parameter position =>
    have hposition : position < 2 ^ 64 := h
    rw [toJson, ofJson?_parameter, word?_nat hposition]
    rfl
  | instruction position =>
    have hposition : position < 2 ^ 64 := h
    rw [toJson, ofJson?_instruction, word?_nat hposition]
    rfl

/-- The numbers in an instruction are machine words. -/
structure Instruction.Words (i : Instruction) : Prop where
  /-- The positions of its operands. -/
  operands : ∀ r ∈ i.operands, r.FitsWords
  /-- The dimensions of its result. -/
  spec : i.spec.Words

theorem Instruction.readable_toJson (i : Instruction) : i.toJson.Readable := by
  refine readable_record fun f hf => ?_
  simp only [List.mem_cons, List.not_mem_nil, or_false] at hf
  rcases hf with rfl | rfl | rfl
  · exact trivial
  · exact readable_array_map ValueRef.readable_toJson _
  · exact i.spec.readable_toJson

/-- **An instruction is read back.** -/
theorem Instruction.ofJson?_toJson {i : Instruction} (h : i.Words) :
    ofJson? i.toJson = some i := by
  have hrecord : i.toJson.record? ["op", "operands", "spec"] =
      some [some (.string i.op.tag), some (.array (i.operands.map ValueRef.toJson)),
        some i.spec.toJson] := record?_record (show ["op", "operands", "spec"].Nodup by decide)
  unfold ofJson?
  rw [hrecord]
  change ((OpKind.ofTag? i.op.tag).bind fun op =>
    ((Json.array (i.operands.map ValueRef.toJson)).list? ValueRef.ofJson?).bind fun operands =>
      (TensorSpec.ofJson? i.spec.toJson).bind fun spec => some (Instruction.mk op operands spec)) = _
  rw [OpKind.ofTag?_tag, list?_array fun r hr => ValueRef.ofJson?_toJson (h.operands r hr),
    TensorSpec.ofJson?_toJson h.spec]
  rfl

namespace Function

/-- The numbers in a function are machine words. -/
structure Words (f : Function) : Prop where
  /-- The dimensions of its parameters. -/
  parameters : ∀ s ∈ f.parameters, s.Words
  /-- Those of its results. -/
  results : ∀ s ∈ f.results, s.Words
  /-- The numbers in its instructions. -/
  body : ∀ i ∈ f.body, i.Words
  /-- The positions of what it returns. -/
  outputs : ∀ r ∈ f.outputs, r.FitsWords

/-- A function that fits the binary form fits the text as well, which does not bound the length of
lists. -/
theorem FitsWords.words {f : Function} (h : f.FitsWords) : f.Words where
  parameters s hs := (h.parameters.items s hs).items
  results s hs := (h.results.items s hs).items
  body i hi := ⟨(h.body.items i hi).operands.items, (h.body.items i hi).spec.items⟩
  outputs := h.outputs.items

theorem readable_toJson (f : Function) : f.toJson.Readable := by
  refine readable_record fun g hg => ?_
  simp only [List.mem_cons, List.not_mem_nil, or_false] at hg
  rcases hg with rfl | rfl | rfl | rfl | rfl
  · exact trivial
  · exact readable_array_map TensorSpec.readable_toJson _
  · exact readable_array_map TensorSpec.readable_toJson _
  · exact readable_array_map Instruction.readable_toJson _
  · exact readable_array_map ValueRef.readable_toJson _

/-- A function is read back from its stored form. -/
theorem ofJson?_toJson {f : Function} (h : f.Words) : ofJson? f.toJson = some f := by
  have hrecord : f.toJson.record? ["name", "parameters", "results", "body", "outputs"] =
      some [some (.string f.name), some (.array (f.parameters.map TensorSpec.toJson)),
        some (.array (f.results.map TensorSpec.toJson)),
        some (.array (f.body.map Instruction.toJson)),
        some (.array (f.outputs.map ValueRef.toJson))] :=
    record?_record (show ["name", "parameters", "results", "body", "outputs"].Nodup by decide)
  unfold ofJson?
  rw [hrecord]
  change ((Json.array (f.parameters.map TensorSpec.toJson)).list? TensorSpec.ofJson?).bind
    (fun parameters =>
      ((Json.array (f.results.map TensorSpec.toJson)).list? TensorSpec.ofJson?).bind fun results =>
        ((Json.array (f.body.map Instruction.toJson)).list? Instruction.ofJson?).bind fun body =>
          ((Json.array (f.outputs.map ValueRef.toJson)).list? ValueRef.ofJson?).bind fun outputs =>
            some (Function.mk f.name parameters results body outputs)) = _
  rw [list?_array fun s hs => TensorSpec.ofJson?_toJson (h.parameters s hs),
    list?_array fun s hs => TensorSpec.ofJson?_toJson (h.results s hs),
    list?_array fun i hi => Instruction.ofJson?_toJson (h.body i hi),
    list?_array fun r hr => ValueRef.ofJson?_toJson (h.outputs r hr)]
  rfl

/-- **A function is read back from its text.** -/
theorem ofText?_toText {f : Function} (h : f.Words) : ofText? f.toText = some f := by
  unfold ofText? toText Json.ofText? Json.renderPretty
  rw [String.toList_ofList, Json.read?_prettyAt f.readable_toJson]
  exact ofJson?_toJson h

end Function

end TensorJit
