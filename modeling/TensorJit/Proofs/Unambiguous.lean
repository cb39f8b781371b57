import TensorJit.Proofs.Bytes
import TensorJit.Proofs.Ieee.Shortest
import TensorJit.Proofs.Signature.Text

/-!
# Signatures are unambiguous

A signature is all there is to tell whether a compiled function may be used again, so it has to say
everything that it is meant to say about the inputs, and nothing else. For inputs whose element types
agree position by position, **two signatures are equal exactly if the inputs are equally many, have the
same shapes, and have the same elements at every static position** (`signature_eq_iff`).

What it is for two elements to be the same depends on their type:

| type | two elements are the same if |
|---|---|
| integers | their bytes are |
| truth values | both are zero, or neither is |
| floating point | their words are, or neither is a number |
-/

namespace TensorJit

/-- Whether two elements of a type are the same. -/
def DType.SameElement : DType → Bytes → Bytes → Prop
  | .f32, a, b => a = b ∨ Ieee.Format.binary32.decode a.toNat = .nan ∧
      Ieee.Format.binary32.decode b.toNat = .nan
  | .f64, a, b => a = b ∨ Ieee.Format.binary64.decode a.toNat = .nan ∧
      Ieee.Format.binary64.decode b.toNat = .nan
  | .bool, a, b => a.toNat = 0 ↔ b.toNat = 0
  | .i32, a, b | .i64, a, b | .u8, a, b => a = b

/-- Whether two tensors of a type have the same elements. -/
def Tensor.SameElements (t u : Tensor) : Prop :=
  List.Forall₂ t.spec.dtype.SameElement t.elements u.elements

/-! ### Elements -/

namespace Tensor

/-- **Two elements are written alike exactly if they are the same.** -/
theorem elementText_eq_iff {d : DType} {a b : Bytes} (ha : a.length = d.size)
    (hb : b.length = d.size) : elementText d a = elementText d b ↔ d.SameElement a b := by
  have hlength : a.length = b.length := ha.trans hb.symm
  have hfloat : ∀ {f : Ieee.Format}, f.Wide → 256 ^ d.size = 2 * f.signBit →
      (f.render a.toNat = f.render b.toNat ↔
        a = b ∨ f.decode a.toNat = .nan ∧ f.decode b.toNat = .nan) := by
    intro f hwide hsize
    have hword : ∀ {c : Bytes}, c.length = d.size → c.toNat < 2 * f.signBit := fun hc => by
      rw [← hsize, ← hc]
      exact Bytes.toNat_lt _
    rw [Ieee.Format.render_eq_iff hwide (hword ha) (hword hb)]
    exact or_congr_left ⟨Bytes.eq_of_toNat_eq hlength, congrArg _⟩
  cases d with
  | f32 => exact hfloat (by decide) (by decide)
  | f64 => exact hfloat (by decide) (by decide)
  | i32 | i64 =>
    exact ⟨fun h => Bytes.eq_of_toInt_eq hlength (Text.intDigits_injective h), congrArg _⟩
  | u8 => exact ⟨fun h => Bytes.eq_of_toNat_eq hlength (Text.natDigits_injective h), congrArg _⟩
  | bool =>
    change (if a.toNat = 0 then "false".toList else "true".toList) =
      (if b.toNat = 0 then "false".toList else "true".toList) ↔ (a.toNat = 0 ↔ b.toNat = 0)
    by_cases hza : a.toNat = 0
    · by_cases hzb : b.toNat = 0
      · simp only [hza, hzb]
      · simp [hza, hzb]
    · by_cases hzb : b.toNat = 0
      · simp [hza, hzb]
      · simp only [hza, hzb, if_false]

/-- **Two values of one spec are written alike exactly if they have the same elements.** -/
theorem valueText_eq_iff {t u : Tensor} (hspec : t.spec = u.spec) (ht : t.WellSized)
    (hu : u.WellSized) : t.valueText = u.valueText ↔ t.SameElements u := by
  have hplain : ∀ (l : List Bytes), ∀ x ∈ l.map (elementText t.spec.dtype), Plain x := by
    intro l x hx
    obtain ⟨b, -, rfl⟩ := List.mem_map.1 hx
    exact plain_elementText _ _
  have hcount : t.elements.length = u.elements.length := by
    rw [length_elements t ht, length_elements u hu, hspec]
  -- No text of an element has a comma in it, so the joined texts are equal if all parts are.
  have htexts : t.valueText = u.valueText ↔
      t.elements.map (elementText t.spec.dtype) = u.elements.map (elementText t.spec.dtype) := by
    unfold valueText
    rw [if_pos ht, if_pos hu, ← hspec]
    constructor
    · intro h
      exact eq_of_joinTexts_eq (hplain _) (hplain _)
        (by rw [List.length_map, List.length_map, hcount]) (Except.ok.inj h)
    · exact fun h => congrArg (Except.ok ∘ joinTexts) h
  have hsize : ∀ b ∈ t.elements ++ u.elements, b.length = t.spec.dtype.size := by
    intro b hb
    rcases List.mem_append.1 hb with hb | hb
    · exact Bytes.length_of_mem_chunks b hb
    · rw [hspec]
      exact Bytes.length_of_mem_chunks b hb
  rw [htexts]
  unfold SameElements
  -- What remains is about two lists of elements, one by one.
  generalize t.elements = as at hcount hsize ⊢
  generalize u.elements = bs at hcount hsize ⊢
  clear htexts hplain
  induction as generalizing bs with
  | nil =>
    obtain rfl := List.length_eq_zero_iff.1 hcount.symm
    exact iff_of_true rfl .nil
  | cons a as ih =>
    obtain ⟨b, bs, rfl⟩ := List.exists_cons_of_length_eq_add_one hcount.symm
    have hrest : as.map (elementText t.spec.dtype) = bs.map (elementText t.spec.dtype) ↔
        List.Forall₂ t.spec.dtype.SameElement as bs :=
      ih bs (Nat.succ.inj hcount) fun c hc => hsize c (by
        rcases List.mem_append.1 hc with hc | hc
        · exact List.mem_append_left _ (List.mem_cons_of_mem _ hc)
        · exact List.mem_append_right _ (List.mem_cons_of_mem _ hc))
    rw [List.map_cons, List.map_cons, List.cons.injEq, List.forall₂_cons, hrest,
      elementText_eq_iff (hsize a (List.mem_append_left _ List.mem_cons_self))
        (hsize b (List.mem_append_right _ List.mem_cons_self))]

end Tensor

/-! ### Signatures -/

namespace Signature

variable {flags : StaticInputs} {ts us : List Tensor} {c d : Computed}

/-- The text of some values depends on the text of each. -/
theorem valuesText_congr {ts us : List Tensor}
    (h : ts.map Tensor.valueText = us.map Tensor.valueText) : valuesText ts = valuesText us := by
  induction ts generalizing us with
  | nil =>
    obtain rfl := List.map_eq_nil_iff.1 h.symm
    rfl
  | cons t ts ih =>
    cases us with
    | nil => cases h
    | cons u us =>
      obtain ⟨hfirst, hrest⟩ := List.cons.inj h
      unfold valuesText
      rw [hfirst, ih hrest]

/-- The value of a static input can be written. -/
theorem wellSized_of_compute (hc : compute flags ts = .ok c) {position : Nat} {t : Tensor}
    (ht : ts[position]? = some t) (hstatic : flags.isStatic position = true) : t.WellSized := by
  obtain ⟨-, text, htext⟩ := valueText_eq_of_signature_eq hc hc rfl ht ht hstatic
  exact (Tensor.valueText_eq_ok htext).1

/-- Signatures are equal if the shapes and the texts of the static values are. -/
theorem signature_eq_of_texts_eq (hc : compute flags ts = .ok c) (hd : compute flags us = .ok d)
    (hshapes : ts.map (·.spec.shape) = us.map (·.spec.shape))
    (htexts : ((staticsFrom flags 0 ts).filterMap id).map Tensor.valueText =
      ((staticsFrom flags 0 us).filterMap id).map Tensor.valueText) : c.signature = d.signature := by
  obtain ⟨v, hv, hcs, -⟩ := compute_eq_ok hc
  obtain ⟨w, hw, hds, -⟩ := compute_eq_ok hd
  obtain rfl : v = w := Except.ok.inj (hv.symm.trans ((valuesText_congr htexts).trans hw))
  refine String.toList_inj.1 ?_
  rw [hcs, hds, hshapes]

end Signature

open Signature in
/-- **A signature is unambiguous.** For inputs whose element types agree wherever both lists have an
input, two signatures are equal exactly if there are as many inputs, of the same shapes, with the same
elements at every static position. -/
theorem signature_eq_iff (flags : StaticInputs) (ts us : List Tensor) (c d : Computed)
    (hdtypes : ∀ (position : Nat) (t u : Tensor), ts[position]? = some t →
      us[position]? = some u → t.spec.dtype = u.spec.dtype)
    (hc : compute flags ts = .ok c) (hd : compute flags us = .ok d) :
    c.signature = d.signature ↔ ts.length = us.length ∧
      ∀ (position : Nat) (t u : Tensor), ts[position]? = some t → us[position]? = some u →
        t.spec.shape = u.spec.shape ∧ (flags.isStatic position = true → t.SameElements u) := by
  have hspec : ∀ {position : Nat} {t u : Tensor}, ts[position]? = some t →
      us[position]? = some u → t.spec.shape = u.spec.shape → t.spec = u.spec := by
    intro position t u ht hu hshape
    have hdtype := hdtypes position t u ht hu
    cases hts : t.spec
    cases hus : u.spec
    rw [hts, hus] at hdtype hshape
    exact congrArg₂ TensorSpec.mk hdtype hshape
  constructor
  · intro h
    have hshapes := shapes_eq_of_signature_eq hc hd h
    refine ⟨by simpa using congrArg List.length hshapes, fun position t u ht hu => ?_⟩
    have hshape : t.spec.shape = u.spec.shape := by
      have := congrArg (·[position]?) hshapes
      simpa [ht, hu] using this
    refine ⟨hshape, fun hstatic => ?_⟩
    exact (Tensor.valueText_eq_iff (hspec ht hu hshape) (wellSized_of_compute hc ht hstatic)
      (wellSized_of_compute hd hu hstatic)).1 (valueText_eq_of_signature_eq hc hd h ht hu hstatic).1
  · rintro ⟨hlength, hall⟩
    refine signature_eq_of_texts_eq hc hd ?_ ((texts_eq_iff 0 hlength).2 ?_)
    · refine List.ext_getElem (by rw [List.length_map, List.length_map, hlength]) fun q hq hq' => ?_
      rw [List.length_map] at hq hq'
      rw [List.getElem_map, List.getElem_map]
      exact (hall q _ _ (List.getElem?_eq_getElem hq) (List.getElem?_eq_getElem hq')).1
    · intro position t u ht hu hstatic
      rw [Nat.zero_add] at hstatic
      obtain ⟨hshape, hsame⟩ := hall position t u ht hu
      exact (Tensor.valueText_eq_iff (hspec ht hu hshape) (wellSized_of_compute hc ht hstatic)
        (wellSized_of_compute hd hu hstatic)).2 (hsame hstatic)

/-- Two lists of a scalar, a tensor without elements, two truth values and a dynamic input; in all
static positions they have the same elements, though not the same bytes. -/
theorem same_of_mixed : ∃ c d,
    Signature.compute ⟨[true, true, true]⟩ [⟨⟨.f32, []⟩, [1, 0, 192, 127]⟩, ⟨⟨.i64, [0, 3]⟩, []⟩,
      ⟨⟨.bool, [2]⟩, [0, 1]⟩, ⟨⟨.f32, [1]⟩, [0, 0, 128, 63]⟩] = .ok c ∧
    Signature.compute ⟨[true, true, true]⟩ [⟨⟨.f32, []⟩, [0, 0, 192, 255]⟩, ⟨⟨.i64, [0, 3]⟩, []⟩,
      ⟨⟨.bool, [2]⟩, [0, 7]⟩, ⟨⟨.f32, [1]⟩, [0, 0, 0, 0]⟩] = .ok d ∧
    c.signature = ";0,3,;2,;1,;/NaN;;false,true;" ∧ c.signature = d.signature ∧
    (⟨⟨.bool, [2]⟩, [0, 1]⟩ : Tensor).SameElements ⟨⟨.bool, [2]⟩, [0, 7]⟩ := by
  obtain ⟨ts, hts⟩ : ∃ ts : List Tensor, ts = [⟨⟨.f32, []⟩, [1, 0, 192, 127]⟩,
    ⟨⟨.i64, [0, 3]⟩, []⟩, ⟨⟨.bool, [2]⟩, [0, 1]⟩, ⟨⟨.f32, [1]⟩, [0, 0, 128, 63]⟩] := ⟨_, rfl⟩
  obtain ⟨us, hus⟩ : ∃ us : List Tensor, us = [⟨⟨.f32, []⟩, [0, 0, 192, 255]⟩,
    ⟨⟨.i64, [0, 3]⟩, []⟩, ⟨⟨.bool, [2]⟩, [0, 7]⟩, ⟨⟨.f32, [1]⟩, [0, 0, 0, 0]⟩] := ⟨_, rfl⟩
  have hc : Signature.compute ⟨[true, true, true]⟩ ts = .ok ⟨";0,3,;2,;1,;/NaN;;false,true;",
      ts.map (·.spec), Signature.staticsFrom ⟨[true, true, true]⟩ 0 ts⟩ := by
    rw [hts]
    decide +kernel
  have hd : Signature.compute ⟨[true, true, true]⟩ us = .ok ⟨";0,3,;2,;1,;/NaN;;false,true;",
      us.map (·.spec), Signature.staticsFrom ⟨[true, true, true]⟩ 0 us⟩ := by
    rw [hus]
    decide +kernel
  have hdtypes : ∀ (position : Nat) (t u : Tensor), ts[position]? = some t →
      us[position]? = some u → t.spec.dtype = u.spec.dtype := by
    rw [hts, hus]
    rintro (_ | _ | _ | _ | position) t u ht hu
    all_goals cases ht <;> cases hu <;> rfl
  obtain ⟨-, hsame⟩ := (signature_eq_iff _ ts us _ _ hdtypes hc hd).1 rfl
  have htruth := (hsame 2 ⟨⟨.bool, [2]⟩, [0, 1]⟩ ⟨⟨.bool, [2]⟩, [0, 7]⟩ (by rw [hts]; rfl)
    (by rw [hus]; rfl)).2 (by decide)
  rw [hts] at hc
  rw [hus] at hd
  exact ⟨_, _, hc, hd, rfl, rfl, htruth⟩

end TensorJit
