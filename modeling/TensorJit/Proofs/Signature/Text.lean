import Mathlib.Data.List.Basic
import TensorJit.Proofs.Text.Decimal
import TensorJit.Signature

/-!
# What a signature says about its inputs

A signature is a text with separators, and this file reads it back. Numbers, in whatever way
they are written, never contain a comma, a semicolon or a slash (`plain_natDigits`,
`Format.plain_render`), so a text can be cut at its separators in one way only
(`eq_of_append_cons_eq`). From the cuts follows what the signature determines:

| part | what it determines | |
|---|---|---|
| up to the slash | the shapes of all inputs | `shapes_eq_of_text_eq` |
| after the slash | the text of every static value | `texts_eq_of_valuesText_eq` |
| the text of a value | its elements, if these are integers | `integers_eq_of_valueText_eq` |

The text of floating-point elements and truth values is not read back here: nothing that is
compiled depends on them, and it takes more to do so.
-/

namespace TensorJit

/-! ### Characters that separate nothing -/

/-- A text without separators. -/
def Plain (text : List Char) : Prop := ∀ c ∈ text, c ≠ ',' ∧ c ≠ ';' ∧ c ≠ '/'

theorem plain_nil : Plain [] := List.forall_mem_nil _

/-- Plain texts one after the other are plain. -/
theorem plain_append {a b : List Char} : Plain (a ++ b) ↔ Plain a ∧ Plain b := by
  unfold Plain
  constructor
  · intro h
    exact ⟨fun c hc => h c (List.mem_append_left _ hc), fun c hc => h c (List.mem_append_right _ hc)⟩
  · rintro ⟨ha, hb⟩ c hc
    exact (List.mem_append.1 hc).elim (ha c) (hb c)

theorem plain_cons {c : Char} {a : List Char} :
    Plain (c :: a) ↔ (c ≠ ',' ∧ c ≠ ';' ∧ c ≠ '/') ∧ Plain a := by
  simp only [Plain, List.mem_cons, forall_eq_or_imp]

/-- Fewer characters are plain, too. -/
theorem Plain.of_subset {a b : List Char} (hb : Plain b) (h : a ⊆ b) : Plain a :=
  fun c hc => hb c (h hc)

theorem plain_replicate {n : Nat} {c : Char} (h : c ≠ ',' ∧ c ≠ ';' ∧ c ≠ '/') :
    Plain (List.replicate n c) := fun _ hd => (List.eq_of_mem_replicate hd) ▸ h

theorem Plain.comma {a : List Char} (h : Plain a) : ',' ∉ a := fun hc => (h _ hc).1 rfl

theorem Plain.semicolon {a : List Char} (h : Plain a) : ';' ∉ a := fun hc => (h _ hc).2.1 rfl

/-! ### Numbers -/

namespace Text

/-- Digits separate nothing. -/
theorem plain_natDigits (n : Nat) : Plain (natDigits n) := by
  intro c hc
  have hd : c.isDigit = true := Nat.isDigit_of_mem_toDigits (by decide) (by decide) hc
  refine ⟨?_, ?_, ?_⟩ <;> rintro rfl <;> exact absurd hd (by decide)

/-- Nor does a sign. -/
theorem plain_intDigits (i : Int) : Plain (intDigits i) := by
  cases i with
  | ofNat n => exact plain_natDigits n
  | negSucc n => exact plain_cons.2 ⟨by decide, plain_natDigits _⟩

end Text

namespace Ieee

/-- Nor does a decimal point or an exponent. -/
theorem Decimal.plain_render (d : Decimal) : Plain d.render := by
  have hdigits := Text.plain_natDigits d.digits
  unfold Decimal.render
  simp only
  split
  · unfold Decimal.layoutPositional
    split
    · exact plain_cons.2 ⟨by decide, plain_cons.2 ⟨by decide,
        plain_append.2 ⟨plain_replicate (by decide), hdigits⟩⟩⟩
    · refine plain_append.2 ⟨plain_append.2 ⟨hdigits.of_subset (List.take_subset ..),
        plain_replicate (by decide)⟩, plain_cons.2 ⟨by decide, ?_⟩⟩
      split
      · exact plain_cons.2 ⟨by decide, plain_nil⟩
      · exact hdigits.of_subset (List.drop_subset ..)
  · unfold Decimal.layoutScientific
    refine plain_append.2 ⟨plain_append.2 ⟨hdigits.of_subset (List.take_subset ..), ?_⟩,
      plain_cons.2 ⟨by decide, Text.plain_intDigits _⟩⟩
    split
    · exact plain_nil
    · exact plain_cons.2 ⟨by decide, hdigits.of_subset (List.drop_subset ..)⟩

/-- The text of a floating-point word has no separators. -/
theorem Format.plain_render (f : Format) (word : Nat) : Plain (f.render word) := by
  have hsign : ∀ negative : Bool, Plain (if negative then ['-'] else []) := fun negative => by
    cases negative
    · exact plain_nil
    · exact plain_cons.2 ⟨by decide, plain_nil⟩
  unfold Format.render
  simp only
  split
  · simp [Plain]
  · exact plain_append.2 ⟨hsign _, by simp [Plain]⟩
  · refine plain_append.2 ⟨hsign _, ?_⟩
    split
    · simp [Plain]
    · exact Decimal.plain_render _

end Ieee

/-! ### Cutting a text at its separators -/

/-- A list is cut in one way only at the first occurrence of an element. -/
theorem eq_of_append_cons_eq {α : Type} {c : α} {a b r s : List α} (ha : c ∉ a) (hb : c ∉ b)
    (h : a ++ c :: r = b ++ c :: s) : a = b ∧ r = s := by
  induction a generalizing b with
  | nil =>
    cases b with
    | nil => exact ⟨rfl, (List.cons.inj h).2⟩
    | cons d b => exact absurd (List.cons.inj h).1 fun he => hb (he ▸ List.mem_cons_self)
  | cons d a ih =>
    cases b with
    | nil => exact absurd (List.cons.inj h).1 fun he => ha (he ▸ List.mem_cons_self)
    | cons e b =>
      rw [List.cons_append, List.cons_append] at h
      obtain ⟨rfl, htail⟩ := List.cons.inj h
      obtain ⟨rfl, hr⟩ := ih (fun hc => ha (List.mem_cons_of_mem _ hc))
        (fun hc => hb (List.mem_cons_of_mem _ hc)) htail
      exact ⟨rfl, hr⟩

namespace Signature

/-! ### Shapes -/

/-- The dimensions of a shape, each followed by a comma. -/
def dimsText (s : Shape) : List Char := s.flatMap fun d => Text.natDigits d ++ [',']

theorem shapeText_eq (s : Shape) : shapeText s = dimsText s ++ [';'] := rfl

/-- Dimensions are separated by commas only. -/
theorem mem_dimsText {s : Shape} {c : Char} (h : c ∈ dimsText s) : c ≠ ';' ∧ c ≠ '/' := by
  obtain ⟨d, -, hc⟩ := List.mem_flatMap.1 h
  rcases List.mem_append.1 hc with hc | hc
  · exact ⟨(Text.plain_natDigits d c hc).2.1, (Text.plain_natDigits d c hc).2.2⟩
  · rw [List.mem_singleton] at hc
    subst hc
    exact ⟨by decide, by decide⟩

/-- **Dimensions are told by their text.** -/
theorem dimsText_injective : Function.Injective dimsText := by
  intro s
  induction s with
  | nil =>
    intro t h
    cases t with
    | nil => rfl
    | cons e t => simp [dimsText] at h
  | cons d s ih =>
    intro t h
    cases t with
    | nil => simp [dimsText] at h
    | cons e t =>
      have h' : Text.natDigits d ++ ',' :: dimsText s = Text.natDigits e ++ ',' :: dimsText t := by
        simpa [dimsText] using h
      obtain ⟨hd, hs⟩ := eq_of_append_cons_eq (Text.plain_natDigits d).comma
        (Text.plain_natDigits e).comma h'
      rw [Text.natDigits_injective hd, ih hs]

/-- **Shapes are told by their texts one after the other**, since each ends with a semicolon. -/
theorem shapes_eq_of_flatMap_eq {ss ts : List Shape}
    (h : ss.flatMap shapeText = ts.flatMap shapeText) : ss = ts := by
  induction ss generalizing ts with
  | nil =>
    cases ts with
    | nil => rfl
    | cons t ts => simp [shapeText_eq] at h
  | cons s ss ih =>
    cases ts with
    | nil => simp [shapeText_eq] at h
    | cons t ts =>
      have h' : dimsText s ++ ';' :: ss.flatMap shapeText =
          dimsText t ++ ';' :: ts.flatMap shapeText := by
        simpa [shapeText_eq] using h
      obtain ⟨hs, hss⟩ := eq_of_append_cons_eq (fun hc => (mem_dimsText hc).1 rfl)
        (fun hc => (mem_dimsText hc).1 rfl) h'
      rw [dimsText_injective hs, ih hss]

/-- There is no slash in them. -/
theorem slash_notMem_shapes (ss : List Shape) : '/' ∉ ss.flatMap shapeText := by
  intro h
  obtain ⟨s, -, hc⟩ := List.mem_flatMap.1 h
  rw [shapeText_eq] at hc
  rcases List.mem_append.1 hc with hc | hc
  · exact (mem_dimsText hc).2 rfl
  · exact absurd hc (by decide)

/-- **What stands before the slash determines the shapes.** -/
theorem shapes_eq_of_text_eq {ss ts : List Shape} {v w : List Char}
    (h : ss.flatMap shapeText ++ '/' :: v = ts.flatMap shapeText ++ '/' :: w) :
    ss = ts ∧ v = w := by
  obtain ⟨hs, hv⟩ := eq_of_append_cons_eq (slash_notMem_shapes ss) (slash_notMem_shapes ts) h
  exact ⟨shapes_eq_of_flatMap_eq hs, hv⟩

end Signature

/-! ### Values -/

namespace Tensor

/-- **No element of any type has a separator in its text.** -/
theorem plain_elementText (d : DType) (b : Bytes) : Plain (elementText d b) := by
  cases d with
  | f32 => exact Ieee.Format.plain_render _ _
  | f64 => exact Ieee.Format.plain_render _ _
  | i32 => exact Text.plain_intDigits _
  | i64 => exact Text.plain_intDigits _
  | u8 => exact Text.plain_natDigits _
  | bool =>
    change Plain (if b.toNat = 0 then "false".toList else "true".toList)
    split <;> simp [Plain]

/-- Elements are joined by commas, so there is no semicolon in a value. -/
theorem semicolon_notMem_joinTexts {l : List (List Char)} (h : ∀ t ∈ l, Plain t) :
    ';' ∉ joinTexts l := by
  induction l using joinTexts.induct with
  | case1 => exact nofun
  | case2 t => exact (h t List.mem_cons_self).semicolon
  | case3 t rest hne ih =>
    rw [joinTexts]
    · intro hc
      rcases List.mem_append.1 hc with hc | hc
      · exact (h t List.mem_cons_self).semicolon hc
      · rcases List.mem_cons.1 hc with hc | hc
        · exact absurd hc (by decide)
        · exact ih (fun u hu => h u (List.mem_cons_of_mem _ hu)) hc
    · exact hne

/-- Joined by commas, as many plain texts can be told apart. -/
theorem eq_of_joinTexts_eq {l r : List (List Char)} (hl : ∀ t ∈ l, Plain t)
    (hr : ∀ t ∈ r, Plain t) (hlen : l.length = r.length) (h : joinTexts l = joinTexts r) :
    l = r := by
  induction l using joinTexts.induct generalizing r with
  | case1 => exact (List.length_eq_zero_iff.1 hlen.symm).symm
  | case2 t =>
    obtain ⟨u, rfl⟩ := List.length_eq_one_iff.1 hlen.symm
    exact congrArg (fun x => [x]) h
  | case3 t rest hne ih =>
    match r, hlen with
    | [u], hlen => exact absurd (List.length_eq_zero_iff.1 (Nat.succ.inj hlen)) hne
    | u :: v :: r, hlen =>
      rw [joinTexts, joinTexts] at h
      · obtain ⟨rfl, hrest⟩ := eq_of_append_cons_eq (hl t List.mem_cons_self).comma
          (hr u List.mem_cons_self).comma h
        rw [ih (fun x hx => hl x (List.mem_cons_of_mem _ hx))
          (fun x hx => hr x (List.mem_cons_of_mem _ hx)) (Nat.succ.inj hlen) hrest]
      · simp
      · exact hne

theorem length_elements (t : Tensor) (h : t.WellSized) : t.elements.length = t.spec.elements := by
  unfold elements
  rw [Bytes.length_chunks, h, TensorSpec.byteLength]
  exact Nat.mul_div_cancel _ t.spec.dtype.size_pos

/-- A value that has a text is as long as its spec says, and the text is that of its elements. -/
theorem valueText_eq_ok {t : Tensor} {text : List Char} (h : t.valueText = .ok text) :
    t.WellSized ∧ text = joinTexts (t.elements.map (elementText t.spec.dtype)) := by
  unfold valueText at h
  split at h
  · rename_i hsize
    exact ⟨hsize, (Except.ok.inj h).symm⟩
  · cases h

theorem semicolon_notMem_valueText {t : Tensor} {text : List Char} (h : t.valueText = .ok text) :
    ';' ∉ text := by
  obtain ⟨-, rfl⟩ := valueText_eq_ok h
  refine semicolon_notMem_joinTexts fun x hx => ?_
  obtain ⟨b, -, rfl⟩ := List.mem_map.1 hx
  exact plain_elementText _ _

theorem stretches_one (bytes : Bytes) :
    Bytes.stretches 1 bytes.length bytes = bytes.map ([·]) := by
  induction bytes with
  | nil => rfl
  | cons b rest ih =>
    rw [List.length_cons, Bytes.stretches, List.map_cons]
    exact congrArg (List.cons [b]) ih

/-- The elements of a tensor of bytes are its bytes. -/
theorem elements_u8 {t : Tensor} (h : t.spec.dtype = .u8) : t.elements = t.bytes.map ([·]) := by
  unfold elements Bytes.chunks
  rw [h]
  change Bytes.stretches 1 (t.bytes.length / 1) t.bytes = _
  rw [Nat.div_one]
  exact stretches_one t.bytes

/-- **The text of a value determines its elements, if these are integers.** -/
theorem integers_eq_of_valueText_eq {t u : Tensor} {text : List Char} (hspec : t.spec = u.spec)
    (ht : t.valueText = .ok text) (hu : u.valueText = .ok text) : t.integers = u.integers := by
  obtain ⟨htsize, rfl⟩ := valueText_eq_ok ht
  obtain ⟨husize, htext⟩ := valueText_eq_ok hu
  have hplain : ∀ (d : DType) (l : List Bytes), ∀ x ∈ l.map (elementText d), Plain x := by
    intro d l x hx
    obtain ⟨b, -, rfl⟩ := List.mem_map.1 hx
    exact plain_elementText _ _
  -- The texts of elements have no separator in them, so the joined text can be split again.
  have hmap : t.elements.map (elementText t.spec.dtype) =
      u.elements.map (elementText t.spec.dtype) := by
    rw [← hspec] at htext
    refine eq_of_joinTexts_eq (hplain _ _) (hplain _ _) ?_ htext
    rw [List.length_map, List.length_map, length_elements t htsize, length_elements u husize, hspec]
  have hsigned : t.elements.map (fun b => Text.intDigits b.toInt) =
      u.elements.map (fun b => Text.intDigits b.toInt) →
      t.elements.map Bytes.toInt = u.elements.map Bytes.toInt := by
    intro h
    refine List.map_injective_iff.2 Text.intDigits_injective ?_
    rw [List.map_map, List.map_map]
    exact h
  unfold integers
  rw [← hspec]
  cases hd : t.spec.dtype with
  | i32 => rw [hd] at hmap; exact congrArg Except.ok (hsigned hmap)
  | i64 => rw [hd] at hmap; exact congrArg Except.ok (hsigned hmap)
  | u8 =>
    rw [hd] at hmap
    rw [elements_u8 hd, elements_u8 (hspec ▸ hd), List.map_map, List.map_map] at hmap
    have hbytes : t.bytes = u.bytes := by
      refine List.map_injective_iff.2 (fun x y hxy => ?_) hmap
      have := Text.natDigits_injective hxy
      simp only [Bytes.toNat, Nat.mul_zero, Nat.add_zero] at this
      exact UInt8.toNat_inj.1 this
    simp only [hbytes]
  | f32 => rfl
  | f64 => rfl
  | bool => rfl

end Tensor

/-! ### Signatures -/

namespace Signature

/-- The text of all values is that of each, followed by a semicolon. -/
theorem valuesText_eq_ok {ts : List Tensor} {v : List Char} (h : valuesText ts = .ok v) :
    ∃ texts : List (List Char), ts.map Tensor.valueText = texts.map Except.ok ∧
      v = texts.flatMap (· ++ [';']) := by
  induction ts generalizing v with
  | nil =>
    cases h
    exact ⟨[], rfl, rfl⟩
  | cons t rest ih =>
    unfold valuesText at h
    cases ht : t.valueText with
    | error e => rw [ht] at h; cases h
    | ok text =>
      cases hrest : valuesText rest with
      | error e => rw [ht, hrest] at h; cases h
      | ok w =>
        rw [ht, hrest] at h
        cases h
        obtain ⟨texts, htexts, rfl⟩ := ih hrest
        exact ⟨text :: texts, by simp [ht, htexts], by simp⟩

/-- Texts without semicolons, each followed by one, can be told apart. -/
theorem eq_of_flatMap_semicolon_eq {l r : List (List Char)} (hl : ∀ x ∈ l, ';' ∉ x)
    (hr : ∀ x ∈ r, ';' ∉ x) (h : l.flatMap (· ++ [';']) = r.flatMap (· ++ [';'])) : l = r := by
  induction l generalizing r with
  | nil =>
    cases r with
    | nil => rfl
    | cons y r => simp at h
  | cons x l ih =>
    cases r with
    | nil => simp at h
    | cons y r =>
      have hcut : x ++ ';' :: l.flatMap (· ++ [';']) = y ++ ';' :: r.flatMap (· ++ [';']) := by
        simpa using h
      obtain ⟨rfl, htail⟩ := eq_of_append_cons_eq (hl x List.mem_cons_self)
        (hr y List.mem_cons_self) hcut
      rw [ih (fun z hz => hl z (List.mem_cons_of_mem _ hz))
        (fun z hz => hr z (List.mem_cons_of_mem _ hz)) htail]

/-- **What stands after the slash determines the text of every static value.** -/
theorem texts_eq_of_valuesText_eq {ts us : List Tensor} {v : List Char}
    (ht : valuesText ts = .ok v) (hu : valuesText us = .ok v) :
    ts.map Tensor.valueText = us.map Tensor.valueText := by
  obtain ⟨l, hl, rfl⟩ := valuesText_eq_ok ht
  obtain ⟨r, hr, hlr⟩ := valuesText_eq_ok hu
  have hfree : ∀ {ts : List Tensor} {l : List (List Char)},
      ts.map Tensor.valueText = l.map Except.ok → ∀ x ∈ l, ';' ∉ x := by
    intro ts l h x hx
    obtain ⟨t, -, ht⟩ := List.mem_map.1 (h ▸ List.mem_map_of_mem hx)
    exact Tensor.semicolon_notMem_valueText ht
  rw [hl, hr, eq_of_flatMap_semicolon_eq (hfree hl) (hfree hr) hlr]

/-! ### What a signature determines -/

/-- **What a signature consists of**: the shapes of all inputs, a slash, and the static values. -/
theorem compute_eq_ok {flags : StaticInputs} {ts : List Tensor} {c : Computed}
    (h : compute flags ts = .ok c) :
    ∃ v, valuesText ((staticsFrom flags 0 ts).filterMap id) = .ok v ∧
      c.signature.toList = (ts.map (·.spec.shape)).flatMap shapeText ++ '/' :: v ∧
      c.specs = ts.map (·.spec) ∧ c.statics = staticsFrom flags 0 ts := by
  unfold compute at h
  cases hv : valuesText ((staticsFrom flags 0 ts).filterMap id) with
  | error e =>
    simp only [hv, bind, Except.bind] at h
    cases h
  | ok v =>
    simp only [hv, bind, Except.bind, pure, Except.pure, Except.ok.injEq] at h
    subst h
    exact ⟨v, rfl, by simp [List.flatMap_map], rfl, rfl⟩

/-- The shapes that a signature was made from. -/
theorem shapes_eq_of_signature_eq {flags : StaticInputs} {ts us : List Tensor} {c d : Computed}
    (hc : compute flags ts = .ok c) (hd : compute flags us = .ok d)
    (h : c.signature = d.signature) : ts.map (·.spec.shape) = us.map (·.spec.shape) := by
  obtain ⟨v, -, hcs, -⟩ := compute_eq_ok hc
  obtain ⟨w, -, hds, -⟩ := compute_eq_ok hd
  exact (shapes_eq_of_text_eq (hcs.symm.trans (h ▸ hds))).1

/-- A static input is kept at its position. -/
theorem getElem?_staticsFrom (flags : StaticInputs) (start : Nat) (ts : List Tensor)
    (position : Nat) : (staticsFrom flags start ts)[position]? =
      ts[position]?.map fun t => if flags.isStatic (start + position) then some t else none := by
  induction ts generalizing start position with
  | nil => rfl
  | cons t rest ih =>
    unfold staticsFrom
    cases position with
    | zero => rfl
    | succ position =>
      rw [List.getElem?_cons_succ, List.getElem?_cons_succ, ih, Nat.succ_add_eq_add_succ]

/-- **Static values are written alike as a whole if they are written alike one by one**, where there
are as many inputs. -/
theorem texts_eq_iff {flags : StaticInputs} {ts us : List Tensor} (start : Nat)
    (hlength : ts.length = us.length) :
    ((staticsFrom flags start ts).filterMap id).map Tensor.valueText =
        ((staticsFrom flags start us).filterMap id).map Tensor.valueText ↔
      ∀ (position : Nat) (t u : Tensor), ts[position]? = some t → us[position]? = some u →
        flags.isStatic (start + position) = true → t.valueText = u.valueText := by
  induction ts generalizing us start with
  | nil =>
    obtain rfl := List.length_eq_zero_iff.1 hlength.symm
    exact iff_of_true rfl nofun
  | cons t ts ih =>
    obtain ⟨u, us, rfl⟩ := List.exists_cons_of_length_eq_add_one hlength.symm
    have hrest := ih (start + 1) (Nat.succ.inj hlength)
    have hshift : ∀ position, start + 1 + position = start + (position + 1) := fun position => by
      omega
    simp only [hshift] at hrest
    unfold staticsFrom
    by_cases hstatic : flags.isStatic start = true
    · simp only [hstatic, if_true, List.filterMap_cons, id, List.map_cons, List.cons.injEq]
      constructor
      · rintro ⟨hfirst, hall⟩ (_ | position) t' u' ht hu hs
        · cases ht
          cases hu
          exact hfirst
        · exact hrest.1 hall position t' u' ht hu hs
      · exact fun h => ⟨h 0 t u rfl rfl hstatic, hrest.2 fun position => h (position + 1)⟩
    · simp only [hstatic, if_false, List.filterMap_cons, id, Bool.false_eq_true]
      constructor
      · rintro hall (_ | position) t' u' ht hu hs
        · exact absurd hs hstatic
        · exact hrest.1 hall position t' u' ht hu hs
      · exact fun h => hrest.2 fun position => h (position + 1)

/-- The text of every static value that a signature was made from. -/
theorem valueText_eq_of_signature_eq {flags : StaticInputs} {ts us : List Tensor} {c d : Computed}
    (hc : compute flags ts = .ok c) (hd : compute flags us = .ok d)
    (h : c.signature = d.signature) {position : Nat} {t u : Tensor} (ht : ts[position]? = some t)
    (hu : us[position]? = some u) (hstatic : flags.isStatic position = true) :
    t.valueText = u.valueText ∧ ∃ text, t.valueText = .ok text := by
  have hlength := congrArg List.length (shapes_eq_of_signature_eq hc hd h)
  rw [List.length_map, List.length_map] at hlength
  obtain ⟨v, hv, hcs, -⟩ := compute_eq_ok hc
  obtain ⟨w, hw, hds, -⟩ := compute_eq_ok hd
  obtain ⟨-, rfl⟩ := shapes_eq_of_text_eq (hcs.symm.trans (h ▸ hds))
  refine ⟨(texts_eq_iff 0 hlength).1 (texts_eq_of_valuesText_eq hv hw) position t u ht hu
    (by rwa [Nat.zero_add]), ?_⟩
  have hmem : t ∈ (staticsFrom flags 0 ts).filterMap id := by
    refine List.mem_filterMap.2 ⟨some t, List.mem_of_getElem? (i := position) ?_, rfl⟩
    rw [getElem?_staticsFrom, ht, Nat.zero_add, hstatic]
    rfl
  obtain ⟨texts, htexts, -⟩ := valuesText_eq_ok hv
  obtain ⟨x, -, hx⟩ := List.mem_map.1 (htexts ▸ List.mem_map_of_mem (f := Tensor.valueText) hmem)
  exact ⟨x, hx.symm⟩

/-- **Inputs of the same specs with one signature hold the same integers at every static
position.** -/
theorem integers_eq_of_signature_eq {flags : StaticInputs} {ts us : List Tensor} {c d : Computed}
    (hc : compute flags ts = .ok c) (hd : compute flags us = .ok d)
    (h : c.signature = d.signature) (hspecs : c.specs = d.specs) :
    c.statics.map (Option.map Tensor.integers) = d.statics.map (Option.map Tensor.integers) := by
  obtain ⟨-, -, -, hcspecs, hcstatics⟩ := compute_eq_ok hc
  obtain ⟨-, -, -, hdspecs, hdstatics⟩ := compute_eq_ok hd
  rw [hcspecs, hdspecs] at hspecs
  refine List.ext_getElem? fun position => ?_
  rw [hcstatics, hdstatics, List.getElem?_map, List.getElem?_map, getElem?_staticsFrom,
    getElem?_staticsFrom, Nat.zero_add]
  have hspec := congrArg (·[position]?) hspecs
  simp only [List.getElem?_map] at hspec
  cases ht : ts[position]? with
  | none =>
    rw [ht] at hspec
    rw [Option.map_eq_none_iff.1 hspec.symm]
  | some t =>
    rw [ht] at hspec
    obtain ⟨u, hu, huspec⟩ := Option.map_eq_some_iff.1 hspec.symm
    rw [hu]
    by_cases hstatic : flags.isStatic position = true
    · obtain ⟨htext, text, hok⟩ := valueText_eq_of_signature_eq hc hd h ht hu hstatic
      have hintegers := Tensor.integers_eq_of_valueText_eq huspec.symm hok (htext ▸ hok)
      simp only [Option.map_some, hstatic, if_true, hintegers]
    · simp only [Option.map_some, hstatic, if_false, Bool.false_eq_true]

end Signature

end TensorJit
