import TensorJit.Proofs.Lowering.Operands

/-!
# Targets of reshapes

A reshape asks for dimensions, and one of them may be left open as `-1`. **What they are resolved
to** (`Lowering.Resolves`) is said without going through them one by one:

| request | target |
|---|---|
| the dimensions of a shape with as many elements as there are | this shape |
| `-1` among dimensions whose product is positive and divides the elements | the quotient for `-1` |

Lowering resolves exactly these (`Lowering.resolveTarget_eq_ok_iff`), although it divides before it
has seen all dimensions and finds a remainder only when it counts the elements in the end. Whatever
else is requested is refused, for one of two reasons (`Lowering.Refused`).
-/

namespace TensorJit

namespace Lowering

/-- A shape as it is requested. -/
def request (s : Shape) : List Int := s.map Int.ofNat

/-- What requested dimensions come to for a number of elements. -/
inductive Resolves (elements : Nat) : List Int → Shape → Prop
  /-- Every dimension is given, and there are as many elements. -/
  | exact {target : Shape} (helements : target.elements = elements) :
      Resolves elements (request target) target
  /-- One dimension is open, and what the others leave for it is a whole number. -/
  | inferred {before after : Shape} (hpos : 0 < Shape.elements (before ++ after))
      (hdvd : Shape.elements (before ++ after) ∣ elements) :
      Resolves elements (request before ++ -1 :: request after)
        (before ++ elements / Shape.elements (before ++ after) :: after)

/-! ### Counting elements -/

theorem elements_cons (d : Nat) (s : Shape) : Shape.elements (d :: s) = d * s.elements := rfl

theorem elements_append (s t : Shape) :
    Shape.elements (s ++ t) = s.elements * t.elements := by
  induction s with
  | nil => exact (Nat.one_mul t.elements).symm
  | cons d s ih => rw [List.cons_append, elements_cons, elements_cons, ih, Nat.mul_assoc]

/-- A dimension between others is a factor. -/
theorem elements_insert (before after : Shape) (d : Nat) :
    Shape.elements (before ++ d :: after) = d * Shape.elements (before ++ after) := by
  rw [elements_append, elements_append, elements_cons, Nat.mul_left_comm]

theorem filter_request (s : Shape) :
    ((request s).filter (0 ≤ ·)).map Int.toNat = s := by
  have hall : (request s).filter (0 ≤ ·) = request s := by
    refine List.filter_eq_self.2 fun dim hdim => ?_
    obtain ⟨d, -, rfl⟩ := List.mem_map.1 hdim
    exact decide_eq_true (Int.natCast_nonneg d)
  rw [hall, request, List.map_map]
  exact List.map_id s

theorem knownElements_request (s : Shape) : knownElements (request s) = s.elements := by
  rw [knownElements, filter_request]

/-- The open dimension is none of those that are known. -/
theorem knownElements_inferred (before after : Shape) :
    knownElements (request before ++ -1 :: request after) = Shape.elements (before ++ after) := by
  rw [knownElements, List.filter_append, List.filter_cons_of_neg (by decide), List.map_append,
    filter_request, filter_request]

/-! ### Going through the dimensions -/

variable {node : String} {elements known : Nat}

theorem cons_eq_request_iff {dim : Int} {rest : List Int} {target : Shape} :
    dim :: rest = request target ↔ ∃ (d : Nat) (s : Shape), target = d :: s ∧ dim = d ∧
      rest = request s := by
  constructor
  · intro h
    cases target with
    | nil => cases h
    | cons d s => exact ⟨d, s, rfl, List.cons.inj h⟩
  · rintro ⟨d, s, rfl, rfl, rfl⟩
    rfl

/-- The open dimension is the first one, or it comes later. -/
theorem cons_eq_inferred_iff {dim : Int} {rest : List Int} {before after : Shape} :
    dim :: rest = request before ++ -1 :: request after ↔
      before = [] ∧ dim = -1 ∧ rest = request after ∨
      ∃ (d : Nat) (s : Shape), before = d :: s ∧ dim = d ∧
        rest = request s ++ -1 :: request after := by
  cases before with
  | nil =>
    constructor
    · exact fun h => .inl ⟨rfl, List.cons.inj h⟩
    · rintro (⟨-, rfl, rfl⟩ | ⟨d, s, hnil, -⟩)
      · rfl
      · cases hnil
  | cons d s =>
    constructor
    · exact fun h => .inr ⟨d, s, rfl, List.cons.inj h⟩
    · rintro (⟨hnil, -⟩ | ⟨d', s', hcons, rfl, rfl⟩)
      · cases hnil
      · cases hcons
        rfl

/-- A dimension that is given stands for itself. -/
theorem targetDims_cons_natCast (inferred : Bool) (d : Nat) (rest : List Int) :
    targetDims node elements known inferred ((d : Int) :: rest) =
      (targetDims node elements known inferred rest).map (d :: ·) := by
  rw [targetDims, if_neg (by omega), if_pos (Int.natCast_nonneg d), Int.toNat_natCast]
  rfl

/-- A dimension below zero is open if there may be one and something is known of the others, and is
refused otherwise. -/
theorem targetDims_cons_of_neg (inferred : Bool) {dim : Int} (h : dim < 0) (rest : List Int) :
    targetDims node elements known inferred (dim :: rest) =
      if dim = -1 ∧ inferred = false ∧ 0 < known then
        (targetDims node elements known true rest).map (elements / known :: ·)
      else .error (.badDimension dim node) := by
  rw [targetDims, if_neg (show ¬ 0 ≤ dim by omega)]
  rfl

/-- Once a dimension has been left open, the others are those of a shape. -/
theorem targetDims_true_eq_ok_iff {requested : List Int} {target : Shape} :
    targetDims node elements known true requested = .ok target ↔ requested = request target := by
  induction requested generalizing target with
  | nil =>
    cases target with
    | nil => exact ⟨fun _ => rfl, fun _ => rfl⟩
    | cons d s => exact ⟨nofun, nofun⟩
  | cons dim rest ih =>
    rw [cons_eq_request_iff]
    rcases Int.lt_or_le dim 0 with hneg | hnonneg
    · rw [targetDims_cons_of_neg true hneg, if_neg fun h => nomatch h.2.1]
      refine ⟨nofun, ?_⟩
      rintro ⟨d, s, -, rfl, -⟩
      exact absurd (Int.natCast_nonneg d) (Int.not_le.2 hneg)
    · obtain ⟨d, rfl⟩ := Int.eq_ofNat_of_zero_le hnonneg
      rw [targetDims_cons_natCast, except_map_eq_ok]
      constructor
      · rintro ⟨s, hs, rfl⟩
        exact ⟨d, s, rfl, rfl, ih.1 hs⟩
      · rintro ⟨d', s, rfl, hd, hs⟩
        exact ⟨s, ih.2 hs, by rw [Int.ofNat.inj hd]⟩

/-- Before, a dimension may be left open anywhere if something is known of the others. -/
theorem targetDims_false_eq_ok_iff {requested : List Int} {target : Shape} :
    targetDims node elements known false requested = .ok target ↔
      requested = request target ∨ 0 < known ∧ ∃ before after,
        requested = request before ++ -1 :: request after ∧
          target = before ++ elements / known :: after := by
  induction requested generalizing target with
  | nil =>
    cases target with
    | nil => exact ⟨fun _ => .inl rfl, fun _ => rfl⟩
    | cons d s =>
      refine ⟨nofun, ?_⟩
      rintro (h | ⟨-, before, after, h, -⟩)
      · cases h
      · exact absurd h.symm (List.append_ne_nil_of_right_ne_nil _ (List.cons_ne_nil _ _))
  | cons dim rest ih =>
    simp only [cons_eq_request_iff, cons_eq_inferred_iff]
    rcases Int.lt_or_le dim 0 with hneg | hnonneg
    · -- This is the open dimension, or there is none.
      have hnot : ∀ d : Nat, dim ≠ d := by
        intro d hd
        omega
      rw [targetDims_cons_of_neg false hneg]
      split
      · rename_i hopen
        rw [except_map_eq_ok]
        constructor
        · rintro ⟨s, hs, rfl⟩
          exact .inr ⟨hopen.2.2, [], s, .inl ⟨rfl, hopen.1, targetDims_true_eq_ok_iff.1 hs⟩, rfl⟩
        · rintro (⟨d, -, -, hd, -⟩ | ⟨-, before, after, ⟨rfl, -, hs⟩ | ⟨d, -, -, hd, -⟩, rfl⟩)
          · exact absurd hd (hnot d)
          · exact ⟨after, targetDims_true_eq_ok_iff.2 hs, rfl⟩
          · exact absurd hd (hnot d)
      · rename_i hopen
        refine ⟨nofun, ?_⟩
        rintro (⟨d, -, -, hd, -⟩ | ⟨hknown, before, after, ⟨-, hdim, -⟩ | ⟨d, -, -, hd, -⟩, -⟩)
        · exact absurd hd (hnot d)
        · exact absurd ⟨hdim, rfl, hknown⟩ hopen
        · exact absurd hd (hnot d)
    · -- It is given, and the open one comes later if at all.
      obtain ⟨d, rfl⟩ := Int.eq_ofNat_of_zero_le hnonneg
      rw [targetDims_cons_natCast, except_map_eq_ok]
      constructor
      · rintro ⟨s, hs, rfl⟩
        rcases ih.1 hs with hrest | ⟨hknown, before, after, hrest, rfl⟩
        · exact .inl ⟨d, s, rfl, rfl, hrest⟩
        · exact .inr ⟨hknown, d :: before, after, .inr ⟨d, before, rfl, rfl, hrest⟩, rfl⟩
      · rintro (⟨d', s, rfl, hd, hs⟩ | ⟨hknown, before, after, ⟨-, hd, -⟩ | ⟨d', s, rfl, hd, hs⟩, rfl⟩)
        · exact ⟨s, ih.2 (.inl hs), by rw [Int.ofNat.inj hd]⟩
        · exact absurd hd (by omega)
        · refine ⟨s ++ elements / known :: after, ih.2 (.inr ⟨hknown, s, after, hs, rfl⟩), ?_⟩
          rw [Int.ofNat.inj hd, List.cons_append]

/-- Going through the dimensions stops at one that is below zero. -/
theorem targetDims_eq_error {requested : List Int} {inferred : Bool} {fault : LoweringFault}
    (h : targetDims node elements known inferred requested = .error fault) :
    ∃ dim ∈ requested, dim < 0 ∧ fault = .badDimension dim node := by
  induction requested generalizing inferred with
  | nil => simp [targetDims] at h
  | cons dim rest ih =>
    have hrest : ∀ inferred, targetDims node elements known inferred rest = .error fault →
        ∃ d ∈ dim :: rest, d < 0 ∧ fault = .badDimension d node := by
      intro inferred h
      obtain ⟨d, hd, hbad⟩ := ih h
      exact ⟨d, List.mem_cons_of_mem _ hd, hbad⟩
    rcases Int.lt_or_le dim 0 with hneg | hnonneg
    · rw [targetDims_cons_of_neg inferred hneg] at h
      split at h
      · exact hrest true (except_map_eq_error.1 h)
      · exact ⟨dim, List.mem_cons_self, hneg, (Except.error.inj h).symm⟩
    · obtain ⟨d, rfl⟩ := Int.eq_ofNat_of_zero_le hnonneg
      rw [targetDims_cons_natCast] at h
      exact hrest inferred (except_map_eq_error.1 h)

/-! ### Targets -/

/-- **What a request is resolved to.** -/
theorem resolveTarget_eq_ok_iff {requested : List Int} {target : Shape} :
    resolveTarget node elements requested = .ok target ↔ Resolves elements requested target := by
  have hresolve : resolveTarget node elements requested = .ok target ↔
      targetDims node elements (knownElements requested) false requested = .ok target ∧
        target.elements = elements := by
    rw [resolveTarget, except_bind_eq_ok]
    constructor
    · rintro ⟨dims, hdims, h⟩
      split at h
      · rename_i helements
        obtain rfl := Except.ok.inj h
        exact ⟨hdims, helements⟩
      · cases h
    · rintro ⟨hdims, helements⟩
      exact ⟨target, hdims, if_pos helements⟩
  rw [hresolve, targetDims_false_eq_ok_iff]
  constructor
  · rintro ⟨rfl | ⟨hknown, before, after, rfl, rfl⟩, helements⟩
    · exact .exact helements
    · -- The quotient has been put in whatever the remainder is; the product tells.
      rw [knownElements_inferred] at hknown helements ⊢
      rw [elements_insert] at helements
      exact .inferred hknown ⟨_, by rw [Nat.mul_comm, helements]⟩
  · intro h
    cases h with
    | exact helements => exact ⟨.inl rfl, helements⟩
    | @inferred before after hpos hdvd =>
      rw [knownElements_inferred, elements_insert]
      exact ⟨.inr ⟨hpos, before, after, rfl, rfl⟩, Nat.div_mul_cancel hdvd⟩

/-- A request comes to one target. -/
theorem Resolves.unique {requested : List Int} {s t : Shape} (hs : Resolves elements requested s)
    (ht : Resolves elements requested t) : s = t := by
  have hresolved : resolveTarget "" elements requested = .ok s := resolveTarget_eq_ok_iff.2 hs
  rw [resolveTarget_eq_ok_iff.2 ht] at hresolved
  exact (Except.ok.inj hresolved).symm

/-! ### Requests that are refused -/

/-- The two reasons for which a request is refused. -/
inductive Refused (node : String) (elements : Nat) (requested : List Int) : LoweringFault → Prop
  /-- A dimension below zero cannot be met. -/
  | dimension {dim : Int} (hdim : dim ∈ requested) (hneg : dim < 0) :
      Refused node elements requested (.badDimension dim node)
  /-- The dimensions can be met, but not the number of elements. -/
  | count {target : Shape} (hne : target.elements ≠ elements) :
      Refused node elements requested (.badElementCount elements target node)

theorem refused_of_resolveTarget {requested : List Int} {fault : LoweringFault}
    (h : resolveTarget node elements requested = .error fault) :
    Refused node elements requested fault := by
  rw [resolveTarget] at h
  rcases except_bind_eq_error.1 h with hdims | ⟨target, -, hcount⟩
  · obtain ⟨dim, hdim, hneg, rfl⟩ := targetDims_eq_error hdims
    exact .dimension hdim hneg
  · split at hcount
    · cases hcount
    · rename_i hne
      obtain rfl := Except.error.inj hcount
      exact .count hne

/-- **What is not resolved is refused.** -/
theorem refused_of_not_resolves {requested : List Int}
    (h : ∀ s, ¬ Resolves elements requested s) :
    ∃ fault, Refused node elements requested fault ∧
      resolveTarget node elements requested = .error fault := by
  cases hresolve : resolveTarget node elements requested with
  | ok s => exact absurd (resolveTarget_eq_ok_iff.1 hresolve) (h s)
  | error fault => exact ⟨fault, refused_of_resolveTarget hresolve, rfl⟩

end Lowering

end TensorJit
