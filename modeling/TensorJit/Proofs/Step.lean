import Mathlib.Data.List.Forall2
import TensorJit.Executor.Basic

/-!
# How steps end

A step on a state ends well, with a value, or badly, with an error, and in both cases with a
state. `Ends` says what holds in either case, and what is said of a sequence of steps is said
of its parts one after the other (`ends_bind`), so **a statement about a step is proved by
following its text**. A walk over a list is covered by an invariant (`ends_mapM`).

Some statements are the same for every way to end: the state afterwards is related to the state
before. These are `Keeps`, and they pass from the parts to the whole whenever the relation is
reflexive and transitive.
-/

namespace TensorJit

variable {ε σ α β : Type}

/-! ### Values or errors, without a state -/

/-- **Two steps without a state end well when both do.** -/
theorem except_bind_eq_ok {x : Except ε α} {f : α → Except ε β} {b : β} :
    x >>= f = .ok b ↔ ∃ a, x = .ok a ∧ f a = .ok b := by
  cases x with
  | ok a => exact ⟨fun h => ⟨a, rfl, h⟩, fun ⟨_, rfl, h⟩ => h⟩
  | error e => exact ⟨nofun, fun ⟨_, h, _⟩ => by cases h⟩

theorem except_map_eq_ok {x : Except ε α} {f : α → β} {b : β} :
    x.map f = .ok b ↔ ∃ a, x = .ok a ∧ f a = b := by
  cases x with
  | ok a => exact ⟨fun h => ⟨a, rfl, Except.ok.inj h⟩, fun ⟨_, ha, h⟩ => by cases ha; rw [← h]; rfl⟩
  | error e => exact ⟨nofun, fun ⟨_, h, _⟩ => by cases h⟩

theorem except_map_eq_error {x : Except ε α} {f : α → β} {e : ε} :
    x.map f = .error e ↔ x = .error e := by
  cases x with
  | ok a => simp [Except.map]
  | error e' => simp [Except.map]

theorem mapError_eq_ok {ε' : Type} {x : Except ε α} {g : ε → ε'} {a : α} :
    x.mapError g = .ok a ↔ x = .ok a := by
  cases x with
  | ok b => exact ⟨fun h => by cases h; rfl, fun h => by cases h; rfl⟩
  | error e => exact ⟨nofun, nofun⟩

theorem toOption_eq_some {x : Except ε α} {a : α} : x.toOption = some a ↔ x = .ok a := by
  cases x with
  | ok b => exact ⟨fun h => congrArg Except.ok (Option.some.inj h),
      fun h => congrArg some (Except.ok.inj h)⟩
  | error e => exact ⟨nofun, nofun⟩

/-- Two steps without a state fail when the first does, or the second after it. -/
theorem except_bind_eq_error {x : Except ε α} {f : α → Except ε β} {e : ε} :
    x >>= f = .error e ↔ x = .error e ∨ ∃ a, x = .ok a ∧ f a = .error e := by
  cases x with
  | ok a =>
    constructor
    · exact fun h => .inr ⟨a, rfl, h⟩
    · rintro (h | ⟨b, hb, h⟩)
      · cases h
      · cases hb
        exact h
  | error e' =>
    constructor
    · exact fun h => .inl (congrArg Except.error (Except.error.inj h))
    · rintro (h | ⟨b, hb, -⟩)
      · exact congrArg Except.error (Except.error.inj h)
      · cases hb

theorem mapError_eq_error {ε' : Type} {x : Except ε α} {g : ε → ε'} {e : ε'} :
    x.mapError g = .error e ↔ ∃ e', x = .error e' ∧ g e' = e := by
  cases x with
  | ok b => exact ⟨nofun, fun ⟨_, h, _⟩ => by cases h⟩
  | error e' => exact ⟨fun h => ⟨e', rfl, Except.error.inj h⟩, fun ⟨_, h, hg⟩ => by
      cases h
      exact congrArg Except.error hg⟩

/-- **A walk over a list ends well when every step of it does.** -/
theorem except_mapM_eq_ok {f : α → Except ε β} {l : List α} {bs : List β} :
    l.mapM f = .ok bs ↔ List.Forall₂ (fun a b => f a = .ok b) l bs := by
  induction l generalizing bs with
  | nil =>
    rw [List.mapM_nil, List.forall₂_nil_left_iff]
    exact ⟨fun h => (Except.ok.inj h).symm, fun h => by rw [h]; rfl⟩
  | cons a rest ih =>
    rw [List.mapM_cons, List.forall₂_cons_left_iff, except_bind_eq_ok]
    constructor
    · rintro ⟨b, hb, h⟩
      obtain ⟨cs, hcs, h⟩ := except_bind_eq_ok.1 h
      exact ⟨b, cs, hb, ih.1 hcs, (Except.ok.inj h).symm⟩
    · rintro ⟨b, cs, hb, hcs, rfl⟩
      exact ⟨b, hb, except_bind_eq_ok.2 ⟨cs, ih.2 hcs, rfl⟩⟩

/-- A walk over a list ends well if every step can, and what the steps give is in its result. -/
theorem except_mapM_ok_of_forall {f : α → Except ε β} {P : α → β → Prop} {l : List α}
    (h : ∀ a ∈ l, ∃ b, f a = .ok b ∧ P a b) : ∃ bs, l.mapM f = .ok bs ∧ List.Forall₂ P l bs := by
  induction l with
  | nil => exact ⟨[], rfl, .nil⟩
  | cons a rest ih =>
    obtain ⟨b, hb, hP⟩ := h a List.mem_cons_self
    obtain ⟨bs, hbs, hall⟩ := ih fun c hc => h c (List.mem_cons_of_mem a hc)
    refine ⟨b :: bs, ?_, .cons hP hall⟩
    rw [List.mapM_cons, hb, hbs]
    rfl

/-- A walk over a list fails with the error of one of its steps. -/
theorem except_mapM_eq_error {f : α → Except ε β} {l : List α} {e : ε}
    (h : l.mapM f = .error e) : ∃ a ∈ l, f a = .error e := by
  induction l with
  | nil => cases h
  | cons a rest ih =>
    rw [List.mapM_cons] at h
    rcases except_bind_eq_error.1 h with h | ⟨b, -, h⟩
    · exact ⟨a, List.mem_cons_self, h⟩
    · rcases except_bind_eq_error.1 h with h | ⟨bs, -, h⟩
      · obtain ⟨c, hc, h⟩ := ih h
        exact ⟨c, List.mem_cons_of_mem _ hc, h⟩
      · cases h

/-! ### The two ways to end -/

/-- The result is a value with a state in `Q`, or an error with a state in `E`. -/
def Ends (r : EStateM.Result ε σ α) (Q : α → σ → Prop) (E : ε → σ → Prop) : Prop :=
  match r with
  | .ok a s => Q a s
  | .error e s => E e s

variable {Q : α → σ → Prop} {R : β → σ → Prop} {E : ε → σ → Prop} {s : σ}

theorem Ends.mono {r : EStateM.Result ε σ α} {Q' : α → σ → Prop} {E' : ε → σ → Prop}
    (h : Ends r Q E) (hQ : ∀ a t, Q a t → Q' a t) (hE : ∀ e t, E e t → E' e t) :
    Ends r Q' E' := by
  cases r with
  | ok a t => exact hQ a t h
  | error e t => exact hE e t h

theorem Ends.and {r : EStateM.Result ε σ α} {Q' : α → σ → Prop} {E' : ε → σ → Prop}
    (h : Ends r Q E) (h' : Ends r Q' E') :
    Ends r (fun a t => Q a t ∧ Q' a t) (fun e t => E e t ∧ E' e t) := by
  cases r with
  | ok a t => exact ⟨h, h'⟩
  | error e t => exact ⟨h, h'⟩

/-- What holds under a condition, for a condition that is not about the end. -/
theorem Ends.of_imp {r : EStateM.Result ε σ α} {P : Prop} (h : P → Ends r Q E) :
    Ends r (fun a t => P → Q a t) fun e t => P → E e t := by
  cases r with
  | ok a t => exact h
  | error e t => exact h

theorem ends_trivial (r : EStateM.Result ε σ α) : Ends r (fun _ _ => True) fun _ _ => True := by
  cases r with
  | ok a t => exact trivial
  | error e t => exact trivial

theorem Ends.ok {r : EStateM.Result ε σ α} {a : α} {t : σ} (h : Ends r Q E)
    (hr : r = .ok a t) : Q a t := by
  subst hr
  exact h

theorem Ends.error {r : EStateM.Result ε σ α} {e : ε} {t : σ} (h : Ends r Q E)
    (hr : r = .error e t) : E e t := by
  subst hr
  exact h

/-! ### The parts of a step -/

@[simp] theorem ends_pure {a : α} : Ends ((pure a : EStateM ε σ α) s) Q E ↔ Q a s := Iff.rfl

@[simp] theorem ends_throw {e : ε} : Ends ((throw e : EStateM ε σ α) s) Q E ↔ E e s := Iff.rfl

@[simp] theorem ends_get {Q : σ → σ → Prop} : Ends ((get : EStateM ε σ σ) s) Q E ↔ Q s s :=
  Iff.rfl

@[simp] theorem ends_set {t : σ} {Q : PUnit → σ → Prop} :
    Ends ((set t : EStateM ε σ PUnit) s) Q E ↔ Q ⟨⟩ t := Iff.rfl

@[simp] theorem ends_modify {f : σ → σ} {Q : PUnit → σ → Prop} :
    Ends ((modify f : EStateM ε σ PUnit) s) Q E ↔ Q ⟨⟩ (f s) := Iff.rfl

/-- **What is said of two steps is said of the first, and then of the second.** -/
@[simp] theorem ends_bind {x : EStateM ε σ α} {f : α → EStateM ε σ β} :
    Ends ((x >>= f) s) R E ↔ Ends (x s) (fun a t => Ends (f a t) R E) E := by
  change Ends (EStateM.bind x f s) R E ↔ _
  unfold EStateM.bind
  cases x s with
  | ok a t => exact Iff.rfl
  | error e t => exact Iff.rfl

/-- Two steps that begin alike go on alike where the first one ends well. -/
theorem bind_congr_of_ends {x : EStateM ε σ α} {f g : α → EStateM ε σ β}
    (h : Ends (x s) (fun a t => f a t = g a t) fun _ _ => True) : (x >>= f) s = (x >>= g) s := by
  change EStateM.bind x f s = EStateM.bind x g s
  unfold EStateM.bind
  cases hx : x s with
  | ok a t => exact h.ok hx
  | error e t => rfl

/-- What only the second step has a say in. -/
theorem ends_bind_of_forall {x : EStateM ε σ α} {f : α → EStateM ε σ β}
    (h : ∀ a t, Ends (f a t) R fun _ _ => True) : Ends ((x >>= f) s) R fun _ _ => True := by
  rw [ends_bind]
  cases x s with
  | ok a t => exact h a t
  | error e t => exact trivial

@[simp] theorem ends_map {x : EStateM ε σ α} {f : α → β} :
    Ends ((f <$> x) s) R E ↔ Ends (x s) (fun a t => R (f a) t) E := by
  change Ends (EStateM.map f x s) R E ↔ _
  unfold EStateM.map
  cases x s with
  | ok a t => exact Iff.rfl
  | error e t => exact Iff.rfl

@[simp] theorem ends_discard {x : EStateM ε σ α} {Q : PUnit → σ → Prop} :
    Ends (discard x s) Q E ↔ Ends (x s) (fun _ t => Q ⟨⟩ t) E := ends_map

/-- A step whose failure is seen to by another. -/
@[simp] theorem ends_tryCatch {x : EStateM ε σ α} {f : ε → EStateM ε σ α} :
    Ends (tryCatch x f s) Q E ↔ Ends (x s) Q fun e t => Ends (f e t) Q E := by
  change Ends (EStateM.tryCatch x f s) Q E ↔ _
  unfold EStateM.tryCatch
  cases x s with
  | ok a t => exact Iff.rfl
  | error e t => exact Iff.rfl

/-- A walk over a list keeps an invariant that each of its steps keeps. The invariant speaks of
the part of the list that has been walked over, and of the values it has given. -/
theorem ends_mapM {f : β → EStateM ε σ α} {l : List β} {I : List β → List α → σ → Prop}
    (hstep : ∀ done b rest as t, l = done ++ b :: rest → I done as t →
      Ends (f b t) (fun a u => I (done ++ [b]) (as ++ [a]) u) E)
    (h : I [] [] s) : Ends (l.mapM f s) (fun as t => I l as t) E := by
  suffices ∀ rest done as t, l = done ++ rest → I done as t →
      Ends (rest.mapM f t) (fun bs u => I l (as ++ bs) u) E from
    (this l [] [] s rfl h).mono (fun _ _ h => h) fun _ _ h => h
  intro rest
  induction rest with
  | nil =>
    intro done as t hl hI
    rw [List.mapM_nil]
    simpa [hl] using hI
  | cons b rest ih =>
    intro done as t hl hI
    rw [List.mapM_cons]
    refine ends_bind.2 ((hstep done b rest as t hl hI).mono (fun a u hu => ?_) fun _ _ h => h)
    refine ends_bind.2 ((ih (done ++ [b]) (as ++ [a]) u (by simp [hl]) hu).mono
      (fun bs v hv => ?_) fun _ _ h => h)
    simpa using hv

/-- A walk over a list for its effect alone keeps an invariant that each of its steps keeps. -/
theorem ends_forM {f : β → EStateM ε σ PUnit} {l : List β} {I : List β → σ → Prop}
    (hstep : ∀ done b rest t, l = done ++ b :: rest → I done t →
      Ends (f b t) (fun _ u => I (done ++ [b]) u) E)
    (h : I [] s) : Ends (l.forM f s) (fun _ t => I l t) E := by
  suffices ∀ rest done t, l = done ++ rest → I done t →
      Ends (List.forM rest f t) (fun _ u => I l u) E from this l [] s rfl h
  intro rest
  induction rest with
  | nil =>
    intro done t hl hI
    simpa [hl] using hI
  | cons b rest ih =>
    intro done t hl hI
    change Ends ((f b >>= fun _ => List.forM rest f) t) _ _
    refine ends_bind.2 ((hstep done b rest t hl hI).mono (fun _ u hu => ?_) fun _ _ h => h)
    exact ih (done ++ [b]) u (by simp [hl]) hu

/-- The members of a list in front of which so many have been walked over. -/
theorem of_zipIdx_eq_append {l : List β} {done rest : List (β × Nat)} {b : β × Nat}
    (h : l.zipIdx = done ++ b :: rest) : l[done.length]? = some b.1 ∧ b.2 = done.length := by
  have hb : l.zipIdx[done.length]? = some b := by
    rw [h, List.getElem?_append_right (Nat.le_refl _), Nat.sub_self]
    rfl
  rw [List.getElem?_zipIdx] at hb
  obtain ⟨x, hx, rfl⟩ := Option.map_eq_some_iff.1 hb
  exact ⟨hx, Nat.zero_add _⟩

/-- A walk over a list and its positions, with an invariant that speaks of the values so far. -/
theorem ends_mapM_zipIdx {f : β × Nat → EStateM ε σ α} {l : List β} {I : List α → σ → Prop}
    (hstep : ∀ as b t, l[as.length]? = some b → I as t →
      Ends (f (b, as.length) t) (fun a u => I (as ++ [a]) u) E)
    (h : I [] s) : Ends (l.zipIdx.mapM f s) (fun as t => as.length = l.length ∧ I as t) E := by
  have hwalk : Ends (l.zipIdx.mapM f s)
      (fun as t => as.length = l.zipIdx.length ∧ I as t) E := by
    refine ends_mapM (I := fun done as t => as.length = done.length ∧ I as t)
      (fun done b rest as t hl hI => ?_) ⟨rfl, h⟩
    obtain ⟨hb, hposition⟩ := of_zipIdx_eq_append hl
    obtain ⟨b, position⟩ := b
    obtain rfl : position = as.length := hposition.trans hI.1.symm
    rw [← hI.1] at hb
    refine (hstep as b t hb hI.2).mono (fun a u hu => ⟨?_, hu⟩) fun _ _ he => he
    rw [List.length_append, List.length_append, hI.1]
    rfl
  exact hwalk.mono (fun as t ht => ⟨ht.1.trans List.length_zipIdx, ht.2⟩) fun _ _ he => he

/-- A walk over a list and its positions for its effect alone. -/
theorem ends_forM_zipIdx {f : β × Nat → EStateM ε σ PUnit} {l : List β} {I : Nat → σ → Prop}
    (hstep : ∀ position b t, l[position]? = some b → I position t →
      Ends (f (b, position) t) (fun _ u => I (position + 1) u) E)
    (h : I 0 s) : Ends (l.zipIdx.forM f s) (fun _ t => I l.length t) E := by
  have hwalk : Ends (l.zipIdx.forM f s) (fun _ t => I l.zipIdx.length t) E := by
    refine ends_forM (I := fun done t => I done.length t) (fun done b rest t hl hI => ?_) h
    obtain ⟨hb, hposition⟩ := of_zipIdx_eq_append hl
    obtain ⟨b, position⟩ := b
    obtain rfl : position = done.length := hposition
    refine (hstep _ b t hb hI).mono (fun _ u hu => ?_) fun _ _ he => he
    rwa [List.length_append]
  rwa [List.length_zipIdx] at hwalk

/-! ### What every way to end keeps -/

/-- However the step ends, the state afterwards is related to the state before. -/
def Keeps (T : σ → σ → Prop) (x : EStateM ε σ α) : Prop :=
  ∀ s, Ends (x s) (fun _ t => T s t) (fun _ t => T s t)

section Keeps

variable {T : σ → σ → Prop} {x : EStateM ε σ α} {f : α → EStateM ε σ β}

theorem Keeps.mono {T' : σ → σ → Prop} (h : Keeps T x) (hT : ∀ s t, T s t → T' s t) :
    Keeps T' x := fun s => (h s).mono (fun _ t => hT s t) fun _ t => hT s t

theorem keeps_pure [Std.Refl T] (a : α) : Keeps T (pure a : EStateM ε σ α) :=
  fun s => Std.Refl.refl s

theorem keeps_throw [Std.Refl T] (e : ε) : Keeps T (throw e : EStateM ε σ α) :=
  fun s => Std.Refl.refl s

theorem keeps_get [Std.Refl T] : Keeps T (get : EStateM ε σ σ) := fun s => Std.Refl.refl s

theorem keeps_modify {f : σ → σ} (h : ∀ s, T s (f s)) : Keeps T (modify f : EStateM ε σ PUnit) := h

/-- What a step keeps holds with respect to an earlier state too. -/
theorem Keeps.after [IsTrans σ T] {s t : σ} (hx : Keeps T x) (ht : T s t) :
    Ends (x t) (fun _ u => T s u) fun _ u => T s u :=
  (hx t).mono (fun _ _ hu => IsTrans.trans _ _ _ ht hu) fun _ _ hu => IsTrans.trans _ _ _ ht hu

theorem Keeps.bind [IsTrans σ T] (hx : Keeps T x) (hf : ∀ a, Keeps T (f a)) :
    Keeps T (x >>= f) := fun s =>
  ends_bind.2 ((hx s).mono (fun a _ ht => (hf a).after ht) fun _ _ ht => ht)

theorem Keeps.map (hx : Keeps T x) (g : α → β) : Keeps T (g <$> x) :=
  fun s => ends_map.2 (hx s)

theorem Keeps.discard (hx : Keeps T x) : Keeps T (discard x) := hx.map _

theorem Keeps.mapM [Std.Refl T] [IsTrans σ T] {g : β → EStateM ε σ α} (hg : ∀ b, Keeps T (g b))
    (l : List β) : Keeps T (l.mapM g) := fun s =>
  ends_mapM (I := fun _ _ t => T s t) (fun _ b _ _ _ _ ht => (hg b).after ht) (Std.Refl.refl s)

theorem Keeps.forM [Std.Refl T] [IsTrans σ T] {g : β → EStateM ε σ PUnit}
    (hg : ∀ b, Keeps T (g b)) (l : List β) : Keeps T (l.forM g) := fun s =>
  ends_forM (I := fun _ t => T s t) (fun _ b _ _ _ ht => (hg b).after ht) (Std.Refl.refl s)

end Keeps

end TensorJit
