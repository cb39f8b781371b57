import TensorJit.Proofs.Step

/-!
# Steps side by side

Two steps are taken, each on a state of its own. They come out **abreast** if both end well or both
fail with the same error, and their ends are related (`Abreast`). A step **respects** a relation
between states if it comes out abreast with itself on any two related states, with the same value and
in related states again (`Respects`).

Steps that are put together of parts that respect a relation respect it. Where the two sides do
different things, `Abreast` is what is left to say of them.
-/

namespace TensorJit

variable {ε σ α β γ δ : Type} {Q : α → σ → β → σ → Prop} {E : σ → σ → Prop}

/-- Both steps have ended well, and their ends are related as `Q` says, or both have failed with the
same error, in states that are related as `E` says. -/
def Abreast (r : EStateM.Result ε σ α) (r' : EStateM.Result ε σ β) (Q : α → σ → β → σ → Prop)
    (E : σ → σ → Prop) : Prop :=
  Ends r (fun a t => Ends r' (fun b u => Q a t b u) fun _ _ => False)
    fun e t => Ends r' (fun _ _ => False) fun e' u => e' = e ∧ E t u

section Abreast

variable {r : EStateM.Result ε σ α} {r' : EStateM.Result ε σ β} {s s' : σ}

theorem Abreast.mono {Q' : α → σ → β → σ → Prop} {E' : σ → σ → Prop} (h : Abreast r r' Q E)
    (hQ : ∀ a t b u, Q a t b u → Q' a t b u) (hE : ∀ t u, E t u → E' t u) : Abreast r r' Q' E' :=
  Ends.mono h (fun a t ht => ht.mono (fun b u => hQ a t b u) fun _ _ => id)
    fun _ t ht => ht.mono (fun _ _ => id) fun _ u hu => ⟨hu.1, hE t u hu.2⟩

/-- What is known of the first step by itself. -/
theorem Abreast.and_ends {P : α → σ → Prop} {F : ε → σ → Prop} (h : Abreast r r' Q E)
    (hr : Ends r P F) : Abreast r r' (fun a t b u => P a t ∧ Q a t b u) E :=
  (Ends.and hr h).mono (fun _ _ ht => ht.2.mono (fun _ _ hu => ⟨ht.1, hu⟩) fun _ _ => id)
    fun _ _ ht => ht.2

/-- **If the first step has ended well, so has the second.** -/
theorem Abreast.exists_ok (h : Abreast r r' Q E) {a : α} {t : σ} (hr : r = .ok a t) :
    ∃ b u, r' = .ok b u ∧ Q a t b u := by
  have hend := Ends.ok h hr
  cases hr' : r' with
  | ok b u => exact ⟨b, u, rfl, hend.ok hr'⟩
  | error e u => exact (hend.error hr').elim

/-- If it has failed, so has the second. -/
theorem Abreast.exists_error (h : Abreast r r' Q E) {e : ε} {t : σ} (hr : r = .error e t) :
    ∃ u, r' = .error e u ∧ E t u := by
  have hend := Ends.error h hr
  cases hr' : r' with
  | ok b u => exact (hend.ok hr').elim
  | error e' u =>
    obtain ⟨rfl, hu⟩ := hend.error hr'
    exact ⟨u, rfl, hu⟩

theorem abreast_pure {a : α} {b : β} (h : Q a s b s') :
    Abreast ((pure a : EStateM ε σ α) s) ((pure b : EStateM ε σ β) s') Q E := h

theorem abreast_throw {e : ε} (h : E s s') :
    Abreast ((throw e : EStateM ε σ α) s) ((throw e : EStateM ε σ β) s') Q E := ⟨rfl, h⟩

/-- The state is read on each side. -/
theorem abreast_get_bind {f : σ → EStateM ε σ α} {g : σ → EStateM ε σ β} :
    Abreast ((get >>= f) s) ((get >>= g) s') Q E ↔ Abreast (f s s) (g s' s') Q E := Iff.rfl

/-- The state is replaced on each side. -/
theorem abreast_set_bind {t t' : σ} {f : PUnit → EStateM ε σ α} {g : PUnit → EStateM ε σ β} :
    Abreast ((set t >>= f) s) ((set t' >>= g) s') Q E ↔ Abreast (f ⟨⟩ t) (g ⟨⟩ t') Q E := Iff.rfl

/-- **What is said of two steps on each side is said of the first ones, and then of the second
ones.** -/
theorem Abreast.bind {P : α → σ → β → σ → Prop} {R : γ → σ → δ → σ → Prop} {x : EStateM ε σ α}
    {y : EStateM ε σ β} {f : α → EStateM ε σ γ} {g : β → EStateM ε σ δ}
    (h : Abreast (x s) (y s') P E)
    (hfg : ∀ a t b u, P a t b u → Abreast (f a t) (g b u) R E) :
    Abreast ((x >>= f) s) ((y >>= g) s') R E := by
  unfold Abreast
  rw [ends_bind]
  refine Ends.mono h (fun a t ht => ?_) fun e t ht => ?_
  · cases hy : y s' with
    | ok b u =>
      rw [show (y >>= g) s' = g b u by
        change EStateM.bind y g s' = _
        unfold EStateM.bind
        rw [hy]]
      exact hfg a t b u (ht.ok hy)
    | error e u => exact (ht.error hy).elim
  · rw [ends_bind]
    exact ht.mono (fun _ _ => False.elim) fun _ _ hu => hu

/-- **A walk over a list on each side** keeps an invariant that each of its steps keeps. -/
theorem abreast_mapM {f : γ → EStateM ε σ α} {g : γ → EStateM ε σ β} {l : List γ}
    {I : List γ → List α → σ → List β → σ → Prop}
    (hstep : ∀ done c rest as t bs u, l = done ++ c :: rest → I done as t bs u →
      Abreast (f c t) (g c u) (fun a t' b u' => I (done ++ [c]) (as ++ [a]) t' (bs ++ [b]) u') E)
    (h : I [] [] s [] s') :
    Abreast (l.mapM f s) (l.mapM g s') (fun as t bs u => I l as t bs u) E := by
  suffices ∀ rest done as t bs u, l = done ++ rest → I done as t bs u →
      Abreast (rest.mapM f t) (rest.mapM g u)
        (fun cs t' ds u' => I l (as ++ cs) t' (bs ++ ds) u') E from
    (this l [] [] s [] s' rfl h).mono (fun _ _ _ _ h => h) fun _ _ h => h
  intro rest
  induction rest with
  | nil =>
    intro done as t bs u hl hI
    rw [List.mapM_nil, List.mapM_nil]
    exact abreast_pure (by simpa [hl] using hI)
  | cons c rest ih =>
    intro done as t bs u hl hI
    rw [List.mapM_cons, List.mapM_cons]
    refine (hstep done c rest as t bs u hl hI).bind fun a t' b u' hu => ?_
    refine (ih (done ++ [c]) (as ++ [a]) t' (bs ++ [b]) u' (by simp [hl]) hu).bind
      fun cs t'' ds u'' hu' => ?_
    exact abreast_pure (by simpa using hu')

/-- A walk over a list and its positions, with an invariant that speaks of the values so far. -/
theorem abreast_mapM_zipIdx {f : γ × Nat → EStateM ε σ α} {g : γ × Nat → EStateM ε σ β}
    {l : List γ} {I : List α → σ → List β → σ → Prop}
    (hstep : ∀ as c t bs u, l[as.length]? = some c → I as t bs u →
      Abreast (f (c, as.length) t) (g (c, as.length) u)
        (fun a t' b u' => I (as ++ [a]) t' (bs ++ [b]) u') E)
    (h : I [] s [] s') :
    Abreast (l.zipIdx.mapM f s) (l.zipIdx.mapM g s') (fun as t bs u => I as t bs u) E := by
  have hwalk : Abreast (l.zipIdx.mapM f s) (l.zipIdx.mapM g s')
      (fun as t bs u => as.length = l.zipIdx.length ∧ I as t bs u) E := by
    refine abreast_mapM (I := fun done as t bs u => as.length = done.length ∧ I as t bs u)
      (fun done c rest as t bs u hl hI => ?_) ⟨rfl, h⟩
    obtain ⟨hc, hposition⟩ := of_zipIdx_eq_append hl
    obtain ⟨c, position⟩ := c
    obtain rfl : position = as.length := hposition.trans hI.1.symm
    rw [← hI.1] at hc
    refine (hstep as c t bs u hc hI.2).mono (fun a _ b _ hu => ⟨?_, hu⟩) fun _ _ h => h
    rw [List.length_append, List.length_append, hI.1]
    rfl
  exact hwalk.mono (fun _ _ _ _ h => h.2) fun _ _ h => h

/-- A walk over a list for its effect alone, on each side, keeps related states related if each of its
steps does. -/
theorem abreast_forM {T : σ → σ → Prop} {f g : β → EStateM ε σ PUnit} (l : List β)
    (hstep : ∀ b s s', T s s' → Abreast (f b s) (g b s') (fun _ t _ u => T t u) T)
    (h : T s s') : Abreast (l.forM f s) (l.forM g s') (fun _ t _ u => T t u) T := by
  induction l generalizing s s' with
  | nil => exact abreast_pure h
  | cons b rest ih => exact (hstep b s s' h).bind fun _ _ _ _ hu => ih hu

end Abreast

/-! ### Relations that are respected -/

/-- From related states the step ends with one value, or fails with one error, in related states. -/
def Respects (T : σ → σ → Prop) (x : EStateM ε σ α) : Prop :=
  ∀ s s', T s s' → Abreast (x s) (x s') (fun a t b u => b = a ∧ T t u) T

section Respects

variable {T : σ → σ → Prop} {x : EStateM ε σ α} {f : α → EStateM ε σ β}

theorem respects_pure (a : α) : Respects T (pure a : EStateM ε σ α) := fun _ _ h =>
  abreast_pure ⟨rfl, h⟩

theorem respects_throw (e : ε) : Respects T (throw e : EStateM ε σ α) := fun _ _ h =>
  abreast_throw h

theorem respects_modify {f : σ → σ} (h : ∀ s s', T s s' → T (f s) (f s')) :
    Respects T (modify f : EStateM ε σ PUnit) := fun s s' hs => ⟨rfl, h s s' hs⟩

theorem Respects.bind (hx : Respects T x) (hf : ∀ a, Respects T (f a)) : Respects T (x >>= f) :=
  fun s s' hs => (hx s s' hs).bind fun a t b u hu => by
    obtain ⟨rfl, hu⟩ := hu
    exact hf b t u hu

theorem Respects.map (hx : Respects T x) (g : α → β) : Respects T (g <$> x) :=
  hx.bind fun a => respects_pure (g a)

/-- What is read from the state has to come to the same on both sides. -/
theorem respects_get_bind {f : σ → EStateM ε σ α} (hT : ∀ s s', T s s' → f s' = f s)
    (hf : ∀ s, Respects T (f s)) : Respects T (get >>= f) := fun s s' hs => by
  rw [abreast_get_bind, hT s s' hs]
  exact hf s s s' hs

theorem respects_mapM {g : β → EStateM ε σ α} (l : List β) (hg : ∀ b, Respects T (g b)) :
    Respects T (l.mapM g) := by
  induction l with
  | nil =>
    rw [List.mapM_nil]
    exact respects_pure _
  | cons b rest ih =>
    rw [List.mapM_cons]
    exact (hg b).bind fun a => ih.bind fun as => respects_pure (a :: as)

/-- A step without a value keeps related states related. -/
theorem respects_unit {x : EStateM ε σ PUnit} (h : ∀ s s', T s s' →
    Abreast (x s) (x s') (fun _ t _ u => T t u) T) : Respects T x := fun s s' hs =>
  (h s s' hs).mono (fun _ _ _ _ hu => ⟨rfl, hu⟩) fun _ _ h => h

theorem Respects.abreast {s s' : σ} (hx : Respects T x) (h : T s s') :
    Abreast (x s) (x s') (fun _ t _ u => T t u) T :=
  (hx s s' h).mono (fun _ _ _ _ hu => hu.2) fun _ _ h => h

theorem respects_forM {g : β → EStateM ε σ PUnit} (l : List β) (hg : ∀ b, Respects T (g b)) :
    Respects T (l.forM g) :=
  respects_unit fun _ _ h => abreast_forM l (fun b _ _ h => (hg b).abreast h) h

end Respects

end TensorJit
