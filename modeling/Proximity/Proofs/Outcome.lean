/-! Computations that can fail: what their success says of their parts. -/

namespace Proximity

variable {ε α β σ : Type}

theorem bind_eq_ok {x : Except ε α} {f : α → Except ε β} {b : β} :
    x >>= f = .ok b ↔ ∃ a, x = .ok a ∧ f a = .ok b := by
  cases x with
  | error e => simp [bind, Except.bind]
  | ok a => simp [bind, Except.bind]

theorem bind_eq_error {x : Except ε α} {f : α → Except ε β} {e : ε} :
    x >>= f = .error e ↔ x = .error e ∨ ∃ a, x = .ok a ∧ f a = .error e := by
  cases x with
  | error e => simp [bind, Except.bind]
  | ok a => simp [bind, Except.bind]

theorem bind_pure_eq_map (x : Except ε α) (f : α → β) : (x >>= fun a => pure (f a)) = x.map f := by
  cases x <;> rfl

theorem bind_pure_eq_error {x : Except ε α} {f : α → β} {e : ε} :
    (x >>= fun a => pure (f a)) = .error e ↔ x = .error e := by
  cases x with
  | error e => simp [bind, Except.bind]
  | ok a => simp [bind, Except.bind, pure, Except.pure]

theorem ite_eq_error {c : Prop} [Decidable c] {x e : ε} {a : α} :
    (if c then .error x else .ok a : Except ε α) = .error e ↔ c ∧ x = e := by
  by_cases c <;> simp [*]

theorem ite_eq_ok {c : Prop} [Decidable c] {x : ε} {a b : α} :
    (if c then .error x else .ok a : Except ε α) = .ok b ↔ ¬ c ∧ a = b := by
  by_cases c <;> simp [*]

/-- A property that every step keeps holds after any number of steps. -/
theorem foldlM_invariant {motive : σ → Prop} {f : σ → α → Except ε σ}
    (step : ∀ s a s', motive s → f s a = .ok s' → motive s') {l : List α} {s s' : σ}
    (start : motive s) (h : l.foldlM f s = .ok s') : motive s' := by
  induction l generalizing s with
  | nil =>
    cases h
    exact start
  | cons a l ih =>
    rw [List.foldlM_cons] at h
    obtain ⟨middle, first, rest⟩ := bind_eq_ok.mp h
    exact ih (step s a middle start first) rest

/-- The first step that fails decides the error. -/
theorem foldlM_eq_error_iff {f : σ → α → Except ε σ} {l : List α} {s : σ} {e : ε} :
    l.foldlM f s = .error e ↔ ∃ before a after s', l = before ++ a :: after ∧
      before.foldlM f s = .ok s' ∧ f s' a = .error e := by
  constructor
  · intro h
    induction l generalizing s with
    | nil => cases h
    | cons a l ih =>
      rw [List.foldlM_cons] at h
      rcases bind_eq_error.mp h with fails | ⟨middle, first, rest⟩
      · exact ⟨[], a, l, s, rfl, rfl, fails⟩
      · obtain ⟨before, b, after, s', rfl, runs, fails⟩ := ih rest
        refine ⟨a :: before, b, after, s', rfl, ?_, fails⟩
        rw [List.foldlM_cons]
        exact bind_eq_ok.mpr ⟨middle, first, runs⟩
  · rintro ⟨before, a, after, s', rfl, runs, fails⟩
    rw [List.foldlM_append]
    refine bind_eq_error.mpr (.inr ⟨s', runs, ?_⟩)
    rw [List.foldlM_cons]
    exact bind_eq_error.mpr (.inl fails)

/-- Both computations fail alike, or both succeed, with results that are related. -/
inductive Matched (R : α → β → Prop) : Except ε α → Except ε β → Prop
  | error (e : ε) : Matched R (.error e) (.error e)
  | ok {a : α} {b : β} : R a b → Matched R (.ok a) (.ok b)

theorem Matched.exists_of_ok {R : α → β → Prop} {x : Except ε α} {y : Except ε β} {b : β}
    (matched : Matched R x y) (succeeds : y = .ok b) : ∃ a, x = .ok a ∧ R a b := by
  cases matched with
  | error e => cases succeeds
  | ok related =>
    cases succeeds
    exact ⟨_, rfl, related⟩

theorem Matched.bind {γ δ : Type} {R : α → β → Prop} {S : γ → δ → Prop} {x : Except ε α}
    {y : Except ε β} {f : α → Except ε γ} {g : β → Except ε δ} (matched : Matched R x y)
    (next : ∀ a b, R a b → Matched S (f a) (g b)) : Matched S (x >>= f) (y >>= g) := by
  cases matched with
  | error e => exact .error e
  | ok related => exact next _ _ related

/-- Two runs through one list stay related if their steps do. -/
theorem Matched.foldlM {τ : Type} {R : σ → τ → Prop} {f : σ → α → Except ε σ}
    {g : τ → α → Except ε τ} (step : ∀ s t a, R s t → Matched R (f s a) (g t a)) {s : σ} {t : τ}
    (start : R s t) (l : List α) : Matched R (l.foldlM f s) (l.foldlM g t) := by
  induction l generalizing s t with
  | nil => exact .ok start
  | cons a l ih =>
    rw [List.foldlM_cons, List.foldlM_cons]
    exact (step s t a start).bind fun _ _ related => ih related

end Proximity
