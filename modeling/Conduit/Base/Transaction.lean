import Mathlib

/-!
# Transactions

A transaction reads and writes a state and either commits with a result or
aborts with an error, which rolls everything back. `Commits t s a s'` says
that `t` started in `s` commits with result `a` in `s'`; the lemmas invert it
along the shape of `t`, so a proof about a committed transaction peels its
statements off one by one. On top of it, `Keeps` says that a property
survives every commit and `Steps` that every commit is a step of a preorder,
with one lemma for each way transactions are put together.
-/

namespace Base

/-- A computation over a state `σ` that may abort with an error `ε`. -/
abbrev Transaction (σ ε : Type) := StateT σ (Except ε)

namespace Transaction

variable {σ ε α β : Type}

/-- The current state. -/
def read : Transaction σ ε σ := fun s => .ok (s, s)

/-- A statement that changes the state. -/
def write (f : σ → σ) : Transaction σ ε Unit := fun s => .ok ((), f s)

/-- Roll back with an error. -/
def abort (e : ε) : Transaction σ ε α := fun _ => .error e

/-- Roll back unless a condition holds. -/
def require (c : Prop) [Decidable c] (e : ε) : Transaction σ ε Unit :=
  if c then pure () else abort e

/-- The value, or roll back. -/
def orAbort (x : Option α) (e : ε) : Transaction σ ε α :=
  match x with
  | some a => pure a
  | none => abort e

/-- The result of a computation that needs no state, or roll back. -/
def attempt (x : Except ε α) : Transaction σ ε α :=
  match x with
  | .ok a => pure a
  | .error e => abort e

/-- The state after running a transaction: the committed one or, after an
abort, the old one. -/
def commit (t : Transaction σ ε α) (s : σ) : σ :=
  match t s with
  | .ok (_, s') => s'
  | .error _ => s

/-- `t` commits. -/
def Commits (t : Transaction σ ε α) (s : σ) (a : α) (s' : σ) : Prop := t s = .ok (a, s')

/-! ## Inversion -/

variable {s s' : σ} {a b : α}

@[simp] theorem commits_pure : Commits (pure b : Transaction σ ε α) s a s' ↔ b = a ∧ s = s' := by
  show (Except.ok (b, s) : Except ε _) = .ok (a, s') ↔ _
  rw [Except.ok.injEq, Prod.mk.injEq]

@[simp] theorem commits_read {x : σ} : Commits (read : Transaction σ ε σ) s x s' ↔ s = x ∧ s = s' := by
  show (Except.ok (s, s) : Except ε _) = .ok (x, s') ↔ _
  rw [Except.ok.injEq, Prod.mk.injEq]

@[simp] theorem commits_write {f : σ → σ} {u : Unit} :
    Commits (write f : Transaction σ ε Unit) s u s' ↔ f s = s' := by
  show (Except.ok ((), f s) : Except ε _) = .ok (u, s') ↔ _
  rw [Except.ok.injEq, Prod.mk.injEq]
  exact and_iff_right rfl

@[simp] theorem commits_abort {e : ε} : ¬ Commits (abort e : Transaction σ ε α) s a s' := by
  intro h
  cases h

@[simp] theorem commits_bind {t : Transaction σ ε α} {k : α → Transaction σ ε β} {c : β} :
    Commits (t >>= k) s c s' ↔ ∃ a s₁, Commits t s a s₁ ∧ Commits (k a) s₁ c s' := by
  have hbind : (t >>= k) s = (t s >>= fun p => k p.1 p.2) := rfl
  unfold Commits
  rw [hbind]
  cases ht : t s with
  | error e =>
      constructor
      · intro h
        cases h
      · rintro ⟨a, s₁, h, _⟩
        cases h
  | ok p =>
      constructor
      · intro h
        exact ⟨p.1, p.2, rfl, h⟩
      · rintro ⟨a, s₁, h, hk⟩
        cases h
        exact hk

@[simp] theorem commits_require {c : Prop} [Decidable c] {e : ε} {u : Unit} :
    Commits (require c e : Transaction σ ε Unit) s u s' ↔ c ∧ s = s' := by
  unfold require
  by_cases hc : c
  · simp [hc]
  · simp [hc]

@[simp] theorem commits_orAbort {x : Option α} {e : ε} :
    Commits (orAbort x e : Transaction σ ε α) s a s' ↔ x = some a ∧ s = s' := by
  cases x with
  | none => simp [orAbort]
  | some y => simp [orAbort]

@[simp] theorem commits_attempt {x : Except ε α} :
    Commits (attempt x : Transaction σ ε α) s a s' ↔ x = .ok a ∧ s = s' := by
  cases x with
  | error e => simp [attempt]
  | ok y => simp [attempt]

@[simp] theorem commits_ite {c : Prop} [Decidable c] {t u : Transaction σ ε α} :
    Commits (if c then t else u) s a s' ↔ (c ∧ Commits t s a s') ∨ (¬ c ∧ Commits u s a s') := by
  by_cases hc : c
  · simp [hc]
  · simp [hc]

theorem run_bind {t : Transaction σ ε α} {k : α → Transaction σ ε β} (h : Commits t s a s') :
    (t >>= k) s = k a s' := by
  have hbind : (t >>= k) s = (t s >>= fun p => k p.1 p.2) := rfl
  rw [hbind, show t s = .ok (a, s') from h]
  rfl

/-- A run commits or leaves the state alone. -/
theorem commit_cases (t : Transaction σ ε α) (s : σ) :
    (∃ a, Commits t s a (commit t s)) ∨ commit t s = s := by
  unfold Commits commit
  cases h : t s with
  | error e => exact .inr rfl
  | ok p => exact .inl ⟨p.1, rfl⟩

/-! ## Kept properties -/

/-- Whenever `t` commits, it keeps `P`. -/
def Keeps (P : σ → Prop) (t : Transaction σ ε α) : Prop :=
  ∀ s a s', P s → Commits t s a s' → P s'

variable {P : σ → Prop} {t : Transaction σ ε α}

/-- What every commit keeps, the committed state has. -/
theorem Keeps.commit (h : Keeps P t) (hs : P s) : P (t.commit s) := by
  rcases commit_cases t s with ⟨a, hc⟩ | heq
  · exact h s a _ hs hc
  · rwa [heq]

/-! ## Steps of a preorder -/

/-- Whenever `t` commits, the states before and after are related. -/
def Steps (R : σ → σ → Prop) (t : Transaction σ ε α) : Prop :=
  ∀ s a s', Commits t s a s' → R s s'

namespace Steps

variable {R : σ → σ → Prop}

theorem write {f : σ → σ} (hf : ∀ s, R s (f s)) : Steps R (write f : Transaction σ ε Unit) := by
  intro s u s' h
  rw [← commits_write.mp h]
  exact hf s

theorem abort {e : ε} : Steps R (abort e : Transaction σ ε α) :=
  fun _ _ _ h => absurd h commits_abort

theorem bind [IsTrans σ R] {k : α → Transaction σ ε β} (ht : Steps R t)
    (hk : ∀ a, Steps R (k a)) : Steps R (t >>= k) := by
  intro s c s' h
  obtain ⟨a, s₁, h₁, h₂⟩ := commits_bind.mp h
  exact IsTrans.trans s s₁ s' (ht s a s₁ h₁) (hk a s₁ c s' h₂)

theorem ite {c : Prop} [Decidable c] {u : Transaction σ ε α} (ht : c → Steps R t)
    (hu : ¬ c → Steps R u) : Steps R (if c then t else u) := by
  by_cases hc : c
  · rw [if_pos hc]
    exact ht hc
  · rw [if_neg hc]
    exact hu hc

variable [Std.Refl R]

theorem pure : Steps R (pure a : Transaction σ ε α) := by
  intro s b s' h
  rw [← (commits_pure.mp h).2]
  exact Std.Refl.refl s

theorem read : Steps R (read : Transaction σ ε σ) := by
  intro s x s' h
  rw [← (commits_read.mp h).2]
  exact Std.Refl.refl s

theorem require {c : Prop} [Decidable c] {e : ε} :
    Steps R (require c e : Transaction σ ε Unit) := by
  intro s u s' h
  rw [← (commits_require.mp h).2]
  exact Std.Refl.refl s

theorem orAbort {x : Option α} {e : ε} : Steps R (orAbort x e : Transaction σ ε α) := by
  intro s b s' h
  rw [← (commits_orAbort.mp h).2]
  exact Std.Refl.refl s

theorem attempt {x : Except ε α} : Steps R (attempt x : Transaction σ ε α) := by
  intro s b s' h
  rw [← (commits_attempt.mp h).2]
  exact Std.Refl.refl s

/-- A committed or aborted run is a step as well. -/
theorem commit (h : Steps R t) (s : σ) : R s (t.commit s) := by
  rcases commit_cases t s with ⟨a, hc⟩ | heq
  · exact h s a _ hc
  · rw [heq]
    exact Std.Refl.refl s

end Steps

/-! ## Errors -/

/-- `t` aborts with these errors only. -/
def Errors (E : ε → Prop) (t : Transaction σ ε α) : Prop := ∀ s e, t s = .error e → E e

namespace Errors

variable {E : ε → Prop}

theorem pure : Errors E (pure a : Transaction σ ε α) := by
  intro s e h
  cases h

theorem read : Errors E (read : Transaction σ ε σ) := by
  intro s e h
  cases h

theorem write {f : σ → σ} : Errors E (write f : Transaction σ ε Unit) := by
  intro s e h
  cases h

theorem bind {k : α → Transaction σ ε β} (ht : Errors E t) (hk : ∀ a, Errors E (k a)) :
    Errors E (t >>= k) := by
  intro s e h
  have hbind : (t >>= k) s = (t s >>= fun p => k p.1 p.2) := rfl
  rw [hbind] at h
  cases hrun : t s with
  | error e' =>
      rw [hrun] at h
      cases h
      exact ht s e hrun
  | ok p =>
      rw [hrun] at h
      exact hk p.1 p.2 e h

theorem ite {c : Prop} [Decidable c] {u : Transaction σ ε α} (ht : c → Errors E t)
    (hu : ¬ c → Errors E u) : Errors E (if c then t else u) := by
  by_cases hc : c
  · rw [if_pos hc]
    exact ht hc
  · rw [if_neg hc]
    exact hu hc

theorem require {c : Prop} [Decidable c] {e : ε} (he : ¬ c → E e) :
    Errors E (require c e : Transaction σ ε Unit) := by
  intro s e' h
  unfold Transaction.require at h
  by_cases hc : c
  · rw [if_pos hc] at h
    cases h
  · rw [if_neg hc] at h
    cases h
    exact he hc

theorem orAbort {x : Option α} {e : ε} (he : E e) : Errors E (orAbort x e : Transaction σ ε α) := by
  intro s e' h
  cases x with
  | some a => cases h
  | none =>
      cases h
      exact he

theorem attempt {x : Except ε α} (hx : ∀ e, x = .error e → E e) :
    Errors E (attempt x : Transaction σ ε α) := by
  intro s e h
  cases x with
  | ok a => cases h
  | error e' =>
      cases h
      exact hx _ rfl

end Errors

end Transaction

end Base
