import Mathlib.Tactic.SplitIfs
import Mathlib.Tactic.TypeStar

/-!
# Database transactions

A transaction body reads and changes a database state and may fail. It is committed as a whole:
a body that fails is rolled back, so the state is the one before it. `Returns body s a s'` says
that the body, started in `s`, succeeds with result `a` in state `s'`; its lemmas take a body apart
statement by statement. `Fails body s e` says that it fails with error `e`.
-/

set_option autoImplicit false
set_option relaxedAutoImplicit false

namespace WebLens.Lib

variable {σ ε α β : Type}

/-- The body of a transaction over states `σ` with errors `ε`. -/
abbrev Transaction (σ ε α : Type) :=
  StateT σ (Except ε) α

namespace Transaction

/-- Runs a body and commits it: its result and the new state, or its error and the old state. -/
def commit (body : Transaction σ ε α) (s : σ) : Except ε α × σ :=
  match body.run s with
  | .ok (a, s') => (.ok a, s')
  | .error e => (.error e, s)

/-- Fails with the error unless the condition holds. -/
def require (condition : Prop) [Decidable condition] (error : ε) : Transaction σ ε Unit :=
  if condition then pure () else throw error

/-- The row of a query that must find one. -/
def found (row : Option α) (error : ε) : Transaction σ ε α :=
  match row with
  | some a => pure a
  | none => throw error

/-- The body succeeds from `s` with result `a` in state `s'`. -/
def Returns (body : Transaction σ ε α) (s : σ) (a : α) (s' : σ) : Prop :=
  body.run s = .ok (a, s')

/-- The body fails from `s` with error `e`. -/
def Fails (body : Transaction σ ε α) (s : σ) (e : ε) : Prop :=
  body.run s = .error e

/-! ### Taking a body apart -/

variable {s s' : σ} {a : α} {b : β} {e : ε}

@[simp]
theorem returns_pure {a' : α} :
    Returns (pure a' : Transaction σ ε α) s a s' ↔ a = a' ∧ s' = s := by
  change (Except.ok (a', s) : Except ε (α × σ)) = .ok (a, s') ↔ _
  rw [Except.ok.injEq, Prod.mk.injEq]
  exact and_congr eq_comm eq_comm

@[simp]
theorem returns_throw : ¬ Returns (throw e : Transaction σ ε α) s a s' := by
  intro h
  cases h

@[simp]
theorem returns_bind {body : Transaction σ ε α} {next : α → Transaction σ ε β} :
    Returns (body >>= next) s b s' ↔ ∃ a s₁, Returns body s a s₁ ∧ Returns (next a) s₁ b s' := by
  change (body.run s >>= fun result ↦ (next result.1).run result.2) = .ok (b, s') ↔ _
  constructor
  · intro h
    cases hbody : body.run s with
    | error e =>
      rw [hbody] at h
      cases h
    | ok result =>
      rw [hbody] at h
      exact ⟨result.1, result.2, hbody, h⟩
  · rintro ⟨a, s₁, hbody, hnext⟩
    rw [Returns] at hbody
    rw [hbody]
    exact hnext

@[simp]
theorem returns_get {s₁ : σ} :
    Returns (get : Transaction σ ε σ) s s₁ s' ↔ s₁ = s ∧ s' = s := by
  change (Except.ok (s, s) : Except ε (σ × σ)) = .ok (s₁, s') ↔ _
  rw [Except.ok.injEq, Prod.mk.injEq]
  exact and_congr eq_comm eq_comm

@[simp]
theorem returns_set {s₁ : σ} {u : PUnit} :
    Returns (set s₁ : Transaction σ ε PUnit) s u s' ↔ s' = s₁ := by
  change (Except.ok (PUnit.unit, s₁) : Except ε (PUnit × σ)) = .ok (u, s') ↔ _
  rw [Except.ok.injEq, Prod.mk.injEq]
  exact ⟨fun h ↦ h.2.symm, fun h ↦ ⟨rfl, h.symm⟩⟩

@[simp]
theorem returns_modify {f : σ → σ} {u : PUnit} :
    Returns (modify f : Transaction σ ε PUnit) s u s' ↔ s' = f s := by
  change (Except.ok (PUnit.unit, f s) : Except ε (PUnit × σ)) = .ok (u, s') ↔ _
  rw [Except.ok.injEq, Prod.mk.injEq]
  exact ⟨fun h ↦ h.2.symm, fun h ↦ ⟨rfl, h.symm⟩⟩

@[simp]
theorem returns_modifyGet {f : σ → α × σ} :
    Returns (modifyGet f : Transaction σ ε α) s a s' ↔ f s = (a, s') := by
  change (Except.ok (f s) : Except ε (α × σ)) = .ok (a, s') ↔ _
  rw [Except.ok.injEq]

@[simp]
theorem returns_require {condition : Prop} [Decidable condition] {u : Unit} :
    Returns (require condition e : Transaction σ ε Unit) s u s' ↔ condition ∧ s' = s := by
  unfold require
  split_ifs with h <;> simp [h]

@[simp]
theorem returns_found {row : Option α} :
    Returns (found row e : Transaction σ ε α) s a s' ↔ row = some a ∧ s' = s := by
  cases row with
  | none => simp [found]
  | some a' => simp [found, eq_comm]

/-! ### Failing -/

theorem fails_throw : Fails (throw e : Transaction σ ε α) s e :=
  rfl

/-- A body that starts with a failing statement fails. -/
theorem Fails.bind {body : Transaction σ ε α} (h : Fails body s e)
    (next : α → Transaction σ ε β) : Fails (body >>= next) s e := by
  change (body.run s >>= fun result ↦ (next result.1).run result.2) = .error e
  rw [h]
  rfl

/-- A body that fails after its first statement fails. -/
theorem Returns.fails_bind {body : Transaction σ ε α} {next : α → Transaction σ ε β}
    (h : Returns body s a s') (hnext : Fails (next a) s' e) : Fails (body >>= next) s e := by
  change (body.run s >>= fun result ↦ (next result.1).run result.2) = .error e
  rw [h]
  exact hnext

theorem returns_require_of {condition : Prop} [Decidable condition] (h : condition) :
    Returns (require condition e : Transaction σ ε Unit) s () s :=
  returns_require.2 ⟨h, rfl⟩

theorem fails_require {condition : Prop} [Decidable condition] (h : ¬ condition) :
    Fails (require condition e : Transaction σ ε Unit) s e := by
  rw [require, if_neg h]
  rfl

theorem fails_found {row : Option α} (h : row = none) :
    Fails (found row e : Transaction σ ε α) s e := by
  rw [h]
  rfl

/-! ### Not failing with an error -/

/-- A sequence avoids an error that its first body and what follows avoid. -/
theorem not_fails_bind {body : Transaction σ ε α} {next : α → Transaction σ ε β}
    (hbody : ¬ Fails body s e) (hnext : ∀ a s₁, Returns body s a s₁ → ¬ Fails (next a) s₁ e) :
    ¬ Fails (body >>= next) s e := by
  intro h
  change (body.run s >>= fun result ↦ (next result.1).run result.2) = .error e at h
  cases hrun : body.run s with
  | error e' =>
    rw [hrun] at h
    have herror : (Except.error e' : Except ε (β × σ)) = .error e := h
    exact hbody (hrun.trans (congrArg Except.error (Except.error.inj herror)))
  | ok result =>
    rw [hrun] at h
    exact hnext result.1 result.2 hrun h

theorem not_fails_pure {a' : α} : ¬ Fails (pure a' : Transaction σ ε α) s e := by
  intro h
  cases h

theorem not_fails_get : ¬ Fails (get : Transaction σ ε σ) s e := by
  intro h
  cases h

theorem not_fails_modify {f : σ → σ} : ¬ Fails (modify f : Transaction σ ε PUnit) s e := by
  intro h
  cases h

theorem not_fails_modifyGet {f : σ → α × σ} :
    ¬ Fails (modifyGet f : Transaction σ ε α) s e := by
  intro h
  cases h

theorem not_fails_throw {e' : ε} (hne : e' ≠ e) : ¬ Fails (throw e' : Transaction σ ε α) s e :=
  fun h ↦ hne (Except.error.inj h)

theorem not_fails_require {condition : Prop} [Decidable condition] {e' : ε} (hne : e' ≠ e) :
    ¬ Fails (require condition e' : Transaction σ ε Unit) s e := by
  unfold require
  split_ifs
  · exact not_fails_pure
  · exact not_fails_throw hne

theorem not_fails_require_of {condition : Prop} [Decidable condition] {e' : ε}
    (h : condition) : ¬ Fails (require condition e' : Transaction σ ε Unit) s e := by
  rw [require, if_pos h]
  exact not_fails_pure

theorem not_fails_found {row : Option α} {e' : ε} (hne : e' ≠ e) :
    ¬ Fails (found row e' : Transaction σ ε α) s e := by
  cases row with
  | none => exact not_fails_throw hne
  | some a => exact not_fails_pure

/-- A failed body is rolled back. -/
theorem commit_of_fails {body : Transaction σ ε α} (h : Fails body s e) :
    commit body s = (.error e, s) := by
  unfold commit
  rw [h]

/-- A committed body succeeded. -/
theorem commit_ok_iff {body : Transaction σ ε α} :
    commit body s = (.ok a, s') ↔ Returns body s a s' := by
  unfold commit Returns
  split
  · next heq => simp [heq]
  · next heq => simp [heq]

/-- A commit either succeeds as its body does or fails and leaves the state as it was. -/
theorem commit_cases (body : Transaction σ ε α) (s : σ) :
    (∃ a s', commit body s = (.ok a, s') ∧ Returns body s a s') ∨
      ∃ e, commit body s = (.error e, s) := by
  unfold commit Returns
  cases h : body.run s with
  | ok result => exact .inl ⟨result.1, result.2, rfl, rfl⟩
  | error e => exact .inr ⟨e, rfl⟩

/-- A body that changes nothing when it succeeds changes nothing. -/
theorem commit_snd_eq {body : Transaction σ ε α} (h : ∀ a s', Returns body s a s' → s' = s) :
    (commit body s).2 = s := by
  rcases commit_cases body s with ⟨a, s', heq, hreturns⟩ | ⟨e, heq⟩
  · rw [heq]
    exact h a s' hreturns
  · rw [heq]

/-- What holds of the state before and after every successful run of a body holds after its
commit. -/
theorem commit_snd_induction {body : Transaction σ ε α} {P : σ → Prop} (h : P s)
    (hbody : ∀ a s', Returns body s a s' → P s') : P (commit body s).2 := by
  rcases commit_cases body s with ⟨a, s', heq, hreturns⟩ | ⟨e, heq⟩
  · rw [heq]
    exact hbody a s' hreturns
  · rw [heq]
    exact h

end Transaction

end WebLens.Lib
