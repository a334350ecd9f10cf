import Mathlib.Logic.Basic

/-!
# Triples for programs that fail with a state

A program over states `σ` ends in a state, or fails with an error and leaves the state in which it
failed. `Triple P body Q E` says that from every state with `P` the program ends in a state with
`Q` or fails in a state with `E`. The rule for a loop over a list carries an invariant that speaks
of the elements that are done.
-/

set_option autoImplicit false
set_option relaxedAutoImplicit false

namespace WebLens.Lib

/-- A program that ends in a state or fails in one. -/
abbrev Program (σ ε : Type) :=
  σ → Except (ε × σ) σ

variable {σ ε α : Type}

/-- From a state with `P`, the program ends in a state with `Q` or fails in a state with `E`. -/
def Triple (P : σ → Prop) (body : Program σ ε) (Q E : σ → Prop) : Prop :=
  ∀ s, P s → (∀ s', body s = .ok s' → Q s') ∧ ∀ e s', body s = .error (e, s') → E s'

namespace Triple

variable {P P' Q Q' R E E' : σ → Prop} {body next : Program σ ε}

theorem of_ok (change : σ → σ) (h : ∀ s, P s → Q (change s)) :
    Triple P (fun s ↦ (.ok (change s) : Except (ε × σ) σ)) Q E := by
  refine fun s hs ↦ ⟨fun s' heq ↦ ?_, fun e s' heq ↦ by cases heq⟩
  cases heq
  exact h s hs

theorem of_error {error : ε} (change : σ → σ) (h : ∀ s, P s → E (change s)) :
    Triple P (fun s ↦ .error (error, change s)) Q E := by
  refine fun s hs ↦ ⟨fun s' heq ↦ (by cases heq), fun e s' heq ↦ ?_⟩
  cases heq
  exact h s hs

theorem weaken (h : Triple P body Q E) (hP : ∀ s, P' s → P s) (hQ : ∀ s, Q s → Q' s)
    (hE : ∀ s, E s → E' s) : Triple P' body Q' E' :=
  fun s hs ↦ ⟨fun s' heq ↦ hQ s' ((h s (hP s hs)).1 s' heq),
    fun e s' heq ↦ hE s' ((h s (hP s hs)).2 e s' heq)⟩

theorem bind (h : Triple P body Q E) (hnext : Triple Q next R E) :
    Triple P (fun s ↦ body s >>= next) R E := by
  intro s hs
  obtain ⟨hok, herror⟩ := h s hs
  cases hbody : body s with
  | error failed =>
    refine ⟨fun s' heq ↦ ?_, fun e s' heq ↦ ?_⟩
    · have heq' : body s >>= next = .ok s' := heq
      rw [hbody] at heq'
      cases heq'
    · have heq' : body s >>= next = .error (e, s') := heq
      rw [hbody] at heq'
      cases heq'
      exact herror e s' hbody
  | ok middle =>
    have hmiddle := hnext middle (hok middle hbody)
    refine ⟨fun s' heq ↦ hmiddle.1 s' ?_, fun e s' heq ↦ hmiddle.2 e s' ?_⟩
    · have heq' : body s >>= next = .ok s' := heq
      rwa [hbody] at heq'
    · have heq' : body s >>= next = .error (e, s') := heq
      rwa [hbody] at heq'

theorem ite (condition : σ → Prop) [DecidablePred condition]
    (hthen : Triple (fun s ↦ P s ∧ condition s) body Q E)
    (helse : Triple (fun s ↦ P s ∧ ¬ condition s) next Q E) :
    Triple P (fun s ↦ if condition s then body s else next s) Q E := by
  intro s hs
  dsimp only
  by_cases h : condition s
  · rw [if_pos h]
    exact hthen s ⟨hs, h⟩
  · rw [if_neg h]
    exact helse s ⟨hs, h⟩

/-- The rule for a loop: the invariant speaks of the elements that are done. -/
theorem foldlM (step : σ → α → Except (ε × σ) σ) {I : List α → σ → Prop} (elements : List α)
    (h : ∀ done element rest, elements = done ++ element :: rest →
      Triple (I done) (fun s ↦ step s element) (I (done ++ [element])) E) :
    Triple (I []) (fun s ↦ elements.foldlM step s) (I elements) E := by
  have hrest : ∀ rest done, elements = done ++ rest →
      Triple (I done) (fun s ↦ rest.foldlM step s) (I elements) E := by
    intro rest
    induction rest with
    | nil =>
      intro done heq
      rw [List.append_nil] at heq
      rw [heq]
      exact of_ok id fun s hs ↦ hs
    | cons element rest ih =>
      intro done heq
      have hnext := ih (done ++ [element]) (by rw [heq, List.append_assoc]; rfl)
      simp only [List.foldlM_cons]
      exact bind (h done element rest heq) hnext
  exact hrest elements [] rfl

end Triple

end WebLens.Lib
