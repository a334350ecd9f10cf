import Mathlib.Data.List.DropRight

/-!
# Texts with separators

Operations on texts that hold several parts: joining texts with a separator, cutting a text at its
first separator, trimming it, and the fields between runs of separators. A text is a list of
characters of any type.
-/

set_option autoImplicit false
set_option relaxedAutoImplicit false

namespace WebLens.Lib.Fields

variable {α : Type}

/-! ### Joining -/

/-- The texts with the separator between them. -/
def join (separator : α) : List (List α) → List α
  | [] => []
  | [text] => text
  | text :: next :: texts => text ++ separator :: join separator (next :: texts)

/-- Splitting at a separator that no text has undoes joining. -/
theorem splitOn_join [DecidableEq α] {separator : α} {texts : List (List α)} (hne : texts ≠ [])
    (hfree : ∀ text ∈ texts, separator ∉ text) :
    (join separator texts).splitOn separator = texts := by
  induction texts with
  | nil => exact absurd rfl hne
  | cons text texts ih =>
    have htext : separator ∉ text := hfree text List.mem_cons_self
    cases texts with
    | nil => exact List.splitOn_eq_singleton htext
    | cons next texts =>
      unfold join
      rw [List.splitOn_append_cons_self_of_not_mem htext, ih (List.cons_ne_nil _ _)
        fun other h ↦ hfree other (List.mem_cons_of_mem _ h)]

theorem mem_join {separator x : α} {texts : List (List α)} (h : x ∈ join separator texts) :
    x = separator ∨ ∃ text ∈ texts, x ∈ text := by
  induction texts with
  | nil => exact absurd h List.not_mem_nil
  | cons text texts ih =>
    cases texts with
    | nil => exact .inr ⟨text, List.mem_cons_self, h⟩
    | cons next texts =>
      unfold join at h
      rcases List.mem_append.1 h with htext | hrest
      · exact .inr ⟨text, List.mem_cons_self, htext⟩
      rcases List.mem_cons.1 hrest with heq | hlater
      · exact .inl heq
      rcases ih hlater with heq | ⟨other, hother, hx⟩
      · exact .inl heq
      · exact .inr ⟨other, List.mem_cons_of_mem _ hother, hx⟩

/-- A character of a piece is a character of the text. -/
theorem mem_of_mem_splitOn [DecidableEq α] {separator x : α} {text piece : List α}
    (hpiece : piece ∈ text.splitOn separator) (hx : x ∈ piece) : x ∈ text := by
  induction text generalizing piece with
  | nil =>
    obtain rfl : piece = [] := by simpa [List.splitOn_eq_splitOnP] using hpiece
    exact hx
  | cons first text ih =>
    rw [List.splitOn_cons_eq_if_modifyHead] at hpiece
    by_cases hfirst : (first == separator) = true
    · rw [if_pos hfirst] at hpiece
      rcases List.mem_cons.1 hpiece with rfl | hlater
      · exact absurd hx List.not_mem_nil
      · exact List.mem_cons_of_mem _ (ih hlater hx)
    · rw [if_neg hfirst] at hpiece
      cases hsplit : text.splitOn separator with
      | nil => exact absurd hsplit (List.splitOn_ne_nil separator text)
      | cons head tail =>
        rw [hsplit, List.modifyHead_cons] at hpiece
        rcases List.mem_cons.1 hpiece with rfl | hlater
        · rcases List.mem_cons.1 hx with rfl | hx
          · exact List.mem_cons_self
          · exact List.mem_cons_of_mem _ (ih (by rw [hsplit]; exact List.mem_cons_self) hx)
        · exact List.mem_cons_of_mem _
            (ih (by rw [hsplit]; exact List.mem_cons_of_mem _ hlater) hx)

/-! ### Cutting -/

section Cutting

variable [DecidableEq α]

/-- The text before the first separator and the text after it. -/
def cut (separator : α) : List α → Option (List α × List α)
  | [] => none
  | x :: text =>
    if x = separator then some ([], text)
    else (cut separator text).map fun parts ↦ (x :: parts.1, parts.2)

theorem cut_append_cons {separator : α} {before : List α} (h : separator ∉ before)
    (after : List α) : cut separator (before ++ separator :: after) = some (before, after) := by
  induction before with
  | nil =>
    show (if separator = separator then _ else _) = _
    rw [if_pos rfl]
  | cons x before ih =>
    have hx : x ≠ separator := fun heq ↦ h (heq ▸ List.mem_cons_self)
    rw [List.cons_append]
    unfold cut
    rw [if_neg hx, ih fun hmem ↦ h (List.mem_cons_of_mem _ hmem)]
    rfl

theorem cut_eq_none {separator : α} {text : List α} (h : separator ∉ text) :
    cut separator text = none := by
  induction text with
  | nil => rfl
  | cons x text ih =>
    have hx : x ≠ separator := fun heq ↦ h (heq ▸ List.mem_cons_self)
    show (if x = separator then _ else _) = _
    rw [if_neg hx, ih fun hmem ↦ h (List.mem_cons_of_mem _ hmem)]
    rfl

/-- What a text is cut into. -/
theorem eq_of_cut {separator : α} {text : List α} {parts : List α × List α}
    (h : cut separator text = some parts) : text = parts.1 ++ separator :: parts.2 := by
  by_cases hmem : separator ∈ text
  · obtain ⟨before, after, rfl, hfree⟩ := List.eq_append_cons_of_mem hmem
    rw [cut_append_cons hfree] at h
    rw [← Option.some.inj h]
  · rw [cut_eq_none hmem] at h
    exact absurd h (Option.some_ne_none parts).symm

end Cutting

/-! ### Trimming -/

variable {p : α → Bool}

/-- The text without the characters of a kind at its ends. -/
def trim (p : α → Bool) (text : List α) : List α :=
  (text.dropWhile p).rdropWhile p

theorem dropWhile_append_of_forall {left text : List α} (h : ∀ x ∈ left, p x = true) :
    (left ++ text).dropWhile p = text.dropWhile p := by
  induction left with
  | nil => rfl
  | cons x left ih =>
    rw [List.cons_append, List.dropWhile_cons_of_pos (h x List.mem_cons_self)]
    exact ih fun y hy ↦ h y (List.mem_cons_of_mem _ hy)

/-- What is on the left of a text and trimmed does not matter. -/
theorem trim_append {left text : List α} (h : ∀ x ∈ left, p x = true) :
    trim p (left ++ text) = trim p text := by
  unfold trim
  rw [dropWhile_append_of_forall h]

theorem rdropWhile_append_cons (before after : List α) {x : α} (hx : p x = false) :
    (before ++ x :: after).rdropWhile p = before ++ x :: after.rdropWhile p := by
  induction after using List.reverseRecOn with
  | nil =>
    exact List.rdropWhile_concat_neg p before x (by rw [hx]; exact Bool.false_ne_true)
  | append_singleton after y ih =>
    have hassoc : before ++ x :: (after ++ [y]) = before ++ x :: after ++ [y] := by
      rw [List.append_assoc, List.cons_append]
    rw [hassoc]
    by_cases hy : p y = true
    · rw [List.rdropWhile_concat_pos p _ y hy, List.rdropWhile_concat_pos p _ y hy, ih]
    · rw [List.rdropWhile_concat_neg p _ y hy, List.rdropWhile_concat_neg p _ y hy, hassoc]

/-- A text that starts with a character that stays keeps it, up to its last such character. -/
theorem trim_cons_append (first : α) (before after : List α) {x : α}
    (hfirst : p first = false) (hx : p x = false) :
    trim p (first :: before ++ x :: after) = first :: before ++ x :: after.rdropWhile p := by
  unfold trim
  rw [List.cons_append, List.dropWhile_cons_of_neg (by rw [hfirst]; exact Bool.false_ne_true),
    ← List.cons_append, rdropWhile_append_cons _ _ hx]

theorem trim_cons (first : α) (text : List α) (hfirst : p first = false) :
    trim p (first :: text) = first :: text.rdropWhile p := by
  unfold trim
  rw [List.dropWhile_cons_of_neg (by rw [hfirst]; exact Bool.false_ne_true)]
  exact rdropWhile_append_cons [] text hfirst

theorem trim_eq_self {text : List α} (h : ∀ x ∈ text, p x = false) : trim p text = text := by
  cases text with
  | nil => rfl
  | cons x text =>
    rw [trim_cons x text (h x List.mem_cons_self), List.rdropWhile_eq_self_iff.2]
    intro hne
    rw [h _ (List.mem_cons_of_mem _ (List.getLast_mem hne))]
    exact Bool.false_ne_true

/-- Trimming commutes with a change of characters that keeps the kind. -/
theorem trim_map (f : α → α) (text : List α) (h : ∀ x, p (f x) = p x) :
    trim p (text.map f) = (trim p text).map f := by
  have hp : p ∘ f = p := funext h
  unfold trim List.rdropWhile
  rw [List.dropWhile_map, hp, ← List.map_reverse, List.dropWhile_map, hp, List.map_reverse]

theorem mem_of_mem_trim {text : List α} {x : α} (h : x ∈ trim p text) : x ∈ text :=
  (List.dropWhile_suffix p).subset ((List.rdropWhile_prefix p _).subset h)

/-! ### Fields -/

/-- The parts between runs of separators. -/
def fieldsBy (p : α → Bool) (text : List α) : List (List α) :=
  (text.splitOnP p).filter fun field ↦ !field.isEmpty

/-- A separator ends a field. -/
theorem fieldsBy_append_cons (before after : List α) {x : α} (hx : p x = true) :
    fieldsBy p (before ++ x :: after) = fieldsBy p before ++ fieldsBy p after := by
  unfold fieldsBy
  rw [List.splitOnP_append_cons before after hx, List.filter_append]

theorem fieldsBy_nil : fieldsBy p ([] : List α) = [] := rfl

/-- A text without separators is one field, unless it is empty. -/
theorem fieldsBy_word [DecidableEq α] {word : List α} (h : ∀ x ∈ word, p x = false) :
    fieldsBy p word = if word = [] then [] else [word] := by
  unfold fieldsBy
  rw [List.splitOnP_eq_singleton h]
  by_cases hword : word = []
  · rw [if_pos hword, hword]
    rfl
  · rw [if_neg hword]
    exact List.filter_cons_of_pos (by rw [List.isEmpty_eq_false_iff.2 hword]; rfl)

theorem fieldsBy_append_left {left text : List α} (h : ∀ x ∈ left, p x = true) :
    fieldsBy p (left ++ text) = fieldsBy p text := by
  induction left with
  | nil => rfl
  | cons x left ih =>
    have hstep := fieldsBy_append_cons [] (left ++ text) (h x List.mem_cons_self)
    rw [List.nil_append, fieldsBy_nil, List.nil_append] at hstep
    rw [List.cons_append, hstep]
    exact ih fun y hy ↦ h y (List.mem_cons_of_mem _ hy)

theorem fieldsBy_append_right {text right : List α} (h : ∀ x ∈ right, p x = true) :
    fieldsBy p (text ++ right) = fieldsBy p text := by
  cases right with
  | nil => rw [List.append_nil]
  | cons x right =>
    rw [fieldsBy_append_cons text right (h x List.mem_cons_self)]
    have hright : fieldsBy p right = [] := by
      rw [← List.append_nil right]
      exact fieldsBy_append_left fun y hy ↦ h y (List.mem_cons_of_mem x hy)
    rw [hright, List.append_nil]

/-- The fields of a text with a word written right before it: only the first one changes. -/
theorem mem_fieldsBy_append {word text field : List α} (hword : ∀ x ∈ word, p x = false)
    (h : field ∈ fieldsBy p (word ++ text)) :
    (∃ rest, field = word ++ rest) ∨ field ∈ fieldsBy p text := by
  unfold fieldsBy at h ⊢
  obtain ⟨hmem, hne⟩ := List.mem_filter.1 h
  have hsplit : (word ++ text).splitOnP p = (text.splitOnP p).modifyHead (word ++ ·) := by
    clear h hmem
    induction word with
    | nil =>
      cases htext : text.splitOnP p with
      | nil => exact absurd htext (List.splitOnP_ne_nil p text)
      | cons head tail => exact htext
    | cons x word ih =>
      have hx : ¬ p x = true := by
        rw [hword x List.mem_cons_self]
        exact Bool.false_ne_true
      rw [List.cons_append, List.splitOnP_cons_eq_if_modifyHead, if_neg hx,
        ih fun y hy ↦ hword y (List.mem_cons_of_mem _ hy)]
      cases text.splitOnP p <;> rfl
  rw [hsplit] at hmem
  cases htext : text.splitOnP p with
  | nil => exact absurd htext (List.splitOnP_ne_nil p text)
  | cons head tail =>
    rw [htext, List.modifyHead_cons] at hmem
    rcases List.mem_cons.1 hmem with rfl | hlater
    · exact .inl ⟨head, rfl⟩
    · exact .inr (List.mem_filter.2 ⟨List.mem_cons_of_mem _ hlater, hne⟩)

/-- Trimming separators leaves the fields. -/
theorem fieldsBy_trim {q : α → Bool} {text : List α} (h : ∀ x ∈ text, p x = true → q x = true) :
    fieldsBy q (trim p text) = fieldsBy q text := by
  have hleft : fieldsBy q text = fieldsBy q (text.dropWhile p) := by
    have hsplit := List.takeWhile_append_dropWhile (p := p) (l := text)
    have hblank : ∀ x ∈ text.takeWhile p, q x = true := fun x hx ↦
      h x ((List.takeWhile_prefix p).subset hx) (List.mem_takeWhile_imp hx)
    exact (congrArg (fieldsBy q) hsplit).symm.trans (fieldsBy_append_left hblank)
  have hright : fieldsBy q (text.dropWhile p) = fieldsBy q (trim p text) := by
    have hsplit := List.rdropWhile_append_rtakeWhile (p := p) (l := text.dropWhile p)
    have hblank : ∀ x ∈ (text.dropWhile p).rtakeWhile p, q x = true := by
      intro x hx
      have hmem : x ∈ text := (List.dropWhile_suffix p).subset
        ((List.rtakeWhile_suffix p _).subset hx)
      exact h x hmem (List.mem_rtakeWhile_imp hx)
    exact (congrArg (fieldsBy q) hsplit).symm.trans (fieldsBy_append_right hblank)
  rw [hleft, hright]

end WebLens.Lib.Fields
