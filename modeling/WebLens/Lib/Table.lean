import Mathlib.Data.List.Basic
import Mathlib.Data.List.Nodup
import Mathlib.Data.List.Count
import Mathlib.Data.Int.Notation
import Mathlib.Tactic.SplitIfs

/-!
# Tables as lists of rows

An `UPDATE` changes the selected rows in place, an `INSERT` appends rows. The lemmas say what such
statements do to keys, to single rows and to the number of rows with a property.

* `countP_update` — the rows with a property after an update, balanced against the rows that lose
  and gain it.
* `countP_key` — with distinct keys a key selects one row.
* `firstBy key rows` — the first row in the order of its key.
* `Grows R rows rows'` — every row stays in place, related by `R` to its new version, and rows may
  be appended.
-/

set_option autoImplicit false
set_option relaxedAutoImplicit false

namespace WebLens.Lib.Table

variable {α β : Type*}

/-- `UPDATE … SET … WHERE …`: the selected rows are changed in place. -/
def update (sel : α → Bool) (set : α → α) (rows : List α) : List α :=
  rows.map fun row ↦ if sel row then set row else row

variable {sel : α → Bool} {set : α → α} {rows : List α}

/-! ### Rows of an updated table -/

theorem mem_update {row' : α} :
    row' ∈ update sel set rows ↔ ∃ row ∈ rows, (if sel row then set row else row) = row' :=
  List.mem_map

/-- A row that is not selected stays. -/
theorem mem_update_of_not {row : α} (hmem : row ∈ rows) (hsel : sel row = false) :
    row ∈ update sel set rows :=
  mem_update.2 ⟨row, hmem, by simp [hsel]⟩

/-- A selected row is replaced. -/
theorem mem_update_of_sel {row : α} (hmem : row ∈ rows) (hsel : sel row = true) :
    set row ∈ update sel set rows :=
  mem_update.2 ⟨row, hmem, by simp [hsel]⟩

/-- What holds of every row and of every new one holds after the update. -/
theorem forall_update {P : α → Prop} (h : ∀ row ∈ rows, P row)
    (hset : ∀ row ∈ rows, sel row = true → P (set row)) : ∀ row ∈ update sel set rows, P row := by
  intro row' hrow'
  obtain ⟨row, hrow, rfl⟩ := mem_update.1 hrow'
  split_ifs with hsel
  · exact hset row hrow hsel
  · exact h row hrow

/-- An update that selects nothing changes nothing. -/
theorem update_eq_self (h : ∀ row ∈ rows, sel row = false) : update sel set rows = rows := by
  conv_rhs => rw [← List.map_id rows]
  refine List.map_congr_left fun row hmem ↦ ?_
  simp [h row hmem]

/-- Two updates of the same rows are one. -/
theorem update_update {set' : α → α} (h : ∀ row, sel (set row) = sel row) :
    update sel set' (update sel set rows) = update sel (fun row ↦ set' (set row)) rows := by
  rw [update, update, update, List.map_map]
  refine List.map_congr_left fun row _ ↦ ?_
  by_cases hsel : sel row = true
  · simp [hsel, h row]
  · simp [hsel]

/-- An update that keeps a column keeps the column of the table. -/
theorem map_update (column : α → β) (h : ∀ row ∈ rows, sel row = true → column (set row) = column row) :
    (update sel set rows).map column = rows.map column := by
  rw [update, List.map_map]
  refine List.map_congr_left fun row hmem ↦ ?_
  by_cases hsel : sel row = true
  · simp [hsel, h row hmem hsel]
  · simp [hsel]

/-- Rows that an update cannot reach are the same before and after. -/
theorem filter_update (p : α → Bool) (hsel : ∀ row ∈ rows, p row = true → sel row = false)
    (hset : ∀ row ∈ rows, sel row = true → p (set row) = false) :
    (update sel set rows).filter p = rows.filter p := by
  induction rows with
  | nil => rfl
  | cons row rows ih =>
    have ih := ih (fun row hmem ↦ hsel row (List.mem_cons_of_mem _ hmem))
      (fun row hmem ↦ hset row (List.mem_cons_of_mem _ hmem))
    have hrow := hsel row List.mem_cons_self
    have hnew := hset row List.mem_cons_self
    simp only [update, List.map_cons, List.filter_cons] at ih ⊢
    cases hs : sel row with
    | true =>
      have hp : p row = false := by
        by_contra hp
        simp_all
      simp [hnew hs, hp, ih]
    | false => simp [ih]

/-- An update that keeps a property updates the first row with it. -/
theorem find?_update (p : α → Bool) (hset : ∀ row, p (set row) = p row) :
    (update sel set rows).find? p =
      (rows.find? p).map fun row ↦ if sel row then set row else row := by
  induction rows with
  | nil => rfl
  | cons row rows ih =>
    have hp : p (if sel row then set row else row) = p row := by
      split_ifs
      · exact hset row
      · rfl
    simp only [update, List.map_cons, List.find?_cons] at ih ⊢
    rw [hp, ih]
    cases p row <;> rfl

/-- An update that keeps a property updates the rows with it. -/
theorem filter_update_of_eq (p : α → Bool) (hset : ∀ row, p (set row) = p row) :
    (update sel set rows).filter p = update sel set (rows.filter p) := by
  induction rows with
  | nil => rfl
  | cons row rows ih =>
    have hp : p (if sel row then set row else row) = p row := by
      split_ifs
      · exact hset row
      · rfl
    simp only [update, List.map_cons, List.filter_cons] at ih ⊢
    rw [hp, ih]
    cases p row <;> rfl

/-- With distinct keys, a row is found by its key. -/
theorem find?_key [DecidableEq β] {key : α → β} (hnodup : (rows.map key).Nodup) {row : α}
    (hmem : row ∈ rows) : rows.find? (fun other ↦ decide (key other = key row)) = some row := by
  induction rows with
  | nil => cases hmem
  | cons other rows ih =>
    rw [List.map_cons, List.nodup_cons] at hnodup
    rw [List.find?_cons]
    rcases List.mem_cons.1 hmem with rfl | hmem
    · simp
    · have hne : key other ≠ key row := fun heq ↦ hnodup.1 (heq ▸ List.mem_map_of_mem hmem)
      simp [hne, ih hnodup.2 hmem]

/-- A row with a new key keeps the keys distinct. -/
theorem nodup_map_concat {key : α → β} (h : (rows.map key).Nodup) {row : α}
    (hnew : ∀ other ∈ rows, key other ≠ key row) : ((rows ++ [row]).map key).Nodup := by
  rw [List.map_append, List.nodup_append]
  refine ⟨h, List.nodup_singleton _, ?_⟩
  intro _ hmem _ hrow
  obtain ⟨other, hother, rfl⟩ := List.mem_map.1 hmem
  rw [List.map_singleton, List.mem_singleton] at hrow
  rw [hrow]
  exact hnew other hother

/-! ### Counting rows -/

/-- The rows with a property after an update: those before, less the selected ones that had it, and
the selected ones that have it now. -/
theorem countP_update (p : α → Bool) :
    (update sel set rows).countP p + rows.countP (fun row ↦ sel row && p row) =
      rows.countP p + rows.countP (fun row ↦ sel row && p (set row)) := by
  induction rows with
  | nil => rfl
  | cons row rows ih =>
    simp only [update, List.map_cons, List.countP_cons] at ih ⊢
    cases hs : sel row with
    | true =>
      simp only [if_true, Bool.true_and]
      omega
    | false =>
      simp only [Bool.false_eq_true, if_false, Bool.false_and]
      omega

/-- With distinct keys, a key that a row has selects that row only. -/
theorem countP_key [DecidableEq β] {key : α → β} (hnodup : (rows.map key).Nodup) {row : α}
    (hmem : row ∈ rows) (p : α → Bool) :
    rows.countP (fun other ↦ decide (key other = key row) && p other) = if p row then 1 else 0 := by
  induction rows with
  | nil => cases hmem
  | cons other rows ih =>
    rw [List.map_cons, List.nodup_cons] at hnodup
    rw [List.countP_cons]
    rcases List.mem_cons.1 hmem with rfl | hmem
    · have hzero : rows.countP (fun other ↦ decide (key other = key row) && p other) = 0 := by
        rw [List.countP_eq_zero]
        intro other hother
        have : key other ≠ key row := fun heq ↦ hnodup.1 (heq ▸ List.mem_map_of_mem hother)
        simp [this]
      simp [hzero]
    · have hne : key other ≠ key row := fun heq ↦ hnodup.1 (heq ▸ List.mem_map_of_mem hmem)
      simp [ih hnodup.2 hmem, hne]

/-- With distinct keys, exactly one row is a given one. -/
theorem countP_eq_one [DecidableEq β] {key : α → β} (hnodup : (rows.map key).Nodup) {row : α}
    (hmem : row ∈ rows) {p : α → Bool} (hp : ∀ other ∈ rows, p other = true ↔ other = row) :
    rows.countP p = 1 := by
  have hsame : ∀ other ∈ rows, p other = true ↔
      (decide (key other = key row) && p other) = true := by
    intro other hother
    rw [Bool.and_eq_true, decide_eq_true_eq]
    exact ⟨fun h ↦ ⟨congrArg key ((hp other hother).1 h), h⟩, fun h ↦ h.2⟩
  rw [List.countP_congr hsame, countP_key hnodup hmem, if_pos ((hp row hmem).2 rfl)]

/-- With distinct keys, rows with the same key are the same row. -/
theorem eq_of_key_eq {key : α → β} (hnodup : (rows.map key).Nodup) {row other : α}
    (hrow : row ∈ rows) (hother : other ∈ rows) (h : key row = key other) : row = other :=
  List.inj_on_of_nodup_map hnodup hrow hother h

/-- With distinct keys, an update that selects a single key replaces one row in its place. -/
theorem update_eq_append {key : α → β} (hnodup : (rows.map key).Nodup) {row : α}
    (hmem : row ∈ rows) (hsel : sel row = true)
    (honly : ∀ other ∈ rows, sel other = true → key other = key row) :
    ∃ before after, rows = before ++ row :: after ∧
      ∀ set, update sel set rows = before ++ set row :: after := by
  obtain ⟨before, after, rfl⟩ := List.append_of_mem hmem
  have hout : ∀ other ∈ before ++ after, sel other = false := by
    intro other hother
    rw [← Bool.not_eq_true]
    intro hselected
    have hkey : key row ∈ (before ++ after).map key :=
      honly other (by simp at hother ⊢; tauto) hselected ▸ List.mem_map_of_mem hother
    rw [List.map_append, List.map_cons, List.nodup_middle, ← List.map_append] at hnodup
    exact (List.nodup_cons.1 hnodup).1 hkey
  refine ⟨before, after, rfl, fun set ↦ ?_⟩
  unfold update
  rw [List.map_append, List.map_cons, if_pos hsel]
  have hbefore : update sel set before = before :=
    update_eq_self fun other h ↦ hout other (List.mem_append_left after h)
  have hafter : update sel set after = after :=
    update_eq_self fun other h ↦ hout other (List.mem_append_right before h)
  unfold update at hbefore hafter
  rw [hbefore, hafter]

/-! ### The first row of an order -/

/-- Whether the first key comes before the second, column by column. -/
def before : List ℤ → List ℤ → Bool
  | [], second => !second.isEmpty
  | _ :: _, [] => false
  | x :: first, y :: second => decide (x < y) || decide (x = y) && before first second

/-- `ORDER BY … LIMIT 1`: the first row, by its key. -/
def firstBy (key : α → List ℤ) : List α → Option α
  | [] => none
  | row :: rows =>
    match firstBy key rows with
    | none => some row
    | some other => if before (key other) (key row) then some other else some row

/-- A key between two others comes after the first or before the last. -/
theorem before_cotrans {first second : List ℤ} (h : before first second = true)
    (middle : List ℤ) : before first middle = true ∨ before middle second = true := by
  induction first generalizing second middle with
  | nil =>
    cases middle with
    | nil => exact .inr h
    | cons y middle => exact .inl rfl
  | cons x first ih =>
    cases second with
    | nil => cases h
    | cons z second =>
      cases middle with
      | nil => exact .inr rfl
      | cons y middle =>
        simp only [before, Bool.or_eq_true, Bool.and_eq_true, decide_eq_true_eq] at h ⊢
        rcases Int.lt_trichotomy x y with hlt | rfl | hgt
        · exact .inl (.inl hlt)
        · rcases h with hlt | ⟨rfl, h⟩
          · exact .inr (.inl hlt)
          · exact (ih h middle).imp (fun h ↦ .inr ⟨rfl, h⟩) fun h ↦ .inr ⟨rfl, h⟩
        · refine .inr (.inl ?_)
          omega

/-- No key comes before itself. -/
theorem before_self (key : List ℤ) : before key key = false := by
  induction key with
  | nil => rfl
  | cons x key ih => simp [before, ih]

/-- Of two keys at most one comes before the other. -/
theorem before_asymm {first second : List ℤ} (h : before first second = true) :
    before second first = false := by
  induction first generalizing second with
  | nil =>
    cases second with
    | nil => cases h
    | cons y second => rfl
  | cons x first ih =>
    cases second with
    | nil => cases h
    | cons y second =>
      simp only [before, Bool.or_eq_true, Bool.and_eq_true, decide_eq_true_eq] at h
      simp only [before, Bool.or_eq_false_iff, Bool.and_eq_false_imp, decide_eq_false_iff_not,
        decide_eq_true_eq]
      rcases h with hlt | ⟨rfl, h⟩
      · exact ⟨by omega, fun heq ↦ absurd heq (by omega)⟩
      · exact ⟨by omega, fun _ ↦ ih h⟩

theorem firstBy_mem {key : α → List ℤ} {row : α} (h : firstBy key rows = some row) :
    row ∈ rows := by
  induction rows generalizing row with
  | nil => cases h
  | cons head rows ih =>
    rw [firstBy] at h
    split at h
    · rw [Option.some.inj h]
      exact List.mem_cons_self
    · next other hother =>
      split_ifs at h with hbefore
      · rw [← Option.some.inj h]
        exact List.mem_cons_of_mem _ (ih hother)
      · rw [Option.some.inj h]
        exact List.mem_cons_self

/-- No row comes before the first. -/
theorem not_before_firstBy {key : α → List ℤ} {row : α} (h : firstBy key rows = some row) :
    ∀ other ∈ rows, before (key other) (key row) = false := by
  induction rows generalizing row with
  | nil => cases h
  | cons head rows ih =>
    rw [firstBy] at h
    split at h
    · next hnone =>
      obtain rfl := Option.some.inj h
      have hnil : rows = [] := by
        cases rows with
        | nil => rfl
        | cons row rows =>
          rw [firstBy] at hnone
          split at hnone
          · cases hnone
          · split_ifs at hnone
      intro other hother
      rw [hnil, List.mem_singleton] at hother
      rw [hother, before_self]
    · next first hfirst =>
      have ih := ih hfirst
      split_ifs at h with hbefore <;> obtain rfl := Option.some.inj h <;> intro other hother
      · rcases List.mem_cons.1 hother with rfl | hother
        · exact before_asymm hbefore
        · exact ih other hother
      · rcases List.mem_cons.1 hother with rfl | hother
        · exact before_self _
        · rw [← Bool.not_eq_true]
          intro hless
          rcases before_cotrans hless (key first) with hless' | hless'
          · rw [ih other hother] at hless'
            cases hless'
          · exact hbefore hless'

/-! ### Tables in step -/

/-- A row after an update is related to the one in its place. -/
theorem forall₂_update {R : α → α → Prop} (hR : ∀ row, R row row)
    (h : ∀ row ∈ rows, sel row = true → R row (set row)) :
    List.Forall₂ R rows (update sel set rows) := by
  refine List.forall₂_map_right_iff.2 (List.forall₂_same.2 fun row hmem ↦ ?_)
  by_cases hsel : sel row = true
  · rw [if_pos hsel]
    exact h row hmem hsel
  · rw [if_neg hsel]
    exact hR row

theorem forall₂_trans {R : α → α → Prop}
    (hR : ∀ {row₁ row₂ row₃}, R row₁ row₂ → R row₂ row₃ → R row₁ row₃) {rows₁ rows₂ rows₃ : List α}
    (h₁ : List.Forall₂ R rows₁ rows₂) (h₂ : List.Forall₂ R rows₂ rows₃) :
    List.Forall₂ R rows₁ rows₃ := by
  induction h₁ generalizing rows₃ with
  | nil => exact h₂
  | cons hrow _ ih =>
    cases h₂ with
    | cons hrow' hrows' => exact .cons (hR hrow hrow') (ih hrows')

/-- A row has one in its place after. -/
theorem exists_right_of_mem {R : α → β → Prop} {rows' : List β} (h : List.Forall₂ R rows rows')
    {row : α} (hmem : row ∈ rows) : ∃ row' ∈ rows', R row row' := by
  induction h with
  | nil => cases hmem
  | cons hrow _ ih =>
    rcases List.mem_cons.1 hmem with rfl | hmem
    · exact ⟨_, List.mem_cons_self, hrow⟩
    · obtain ⟨row', hmem', hR⟩ := ih hmem
      exact ⟨row', List.mem_cons_of_mem _ hmem', hR⟩

/-- A row has one in its place before. -/
theorem exists_left_of_mem {R : α → β → Prop} {rows' : List β} (h : List.Forall₂ R rows rows')
    {row' : β} (hmem : row' ∈ rows') : ∃ row ∈ rows, R row row' :=
  exists_right_of_mem h.flip hmem

/-! ### Tables that grow -/

/-- Every row stays in place, related to its new version, and rows may be appended. -/
def Grows (R : α → α → Prop) (rows rows' : List α) : Prop :=
  ∃ kept added, rows' = kept ++ added ∧ List.Forall₂ R rows kept

namespace Grows

variable {R : α → α → Prop} {rows₁ rows₂ rows₃ : List α}

theorem refl (hR : ∀ row, R row row) (rows : List α) : Grows R rows rows :=
  ⟨rows, [], (List.append_nil rows).symm, List.forall₂_same.2 fun row _ ↦ hR row⟩

theorem append (hR : ∀ row, R row row) (rows added : List α) : Grows R rows (rows ++ added) :=
  ⟨rows, added, rfl, List.forall₂_same.2 fun row _ ↦ hR row⟩

theorem update (hR : ∀ row, R row row) (h : ∀ row ∈ rows, sel row = true → R row (set row)) :
    Grows R rows (update sel set rows) := by
  exact ⟨Table.update sel set rows, [], (List.append_nil _).symm, forall₂_update hR h⟩

theorem trans (hR : ∀ {row₁ row₂ row₃}, R row₁ row₂ → R row₂ row₃ → R row₁ row₃)
    (h₁ : Grows R rows₁ rows₂) (h₂ : Grows R rows₂ rows₃) : Grows R rows₁ rows₃ := by
  obtain ⟨kept₁, added₁, rfl, hkept₁⟩ := h₁
  obtain ⟨kept₂, added₂, rfl, hkept₂⟩ := h₂
  have hlength := hkept₁.length_eq
  refine ⟨kept₂.take kept₁.length, kept₂.drop kept₁.length ++ added₂, ?_, ?_⟩
  · rw [← List.append_assoc, List.take_append_drop]
  · have htake := List.forall₂_take kept₁.length hkept₂
    rw [List.take_left] at htake
    clear hkept₂ hlength
    induction hkept₁ generalizing kept₂ with
    | nil => simp
    | cons hrow hrows ih =>
      cases kept₂ with
      | nil => cases htake
      | cons row kept₂ =>
        simp only [List.length_cons, List.take_succ_cons] at htake ⊢
        cases htake with
        | cons hhead htail => exact .cons (hR hrow hhead) (ih kept₂ htail)

theorem mono {S : α → α → Prop} (hRS : ∀ {row row'}, R row row' → S row row')
    (h : Grows R rows₁ rows₂) : Grows S rows₁ rows₂ := by
  obtain ⟨kept, added, heq, hkept⟩ := h
  exact ⟨kept, added, heq, hkept.imp fun _ _ ↦ hRS⟩

/-- A row of the table has a new version. -/
theorem exists_of_mem (h : Grows R rows₁ rows₂) {row : α} (hmem : row ∈ rows₁) :
    ∃ row' ∈ rows₂, R row row' := by
  obtain ⟨kept, added, rfl, hkept⟩ := h
  obtain ⟨row', hmem', hR⟩ := exists_right_of_mem hkept hmem
  exact ⟨row', List.mem_append_left _ hmem', hR⟩

end Grows

end WebLens.Lib.Table
