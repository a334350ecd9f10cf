import Mathlib.Data.List.Perm.Subperm
import WebLens.Lib.Table

/-!
# Partial unique indexes

Rows have a key of their own, and an index gives some of them a value. Under a unique index two
rows with the same value have the same key, so with distinct keys no value is given twice. A row
may be added whose value no row has, and a row may be replaced by one that keeps its value or gives
it up. Keys that are drawn from a counter are distinct.
-/

set_option autoImplicit false
set_option relaxedAutoImplicit false

namespace WebLens.Lib.Table

variable {α κ β : Type*} {rows : List α} {key : α → κ} {index : α → Option β}

/-! ### Replacing a row -/

/-- `UPDATE … WHERE key = …` with every column of the row. -/
def replace [DecidableEq κ] (key : α → κ) (next : α) (rows : List α) : List α :=
  update (fun other ↦ decide (key other = key next)) (fun _ ↦ next) rows

section Replace

variable [DecidableEq κ] {next : α}

theorem mem_replace {other : α} (h : other ∈ replace key next rows) :
    other = next ∨ other ∈ rows ∧ key other ≠ key next := by
  obtain ⟨row, hmem, rfl⟩ := List.mem_map.1 h
  by_cases hkey : key row = key next
  · rw [if_pos (decide_eq_true hkey)]
    exact .inl rfl
  · rw [if_neg (by rwa [decide_eq_true_eq])]
    exact .inr ⟨hmem, hkey⟩

theorem mem_replace_self {row : α} (hmem : row ∈ rows) (hkey : key row = key next) :
    next ∈ replace key next rows :=
  List.mem_map.2 ⟨row, hmem, if_pos (decide_eq_true hkey)⟩

theorem mem_replace_of_ne {row : α} (hmem : row ∈ rows) (hkey : key row ≠ key next) :
    row ∈ replace key next rows :=
  List.mem_map.2 ⟨row, hmem, if_neg (by rwa [decide_eq_true_eq])⟩

@[simp]
theorem map_replace_key : (replace key next rows).map key = rows.map key :=
  map_update key fun _ _ hsel ↦ (of_decide_eq_true hsel).symm

/-- A relation that a row has to its replacement holds row by row. -/
theorem grows_replace {R : α → α → Prop} (hR : ∀ row, R row row) {row : α}
    (hnodup : (rows.map key).Nodup) (hmem : row ∈ rows) (hkey : key row = key next)
    (h : R row next) : Grows R rows (replace key next rows) := by
  refine Grows.update hR fun other hother hsel ↦ ?_
  rwa [eq_of_key_eq hnodup hother hmem ((of_decide_eq_true hsel).trans hkey.symm)]

/-- A replacement that has a property only if the row had it keeps the number of rows with it. -/
theorem countP_replace_le {p : α → Bool} {row : α} (hnodup : (rows.map key).Nodup)
    (hmem : row ∈ rows) (hkey : key row = key next) (h : p next = true → p row = true) :
    (replace key next rows).countP p ≤ rows.countP p := by
  unfold replace update
  rw [List.countP_map]
  refine List.countP_mono_left fun other hother hp ↦ ?_
  rw [Function.comp_apply] at hp
  split_ifs at hp with hsel
  · rw [eq_of_key_eq hnodup hother hmem ((of_decide_eq_true hsel).trans hkey.symm)]
    exact h hp
  · exact hp

end Replace

/-! ### Keys from a counter -/

/-- The keys are distinct and were all drawn from a counter. -/
def Serial (key : α → ℕ) (next : ℕ) (rows : List α) : Prop :=
  (rows.map key).Nodup ∧ ∀ drawn ∈ rows.map key, drawn < next

namespace Serial

variable {key : α → ℕ} {next next' : ℕ}

theorem nil : Serial key next [] :=
  ⟨List.nodup_nil, fun _ h ↦ absurd h List.not_mem_nil⟩

theorem mono (h : Serial key next rows) (hle : next ≤ next') : Serial key next' rows :=
  ⟨h.1, fun drawn hdrawn ↦ Nat.lt_of_lt_of_le (h.2 drawn hdrawn) hle⟩

theorem lt (h : Serial key next rows) {row : α} (hmem : row ∈ rows) : key row < next :=
  h.2 _ (List.mem_map_of_mem hmem)

theorem of_map_eq (h : Serial key next rows) {rows' : List α} (heq : rows'.map key = rows.map key) :
    Serial key next rows' := by
  unfold Serial
  rwa [heq]

theorem concat (h : Serial key next rows) {row : α} (hge : next ≤ key row) (hlt : key row < next') :
    Serial key next' (rows ++ [row]) := by
  refine ⟨nodup_map_concat h.1 fun other hother ↦ ?_, fun drawn hdrawn ↦ ?_⟩
  · exact Nat.ne_of_lt (Nat.lt_of_lt_of_le (h.lt hother) hge)
  · rw [List.map_append, List.mem_append, List.map_singleton, List.mem_singleton] at hdrawn
    rcases hdrawn with hdrawn | rfl
    · exact Nat.lt_trans (h.2 drawn hdrawn) (Nat.lt_of_le_of_lt hge hlt)
    · exact hlt

end Serial

/-! ### Unique indexes -/

/-- Rows with the same value have the same key. -/
def UniqueWhere (key : α → κ) (index : α → Option β) (rows : List α) : Prop :=
  ∀ row ∈ rows, ∀ other ∈ rows, index row ≠ none → index row = index other → key row = key other

namespace UniqueWhere

theorem nil : UniqueWhere key index [] :=
  fun _ h ↦ absurd h List.not_mem_nil

theorem concat (h : UniqueWhere key index rows) {row : α}
    (hnew : ∀ value, index row = some value → ∀ other ∈ rows, index other ≠ some value) :
    UniqueWhere key index (rows ++ [row]) := by
  intro first hfirst second hsecond hvalue heq
  obtain ⟨value, hfirstValue⟩ := Option.ne_none_iff_exists'.1 hvalue
  have hsecondValue := heq.symm.trans hfirstValue
  rw [List.mem_append, List.mem_singleton] at hfirst hsecond
  rcases hfirst with hfirst | rfl
  · rcases hsecond with hsecond | rfl
    · exact h first hfirst second hsecond hvalue heq
    · exact absurd hfirstValue (hnew value hsecondValue first hfirst)
  · rcases hsecond with hsecond | rfl
    · exact absurd hsecondValue (hnew value hfirstValue second hsecond)
    · rfl

/-- An update after which every row has its old value, or none. -/
theorem update {sel : α → Bool} {set : α → α} (h : UniqueWhere key index rows)
    (hset : ∀ row ∈ rows, sel row = true → key (set row) = key row ∧
      (index (set row) = none ∨ index (set row) = index row)) :
    UniqueWhere key index (Table.update sel set rows) := by
  have hold : ∀ row' ∈ Table.update sel set rows, ∃ row ∈ rows, key row' = key row ∧
      (index row' = none ∨ index row' = index row) := by
    intro row' hrow'
    obtain ⟨row, hmem, rfl⟩ := mem_update.1 hrow'
    split_ifs with hsel
    · exact ⟨row, hmem, hset row hmem hsel⟩
    · exact ⟨row, hmem, rfl, .inr rfl⟩
  intro first hfirst second hsecond hvalue heq
  obtain ⟨row, hrow, hkey, hindex⟩ := hold first hfirst
  obtain ⟨other, hother, hkey', hindex'⟩ := hold second hsecond
  have hindex := hindex.resolve_left hvalue
  have hindex' := hindex'.resolve_left (heq ▸ hvalue)
  rw [hkey, hkey']
  exact h row hrow other hother (hindex ▸ hvalue) (hindex.symm.trans (heq.trans hindex'))

theorem replace [DecidableEq κ] (h : UniqueWhere key index rows) (hnodup : (rows.map key).Nodup)
    {row next : α} (hmem : row ∈ rows) (hkey : key row = key next)
    (hindex : index next = none ∨ index next = index row) :
    UniqueWhere key index (Table.replace key next rows) := by
  refine h.update fun other hother hsel ↦ ?_
  rw [eq_of_key_eq hnodup hother hmem ((of_decide_eq_true hsel).trans hkey.symm)]
  exact ⟨hkey.symm, hindex⟩

/-- With distinct keys, at most one row has a value. -/
theorem countP_le_one [DecidableEq β] (h : UniqueWhere key index rows)
    (hnodup : (rows.map key).Nodup) (value : β) :
    rows.countP (fun row ↦ decide (index row = some value)) ≤ 1 := by
  rw [List.countP_eq_length_filter]
  have hsame : ∀ row ∈ rows.filter fun row ↦ decide (index row = some value),
      ∀ other ∈ rows.filter fun row ↦ decide (index row = some value), row = other := by
    intro row hrow other hother
    rw [List.mem_filter, decide_eq_true_eq] at hrow hother
    refine eq_of_key_eq hnodup hrow.1 hother.1 (h row hrow.1 other hother.1 ?_ ?_)
    · rw [hrow.2]
      exact Option.some_ne_none _
    · rw [hrow.2, hother.2]
  cases hlist : rows.filter fun row ↦ decide (index row = some value) with
  | nil => exact Nat.zero_le 1
  | cons row rest =>
    have hfilter : (row :: rest).Nodup := hlist ▸ (List.Nodup.of_map key hnodup).filter _
    rw [hlist] at hsame
    have hsub : (row :: rest) ⊆ [row] := fun other hother ↦
      List.mem_singleton.2 (hsame other hother row List.mem_cons_self)
    exact (hfilter.subperm hsub).length_le

end UniqueWhere

end WebLens.Lib.Table
