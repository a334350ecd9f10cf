import Mathlib.Data.List.Forall2
import Mathlib.Data.List.Nodup
import Mathlib.Data.List.Perm.Subperm
import Mathlib.Algebra.Order.Ring.Nat

/-!
# Gathering names in an order that may vary

Names come in groups and are gathered in a list: a name is stored unless its key is stored already
or the list has reached its limit, and a group counts when it makes the list longer. `added` are the
names that some groups add to a list, group by group, so that the list and the count after them are
`stored ++ added.flatten` and `added.length` more (`visitAll_eq`).

`Tree` says in which orders groups may come: some steps happen one after the other, some in any
order. `Tree.Steady` is the condition under which the order makes no difference. Where steps may
come in any order, the names that one of them would add are, group by group, the first names that
any other would add, and each of the steps is itself steady, at the start and after any one of the
others.

* `added_take` — after some of the names that groups would add they add the rest.
* `Tree.Steady.visitAll_eq` — in a steady tree every order gives the same list and count.
* `Tree.steady_of_orderFree` — a tree whose orders all give the same is steady.
-/

set_option autoImplicit false
set_option relaxedAutoImplicit false

namespace WebLens.Lib.Gather

variable {α κ : Type} [DecidableEq κ] (key : α → κ) (limit : ℕ)

/-! ### Storing names -/

/-- Stores a name, unless its key is stored already or the limit is reached. -/
def store (stored : List α) (name : α) : List α :=
  if limit ≤ stored.length ∨ key name ∈ stored.map key then stored else stored ++ [name]

/-- Stores names one after the other. -/
def storeAll (stored names : List α) : List α :=
  names.foldl (store key limit) stored

/-- A name that changes nothing when it is stored. -/
def Idle (stored : List α) (name : α) : Prop :=
  limit ≤ stored.length ∨ key name ∈ stored.map key

variable {key limit}

theorem store_of_idle {stored : List α} {name : α} (h : Idle key limit stored name) :
    store key limit stored name = stored :=
  if_pos h

theorem store_of_not_idle {stored : List α} {name : α} (h : ¬ Idle key limit stored name) :
    store key limit stored name = stored ++ [name] :=
  if_neg h

omit [DecidableEq κ] in
theorem Idle.mono {stored longer : List α} {name : α} (h : Idle key limit stored name)
    (hlonger : stored <+: longer) : Idle key limit longer name := by
  rcases h with hfull | hmem
  · exact .inl (le_trans hfull hlonger.length_le)
  · exact .inr ((hlonger.map key).subset hmem)

theorem isPrefix_store (stored : List α) (name : α) :
    stored <+: store key limit stored name := by
  unfold store
  split
  · exact List.prefix_refl _
  · exact List.prefix_append _ _

theorem idle_store (stored : List α) (name : α) :
    Idle key limit (store key limit stored name) name := by
  by_cases h : Idle key limit stored name
  · rw [store_of_idle h]
    exact h
  · rw [store_of_not_idle h]
    right
    rw [List.map_append]
    exact List.mem_append_right _ List.mem_cons_self

theorem storeAll_append (stored first second : List α) :
    storeAll key limit stored (first ++ second) =
      storeAll key limit (storeAll key limit stored first) second :=
  List.foldl_append

theorem isPrefix_storeAll (stored names : List α) :
    stored <+: storeAll key limit stored names := by
  induction names generalizing stored with
  | nil => exact List.prefix_refl _
  | cons name names ih => exact (isPrefix_store stored name).trans (ih _)

/-- Names that were stored change nothing later. -/
theorem storeAll_of_isPrefix {stored later : List α} (names : List α)
    (h : storeAll key limit stored names <+: later) :
    storeAll key limit later names = later := by
  induction names generalizing stored with
  | nil => rfl
  | cons name names ih =>
    have hlater : store key limit later name = later :=
      store_of_idle ((idle_store stored name).mono ((isPrefix_storeAll _ names).trans h))
    show storeAll key limit (store key limit later name) names = later
    rw [hlater]
    exact ih h

/-- A list between another and what some names make of it becomes the same. -/
theorem storeAll_of_between {stored between : List α} (names : List α)
    (hlow : stored <+: between) (hhigh : between <+: storeAll key limit stored names) :
    storeAll key limit between names = storeAll key limit stored names := by
  induction names generalizing stored between with
  | nil => exact (hhigh.eq_of_length (le_antisymm hhigh.length_le hlow.length_le))
  | cons name names ih =>
    show storeAll key limit (store key limit between name) names =
      storeAll key limit (store key limit stored name) names
    by_cases hidle : Idle key limit stored name
    · rw [store_of_idle hidle, store_of_idle (hidle.mono hlow)]
      apply ih hlow
      have hhigh' : between <+: storeAll key limit (store key limit stored name) names := hhigh
      rwa [store_of_idle hidle] at hhigh'
    · have hstore := store_of_not_idle hidle
      have hsame : stored = between ∨ store key limit stored name <+: between := by
        obtain ⟨rest, rfl⟩ := hlow
        cases rest with
        | nil =>
          left
          rw [List.append_nil]
        | cons first rest =>
          right
          have hstart : stored ++ [name] <+: storeAll key limit stored (name :: names) := by
            rw [← hstore]
            exact isPrefix_storeAll _ names
          have hfirst : stored ++ [first] <+: storeAll key limit stored (name :: names) :=
            List.IsPrefix.trans ⟨rest, by rw [List.append_assoc, List.singleton_append]⟩ hhigh
          have heq : stored ++ [name] = stored ++ [first] := by
            apply (List.prefix_of_prefix_length_le hstart hfirst (le_of_eq _)).eq_of_length
            · rw [List.length_append, List.length_append]
              rfl
            · rw [List.length_append, List.length_append]
              rfl
          rw [hstore, heq]
          exact ⟨rest, by rw [List.append_assoc, List.singleton_append]⟩
      rcases hsame with rfl | hafter
      · rfl
      · rw [store_of_idle ((idle_store stored name).mono hafter)]
        exact ih hafter hhigh

/-- The keys of the names that are stored are distinct among themselves and new. -/
theorem exists_storeAll_eq (key : α → κ) (limit : ℕ) (stored names : List α) : ∃ new : List α,
    storeAll key limit stored names = stored ++ new ∧ (new.map key).Nodup ∧
      (∀ name ∈ new, name ∈ names ∧ key name ∉ stored.map key) := by
  induction names generalizing stored with
  | nil => exact ⟨[], (List.append_nil _).symm, List.nodup_nil, fun _ h ↦
      absurd h List.not_mem_nil⟩
  | cons name names ih =>
    obtain ⟨new, hnew, hnodup, hmem⟩ := ih (store key limit stored name)
    by_cases hidle : Idle key limit stored name
    · rw [store_of_idle hidle] at hnew hmem
      refine ⟨new, ?_, hnodup, fun other hother ↦ ?_⟩
      · show storeAll key limit (store key limit stored name) names = _
        rw [store_of_idle hidle, hnew]
      · exact ⟨List.mem_cons_of_mem _ (hmem other hother).1, (hmem other hother).2⟩
    · have hstore := store_of_not_idle hidle
      rw [hstore] at hnew hmem
      refine ⟨name :: new, ?_, ?_, ?_⟩
      · show storeAll key limit (store key limit stored name) names = _
        rw [hstore, hnew, List.append_assoc, List.singleton_append]
      · rw [List.map_cons, List.nodup_cons]
        refine ⟨fun hkey ↦ ?_, hnodup⟩
        obtain ⟨other, hother, hsame⟩ := List.mem_map.1 hkey
        apply (hmem other hother).2
        rw [hsame, List.map_append]
        exact List.mem_append_right _ List.mem_cons_self
      · intro other hother
        rcases List.mem_cons.1 hother with rfl | hrest
        · exact ⟨List.mem_cons_self, fun hkey ↦ hidle (.inr hkey)⟩
        · refine ⟨List.mem_cons_of_mem _ (hmem other hrest).1, fun hkey ↦ ?_⟩
          apply (hmem other hrest).2
          rw [List.map_append]
          exact List.mem_append_left _ hkey

/-- After some names none of them changes anything. -/
theorem idle_of_mem {stored names : List α} {name : α} (h : name ∈ names) :
    Idle key limit (storeAll key limit stored names) name := by
  induction names generalizing stored with
  | nil => exact absurd h List.not_mem_nil
  | cons first names ih =>
    rcases List.mem_cons.1 h with rfl | hrest
    · exact (idle_store stored name).mono (isPrefix_storeAll _ names)
    · exact ih hrest

theorem storeAll_of_idle {stored names : List α}
    (h : ∀ name ∈ names, Idle key limit stored name) :
    storeAll key limit stored names = stored := by
  induction names with
  | nil => rfl
  | cons name names ih =>
    show storeAll key limit (store key limit stored name) names = stored
    rw [store_of_idle (h name List.mem_cons_self)]
    exact ih fun other hother ↦ h other (List.mem_cons_of_mem _ hother)

theorem length_storeAll_le_max (stored names : List α) :
    (storeAll key limit stored names).length ≤ max limit stored.length := by
  induction names generalizing stored with
  | nil => exact le_max_right _ _
  | cons name names ih =>
    apply le_trans (ih (store key limit stored name))
    by_cases hidle : Idle key limit stored name
    · rw [store_of_idle hidle]
    · rw [store_of_not_idle hidle, List.length_append, List.length_singleton]
      have hroom : stored.length < limit := not_le.1 fun hfull ↦ hidle (.inl hfull)
      omega

/-- Names all of whose keys others have make a list no longer than the others do. -/
theorem length_storeAll_le {first second : List α} (stored : List α)
    (hsub : first ⊆ second) :
    (storeAll key limit stored first).length ≤ (storeAll key limit stored second).length := by
  by_cases hfull : limit ≤ (storeAll key limit stored second).length
  · have hmax : (storeAll key limit stored first).length ≤ max limit stored.length :=
      length_storeAll_le_max stored first
    have hlow : stored <+: storeAll key limit stored second := isPrefix_storeAll stored second
    have hlength := hlow.length_le
    omega
  · obtain ⟨new, hnew, hnodup, hmem⟩ := exists_storeAll_eq key limit stored first
    obtain ⟨other, hother⟩ : stored <+: storeAll key limit stored second :=
      isPrefix_storeAll stored second
    have hkeys : new.map key ⊆ other.map key := by
      intro k hk
      obtain ⟨name, hname, rfl⟩ := List.mem_map.1 hk
      have hidle : Idle key limit (storeAll key limit stored second) name :=
        idle_of_mem (hsub (hmem name hname).1)
      rcases hidle with hlimit | hstored
      · exact absurd hlimit hfull
      · rw [← hother, List.map_append] at hstored
        exact (List.mem_append.1 hstored).resolve_left (hmem name hname).2
    have hlength := (hnodup.subperm hkeys).length_le
    rw [List.length_map, List.length_map] at hlength
    rw [hnew, ← hother, List.length_append, List.length_append]
    omega

theorem length_storeAll_of_perm {first second : List α} (stored : List α)
    (h : first.Perm second) :
    (storeAll key limit stored first).length = (storeAll key limit stored second).length :=
  le_antisymm (length_storeAll_le stored h.subset) (length_storeAll_le stored h.symm.subset)

/-! ### Groups of names -/

variable (key limit)

/-- Stores a group of names and counts it when the list has grown. -/
def visit (state : List α × ℕ) (group : List α) : List α × ℕ :=
  let after := storeAll key limit state.1 group
  (after, if state.1.length < after.length then state.2 + 1 else state.2)

def visitAll (state : List α × ℕ) (groups : List (List α)) : List α × ℕ :=
  groups.foldl (visit key limit) state

/-- The names that groups add to a list, group by group, without the groups that add none. -/
def added (stored : List α) : List (List α) → List (List α)
  | [] => []
  | group :: groups =>
    let after := storeAll key limit stored group
    if after.length = stored.length then added after groups
    else after.drop stored.length :: added after groups

variable {key limit}

theorem visitAll_append (state : List α × ℕ) (first second : List (List α)) :
    visitAll key limit state (first ++ second) =
      visitAll key limit (visitAll key limit state first) second :=
  List.foldl_append

theorem append_drop_storeAll (stored names : List α) :
    stored ++ (storeAll key limit stored names).drop stored.length =
      storeAll key limit stored names := by
  obtain ⟨new, hnew⟩ : stored <+: storeAll key limit stored names := isPrefix_storeAll stored names
  rw [← hnew, List.drop_left]

/-- A group that adds no names leaves the list alone. -/
theorem storeAll_eq_self {stored names : List α}
    (h : (storeAll key limit stored names).length = stored.length) :
    storeAll key limit stored names = stored :=
  ((isPrefix_storeAll stored names).eq_of_length h.symm).symm

/-- The list and the count after some groups. -/
theorem visitAll_eq (stored : List α) (count : ℕ) (groups : List (List α)) :
    visitAll key limit (stored, count) groups =
      (stored ++ (added key limit stored groups).flatten,
        count + (added key limit stored groups).length) := by
  induction groups generalizing stored count with
  | nil =>
    show (stored, count) = _
    rw [added, List.flatten_nil, List.append_nil, List.length_nil, Nat.add_zero]
  | cons group groups ih =>
    have hstored : stored <+: storeAll key limit stored group := isPrefix_storeAll stored group
    have hlow := hstored.length_le
    show visitAll key limit (visit key limit (stored, count) group) groups = _
    have hvisit : visit key limit (stored, count) group =
        (storeAll key limit stored group,
          if stored.length < (storeAll key limit stored group).length then count + 1
          else count) := rfl
    rw [hvisit, added]
    by_cases hsame : (storeAll key limit stored group).length = stored.length
    · rw [if_neg (by omega), if_pos hsame, storeAll_eq_self hsame, ih]
    · rw [if_pos (by omega), if_neg hsame, ih, List.flatten_cons, ← List.append_assoc,
        append_drop_storeAll, List.length_cons, Nat.add_assoc, Nat.add_comm 1]

theorem append_flatten_added (stored : List α) (groups : List (List α)) :
    stored ++ (added key limit stored groups).flatten =
      storeAll key limit stored groups.flatten := by
  induction groups generalizing stored with
  | nil =>
    rw [added, List.flatten_nil, List.append_nil]
    rfl
  | cons group groups ih =>
    rw [added, List.flatten_cons, storeAll_append, ← ih]
    by_cases hsame : (storeAll key limit stored group).length = stored.length
    · rw [if_pos hsame, storeAll_eq_self hsame]
    · rw [if_neg hsame, List.flatten_cons, ← List.append_assoc, append_drop_storeAll]

theorem ne_nil_of_mem_added {stored group : List α} {groups : List (List α)}
    (h : group ∈ added key limit stored groups) : group ≠ [] := by
  induction groups generalizing stored with
  | nil => exact absurd h List.not_mem_nil
  | cons first groups ih =>
    have hstored : stored <+: storeAll key limit stored first := isPrefix_storeAll stored first
    have hlow := hstored.length_le
    rw [added] at h
    by_cases hsame : (storeAll key limit stored first).length = stored.length
    · rw [if_pos hsame] at h
      exact ih h
    · rw [if_neg hsame] at h
      rcases List.mem_cons.1 h with rfl | hrest
      · intro hnil
        rw [List.drop_eq_nil_iff] at hnil
        omega
      · exact ih hrest

/-- Groups whose names were stored add none. -/
theorem added_eq_nil {stored : List α} {groups : List (List α)}
    (h : ∀ name ∈ groups.flatten, Idle key limit stored name) :
    added key limit stored groups = [] := by
  have hself : stored ++ (added key limit stored groups).flatten = stored := by
    rw [append_flatten_added, storeAll_of_idle h]
  rw [List.append_right_eq_self, List.flatten_eq_nil_iff] at hself
  by_contra hne
  obtain ⟨group, hgroup⟩ := List.exists_mem_of_ne_nil _ hne
  exact ne_nil_of_mem_added hgroup (hself group hgroup)

/-! ### Some of the names come first -/

/-- Some groups without their first names, and without the groups that are left empty. -/
def dropNames : ℕ → List (List α) → List (List α)
  | _, [] => []
  | count, group :: groups =>
    if group.length ≤ count then dropNames (count - group.length) groups
    else group.drop count :: groups

theorem flatten_dropNames (count : ℕ) (groups : List (List α)) :
    (dropNames count groups).flatten = groups.flatten.drop count := by
  induction groups generalizing count with
  | nil => rw [dropNames, List.flatten_nil, List.drop_nil]
  | cons group groups ih =>
    rw [dropNames, List.flatten_cons, List.drop_append]
    by_cases hle : group.length ≤ count
    · rw [if_pos hle, ih, List.drop_eq_nil_of_le hle, List.nil_append]
    · rw [if_neg hle, List.flatten_cons, Nat.sub_eq_zero_of_le (le_of_not_ge hle), List.drop_zero]

theorem dropNames_length_flatten (groups : List (List α)) :
    dropNames groups.flatten.length groups = [] := by
  induction groups with
  | nil => rfl
  | cons group groups ih =>
    rw [dropNames, List.flatten_cons, List.length_append, if_pos (Nat.le_add_right _ _),
      Nat.add_sub_cancel_left, ih]

theorem dropNames_zero {groups : List (List α)} (h : ∀ group ∈ groups, group ≠ []) :
    dropNames 0 groups = groups := by
  cases groups with
  | nil => rfl
  | cons group groups =>
    have hpos := List.length_pos_iff.2 (h group List.mem_cons_self)
    rw [dropNames, if_neg (by omega), List.drop_zero]

/-- After the first of the names that groups would add they add the rest. -/
theorem added_take (stored : List α) (groups : List (List α)) (count : ℕ) :
    added key limit (stored ++ (added key limit stored groups).flatten.take count) groups =
      dropNames count (added key limit stored groups) := by
  induction groups generalizing stored count with
  | nil => rfl
  | cons group groups ih =>
    set after := storeAll key limit stored group with hafter
    have hlow : stored <+: after := isPrefix_storeAll stored group
    have hcons : added key limit stored (group :: groups) =
        if after.length = stored.length then added key limit after groups
        else after.drop stored.length :: added key limit after groups := rfl
    by_cases hsame : after.length = stored.length
    · have hself : after = stored := storeAll_eq_self hsame
      rw [hcons, if_pos hsame]
      have hidle : storeAll key limit (stored ++ (added key limit after groups).flatten.take count)
          group = stored ++ (added key limit after groups).flatten.take count := by
        have hafter' : storeAll key limit stored group <+:
            stored ++ (added key limit after groups).flatten.take count := by
          rw [← hafter, hself]
          exact List.prefix_append _ _
        exact storeAll_of_isPrefix group hafter'
      rw [added, if_pos (by rw [hidle]), hidle, hself]
      exact ih stored count
    · rw [hcons, if_neg hsame, List.flatten_cons]
      set new := after.drop stored.length with hnew
      have hsplit : after = stored ++ new := (append_drop_storeAll stored group).symm
      rw [dropNames]
      by_cases hle : new.length ≤ count
      · rw [if_pos hle, List.take_append, List.take_of_length_le hle, ← List.append_assoc, ← hsplit]
        have hidle : storeAll key limit
            (after ++ (added key limit after groups).flatten.take (count - new.length)) group =
              after ++ (added key limit after groups).flatten.take (count - new.length) := by
          have hafter' : storeAll key limit stored group <+:
              after ++ (added key limit after groups).flatten.take (count - new.length) :=
            List.prefix_append _ _
          exact storeAll_of_isPrefix group hafter'
        rw [added, if_pos (by rw [hidle]), hidle]
        exact ih after (count - new.length)
      · rw [if_neg hle, List.take_append_of_le_length (le_of_not_ge hle)]
        have hbetween : storeAll key limit (stored ++ new.take count) group = after := by
          apply storeAll_of_between group (List.prefix_append _ _)
          rw [← hafter, hsplit]
          exact List.prefix_append_right_inj _ |>.2 (List.take_prefix _ _)
        rw [added, hbetween, if_neg]
        · congr 1
          rw [hsplit, List.length_append, List.drop_length_add_append, List.length_take,
            Nat.min_eq_left (le_of_not_ge hle)]
        · rw [hsplit, List.length_append, List.length_append, List.length_take]
          omega

/-! ### Two results side by side -/

/-- The names of the first groups are the first names of the second, and the second have as many
groups within them. -/
def Precedes (first second : List (List α)) : Prop :=
  first.flatten <+: second.flatten ∧
    first.length + (dropNames first.flatten.length second).length = second.length

theorem Precedes.refl (groups : List (List α)) : Precedes groups groups := by
  refine ⟨List.prefix_refl _, ?_⟩
  rw [dropNames_length_flatten]
  rfl

theorem Precedes.length_eq {first second : List (List α)} (h : Precedes first second)
    (hsame : first.flatten = second.flatten) : first.length = second.length := by
  have hlength := h.2
  rw [hsame, dropNames_length_flatten] at hlength
  exact hlength

/-- Groups whose names are stored already leave list and count alone. -/
theorem visitAll_of_isPrefix {stored later : List α} {groups : List (List α)} (count : ℕ)
    (h : storeAll key limit stored groups.flatten <+: later) :
    visitAll key limit (later, count) groups = (later, count) := by
  have hidle : ∀ name ∈ groups.flatten, Idle key limit later name :=
    fun name hname ↦
      (show Idle key limit (storeAll key limit stored groups.flatten) name from
        idle_of_mem hname).mono h
  rw [visitAll_eq, added_eq_nil hidle]
  simp only [List.flatten_nil, List.append_nil, List.length_nil, Nat.add_zero]

/-- When the names of some groups precede those of others, the others make of the result of the
first what they make of the start. -/
theorem visitAll_of_precedes {stored : List α} {first second : List (List α)} (count : ℕ)
    (h : Precedes (added key limit stored first) (added key limit stored second)) :
    visitAll key limit (visitAll key limit (stored, count) first) second =
      visitAll key limit (stored, count) second := by
  obtain ⟨hstart, hlength⟩ := h
  have htake : (added key limit stored first).flatten =
      (added key limit stored second).flatten.take
        (added key limit stored first).flatten.length :=
    List.prefix_iff_eq_take.1 hstart
  rw [visitAll_eq stored count first, visitAll_eq _ _ second, visitAll_eq stored count second]
  rw [htake, added_take, flatten_dropNames, List.append_assoc, List.take_append_drop,
    Nat.add_assoc, ← hlength]

/-- After two steps whose names precede one another the result is that of one of them. -/
theorem visitAll_pair {stored : List α} {first second : List (List α)} (count : ℕ)
    (h : Precedes (added key limit stored first) (added key limit stored second) ∨
      Precedes (added key limit stored second) (added key limit stored first)) :
    (visitAll key limit (visitAll key limit (stored, count) first) second =
        visitAll key limit (stored, count) second ∧
      (visitAll key limit (stored, count) first).1 <+:
        (visitAll key limit (stored, count) second).1) ∨
    (visitAll key limit (visitAll key limit (stored, count) first) second =
        visitAll key limit (stored, count) first ∧
      (visitAll key limit (stored, count) second).1 <+:
        (visitAll key limit (stored, count) first).1) := by
  have hlists : ∀ groups other : List (List α),
      (added key limit stored groups).flatten <+: (added key limit stored other).flatten →
      (visitAll key limit (stored, count) groups).1 <+:
        (visitAll key limit (stored, count) other).1 := by
    intro groups other hstart
    rw [visitAll_eq, visitAll_eq]
    exact (List.prefix_append_right_inj _).2 hstart
  rcases h with hbefore | hafter
  · exact .inl ⟨visitAll_of_precedes count hbefore, hlists _ _ hbefore.1⟩
  · right
    have hstart := hlists _ _ hafter.1
    refine ⟨?_, hstart⟩
    rw [visitAll_eq stored count first, visitAll_eq stored count second] at hstart
    rw [visitAll_eq stored count first]
    have hlow : storeAll key limit stored second.flatten <+:
        stored ++ (added key limit stored first).flatten := by
      rw [← append_flatten_added]
      exact hstart
    exact visitAll_of_isPrefix _ hlow

/-- What two lists of groups with the same names do to a state is the same when it is the same
after some more groups. -/
theorem visitAll_cancel {stored : List α} {count : ℕ} {first second rest : List (List α)}
    (hperm : first.flatten.Perm second.flatten)
    (h : visitAll key limit (stored, count) (first ++ rest) =
      visitAll key limit (stored, count) (second ++ rest)) :
    visitAll key limit (stored, count) first = visitAll key limit (stored, count) second := by
  have hlength : (storeAll key limit stored first.flatten).length =
      (storeAll key limit stored second.flatten).length := length_storeAll_of_perm stored hperm
  rw [visitAll_append, visitAll_append, visitAll_eq stored count first,
    visitAll_eq stored count second] at h
  rw [visitAll_eq stored count first, visitAll_eq stored count second]
  rw [append_flatten_added, append_flatten_added] at h ⊢
  rw [visitAll_eq, visitAll_eq, Prod.mk.injEq] at h
  obtain ⟨hlist, hcount⟩ := h
  have hsame : storeAll key limit stored first.flatten =
      storeAll key limit stored second.flatten := by
    have hfirst : storeAll key limit stored first.flatten <+:
        storeAll key limit stored second.flatten ++
          (added key limit (storeAll key limit stored second.flatten) rest).flatten :=
      hlist ▸ List.prefix_append _ _
    exact (List.prefix_of_prefix_length_le hfirst (List.prefix_append _ _)
      hlength.le).eq_of_length hlength
  rw [hsame] at hcount ⊢
  rw [Nat.add_right_cancel hcount]

/-- Whether two lists of groups do the same to a list does not depend on the count. -/
theorem visitAll_congr {stored : List α} {count other : ℕ} {first second : List (List α)}
    (h : visitAll key limit (stored, count) first = visitAll key limit (stored, count) second) :
    visitAll key limit (stored, other) first = visitAll key limit (stored, other) second := by
  rw [visitAll_eq, visitAll_eq, Prod.mk.injEq] at h ⊢
  exact ⟨h.1, by rw [Nat.add_left_cancel h.2]⟩

/-! ### Orders of steps -/

/-- Groups that come one after the other or in any order. -/
inductive Tree (α : Type)
  | leaf (group : List α)
  | steps (children : List (Tree α))
  | choices (children : List (Tree α))

namespace Tree

mutual

/-- The groups in the order in which they are listed. -/
def listed : Tree α → List (List α)
  | .leaf group => [group]
  | .steps children => listedAll children
  | .choices children => listedAll children

def listedAll : List (Tree α) → List (List α)
  | [] => []
  | child :: children => child.listed ++ listedAll children

end

mutual

/-- The groups of the tree come in this order. -/
def IsOrder : Tree α → List (List α) → Prop
  | .leaf group, groups => groups = [group]
  | .steps children, groups => ∃ orders, AreOrders children orders ∧ groups = orders.flatten
  | .choices children, groups =>
    ∃ orders order, AreOrders children orders ∧ orders.Perm order ∧ groups = order.flatten

/-- The groups of each child come in this order. -/
def AreOrders : List (Tree α) → List (List (List α)) → Prop
  | [], orders => orders = []
  | child :: children, orders =>
    ∃ first rest, child.IsOrder first ∧ AreOrders children rest ∧ orders = first :: rest

end

variable (key limit)

mutual

/-- The order of the groups makes no difference to a list with these names. -/
def Steady : Tree α → List α → Prop
  | .leaf _, _ => True
  | .steps children, stored => SteadySteps children stored
  | .choices children, stored =>
    SteadyAll children stored ∧
    (∀ child ∈ children, SteadyAll children (storeAll key limit stored child.listed.flatten)) ∧
    ∀ first ∈ children, ∀ second ∈ children,
      Precedes (added key limit stored first.listed) (added key limit stored second.listed) ∨
      Precedes (added key limit stored second.listed) (added key limit stored first.listed)

/-- Each child is steady when its turn comes. -/
def SteadySteps : List (Tree α) → List α → Prop
  | [], _ => True
  | child :: children, stored =>
    Steady child stored ∧
      SteadySteps children (storeAll key limit stored child.listed.flatten)

/-- Each child is steady at the start. -/
def SteadyAll : List (Tree α) → List α → Prop
  | [], _ => True
  | child :: children, stored => Steady child stored ∧ SteadyAll children stored

end

variable {key limit}

theorem areOrders_iff {children : List (Tree α)} {orders : List (List (List α))} :
    AreOrders children orders ↔ List.Forall₂ IsOrder children orders := by
  induction children generalizing orders with
  | nil =>
    rw [AreOrders, List.forall₂_nil_left_iff]
  | cons child children ih =>
    rw [AreOrders, List.forall₂_cons_left_iff]
    constructor
    · rintro ⟨first, rest, hfirst, hrest, rfl⟩
      exact ⟨first, rest, hfirst, ih.1 hrest, rfl⟩
    · rintro ⟨first, rest, hfirst, hrest, rfl⟩
      exact ⟨first, rest, hfirst, ih.2 hrest, rfl⟩

theorem exists_child_of_mem {children : List (Tree α)} {orders : List (List (List α))}
    (h : AreOrders children orders) {order : List (List α)} (hmem : order ∈ orders) :
    ∃ child ∈ children, child.IsOrder order := by
  induction children generalizing orders with
  | nil =>
    rw [h] at hmem
    exact absurd hmem List.not_mem_nil
  | cons child children ih =>
    obtain ⟨first, rest, hfirst, hrest, rfl⟩ := h
    rcases List.mem_cons.1 hmem with rfl | hmem
    · exact ⟨child, List.mem_cons_self, hfirst⟩
    · obtain ⟨other, hother, horder⟩ := ih hrest hmem
      exact ⟨other, List.mem_cons_of_mem _ hother, horder⟩

theorem exists_order_of_mem {children : List (Tree α)} {orders : List (List (List α))}
    (h : AreOrders children orders) {child : Tree α} (hmem : child ∈ children) :
    ∃ order ∈ orders, child.IsOrder order := by
  induction children generalizing orders with
  | nil => exact absurd hmem List.not_mem_nil
  | cons first children ih =>
    obtain ⟨order, rest, horder, hrest, rfl⟩ := h
    rcases List.mem_cons.1 hmem with rfl | hmem
    · exact ⟨order, List.mem_cons_self, horder⟩
    · obtain ⟨other, hother, hisOrder⟩ := ih hrest hmem
      exact ⟨other, List.mem_cons_of_mem _ hother, hisOrder⟩

theorem listedAll_eq (children : List (Tree α)) :
    listedAll children = (children.map listed).flatten := by
  induction children with
  | nil => rfl
  | cons child children ih => rw [listedAll, List.map_cons, List.flatten_cons, ih]

mutual

theorem isOrder_listed : ∀ tree : Tree α, tree.IsOrder tree.listed
  | .leaf _ => rfl
  | .steps children => ⟨_, areOrders_listed children, listedAll_eq children⟩
  | .choices children =>
    ⟨_, _, areOrders_listed children, List.Perm.refl _, listedAll_eq children⟩

theorem areOrders_listed : ∀ children : List (Tree α),
    AreOrders children (children.map listed)
  | [] => rfl
  | child :: children => ⟨_, _, isOrder_listed child, areOrders_listed children, rfl⟩

end

mutual

/-- Every order has the names of the listed one. -/
theorem perm_of_isOrder : ∀ (tree : Tree α) {groups : List (List α)}, tree.IsOrder groups →
    groups.flatten.Perm tree.listed.flatten
  | .leaf _, _, h => by rw [h, listed]
  | .steps children, _, ⟨_, horders, heq⟩ => by
    rw [heq, listed]
    exact perm_of_areOrders children horders
  | .choices children, _, ⟨_, _, horders, hperm, heq⟩ => by
    rw [heq, listed]
    exact hperm.flatten.symm.flatten.trans (perm_of_areOrders children horders)

theorem perm_of_areOrders : ∀ (children : List (Tree α)) {orders : List (List (List α))},
    AreOrders children orders → orders.flatten.flatten.Perm (listedAll children).flatten
  | [], _, h => by
    rw [h]
    rfl
  | child :: children, _, ⟨first, rest, hfirst, hrest, heq⟩ => by
    rw [heq, listedAll, List.flatten_cons, List.flatten_append, List.flatten_append]
    exact (perm_of_isOrder child hfirst).append (perm_of_areOrders children hrest)

end

/-- The children of a choice may be taken in any order. -/
theorem isOrder_choices {children others : List (Tree α)} {orders : List (List (List α))}
    (hperm : children.Perm others) (horders : AreOrders others orders) :
    (choices children).IsOrder orders.flatten := by
  obtain ⟨listedOrders, hlisted, hsame⟩ :=
    List.perm_comp_forall₂ hperm (areOrders_iff.1 horders)
  exact ⟨listedOrders, orders, areOrders_iff.2 hlisted, hsame, rfl⟩

/-! ### Steady trees -/

section Sufficient

variable {children : List (Tree α)} {stored : List α} {count : ℕ}

/-- Some children whose order makes no difference, at the start and after any one of them, and
whose names precede one another. -/
structure Agree (key : α → κ) (limit : ℕ) (children : List (Tree α)) (stored : List α)
    (count : ℕ) : Prop where
  start : ∀ child ∈ children, ∀ groups, child.IsOrder groups →
    visitAll key limit (stored, count) groups = visitAll key limit (stored, count) child.listed
  after : ∀ other ∈ children, ∀ child ∈ children, ∀ groups, child.IsOrder groups →
    visitAll key limit (visitAll key limit (stored, count) other.listed) groups =
      visitAll key limit (visitAll key limit (stored, count) other.listed) child.listed
  precede : ∀ first ∈ children, ∀ second ∈ children,
    Precedes (added key limit stored first.listed) (added key limit stored second.listed) ∨
    Precedes (added key limit stored second.listed) (added key limit stored first.listed)

/-- From the result of one child, more of them lead to the result of one of them, which has the
names of all. -/
theorem Agree.visitAll_flatten (h : Agree key limit children stored count)
    (orders : List (List (List α)))
    (horders : ∀ order ∈ orders, ∃ child ∈ children, child.IsOrder order)
    {first : Tree α} (hfirst : first ∈ children) :
    ∃ last ∈ children,
      visitAll key limit (visitAll key limit (stored, count) first.listed) orders.flatten =
        visitAll key limit (stored, count) last.listed ∧
      (visitAll key limit (stored, count) first.listed).1 <+:
        (visitAll key limit (stored, count) last.listed).1 ∧
      ∀ order ∈ orders, (visitAll key limit (stored, count) order).1 <+:
        (visitAll key limit (stored, count) last.listed).1 := by
  induction orders generalizing first with
  | nil => exact ⟨first, hfirst, rfl, List.prefix_refl _, fun _ hnone ↦
      absurd hnone List.not_mem_nil⟩
  | cons order orders ih =>
    obtain ⟨child, hchild, horder⟩ := horders order List.mem_cons_self
    have hrest := fun other hother ↦ horders other (List.mem_cons_of_mem _ hother)
    have hstart := h.start child hchild order horder
    have hstep := h.after first hfirst child hchild order horder
    rcases visitAll_pair count (h.precede first hfirst child hchild) with
      ⟨hpair, hbefore⟩ | ⟨hpair, hbefore⟩
    · obtain ⟨last, hlast, hresult, hlow, hall⟩ := ih hrest hchild
      refine ⟨last, hlast, ?_, hbefore.trans hlow, ?_⟩
      · rw [List.flatten_cons, visitAll_append, hstep, hpair, hresult]
      · intro other hother
        rcases List.mem_cons.1 hother with rfl | hmem
        · rw [hstart]
          exact hlow
        · exact hall other hmem
    · obtain ⟨last, hlast, hresult, hlow, hall⟩ := ih hrest hfirst
      refine ⟨last, hlast, ?_, hlow, ?_⟩
      · rw [List.flatten_cons, visitAll_append, hstep, hpair, hresult]
      · intro other hother
        rcases List.mem_cons.1 hother with rfl | hmem
        · rw [hstart]
          exact hbefore.trans hlow
        · exact hall other hmem

/-- All children, in some order, lead to the result of one of them, which has the names of all. -/
theorem Agree.exists_last (h : Agree key limit children stored count)
    {orders : List (List (List α))} (hne : orders ≠ [])
    (horders : ∀ order ∈ orders, ∃ child ∈ children, child.IsOrder order) :
    ∃ last ∈ children,
      visitAll key limit (stored, count) orders.flatten =
        visitAll key limit (stored, count) last.listed ∧
      ∀ order ∈ orders, (visitAll key limit (stored, count) order).1 <+:
        (visitAll key limit (stored, count) last.listed).1 := by
  obtain ⟨order, orders, rfl⟩ := List.exists_cons_of_ne_nil hne
  obtain ⟨child, hchild, horder⟩ := horders order List.mem_cons_self
  have hstart := h.start child hchild order horder
  obtain ⟨last, hlast, hresult, hlow, hall⟩ := h.visitAll_flatten orders
    (fun other hother ↦ horders other (List.mem_cons_of_mem _ hother)) hchild
  refine ⟨last, hlast, ?_, ?_⟩
  · rw [List.flatten_cons, visitAll_append, hstart, hresult]
  · intro other hother
    rcases List.mem_cons.1 hother with rfl | hmem
    · rw [hstart]
      exact hlow
    · exact hall other hmem

/-- Children that agree give the same in every order. -/
theorem Agree.visitAll_eq (h : Agree key limit children stored count)
    {orders order : List (List (List α))} (horders : AreOrders children orders)
    (hperm : orders.Perm order) :
    visitAll key limit (stored, count) order.flatten =
      visitAll key limit (stored, count) (listedAll children) := by
  rw [listedAll_eq]
  by_cases hempty : children = []
  · subst hempty
    rw [horders] at hperm
    rw [hperm.symm.eq_nil]
    rfl
  have hof : ∀ other ∈ order, ∃ child ∈ children, child.IsOrder other :=
    fun other hother ↦ exists_child_of_mem horders (hperm.mem_iff.2 hother)
  have hlistedOf : ∀ other ∈ children.map listed, ∃ child ∈ children, child.IsOrder other := by
    intro other hother
    obtain ⟨child, hchild, rfl⟩ := List.mem_map.1 hother
    exact ⟨child, hchild, isOrder_listed child⟩
  have hne : order ≠ [] := by
    rintro rfl
    rw [hperm.eq_nil, areOrders_iff, List.forall₂_nil_right_iff] at horders
    exact hempty horders
  obtain ⟨last, hlast, hresult, hall⟩ := h.exists_last hne hof
  obtain ⟨other, hother, hotherResult, hotherAll⟩ := h.exists_last
    (fun hnil ↦ hempty (List.map_eq_nil_iff.1 hnil)) hlistedOf
  rw [hresult, hotherResult]
  have hlow : (visitAll key limit (stored, count) last.listed).1 <+:
      (visitAll key limit (stored, count) other.listed).1 :=
    hotherAll _ (List.mem_map_of_mem hlast)
  have hhigh : (visitAll key limit (stored, count) other.listed).1 <+:
      (visitAll key limit (stored, count) last.listed).1 := by
    obtain ⟨found, hfound, hisOrder⟩ := exists_order_of_mem horders hother
    rw [← h.start other hother found hisOrder]
    exact hall found (hperm.mem_iff.1 hfound)
  have hlists := hlow.eq_of_length (le_antisymm hlow.length_le hhigh.length_le)
  rw [Gather.visitAll_eq, Gather.visitAll_eq] at hlists ⊢
  have hflatten := List.append_cancel_left hlists
  have hcounts : (added key limit stored last.listed).length =
      (added key limit stored other.listed).length := by
    rcases h.precede last hlast other hother with hbefore | hafter
    · exact hbefore.length_eq hflatten
    · exact (hafter.length_eq hflatten.symm).symm
  rw [hflatten, hcounts]

end Sufficient

mutual

/-- In a steady tree every order gives the same. -/
theorem Steady.visitAll_eq : ∀ (tree : Tree α) {stored : List α},
    tree.Steady key limit stored → ∀ (count : ℕ) {groups : List (List α)}, tree.IsOrder groups →
    visitAll key limit (stored, count) groups = visitAll key limit (stored, count) tree.listed
  | .leaf _, _, _, _, _, h => by rw [h, listed]
  | .steps children, _, hsteady, count, _, ⟨_, horders, heq⟩ => by
    rw [heq, listed]
    exact SteadySteps.visitAll_eq children hsteady count horders
  | .choices children, stored, ⟨hstart, hafter, hprecede⟩, count, _,
      ⟨_, _, horders, hperm, heq⟩ => by
    rw [heq, listed]
    have hagree : Agree key limit children stored count := by
      refine ⟨fun child hchild groups hgroups ↦
        SteadyAll.visitAll_eq children hstart child hchild count hgroups, ?_, hprecede⟩
      intro other hother child hchild groups hgroups
      have hother' := SteadyAll.visitAll_eq children (hafter other hother) child hchild
        (count + (added key limit stored other.listed).length) hgroups
      rw [Gather.visitAll_eq stored count, append_flatten_added]
      exact hother'
    exact hagree.visitAll_eq horders hperm

theorem SteadySteps.visitAll_eq : ∀ (children : List (Tree α)) {stored : List α},
    SteadySteps key limit children stored → ∀ (count : ℕ) {orders : List (List (List α))},
    AreOrders children orders →
    visitAll key limit (stored, count) orders.flatten =
      visitAll key limit (stored, count) (listedAll children)
  | [], _, _, _, _, h => by
    rw [h]
    rfl
  | child :: children, stored, ⟨hchild, hchildren⟩, count, _,
      ⟨first, rest, hfirst, hrest, heq⟩ => by
    rw [heq, listedAll, List.flatten_cons, visitAll_append, visitAll_append,
      Steady.visitAll_eq child hchild count hfirst, Gather.visitAll_eq stored count,
      append_flatten_added]
    exact SteadySteps.visitAll_eq children hchildren _ hrest

theorem SteadyAll.visitAll_eq : ∀ (children : List (Tree α)) {stored : List α},
    SteadyAll key limit children stored → ∀ child ∈ children, ∀ (count : ℕ)
    {groups : List (List α)}, child.IsOrder groups →
    visitAll key limit (stored, count) groups = visitAll key limit (stored, count) child.listed
  | first :: children, _, ⟨hfirst, hchildren⟩, child, hchild, count, _, hgroups => by
    rcases List.mem_cons.1 hchild with heq | hmem
    · rw [heq] at hgroups ⊢
      exact Steady.visitAll_eq first hfirst count hgroups
    · exact SteadyAll.visitAll_eq children hchildren child hmem count hgroups

end

/-! ### Trees whose orders all give the same -/

variable (key limit)

/-- All orders of the groups do the same to a list with these names. -/
def OrderFree (tree : Tree α) (stored : List α) : Prop :=
  ∀ first second, tree.IsOrder first → tree.IsOrder second →
    visitAll key limit (stored, 0) first = visitAll key limit (stored, 0) second

variable {key limit}

section Necessary

variable {children : List (Tree α)} {stored : List α}

/-- Some of the children come first in some order. -/
theorem isOrder_append {firsts rest : List (Tree α)} {orders : List (List (List α))}
    (hperm : children.Perm (firsts ++ rest)) (horders : AreOrders firsts orders) :
    (choices children).IsOrder (orders.flatten ++ listedAll rest) := by
  have hall : AreOrders (firsts ++ rest) (orders ++ rest.map listed) :=
    areOrders_iff.2 (List.rel_append (areOrders_iff.1 horders)
      (areOrders_iff.1 (areOrders_listed rest)))
  have horder := isOrder_choices hperm hall
  rwa [List.flatten_append, ← listedAll_eq] at horder

theorem areOrders_singleton {child : Tree α} {groups : List (List α)}
    (h : child.IsOrder groups) : AreOrders [child] [groups] :=
  ⟨_, _, h, rfl, rfl⟩

theorem areOrders_pair {first second : Tree α} {groups others : List (List α)}
    (hfirst : first.IsOrder groups) (hsecond : second.IsOrder others) :
    AreOrders [first, second] [groups, others] :=
  ⟨_, _, hfirst, areOrders_singleton hsecond, rfl⟩

theorem exists_perm_of_mem {child : Tree α} (h : child ∈ children) :
    ∃ rest, children.Perm ([child] ++ rest) := by
  obtain ⟨before, behind, rfl⟩ := List.append_of_mem h
  exact ⟨before ++ behind, List.perm_middle⟩

theorem exists_perm_of_mem_of_ne {first second : Tree α} (hfirst : first ∈ children)
    (hsecond : second ∈ children) (hne : first ≠ second) :
    ∃ rest, children.Perm ([first, second] ++ rest) := by
  obtain ⟨rest, hperm⟩ := exists_perm_of_mem hfirst
  have hmem : second ∈ rest := by
    have hin := hperm.mem_iff.1 hsecond
    rcases List.mem_append.1 hin with hsame | hrest
    · exact absurd (List.mem_singleton.1 hsame).symm hne
    · exact hrest
  obtain ⟨others, hothers⟩ := exists_perm_of_mem hmem
  exact ⟨others, hperm.trans (hothers.cons first)⟩

/-- Each child of an order-free choice is order-free at the start. -/
theorem OrderFree.child (h : (choices children).OrderFree key limit stored) {child : Tree α}
    (hchild : child ∈ children) : child.OrderFree key limit stored := by
  intro first second hfirst hsecond
  obtain ⟨rest, hperm⟩ := exists_perm_of_mem hchild
  have hsame := h _ _ (isOrder_append hperm (areOrders_singleton hfirst))
    (isOrder_append hperm (areOrders_singleton hsecond))
  rw [List.flatten_singleton, List.flatten_singleton] at hsame
  exact visitAll_cancel ((perm_of_isOrder child hfirst).trans
    (perm_of_isOrder child hsecond).symm) hsame

/-- Each child of an order-free choice is order-free after any other. -/
theorem OrderFree.child_after (h : (choices children).OrderFree key limit stored)
    {other child : Tree α} (hother : other ∈ children) (hchild : child ∈ children) :
    child.OrderFree key limit (storeAll key limit stored other.listed.flatten) := by
  intro first second hfirst hsecond
  by_cases hne : other = child
  · subst hne
    have hidle : ∀ groups, other.IsOrder groups →
        visitAll key limit (storeAll key limit stored other.listed.flatten, 0) groups =
          (storeAll key limit stored other.listed.flatten, 0) := by
      intro groups hgroups
      have hnames : ∀ name ∈ groups.flatten,
          Idle key limit (storeAll key limit stored other.listed.flatten) name :=
        fun name hname ↦ idle_of_mem ((perm_of_isOrder other hgroups).mem_iff.1 hname)
      rw [Gather.visitAll_eq, added_eq_nil hnames, List.flatten_nil, List.append_nil,
        List.length_nil]
    rw [hidle first hfirst, hidle second hsecond]
  · obtain ⟨rest, hperm⟩ := exists_perm_of_mem_of_ne hother hchild hne
    have hsame := h _ _
      (isOrder_append hperm (areOrders_pair (isOrder_listed other) hfirst))
      (isOrder_append hperm (areOrders_pair (isOrder_listed other) hsecond))
    simp only [List.flatten_cons, List.flatten_nil, List.append_nil, List.append_assoc] at hsame
    rw [visitAll_append _ other.listed, visitAll_append _ other.listed,
      Gather.visitAll_eq stored 0 other.listed, append_flatten_added] at hsame
    exact visitAll_congr (visitAll_cancel ((perm_of_isOrder child hfirst).trans
      (perm_of_isOrder child hsecond).symm) hsame)

/-- The names of the children of an order-free choice precede one another. -/
theorem OrderFree.precede (h : (choices children).OrderFree key limit stored)
    {first second : Tree α} (hfirst : first ∈ children) (hsecond : second ∈ children) :
    Precedes (added key limit stored first.listed) (added key limit stored second.listed) ∨
      Precedes (added key limit stored second.listed) (added key limit stored first.listed) := by
  by_cases hne : first = second
  · subst hne
    exact .inl (Precedes.refl _)
  obtain ⟨rest, hperm⟩ := exists_perm_of_mem_of_ne hfirst hsecond hne
  have hsame := h _ _
    (isOrder_append hperm (areOrders_pair (isOrder_listed first) (isOrder_listed second)))
    (isOrder_append (show children.Perm ([second, first] ++ rest) from
        hperm.trans (List.Perm.swap second first rest))
      (areOrders_pair (isOrder_listed second) (isOrder_listed first)))
  simp only [List.flatten_cons, List.flatten_nil, List.append_nil] at hsame
  have hnames : (first.listed ++ second.listed).flatten.Perm
      (second.listed ++ first.listed).flatten := by
    rw [List.flatten_append, List.flatten_append]
    exact List.perm_append_comm
  have hpair := visitAll_cancel hnames hsame
  rw [visitAll_append, visitAll_append] at hpair
  have hcase : ∀ low high : Tree α,
      visitAll key limit (visitAll key limit (stored, 0) low.listed) high.listed =
        visitAll key limit (visitAll key limit (stored, 0) high.listed) low.listed →
      (visitAll key limit (stored, 0) low.listed).1 <+:
        (visitAll key limit (stored, 0) high.listed).1 →
      Precedes (added key limit stored low.listed) (added key limit stored high.listed) := by
    intro low high hboth hstart
    have hlow : storeAll key limit stored low.listed.flatten <+:
        stored ++ (added key limit stored high.listed).flatten := by
      rw [Gather.visitAll_eq stored 0 low.listed, Gather.visitAll_eq stored 0 high.listed] at hstart
      rw [← append_flatten_added]
      exact hstart
    have hflatten : (added key limit stored low.listed).flatten <+:
        (added key limit stored high.listed).flatten := by
      rw [← append_flatten_added] at hlow
      exact (List.prefix_append_right_inj _).1 hlow
    refine ⟨hflatten, ?_⟩
    rw [Gather.visitAll_eq stored 0 low.listed, Gather.visitAll_eq stored 0 high.listed,
      visitAll_of_isPrefix _ hlow, Gather.visitAll_eq _ _ high.listed] at hboth
    have hcount := congrArg Prod.snd hboth
    rw [List.prefix_iff_eq_take.1 hflatten, added_take] at hcount
    simpa only [Nat.zero_add] using hcount
  have hlow : (visitAll key limit (stored, 0) first.listed).1 <+:
      (visitAll key limit (visitAll key limit (stored, 0) first.listed) second.listed).1 := by
    rw [Gather.visitAll_eq stored 0 first.listed, Gather.visitAll_eq]
    exact List.prefix_append _ _
  have hother : (visitAll key limit (stored, 0) second.listed).1 <+:
      (visitAll key limit (visitAll key limit (stored, 0) first.listed) second.listed).1 := by
    rw [hpair, Gather.visitAll_eq stored 0 second.listed, Gather.visitAll_eq]
    exact List.prefix_append _ _
  rcases le_total (visitAll key limit (stored, 0) first.listed).1.length
    (visitAll key limit (stored, 0) second.listed).1.length with hle | hle
  · exact .inl (hcase first second hpair (List.prefix_of_prefix_length_le hlow hother hle))
  · exact .inr (hcase second first hpair.symm (List.prefix_of_prefix_length_le hother hlow hle))

end Necessary

mutual

/-- A tree whose orders all give the same is steady. -/
theorem steady_of_orderFree : ∀ (tree : Tree α) {stored : List α},
    tree.OrderFree key limit stored → tree.Steady key limit stored
  | .leaf _, _, _ => trivial
  | .steps children, _, h =>
    steadySteps_of_orderFree children fun _ _ hfirst hsecond ↦
      h _ _ ⟨_, hfirst, rfl⟩ ⟨_, hsecond, rfl⟩
  | .choices children, _, h =>
    ⟨steadyAll_of_orderFree children fun _ hchild ↦ h.child hchild,
      fun _ hother ↦ steadyAll_of_orderFree children fun _ hchild ↦ h.child_after hother hchild,
      fun _ hfirst _ hsecond ↦ h.precede hfirst hsecond⟩

theorem steadySteps_of_orderFree : ∀ (children : List (Tree α)) {stored : List α},
    (∀ first second, AreOrders children first → AreOrders children second →
      visitAll key limit (stored, 0) first.flatten =
        visitAll key limit (stored, 0) second.flatten) →
    SteadySteps key limit children stored
  | [], _, _ => trivial
  | child :: children, stored, h => by
    constructor
    · apply steady_of_orderFree child
      intro first second hfirst hsecond
      have hsame := h _ _ ⟨first, _, hfirst, areOrders_listed children, rfl⟩
        ⟨second, _, hsecond, areOrders_listed children, rfl⟩
      rw [List.flatten_cons, List.flatten_cons] at hsame
      exact visitAll_cancel ((perm_of_isOrder child hfirst).trans
        (perm_of_isOrder child hsecond).symm) hsame
    · apply steadySteps_of_orderFree children
      intro first second hfirst hsecond
      have hsame := h _ _ ⟨_, first, isOrder_listed child, hfirst, rfl⟩
        ⟨_, second, isOrder_listed child, hsecond, rfl⟩
      rw [List.flatten_cons, List.flatten_cons, visitAll_append, visitAll_append,
        Gather.visitAll_eq stored 0, append_flatten_added] at hsame
      exact visitAll_congr hsame

theorem steadyAll_of_orderFree : ∀ (children : List (Tree α)) {stored : List α},
    (∀ child ∈ children, child.OrderFree key limit stored) → SteadyAll key limit children stored
  | [], _, _ => trivial
  | child :: children, _, h =>
    ⟨steady_of_orderFree child (h child List.mem_cons_self),
      steadyAll_of_orderFree children fun other hother ↦
        h other (List.mem_cons_of_mem _ hother)⟩

end

/-- A tree is steady exactly when its orders all give the same. -/
theorem steady_iff (tree : Tree α) (stored : List α) :
    tree.Steady key limit stored ↔ tree.OrderFree key limit stored := by
  constructor
  · intro h first second hfirst hsecond
    rw [Steady.visitAll_eq tree h 0 hfirst, Steady.visitAll_eq tree h 0 hsecond]
  · exact steady_of_orderFree tree

end Tree

end WebLens.Lib.Gather
