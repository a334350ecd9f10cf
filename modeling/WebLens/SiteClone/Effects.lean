import WebLens.SiteClone.System

/-!
# What each statement does

The statements of the site clone database change clones one by one and leave their identifiers as
they are. `Moves R s s'` says that every clone of `s` is related by `R` to the clone that stands in
its place in `s'`, and that the keys of the tables stay distinct; a transaction moves the database
as its statements do, one after the other.
-/

set_option autoImplicit false
set_option relaxedAutoImplicit false

namespace WebLens.SiteClone

open Lib Lib.Utf8 Lib.Transaction
open Capture (Uuid Instant Duration)

variable {s s' s₁ s₂ : Store} {now : Instant} {id : Uuid}

/-! ### Keys -/

/-- The keys of the tables are distinct, and the identifiers that are still to come are new. -/
structure Store.Keyed (s : Store) : Prop where
  ids : (s.clones.map fun c ↦ c.job.id).Nodup
  pages : ∀ c ∈ s.clones, (c.pages.map SitePage.pageId).Nodup
  artifacts : ∀ c ∈ s.clones, (c.artifacts.map SiteArtifact.id).Nodup
  artifacts_lt : ∀ c ∈ s.clones, ∀ row ∈ c.artifacts, row.id < s.nextUuid
  events_lt : ∀ c ∈ s.clones, ∀ event ∈ c.events, event.messageId < s.nextUuid
  events : ∀ c ∈ s.clones, ∀ d ∈ s.clones, ∀ event ∈ c.events, ∀ other ∈ d.events,
    event.messageId = other.messageId → event = other

theorem Store.Keyed.empty : Store.Keyed {} where
  ids := List.nodup_nil
  pages := by simp
  artifacts := by simp
  artifacts_lt := by simp
  events_lt := by simp
  events := by simp

/-- A clone is the only one with its identifier. -/
theorem Store.Keyed.eq (hkeyed : s.Keyed) {c d : Clone} (hc : c ∈ s.clones) (hd : d ∈ s.clones)
    (hid : c.job.id = d.job.id) : c = d :=
  Table.eq_of_key_eq hkeyed.ids hc hd hid

/-- The columns that are keys are the same. -/
structure Clone.SameKeys (c c' : Clone) : Prop where
  id : c'.job.id = c.job.id
  pages : c'.pages.map SitePage.pageId = c.pages.map SitePage.pageId
  artifacts : c'.artifacts.map SiteArtifact.id = c.artifacts.map SiteArtifact.id
  events : c'.events = c.events

theorem Clone.SameKeys.refl (c : Clone) : c.SameKeys c :=
  ⟨rfl, rfl, rfl, rfl⟩

theorem Clone.SameKeys.trans {c c' c'' : Clone} (h : c.SameKeys c') (h' : c'.SameKeys c'') :
    c.SameKeys c'' where
  id := h'.id.trans h.id
  pages := h'.pages.trans h.pages
  artifacts := h'.artifacts.trans h.artifacts
  events := h'.events.trans h.events

/-- A change of the job only keeps the keys. -/
theorem Clone.SameKeys.ofJob {c : Clone} {job : SiteJob} (h : job.id = c.job.id) :
    c.SameKeys { c with job := job } :=
  ⟨h, rfl, rfl, rfl⟩

theorem Clone.SameKeys.updatePages {c : Clone} {sel : SitePage → Bool} {set : SitePage → SitePage}
    (h : ∀ page, (set page).pageId = page.pageId) : c.SameKeys (c.updatePages sel set) :=
  ⟨rfl, Table.map_update _ fun page _ _ ↦ h page, rfl, rfl⟩

theorem Clone.SameKeys.updateArtifacts {c : Clone} {sel : SiteArtifact → Bool}
    {set : SiteArtifact → SiteArtifact} (h : ∀ row, (set row).id = row.id) :
    c.SameKeys (c.updateArtifacts sel set) :=
  ⟨rfl, rfl, Table.map_update _ fun row _ _ ↦ h row, rfl⟩

/-! ### Moves -/

/-- Every clone is related to the one in its place, and the keys stay distinct. -/
structure Store.Moves (R : Clone → Clone → Prop) (s s' : Store) : Prop where
  clones : List.Forall₂ R s.clones s'.clones
  keyed : s.Keyed → s'.Keyed

/-- Nothing changed but the inbox and the identifiers that are given away. -/
theorem Store.Moves.refl (R : Clone → Clone → Prop) (hR : ∀ c, R c c) (s : Store) :
    s.Moves R s where
  clones := List.forall₂_same.2 fun c _ ↦ hR c
  keyed := fun h ↦ h

/-- Of two moves the second starts at the clones that the first has led to. -/
theorem Store.Moves.trans {R S : Clone → Clone → Prop} (h₁ : s.Moves R s₁) (h₂ : s₁.Moves S s₂) :
    s.Moves (fun c c' ↦ ∃ d ∈ s₁.clones, R c d ∧ S d c') s₂ where
  clones := by
    obtain ⟨hR, -⟩ := h₁
    obtain ⟨hS, -⟩ := h₂
    generalize s.clones = clones at hR ⊢
    generalize s₁.clones = clones₁ at hR hS ⊢
    generalize s₂.clones = clones₂ at hS ⊢
    induction hR generalizing clones₂ with
    | nil =>
      cases hS
      exact .nil
    | @cons c d clones clones₁ hrow _ ih =>
      cases hS with
      | cons hrow' hrows' =>
        refine .cons ⟨d, List.mem_cons_self, hrow, hrow'⟩ ((ih _ hrows').imp ?_)
        rintro c c' ⟨d', hd', hR, hS⟩
        exact ⟨d', List.mem_cons_of_mem _ hd', hR, hS⟩
  keyed := fun h ↦ h₂.keyed (h₁.keyed h)

/-- What a move says of a clone may use that the clone is one of the database. -/
theorem Store.Moves.mono {R S : Clone → Clone → Prop} (h : s.Moves R s')
    (hRS : ∀ c ∈ s.clones, ∀ c', R c c' → S c c') : s.Moves S s' where
  clones := by
    obtain ⟨hR, -⟩ := h
    generalize s.clones = clones at hR hRS
    generalize s'.clones = clones' at hR
    induction hR with
    | nil => exact .nil
    | cons hrow _ ih =>
      exact .cons (hRS _ List.mem_cons_self _ hrow)
        (ih fun c hc ↦ hRS c (List.mem_cons_of_mem _ hc))
  keyed := h.keyed

/-- What a move leads to is a clone of the database. -/
theorem Store.Moves.exists_mem {R : Clone → Clone → Prop} (h : s.Moves R s') :
    s.Moves (fun c c' ↦ c' ∈ s'.clones ∧ R c c') s' where
  clones := by
    obtain ⟨hR, -⟩ := h
    generalize s.clones = clones at hR
    generalize s'.clones = clones' at hR
    induction hR with
    | nil => exact .nil
    | cons hrow _ ih =>
      refine .cons ⟨List.mem_cons_self, hrow⟩ (ih.imp ?_)
      exact fun c c' h ↦ ⟨List.mem_cons_of_mem _ h.1, h.2⟩
  keyed := h.keyed

/-- A clone after a move stands in the place of one before it. -/
theorem Store.Moves.exists_of_mem {R : Clone → Clone → Prop} (h : s.Moves R s') {c' : Clone}
    (hmem : c' ∈ s'.clones) : ∃ c ∈ s.clones, R c c' :=
  Table.exists_left_of_mem h.clones hmem

/-- Every clone before a move has one in its place after it. -/
theorem Store.Moves.exists_of_mem_left {R : Clone → Clone → Prop} (h : s.Moves R s') {c : Clone}
    (hmem : c ∈ s.clones) : ∃ c' ∈ s'.clones, R c c' :=
  Table.exists_right_of_mem h.clones hmem

/-- Clones in their places with the same identifiers have distinct ones if the others have. -/
theorem ids_eq {clones clones' : List Clone}
    (h : List.Forall₂ (fun c c' : Clone ↦ c'.job.id = c.job.id) clones clones') :
    (clones'.map fun c ↦ c.job.id) = clones.map fun c ↦ c.job.id := by
  induction h with
  | nil => rfl
  | cons hrow _ ih => rw [List.map_cons, List.map_cons, hrow, ih]

/-! ### Statements -/

@[simp]
theorem returns_newUuid {messageId : Uuid} :
    Returns newUuid s messageId s' ↔
      messageId = s.nextUuid ∧ s' = { s with nextUuid := s.nextUuid + 1 } := by
  simp only [newUuid, returns_modifyGet, Prod.mk.injEq]
  exact and_congr eq_comm eq_comm

@[simp]
theorem returns_updateClones {sel : Clone → Bool} {set : Clone → Clone} {rows : ℕ} :
    Returns (updateClones sel set) s rows s' ↔ rows = s.clones.countP sel ∧
      s' = { s with clones := Table.update sel set s.clones } := by
  simp only [updateClones, returns_modifyGet, Prod.mk.injEq]
  exact and_congr eq_comm eq_comm

theorem Clone.hasId_iff {c : Clone} : c.hasId id = true ↔ c.job.id = id :=
  decide_eq_true_iff

@[simp]
theorem returns_updateClone {set : Clone → Clone} {u : Unit} :
    Returns (updateClone id set) s u s' ↔ (∃ c ∈ s.clones, c.job.id = id) ∧
      s' = { s with clones := Table.update (Clone.hasId id) set s.clones } := by
  simp only [updateClone, returns_bind, returns_updateClones, returns_require]
  constructor
  · rintro ⟨rows, s₁, ⟨rfl, rfl⟩, hne, rfl⟩
    obtain ⟨c, hc, hid⟩ := List.countP_pos_iff.1 (Nat.pos_of_ne_zero hne)
    exact ⟨⟨c, hc, Clone.hasId_iff.1 hid⟩, rfl⟩
  · rintro ⟨⟨c, hc, hid⟩, rfl⟩
    refine ⟨_, _, ⟨rfl, rfl⟩, ?_, rfl⟩
    exact Nat.pos_iff_ne_zero.1 (List.countP_pos_iff.2 ⟨c, hc, Clone.hasId_iff.2 hid⟩)

@[simp]
theorem returns_selectClone {error : Error} {c : Clone} :
    Returns (selectClone id error) s c s' ↔
      s.clones.find? (Clone.hasId id) = some c ∧ s' = s := by
  simp only [selectClone, returns_bind, returns_get, returns_found, exists_and_left,
    exists_eq_left, and_assoc]

/-- The clone that a query by identifier finds. -/
theorem find?_hasId {c : Clone} (h : s.clones.find? (Clone.hasId id) = some c) :
    c ∈ s.clones ∧ c.job.id = id :=
  ⟨List.mem_of_find?_eq_some h, Clone.hasId_iff.1 (List.find?_some h)⟩

/-- An update that keeps the keys moves the clones that it selects. -/
theorem moves_update {sel : Clone → Bool} {set : Clone → Clone}
    (hset : ∀ c : Clone, c.SameKeys (set c)) :
    s.Moves (fun c c' ↦ c' = if sel c then set c else c)
      { s with clones := Table.update sel set s.clones } where
  clones := List.forall₂_map_right_iff.2 (List.forall₂_same.2 fun _ _ ↦ rfl)
  keyed := by
    intro h
    have hkeys : ∀ c' ∈ Table.update sel set s.clones, ∃ c ∈ s.clones, c.SameKeys c' := by
      intro c' hc'
      obtain ⟨c, hc, rfl⟩ := Table.mem_update.1 hc'
      refine ⟨c, hc, ?_⟩
      split_ifs
      · exact hset c
      · exact .refl c
    constructor
    · rw [Table.map_update _ fun c _ _ ↦ (hset c).id]
      exact h.ids
    · intro c' hc'
      obtain ⟨c, hc, hsame⟩ := hkeys c' hc'
      rw [hsame.pages]
      exact h.pages c hc
    · intro c' hc'
      obtain ⟨c, hc, hsame⟩ := hkeys c' hc'
      rw [hsame.artifacts]
      exact h.artifacts c hc
    · intro c' hc' row hrow
      obtain ⟨c, hc, hsame⟩ := hkeys c' hc'
      have hmem : row.id ∈ c.artifacts.map SiteArtifact.id :=
        hsame.artifacts ▸ List.mem_map_of_mem hrow
      obtain ⟨row₀, hrow₀, heq⟩ := List.mem_map.1 hmem
      exact heq ▸ h.artifacts_lt c hc row₀ hrow₀
    · intro c' hc' event hevent
      obtain ⟨c, hc, hsame⟩ := hkeys c' hc'
      exact h.events_lt c hc event (hsame.events ▸ hevent)
    · intro c' hc' d' hd' event hevent other hother
      obtain ⟨c, hc, hsame⟩ := hkeys c' hc'
      obtain ⟨d, hd, hsame'⟩ := hkeys d' hd'
      exact h.events c hc d hd event (hsame.events ▸ hevent) other (hsame'.events ▸ hother)

/-- Identifiers may be given away. -/
theorem Store.Keyed.nextUuid (h : s.Keyed) {next : Uuid} (hle : s.nextUuid ≤ next) :
    Store.Keyed { s with nextUuid := next } where
  ids := h.ids
  pages := h.pages
  artifacts := h.artifacts
  artifacts_lt := fun c hc row hrow ↦ (h.artifacts_lt c hc row hrow).trans_le hle
  events_lt := fun c hc event hevent ↦ (h.events_lt c hc event hevent).trans_le hle
  events := h.events

/-- Keys do not depend on the inbox. -/
theorem Store.Keyed.commandInbox (h : s.Keyed) {rows : List CommandInboxRow} :
    Store.Keyed { s with commandInbox := rows } :=
  ⟨h.ids, h.pages, h.artifacts, h.artifacts_lt, h.events_lt, h.events⟩

/-- An event is appended to the clone with the identifier. -/
theorem moves_enqueueEvent {status : JobStatus} {u : Unit}
    (h : Returns (enqueueEvent now id status) s u s') :
    s.Moves (fun c c' ↦
      c' = if c.job.id = id then c.withEvent now s.nextUuid status else c) s' := by
  simp only [enqueueEvent, returns_bind, returns_newUuid, returns_updateClone, exists_and_left,
    exists_eq_left, and_assoc] at h
  obtain ⟨-, rfl⟩ := h
  refine ⟨?_, fun h ↦ ?_⟩
  · refine List.forall₂_map_right_iff.2 (List.forall₂_same.2 fun c _ ↦ ?_)
    simp only [Clone.hasId, decide_eq_true_eq]
  · -- The new event is the only one with its message id.
    have hnew : ∀ c' ∈ Table.update (Clone.hasId id) (Clone.withEvent now s.nextUuid status)
        s.clones, ∃ c ∈ s.clones, c'.job.id = c.job.id ∧ c'.pages = c.pages ∧
          c'.artifacts = c.artifacts ∧ (c'.events = c.events ∨ c.job.id = id ∧
            c'.events = c.events ++ [(c.job.bump now).progressEvent s.nextUuid status]) := by
      intro c' hc'
      obtain ⟨c, hc, rfl⟩ := Table.mem_update.1 hc'
      refine ⟨c, hc, ?_⟩
      split_ifs with hsel
      · exact ⟨rfl, rfl, rfl, .inr ⟨Clone.hasId_iff.1 hsel, rfl⟩⟩
      · exact ⟨rfl, rfl, rfl, .inl rfl⟩
    have hlt : ∀ c' ∈ Table.update (Clone.hasId id) (Clone.withEvent now s.nextUuid status)
        s.clones, ∀ event ∈ c'.events, (∃ c ∈ s.clones, event ∈ c.events) ∨
          ∃ c ∈ s.clones, c.job.id = id ∧
            event = (c.job.bump now).progressEvent s.nextUuid status := by
      intro c' hc' event hevent
      obtain ⟨c, hc, -, -, -, heq | ⟨hid, heq⟩⟩ := hnew c' hc'
      · exact .inl ⟨c, hc, heq ▸ hevent⟩
      · rw [heq, List.mem_append, List.mem_singleton] at hevent
        exact hevent.imp (fun hevent ↦ ⟨c, hc, hevent⟩) fun hevent ↦ ⟨c, hc, hid, hevent⟩
    constructor
    · have hids : (Table.update (Clone.hasId id) (Clone.withEvent now s.nextUuid status)
          s.clones).map (fun c ↦ c.job.id) = s.clones.map fun c ↦ c.job.id :=
        Table.map_update _ fun c _ _ ↦ rfl
      exact hids ▸ h.ids
    · intro c' hc'
      obtain ⟨c, hc, -, hpages, -, -⟩ := hnew c' hc'
      rw [hpages]
      exact h.pages c hc
    · intro c' hc'
      obtain ⟨c, hc, -, -, hartifacts, -⟩ := hnew c' hc'
      rw [hartifacts]
      exact h.artifacts c hc
    · intro c' hc' row hrow
      obtain ⟨c, hc, -, -, hartifacts, -⟩ := hnew c' hc'
      rw [hartifacts] at hrow
      exact (h.artifacts_lt c hc row hrow).trans (Nat.lt_succ_self _)
    · intro c' hc' event hevent
      rcases hlt c' hc' event hevent with ⟨c, hc, hevent⟩ | ⟨c, -, -, rfl⟩
      · exact (h.events_lt c hc event hevent).trans (Nat.lt_succ_self _)
      · exact Nat.lt_succ_self _
    · intro c' hc' d' hd' event hevent other hother heq
      rcases hlt c' hc' event hevent with ⟨c, hc, hevent⟩ | ⟨c, hc, hcid, rfl⟩ <;>
        rcases hlt d' hd' other hother with ⟨d, hd, hother⟩ | ⟨d, hd, hdid, rfl⟩
      · exact h.events c hc d hd event hevent other hother heq
      · exact absurd heq (h.events_lt c hc event hevent).ne
      · exact absurd heq.symm (h.events_lt d hd other hother).ne
      · rw [h.eq hc hd (hcid.trans hdid.symm)]

/-- A statement that is repeated for every one of some identifiers. -/
theorem moves_forM {body : Uuid → Tx Unit} (R : Clone → Clone → Prop)
    (hbody : ∀ {id s s' u}, Store.Keyed s → Returns (body id) s u s' →
      s.Moves (fun c c' ↦ c'.job.id = c.job.id ∧
        if c.job.id = id then R c c' else c' = c) s')
    {ids : List Uuid} (hnodup : ids.Nodup) (hkeyed : s.Keyed) {u : Unit}
    (h : Returns (ids.forM body) s u s') :
    s.Moves (fun c c' ↦ c'.job.id = c.job.id ∧
      if c.job.id ∈ ids then R c c' else c' = c) s' := by
  induction ids generalizing s with
  | nil =>
    simp only [List.forM_eq_forM, List.forM_nil, returns_pure] at h
    rw [h.2]
    exact .refl _ (fun c ↦ ⟨rfl, by simp⟩) s
  | cons id ids ih =>
    rw [List.nodup_cons] at hnodup
    simp only [List.forM_eq_forM, List.forM_cons, returns_bind] at h
    obtain ⟨_, s₁, hfirst, hrest⟩ := h
    have hmoves := hbody hkeyed hfirst
    refine (hmoves.trans (ih hnodup.2 (hmoves.keyed hkeyed) hrest)).mono ?_
    rintro c - c' ⟨c₁, -, ⟨hid₁, h₁⟩, hid', h'⟩
    refine ⟨hid'.trans hid₁, ?_⟩
    rw [hid₁] at h'
    by_cases hid : c.job.id = id
    · have hmem : c.job.id ∉ ids := hid ▸ hnodup.1
      rw [if_pos hid] at h₁
      rw [if_neg hmem] at h'
      rw [if_pos (hid ▸ List.mem_cons_self), h']
      exact h₁
    · rw [if_neg hid] at h₁
      subst h₁
      simpa [hid] using h'

end WebLens.SiteClone
