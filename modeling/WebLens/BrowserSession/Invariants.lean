import WebLens.BrowserSession.Manager

/-!
# Invariants of the browser sessions

Three invariants of the manager: one of its starts, which also bounds the sessions; one of the keys
and owners of sessions and waiters; and one that ties timers and waiters to sessions that are there.
Every step keeps the first two, and every step keeps the third in which no failed start finds its
session still stored when it has cleaned up.
-/

set_option autoImplicit false
set_option relaxedAutoImplicit false

namespace WebLens.BrowserSession

open Lib

/-! ### What holds of the sessions -/

/-- The ids that a session is stored or being started for. -/
def Manager.present (manager : Manager) : Finset String :=
  (manager.sessions.map Session.siteCloneId ++
    (manager.pendingStarts.filter PendingStart.isActive).map PendingStart.siteCloneId).toFinset

/-- Handles are given to the owner of their session only. -/
def OwnersOnly (manager : Manager) : Prop :=
  ∀ wait ∈ manager.waits, ∀ handle, wait.result = some (some handle) →
    handle.ownerId = wait.ownerId

/-- Every waiter that is pending waits for a session that is there. -/
def NoStrayWaiter (manager : Manager) : Prop :=
  ∀ wait ∈ manager.waits, wait.result = none →
    ∃ session ∈ manager.sessions, session.serial = wait.session

/-- A call by the owner of a session that finds it expired or lost. -/
def FindsEnded (manager : Manager) (session : Session) (ownerId siteCloneId : String)
    (lost : Bool) : Prop :=
  session.ownerId = ownerId ∧ session.siteCloneId = siteCloneId ∧
    (session.expiresAt ≤ manager.now ∨ lost = true)

/-- A failed start that an event lets end does not find a session stored under its id. -/
def CleanStep (manager : Manager) (event : Event) : Prop :=
  ∀ siteCloneId pending, event = .cleaned siteCloneId →
    manager.pending siteCloneId = some pending → pending.phase = .failing →
    manager.get siteCloneId = none

/-! ### Invariants -/

/-- The starts: one for each id, counted by `starting`; one without a page has no session. -/
structure Starts (manager : Manager) : Prop where
  nodup : (manager.pendingStarts.map PendingStart.siteCloneId).Nodup
  starting_eq : manager.starting = manager.pendingStarts.countP PendingStart.isActive
  free : ∀ pending ∈ manager.pendingStarts, pending.phase = .launching →
    ∀ session ∈ manager.sessions, session.siteCloneId ≠ pending.siteCloneId
  bounded : manager.present.card ≤ maxSessions

/-- The sessions have distinct ids and numbers, and those who wait for one own it. -/
structure Keyed (manager : Manager) : Prop where
  ids : (manager.sessions.map Session.siteCloneId).Nodup
  serials : (manager.sessions.map Session.serial).Nodup
  lt : ∀ session ∈ manager.sessions, session.serial < manager.nextSerial
  waits_lt : ∀ wait ∈ manager.waits, wait.session < manager.nextSerial
  owner : ∀ wait ∈ manager.waits, ∀ session ∈ manager.sessions, session.serial = wait.session →
    session.ownerId = wait.ownerId
  handles : OwnersOnly manager

/-- Timers and waiters belong to sessions that are there. -/
structure Live (manager : Manager) : Prop where
  timers : ∀ timer ∈ manager.timers, ∃ session ∈ manager.sessions,
    session.serial = timer.serial ∧ session.siteCloneId = timer.siteCloneId ∧
      session.expiresAt = timer.due
  waits : NoStrayWaiter manager

variable {manager : Manager}

/-- The starts do not care about anything but the ids of the sessions. -/
theorem Starts.mono {manager' : Manager} (h : Starts manager)
    (hsessions : ∀ session ∈ manager'.sessions, ∃ original ∈ manager.sessions,
      original.siteCloneId = session.siteCloneId)
    (hpending : manager'.pendingStarts = manager.pendingStarts)
    (hstarting : manager'.starting = manager.starting) : Starts manager' := by
  have hpresent : manager'.present ⊆ manager.present := by
    intro id hid
    unfold Manager.present at hid ⊢
    rw [List.mem_toFinset, List.mem_append] at hid ⊢
    rw [hpending] at hid
    rcases hid with hid | hid
    · obtain ⟨session, hsession, rfl⟩ := List.mem_map.1 hid
      obtain ⟨original, horiginal, heq⟩ := hsessions session hsession
      exact .inl (heq ▸ List.mem_map_of_mem horiginal)
    · exact .inr hid
  refine ⟨hpending ▸ h.nodup, by rw [hstarting, hpending, h.starting_eq], ?_,
    (Finset.card_le_card hpresent).trans h.bounded⟩
  intro pending hmem hphase session hsession
  rw [hpending] at hmem
  obtain ⟨original, horiginal, heq⟩ := hsessions session hsession
  exact heq ▸ h.free pending hmem hphase original horiginal

/-- What may become of a waiter: it keeps its session and owner, and gets a handle of its own. -/
def Wait.Goes (wait wait' : Wait) : Prop :=
  wait'.session = wait.session ∧ wait'.ownerId = wait.ownerId ∧
    ∀ handle, wait'.result = some (some handle) →
      wait.result = some (some handle) ∨ handle.ownerId = wait.ownerId

/-- Fewer sessions, and waiters with later results, are still keyed. -/
theorem Keyed.mono {manager' : Manager} (h : Keyed manager)
    (hids : (manager'.sessions.map Session.siteCloneId).Sublist
      (manager.sessions.map Session.siteCloneId))
    (hserials : (manager'.sessions.map Session.serial).Sublist
      (manager.sessions.map Session.serial))
    (hsessions : ∀ session ∈ manager'.sessions, ∃ original ∈ manager.sessions,
      original.serial = session.serial ∧ original.ownerId = session.ownerId)
    (hnext : manager'.nextSerial = manager.nextSerial)
    (hwaits : ∀ wait' ∈ manager'.waits, ∃ wait ∈ manager.waits, wait.Goes wait') :
    Keyed manager' := by
  refine ⟨h.ids.sublist hids, h.serials.sublist hserials, ?_, ?_, ?_, ?_⟩
  · intro session hsession
    obtain ⟨original, horiginal, heq, _⟩ := hsessions session hsession
    rw [hnext, ← heq]
    exact h.lt original horiginal
  · intro wait' hwait'
    obtain ⟨wait, hwait, hgoes⟩ := hwaits wait' hwait'
    rw [hnext, hgoes.1]
    exact h.waits_lt wait hwait
  · intro wait' hwait' session hsession hserial
    obtain ⟨wait, hwait, hgoes⟩ := hwaits wait' hwait'
    obtain ⟨original, horiginal, heq, howner⟩ := hsessions session hsession
    rw [← howner, hgoes.2.1]
    exact h.owner wait hwait original horiginal (by rw [heq, hserial, hgoes.1])
  · intro wait' hwait' handle hhandle
    obtain ⟨wait, hwait, hgoes⟩ := hwaits wait' hwait'
    rw [hgoes.2.1]
    rcases hgoes.2.2 handle hhandle with hold | hnew
    · exact h.handles wait hwait handle hold
    · exact hnew

theorem Wait.Goes.refl (wait : Wait) : wait.Goes wait :=
  ⟨rfl, rfl, fun _ h ↦ .inl h⟩

/-! ### Closing a session -/

theorem Manager.get_eq_some {siteCloneId : String} {session : Session}
    (h : manager.get siteCloneId = some session) :
    session ∈ manager.sessions ∧ session.siteCloneId = siteCloneId := by
  unfold Manager.get at h
  have hid := List.find?_some h
  exact ⟨List.mem_of_find?_eq_some h, eq_of_beq hid⟩

theorem Manager.get_eq_none {siteCloneId : String} (h : manager.get siteCloneId = none) :
    ∀ session ∈ manager.sessions, session.siteCloneId ≠ siteCloneId := by
  intro session hsession heq
  exact List.find?_eq_none.1 h session hsession (beq_iff_eq.2 heq)

/-- A stored session is the one that its id leads to. -/
theorem Keyed.get_eq (h : Keyed manager) {session : Session} (hmem : session ∈ manager.sessions) :
    manager.get session.siteCloneId = some session :=
  Table.find?_key h.ids hmem

theorem mem_sessions_closeById {siteCloneId : String} {session : Session} :
    session ∈ (manager.closeById siteCloneId).sessions ↔
      session ∈ manager.sessions ∧ session.siteCloneId ≠ siteCloneId := by
  unfold Manager.closeById
  cases hget : manager.get siteCloneId with
  | none => exact ⟨fun h ↦ ⟨h, Manager.get_eq_none hget session h⟩, fun h ↦ h.1⟩
  | some closed =>
    show session ∈ manager.sessions.filter (·.siteCloneId != siteCloneId) ↔ _
    rw [List.mem_filter, bne_iff_ne]

/-- What closing leaves alone. -/
theorem closeById_spec (manager : Manager) (siteCloneId : String) :
    (manager.closeById siteCloneId).pendingStarts = manager.pendingStarts ∧
      (manager.closeById siteCloneId).starting = manager.starting ∧
      (manager.closeById siteCloneId).nextSerial = manager.nextSerial ∧
      (manager.closeById siteCloneId).now = manager.now ∧
      (manager.closeById siteCloneId).sessions.Sublist manager.sessions := by
  unfold Manager.closeById
  cases manager.get siteCloneId with
  | none => exact ⟨rfl, rfl, rfl, rfl, List.Sublist.refl _⟩
  | some closed => exact ⟨rfl, rfl, rfl, rfl, List.filter_sublist⟩

theorem goes_resolve {session : ℕ} {result : Option Handle}
    (h : ∀ handle, result = some handle → ∀ wait ∈ manager.waits, wait.session = session →
      handle.ownerId = wait.ownerId) :
    ∀ wait' ∈ (manager.resolve session result).waits, ∃ wait ∈ manager.waits,
      wait.Goes wait' := by
  intro wait' hwait'
  obtain ⟨wait, hwait, rfl⟩ := Table.mem_update.1 hwait'
  refine ⟨wait, hwait, ?_⟩
  split
  · next hselected =>
    rw [Bool.and_eq_true, beq_iff_eq] at hselected
    refine ⟨rfl, rfl, fun handle hhandle ↦ .inr ?_⟩
    exact h handle (Option.some.inj hhandle) wait hwait hselected.1
  · exact Wait.Goes.refl wait

theorem Starts.closeById (h : Starts manager) (siteCloneId : String) :
    Starts (manager.closeById siteCloneId) := by
  obtain ⟨hpending, hstarting, _, _, hsublist⟩ := closeById_spec manager siteCloneId
  exact h.mono (fun session hsession ↦ ⟨session, hsublist.subset hsession, rfl⟩) hpending hstarting

theorem Keyed.closeById (h : Keyed manager) (siteCloneId : String) :
    Keyed (manager.closeById siteCloneId) := by
  obtain ⟨_, _, hnext, _, hsublist⟩ := closeById_spec manager siteCloneId
  refine h.mono (hsublist.map _) (hsublist.map _)
    (fun session hsession ↦ ⟨session, hsublist.subset hsession, rfl, rfl⟩) hnext ?_
  unfold Manager.closeById
  cases manager.get siteCloneId with
  | none => exact fun wait hwait ↦ ⟨wait, hwait, Wait.Goes.refl wait⟩
  | some closed => exact goes_resolve fun handle hhandle ↦ absurd hhandle (by simp)

theorem Live.closeById (h : Live manager) (hkeyed : Keyed manager) (siteCloneId : String) :
    Live (manager.closeById siteCloneId) := by
  cases hget : manager.get siteCloneId with
  | none =>
    unfold Manager.closeById
    rw [hget]
    exact h
  | some closed =>
    obtain ⟨hclosed, hid⟩ := Manager.get_eq_some hget
    -- A session with another number has another id, so it stays.
    have hstays : ∀ session ∈ manager.sessions, session.serial ≠ closed.serial →
        session ∈ (manager.closeById siteCloneId).sessions := by
      intro session hsession hserial
      refine mem_sessions_closeById.2 ⟨hsession, fun heq ↦ hserial ?_⟩
      rw [Table.eq_of_key_eq hkeyed.ids hsession hclosed (heq.trans hid.symm)]
    constructor
    · intro timer htimer
      have htimer' : timer ∈ manager.timers.filter (·.serial != closed.serial) := by
        unfold Manager.closeById at htimer
        rw [hget] at htimer
        exact htimer
      obtain ⟨hmem, hserial⟩ := List.mem_filter.1 htimer'
      obtain ⟨session, hsession, heq, hrest⟩ := h.timers timer hmem
      exact ⟨session, hstays session hsession (heq ▸ bne_iff_ne.1 hserial), heq, hrest⟩
    · intro wait' hwait' hpending
      have hwait'' : wait' ∈ ((manager.delete siteCloneId).clearTimer closed.serial |>.resolve
          closed.serial none).waits := by
        unfold Manager.closeById at hwait'
        rw [hget] at hwait'
        exact hwait'
      obtain ⟨wait, hwait, rfl⟩ := Table.mem_update.1 hwait''
      split at hpending
      · exact absurd hpending (by simp)
      · next hselected =>
        rw [if_neg hselected]
        obtain ⟨session, hsession, heq⟩ := h.waits wait hwait hpending
        refine ⟨session, hstays session hsession fun hserial ↦ hselected ?_, heq⟩
        rw [Bool.and_eq_true, beq_iff_eq, hpending]
        exact ⟨heq.symm.trans hserial, rfl⟩

/-! ### Looking a session up -/

/-- What `owned` does: nothing, or it closes a session of the caller that has ended. -/
theorem owned_cases (manager : Manager) (ownerId siteCloneId : String) (lost : Bool) :
    manager.owned ownerId siteCloneId lost = (manager, none) ∨
      (∃ session, manager.get siteCloneId = some session ∧
        FindsEnded manager session ownerId siteCloneId lost ∧
        manager.owned ownerId siteCloneId lost = (manager.closeById siteCloneId, none)) ∨
      (∃ session, manager.get siteCloneId = some session ∧ session.ownerId = ownerId ∧
        manager.owned ownerId siteCloneId lost = (manager, some session)) := by
  unfold Manager.owned
  cases hget : manager.get siteCloneId with
  | none => exact .inl rfl
  | some session =>
    by_cases howner : session.ownerId ≠ ownerId
    · exact .inl (if_pos howner)
    have howner' : session.ownerId = ownerId := not_not.1 howner
    by_cases hended : session.expiresAt ≤ manager.now ∨ lost = true
    · refine .inr (.inl ⟨session, rfl, ⟨howner', (Manager.get_eq_some hget).2, hended⟩, ?_⟩)
      simp only [if_neg howner, if_pos hended]
    · refine .inr (.inr ⟨session, rfl, howner', ?_⟩)
      simp only [if_neg howner, if_neg hended]

/-- What closing by id keeps is kept by `owned`. -/
theorem owned_induction {P : Manager → Prop} (h : P manager)
    (hclose : ∀ siteCloneId, P (manager.closeById siteCloneId)) (ownerId siteCloneId : String)
    (lost : Bool) : P (manager.owned ownerId siteCloneId lost).1 := by
  rcases owned_cases manager ownerId siteCloneId lost with heq | ⟨_, _, _, heq⟩ | ⟨_, _, _, heq⟩
  · rw [heq]
    exact h
  · rw [heq]
    exact hclose siteCloneId
  · rw [heq]
    exact h

/-- `owned` removes a session only when it has ended. -/
theorem Keyed.kept_owned (h : Keyed manager) (ownerId siteCloneId : String) (lost : Bool)
    {session : Session} (hmem : session ∈ manager.sessions) :
    session ∈ (manager.owned ownerId siteCloneId lost).1.sessions ∨
      FindsEnded manager session ownerId siteCloneId lost := by
  rcases owned_cases manager ownerId siteCloneId lost with
    heq | ⟨ended, hget, hends, heq⟩ | ⟨_, _, _, heq⟩
  · rw [heq]
    exact .inl hmem
  · rw [heq]
    by_cases hid : session.siteCloneId = siteCloneId
    · rw [← hid, h.get_eq hmem] at hget
      obtain rfl := Option.some.inj hget
      exact .inr hends
    · exact .inl (mem_sessions_closeById.2 ⟨hmem, hid⟩)
  · rw [heq]
    exact .inl hmem

theorem owned_pendingStarts (ownerId siteCloneId : String) (lost : Bool) :
    (manager.owned ownerId siteCloneId lost).1.pendingStarts = manager.pendingStarts :=
  owned_induction (P := fun after ↦ after.pendingStarts = manager.pendingStarts) rfl
    (fun id ↦ (closeById_spec manager id).1) ownerId siteCloneId lost

/-! ### The steps of a start -/

theorem Manager.pending_eq_some {siteCloneId : String} {pending : PendingStart}
    (h : manager.pending siteCloneId = some pending) :
    pending ∈ manager.pendingStarts ∧ pending.siteCloneId = siteCloneId := by
  unfold Manager.pending at h
  have hid := List.find?_some h
  exact ⟨List.mem_of_find?_eq_some h, eq_of_beq hid⟩

theorem Manager.pending_eq_none {siteCloneId : String} (h : manager.pending siteCloneId = none) :
    ∀ pending ∈ manager.pendingStarts, pending.siteCloneId ≠ siteCloneId := by
  intro pending hpending heq
  exact List.find?_eq_none.1 h pending hpending (beq_iff_eq.2 heq)

/-- The present ids are at most as many as the sessions and the active starts. -/
theorem card_present_le (manager : Manager) :
    manager.present.card ≤
      manager.sessions.length + manager.pendingStarts.countP PendingStart.isActive := by
  refine (List.toFinset_card_le _).trans ?_
  rw [List.length_append, List.length_map, List.length_map, List.countP_eq_length_filter]

theorem mem_present {id : String} : id ∈ manager.present ↔
    (∃ session ∈ manager.sessions, session.siteCloneId = id) ∨
      ∃ pending ∈ manager.pendingStarts, pending.isActive = true ∧ pending.siteCloneId = id := by
  unfold Manager.present
  simp only [List.mem_toFinset, List.mem_append, List.mem_map, List.mem_filter, and_assoc]

/-- An active start that goes on, with a session of its id or without. -/
theorem Starts.setPhase {manager' : Manager} {siteCloneId : String} {pending : PendingStart}
    {phase : Phase} (h : Starts manager) (hpending : manager.pending siteCloneId = some pending)
    (hactive : pending.isActive = true) (hphase : phase ≠ .launching)
    (hstarts : manager'.pendingStarts = (manager.setPhase siteCloneId phase).pendingStarts)
    (hstarting : manager'.starting = manager.starting - if phase = .settled then 1 else 0)
    (hsessions : ∀ session ∈ manager'.sessions, session.siteCloneId = siteCloneId ∨
      ∃ original ∈ manager.sessions, original.siteCloneId = session.siteCloneId) :
    Starts manager' := by
  obtain ⟨hmem, hid⟩ := Manager.pending_eq_some hpending
  have hsplit : ∃ before after, manager.pendingStarts = before ++ pending :: after ∧
      ∀ set, Table.update (·.siteCloneId == siteCloneId) set manager.pendingStarts =
        before ++ set pending :: after :=
    Table.update_eq_append h.nodup hmem (beq_iff_eq.2 hid)
      fun other _ hother ↦ (eq_of_beq hother).trans hid.symm
  obtain ⟨before, after, hold, hnew⟩ := hsplit
  have hlist : manager'.pendingStarts = before ++ { pending with phase := phase } :: after :=
    hstarts.trans (hnew _)
  -- The other starts are those of before.
  have hother : ∀ other ∈ manager'.pendingStarts, other = { pending with phase := phase } ∨
      other ∈ manager.pendingStarts ∧ other.siteCloneId ≠ siteCloneId := by
    intro other hmem'
    have hnodup := h.nodup
    rw [hold, List.map_append, List.map_cons, List.nodup_middle, List.nodup_cons,
      ← List.map_append] at hnodup
    rw [hlist] at hmem'
    rcases List.mem_append.1 hmem' with hleft | hright
    · refine .inr ⟨hold ▸ List.mem_append_left _ hleft, fun heq ↦ hnodup.1 ?_⟩
      rw [hid, ← heq]
      exact List.mem_map_of_mem (List.mem_append_left _ hleft)
    · rcases List.mem_cons.1 hright with rfl | hright
      · exact .inl rfl
      · refine .inr ⟨hold ▸ List.mem_append_right _ (List.mem_cons_of_mem _ hright),
          fun heq ↦ hnodup.1 ?_⟩
        rw [hid, ← heq]
        exact List.mem_map_of_mem (List.mem_append_right _ hright)
  refine ⟨?_, ?_, ?_, ?_⟩
  · have hnodup := h.nodup
    rw [hold, List.map_append, List.map_cons] at hnodup
    rw [hlist, List.map_append, List.map_cons]
    exact hnodup
  · rw [hstarting, h.starting_eq, hold, hlist, List.countP_append, List.countP_append,
      List.countP_cons, List.countP_cons, if_pos hactive]
    by_cases hsettled : phase = .settled
    · subst hsettled
      show _ = _ + (_ + 0)
      rw [if_pos rfl]
      omega
    · have hstays : ({ pending with phase := phase } : PendingStart).isActive = true :=
        bne_iff_ne.2 hsettled
      rw [if_neg hsettled, if_pos hstays]
      omega
  · intro other hmem' hlaunching session hsession
    rcases hother other hmem' with rfl | ⟨hmem', hne⟩
    · exact absurd hlaunching hphase
    · rcases hsessions session hsession with heq | ⟨original, horiginal, heq⟩
      · rw [heq]
        exact hne.symm
      · rw [← heq]
        exact h.free other hmem' hlaunching original horiginal
  · refine (Finset.card_le_card fun id hpresent ↦ ?_).trans h.bounded
    have hown : siteCloneId ∈ manager.present := mem_present.2 (.inr ⟨pending, hmem, hactive, hid⟩)
    rcases mem_present.1 hpresent with ⟨session, hsession, rfl⟩ | ⟨other, hmem', hother', rfl⟩
    · rcases hsessions session hsession with heq | ⟨original, horiginal, heq⟩
      · rw [heq]
        exact hown
      · rw [← heq]
        exact mem_present.2 (.inl ⟨original, horiginal, rfl⟩)
    · rcases hother other hmem' with rfl | ⟨hmem', _⟩
      · show pending.siteCloneId ∈ manager.present
        rw [hid]
        exact hown
      · exact mem_present.2 (.inr ⟨other, hmem', hother', rfl⟩)

/-- A start that is over is forgotten. -/
theorem Starts.forget (h : Starts manager) (siteCloneId : String) :
    Starts (manager.forget siteCloneId) := by
  unfold Manager.forget
  cases hpending : manager.pending siteCloneId with
  | none => exact h
  | some pending =>
    simp only
    by_cases hphase : pending.phase ≠ .settled
    · rw [if_pos hphase]
      exact h
    rw [if_neg hphase]
    obtain ⟨hmem, hid⟩ := Manager.pending_eq_some hpending
    have hinactive : ∀ other ∈ manager.pendingStarts, other.isActive = true →
        other.siteCloneId ≠ siteCloneId := by
      intro other hother hactive heq
      rw [Table.eq_of_key_eq h.nodup hother hmem (heq.trans hid.symm)] at hactive
      exact hphase (bne_iff_ne.1 hactive)
    refine ⟨h.nodup.sublist (List.filter_sublist.map _), ?_, ?_, ?_⟩
    · rw [h.starting_eq]
      show _ = (manager.pendingStarts.filter _).countP _
      rw [List.countP_filter]
      refine List.countP_congr fun other hother ↦ ?_
      rw [Bool.and_eq_true, bne_iff_ne]
      exact ⟨fun hactive ↦ ⟨hactive, hinactive other hother hactive⟩, fun hboth ↦ hboth.1⟩
    · exact fun other hother ↦ h.free other (List.mem_of_mem_filter hother)
    · refine (Finset.card_le_card fun id hpresent ↦ ?_).trans h.bounded
      rcases mem_present.1 hpresent with hsession | ⟨other, hother, hactive, rfl⟩
      · exact mem_present.2 (.inl hsession)
      · exact mem_present.2 (.inr ⟨other, List.mem_of_mem_filter hother, hactive, rfl⟩)

/-- A start begins, active if there is room for a session. -/
theorem Starts.addPending {manager' : Manager} {siteCloneId ownerId : String} {phase : Phase}
    (h : Starts manager) (hnone : manager.pending siteCloneId = none)
    (hstarts : manager'.pendingStarts =
      (manager.addPending siteCloneId ownerId phase).pendingStarts)
    (hsessions : manager'.sessions = manager.sessions)
    (hstarting : manager'.starting = manager.starting + if phase = .settled then 0 else 1)
    (hroom : phase ≠ .settled → manager.get siteCloneId = none ∧
      manager.sessions.length + manager.starting < maxSessions) : Starts manager' := by
  have hlist : manager'.pendingStarts = manager.pendingStarts ++
      [{ siteCloneId := siteCloneId, ownerId := ownerId, phase := phase }] := hstarts
  have hcount : manager'.starting = manager'.pendingStarts.countP PendingStart.isActive := by
    rw [hstarting, h.starting_eq, hlist, List.countP_append, List.countP_singleton]
    by_cases hsettled : phase = .settled
    · subst hsettled
      rfl
    · have hactive : ({ siteCloneId := siteCloneId, ownerId := ownerId, phase := phase } :
          PendingStart).isActive = true := bne_iff_ne.2 hsettled
      rw [if_neg hsettled, if_pos hactive]
  refine ⟨hlist ▸ Table.nodup_map_concat h.nodup (Manager.pending_eq_none hnone), hcount, ?_, ?_⟩
  · intro pending hmem hlaunching session hsession
    rw [hsessions] at hsession
    rw [hlist] at hmem
    rcases List.mem_append.1 hmem with hmem | hmem
    · exact h.free pending hmem hlaunching session hsession
    · obtain rfl := List.mem_singleton.1 hmem
      have hactive : phase ≠ .settled := by
        rintro rfl
        exact Phase.noConfusion hlaunching
      exact Manager.get_eq_none (hroom hactive).1 session hsession
  · by_cases hsettled : phase = .settled
    · refine (Finset.card_le_card fun id hpresent ↦ ?_).trans h.bounded
      rcases mem_present.1 hpresent with hsession | ⟨other, hother, hactive, rfl⟩
      · rw [hsessions] at hsession
        exact mem_present.2 (.inl hsession)
      · rw [hlist] at hother
        rcases List.mem_append.1 hother with hother | hother
        · exact mem_present.2 (.inr ⟨other, hother, hactive, rfl⟩)
        · obtain rfl := List.mem_singleton.1 hother
          exact absurd hsettled (bne_iff_ne.1 hactive)
    · have hbound := card_present_le manager'
      have hfree := (hroom hsettled).2
      rw [← hcount, hstarting, if_neg hsettled, hsessions] at hbound
      omega

theorem Starts.start (h : Starts manager) (ownerId siteCloneId : String) (lost : Bool) :
    Starts (manager.start ownerId siteCloneId lost) := by
  unfold Manager.start
  cases hpending : manager.pending siteCloneId with
  | some _ => exact h
  | none =>
    have hafter : Starts (manager.owned ownerId siteCloneId lost).1 :=
      owned_induction h h.closeById ownerId siteCloneId lost
    have hnone : (manager.owned ownerId siteCloneId lost).1.pending siteCloneId = none := by
      unfold Manager.pending at hpending ⊢
      rw [owned_pendingStarts, hpending]
    simp only
    split
    · exact hafter.addPending hnone rfl rfl rfl fun hne ↦ absurd rfl hne
    · next hrefused =>
      simp only [Bool.or_eq_true, decide_eq_true_eq, not_or, Bool.not_eq_true,
        Option.isSome_eq_false_iff, Option.isNone_iff_eq_none] at hrefused
      exact hafter.addPending hnone rfl rfl rfl fun _ ↦ ⟨hrefused.1.2, Nat.not_le.1 hrefused.2⟩

theorem mem_store {session stored : Session} (h : session ∈ (manager.store stored).sessions) :
    session = stored ∨ session ∈ manager.sessions := by
  unfold Manager.store at h
  simp only at h
  split at h
  · obtain ⟨original, horiginal, rfl⟩ := Table.mem_update.1 h
    split
    · exact .inl rfl
    · exact .inr horiginal
  · rcases List.mem_append.1 h with hold | hnew
    · exact .inr hold
    · exact .inl (List.mem_singleton.1 hnew)

theorem Starts.opened (h : Starts manager) (siteCloneId : String) :
    Starts (manager.opened siteCloneId) := by
  unfold Manager.opened
  cases hpending : manager.pending siteCloneId with
  | none => exact h
  | some pending =>
    simp only
    by_cases hphase : pending.phase ≠ .launching
    · rw [if_pos hphase]
      exact h
    rw [if_neg hphase]
    have hactive : pending.isActive = true := by
      unfold PendingStart.isActive
      rw [not_not.1 hphase]
      rfl
    refine h.setPhase hpending hactive (by decide) rfl rfl fun session hsession ↦ ?_
    rcases mem_store hsession with rfl | hold
    · exact .inl rfl
    · exact .inr ⟨session, hold, rfl⟩

theorem Starts.navigated (h : Starts manager) (siteCloneId : String) :
    Starts (manager.navigated siteCloneId) := by
  unfold Manager.navigated
  cases hpending : manager.pending siteCloneId with
  | none => exact h
  | some pending =>
    simp only
    by_cases hphase : pending.phase ≠ .navigating
    · rw [if_pos hphase]
      exact h
    rw [if_neg hphase]
    have hactive : pending.isActive = true := by
      unfold PendingStart.isActive
      rw [not_not.1 hphase]
      rfl
    exact h.setPhase hpending hactive (by decide) rfl rfl
      fun session hsession ↦ .inr ⟨session, hsession, rfl⟩

theorem Starts.failed (h : Starts manager) (siteCloneId : String) :
    Starts (manager.failed siteCloneId) := by
  unfold Manager.failed
  cases hpending : manager.pending siteCloneId with
  | none => exact h
  | some pending =>
    simp only
    by_cases hphase : pending.phase ≠ .launching ∧ pending.phase ≠ .navigating
    · rw [if_pos hphase]
      exact h
    rw [if_neg hphase]
    have hactive : pending.isActive = true := by
      refine bne_iff_ne.2 fun hsettled ↦ hphase ?_
      rw [hsettled]
      exact ⟨by decide, by decide⟩
    exact h.setPhase hpending hactive (by decide) rfl rfl
      fun session hsession ↦ .inr ⟨session, hsession, rfl⟩

theorem Starts.cleaned (h : Starts manager) (siteCloneId : String) :
    Starts (manager.cleaned siteCloneId) := by
  unfold Manager.cleaned
  cases hpending : manager.pending siteCloneId with
  | none => exact h
  | some pending =>
    simp only
    by_cases hphase : pending.phase ≠ .failing
    · rw [if_pos hphase]
      exact h
    rw [if_neg hphase]
    have hactive : pending.isActive = true := by
      unfold PendingStart.isActive
      rw [not_not.1 hphase]
      rfl
    exact h.setPhase hpending hactive (by decide) rfl rfl
      fun session hsession ↦ .inr ⟨session, List.mem_of_mem_filter hsession, rfl⟩

/-! ### The steps of the users -/

/-- `owned` finds a session of the caller and changes nothing then. -/
theorem owned_eq_some {ownerId siteCloneId : String} {lost : Bool} {session : Session}
    (h : (manager.owned ownerId siteCloneId lost).2 = some session) :
    (manager.owned ownerId siteCloneId lost).1 = manager ∧
      manager.get siteCloneId = some session ∧ session.ownerId = ownerId := by
  rcases owned_cases manager ownerId siteCloneId lost with
    heq | ⟨_, _, _, heq⟩ | ⟨found, hget, howner, heq⟩
  · rw [heq] at h
    exact absurd h (by simp)
  · rw [heq] at h
    exact absurd h (by simp)
  · rw [heq] at h ⊢
    obtain rfl := Option.some.inj h
    exact ⟨rfl, hget, howner⟩

/-- The manager after `ready` has found a session. -/
def Manager.readied (manager : Manager) (session : Session) : Manager :=
  { manager with
    sessions := Table.update (·.siteCloneId == session.siteCloneId)
      (fun other ↦ { other with status := .ready }) manager.sessions }.resolve session.serial
    (some { session := session.serial, ownerId := session.ownerId })

theorem ready_cases (manager : Manager) (ownerId siteCloneId : String) (lost : Bool) :
    manager.ready ownerId siteCloneId lost = (manager.owned ownerId siteCloneId lost).1 ∨
      ∃ session ∈ manager.sessions,
        manager.ready ownerId siteCloneId lost = manager.readied session := by
  unfold Manager.ready
  cases hfound : (manager.owned ownerId siteCloneId lost).2 with
  | none => exact .inl rfl
  | some session =>
    obtain ⟨heq, hget, _⟩ := owned_eq_some hfound
    obtain ⟨hmem, hid⟩ := Manager.get_eq_some hget
    refine .inr ⟨session, hmem, ?_⟩
    simp only [heq]
    rw [← hid]
    rfl

theorem waitForReady_cases (manager : Manager) (ownerId siteCloneId : String)
    (waiter timeoutMillis : ℕ) (lost : Bool) :
    manager.waitForReady ownerId siteCloneId waiter timeoutMillis lost =
        (manager.owned ownerId siteCloneId lost).1 ∨
      ∃ session ∈ manager.sessions, ∃ wait : Wait, wait.session = session.serial ∧
        wait.ownerId = session.ownerId ∧
        (∀ handle, wait.result = some (some handle) → handle.ownerId = session.ownerId) ∧
        manager.waitForReady ownerId siteCloneId waiter timeoutMillis lost =
          { manager with waits := manager.waits ++ [wait] } := by
  unfold Manager.waitForReady
  cases hfound : (manager.owned ownerId siteCloneId lost).2 with
  | none => exact .inl rfl
  | some session =>
    obtain ⟨heq, hget, howner⟩ := owned_eq_some hfound
    obtain ⟨hmem, _⟩ := Manager.get_eq_some hget
    simp only [heq]
    refine .inr ⟨session, hmem, _, rfl, howner.symm, ?_, rfl⟩
    intro handle hhandle
    cases hstatus : session.status with
    | awaitingUser =>
      rw [hstatus] at hhandle
      exact absurd hhandle (by simp)
    | ready =>
      rw [hstatus] at hhandle
      rw [← Option.some.inj (Option.some.inj hhandle)]

theorem close_cases (manager : Manager) (ownerId siteCloneId : String) (lost : Bool) :
    manager.close ownerId siteCloneId lost = (manager.owned ownerId siteCloneId lost).1 ∨
      ∃ session, manager.get siteCloneId = some session ∧ session.ownerId = ownerId ∧
        manager.close ownerId siteCloneId lost = manager.closeById siteCloneId := by
  unfold Manager.close
  cases hfound : (manager.owned ownerId siteCloneId lost).2 with
  | none => exact .inl rfl
  | some session =>
    obtain ⟨heq, hget, howner⟩ := owned_eq_some hfound
    exact .inr ⟨session, hget, howner, by simp only [heq]⟩

theorem mem_readied {session other : Session} (h : other ∈ (manager.readied session).sessions) :
    ∃ original ∈ manager.sessions, original.serial = other.serial ∧
      original.siteCloneId = other.siteCloneId ∧ original.ownerId = other.ownerId := by
  obtain ⟨original, horiginal, rfl⟩ := Table.mem_update.1 h
  refine ⟨original, horiginal, ?_⟩
  split <;> exact ⟨rfl, rfl, rfl⟩

/-- `ready` keeps every session. -/
theorem exists_mem_readied (session : Session) {other : Session}
    (h : other ∈ manager.sessions) :
    ∃ later ∈ (manager.readied session).sessions, later.serial = other.serial ∧
      later.siteCloneId = other.siteCloneId ∧ later.expiresAt = other.expiresAt := by
  refine ⟨_, Table.mem_update.2 ⟨other, h, rfl⟩, ?_⟩
  split <;> exact ⟨rfl, rfl, rfl⟩

theorem closeAll_induction {P : Manager → Prop} (h : P manager)
    (hclose : ∀ manager siteCloneId, P manager → P (manager.closeById siteCloneId)) :
    P manager.closeAll := by
  unfold Manager.closeAll
  generalize manager.sessions.map Session.siteCloneId = ids
  induction ids generalizing manager with
  | nil => exact h
  | cons id ids ih => exact ih (hclose manager id h)

/-- What a timer does when it fires. -/
theorem fire_cases (manager : Manager) (serial : ℕ) :
    manager.fire serial = manager ∨ ∃ timer ∈ manager.timers, timer.serial = serial ∧
      timer.due ≤ manager.now ∧
      manager.fire serial = (manager.clearTimer serial).closeById timer.siteCloneId := by
  unfold Manager.fire
  cases hfind : manager.timers.find? (·.serial == serial) with
  | none => exact .inl rfl
  | some timer =>
    simp only
    by_cases hdue : timer.due ≤ manager.now
    · rw [if_pos hdue]
      have hserial := List.find?_some hfind
      exact .inr ⟨timer, List.mem_of_find?_eq_some hfind, eq_of_beq hserial, hdue, rfl⟩
    · rw [if_neg hdue]
      exact .inl rfl

theorem disconnected_cases (manager : Manager) (serial : ℕ) (siteCloneId : String) :
    manager.disconnected serial siteCloneId = manager ∨
      ∃ session, manager.get siteCloneId = some session ∧ session.serial = serial ∧
        manager.disconnected serial siteCloneId = manager.closeById siteCloneId := by
  unfold Manager.disconnected
  cases hget : manager.get siteCloneId with
  | none => exact .inl rfl
  | some session =>
    simp only
    by_cases hserial : session.serial = serial
    · exact .inr ⟨session, rfl, hserial, if_pos hserial⟩
    · exact .inl (if_neg hserial)

/-! ### The invariants of the starts and of the sessions -/

theorem Starts.step (h : Starts manager) (event : Event) :
    Starts (BrowserSession.step manager event) := by
  have hsame : ∀ session ∈ manager.sessions, ∃ original ∈ manager.sessions,
      original.siteCloneId = session.siteCloneId := fun session hmem ↦ ⟨session, hmem, rfl⟩
  cases event with
  | tick millis => exact h.mono hsame rfl rfl
  | start ownerId siteCloneId lost => exact h.start ownerId siteCloneId lost
  | opened siteCloneId => exact h.opened siteCloneId
  | navigated siteCloneId => exact h.navigated siteCloneId
  | failed siteCloneId => exact h.failed siteCloneId
  | cleaned siteCloneId => exact h.cleaned siteCloneId
  | forget siteCloneId => exact h.forget siteCloneId
  | status ownerId siteCloneId lost =>
    exact owned_induction h h.closeById ownerId siteCloneId lost
  | ready ownerId siteCloneId lost =>
    show Starts (manager.ready ownerId siteCloneId lost)
    rcases ready_cases manager ownerId siteCloneId lost with heq | ⟨session, _, heq⟩
    · rw [heq]
      exact owned_induction h h.closeById ownerId siteCloneId lost
    · rw [heq]
      refine h.mono (fun other hother ↦ ?_) rfl rfl
      obtain ⟨original, horiginal, _, hid, _⟩ := mem_readied hother
      exact ⟨original, horiginal, hid⟩
  | waitForReady ownerId siteCloneId waiter timeoutMillis lost =>
    show Starts (manager.waitForReady ownerId siteCloneId waiter timeoutMillis lost)
    rcases waitForReady_cases manager ownerId siteCloneId waiter timeoutMillis lost with
      heq | ⟨_, _, _, _, _, _, heq⟩
    · rw [heq]
      exact owned_induction h h.closeById ownerId siteCloneId lost
    · rw [heq]
      exact h.mono hsame rfl rfl
  | waitTimeout waiter => exact h.mono hsame rfl rfl
  | close ownerId siteCloneId lost =>
    show Starts (manager.close ownerId siteCloneId lost)
    rcases close_cases manager ownerId siteCloneId lost with heq | ⟨_, _, _, heq⟩
    · rw [heq]
      exact owned_induction h h.closeById ownerId siteCloneId lost
    · rw [heq]
      exact h.closeById siteCloneId
  | closeAll => exact closeAll_induction h fun _ id hstarts ↦ hstarts.closeById id
  | fire serial =>
    show Starts (manager.fire serial)
    rcases fire_cases manager serial with heq | ⟨timer, _, _, _, heq⟩
    · rw [heq]
      exact h
    · rw [heq]
      have hcleared : Starts (manager.clearTimer serial) := h.mono hsame rfl rfl
      exact hcleared.closeById timer.siteCloneId
  | disconnected serial siteCloneId =>
    show Starts (manager.disconnected serial siteCloneId)
    rcases disconnected_cases manager serial siteCloneId with heq | ⟨_, _, _, heq⟩
    · rw [heq]
      exact h
    · rw [heq]
      exact h.closeById siteCloneId

/-- The sessions and waiters do not care about the starts and the timers. -/
theorem Keyed.congr {manager' : Manager} (h : Keyed manager)
    (hsessions : manager'.sessions.Sublist manager.sessions)
    (hwaits : manager'.waits = manager.waits) (hnext : manager'.nextSerial = manager.nextSerial) :
    Keyed manager' :=
  h.mono (hsessions.map _) (hsessions.map _)
    (fun session hmem ↦ ⟨session, hsessions.subset hmem, rfl, rfl⟩) hnext
    fun wait hwait ↦ ⟨wait, hwaits ▸ hwait, Wait.Goes.refl wait⟩

theorem start_spec (manager : Manager) (ownerId siteCloneId : String) (lost : Bool) :
    (manager.start ownerId siteCloneId lost = manager ∨
      (manager.start ownerId siteCloneId lost).sessions =
          (manager.owned ownerId siteCloneId lost).1.sessions ∧
        (manager.start ownerId siteCloneId lost).waits =
          (manager.owned ownerId siteCloneId lost).1.waits ∧
        (manager.start ownerId siteCloneId lost).timers =
          (manager.owned ownerId siteCloneId lost).1.timers ∧
        (manager.start ownerId siteCloneId lost).nextSerial =
          (manager.owned ownerId siteCloneId lost).1.nextSerial) := by
  unfold Manager.start
  cases manager.pending siteCloneId with
  | some _ => exact .inl rfl
  | none =>
    simp only
    split <;> exact .inr ⟨rfl, rfl, rfl, rfl⟩

/-- The start of an id gets a page when it has none: its session is a new one. -/
theorem Starts.opened_cases (h : Starts manager) (siteCloneId : String) :
    manager.opened siteCloneId = manager ∨
      ∃ ownerId, (∀ session ∈ manager.sessions, session.siteCloneId ≠ siteCloneId) ∧
        let session : Session :=
          { serial := manager.nextSerial, ownerId := ownerId, siteCloneId := siteCloneId
            expiresAt := manager.now + sessionTtlMillis }
        (manager.opened siteCloneId).sessions = manager.sessions ++ [session] ∧
          (manager.opened siteCloneId).waits = manager.waits ∧
          (manager.opened siteCloneId).timers = manager.timers ++
            [{ serial := session.serial, siteCloneId := siteCloneId, due := session.expiresAt }] ∧
          (manager.opened siteCloneId).nextSerial = manager.nextSerial + 1 := by
  unfold Manager.opened
  cases hpending : manager.pending siteCloneId with
  | none => exact .inl rfl
  | some pending =>
    simp only
    by_cases hphase : pending.phase ≠ .launching
    · exact .inl (if_pos hphase)
    rw [if_neg hphase]
    obtain ⟨hmem, hid⟩ := Manager.pending_eq_some hpending
    have hfree : ∀ session ∈ manager.sessions, session.siteCloneId ≠ siteCloneId := by
      rw [← hid]
      exact h.free pending hmem (not_not.1 hphase)
    have hget : manager.get siteCloneId = none := by
      refine List.find?_eq_none.2 fun session hsession ↦ ?_
      rw [beq_iff_eq]
      exact hfree session hsession
    refine .inr ⟨pending.ownerId, hfree, ?_, rfl, rfl, rfl⟩
    show (if (manager.get siteCloneId).isSome then _ else _) = _
    rw [hget]
    rfl

theorem Keyed.opened (h : Keyed manager) (hstarts : Starts manager) (siteCloneId : String) :
    Keyed (manager.opened siteCloneId) := by
  rcases hstarts.opened_cases siteCloneId with heq | ⟨ownerId, hfree, hsessions, hwaits, _, hnext⟩
  · rw [heq]
    exact h
  refine ⟨?_, ?_, ?_, ?_, ?_, ?_⟩
  · rw [hsessions]
    exact Table.nodup_map_concat h.ids hfree
  · rw [hsessions]
    exact Table.nodup_map_concat h.serials fun session hmem ↦ (h.lt session hmem).ne
  · rw [hsessions, hnext]
    intro session hmem
    rcases List.mem_append.1 hmem with hold | hnew
    · exact (h.lt session hold).trans (Nat.lt_succ_self _)
    · rw [List.mem_singleton.1 hnew]
      exact Nat.lt_succ_self _
  · rw [hwaits, hnext]
    exact fun wait hmem ↦ (h.waits_lt wait hmem).trans (Nat.lt_succ_self _)
  · rw [hwaits, hsessions]
    intro wait hwait session hmem hserial
    rcases List.mem_append.1 hmem with hold | hnew
    · exact h.owner wait hwait session hold hserial
    · rw [List.mem_singleton.1 hnew] at hserial
      exact absurd hserial (h.waits_lt wait hwait).ne'
  · intro wait hwait
    rw [hwaits] at hwait
    exact h.handles wait hwait

theorem Keyed.readied (h : Keyed manager) {session : Session} (hmem : session ∈ manager.sessions) :
    Keyed (manager.readied session) := by
  have hids : (manager.readied session).sessions.map Session.siteCloneId =
      manager.sessions.map Session.siteCloneId := Table.map_update _ fun _ _ _ ↦ rfl
  have hserials : (manager.readied session).sessions.map Session.serial =
      manager.sessions.map Session.serial := Table.map_update _ fun _ _ _ ↦ rfl
  refine h.mono (hids ▸ List.Sublist.refl _) (hserials ▸ List.Sublist.refl _) ?_ rfl ?_
  · intro other hother
    obtain ⟨original, horiginal, hserial, _, howner⟩ := mem_readied hother
    exact ⟨original, horiginal, hserial, howner⟩
  · refine goes_resolve fun handle hhandle wait hwait hsession ↦ ?_
    rw [← Option.some.inj hhandle]
    exact h.owner wait hwait session hmem hsession.symm

theorem Keyed.addWait (h : Keyed manager) {session : Session} (hmem : session ∈ manager.sessions)
    {wait : Wait} (hsession : wait.session = session.serial)
    (howner : wait.ownerId = session.ownerId)
    (hhandle : ∀ handle, wait.result = some (some handle) → handle.ownerId = session.ownerId) :
    Keyed { manager with waits := manager.waits ++ [wait] } := by
  refine ⟨h.ids, h.serials, h.lt, ?_, ?_, ?_⟩
  · intro other hother
    rcases List.mem_append.1 hother with hold | hnew
    · exact h.waits_lt other hold
    · rw [List.mem_singleton.1 hnew, hsession]
      exact h.lt session hmem
  · intro other hother found hfound hserial
    rcases List.mem_append.1 hother with hold | hnew
    · exact h.owner other hold found hfound hserial
    · obtain rfl := List.mem_singleton.1 hnew
      rw [Table.eq_of_key_eq h.serials hfound hmem (hserial.trans hsession), howner]
  · intro other hother handle hresult
    rcases List.mem_append.1 hother with hold | hnew
    · exact h.handles other hold handle hresult
    · obtain rfl := List.mem_singleton.1 hnew
      rw [howner]
      exact hhandle handle hresult

theorem goes_waitTimeout (waiter : ℕ) :
    ∀ wait' ∈ (manager.waitTimeout waiter).waits, ∃ wait ∈ manager.waits, wait.Goes wait' := by
  intro wait' hwait'
  obtain ⟨wait, hwait, rfl⟩ := Table.mem_update.1 hwait'
  refine ⟨wait, hwait, ?_⟩
  split
  · exact ⟨rfl, rfl, fun handle hhandle ↦ absurd hhandle (by simp)⟩
  · exact Wait.Goes.refl wait

theorem Keyed.step (h : Keyed manager) (hstarts : Starts manager) (event : Event) :
    Keyed (BrowserSession.step manager event) := by
  have howned := fun ownerId siteCloneId lost ↦
    owned_induction (P := Keyed) h h.closeById ownerId siteCloneId lost
  cases event with
  | tick millis => exact h.congr (List.Sublist.refl _) rfl rfl
  | start ownerId siteCloneId lost =>
    show Keyed (manager.start ownerId siteCloneId lost)
    rcases start_spec manager ownerId siteCloneId lost with heq | ⟨hsessions, hwaits, _, hnext⟩
    · rw [heq]
      exact h
    · exact (howned ownerId siteCloneId lost).congr (hsessions ▸ List.Sublist.refl _) hwaits hnext
  | opened siteCloneId => exact h.opened hstarts siteCloneId
  | navigated siteCloneId =>
    show Keyed (manager.navigated siteCloneId)
    unfold Manager.navigated
    repeat' split
    all_goals exact h.congr (List.Sublist.refl _) rfl rfl
  | failed siteCloneId =>
    show Keyed (manager.failed siteCloneId)
    unfold Manager.failed
    repeat' split
    all_goals exact h.congr (List.Sublist.refl _) rfl rfl
  | cleaned siteCloneId =>
    show Keyed (manager.cleaned siteCloneId)
    unfold Manager.cleaned
    repeat' split
    · exact h
    · exact h
    · exact h.congr List.filter_sublist rfl rfl
  | forget siteCloneId =>
    show Keyed (manager.forget siteCloneId)
    unfold Manager.forget
    repeat' split
    all_goals exact h.congr (List.Sublist.refl _) rfl rfl
  | status ownerId siteCloneId lost => exact howned ownerId siteCloneId lost
  | ready ownerId siteCloneId lost =>
    show Keyed (manager.ready ownerId siteCloneId lost)
    rcases ready_cases manager ownerId siteCloneId lost with heq | ⟨session, hmem, heq⟩
    · rw [heq]
      exact howned ownerId siteCloneId lost
    · rw [heq]
      exact h.readied hmem
  | waitForReady ownerId siteCloneId waiter timeoutMillis lost =>
    show Keyed (manager.waitForReady ownerId siteCloneId waiter timeoutMillis lost)
    rcases waitForReady_cases manager ownerId siteCloneId waiter timeoutMillis lost with
      heq | ⟨session, hmem, wait, hsession, howner, hhandle, heq⟩
    · rw [heq]
      exact howned ownerId siteCloneId lost
    · rw [heq]
      exact h.addWait hmem hsession howner hhandle
  | waitTimeout waiter =>
    exact h.mono (List.Sublist.refl _) (List.Sublist.refl _)
      (fun session hmem ↦ ⟨session, hmem, rfl, rfl⟩) rfl (goes_waitTimeout waiter)
  | close ownerId siteCloneId lost =>
    show Keyed (manager.close ownerId siteCloneId lost)
    rcases close_cases manager ownerId siteCloneId lost with heq | ⟨_, _, _, heq⟩
    · rw [heq]
      exact howned ownerId siteCloneId lost
    · rw [heq]
      exact h.closeById siteCloneId
  | closeAll => exact closeAll_induction h fun _ id hkeyed ↦ hkeyed.closeById id
  | fire serial =>
    show Keyed (manager.fire serial)
    rcases fire_cases manager serial with heq | ⟨timer, _, _, _, heq⟩
    · rw [heq]
      exact h
    · rw [heq]
      have hcleared : Keyed (manager.clearTimer serial) := h.congr (List.Sublist.refl _) rfl rfl
      exact hcleared.closeById timer.siteCloneId
  | disconnected serial siteCloneId =>
    show Keyed (manager.disconnected serial siteCloneId)
    rcases disconnected_cases manager serial siteCloneId with heq | ⟨_, _, _, heq⟩
    · rw [heq]
      exact h
    · rw [heq]
      exact h.closeById siteCloneId

/-! ### Timers and waiters in a clean run -/

/-- Timers and waiters do not care about the starts. -/
theorem Live.congr {manager' : Manager} (h : Live manager)
    (hsessions : manager'.sessions = manager.sessions) (hwaits : manager'.waits = manager.waits)
    (htimers : manager'.timers = manager.timers) : Live manager' := by
  refine ⟨?_, ?_⟩
  · rw [hsessions, htimers]
    exact h.timers
  · unfold NoStrayWaiter
    rw [hsessions, hwaits]
    exact h.waits

theorem Live.opened (h : Live manager) (hstarts : Starts manager) (siteCloneId : String) :
    Live (manager.opened siteCloneId) := by
  rcases hstarts.opened_cases siteCloneId with heq | ⟨ownerId, _, hsessions, hwaits, htimers, _⟩
  · rw [heq]
    exact h
  refine ⟨?_, ?_⟩
  · rw [hsessions, htimers]
    intro timer hmem
    rcases List.mem_append.1 hmem with hold | hnew
    · obtain ⟨session, hsession, hrest⟩ := h.timers timer hold
      exact ⟨session, List.mem_append_left _ hsession, hrest⟩
    · rw [List.mem_singleton.1 hnew]
      exact ⟨_, List.mem_append_right _ (List.mem_singleton_self _), rfl, rfl, rfl⟩
  · intro wait hwait hpending
    rw [hwaits] at hwait
    obtain ⟨session, hsession, hserial⟩ := h.waits wait hwait hpending
    rw [hsessions]
    exact ⟨session, List.mem_append_left _ hsession, hserial⟩

/-- Waiters that get results leave the others as they are. -/
theorem pending_of_update {sel : Wait → Bool} {result : Option Handle} {waits : List Wait}
    {wait' : Wait}
    (hmem : wait' ∈ Table.update sel (fun wait ↦ { wait with result := some result }) waits)
    (hpending : wait'.result = none) : wait' ∈ waits := by
  obtain ⟨wait, hwait, rfl⟩ := Table.mem_update.1 hmem
  split at hpending
  · exact absurd hpending (by simp)
  · next hselected =>
    rw [if_neg hselected]
    exact hwait

theorem Live.readied (h : Live manager) (session : Session) : Live (manager.readied session) := by
  refine ⟨fun timer htimer ↦ ?_, fun wait hwait hpending ↦ ?_⟩
  · obtain ⟨other, hother, hserial, hid, hexpires⟩ := h.timers timer htimer
    obtain ⟨later, hlater, hserial', hid', hexpires'⟩ := exists_mem_readied session hother
    exact ⟨later, hlater, hserial'.trans hserial, hid'.trans hid, hexpires'.trans hexpires⟩
  · obtain ⟨other, hother, hserial⟩ :=
      h.waits wait (pending_of_update hwait hpending) hpending
    obtain ⟨later, hlater, hserial', _⟩ := exists_mem_readied session hother
    exact ⟨later, hlater, hserial'.trans hserial⟩

theorem Live.addWait (h : Live manager) {session : Session} (hmem : session ∈ manager.sessions)
    {wait : Wait} (hsession : wait.session = session.serial) :
    Live { manager with waits := manager.waits ++ [wait] } := by
  refine ⟨h.timers, fun other hother hpending ↦ ?_⟩
  rcases List.mem_append.1 hother with hold | hnew
  · exact h.waits other hold hpending
  · rw [List.mem_singleton.1 hnew, hsession]
    exact ⟨session, hmem, rfl⟩

/-- A clean-up that finds no session removes none. -/
theorem cleaned_spec {siteCloneId : String}
    (hclean : CleanStep manager (.cleaned siteCloneId)) :
    (manager.cleaned siteCloneId).sessions = manager.sessions ∧
      (manager.cleaned siteCloneId).waits = manager.waits ∧
      (manager.cleaned siteCloneId).timers = manager.timers := by
  unfold Manager.cleaned
  cases hpending : manager.pending siteCloneId with
  | none => exact ⟨rfl, rfl, rfl⟩
  | some pending =>
    simp only
    by_cases hphase : pending.phase ≠ .failing
    · rw [if_pos hphase]
      exact ⟨rfl, rfl, rfl⟩
    rw [if_neg hphase]
    refine ⟨?_, rfl, rfl⟩
    have hget := hclean siteCloneId pending rfl hpending (not_not.1 hphase)
    exact List.filter_eq_self.2 fun session hmem ↦
      bne_iff_ne.2 (Manager.get_eq_none hget session hmem)

theorem Live.step (h : Live manager) (hstarts : Starts manager) (hkeyed : Keyed manager)
    {event : Event} (hclean : CleanStep manager event) :
    Live (BrowserSession.step manager event) := by
  have howned := fun ownerId siteCloneId lost ↦
    owned_induction (P := Live) h (h.closeById hkeyed) ownerId siteCloneId lost
  cases event with
  | tick millis => exact h.congr rfl rfl rfl
  | start ownerId siteCloneId lost =>
    show Live (manager.start ownerId siteCloneId lost)
    rcases start_spec manager ownerId siteCloneId lost with heq | ⟨hsessions, hwaits, htimers, _⟩
    · rw [heq]
      exact h
    · exact (howned ownerId siteCloneId lost).congr hsessions hwaits htimers
  | opened siteCloneId => exact h.opened hstarts siteCloneId
  | navigated siteCloneId =>
    show Live (manager.navigated siteCloneId)
    unfold Manager.navigated
    repeat' split
    all_goals exact h.congr rfl rfl rfl
  | failed siteCloneId =>
    show Live (manager.failed siteCloneId)
    unfold Manager.failed
    repeat' split
    all_goals exact h.congr rfl rfl rfl
  | cleaned siteCloneId =>
    obtain ⟨hsessions, hwaits, htimers⟩ := cleaned_spec hclean
    exact h.congr hsessions hwaits htimers
  | forget siteCloneId =>
    show Live (manager.forget siteCloneId)
    unfold Manager.forget
    repeat' split
    all_goals exact h.congr rfl rfl rfl
  | status ownerId siteCloneId lost => exact howned ownerId siteCloneId lost
  | ready ownerId siteCloneId lost =>
    show Live (manager.ready ownerId siteCloneId lost)
    rcases ready_cases manager ownerId siteCloneId lost with heq | ⟨session, _, heq⟩
    · rw [heq]
      exact howned ownerId siteCloneId lost
    · rw [heq]
      exact h.readied session
  | waitForReady ownerId siteCloneId waiter timeoutMillis lost =>
    show Live (manager.waitForReady ownerId siteCloneId waiter timeoutMillis lost)
    rcases waitForReady_cases manager ownerId siteCloneId waiter timeoutMillis lost with
      heq | ⟨session, hmem, wait, hsession, _, _, heq⟩
    · rw [heq]
      exact howned ownerId siteCloneId lost
    · rw [heq]
      exact h.addWait hmem hsession
  | waitTimeout waiter =>
    exact ⟨h.timers, fun wait hwait hpending ↦
      h.waits wait (pending_of_update hwait hpending) hpending⟩
  | close ownerId siteCloneId lost =>
    show Live (manager.close ownerId siteCloneId lost)
    rcases close_cases manager ownerId siteCloneId lost with heq | ⟨_, _, _, heq⟩
    · rw [heq]
      exact howned ownerId siteCloneId lost
    · rw [heq]
      exact h.closeById hkeyed siteCloneId
  | closeAll =>
    exact (closeAll_induction (P := fun manager ↦ Live manager ∧ Keyed manager) ⟨h, hkeyed⟩
      fun _ id hboth ↦ ⟨hboth.1.closeById hboth.2 id, hboth.2.closeById id⟩).1
  | fire serial =>
    show Live (manager.fire serial)
    rcases fire_cases manager serial with heq | ⟨timer, _, _, _, heq⟩
    · rw [heq]
      exact h
    · rw [heq]
      have hcleared : Live (manager.clearTimer serial) :=
        ⟨fun other hother ↦ h.timers other (List.mem_of_mem_filter hother), h.waits⟩
      exact hcleared.closeById (hkeyed.congr (List.Sublist.refl _) rfl rfl) timer.siteCloneId
  | disconnected serial siteCloneId =>
    show Live (manager.disconnected serial siteCloneId)
    rcases disconnected_cases manager serial siteCloneId with heq | ⟨_, _, _, heq⟩
    · rw [heq]
      exact h
    · rw [heq]
      exact h.closeById hkeyed siteCloneId

end WebLens.BrowserSession
