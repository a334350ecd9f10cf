import WebLens.BrowserSession.Invariants

/-!
# The lives of browser sessions

There are never more sessions, with those being started, than the manager allows, and only the owner
of a session is ever handed it. A session goes only by its own timer or expiry, by its owner or
`closeAll`, or with its browser or pages, and takes its waiters along, in every run in which no
failed start finds its session still stored when it has cleaned up.

Such a start removes the session by its id and leaves the timer and the waiters: the waiters stay
pending, and the timer closes the next session of the id.
-/

set_option autoImplicit false
set_option relaxedAutoImplicit false

namespace WebLens.BrowserSession

open Lib

/-! ### A life of one's own -/

/-- The reasons for which an event may remove a session. -/
def Cause (manager : Manager) (session : Session) : Event → Prop
  | .fire serial => session.serial = serial ∧ session.expiresAt ≤ manager.now
  | .disconnected serial _ => session.serial = serial
  | .closeAll => True
  | .close ownerId siteCloneId _ =>
    session.ownerId = ownerId ∧ session.siteCloneId = siteCloneId
  | .start ownerId siteCloneId lost => FindsEnded manager session ownerId siteCloneId lost
  | .status ownerId siteCloneId lost => FindsEnded manager session ownerId siteCloneId lost
  | .ready ownerId siteCloneId lost => FindsEnded manager session ownerId siteCloneId lost
  | .waitForReady ownerId siteCloneId _ _ lost =>
    FindsEnded manager session ownerId siteCloneId lost
  | _ => False

/-- The start of a session has returned. -/
def Manager.IsStarted (manager : Manager) (session : Session) : Prop :=
  ∀ pending ∈ manager.pendingStarts, pending.siteCloneId = session.siteCloneId →
    pending.phase = .settled

/-- An event removes started sessions only for one of the reasons. -/
def KeepsSessions (manager : Manager) (event : Event) : Prop :=
  ∀ session ∈ manager.sessions, manager.IsStarted session →
    (∃ other ∈ (step manager event).sessions, other.serial = session.serial) ∨
      Cause manager session event

/-- The sessions live their own life in a run. -/
def LiveTheirOwnLife (events : List Event) : Prop :=
  ∀ past event future, events = past ++ event :: future →
    (after (past ++ [event])).present.card ≤ maxSessions ∧
      KeepsSessions (after past) event ∧
      OwnersOnly (after (past ++ [event])) ∧ NoStrayWaiter (after (past ++ [event]))

/-- No failed start of a run finds its session still stored. -/
def CleanRun (events : List Event) : Prop :=
  ∀ past event future, events = past ++ event :: future → CleanStep (after past) event

variable {manager : Manager}

/-! ### Why sessions go -/

/-- Closing an id removes the session that it leads to. -/
theorem Keyed.kept_closeById (h : Keyed manager) {siteCloneId : String} {closed : Session}
    (hget : manager.get siteCloneId = some closed) {session : Session}
    (hmem : session ∈ manager.sessions) :
    session ∈ (manager.closeById siteCloneId).sessions ∨ session = closed := by
  by_cases hid : session.siteCloneId = siteCloneId
  · rw [← hid, h.get_eq hmem] at hget
    exact .inr (Option.some.inj hget)
  · exact .inl (mem_sessions_closeById.2 ⟨hmem, hid⟩)

/-- A clean event removes a session only for one of the reasons. -/
theorem kept_step (hstarts : Starts manager) (hkeyed : Keyed manager) (hlive : Live manager)
    {event : Event} (hclean : CleanStep manager event) {session : Session}
    (hmem : session ∈ manager.sessions) :
    (∃ other ∈ (step manager event).sessions, other.serial = session.serial) ∨
      Cause manager session event := by
  have hkept : ∀ {manager' : Manager}, session ∈ manager'.sessions →
      ∃ other ∈ manager'.sessions, other.serial = session.serial :=
    fun h ↦ ⟨session, h, rfl⟩
  have howned := fun ownerId siteCloneId lost ↦
    hkeyed.kept_owned ownerId siteCloneId lost hmem
  cases event with
  | tick millis => exact .inl (hkept hmem)
  | start ownerId siteCloneId lost =>
    rcases start_spec manager ownerId siteCloneId lost with heq | ⟨hsessions, _⟩
    · refine .inl (hkept ?_)
      show session ∈ (manager.start ownerId siteCloneId lost).sessions
      rw [heq]
      exact hmem
    · refine (howned ownerId siteCloneId lost).imp_left fun h ↦ hkept ?_
      show session ∈ (manager.start ownerId siteCloneId lost).sessions
      rw [hsessions]
      exact h
  | opened siteCloneId =>
    refine .inl (hkept ?_)
    show session ∈ (manager.opened siteCloneId).sessions
    rcases hstarts.opened_cases siteCloneId with heq | ⟨_, _, hsessions, _⟩
    · rw [heq]
      exact hmem
    · rw [hsessions]
      exact List.mem_append_left _ hmem
  | navigated siteCloneId =>
    refine .inl (hkept ?_)
    show session ∈ (manager.navigated siteCloneId).sessions
    unfold Manager.navigated
    repeat' split
    all_goals exact hmem
  | failed siteCloneId =>
    refine .inl (hkept ?_)
    show session ∈ (manager.failed siteCloneId).sessions
    unfold Manager.failed
    repeat' split
    all_goals exact hmem
  | cleaned siteCloneId =>
    refine .inl (hkept ?_)
    show session ∈ (manager.cleaned siteCloneId).sessions
    rw [(cleaned_spec hclean).1]
    exact hmem
  | forget siteCloneId =>
    refine .inl (hkept ?_)
    show session ∈ (manager.forget siteCloneId).sessions
    unfold Manager.forget
    repeat' split
    all_goals exact hmem
  | status ownerId siteCloneId lost =>
    exact (howned ownerId siteCloneId lost).imp_left hkept
  | ready ownerId siteCloneId lost =>
    show (∃ other ∈ (manager.ready ownerId siteCloneId lost).sessions, _) ∨ _
    rcases ready_cases manager ownerId siteCloneId lost with heq | ⟨found, _, heq⟩
    · rw [heq]
      exact (howned ownerId siteCloneId lost).imp_left hkept
    · rw [heq]
      obtain ⟨later, hlater, hserial, _⟩ := exists_mem_readied found hmem
      exact .inl ⟨later, hlater, hserial⟩
  | waitForReady ownerId siteCloneId waiter timeoutMillis lost =>
    show (∃ other ∈ (manager.waitForReady ownerId siteCloneId waiter timeoutMillis lost).sessions,
      _) ∨ _
    rcases waitForReady_cases manager ownerId siteCloneId waiter timeoutMillis lost with
      heq | ⟨_, _, _, _, _, _, heq⟩
    · rw [heq]
      exact (howned ownerId siteCloneId lost).imp_left hkept
    · rw [heq]
      exact .inl (hkept hmem)
  | waitTimeout waiter => exact .inl (hkept hmem)
  | close ownerId siteCloneId lost =>
    show (∃ other ∈ (manager.close ownerId siteCloneId lost).sessions, _) ∨ _
    rcases close_cases manager ownerId siteCloneId lost with heq | ⟨closed, hget, howner, heq⟩
    · rw [heq]
      exact (howned ownerId siteCloneId lost).imp hkept fun hends ↦ ⟨hends.1, hends.2.1⟩
    · rw [heq]
      refine (hkeyed.kept_closeById hget hmem).imp hkept ?_
      rintro rfl
      exact ⟨howner, (Manager.get_eq_some hget).2⟩
  | closeAll => exact .inr trivial
  | fire serial =>
    show (∃ other ∈ (manager.fire serial).sessions, _) ∨ _
    rcases fire_cases manager serial with heq | ⟨timer, htimer, hserial, hdue, heq⟩
    · rw [heq]
      exact .inl (hkept hmem)
    · rw [heq]
      -- The timer belongs to a session that is there, so that one is closed.
      obtain ⟨own, hown, hserial', hid, hexpires⟩ := hlive.timers timer htimer
      have hcleared : Keyed (manager.clearTimer serial) :=
        hkeyed.congr (List.Sublist.refl _) rfl rfl
      have hget : (manager.clearTimer serial).get timer.siteCloneId = some own := by
        rw [← hid]
        exact hcleared.get_eq hown
      refine (hcleared.kept_closeById hget hmem).imp hkept ?_
      rintro rfl
      exact ⟨hserial'.trans hserial, hexpires.trans_le hdue⟩
  | disconnected serial siteCloneId =>
    show (∃ other ∈ (manager.disconnected serial siteCloneId).sessions, _) ∨ _
    rcases disconnected_cases manager serial siteCloneId with heq | ⟨closed, hget, hserial, heq⟩
    · rw [heq]
      exact .inl (hkept hmem)
    · rw [heq]
      refine (hkeyed.kept_closeById hget hmem).imp hkept ?_
      rintro rfl
      exact hserial

/-! ### Runs -/

theorem starts_initial : Starts {} :=
  ⟨List.nodup_nil, rfl, fun _ h ↦ absurd h List.not_mem_nil, Nat.zero_le _⟩

theorem keyed_initial : Keyed {} :=
  ⟨List.nodup_nil, List.nodup_nil, fun _ h ↦ absurd h List.not_mem_nil,
    fun _ h ↦ absurd h List.not_mem_nil, fun _ h ↦ absurd h List.not_mem_nil,
    fun _ h ↦ absurd h List.not_mem_nil⟩

theorem live_initial : Live {} :=
  ⟨fun _ h ↦ absurd h List.not_mem_nil, fun _ h ↦ absurd h List.not_mem_nil⟩

/-- In every run, clean or not, the starts and the sessions are as they should be. -/
theorem starts_keyed_after (events : List Event) : Starts (after events) ∧ Keyed (after events) :=
  run_invariant (P := fun manager ↦ Starts manager ∧ Keyed manager)
    (fun _ event h ↦ ⟨h.1.step event, h.2.step h.1 event⟩) ⟨starts_initial, keyed_initial⟩ events

/-- In every run there is room for the sessions, and only owners get handles. -/
theorem bounded_owned_after (events : List Event) :
    (after events).present.card ≤ maxSessions ∧ OwnersOnly (after events) :=
  ⟨(starts_keyed_after events).1.bounded, (starts_keyed_after events).2.handles⟩

theorem live_after {events : List Event} (h : CleanRun events) : Live (after events) := by
  induction events using List.reverseRecOn with
  | nil => exact live_initial
  | append_singleton events event ih =>
    have hbefore : CleanRun events := fun past event' future heq ↦
      h past event' (future ++ [event]) (by rw [heq, List.append_assoc, List.cons_append])
    obtain ⟨hstarts, hkeyed⟩ := starts_keyed_after events
    have hstep : after (events ++ [event]) = step (after events) event :=
      run_concat step {} events event
    rw [hstep]
    exact (ih hbefore).step hstarts hkeyed (h events event [] rfl)

/-- In a run without a failed start that finds its session still stored, the sessions live their
own life. -/
theorem live_their_own_life (events : List Event) (h : CleanRun events) :
    LiveTheirOwnLife events := by
  rintro past event future rfl
  have hinitial : ∀ first second : List Event, CleanRun (first ++ second) → CleanRun first := by
    intro first second hclean past' event' future' heq
    exact hclean past' event' (future' ++ second)
      (by rw [heq, List.append_assoc, List.cons_append])
  have hconcat : CleanRun (past ++ [event]) := by
    refine hinitial _ future ?_
    rw [List.append_assoc]
    exact h
  obtain ⟨hbounded, howners⟩ := bounded_owned_after (past ++ [event])
  obtain ⟨hstarts, hkeyed⟩ := starts_keyed_after past
  refine ⟨hbounded, fun session hmem _ ↦ ?_, howners, (live_after hconcat).waits⟩
  exact kept_step hstarts hkeyed (live_after (hinitial _ _ h)) (h past event future rfl) hmem

/-! ### A failed start -/

theorem cleanRun_nil : CleanRun [] :=
  fun _ _ _ h ↦ absurd h (by simp)

theorem cleanRun_concat {events : List Event} {event : Event} (h : CleanRun events)
    (hclean : CleanStep (after events) event) : CleanRun (events ++ [event]) := by
  intro past other future heq
  rcases List.eq_nil_or_concat future with rfl | ⟨rest, last, rfl⟩
  · obtain ⟨rfl, hlast⟩ := List.append_inj' heq rfl
    rw [← List.singleton_inj.1 hlast]
    exact hclean
  · rw [List.concat_eq_append, ← List.cons_append, ← List.append_assoc] at heq
    obtain ⟨hevents, _⟩ := List.append_inj' heq rfl
    exact h past other rest hevents

/-- Only the end of a clean-up can be unclean. -/
theorem cleanStep_of_ne {event : Event} (h : ∀ siteCloneId, event ≠ .cleaned siteCloneId) :
    CleanStep manager event :=
  fun siteCloneId _ heq _ _ ↦ absurd heq (h siteCloneId)

/-- A start whose page cannot be reached, and whose browser reports that it is gone before the
clean-up is over. -/
def failedRun : List Event :=
  [.start "ada" "clone" false, .opened "clone", .waitForReady "ada" "clone" 7 60000 false,
    .failed "clone", .disconnected 0 "clone"] ++ [.cleaned "clone"]

theorem live_their_own_life_failedRun : LiveTheirOwnLife failedRun := by
  refine live_their_own_life failedRun (cleanRun_concat ?_ ?_)
  · have hne : ∀ event ∈ [Event.start "ada" "clone" false, .opened "clone",
        .waitForReady "ada" "clone" 7 60000 false, .failed "clone", .disconnected 0 "clone"],
        ∀ siteCloneId, event ≠ .cleaned siteCloneId := by
      simp
    exact fun past event future heq ↦ cleanStep_of_ne
      (hne event (heq ▸ List.mem_append_right _ List.mem_cons_self))
  · intro siteCloneId _ heq _ _
    rw [← Event.cleaned.inj heq]
    decide +kernel

/-- The browser does not report it: the clean-up removes the session, and leaves its waiter and its
timer. -/
def staleRun : List Event :=
  [.start "ada" "clone" false, .opened "clone", .waitForReady "ada" "clone" 7 60000 false,
    .failed "clone", .cleaned "clone", .forget "clone", .tick 1000, .start "ada" "clone" false,
    .opened "clone", .navigated "clone", .forget "clone", .tick 599000]

/-- The waiter stays pending, and the timer closes the next session of the id before its time. -/
theorem stale_timer_closes_successor :
    ¬ NoStrayWaiter (after (staleRun.take 5)) ∧ ¬ KeepsSessions (after staleRun) (.fire 0) ∧
      ¬ LiveTheirOwnLife (staleRun ++ [.fire 0]) := by
  have hsessions : (after staleRun).sessions =
      [{ serial := 1, ownerId := "ada", siteCloneId := "clone", expiresAt := 601000 }] := by
    decide +kernel
  have hnone : (step (after staleRun) (.fire 0)).sessions = [] := by decide +kernel
  have hpending : (after staleRun).pendingStarts = [] := by decide +kernel
  have hremoved : ¬ KeepsSessions (after staleRun) (.fire 0) := by
    intro hkeeps
    rcases hkeeps _ (hsessions ▸ List.mem_cons_self) (fun pending hmem _ ↦ (by
        rw [hpending] at hmem
        exact absurd hmem List.not_mem_nil)) with ⟨other, hother, _⟩ | hcause
    · rw [hnone] at hother
      exact absurd hother List.not_mem_nil
    · exact absurd hcause.1 (by decide)
  refine ⟨?_, hremoved, fun hlive ↦ hremoved (hlive staleRun (.fire 0) [] rfl).2.1⟩
  have hstray : (after (staleRun.take 5)).sessions = [] := by decide +kernel
  have hwait : (after (staleRun.take 5)).waits =
      [{ waiter := 7, ownerId := "ada", session := 0, due := 60000, result := none }] := by
    decide +kernel
  intro hwaits
  obtain ⟨session, hsession, _⟩ := hwaits _ (hwait ▸ List.mem_cons_self) rfl
  rw [hstray] at hsession
  exact absurd hsession List.not_mem_nil

end WebLens.BrowserSession
