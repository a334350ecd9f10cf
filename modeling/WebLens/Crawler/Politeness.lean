import WebLens.Crawler.Fencing
import WebLens.Crawler.Sample
import WebLens.Lib.Leases

/-!
# Host politeness

A claim leases a page and a slot of its host to the same fresh owner. The two leases stay paired:
they are extended together, and dropped together unless they have expired. So a host is never
fetched by more workers than it has slots, and the slots keep successive claims apart by the
configured delay.
-/

set_option autoImplicit false
set_option relaxedAutoImplicit false

namespace WebLens.Crawler

open Lib Lib.Transaction

variable {env : Env} {s s' : Store} {now : Instant}

/-! ### Leases of pages and slots -/

/-- The lease of a page. -/
def pageLeasing : Leasing Page Uuid Instant :=
  ⟨Page.leaseOwner, Page.leaseExpiresAt⟩

/-- The lease of a host slot. -/
def hostLeasing : Leasing HostLease Uuid Instant :=
  ⟨HostLease.leaseOwner, HostLease.leaseExpiresAt⟩

/-- The page is one of the host. -/
def OfHost (page : Page) (host : HostLease) : Prop :=
  host.hostname = page.hostname

/-- The leases of pages and host slots that have not expired at `now` are paired. -/
def LeasesPaired (now : Instant) (s : Store) : Prop :=
  Paired pageLeasing hostLeasing OfHost now s.pages s.hostLeases

/-- The slot is numbered from one, and held only by a known owner and among the configured ones. -/
def HostLease.Sound (env : Env) (next : Uuid) (host : HostLease) : Prop :=
  1 ≤ host.slotNo ∧ ∀ owner, host.leaseOwner = some owner →
    host.slotNo ≤ env.hostConcurrency ∧ owner < next

/-- The page is held only by a known owner. -/
def Page.Sound (next : Uuid) (page : Page) : Prop :=
  ∀ owner, page.leaseOwner = some owner → owner < next

/-- Slots and pages are held by known owners only, slots only among the configured ones. -/
structure Slotted (env : Env) (s : Store) : Prop where
  hosts : ∀ host ∈ s.hostLeases, host.Sound env s.nextUuid
  pages : ∀ page ∈ s.pages, page.Sound s.nextUuid

/-- A lease is live exactly when it has not expired. -/
theorem live_iff {α : Type} {a : Leasing α Uuid Instant} {row : α} :
    a.Live now row ↔ expiredAt (a.expiry row) now = false := by
  unfold Leasing.Live expiredAt
  cases h : a.expiry row with
  | none => simp
  | some expiry => simp

/-- A lease that had expired at an earlier reading is not live. -/
theorem not_live {α : Type} {a : Leasing α Uuid Instant} {row : α} {reading : Instant}
    (h : expiredAt (a.expiry row) reading = true) (hle : reading ≤ now) : ¬ a.Live now row := by
  intro hlive
  unfold expiredAt at h
  split at h
  · next expiry heq =>
    have := hlive expiry heq
    exact absurd (of_decide_eq_true h) (not_le.2 (lt_of_le_of_lt hle this))
  · cases h

/-- Only leased pages have an owner. -/
theorem Page.WellFormed.owner_iff {page : Page} (h : page.WellFormed) :
    page.leaseOwner ≠ none ↔ page.status = .leased := by
  have howner := h.owner
  rw [← Option.isSome_iff_ne_none, howner, decide_eq_true_eq]

/-! ### Steps that drop leases -/

/-- An update that only takes leases away keeps the rows that still have one. -/
theorem mem_of_update_owner {α : Type} (a : Leasing α Uuid Instant) {sel : α → Bool} {set : α → α}
    {rows added : List α} (hset : ∀ row ∈ rows, sel row = true → a.owner (set row) = none)
    (hadded : ∀ row ∈ added, a.owner row = none) :
    ∀ row ∈ Table.update sel set rows ++ added, a.owner row ≠ none → row ∈ rows ∧ sel row ≠ true := by
  intro row' hrow' howner
  rcases List.mem_append.1 hrow' with hrow' | hrow'
  · obtain ⟨row, hrow, rfl⟩ := Table.mem_update.1 hrow'
    by_cases hsel : sel row = true
    · rw [if_pos hsel] at howner
      exact absurd (hset row hrow hsel) howner
    · rw [if_neg hsel]
      exact ⟨hrow, hsel⟩
  · exact absurd (hadded row' hrow') howner

/-- A row with an owner survives such an update exactly when it is not selected. -/
theorem mem_update_iff_of_owner {α : Type} (a : Leasing α Uuid Instant) {sel : α → Bool}
    {set : α → α} {rows added : List α}
    (hset : ∀ row ∈ rows, sel row = true → a.owner (set row) = none)
    (hadded : ∀ row ∈ added, a.owner row = none) {row : α} (hrow : row ∈ rows)
    (howner : a.owner row ≠ none) :
    row ∈ Table.update sel set rows ++ added ↔ sel row ≠ true := by
  constructor
  · exact fun h ↦ (mem_of_update_owner a hset hadded row h howner).2
  · exact fun h ↦ List.mem_append_left _ (Table.mem_update_of_not hrow (Bool.not_eq_true _ ▸ h))

/-- Pages and slots may lose their leases when live pairs lose them together. -/
theorem LeasesPaired.update (h : LeasesPaired now s) (selPage : Page → Bool) (setPage : Page → Page)
    (selHost : HostLease → Bool) (setHost : HostLease → HostLease) {added : List Page}
    {addedHosts : List HostLease}
    (hpages : s'.pages = Table.update selPage setPage s.pages ++ added)
    (hhosts : s'.hostLeases = Table.update selHost setHost s.hostLeases ++ addedHosts)
    (hsetPage : ∀ page ∈ s.pages, selPage page = true → (setPage page).leaseOwner = none)
    (hsetHost : ∀ host ∈ s.hostLeases, selHost host = true → (setHost host).leaseOwner = none)
    (hadded : ∀ page ∈ added, page.leaseOwner = none)
    (haddedHosts : ∀ host ∈ addedHosts, host.leaseOwner = none)
    (hmatch : ∀ page ∈ s.pages, ∀ host ∈ s.hostLeases, ∀ owner, page.leaseOwner = some owner →
      host.leaseOwner = some owner → pageLeasing.Live now page →
      (selPage page = true ↔ selHost host = true)) : LeasesPaired now s' := by
  rw [LeasesPaired, hpages, hhosts]
  refine Paired.drop h
    (fun page hpage howner ↦ (mem_of_update_owner pageLeasing hsetPage hadded page hpage
      howner).1)
    (fun host hhost howner ↦ (mem_of_update_owner hostLeasing hsetHost haddedHosts host hhost
      howner).1) ?_
  intro page hpage host hhost owner ho ho' hlive
  rw [mem_update_iff_of_owner pageLeasing hsetPage hadded hpage (by simp [ho]),
    mem_update_iff_of_owner hostLeasing hsetHost haddedHosts hhost (by simp [ho'])]
  exact not_congr (hmatch page hpage host hhost owner ho ho' hlive)

/-- A released slot is sound. -/
theorem HostLease.Sound.release {next : Uuid} {host : HostLease} (h : host.Sound env next) :
    host.release.Sound env next :=
  ⟨h.1, fun _ ho ↦ by cases ho⟩

theorem HostLease.Sound.mono {next next' : Uuid} {host : HostLease} (h : host.Sound env next)
    (hle : next ≤ next') : host.Sound env next' :=
  ⟨h.1, fun owner ho ↦ ⟨(h.2 owner ho).1, (h.2 owner ho).2.trans_le hle⟩⟩

theorem Page.Sound.mono {next next' : Uuid} {page : Page} (h : page.Sound next)
    (hle : next ≤ next') : page.Sound next' :=
  fun owner ho ↦ (h owner ho).trans_le hle

/-- A page without an owner is sound. -/
theorem Page.sound_of_none {next : Uuid} {page : Page} (h : page.leaseOwner = none) :
    page.Sound next :=
  fun owner ho ↦ by
    rw [h] at ho
    cases ho

/-- Soundness of the rows after leases were dropped. -/
theorem Slotted.drop (h : Slotted env s) {selPage : Page → Bool} {setPage : Page → Page}
    {added : List Page} {selHost : HostLease → Bool}
    (hpages : s'.pages = Table.update selPage setPage s.pages ++ added)
    (hhosts : s'.hostLeases = Table.update selHost HostLease.release s.hostLeases)
    (hle : s.nextUuid ≤ s'.nextUuid)
    (hsetPage : ∀ page ∈ s.pages, selPage page = true → (setPage page).leaseOwner = none)
    (hadded : ∀ page ∈ added, page.leaseOwner = none) : Slotted env s' where
  hosts := by
    rw [hhosts]
    exact Table.forall_update (fun host hhost ↦ (h.hosts host hhost).mono hle)
      fun host hhost _ ↦ ((h.hosts host hhost).mono hle).release
  pages := by
    rw [hpages]
    intro page hpage
    rcases List.mem_append.1 hpage with hpage | hpage
    · exact Table.forall_update (fun page hpage ↦ (h.pages page hpage).mono hle)
        (fun page hpage hsel ↦ Page.sound_of_none (hsetPage page hpage hsel)) page hpage
    · exact Page.sound_of_none (hadded page hpage)

/-- Sound slots and paired leases. -/
structure Polite (env : Env) (now : Instant) (s : Store) : Prop where
  slotted : Slotted env s
  paired : LeasesPaired now s

theorem Polite.congr (h : Polite env now s) (hpages : s'.pages = s.pages)
    (hhosts : s'.hostLeases = s.hostLeases) (hle : s.nextUuid ≤ s'.nextUuid) :
    Polite env now s' where
  slotted := ⟨fun host hhost ↦ (h.slotted.hosts host (hhosts ▸ hhost)).mono hle,
    fun page hpage ↦ (h.slotted.pages page (hpages ▸ hpage)).mono hle⟩
  paired := by
    rw [LeasesPaired, hpages, hhosts]
    exact h.paired

/-- Pages and slots may be released when live pairs are released together. -/
theorem Polite.drop (h : Polite env now s) (selPage : Page → Bool) (setPage : Page → Page)
    (selHost : HostLease → Bool) {added : List Page}
    (hpages : s'.pages = Table.update selPage setPage s.pages ++ added)
    (hhosts : s'.hostLeases = Table.update selHost HostLease.release s.hostLeases)
    (hle : s.nextUuid ≤ s'.nextUuid)
    (hsetPage : ∀ page ∈ s.pages, selPage page = true → (setPage page).leaseOwner = none)
    (hadded : ∀ page ∈ added, page.leaseOwner = none)
    (hmatch : ∀ page ∈ s.pages, ∀ host ∈ s.hostLeases, ∀ owner, page.leaseOwner = some owner →
      host.leaseOwner = some owner → pageLeasing.Live now page →
      (selPage page = true ↔ selHost host = true)) : Polite env now s' :=
  ⟨h.slotted.drop hpages hhosts hle hsetPage hadded,
    h.paired.update selPage setPage selHost HostLease.release hpages
      (hhosts.trans (List.append_nil _).symm) hsetPage (fun _ _ _ ↦ rfl) hadded (by simp) hmatch⟩

/-! ### Transitions -/

/-- A started execution brings a page and slots that nobody holds. -/
theorem Polite.started (h : Polite env now s) {startedAt receivedAt : Instant}
    {envelope : ScanCommandEnvelope} {url : Utf8.ByteString} :
    Polite env now (s.started env startedAt receivedAt envelope url) := by
  have hslots : ∀ host ∈ missingSlots env (env.lowerCase envelope.payload.targetHostname) startedAt
      s.hostLeases, 1 ≤ host.slotNo ∧ host.leaseOwner = none := by
    intro host hhost
    obtain ⟨index, -, rfl⟩ := List.mem_map.1 (List.mem_of_mem_filter hhost)
    exact ⟨Nat.le_add_left 1 index, rfl⟩
  have hle : s.nextUuid ≤ (s.started env startedAt receivedAt envelope url).nextUuid :=
    Nat.le_add_right _ _
  refine ⟨⟨fun host hhost ↦ ?_, fun page hpage ↦ ?_⟩, h.paired.update
    (fun _ ↦ false) id (fun _ ↦ false) id
    (by rw [Table.update_eq_self fun _ _ ↦ rfl]; rfl)
    (by rw [Table.update_eq_self fun _ _ ↦ rfl]; rfl) (by simp) (by simp)
    (fun page hpage ↦ ?_) (fun host hhost ↦ (hslots host hhost).2) (by simp)⟩
  · rcases List.mem_append.1 hhost with hhost | hhost
    · exact (h.slotted.hosts host hhost).mono hle
    · refine ⟨(hslots host hhost).1, fun owner ho ↦ ?_⟩
      rw [(hslots host hhost).2] at ho
      cases ho
  · rcases List.mem_append.1 hpage with hpage | hpage
    · exact (h.slotted.pages page hpage).mono hle
    · rw [List.mem_singleton.1 hpage]
      exact Page.sound_of_none rfl
  · rw [List.mem_singleton.1 hpage]
    rfl

/-- An unexpired host slot of a cancelled page is released with it. -/
theorem Polite.cancelled (h : Polite env now s) (hpages : ∀ page ∈ s.pages, page.WellFormed)
    (version : ℤ) (cancelledAt : Instant) (e : Execution) :
    Polite env now (s.cancelled version cancelledAt e) := by
  refine h.drop (Page.isCancellable e.id) Page.cancel
    (HostLease.isHeldBy (s.pages.filter (Page.isCancellable e.id))) (List.append_nil _).symm rfl
    (le_refl _) (fun _ _ _ ↦ rfl) (by simp) fun page hpage host hhost owner ho ho' _ ↦ ?_
  have hleased := ((hpages page hpage).owner_iff).1 (by simp [ho])
  simp only [HostLease.isHeldBy, List.any_eq_true, List.mem_filter, Bool.and_eq_true,
    decide_eq_true_eq]
  constructor
  · intro hcancellable
    have hhostname := (h.paired.agree page hpage host hhost owner ho ho').2
    exact ⟨page, ⟨hpage, hcancellable⟩, ⟨⟨hleased, hhostname⟩, by simp [ho']⟩, ho'.trans ho.symm⟩
  · rintro ⟨other, ⟨hother, hcancellable⟩, -, howner⟩
    rw [h.paired.left page hpage other hother owner ho (howner.symm.trans ho')]
    exact hcancellable

/-- The page of a lease and the slot of the lease are selected together. -/
theorem Polite.hasKey_iff (h : Polite env now s) (hkeyed : Keyed s) {lease : PageLease}
    {leased : Page} (hmem : leased ∈ s.pages) (hleased : leased.isLeasedUnder lease = true)
    (hhost : s.hostLeases.countP (HostLease.isLeasedUnder lease) = 1) :
    ∀ page ∈ s.pages, ∀ host ∈ s.hostLeases, ∀ owner, page.leaseOwner = some owner →
      host.leaseOwner = some owner →
      (page.hasKey lease.retentionMonth lease.pageId = true ↔ host.isLeasedUnder lease = true) := by
  obtain ⟨slot, hslot, hslotted⟩ := List.countP_pos_iff.1 (hhost ▸ Nat.zero_lt_one)
  obtain ⟨hmonth, hid, -, howner, -⟩ := isLeasedUnder_iff.1 hleased
  have hslotOwner := (host_isLeasedUnder_iff.1 hslotted).2.2.1
  have hkey : leased.hasKey lease.retentionMonth lease.pageId = true := by
    simp [Page.hasKey, hmonth, hid]
  intro page hpage host hhost owner ho ho'
  constructor
  · intro hsel
    rw [(hasKey_iff_of_keyed hkeyed hmem hkey page hpage).1 hsel, howner] at ho
    rw [h.paired.right host hhost slot hslot owner ho' (hslotOwner.trans ho)]
    exact hslotted
  · intro hsel
    have hlease := (host_isLeasedUnder_iff.1 hsel).2.2.1
    rw [h.paired.left page hpage leased hmem owner ho (howner.trans (hlease.symm.trans ho'))]
    exact hkey

/-- A requeued page gives back its slot. -/
theorem Polite.requeued (h : Polite env now s) (hkeyed : Keyed s) {lease : PageLease}
    {leased : Page} (hmem : leased ∈ s.pages) (hleased : leased.isLeasedUnder lease = true)
    (hhost : s.hostLeases.countP (HostLease.isLeasedUnder lease) = 1) (requeuedAt : Instant)
    (attemptCount : ℕ) : Polite env now (s.requeued requeuedAt lease attemptCount) :=
  h.drop (Page.hasKey lease.retentionMonth lease.pageId)
    (Page.requeue (requeuedAt + pageRetryDelay attemptCount lease.pageId))
    (HostLease.isLeasedUnder lease) (List.append_nil _).symm rfl (le_refl _) (fun _ _ _ ↦ rfl)
    (by simp) fun page hpage host hhost' owner ho ho' _ ↦
      h.hasKey_iff hkeyed hmem hleased hhost page hpage host hhost' owner ho ho'

/-- A page with its result gives back its slot. -/
theorem Polite.staged (h : Polite env now s) (hkeyed : Keyed s) {lease : PageLease}
    {leased : Page} (hmem : leased ∈ s.pages) (hleased : leased.isLeasedUnder lease = true)
    (hhost : s.hostLeases.countP (HostLease.isLeasedUnder lease) = 1) {stagedAt : Instant}
    {result : PageResult} {resultVersion : ℕ} {payload : Utf8.ByteString} {added : List Page}
    {outboxId : Uuid} (hadded : Discovered lease stagedAt s.nextUuid outboxId added) :
    Polite env now (s.staged env stagedAt lease result resultVersion payload added outboxId) := by
  refine h.drop (Page.hasKey lease.retentionMonth lease.pageId) (Page.stage result.terminalStatus)
    (HostLease.isLeasedUnder lease) rfl rfl (hadded.le.trans (Nat.le_succ _)) (fun _ _ _ ↦ rfl)
    (fun page hpage ↦ ?_) fun page hpage host hhost' owner ho ho' _ ↦
      h.hasKey_iff hkeyed hmem hleased hhost page hpage host hhost' owner ho ho'
  obtain ⟨url, hshape⟩ := hadded.shape page hpage
  rw [hshape]
  rfl

/-- A page that ends without a lease takes none away. -/
theorem Polite.unleased (h : Polite env now s) {selPage : Page → Bool} {setPage : Page → Page}
    (hpages : s'.pages = Table.update selPage setPage s.pages)
    (hhosts : s'.hostLeases = s.hostLeases) (hle : s.nextUuid ≤ s'.nextUuid)
    (hsel : ∀ page ∈ s.pages, selPage page = true → page.leaseOwner = none)
    (hset : ∀ page, (setPage page).leaseOwner = page.leaseOwner) : Polite env now s' := by
  refine h.drop selPage setPage (fun _ ↦ false) (hpages.trans (List.append_nil _).symm)
    (hhosts.trans (Table.update_eq_self fun _ _ ↦ rfl).symm) hle
    (fun page hpage hselected ↦ (hset page).trans (hsel page hpage hselected)) (by simp)
    fun page hpage host _ owner ho _ _ ↦ ?_
  refine ⟨fun hselected ↦ ?_, by simp⟩
  rw [hsel page hpage hselected] at ho
  cases ho

/-- The pages of a well-formed table that are not leased have no owner. -/
theorem Page.WellFormed.owner_eq_none {page : Page} (h : page.WellFormed)
    (hstatus : page.status ≠ .leased) : page.leaseOwner = none := by
  by_contra howner
  exact hstatus (h.owner_iff.1 howner)

/-- Only leases that have expired are reclaimed. -/
theorem Polite.reclaimed (h : Polite env now s) (hconserved : Conserved s) {clock : ReclaimClock}
    (locks : ReclaimLocks) (hpages : clock.leaseUpdate ≤ now) (hhosts : clock.hosts ≤ now) :
    Polite env now (s.reclaimed clock locks) := by
  have h₁ : Polite env now (s.deliveriesReclaimed clock) := h.congr rfl rfl (le_refl _)
  have hconserved₁ : Conserved (s.deliveriesReclaimed clock) := hconserved.congr rfl rfl
  have h₂ : Polite env now ((s.deliveriesReclaimed clock).leasesReclaimed clock locks) := by
    refine h₁.drop (reclaimedPage clock locks (s.deliveriesReclaimed clock))
      (Page.expire clock.leaseUpdate) (fun _ ↦ false) (List.append_nil _).symm
      (Table.update_eq_self fun _ _ ↦ rfl).symm (le_refl _) (fun _ _ _ ↦ rfl) (by simp)
      fun page _ host _ owner _ _ hlive ↦ ⟨fun hsel ↦ ?_, by simp⟩
    simp only [reclaimedPage, Page.isExpired, Bool.and_eq_true] at hsel
    have hexpired : expiredAt (pageLeasing.expiry page) clock.leaseUpdate = true := hsel.2.2
    exact absurd hlive (not_live hexpired hpages)
  have hconserved₂ := hconserved₁.leasesReclaimed clock locks
  have h₃ : Polite env now (((s.deliveriesReclaimed clock).leasesReclaimed clock
      locks).deadlinesExpired clock locks) := by
    refine h₂.unleased rfl rfl (le_refl _) (fun page hpage hsel ↦ ?_) fun _ ↦ rfl
    simp only [overduePage, Bool.and_eq_true, decide_eq_true_eq] at hsel
    exact (hconserved₂.pages page hpage).owner_eq_none (by simp [hsel.2])
  have h₄ : Polite env now ((((s.deliveriesReclaimed clock).leasesReclaimed clock
      locks).deadlinesExpired clock locks).hostsReleased clock) := by
    have hsame : ∀ pages : List Page, pages = Table.update (fun _ ↦ false) id pages ++ [] :=
      fun pages ↦ by rw [List.append_nil, Table.update_eq_self fun _ _ ↦ rfl]
    refine h₃.drop (fun _ ↦ false) id _ (hsame _) rfl (le_refl _) (by simp) (by simp)
      fun page hpage host hhost owner ho ho' hlive ↦ ⟨by simp, fun hsel ↦ ?_⟩
    have hexpired : expiredAt (hostLeasing.expiry host) clock.hosts = true :=
      (Bool.and_eq_true_iff.1 hsel).2
    rw [(h₃.paired.agree page hpage host hhost owner ho ho').1] at hexpired
    exact absurd hlive (not_live hexpired hhosts)
  exact h₄.congr rfl rfl (le_refl _)

/-- The slot that a claim takes is one of the page's host. -/
theorem claimed_slot (hkeyed : Keyed s) {claimedAt : Instant} {locks : ClaimLocks} {e : Execution}
    {host : HostLease} {page : Page} {correlationId : Uuid}
    (hrows : claimRows env claimedAt locks s = some (e, host, page, correlationId))
    (hhost : (s.hostLeases.countP fun host' ↦ decide (host'.hostname = e.targetHostname) &&
      host'.isSlot page.hostname host.slotNo) = 1) :
    host.hostname = page.hostname ∧ ∀ other ∈ s.hostLeases,
      (decide (other.hostname = e.targetHostname) && other.isSlot page.hostname host.slotNo) = true ↔
        other = host := by
  obtain ⟨-, hmem, -, -, -, -, htarget, -⟩ := claimRows_spec hrows
  obtain ⟨slot, hslot, hsel⟩ := List.countP_pos_iff.1 (hhost ▸ Nat.zero_lt_one)
  simp only [HostLease.isSlot, Bool.and_eq_true, decide_eq_true_eq] at hsel ⊢
  have hname : host.hostname = page.hostname := htarget.trans (hsel.1.symm.trans hsel.2.1)
  refine ⟨hname, fun other hother ↦ ⟨fun h ↦ ?_, fun h ↦ ?_⟩⟩
  · exact Table.eq_of_key_eq hkeyed.slots hother hmem
      (Prod.ext (h.1.trans htarget.symm) h.2.2)
  · rw [h]
    exact ⟨htarget, hname, rfl⟩

/-- A claim takes a page that waits and a slot that is free, for a fresh owner. -/
theorem Polite.claimed (h : Polite env now s) (hkeyed : Keyed s) (hconserved : Conserved s)
    {claimedAt leaseUntil nextAllowedAt : Instant} {locks : ClaimLocks} {e : Execution}
    {host : HostLease} {page : Page} {correlationId : Uuid} (hnow : claimedAt ≤ now)
    (hrows : claimRows env claimedAt locks s = some (e, host, page, correlationId))
    (hhost : (s.hostLeases.countP fun host' ↦ decide (host'.hostname = e.targetHostname) &&
      host'.isSlot page.hostname host.slotNo) = 1) :
    Polite env now { s.claimed claimedAt leaseUntil nextAllowedAt
      (newLease s.nextUuid e host page correlationId) e.targetHostname with
        nextUuid := s.nextUuid + 1 } := by
  obtain ⟨hname, hslot⟩ := claimed_slot hkeyed hrows hhost
  obtain ⟨-, hhostMem, hpage, -, -, -, -, hfree, -, havailable, -⟩ := claimRows_spec hrows
  simp only [Page.isAvailable, Bool.and_eq_true, decide_eq_true_eq] at havailable
  simp only [HostLease.isFree, Bool.and_eq_true, decide_eq_true_eq, Bool.or_eq_true] at hfree
  have hkey : page.hasKey (newLease s.nextUuid e host page correlationId).retentionMonth
      (newLease s.nextUuid e host page correlationId).pageId = true := by
    simp [Page.hasKey, newLease]
  have hnone := (hconserved.pages page hpage).owner_eq_none (by simp [havailable.1])
  have hfresh : ∀ other ∈ s.pages, other.leaseOwner ≠ some s.nextUuid :=
    fun other hother heq ↦ lt_irrefl _ (h.slotted.pages other hother _ heq)
  have hhostFresh : ∀ other ∈ s.hostLeases, other.leaseOwner ≠ some s.nextUuid :=
    fun other hother heq ↦ lt_irrefl _ ((h.slotted.hosts other hother).2 _ heq).2
  refine ⟨⟨?_, ?_⟩, Paired.grant h.paired
    (Leasing.grants_update hpage (hasKey_and_status_iff hkeyed hpage hkey havailable.1) hfresh rfl rfl)
    (Leasing.grants_update hhostMem hslot hhostFresh rfl rfl) hname (fun owner ho ↦ ?_)
    fun owner ho ↦ ?_⟩
  · refine Table.forall_update (fun other hother ↦ (h.slotted.hosts other hother).mono
      (Nat.le_succ _)) fun other hother hsel ↦ ?_
    rw [(hslot other hother).1 hsel]
    refine ⟨(h.slotted.hosts host hhostMem).1, fun owner ho ↦ ⟨hfree.1.1, ?_⟩⟩
    rw [← Option.some.inj ho]
    exact Nat.lt_succ_self _
  · refine Table.forall_update (fun other hother ↦ (h.slotted.pages other hother).mono
      (Nat.le_succ _)) fun other hother hsel owner ho ↦ ?_
    rw [← Option.some.inj ho]
    exact Nat.lt_succ_self _
  · have : some owner = none := ho.symm.trans hnone
    cases this
  · rcases hfree.2 with hnone' | hexpired
    · rw [Option.isNone_iff_eq_none] at hnone'
      have : some owner = none := ho.symm.trans hnone'
      cases this
    · exact not_live hexpired hnow

/-- A heartbeat extends the page and the slot of its lease together. -/
theorem Polite.extended (h : Polite env now s) {lease : PageLease}
    (hpage : s.pages.countP (Page.isLeasedUnder lease) = 1)
    (hhost : s.hostLeases.countP (HostLease.isLeasedUnder lease) = 1) (leaseUntil : Instant) :
    Polite env now (s.extended leaseUntil lease) := by
  obtain ⟨leased, hmem, hleased⟩ := List.countP_pos_iff.1 (hpage ▸ Nat.zero_lt_one)
  obtain ⟨slot, hslot, hslotted⟩ := List.countP_pos_iff.1 (hhost ▸ Nat.zero_lt_one)
  have howner := (isLeasedUnder_iff.1 hleased).2.2.2.1
  have hslotOwner := (host_isLeasedUnder_iff.1 hslotted).2.2.1
  have hpages : pageLeasing.Extends lease.leaseOwner leaseUntil (fun page ↦
      if page.isLeasedUnder lease = true then { page with leaseExpiresAt := some leaseUntil }
      else page) s.pages := by
    refine ⟨⟨leased, hmem, howner⟩, fun page _ ↦ ?_, fun page _ hne ↦ ?_, fun page hpage' ho ↦ ?_⟩
    · simp only [pageLeasing]
      split_ifs <;> rfl
    · exact if_neg fun hsel ↦ hne (isLeasedUnder_iff.1 hsel).2.2.2.1
    · rw [h.paired.left page hpage' leased hmem lease.leaseOwner ho howner, if_pos hleased]
      rfl
  have hhosts : hostLeasing.Extends lease.leaseOwner leaseUntil (fun host ↦
      if host.isLeasedUnder lease = true then { host with leaseExpiresAt := some leaseUntil }
      else host) s.hostLeases := by
    refine ⟨⟨slot, hslot, hslotOwner⟩, fun host _ ↦ ?_, fun host _ hne ↦ ?_, fun host hhost' ho ↦ ?_⟩
    · simp only [hostLeasing]
      split_ifs <;> rfl
    · exact if_neg fun hsel ↦ hne (host_isLeasedUnder_iff.1 hsel).2.2.1
    · rw [h.paired.right host hhost' slot hslot lease.leaseOwner ho hslotOwner, if_pos hslotted]
      rfl
  refine ⟨⟨Table.forall_update h.slotted.hosts fun host hhost _ ↦ h.slotted.hosts host hhost,
    Table.forall_update h.slotted.pages fun page hpage _ ↦ h.slotted.pages page hpage⟩,
    Paired.extend h.paired hpages hhosts fun page host hname ↦ ?_⟩
  simp only [OfHost]
  split_ifs <;> exact hname

/-- Every transition keeps the leases paired. -/
theorem TransitionAt.polite {readings : List Instant} {sys sys' : System}
    (h : TransitionAt env readings sys sys') (hsys : sys.Conserved)
    (hnow : ∀ reading ∈ readings, reading ≤ now) (hpolite : Polite env now sys.store) :
    Polite env now sys'.store := by
  have hkeyed := hsys.keyed.store
  have hconserved := hsys.conserved
  cases h with
  | unchanged => exact hpolite
  | idle => exact hpolite.congr rfl rfl (Nat.le_succ _)
  | stale | analyticsClaimed | analyticsRetried | eventsMoved =>
    exact hpolite.congr rfl rfl (le_refl _)
  | started => exact hpolite.started
  | cancelled now' receivedAt envelope e =>
    exact (hpolite.cancelled hconserved.pages envelope.aggregateVersion now' e).congr rfl rfl
      (Nat.le_succ _)
  | claimed now' leaseUntil hostDelay locks e host page correlationId e' hreading hrows hhost =>
    have hclaimed : Polite env now { sys.store.claimed now' leaseUntil (now' + hostDelay)
        (newLease sys.store.nextUuid e host page correlationId) e.targetHostname with
          nextUuid := sys.store.nextUuid + 1 } :=
      hpolite.claimed hkeyed hconserved (hnow now' hreading) hrows hhost
    exact hclaimed.congr rfl rfl (Nat.le_succ _)
  | extended leaseUntil lease _ hpage hhost => exact hpolite.extended hpage hhost leaseUntil
  | requeued now' lease result page e _ hpage hleased hhost =>
    exact (hpolite.requeued hkeyed hpage hleased hhost now' page.attemptCount).congr rfl rfl
      (Nat.le_succ _)
  | staged now' lease result page added payload outboxId e _ hpage hleased hhost _ _ hadded =>
    have hstaged : Polite env now (sys.store.staged env now' lease result (page.resultVersion + 1)
        payload added outboxId) := hpolite.staged hkeyed hpage hleased hhost hadded
    exact hstaged.congr rfl rfl (Nat.le_succ _)
  | published now' batch page terminalStatus =>
    refine hpolite.unleased rfl rfl (Nat.le_succ _) (fun other hother hsel ↦ ?_) fun _ ↦ rfl
    rw [Bool.and_eq_true, decide_eq_true_eq] at hsel
    exact (hconserved.pages other hother).owner_eq_none (by simp [hsel.2])
  | reclaimed clock locks s' hpages hhosts hevents =>
    obtain ⟨-, hpagesEq, hhostsEq, -⟩ := progressEvents_tables hevents
    have hle := (sameFrame_progressEvents hevents).nextUuid
    exact (hpolite.reclaimed hconserved locks (hnow _ hpages) (hnow _ hhosts)).congr hpagesEq
      hhostsEq hle

/-! ### Room -/

/-- No execution has more leased pages than its limit. -/
def Roomy (s : Store) : Prop :=
  ∀ e ∈ s.executions, e.leasedCount ≤ e.maxConcurrency

theorem ExecutionStep.room {e e' : Execution} (h : ExecutionStep e e')
    (hroom : e.leasedCount ≤ e.maxConcurrency) : e'.leasedCount ≤ e'.maxConcurrency := by
  cases h with
  | claimed now _ hless =>
    simp only [Execution.claim]
    omega
  | requeued =>
    simp only [Execution.requeue]
    omega
  | staged =>
    simp only [Execution.stage]
    omega
  | finished now _ hfinished =>
    rw [Execution.finish, if_pos hfinished]
    exact hroom
  | expired total requeued failed now _ htotal hfailed hrequeued =>
    simp only [Execution.expire]
    omega
  | published | timedOut | terminalized => exact hroom

theorem ExecutionSteps.room {e e' : Execution} (h : ExecutionSteps e e')
    (hroom : e.leasedCount ≤ e.maxConcurrency) : e'.leasedCount ≤ e'.maxConcurrency := by
  induction h with
  | refl => exact hroom
  | tail _ hstep ih => exact hstep.room ih

/-- A valid command allows some concurrency. -/
theorem ScanCommandEnvelope.maxConcurrency_of_validate {e : ScanCommandEnvelope}
    (h : e.validate env = []) : 1 ≤ e.payload.maxConcurrency := by
  simp only [validate, List.append_eq_nil_iff, problemIf_eq_nil, not_or, not_lt, not_not] at h
  obtain ⟨⟨-, hlimits⟩, -⟩ := h
  omega

theorem Change.roomy (h : Change env s s') (hconserved : Conserved s) (hroomy : Roomy s) :
    Roomy s' := by
  intro e' he'
  cases h with
  | worked hevolves =>
    obtain ⟨e, he, hsteps⟩ := hevolves e' he'
    exact hsteps.room (hroomy e he)
  | started now receivedAt envelope url hvalid hnew hs' =>
    subst hs'
    rcases List.mem_append.1 he' with he' | he'
    · exact hroomy e' he'
    · rw [List.mem_singleton.1 he']
      have := ScanCommandEnvelope.maxConcurrency_of_validate hvalid
      simp only [newExecution]
      omega
  | cancelled now receivedAt envelope e hvalid he hscan hactive hexecutions =>
    rcases hexecutions e' he' with rfl | ⟨hold, -⟩
    · have hroom := hroomy e he
      have hleased := hconserved.counted.nonneg he .leased
      simp only [Execution.count] at hleased
      simp only [Execution.cancel]
      omega
    · exact hroomy e' hold

/-! ### Delays -/

/-- The slot is the same, and not to be used any earlier. -/
def HostLease.Later (host host' : HostLease) : Prop :=
  host'.key = host.key ∧ host.nextAllowedAt ≤ host'.nextAllowedAt

theorem HostLease.Later.refl (host : HostLease) : host.Later host :=
  ⟨rfl, le_refl _⟩

theorem HostLease.Later.trans {host₁ host₂ host₃ : HostLease} (h₁ : host₁.Later host₂)
    (h₂ : host₂.Later host₃) : host₁.Later host₃ :=
  ⟨h₂.1.trans h₁.1, h₁.2.trans h₂.2⟩

/-- No slot may be used earlier than before. -/
def Delayed (s s' : Store) : Prop :=
  Table.Grows HostLease.Later s.hostLeases s'.hostLeases

theorem Delayed.of_eq (h : s'.hostLeases = s.hostLeases) : Delayed s s' := by
  rw [Delayed, h]
  exact .refl HostLease.Later.refl _

theorem Delayed.trans {s₁ s₂ s₃ : Store} (h₁ : Delayed s₁ s₂) (h₂ : Delayed s₂ s₃) :
    Delayed s₁ s₃ :=
  Table.Grows.trans HostLease.Later.trans h₁ h₂

/-- An update of the slots that leaves their times. -/
theorem Delayed.of_update {sel : HostLease → Bool} {set : HostLease → HostLease}
    (h : s'.hostLeases = Table.update sel set s.hostLeases)
    (hset : ∀ host ∈ s.hostLeases, sel host = true → host.Later (set host)) : Delayed s s' := by
  rw [Delayed, h]
  exact .update HostLease.Later.refl hset

/-- No transition lets a slot be used earlier. -/
theorem Transition.delayed {sys sys' : System} (h : Transition env sys sys') (hsys : sys.Keyed) :
    Delayed sys.store sys'.store := by
  obtain ⟨_, h⟩ := h
  cases h with
  | unchanged | idle | stale | analyticsClaimed | published | analyticsRetried | eventsMoved =>
    exact .of_eq rfl
  | started => exact .append HostLease.Later.refl _ _
  | cancelled | requeued | staged =>
    exact .of_update rfl fun host _ _ ↦ HostLease.Later.refl host
  | extended => exact .of_update rfl fun host _ _ ↦ HostLease.Later.refl host
  | claimed now leaseUntil hostDelay locks e host page correlationId e' _ hrows hhost =>
    refine .of_update rfl fun other hother hsel ↦ ?_
    obtain ⟨-, hslot⟩ := claimed_slot hsys.store hrows hhost
    obtain ⟨-, -, -, -, -, -, -, hfree, -⟩ := claimRows_spec hrows
    simp only [HostLease.isFree, Bool.and_eq_true, decide_eq_true_eq] at hfree
    rw [(hslot other hother).1 hsel]
    exact ⟨rfl, hfree.1.2.trans (Nat.le_add_right now hostDelay)⟩
  | reclaimed clock locks s' _ _ hevents =>
    obtain ⟨-, -, hhosts, -⟩ := progressEvents_tables hevents
    exact .of_update hhosts fun host _ _ ↦ HostLease.Later.refl host

theorem delayed_after (actions more : List Action) :
    Delayed (System.after env actions).store (System.after env (actions ++ more)).store := by
  rw [System.after, System.after, run_append]
  exact @run_relation System Action (System.step env) System.Keyed
    (fun sys sys' ↦ Delayed sys.store sys'.store)
    (fun sys action h ↦ (step_transition env sys action).system_keyed h)
    (fun sys action h ↦ (step_transition env sys action).delayed h) (fun _ ↦ .of_eq rfl)
    Delayed.trans _ (conserved_after env actions).keyed more

/-- A claim that gives a lease finds its slot free, and allows it again after the delay. -/
theorem claim_slot {sys : System} (hsys : sys.Keyed) {claimedAt leaseUntil : Instant}
    {hostDelay : Duration} {locks : ClaimLocks} {lease : PageLease}
    (h : (sys.step env (.claimPage claimedAt leaseUntil hostDelay locks)).leases =
      lease :: sys.leases) :
    (∃ host ∈ sys.store.hostLeases, host.key = (lease.hostname, lease.hostSlotNo) ∧
      host.nextAllowedAt ≤ claimedAt) ∧
    ∃ host ∈ (sys.step env (.claimPage claimedAt leaseUntil hostDelay locks)).store.hostLeases,
      host.key = (lease.hostname, lease.hostSlotNo) ∧
        host.nextAllowedAt = claimedAt + hostDelay := by
  rw [System.step] at h ⊢
  rcases commit_cases (dispatchClaim env claimedAt leaseUntil hostDelay locks) sys.store with
    ⟨result, s', hcommit, hreturns⟩ | ⟨e, hcommit⟩
  · rw [hcommit] at h ⊢
    obtain ⟨rfl, rfl⟩ | ⟨e, host, page, correlationId, e', hrows, rfl, hhost, -, rfl⟩ :=
      dispatchClaim_cases hreturns
    · exact absurd h.symm (List.cons_ne_self lease sys.leases)
    · obtain ⟨hname, hslot⟩ := claimed_slot hsys.store hrows hhost
      obtain ⟨-, hmem, -, -, -, -, -, hfree, -⟩ := claimRows_spec hrows
      simp only [HostLease.isFree, Bool.and_eq_true, decide_eq_true_eq] at hfree
      obtain rfl := (List.cons.inj h).1
      have hkey : host.key = (page.hostname, host.slotNo) := Prod.ext hname rfl
      exact ⟨⟨host, hmem, hkey, hfree.1.2⟩,
        ⟨_, Table.mem_update_of_sel hmem ((hslot host hmem).2 rfl), hkey, rfl⟩⟩
  · rw [hcommit] at h
    exact absurd h.symm (List.cons_ne_self lease sys.leases)

/-! ### Every run -/

/-- The slots of a host that are held. -/
def Store.heldSlots (s : Store) (hostname : Utf8.ByteString) : ℕ :=
  s.hostLeases.countP fun host ↦ decide (host.hostname = hostname) && host.leaseOwner.isSome

/-- The leased pages of a host with an owner. -/
def Store.leasedPages (s : Store) (hostname : Utf8.ByteString) (owner : Uuid) : ℕ :=
  s.pages.countP fun page ↦ decide (page.hostname = hostname) && decide (page.status = .leased) &&
    decide (page.leaseOwner = some owner)

/-- The slots of a host with an owner. -/
def Store.slots (s : Store) (hostname : Utf8.ByteString) (owner : Uuid) : ℕ :=
  s.hostLeases.countP fun host ↦ decide (host.hostname = hostname) &&
    decide (host.leaseOwner = some owner)

/-- Held slots have distinct numbers between one and the limit. -/
theorem Slotted.heldSlots_le (h : Slotted env s) (hkeyed : Keyed s) (hostname : Utf8.ByteString) :
    s.heldSlots hostname ≤ env.hostConcurrency := by
  rw [Store.heldSlots, List.countP_eq_length_filter]
  set held := s.hostLeases.filter fun host ↦
    decide (host.hostname = hostname) && host.leaseOwner.isSome with hheld
  have hmem : ∀ host ∈ held, host ∈ s.hostLeases ∧ host.hostname = hostname ∧
      host.leaseOwner.isSome = true := by
    intro host hhost
    rw [hheld, List.mem_filter, Bool.and_eq_true, decide_eq_true_eq] at hhost
    exact hhost
  have hnodup : (held.map HostLease.slotNo).Nodup := by
    refine (List.nodup_map_iff_inj_on (hkeyed.slots.of_map.filter _)).2 ?_
    intro host hhost other hother hslot
    exact Table.eq_of_key_eq hkeyed.slots (hmem host hhost).1 (hmem other hother).1
      (Prod.ext ((hmem host hhost).2.1.trans (hmem other hother).2.1.symm) hslot)
  have hsubset : held.map HostLease.slotNo ⊆ List.range' 1 env.hostConcurrency := by
    intro slotNo hslotNo
    obtain ⟨host, hhost, rfl⟩ := List.mem_map.1 hslotNo
    obtain ⟨hold, -, howner⟩ := hmem host hhost
    obtain ⟨owner, howner⟩ := Option.isSome_iff_exists.1 howner
    have hsound := h.hosts host hold
    have := (hsound.2 owner howner).1
    have := hsound.1
    rw [List.mem_range'_1]
    omega
  have hlength := (hnodup.subperm hsubset).length_le
  rwa [List.length_map, List.length_range'] at hlength

/-- A slot that is held and not expired has one page. -/
theorem Polite.leasedPages_eq (h : Polite env now s) (hkeyed : Keyed s) (hconserved : Conserved s)
    {host : HostLease} (hhost : host ∈ s.hostLeases) {owner : Uuid}
    (howner : host.leaseOwner = some owner) (hlive : expiredAt host.leaseExpiresAt now = false) :
    s.leasedPages host.hostname owner = 1 := by
  obtain ⟨page, hpage, hpageOwner⟩ :=
    h.paired.rightCovered host hhost owner howner (live_iff.2 hlive)
  have hname := (h.paired.agree page hpage host hhost owner hpageOwner howner).2
  refine Table.countP_eq_one hkeyed.pageIds hpage fun other hother ↦ ?_
  simp only [Bool.and_eq_true, decide_eq_true_eq]
  constructor
  · rintro ⟨-, hother'⟩
    exact h.paired.left other hother page hpage owner hother' hpageOwner
  · rintro rfl
    refine ⟨⟨hname.symm, (hconserved.pages other hother).owner_iff.1 ?_⟩, hpageOwner⟩
    intro hnone
    have : none = some owner := hnone.symm.trans hpageOwner
    cases this

/-- A leased page whose lease has not expired has one slot. -/
theorem Polite.slots_eq (h : Polite env now s) (hkeyed : Keyed s) {page : Page}
    (hpage : page ∈ s.pages) {owner : Uuid} (howner : page.leaseOwner = some owner)
    (hlive : expiredAt page.leaseExpiresAt now = false) : s.slots page.hostname owner = 1 := by
  obtain ⟨host, hhost, hhostOwner⟩ :=
    h.paired.leftCovered page hpage owner howner (live_iff.2 hlive)
  have hname := (h.paired.agree page hpage host hhost owner howner hhostOwner).2
  refine Table.countP_eq_one hkeyed.slots hhost fun other hother ↦ ?_
  simp only [Bool.and_eq_true, decide_eq_true_eq]
  constructor
  · rintro ⟨-, hother'⟩
    exact h.paired.right other hother host hhost owner hother' hhostOwner
  · rintro rfl
    exact ⟨hname, hhostOwner⟩

theorem after_concat (actions : List Action) (action : Action) :
    System.after env (actions ++ [action]) = (System.after env actions).step env action :=
  run_concat (System.step env) {} actions action

theorem roomy_after (actions : List Action) : Roomy (System.after env actions).store := by
  have hinit : System.Conserved {} ∧ Roomy ({} : System).store :=
    ⟨conserved_after env [], by simp [Roomy]⟩
  have hstep : ∀ {sys sys' : System}, Transition env sys sys' → sys.Conserved ∧ Roomy sys.store →
      sys'.Conserved ∧ Roomy sys'.store := by
    rintro sys sys' h ⟨hsys, hroomy⟩
    obtain ⟨hconserved, hlive, hchange⟩ := h.conserved hsys
    exact ⟨⟨h.system_keyed hsys.keyed, hconserved, hlive⟩, hchange.roomy hsys.conserved hroomy⟩
  exact (after_invariant hinit hstep actions).2

theorem polite_after (actions : List Action)
    (hnow : ∀ action ∈ actions, ∀ reading ∈ action.readings, reading ≤ now) :
    Polite env now (System.after env actions).store := by
  induction actions using List.reverseRecOn with
  | nil =>
    refine ⟨⟨fun host hhost ↦ ?_, fun page hpage ↦ ?_⟩, ⟨?_, ?_, ?_, ?_, ?_⟩⟩
    · cases hhost
    · cases hpage
    all_goals
      intro row hrow
      cases hrow
  | append_singleton actions action ih =>
    have hpolite := ih fun action haction ↦ hnow action (List.mem_append_left _ haction)
    have hstep := step_transitionAt env (System.after env actions) action
    rw [after_concat]
    exact hstep.polite (conserved_after env actions)
      (hnow action (List.mem_append_right _ (List.mem_singleton_self action))) hpolite

/-- Host politeness. In every run, a host has at most the configured number of held slots, and an
execution at most its limit of leased pages. At any time that no reading of the clock so far is
after, a held slot that has not expired belongs to one leased page of its host with the same owner,
and a leased page that has not expired holds one slot. Claims through the same slot are at least
the configured delay apart. -/
theorem host_politeness (env : Env) (actions : List Action) :
    (∀ hostname, (System.after env actions).store.heldSlots hostname ≤ env.hostConcurrency) ∧
    (∀ now, (∀ action ∈ actions, ∀ reading ∈ action.readings, reading ≤ now) →
      (∀ host ∈ (System.after env actions).store.hostLeases, ∀ owner,
        host.leaseOwner = some owner → expiredAt host.leaseExpiresAt now = false →
        (System.after env actions).store.leasedPages host.hostname owner = 1) ∧
      ∀ page ∈ (System.after env actions).store.pages, page.status = .leased →
        expiredAt page.leaseExpiresAt now = false →
        ∃ owner, page.leaseOwner = some owner ∧
          (System.after env actions).store.slots page.hostname owner = 1) ∧
    (∀ e ∈ (System.after env actions).store.executions,
      (pageCount (System.after env actions).store.pages e.id .leased : ℤ) ≤ e.maxConcurrency) ∧
    ∀ now leaseUntil hostDelay locks lease more now' leaseUntil' hostDelay' locks' lease',
      (System.after env (actions ++ [.claimPage now leaseUntil hostDelay locks])).leases =
        lease :: (System.after env actions).leases →
      (System.after env (actions ++ [.claimPage now leaseUntil hostDelay locks] ++ more ++
          [.claimPage now' leaseUntil' hostDelay' locks'])).leases =
        lease' :: (System.after env
          (actions ++ [.claimPage now leaseUntil hostDelay locks] ++ more)).leases →
      lease'.hostname = lease.hostname → lease'.hostSlotNo = lease.hostSlotNo →
      now + hostDelay ≤ now' := by
  have hsys := conserved_after env actions
  have hkeyed := hsys.keyed.store
  refine ⟨fun hostname ↦ ?_, fun now hnow ↦ ?_, fun e he ↦ ?_, ?_⟩
  · obtain ⟨now, hnow⟩ := (actions.flatMap Action.readings).toFinset.exists_le
    have hpolite : Polite env now (System.after env actions).store :=
      polite_after actions fun action haction reading hreading ↦
        hnow reading (List.mem_toFinset.2 (List.mem_flatMap.2 ⟨action, haction, hreading⟩))
    exact hpolite.slotted.heldSlots_le hkeyed hostname
  · have hpolite : Polite env now (System.after env actions).store := polite_after actions hnow
    refine ⟨fun host hhost owner howner hlive ↦
      hpolite.leasedPages_eq hkeyed hsys.conserved hhost howner hlive,
      fun page hpage hstatus hlive ↦ ?_⟩
    have hsome := (hsys.conserved.pages page hpage).owner_iff.2 hstatus
    obtain ⟨owner, howner⟩ := Option.ne_none_iff_exists'.1 hsome
    exact ⟨owner, howner, hpolite.slots_eq hkeyed hpage howner hlive⟩
  · rw [← hsys.conserved.counted e he .leased]
    exact roomy_after actions e he
  · intro now leaseUntil hostDelay locks lease more now' leaseUntil' hostDelay' locks' lease' hfirst
      hsecond hname hslot
    have hdelayed : Delayed
        (System.after env (actions ++ [.claimPage now leaseUntil hostDelay locks])).store
        (System.after env (actions ++ [.claimPage now leaseUntil hostDelay locks] ++ more)).store :=
      delayed_after _ more
    have hkeyed' := (conserved_after env
      (actions ++ [.claimPage now leaseUntil hostDelay locks] ++ more)).keyed
    rw [after_concat] at hsecond hfirst
    obtain ⟨⟨host', hhost', hkey', hfree⟩, -⟩ := claim_slot hkeyed' hsecond
    obtain ⟨-, host, hhost, hkey, hnext⟩ := claim_slot hsys.keyed hfirst
    rw [← after_concat] at hhost
    obtain ⟨later, hlater, hsame, hle⟩ := hdelayed.exists_of_mem hhost
    have heq : later = host' := Table.eq_of_key_eq hkeyed'.store.slots hlater hhost' (by
      rw [hsame, hkey, hkey', hname, hslot])
    rw [← hnext]
    exact hle.trans (heq ▸ hfree)

/-- The sample scan: its page is claimed, its lease expires, and it is claimed again through the same
slot. -/
theorem host_politeness_sample : (2 : Instant) + 1 ≤ 200 :=
  (host_politeness Env.sample [.acceptCommand 1 1 (.sample 5)]).2.2.2 2 100 1 {} (.sample 5)
    [.reclaimExpired ⟨150, 150, 150, 150, 150, 150, 150, 150, 150⟩ {}] 200 300 1 {}
    { PageLease.sample 5 with leaseOwner := 6, leaseGeneration := 2, hostGeneration := 2 }
    (by decide +kernel) (by decide +kernel) rfl rfl

end WebLens.Crawler
