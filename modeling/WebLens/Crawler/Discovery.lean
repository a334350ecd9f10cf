import WebLens.Crawler.Counters

/-!
# Page discovery

What discovery adds to an execution, and what the pages of an execution have in common. A committed
result adds exactly the first new URLs of its links, as many as the page limit leaves; so in every
run the pages of an execution have distinct URLs, stay within its depth and number, and belong to
its hostname.
-/

set_option autoImplicit false
set_option relaxedAutoImplicit false

namespace WebLens.Crawler

open Lib Lib.Transaction

variable {env : Env} {s s' : Store}

/-! ### The URLs that are added -/

theorem mem_unseenURLs {lease : PageLease} {pages : List Page}
    {seen urls : List Utf8.ByteString} {url : Utf8.ByteString}
    (h : url ∈ unseenURLs lease pages seen urls) :
    url ∈ urls ∧ isKnown lease pages url = false := by
  obtain ⟨hmem, hunknown⟩ := List.mem_filter.1 h
  exact ⟨List.mem_of_mem_filter (List.mem_eraseDups.1 hmem), Bool.not_eq_true' _ ▸ hunknown⟩

/-- Erasing duplicates leaves none. -/
theorem nodup_eraseDups (urls : List Utf8.ByteString) : urls.eraseDups.Nodup := by
  generalize hlength : urls.length = n
  induction n using Nat.strongRecOn generalizing urls with
  | ind n ih =>
    cases urls with
    | nil => exact List.nodup_nil
    | cons url urls =>
      rw [List.eraseDups_cons, List.nodup_cons]
      constructor
      · intro hmem
        have hother := List.of_mem_filter (List.mem_eraseDups.1 hmem)
        rw [beq_self_eq_true] at hother
        exact Bool.false_ne_true hother
      · refine ih _ ?_ _ rfl
        rw [← hlength]
        exact Nat.lt_succ_of_le (List.length_filter_le _ _)

theorem nodup_unseenURLs (lease : PageLease) (pages : List Page)
    (seen urls : List Utf8.ByteString) : (unseenURLs lease pages seen urls).Nodup :=
  (nodup_eraseDups _).filter _

theorem followedURL_eq_some {lease : PageLease} {link : DiscoveredLink} {url : Utf8.ByteString}
    (h : followedURL env lease link = some url) :
    env.normalizeURL link.targetURL = some url ∧
      env.isHTTPURLInScope url lease.hostname = true := by
  unfold followedURL at h
  rw [Option.ite_none_right_eq_some, Option.filter_eq_some_iff] at h
  exact h.2

/-- A URL that discovery adds is new and in scope, and its page is not below the depth limit. -/
theorem mem_discoveredURLs {lease : PageLease} {links : List DiscoveredLink}
    {url : Utf8.ByteString} (h : url ∈ discoveredURLs env lease links s) :
    (lease.discoveryDepth : ℤ) < lease.maxDepth ∧ isKnown lease s.pages url = false ∧
      env.isHTTPURLInScope url lease.hostname = true := by
  unfold discoveredURLs at h
  split_ifs at h with hdepth
  · cases h
  · split at h
    · obtain ⟨hmem, hunknown⟩ := mem_unseenURLs (List.mem_of_mem_take h)
      obtain ⟨link, -, hlink⟩ := List.mem_filterMap.1 hmem
      exact ⟨not_le.1 hdepth, hunknown, (followedURL_eq_some hlink).2⟩
    · cases h

theorem nodup_discoveredURLs (lease : PageLease) (links : List DiscoveredLink) (s : Store) :
    (discoveredURLs env lease links s).Nodup := by
  unfold discoveredURLs
  split_ifs
  · exact List.nodup_nil
  · split
    · exact (nodup_unseenURLs _ _ _ _).sublist (List.take_sublist _ _)
    · exact List.nodup_nil

/-! ### Pages within the limits of their execution -/

/-- The page belongs to the execution, is not deeper than allowed and has its hostname; a page that
was discovered has a URL in scope. -/
structure Page.IsWithin (env : Env) (e : Execution) (page : Page) : Prop where
  isOf : page.isOf e = true
  depth : (page.discoveryDepth : ℤ) ≤ e.maxDepth
  hostname : page.hostname = e.targetHostname
  inScope : page.discoveryDepth = 0 ∨
    env.isHTTPURLInScope page.normalizedURL e.targetHostname = true

/-- The part of a page that is unique. -/
def Page.urlKey (page : Page) : Uuid × Utf8.ByteString :=
  (page.executionId, page.normalizedURL)

/-- What the pages of a store have in common. -/
structure Explored (env : Env) (s : Store) : Prop where
  within : ∀ page ∈ s.pages, ∃ e ∈ s.executions, page.IsWithin env e
  distinct : (s.pages.map Page.urlKey).Nodup

/-- A lease carries the columns of its page and of the execution of the page. -/
def LeaseOf (s : Store) (lease : PageLease) : Prop :=
  ∃ e ∈ s.executions, ∃ page ∈ s.pages, page.isOf e = true ∧ lease.executionId = e.id ∧
    lease.ownerId = e.ownerId ∧ lease.retentionMonth = e.retentionMonth ∧
    lease.hostname = page.hostname ∧ lease.discoveryDepth = page.discoveryDepth ∧
    lease.maxDepth = e.maxDepth ∧ page.id = lease.pageId

theorem Execution.targetHostname_of_fixed_eq {e e' : Execution} (h : e'.fixed = e.fixed) :
    e'.targetHostname = e.targetHostname := by
  show e'.fixed.targetHostname = e.fixed.targetHostname
  rw [h]

theorem Page.IsWithin.congr {page page' : Page} {e e' : Execution} (h : page.IsWithin env e)
    (hpage : page'.fixed = page.fixed) (he : e'.fixed = e.fixed) : page'.IsWithin env e' := by
  obtain ⟨-, -, -, -, hhost, hurl, hdepth⟩ := Page.of_fixed_eq hpage
  obtain ⟨-, -, -, -, -, hmax⟩ := Execution.of_fixed_eq he
  have htarget := Execution.targetHostname_of_fixed_eq he
  constructor
  · exact (Page.isOf_congr hpage he).trans h.isOf
  · rw [hdepth, hmax]
    exact h.depth
  · rw [hhost, htarget]
    exact h.hostname
  · rw [hdepth, hurl, htarget]
    exact h.inScope

theorem LeaseOf.persists {lease : PageLease} (h : LeaseOf s lease) (hs : Persists s s') :
    LeaseOf s' lease := by
  obtain ⟨e, he, page, hpage, hof, hexecution, howner, hmonth, hhost, hdepth, hmax, hid⟩ := h
  obtain ⟨e', he', heq⟩ := hs.executions e he
  obtain ⟨page', hpage', heq'⟩ := hs.pages page hpage
  obtain ⟨eid, -, eowner, emonth, -, emax⟩ := Execution.of_fixed_eq heq
  obtain ⟨pid, -, -, -, phost, -, pdepth⟩ := Page.of_fixed_eq heq'
  exact ⟨e', he', page', hpage', (Page.isOf_congr heq' heq).trans hof, hexecution.trans eid.symm,
    howner.trans eowner.symm, hmonth.trans emonth.symm, hhost.trans phost.symm,
    hdepth.trans pdepth.symm, hmax.trans emax.symm, pid.trans hid⟩

/-- What the pages have in common is about their frame. -/
theorem Explored.of_sameFrame (h : Explored env s) (hs : SameFrame s s') : Explored env s' where
  within page hpage := by
    have hpage' : page.fixed ∈ s.pages.map Page.fixed := by
      rw [← hs.pages]
      exact List.mem_map_of_mem hpage
    obtain ⟨old, hold, heq⟩ := List.mem_map.1 hpage'
    obtain ⟨e, he, hwithin⟩ := h.within old hold
    obtain ⟨e', he', heq'⟩ := hs.persists.executions e he
    exact ⟨e', he', hwithin.congr heq.symm heq'⟩
  distinct := by
    rw [map_of_map_fixed Page.fixed Page.urlKey (fun _ ↦ rfl) hs.pages]
    exact h.distinct

/-! ### Transitions -/

theorem explored_started (h : Explored env s) (hkeyed : Keyed s) {now receivedAt : Instant}
    {envelope : ScanCommandEnvelope} {normalizedURL : Utf8.ByteString}
    (hvalid : envelope.validate env = []) :
    Explored env (s.started env now receivedAt envelope normalizedURL) where
  within page hpage := by
    rcases List.mem_append.1 hpage with hpage | hpage
    · obtain ⟨e, he, hwithin⟩ := h.within page hpage
      exact ⟨e, List.mem_append_left _ he, hwithin⟩
    · refine ⟨_, List.mem_append_right _ (List.mem_singleton_self _), ?_⟩
      rw [List.mem_singleton.1 hpage]
      constructor
      · simp [Page.isOf, seedPage, newExecution]
      · exact (ScanCommandEnvelope.limits_of_validate hvalid).2.2.2.2
      · rfl
      · exact .inl rfl
  distinct := by
    refine Table.nodup_map_concat h.distinct fun page hpage heq ↦ ?_
    obtain ⟨e, he, hwithin⟩ := h.within page hpage
    have hof := hwithin.isOf
    simp only [Page.isOf, Bool.and_eq_true, decide_eq_true_eq] at hof
    have hfresh := hkeyed.executionFresh e he
    rw [← hof.1.1] at hfresh
    exact absurd (congrArg Prod.fst heq) (Nat.ne_of_lt hfresh)

/-- The pages that a result discovered are new pages of the lease's execution. -/
theorem explored_staged (h : Explored env s) (hkeyed : Keyed s) {now : Instant}
    {lease : PageLease} {result : PageResult} {resultVersion : ℕ} {added : List Page}
    {payload : Utf8.ByteString} {outboxId : Uuid} (hlease : LeaseOf s lease)
    (hadded : Discovered lease now s.nextUuid outboxId added)
    (hurls : added.map Page.normalizedURL =
      discoveredURLs env lease result.links.elements s) :
    Explored env (s.staged env now lease result resultVersion payload added outboxId) := by
  have hpages : (Table.update (Page.hasKey lease.retentionMonth lease.pageId)
      (Page.stage result.terminalStatus) s.pages).map Page.fixed = s.pages.map Page.fixed :=
    map_fixed_update_pages fun _ ↦ rfl
  have hexecutions : (s.staged env now lease result resultVersion payload added
      outboxId).executions.map Execution.fixed = s.executions.map Execution.fixed :=
    map_fixed_update_executions fun _ ↦ rfl
  obtain ⟨e, he, page, hpage, hof, hexecution, howner, hmonth, hhost, hdepth, hmax, -⟩ := hlease
  have hshape : ∀ new ∈ added, ∃ url ∈ discoveredURLs env lease result.links.elements s,
      new = discoveredPage lease url now new.id := by
    intro new hnew
    obtain ⟨url, heq⟩ := hadded.shape new hnew
    refine ⟨url, ?_, heq⟩
    rw [← hurls]
    exact List.mem_map.2 ⟨new, hnew, by rw [heq]; rfl⟩
  constructor
  case within =>
    intro new hnew
    rcases List.mem_append.1 hnew with hold | hnew
    · have hold' : new.fixed ∈ s.pages.map Page.fixed := by
        rw [← hpages]
        exact List.mem_map_of_mem hold
      obtain ⟨old, hold, heq⟩ := List.mem_map.1 hold'
      obtain ⟨e', he', hwithin⟩ := h.within old hold
      obtain ⟨e'', he'', heq'⟩ := exists_mem_of_map_eq hexecutions he'
      exact ⟨e'', he'', hwithin.congr heq.symm heq'⟩
    · obtain ⟨url, hurl, heq⟩ := hshape new hnew
      obtain ⟨hlt, -, hscope⟩ := mem_discoveredURLs hurl
      obtain ⟨e', he', heq'⟩ := exists_mem_of_map_eq hexecutions he
      have hhostname : lease.hostname = e.targetHostname := by
        obtain ⟨e₁, he₁, hwithin⟩ := h.within page hpage
        have hof₁ := hwithin.isOf
        simp only [Page.isOf, Bool.and_eq_true, decide_eq_true_eq] at hof hof₁
        obtain rfl := hkeyed.execution_eq he₁ he (hof₁.1.1.symm.trans hof.1.1)
        exact hhost.trans hwithin.hostname
      have hwithin : new.IsWithin env e := by
        rw [heq]
        constructor
        · simp [Page.isOf, discoveredPage, hexecution, howner, hmonth]
        · simp only [discoveredPage, Nat.cast_add, Nat.cast_one]
          rw [← hmax]
          omega
        · exact hhostname
        · exact .inr (hhostname ▸ hscope)
      exact ⟨e', he', hwithin.congr rfl heq'⟩
  case distinct =>
    show ((_ ++ added).map Page.urlKey).Nodup
    rw [List.map_append, map_of_map_fixed Page.fixed Page.urlKey (fun _ ↦ rfl) hpages,
      List.nodup_append]
    refine ⟨h.distinct, ?_, ?_⟩
    · refine List.Nodup.of_map Prod.snd ?_
      rw [List.map_map]
      exact hurls.symm ▸ nodup_discoveredURLs lease result.links.elements s
    · rintro _ hold _ hnew rfl
      obtain ⟨old, hold, hkey⟩ := List.mem_map.1 hold
      obtain ⟨new, hnew, hkey'⟩ := List.mem_map.1 hnew
      obtain ⟨url, hurl, heq⟩ := hshape new hnew
      obtain ⟨-, hunknown, -⟩ := mem_discoveredURLs hurl
      have hexecution' : old.executionId = lease.executionId := by
        rw [heq] at hkey'
        exact congrArg Prod.fst (hkey.trans hkey'.symm)
      have hurl' : old.normalizedURL = url := by
        rw [heq] at hkey'
        exact congrArg Prod.snd (hkey.trans hkey'.symm)
      have hmonth' : old.retentionMonth = lease.retentionMonth := by
        obtain ⟨e₁, he₁, hwithin⟩ := h.within old hold
        have hof₁ := hwithin.isOf
        simp only [Page.isOf, Bool.and_eq_true, decide_eq_true_eq] at hof₁
        obtain rfl := hkeyed.execution_eq he₁ he
          (hof₁.1.1.symm.trans (hexecution'.trans hexecution))
        exact hof₁.2.trans hmonth.symm
      refine Bool.eq_false_iff.1 hunknown (List.any_eq_true.2 ⟨old, hold, ?_⟩)
      rw [hmonth', hexecution', hurl']
      simp

/-! ### Every run -/

/-- What discovery relies on in a system. -/
structure System.Explored (env : Env) (sys : System) : Prop where
  keyed : sys.Keyed
  store : Crawler.Explored env sys.store
  leases : ∀ lease ∈ sys.leases, LeaseOf sys.store lease

theorem Transition.explored {sys sys' : System} (h : Transition env sys sys')
    (hsys : sys.Explored env) : sys'.Explored env := by
  have hpersists := (h.keyed hsys.keyed).2
  constructor
  case keyed => exact h.system_keyed hsys.keyed
  case store =>
    cases h.frameChange with
    | same hframe => exact hsys.store.of_sameFrame hframe
    | started now receivedAt envelope url hvalid _ hs' =>
      rw [hs']
      exact explored_started hsys.store hsys.keyed.store hvalid
    | staged now lease result resultVersion added payload outboxId hlease hadded hurls hframe =>
      exact (explored_staged hsys.store hsys.keyed.store (hsys.leases lease hlease) hadded
        hurls).of_sameFrame hframe
  case leases =>
    intro lease hlease
    obtain ⟨_, h⟩ := h
    cases h with
    | claimed now leaseUntil hostDelay locks e host page correlationId e' _ hrows =>
      rcases List.mem_cons.1 hlease with rfl | hold
      · obtain ⟨he, -, hpage, -, -, -, -, -, hof, -⟩ := claimRows_spec hrows
        have hkey := hof
        simp only [Page.isOf, Bool.and_eq_true, decide_eq_true_eq] at hkey
        exact LeaseOf.persists ⟨e, he, page, hpage, hof, hkey.1.1, hkey.1.2, hkey.2, rfl, rfl, rfl,
          rfl⟩ hpersists
      · exact (hsys.leases lease hold).persists hpersists
    | _ => exact (hsys.leases lease hlease).persists hpersists

theorem explored_after (env : Env) (actions : List Action) :
    (System.after env actions).Explored env :=
  after_invariant ⟨System.keyed_init, ⟨by simp, List.nodup_nil⟩, by simp⟩
    (fun h hsys ↦ h.explored hsys) actions

/-! ### Discovery is exact and bounded -/

/-- The pages of an execution. -/
def pagesOfExecution (pages : List Page) (executionId : Uuid) : List Page :=
  pages.filter fun page ↦ decide (page.executionId = executionId)

/-- The distinct URLs of the links, in order of first occurrence, that are internal, followable and
in scope and are not yet the URL of a page of the lease's execution. -/
def newURLs (env : Env) (lease : PageLease) (links : List DiscoveredLink) (pages : List Page) :
    List Utf8.ByteString :=
  (links.filterMap (followedURL env lease)).eraseDups.filter fun url ↦
    !((pagesOfExecution pages lease.executionId).map Page.normalizedURL).contains url

/-- The pages of an execution are those that its counters count. -/
theorem length_pagesOfExecution (pages : List Page) (id : Uuid) :
    (pagesOfExecution pages id).length = pageCount pages id .queued + pageCount pages id .leased +
      pageCount pages id .persisting + pageCount pages id .succeeded + pageCount pages id .failed +
      pageCount pages id .skipped + pageCount pages id .cancelled := by
  unfold pagesOfExecution pageCount
  rw [← List.countP_eq_length_filter]
  induction pages with
  | nil => rfl
  | cons page pages ih =>
    simp only [List.countP_cons, ih, Page.isIn, Bool.and_eq_true, decide_eq_true_eq]
    by_cases hid : page.executionId = id
    · cases page.status <;> simp [hid] <;> omega
    · simp only [hid, false_and, if_false, add_zero]

/-- In a store whose pages are in their executions, the URLs that are left are the new ones. -/
theorem unseenURLs_eq_newURLs (h : Explored env s) (hkeyed : Keyed s) {lease : PageLease}
    (hlease : LeaseOf s lease) (links : List DiscoveredLink) :
    unseenURLs lease s.pages [] (links.filterMap (followedURL env lease)) =
      newURLs env lease links s.pages := by
  obtain ⟨e, he, -, -, -, hexecution, -, hmonth, -⟩ := hlease
  unfold unseenURLs newURLs
  have hall : ∀ urls : List Utf8.ByteString,
      (urls.filter fun url ↦ !([] : List Utf8.ByteString).contains url) = urls :=
    fun urls ↦ List.filter_eq_self.2 fun url _ ↦ rfl
  rw [hall]
  refine List.filter_congr fun url _ ↦ ?_
  rw [Bool.not_inj_iff, Bool.eq_iff_iff, List.contains_iff_mem]
  unfold isKnown pagesOfExecution
  simp only [List.any_eq_true, List.mem_map, List.mem_filter, Bool.and_eq_true,
    decide_eq_true_eq]
  constructor
  · rintro ⟨page, hpage, ⟨-, hid⟩, hurl⟩
    exact ⟨page, ⟨hpage, hid⟩, hurl⟩
  · rintro ⟨page, ⟨hpage, hid⟩, hurl⟩
    obtain ⟨e', he', hwithin⟩ := h.within page hpage
    have hof := hwithin.isOf
    simp only [Page.isOf, Bool.and_eq_true, decide_eq_true_eq] at hof
    obtain rfl := hkeyed.execution_eq he' he (hof.1.1.symm.trans (hid.trans hexecution))
    exact ⟨page, hpage, ⟨hof.2.trans hmonth.symm, hid⟩, hurl⟩

/-- After every run: a committed result adds, one level deeper, exactly the first new URLs of its
links, as many as the page limit leaves, and none at the depth limit; and the pages of every
execution have distinct URLs, are no more than its limit, are no deeper than its limit and have its
hostname. -/
theorem discovery_exact (env : Env) (actions : List Action) :
    (∀ now, ∀ lease ∈ (System.after env actions).leases, ∀ result u s',
      Returns (commitPageResult env now lease result) (System.after env actions).store u s' →
      ∃ page ∈ (System.after env actions).store.pages, page.isLeasedUnder lease = true ∧
      ∃ e ∈ (System.after env actions).store.executions, page.executionId = e.id ∧
      ∃ added : List Page,
        s'.pages.map Page.fixed =
          (System.after env actions).store.pages.map Page.fixed ++ added.map Page.fixed ∧
        (∀ new ∈ added, new.executionId = e.id ∧ new.hostname = e.targetHostname ∧
          new.discoveryDepth = page.discoveryDepth + 1) ∧
        added.map Page.normalizedURL =
          if shouldRetryPage env result page.attemptCount = true ∨
              e.maxDepth ≤ page.discoveryDepth then []
          else (newURLs env lease result.links.elements
            (System.after env actions).store.pages).take (e.maxPages - e.discoveredCount).toNat) ∧
    ∀ e ∈ (System.after env actions).store.executions,
      ((pagesOfExecution (System.after env actions).store.pages e.id).map
        Page.normalizedURL).Nodup ∧
      ((pagesOfExecution (System.after env actions).store.pages e.id).length : ℤ) ≤ e.maxPages ∧
      ∀ page ∈ pagesOfExecution (System.after env actions).store.pages e.id,
        (page.discoveryDepth : ℤ) ≤ e.maxDepth ∧ page.hostname = e.targetHostname ∧
          (page.discoveryDepth = 0 ∨
            env.isHTTPURLInScope page.normalizedURL e.targetHostname = true) := by
  have hsys := explored_after env actions
  obtain ⟨-, hconserved, -⟩ := conserved_after env actions
  generalize System.after env actions = sys at hsys hconserved ⊢
  refine ⟨fun now lease hlease result u s' h ↦ ?_, fun e he ↦ ⟨?_, ?_, fun page hpage ↦ ?_⟩⟩
  · obtain ⟨page, hpage, hleased, -, hcases⟩ := commitPageResult_cases h
    have hof := hsys.leases lease hlease
    have hnew := unseenURLs_eq_newURLs hsys.store hsys.keyed.store hof result.links.elements
    obtain ⟨e, he, page', hpage', hisOf, hexecution, -, -, hhost, hdepth, hmax, hid⟩ := hof
    obtain rfl := hsys.keyed.store.page_eq hpage' hpage
      (hid.trans (isLeasedUnder_iff.1 hleased).2.1.symm)
    obtain ⟨e₁, he₁, hwithin⟩ := hsys.store.within page' hpage
    have hof₁ := hwithin.isOf
    simp only [Page.isOf, Bool.and_eq_true, decide_eq_true_eq] at hisOf hof₁
    obtain rfl := hsys.keyed.store.execution_eq he₁ he (hof₁.1.1.symm.trans hisOf.1.1)
    refine ⟨page', hpage, hleased, e₁, he, hisOf.1.1, ?_⟩
    rcases hcases with ⟨hretry, e', -, rfl⟩ | ⟨hretry, added, payload, outboxId, e', -, hadded,
      hurls, -, -, rfl⟩
    · refine ⟨[], ?_, by simp, by rw [if_pos (.inl hretry)]; rfl⟩
      rw [List.map_nil, List.append_nil]
      exact ((sameFrame_requeued now lease page'.attemptCount _).trans
        (sameFrame_withProgressEvent _ e' lease.correlationId now)).pages
    · refine ⟨added, ?_, fun new hmem ↦ ?_, ?_⟩
      · rw [(sameFrame_withProgressEvent _ e' lease.correlationId now).pages]
        show (_ ++ added).map Page.fixed = _
        rw [List.map_append]
        exact congrArg (· ++ _) (map_fixed_update_pages fun _ ↦ rfl)
      · obtain ⟨url, heq⟩ := hadded.shape new hmem
        rw [heq]
        exact ⟨hexecution, hhost.trans hwithin.hostname, congrArg (· + 1) hdepth⟩
      · have hfind : sys.store.executions.find? (fun e ↦ decide (e.id = lease.executionId)) =
            some e₁ := by
          rw [hexecution]
          exact Table.find?_key hsys.keyed.store.executionIds he
        have hpages : lease.maxPages = e₁.maxPages := by
          obtain ⟨e₂, he₂, -, -, -, hexecution₂, -, -, hmax₂, -⟩ := hsys.keyed.leases lease hlease
          obtain rfl := hsys.keyed.store.execution_eq he₂ he
            (hexecution₂.symm.trans hexecution)
          exact hmax₂
        rw [hurls]
        unfold discoveredURLs
        rw [hfind, hnew, hretry, hdepth, hmax, hpages]
        simp only [Bool.false_eq_true, false_or, ge_iff_le]
  · refine List.Nodup.of_map (fun url ↦ (e.id, url)) ?_
    rw [List.map_map]
    refine List.Nodup.sublist ?_ hsys.store.distinct
    have hkeys : (pagesOfExecution sys.store.pages e.id).map
        ((fun url ↦ (e.id, url)) ∘ Page.normalizedURL) =
        (pagesOfExecution sys.store.pages e.id).map Page.urlKey := by
      refine List.map_congr_left fun page hpage ↦ ?_
      have hid : page.executionId = e.id := of_decide_eq_true (List.mem_filter.1 hpage).2
      exact Prod.ext hid.symm rfl
    rw [hkeys]
    exact List.filter_sublist.map _
  · have hcounted := hconserved.counted e he
    have hwell := hconserved.executions e he
    have hlimit := hwell.limit
    rw [hwell.total, Execution.outstanding] at hlimit
    rw [length_pagesOfExecution]
    push_cast
    rw [← hcounted .queued, ← hcounted .leased, ← hcounted .persisting, ← hcounted .succeeded,
      ← hcounted .failed, ← hcounted .skipped, ← hcounted .cancelled]
    exact hlimit
  · obtain ⟨hmem, hid⟩ := List.mem_filter.1 hpage
    obtain ⟨e₁, he₁, hwithin⟩ := hsys.store.within page hmem
    have hof₁ := hwithin.isOf
    simp only [Page.isOf, Bool.and_eq_true, decide_eq_true_eq] at hof₁
    obtain rfl := hsys.keyed.store.execution_eq he₁ he
      (hof₁.1.1.symm.trans (of_decide_eq_true hid))
    exact ⟨hwithin.depth, hwithin.hostname, hwithin.inScope⟩

end WebLens.Crawler
