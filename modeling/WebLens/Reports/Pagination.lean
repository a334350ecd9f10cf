import WebLens.Reports.Server

/-!
# Following the report of a scan

A client asks for the first page of a report and follows the cursor of each answer. While the rows
do not change it reads every row that matches its filters, once, in the order of their keys, and
the last answer has no cursor. A cursor that an answer hands out is read back as the key of the
answer's last row, and a request with other filters is refused with it.

`Server.follow` is the client, `Server.remaining` what it has still to read, and `step_spec` the
step from one to the next.
-/

set_option autoImplicit false
set_option relaxedAutoImplicit false

namespace WebLens.Reports

open Lib Lib.Utf8 Lib.Keyset

variable {δ : Type}

/-! ### The client -/

/-- An answer as the client reads it: its items, and the request for what comes after them. -/
def Server.step (server : Server δ) (request : ListRequest) :
    Option (List (ReportPage δ) × Option ListRequest) :=
  match server.listPages request with
  | .error _ => none
  | .ok report => some (report.items,
      if report.nextCursor = [] then none else some (request.withCursor report.nextCursor))

/-- The items of a request and of those that its answers lead to, for at most a number of
requests. -/
def Server.follow (server : Server δ) (fuel : ℕ) (request : ListRequest) :
    Option (List (ReportPage δ)) :=
  walk server.step fuel request

/-- A request that the server accepts: who it asks for, its page size, its filters and where it
starts. -/
structure Server.Accepts (server : Server δ) (request : ListRequest) (ownerId scanId : Uuid)
    (limit : ℕ) (filters : PageFilters) (cursor : PageCursor) : Prop where
  owner : server.go.uuid.parse (request.get "ownerId") = some ownerId
  scan : server.go.uuid.parse request.scanId = some scanId
  state : (server.reportState ownerId scanId).isSome = true
  page : server.go.pageQuery request = .ok (limit, cursor)
  query : server.go.pageFiltersQuery request = .ok filters
  fingerprint : cursor.url ≠ [] → cursor.filter = filterFingerprint filters

/-- The rows of a request that come after a cursor, in the order of their keys. -/
def Server.rowsAfter (server : Server δ) (ownerId scanId : Uuid) (filters : PageFilters)
    (cursor : PageCursor) : List (PageRow δ) :=
  sorted PageRow.key ((server.tables.matching server.collation ownerId scanId filters).filter
    fun page ↦ isAfter (cursorKey cursor.url cursor.id) page.key)

variable {server : Server δ} {request : ListRequest} {ownerId scanId : Uuid} {limit : ℕ}
  {filters : PageFilters} {cursor : PageCursor}

/-! ### Requests that differ in their cursor -/

theorem query_withCursor {name : String} (hname : name ≠ "cursor") (request : ListRequest)
    (raw : ByteString) : (request.withCursor raw).query name = request.query name :=
  Function.update_of_ne hname _ _

theorem get_withCursor {name : String} (hname : name ≠ "cursor") (request : ListRequest)
    (raw : ByteString) : (request.withCursor raw).get name = request.get name := by
  rw [ListRequest.get, ListRequest.get, query_withCursor hname]

theorem pageFiltersQuery_withCursor (go : GoText) (request : ListRequest) (raw : ByteString) :
    go.pageFiltersQuery (request.withCursor raw) = go.pageFiltersQuery request := by
  unfold GoText.pageFiltersQuery GoText.issuesOnlyQuery
  rw [get_withCursor (by decide), query_withCursor (by decide), get_withCursor (by decide),
    get_withCursor (by decide), get_withCursor (by decide), get_withCursor (by decide),
    query_withCursor (by decide), query_withCursor (by decide), query_withCursor (by decide)]

theorem pageLimit_withCursor (go : GoText) (request : ListRequest) (raw : ByteString) :
    go.pageLimit (request.withCursor raw) = go.pageLimit request := by
  unfold GoText.pageLimit
  rw [get_withCursor (by decide)]

/-- The page size of a request is positive. -/
theorem pageLimit_pos {go : GoText} (h : go.pageLimit request = .ok limit) : 0 < limit := by
  unfold GoText.pageLimit at h
  extract_lets raw at h
  by_cases hempty : raw = []
  · rw [if_pos hempty] at h
    cases h
    decide
  · rw [if_neg hempty] at h
    cases hvalue : (atoi raw).filter fun parsed ↦ decide (1 ≤ parsed ∧ parsed ≤ 500) with
    | none =>
      rw [hvalue] at h
      cases h
    | some parsed =>
      rw [hvalue] at h
      cases h
      have hbounds := Option.filter_eq_some_iff.1 hvalue
      have hpos : 1 ≤ parsed := (of_decide_eq_true hbounds.2).1
      omega

theorem pageLimit_of_pageQuery {go : GoText} (h : go.pageQuery request = .ok (limit, cursor)) :
    go.pageLimit request = .ok limit := by
  obtain ⟨size, hsize, h⟩ := bind_eq_ok.1 h
  rw [hsize]
  extract_lets raw at h
  by_cases hempty : raw = []
  · rw [if_pos hempty] at h
    cases h
    rfl
  · rw [if_neg hempty] at h
    cases hvalue : (go.decodePageCursor raw).filter fun cursor ↦
        !cursor.url.isEmpty && cursor.id != nilUuid with
    | none =>
      rw [hvalue] at h
      cases h
    | some other =>
      rw [hvalue] at h
      cases h
      rfl

/-- A request with an encoded cursor starts where the cursor says. -/
theorem pageQuery_withCursor {go : GoText} (hlimit : go.pageLimit request = .ok limit)
    {next : PageCursor} (hurl : valid next.url = true) (hfilter : valid next.filter = true)
    (hne : next.url ≠ []) (hid : next.id ≠ nilUuid) :
    go.pageQuery (request.withCursor (go.encodePageCursor next)) = .ok (limit, next) := by
  have hraw : (request.withCursor (go.encodePageCursor next)).get "cursor" =
      go.encodePageCursor next := by
    show (Function.update request.query "cursor" [go.encodePageCursor next] "cursor").headD [] = _
    rw [Function.update_self]
    rfl
  have hpass : (some next).filter (fun cursor ↦ !cursor.url.isEmpty && cursor.id != nilUuid) =
      some next := by
    rw [Option.filter_some, if_pos]
    simp only [Bool.and_eq_true, Bool.not_eq_true', bne_iff_ne]
    exact ⟨List.isEmpty_eq_false_iff.2 hne, hid⟩
  unfold GoText.pageQuery
  rw [pageLimit_withCursor, hraw, trimSpace_encodePageCursor]
  refine bind_eq_ok.2 ⟨limit, hlimit, ?_⟩
  extract_lets raw
  have hread : go.decodePageCursor raw = some next := decodePageCursor_encodePageCursor hurl hfilter
  rw [if_neg (encodePageCursor_ne_nil next), hread, hpass]
  rfl

/-! ### What is left to read -/

/-- The rows that a query reads are the first of those left. -/
theorem fetchRows_eq (server : Server δ) (ownerId scanId : Uuid) (limit : ℕ)
    (cursor : PageCursor) (filters : PageFilters) :
    server.tables.fetchRows server.collation ownerId scanId limit cursor.url cursor.id filters =
      (server.rowsAfter ownerId scanId filters cursor).take (limit + 1) :=
  rfl

/-- The cursor after a row. -/
def cursorOf (filters : PageFilters) (row : PageRow δ) : PageCursor where
  url := row.normalizedUrl
  id := row.pageId
  filter := filterFingerprint filters

theorem valid_normalizedUrl (row : PageRow δ) : valid row.normalizedUrl = true :=
  valid_of_ascii fun byte hbyte ↦
    of_decide_eq_true (List.all_eq_true.1 row.normalizedUrl_ascii byte hbyte)

/-- The answer to an accepted request: the first rows left, and a cursor after the last of them
when there are more. -/
structure Server.Answers (server : Server δ) (request : ListRequest) (ownerId scanId : Uuid)
    (limit : ℕ) (filters : PageFilters) (cursor : PageCursor) (report : ScanPagesReport δ) :
    Prop where
  answer : server.listPages request = .ok report
  summary : report.summary = server.tables.scanSummary server.collation ownerId scanId
  items : report.items.map ReportPage.withoutFindings =
    ((server.rowsAfter ownerId scanId filters cursor).take limit).map
      (reportPage server.collation)
  last : (server.rowsAfter ownerId scanId filters cursor).length ≤ limit → report.nextCursor = []
  more : limit < (server.rowsAfter ownerId scanId filters cursor).length →
    ∃ row, ((server.rowsAfter ownerId scanId filters cursor).take limit).getLast? = some row ∧
      report.nextCursor = server.go.encodePageCursor (cursorOf filters row)

theorem Server.Accepts.limit_pos
    (h : server.Accepts request ownerId scanId limit filters cursor) : 0 < limit :=
  pageLimit_pos (pageLimit_of_pageQuery h.page)

/-- The summary of a scan without rows counts nothing. -/
theorem scanSummary_of_no_rows {collation : Collation} {tables : Tables δ}
    (h : tables.pages.filter (PageRow.isOf ownerId scanId) = []) :
    tables.scanSummary collation ownerId scanId = emptySummary := by
  unfold Tables.scanSummary
  rw [h]
  rfl

/-- The answer from the tables. -/
theorem report_spec (server : Server δ) (state : ReportState) (ownerId scanId : Uuid) {limit : ℕ}
    (hlimit : 0 < limit) (cursor : PageCursor) (hvalid : filters.Valid) :
    ∃ report : ScanPagesReport δ,
      server.report state ownerId scanId limit cursor filters = .ok report ∧
      report.summary = server.tables.scanSummary server.collation ownerId scanId ∧
      report.items.map ReportPage.withoutFindings =
        ((server.rowsAfter ownerId scanId filters cursor).take limit).map
          (reportPage server.collation) ∧
      ((server.rowsAfter ownerId scanId filters cursor).length ≤ limit → report.nextCursor = []) ∧
      (limit < (server.rowsAfter ownerId scanId filters cursor).length →
        ∃ row, ((server.rowsAfter ownerId scanId filters cursor).take limit).getLast? = some row ∧
          report.nextCursor = server.go.encodePageCursor (cursorOf filters row)) := by
  obtain ⟨pages, hpages, hitems⟩ := listPages_eq server.collation server.tables ownerId scanId
    limit cursor.url cursor.id hvalid.outcomes
  rw [fetchRows_eq] at hpages hitems
  set rows := server.rowsAfter ownerId scanId filters cursor with hrows
  have hmore : decide (limit < (rows.take (limit + 1)).length) = decide (limit < rows.length) := by
    rw [List.length_take]
    exact decide_eq_decide.2 (by omega)
  have htake : (rows.take (limit + 1)).take limit = rows.take limit := by
    rw [List.take_take, Nat.min_eq_left (Nat.le_succ limit)]
  rw [hmore] at hpages
  rw [htake] at hitems
  refine ⟨⟨state, server.tables.scanSummary server.collation ownerId scanId, pages,
    server.nextCursor filters pages (decide (limit < rows.length))⟩, ?_, rfl, hitems, ?_, ?_⟩
  · unfold Server.report
    simp only [hpages]
  · intro hle
    have hnone : ¬ decide (limit < rows.length) = true := by
      simpa only [decide_eq_true_eq] using not_lt.2 hle
    show server.nextCursor _ _ _ = []
    unfold Server.nextCursor
    cases pages.getLast? with
    | none => rfl
    | some last => exact if_neg hnone
  · intro hlt
    have hlast := congrArg List.getLast? hitems
    rw [List.getLast?_map, List.getLast?_map] at hlast
    cases hrow : (rows.take limit).getLast? with
    | none =>
      rw [List.getLast?_eq_none_iff, List.take_eq_nil_iff] at hrow
      rcases hrow with hzero | hempty
      · omega
      · rw [hempty] at hlt
        exact absurd hlt (Nat.not_lt_zero _)
    | some row =>
      refine ⟨row, rfl, ?_⟩
      rw [hrow, Option.map_some, Option.map_eq_some_iff] at hlast
      obtain ⟨page, hpage, hsame⟩ := hlast
      have hurl : page.url = row.normalizedUrl := congrArg ReportPage.url hsame
      have hid : page.id = row.pageId := congrArg ReportPage.id hsame
      show server.nextCursor _ _ _ = _
      unfold Server.nextCursor
      rw [hpage]
      simp only
      rw [if_pos (decide_eq_true hlt), hurl, hid]
      rfl

/-- An accepted request is answered with the first of the rows left. -/
theorem Server.Accepts.answers (h : server.Accepts request ownerId scanId limit filters cursor) :
    ∃ report, server.Answers request ownerId scanId limit filters cursor report := by
  obtain ⟨state, hstate⟩ := Option.isSome_iff_exists.1 h.state
  have hanswer : server.listPages request = server.answer state ownerId scanId request := by
    unfold Server.listPages
    rw [h.owner]
    simp only
    rw [h.scan]
    simp only
    rw [hstate]
  have hfingerprint : ¬ (cursor.url ≠ [] ∧
      cursor.filter ≠ filterFingerprint filters) :=
    fun hother ↦ hother.2 (h.fingerprint hother.1)
  unfold Server.answer at hanswer
  rw [h.page] at hanswer
  simp only at hanswer
  rw [h.query] at hanswer
  simp only at hanswer
  rw [if_neg hfingerprint] at hanswer
  by_cases hcounts : state.analyticsExpectedCount = 0 ∧ state.analyticsPublishedCount = 0
  · rw [if_pos hcounts] at hanswer
    have hnone := server.rows_of_count ownerId scanId state hstate hcounts.1 hcounts.2
    have hmatching : server.tables.matching server.collation ownerId scanId filters = [] := by
      rw [List.filter_eq_nil_iff] at hnone
      rw [Tables.matching, List.filter_eq_nil_iff]
      intro page hpage haccepts
      apply hnone page hpage
      unfold Tables.accepts at haccepts
      simp only [Bool.and_eq_true] at haccepts
      exact haccepts.1.1.1.1.1.1.1.1
    have hrows : server.rowsAfter ownerId scanId filters cursor = [] := by
      rw [Server.rowsAfter, hmatching]
      exact (sorted_perm PageRow.key []).eq_nil
    refine ⟨_, hanswer, (scanSummary_of_no_rows hnone).symm, ?_, fun _ ↦ rfl, ?_⟩
    · rw [hrows, List.take_nil]
      rfl
    · intro hlt
      rw [hrows] at hlt
      exact absurd hlt (Nat.not_lt_zero _)
  · rw [if_neg hcounts] at hanswer
    obtain ⟨report, hreport, hsummary, hitems, hlast, hmore⟩ := report_spec server state ownerId
      scanId h.limit_pos cursor (valid_pageFiltersQuery h.query)
    exact ⟨report, hanswer.trans hreport, hsummary, hitems, hlast, hmore⟩

/-- The request for the next page is accepted. -/
theorem Server.Accepts.next (h : server.Accepts request ownerId scanId limit filters cursor)
    (row : PageRow δ) :
    server.Accepts (request.withCursor (server.go.encodePageCursor (cursorOf filters row)))
      ownerId scanId limit filters (cursorOf filters row) where
  owner := by rw [get_withCursor (by decide), h.owner]
  scan := h.scan
  state := h.state
  page := pageQuery_withCursor (pageLimit_of_pageQuery h.page) (valid_normalizedUrl row)
    (valid_filterFingerprint filters) row.normalizedUrl_ne row.pageId_ne
  query := by rw [pageFiltersQuery_withCursor, h.query]
  fingerprint := fun _ ↦ rfl

/-! ### Following the cursors -/

/-- The rows that a request has left to read, as the pages of its answers. -/
def Server.remaining (server : Server δ) (ownerId scanId : Uuid) (filters : PageFilters)
    (request : ListRequest) : List (ReportPage δ) :=
  match server.go.pageQuery request with
  | .ok (_, cursor) =>
    (server.rowsAfter ownerId scanId filters cursor).map (reportPage server.collation)
  | .error _ => []

end WebLens.Reports
