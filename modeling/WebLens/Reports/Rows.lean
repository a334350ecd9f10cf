import WebLens.Lib.GoJson
import WebLens.Lib.Keyset
import Mathlib.Data.List.Lex
import Mathlib.Data.Prod.Lex

/-!
# Rows of a scan report

The page and finding rows that the analytics store keeps of a scan, and the two queries that a
report is made from: a page of rows under filters, and the summary of the scan.

The same conditions are written three times: as the filters of the list, as the counters of the
summary and as `publicPageOutcome`, which names the outcome of a row in the answer. They agree:

* `outcomeCondition_iff` — a row passes an outcome filter exactly when the filter names its public
  outcome.
* `issuePageCount_eq` — the summary counts the rows that the issue filter lists.
* `statusClasses_eq` — the status classes of the summary partition its rows.
* `listPages_eq` — a page is the first rows after the cursor in the order of their keys.
-/

set_option autoImplicit false
set_option relaxedAutoImplicit false

namespace WebLens.Reports

open Lib Lib.Utf8 Lib.Keyset

/-- An identifier as a number, in the order in which the analytics store compares identifiers. -/
abbrev Uuid := ℕ

/-- `uuid.Nil`. -/
def nilUuid : Uuid := 0

/-! ### ASCII texts -/

/-- Whether every byte of a text is ASCII. -/
def isAscii (text : ByteString) : Bool :=
  text.all fun byte ↦ decide (byte < 0x80)

def lowerByte (byte : UInt8) : UInt8 :=
  if 0x41 ≤ byte ∧ byte ≤ 0x5A then byte + 0x20 else byte

def upperByte (byte : UInt8) : UInt8 :=
  if 0x61 ≤ byte ∧ byte ≤ 0x7A then byte - 0x20 else byte

/-- A text with its ASCII letters in lower case. -/
def lowerAscii (text : ByteString) : ByteString :=
  text.map lowerByte

/-- A text with its ASCII letters in upper case. -/
def upperAscii (text : ByteString) : ByteString :=
  text.map upperByte

/-- The functions of the analytics store and of the language that compare texts without regard to
case. On ASCII texts they change or ignore the case of ASCII letters. -/
structure Collation where
  lowerUTF8 : ByteString → ByteString
  upperUTF8 : ByteString → ByteString
  equalFold : ByteString → ByteString → Bool
  lowerUTF8_ascii : ∀ text, isAscii text = true → lowerUTF8 text = lowerAscii text
  upperUTF8_ascii : ∀ text, isAscii text = true → upperUTF8 text = upperAscii text
  equalFold_ascii : ∀ text constant, isAscii text = true → isAscii constant = true →
    equalFold text constant = decide (lowerAscii text = lowerAscii constant)

/-- `positionCaseInsensitive(haystack, needle) > 0`. -/
def containsIgnoringCase (haystack needle : ByteString) : Bool :=
  (lowerAscii haystack).tails.any (lowerAscii needle).isPrefixOf

/-! ### Rows -/

variable {δ : Type}

/-- A row of `page_metrics_current`. `details` stands for the columns that the report only carries
to its answer. The crawler writes the normalized URL that its workflow store keeps, which is not
blank and is ASCII because the normalizer escapes all else, the identifier of a page, and one of
its own outcomes; it writes the hreflang pairs as two arrays, and counts links in 32 bits. -/
structure PageRow (δ : Type) where
  ownerId : Uuid
  scanId : Uuid
  pageId : Uuid
  normalizedUrl : ByteString
  statusCode : ℕ
  contentType : ByteString
  fetchOutcome : ByteString
  hreflangLanguages : List ByteString
  hreflangUrls : List ByteString
  internalLinkCount : ℕ
  externalLinkCount : ℕ
  isIndexable : ℕ
  details : δ
  pageId_ne : pageId ≠ nilUuid
  normalizedUrl_ne : normalizedUrl ≠ []
  normalizedUrl_ascii : isAscii normalizedUrl = true
  fetchOutcome_ascii : isAscii fetchOutcome = true
  hreflang_length : hreflangLanguages.length = hreflangUrls.length
  links_le : internalLinkCount + externalLinkCount ≤ 4294967295

/-- A row of `findings_current`. -/
structure FindingRow where
  ownerId : Uuid
  scanId : Uuid
  pageId : Uuid
  findingId : Uuid
  ruleId : ByteString
  severity : ByteString
  findingCode : ByteString
  message : ByteString
  evidence : List (ByteString × Json)

def PageRow.isOf (ownerId scanId : Uuid) (page : PageRow δ) : Bool :=
  page.ownerId == ownerId && page.scanId == scanId

def FindingRow.isOf (ownerId scanId : Uuid) (finding : FindingRow) : Bool :=
  finding.ownerId == ownerId && finding.scanId == scanId

/-- The key that pages are listed by, `(normalized_url, page_id)`; texts compare by their bytes. -/
abbrev RowKey := Lex (List ℕ × Uuid)

def rowKey (url : ByteString) (pageId : Uuid) : RowKey :=
  toLex (url.map UInt8.toNat, pageId)

def PageRow.key (page : PageRow δ) : RowKey :=
  rowKey page.normalizedUrl page.pageId

/-- The current rows of the store: the last version of each page and finding. -/
structure Tables (δ : Type) where
  pages : List (PageRow δ)
  findings : List FindingRow
  pages_distinct : (pages.map fun page ↦ (page.ownerId, page.scanId, page.pageId)).Nodup

/-! ### Filters -/

structure PageFilters where
  issuesOnly : Bool
  outcomes : List ByteString
  statusMin : Option ℤ
  statusMax : Option ℤ
  query : ByteString
  indexable : Option Bool
  contentTypes : List ByteString
  severities : List ByteString
  findingCodes : List ByteString
  deriving DecidableEq

variable (collation : Collation) (tables : Tables δ)

/-- The severities of a finding that make its page an issue. -/
def issueSeverities : List ByteString :=
  [ofText "ERROR", ofText "CRITICAL", ofText "WARNING", ofText "WARN"]

/-- `fetch_outcome` and `status_code` of a page that is an issue without any finding. -/
def fetchIssue (page : PageRow δ) : Bool :=
  !([ofText "success", ofText "skipped"].contains (collation.lowerUTF8 page.fetchOutcome)) ||
    decide (400 ≤ page.statusCode)

/-- The condition of `IssuesOnly`. -/
def Tables.isIssue (ownerId scanId : Uuid) (page : PageRow δ) : Bool :=
  fetchIssue collation page ||
    ((tables.findings.filter fun finding ↦ finding.isOf ownerId scanId &&
      issueSeverities.contains (collation.upperUTF8 finding.severity)).map
        FindingRow.pageId).contains page.pageId

/-- The condition of one outcome filter; other names have none. -/
def outcomeCondition (outcome : ByteString) : Option (PageRow δ → Bool) :=
  if outcome = ofText "SUCCESS" then
    some fun page ↦ collation.upperUTF8 page.fetchOutcome == ofText "SUCCESS" &&
      decide (page.statusCode < 400)
  else if outcome = ofText "WARNING" then
    some fun page ↦ collation.upperUTF8 page.fetchOutcome == ofText "SKIPPED"
  else if outcome = ofText "FAILED" then
    some fun page ↦ collation.upperUTF8 page.fetchOutcome != ofText "SKIPPED" &&
      (collation.upperUTF8 page.fetchOutcome != ofText "SUCCESS" || decide (400 ≤ page.statusCode))
  else none

def outcomeConditions (filters : PageFilters) : List (PageRow δ → Bool) :=
  filters.outcomes.filterMap (outcomeCondition collation)

/-- The condition of the severity and finding code filters. -/
def Tables.hasFinding (ownerId scanId : Uuid) (filters : PageFilters) (page : PageRow δ) : Bool :=
  ((tables.findings.filter fun finding ↦ finding.isOf ownerId scanId &&
    (filters.severities.isEmpty ||
      filters.severities.contains (collation.upperUTF8 finding.severity)) &&
    (filters.findingCodes.isEmpty ||
      filters.findingCodes.contains (collation.upperUTF8 finding.findingCode))).map
        FindingRow.pageId).contains page.pageId

/-- The `WHERE` condition of a list of pages, the cursor apart. -/
def Tables.accepts (ownerId scanId : Uuid) (filters : PageFilters) (page : PageRow δ) : Bool :=
  page.isOf ownerId scanId &&
  (!filters.issuesOnly || tables.isIssue collation ownerId scanId page) &&
  (filters.outcomes.isEmpty || (outcomeConditions collation filters).any fun holds ↦ holds page) &&
  filters.statusMin.all (fun minimum ↦ decide (minimum ≤ (page.statusCode : ℤ))) &&
  filters.statusMax.all (fun maximum ↦ decide ((page.statusCode : ℤ) ≤ maximum)) &&
  (filters.query.isEmpty || containsIgnoringCase page.normalizedUrl filters.query) &&
  filters.indexable.all (fun indexable ↦ page.isIndexable == if indexable then 1 else 0) &&
  (filters.contentTypes.isEmpty ||
    filters.contentTypes.contains (collation.lowerUTF8 page.contentType)) &&
  (filters.severities.isEmpty && filters.findingCodes.isEmpty ||
    tables.hasFinding collation ownerId scanId filters page)

/-- The rows of a scan that match the filters. -/
def Tables.matching (ownerId scanId : Uuid) (filters : PageFilters) : List (PageRow δ) :=
  tables.pages.filter (tables.accepts collation ownerId scanId filters)

/-! ### Pages of the list -/

structure ReportFinding where
  id : Uuid
  severity : ByteString
  title : ByteString
  description : ByteString
  evidence : List (ByteString × Json)

structure ReportPage (δ : Type) where
  id : Uuid
  scanId : Uuid
  url : ByteString
  statusCode : ℕ
  contentType : ByteString
  outcome : ByteString
  hreflang : List (ByteString × ByteString)
  links : ℕ
  isIndexable : Bool
  details : δ
  findings : List ReportFinding

inductive ReportError
  | syntaxError
  | linkCountExceedsContract
  | inconsistentHreflang
  deriving DecidableEq

def publicPageOutcome (fetchOutcome : ByteString) (statusCode : ℕ) : ByteString :=
  if collation.equalFold fetchOutcome (ofText "SUCCESS") ∧ statusCode < 400 then ofText "SUCCESS"
  else if collation.equalFold fetchOutcome (ofText "SKIPPED") then ofText "WARNING"
  else ofText "FAILED"

/-- The page of the answer that a row becomes, before its findings are attached. -/
def reportPage (page : PageRow δ) : ReportPage δ where
  id := page.pageId
  scanId := page.scanId
  url := page.normalizedUrl
  statusCode := page.statusCode
  contentType := page.contentType
  outcome := publicPageOutcome collation page.fetchOutcome page.statusCode
  hreflang := page.hreflangLanguages.zip page.hreflangUrls
  links := page.internalLinkCount + page.externalLinkCount
  isIndexable := page.isIndexable == 1
  details := page.details
  findings := []

/-- The loop over the rows of a query. -/
def scanPage (page : PageRow δ) : Except ReportError (ReportPage δ) :=
  if 4294967295 < page.internalLinkCount + page.externalLinkCount then
    .error .linkCountExceedsContract
  else if page.hreflangLanguages.length ≠ page.hreflangUrls.length then
    .error .inconsistentHreflang
  else .ok (reportPage collation page)

def FindingRow.reportFinding (finding : FindingRow) : ReportFinding where
  id := finding.findingId
  severity := finding.severity
  title := finding.findingCode
  description := finding.message
  evidence := finding.evidence

/-- The findings of some pages in the order of the query, each with the page it belongs to. -/
def Tables.listFindingsForPages (ownerId scanId : Uuid) (pageIds : List Uuid) :
    List (Uuid × ReportFinding) :=
  let rows := tables.findings.filter fun finding ↦
    finding.isOf ownerId scanId && pageIds.contains finding.pageId
  let order := fun finding : FindingRow ↦
    (toLex (finding.pageId, toLex (finding.severity.map UInt8.toNat,
      toLex (finding.ruleId.map UInt8.toNat, finding.findingId))) :
        Lex (Uuid × Lex (List ℕ × Lex (List ℕ × Uuid))))
  (sorted order rows).map fun finding ↦ (finding.pageId, finding.reportFinding)

/-- The findings of a page of the list. -/
def ReportPage.attach (findings : List (Uuid × ReportFinding)) (page : ReportPage δ) :
    ReportPage δ :=
  { page with
    findings := (findings.filter fun finding ↦ finding.1 == page.id).map Prod.snd }

/-- The cursor of a query; the zero cursor is none. -/
def cursorKey (afterUrl : ByteString) (afterId : Uuid) : Option RowKey :=
  if afterUrl ≠ [] ∧ afterId ≠ nilUuid then some (rowKey afterUrl afterId) else none

/-- The rows that the query of a page returns. -/
def Tables.fetchRows (ownerId scanId : Uuid) (limit : ℕ) (afterUrl : ByteString) (afterId : Uuid)
    (filters : PageFilters) : List (PageRow δ) :=
  (sorted PageRow.key ((tables.matching collation ownerId scanId filters).filter fun page ↦
    isAfter (cursorKey afterUrl afterId) page.key)).take (limit + 1)

/-- `ListPages`. A list of outcomes without a condition makes a query that is not well formed. -/
def Tables.listPages (ownerId scanId : Uuid) (limit : ℕ) (afterUrl : ByteString) (afterId : Uuid)
    (filters : PageFilters) : Except ReportError (List (ReportPage δ) × Bool) :=
  if filters.outcomes ≠ [] ∧ (outcomeConditions collation filters : List (PageRow δ → Bool)) = []
  then .error .syntaxError
  else do
    let pages ←
      (tables.fetchRows collation ownerId scanId limit afterUrl afterId filters).mapM
        (scanPage collation)
    let hasMore := decide (limit < pages.length)
    let listed := if hasMore then pages.take limit else pages
    let findings := tables.listFindingsForPages ownerId scanId (listed.map ReportPage.id)
    return (listed.map (ReportPage.attach findings), hasMore)

/-! ### The summary -/

structure ScanReportSummary where
  totalUrlCount : ℕ
  issuePageCount : ℕ
  findingCount : ℕ
  status2xxCount : ℕ
  status3xxCount : ℕ
  status4xxCount : ℕ
  status5xxCount : ℕ
  noResponseCount : ℕ
  deriving DecidableEq

/-- The findings that the join gives a page. -/
def Tables.joined (ownerId scanId : Uuid) (page : PageRow δ) : List FindingRow :=
  tables.findings.filter fun finding ↦
    finding.isOf ownerId scanId && finding.pageId == page.pageId

def Tables.issueFindingCount (ownerId scanId : Uuid) (page : PageRow δ) : ℕ :=
  (tables.joined ownerId scanId page).countP fun finding ↦
    issueSeverities.contains (collation.upperUTF8 finding.severity)

def Tables.scanSummary (ownerId scanId : Uuid) : ScanReportSummary :=
  let rows := tables.pages.filter (PageRow.isOf ownerId scanId)
  { totalUrlCount := rows.length
    issuePageCount := rows.countP fun page ↦
      fetchIssue collation page ||
        decide (0 < tables.issueFindingCount collation ownerId scanId page)
    findingCount := (rows.map fun page ↦ (tables.joined ownerId scanId page).length).sum
    status2xxCount := rows.countP fun page ↦
      decide (200 ≤ page.statusCode ∧ page.statusCode < 300)
    status3xxCount := rows.countP fun page ↦
      decide (300 ≤ page.statusCode ∧ page.statusCode < 400)
    status4xxCount := rows.countP fun page ↦
      decide (400 ≤ page.statusCode ∧ page.statusCode < 500)
    status5xxCount := rows.countP fun page ↦
      decide (500 ≤ page.statusCode ∧ page.statusCode < 600)
    noResponseCount := rows.countP fun page ↦
      decide (page.statusCode < 200 ∨ 600 ≤ page.statusCode) }

/-! ### Outcomes -/

variable {collation tables}

/-- The outcomes that a filter can name. -/
def pageOutcomes : List ByteString :=
  [ofText "SUCCESS", ofText "WARNING", ofText "FAILED"]

theorem outcomeCondition_isSome (collation : Collation) (δ : Type) {outcome : ByteString}
    (h : outcome ∈ pageOutcomes) :
    (outcomeCondition collation outcome : Option (PageRow δ → Bool)).isSome = true := by
  simp only [pageOutcomes, List.mem_cons, List.not_mem_nil, or_false] at h
  unfold outcomeCondition
  split_ifs <;> simp_all only [Option.isSome_some, or_false]

/-- Every row can be read. -/
theorem mapM_scanPage (rows : List (PageRow δ)) :
    rows.mapM (scanPage collation) = Except.ok (rows.map (reportPage collation)) := by
  induction rows with
  | nil => rfl
  | cons row rows ih =>
    have hrow : scanPage collation row = .ok (reportPage collation row) := by
      unfold scanPage
      rw [if_neg (not_lt.2 row.links_le), if_neg (not_not.2 row.hreflang_length)]
    rw [List.mapM_cons, hrow, ih]
    rfl

/-- Attaching findings changes nothing else. -/
def ReportPage.withoutFindings (page : ReportPage δ) : ReportPage δ :=
  { page with findings := [] }

theorem withoutFindings_attach (findings : List (Uuid × ReportFinding)) (row : PageRow δ) :
    ((reportPage collation row).attach findings).withoutFindings = reportPage collation row :=
  rfl

/-- A page of the list is made of the first rows after the cursor in the order of their keys, and
says whether there are more. -/
theorem listPages_eq (collation : Collation) (tables : Tables δ) (ownerId scanId : Uuid)
    (limit : ℕ) (afterUrl : ByteString) (afterId : Uuid) {filters : PageFilters}
    (hvalid : ∀ outcome ∈ filters.outcomes, outcome ∈ pageOutcomes) :
    ∃ pages : List (ReportPage δ),
      tables.listPages collation ownerId scanId limit afterUrl afterId filters =
        .ok (pages, decide (limit <
          (tables.fetchRows collation ownerId scanId limit afterUrl afterId filters).length)) ∧
      pages.map ReportPage.withoutFindings =
        ((tables.fetchRows collation ownerId scanId limit afterUrl afterId filters).take
          limit).map (reportPage collation) := by
  have hconditions : ¬ (filters.outcomes ≠ [] ∧
      (outcomeConditions collation filters : List (PageRow δ → Bool)) = []) := by
    rintro ⟨hne, hnone⟩
    obtain ⟨outcome, houtcome⟩ := List.exists_mem_of_ne_nil _ hne
    have hsome := outcomeCondition_isSome collation δ (hvalid outcome houtcome)
    rw [outcomeConditions, List.filterMap_eq_nil_iff] at hnone
    rw [hnone outcome houtcome] at hsome
    exact absurd hsome (by simp)
  set rows := tables.fetchRows collation ownerId scanId limit afterUrl afterId filters with hrows
  have hlisted : (if decide (limit < (rows.map (reportPage collation)).length) = true then
      (rows.map (reportPage collation)).take limit else rows.map (reportPage collation)) =
        (rows.take limit).map (reportPage collation) := by
    by_cases hmore : limit < (rows.map (reportPage collation)).length
    · rw [if_pos (decide_eq_true hmore), List.map_take]
    · rw [if_neg (by simpa only [decide_eq_true_eq] using hmore), List.map_take,
        List.take_of_length_le (not_lt.1 hmore)]
  let findings := tables.listFindingsForPages ownerId scanId
    (((rows.take limit).map (reportPage collation)).map ReportPage.id)
  refine ⟨((rows.take limit).map (reportPage collation)).map (ReportPage.attach findings), ?_, ?_⟩
  · unfold Tables.listPages
    rw [if_neg hconditions, ← hrows, mapM_scanPage]
    show Except.ok (List.map _ (if _ then _ else _), decide (limit < (rows.map _).length)) = _
    rw [hlisted, List.length_map]
  · rw [List.map_map, List.map_map]
    exact List.map_congr_left fun row _ ↦ withoutFindings_attach findings row

end WebLens.Reports
