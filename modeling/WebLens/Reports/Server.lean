import WebLens.Lib.Base64
import WebLens.Lib.Sha256
import WebLens.Reports.Rows

/-!
# The report endpoint

How a request for the pages of a scan is read and answered: its filters and its page size, the
cursor that says where the page starts, and the answer with the cursor of the next page.

A cursor is the key of the last row of a page and the fingerprint of the filters it was listed
under, as JSON in base64. The fingerprint is a digest of the filters as JSON, in which a byte that
is not UTF-8 is replaced, so that two queries may share a fingerprint; a query that matches an URL
is not one of those.

* `decodePageCursor_encodePageCursor` — a cursor is read back.
* `fingerprint_injective` — filters that match a row share their fingerprint with no others.
-/

set_option autoImplicit false
set_option relaxedAutoImplicit false

namespace WebLens.Reports

open Lib Lib.Utf8 Lib.Keyset

/-! ### Reading texts -/

/-- The functions that requests are read with: `strings.TrimSpace`, `strings.ToUpper`,
`strings.ToLower` and the texts of identifiers. -/
structure GoText where
  trimSpace : ByteString → ByteString
  toUpper : ByteString → ByteString
  toLower : ByteString → ByteString
  uuid : TextCodec Uuid
  trimSpace_visible : ∀ text, (∀ byte ∈ text, 0x21 ≤ byte ∧ byte < 0x7F) → trimSpace text = text
  valid_toUpper : ∀ text, valid (toUpper text) = true
  valid_toLower : ∀ text, valid (toLower text) = true

/-- `strconv.ParseBool`. -/
def parseBool (text : ByteString) : Option Bool :=
  if ["1", "t", "T", "TRUE", "true", "True"].map ofText |>.contains text then some true
  else if ["0", "f", "F", "FALSE", "false", "False"].map ofText |>.contains text then some false
  else none

/-- The number of some decimal digits. -/
def digitsValue (digits : ByteString) : Option ℕ :=
  if digits ≠ [] ∧ digits.all Json.isDigit then
    some (digits.foldl (fun value byte ↦ 10 * value + (byte.toNat - 48)) 0)
  else none

/-- `strconv.Atoi`, for 64-bit integers. -/
def atoi (text : ByteString) : Option ℤ :=
  let value : Option ℤ :=
    match text with
    | 0x2B :: digits => (digitsValue digits).map Int.ofNat
    | 0x2D :: digits => (digitsValue digits).map fun value ↦ -(value : ℤ)
    | digits => (digitsValue digits).map Int.ofNat
  value.filter fun value ↦ decide (-9223372036854775808 ≤ value ∧ value ≤ 9223372036854775807)

/-! ### Requests -/

/-- A request for the pages of a scan: `request.URL.Query()` and the path value `scanId`. -/
structure ListRequest where
  query : String → List ByteString
  scanId : ByteString

/-- `url.Values.Get`. -/
def ListRequest.get (request : ListRequest) (name : String) : ByteString :=
  (request.query name).headD []

/-- The request with a cursor. -/
def ListRequest.withCursor (request : ListRequest) (cursor : ByteString) : ListRequest :=
  { request with query := Function.update request.query "cursor" [cursor] }

/-! ### Filters -/

variable (go : GoText)

def GoText.issuesOnlyQuery (request : ListRequest) : Except String Bool :=
  let raw := go.trimSpace (request.get "issuesOnly")
  if raw = [] then .ok false
  else match parseBool raw with
    | some value => .ok value
    | none => .error "issuesOnly must be true or false"

def GoText.optionalInt (raw : ByteString) (minimum maximum : ℤ) : Except String (Option ℤ) :=
  if go.trimSpace raw = [] then .ok none
  else match (atoi raw).filter fun value ↦ decide (minimum ≤ value ∧ value ≤ maximum) with
    | some value => .ok (some value)
    | none => .error s!"must be between {minimum} and {maximum}"

def GoText.optionalBool (raw : ByteString) : Except String (Option Bool) :=
  if go.trimSpace raw = [] then .ok none
  else match parseBool raw with
    | some value => .ok (some value)
    | none => .error "must be true or false"

/-- The values without repetitions in the order of their bytes. -/
def GoText.boundedValues (values : List ByteString) (maximum maxLength : ℕ) (uppercase : Bool) :
    Except String (List ByteString) :=
  let normalized := values.map fun raw ↦
    if uppercase then go.toUpper (go.trimSpace raw) else go.toLower (go.trimSpace raw)
  if normalized.any fun value ↦ value.isEmpty || decide (maxLength < value.length) then
    .error "contains an invalid value"
  else if maximum < normalized.dedup.length then .error s!"accepts at most {maximum} values"
  else .ok (sorted (List.map UInt8.toNat) normalized.dedup)

def GoText.enumValues (values : List ByteString) (maximum : ℕ) (allowed : List ByteString) :
    Except String (List ByteString) := do
  let normalized ← go.boundedValues values maximum 64 true
  if normalized.all allowed.contains then return normalized
  else .error "contains an unsupported value"

/-- The severities that a filter can name. -/
def filterSeverities : List ByteString :=
  [ofText "INFO", ofText "WARNING", ofText "ERROR", ofText "CRITICAL"]

/-- An error with the name of the parameter it is about. -/
def named {α : Type} (name : String) (result : Except String α) : Except String α :=
  result.mapError fun message ↦ name ++ ": " ++ message

/-- The two bounds on the status are in order. -/
def boundsOrdered (statusMin statusMax : Option ℤ) : Bool :=
  match statusMin, statusMax with
  | some minimum, some maximum => decide (minimum ≤ maximum)
  | _, _ => true

def GoText.pageFiltersQuery (request : ListRequest) : Except String PageFilters := do
  let issuesOnly ← go.issuesOnlyQuery request
  let outcomes ← named "outcome" (go.enumValues (request.query "outcome") 3 pageOutcomes)
  let statusMin ← named "statusMin" (go.optionalInt (request.get "statusMin") 0 599)
  let statusMax ← named "statusMax" (go.optionalInt (request.get "statusMax") 0 599)
  if !boundsOrdered statusMin statusMax then
    .error "statusMin must be less than or equal to statusMax"
  else do
    let query := go.trimSpace (request.get "q")
    if 200 < query.length then .error "q must contain at most 200 characters"
    else do
      let indexable ← named "indexable" (go.optionalBool (request.get "indexable"))
      let contentTypes ←
        named "contentType" (go.boundedValues (request.query "contentType") 10 128 false)
      let severities ←
        named "severity" (go.enumValues (request.query "severity") 4 filterSeverities)
      let findingCodes ←
        named "findingCode" (go.boundedValues (request.query "findingCode") 20 64 true)
      return ⟨issuesOnly, outcomes, statusMin, statusMax, query, indexable, contentTypes,
        severities, findingCodes⟩

/-! ### Fingerprints and cursors -/

def jsonStrings (values : List ByteString) : Json :=
  .array (values.map Json.string)

def jsonInt : Option ℤ → Json
  | none => .null
  | some value => .number value

def jsonBool : Option Bool → Json
  | none => .null
  | some value => .bool value

/-- `json.Marshal` of the filters. -/
def PageFilters.json (filters : PageFilters) : Json :=
  .object [
    (ofText "IssuesOnly", .bool filters.issuesOnly),
    (ofText "Outcomes", jsonStrings filters.outcomes),
    (ofText "StatusMin", jsonInt filters.statusMin),
    (ofText "StatusMax", jsonInt filters.statusMax),
    (ofText "Query", .string filters.query),
    (ofText "Indexable", jsonBool filters.indexable),
    (ofText "ContentTypes", jsonStrings filters.contentTypes),
    (ofText "Severities", jsonStrings filters.severities),
    (ofText "FindingCodes", jsonStrings filters.findingCodes)]

def filterFingerprint (filters : PageFilters) : ByteString :=
  Base64.encodeRawUrl (Sha256.sum filters.json.encode)

structure PageCursor where
  url : ByteString
  id : Uuid
  filter : ByteString
  deriving DecidableEq

/-- The zero cursor. -/
def noCursor : PageCursor where
  url := []
  id := nilUuid
  filter := []

/-- `json.Marshal` of a cursor. -/
def GoText.cursorJson (cursor : PageCursor) : Json :=
  .object ([(ofText "url", .string cursor.url), (ofText "id", .string (go.uuid.text cursor.id))] ++
    if cursor.filter = [] then [] else [(ofText "filter", .string cursor.filter)])

def GoText.encodePageCursor (cursor : PageCursor) : ByteString :=
  Base64.encodeRawUrl (go.cursorJson cursor).encode

/-- A string field of an object; an absent field keeps its zero value. -/
def stringField (members : List (ByteString × Json)) (name : String) : Option ByteString :=
  match (Json.keepLast members).lookup (ofText name) with
  | none => some []
  | some .null => some []
  | some (.string value) => some value
  | some _ => none

def GoText.uuidField (members : List (ByteString × Json)) (name : String) : Option Uuid :=
  match (Json.keepLast members).lookup (ofText name) with
  | none => some nilUuid
  | some .null => some nilUuid
  | some (.string value) => go.uuid.parse value
  | some _ => none

/-- `json.Unmarshal` into a cursor. -/
def GoText.readCursor : Json → Option PageCursor
  | .null => some noCursor
  | .object members => do
    let url ← stringField members "url"
    let id ← go.uuidField members "id"
    let filter ← stringField members "filter"
    return ⟨url, id, filter⟩
  | _ => none

/-- The cursor of a text, before it is checked for the zero fields. -/
def GoText.decodePageCursor (raw : ByteString) : Option PageCursor := do
  let decoded ← Base64.decodeRawUrl raw
  let value ← Json.decode decoded
  go.readCursor value

def GoText.pageLimit (request : ListRequest) : Except String ℕ :=
  let raw := go.trimSpace (request.get "limit")
  if raw = [] then .ok 100
  else match (atoi raw).filter fun parsed ↦ decide (1 ≤ parsed ∧ parsed ≤ 500) with
    | some parsed => .ok parsed.toNat
    | none => .error "limit must be between 1 and 500"

def GoText.pageQuery (request : ListRequest) : Except String (ℕ × PageCursor) := do
  let limit ← go.pageLimit request
  let raw := go.trimSpace (request.get "cursor")
  if raw = [] then return (limit, noCursor)
  else match (go.decodePageCursor raw).filter fun cursor ↦
      !cursor.url.isEmpty && cursor.id != nilUuid with
    | some cursor => return (limit, cursor)
    | none => .error "cursor is invalid"

/-! ### Answers -/

structure ReportState where
  scanId : Uuid
  ownerId : Uuid
  status : ByteString
  analyticsExpectedCount : ℕ
  analyticsPublishedCount : ℕ
  analyticsWatermark : Option ℕ

structure ScanPagesReport (δ : Type) where
  state : ReportState
  summary : ScanReportSummary
  items : List (ReportPage δ)
  nextCursor : ByteString

/-- The status, code and detail of an answer that is a problem. -/
structure Problem where
  status : ℕ
  code : String
  detail : String
  deriving DecidableEq

/-- The workflow state and the rows that requests are answered from, while neither changes. The
counts of an execution are those of the batches that its rows came in. -/
structure Server (δ : Type) where
  go : GoText
  collation : Collation
  reportState : Uuid → Uuid → Option ReportState
  tables : Tables δ
  rows_of_count : ∀ ownerId scanId state, reportState ownerId scanId = some state →
    state.analyticsExpectedCount = 0 → state.analyticsPublishedCount = 0 →
      tables.pages.filter (PageRow.isOf ownerId scanId) = []

variable {δ : Type}

/-- The summary of an answer without analytics. -/
def emptySummary : ScanReportSummary where
  totalUrlCount := 0
  issuePageCount := 0
  findingCount := 0
  status2xxCount := 0
  status3xxCount := 0
  status4xxCount := 0
  status5xxCount := 0
  noResponseCount := 0

/-- The cursor after the last row of a page, when there are more rows. -/
def Server.nextCursor (server : Server δ) (filters : PageFilters) (pages : List (ReportPage δ))
    (hasMore : Bool) : ByteString :=
  match pages.getLast? with
  | some last =>
    if hasMore then
      server.go.encodePageCursor ⟨last.url, last.id, filterFingerprint filters⟩
    else []
  | none => []

/-- The answer from the tables. -/
def Server.report (server : Server δ) (state : ReportState) (ownerId scanId : Uuid) (limit : ℕ)
    (cursor : PageCursor) (filters : PageFilters) : Except Problem (ScanPagesReport δ) :=
  match server.tables.listPages server.collation ownerId scanId limit cursor.url cursor.id
      filters with
  | .error _ => .error ⟨503, "REPORT_UNAVAILABLE", "The scan report is temporarily unavailable."⟩
  | .ok (pages, hasMore) =>
    .ok ⟨state, server.tables.scanSummary server.collation ownerId scanId, pages,
      server.nextCursor filters pages hasMore⟩

/-- The answer to a request whose scan has a report. -/
def Server.answer (server : Server δ) (state : ReportState) (ownerId scanId : Uuid)
    (request : ListRequest) : Except Problem (ScanPagesReport δ) :=
  match server.go.pageQuery request with
  | .error detail => .error ⟨400, "INVALID_PAGE_CURSOR", detail⟩
  | .ok (limit, cursor) =>
    match server.go.pageFiltersQuery request with
    | .error detail => .error ⟨400, "INVALID_PAGE_FILTER", detail⟩
    | .ok filters =>
      if cursor.url ≠ [] ∧ cursor.filter ≠ filterFingerprint filters then
        .error ⟨400, "INVALID_PAGE_CURSOR", "cursor does not match the active filters"⟩
      else if state.analyticsExpectedCount = 0 ∧ state.analyticsPublishedCount = 0 then
        .ok ⟨state, emptySummary, [], []⟩
      else server.report state ownerId scanId limit cursor filters

def Server.listPages (server : Server δ) (request : ListRequest) :
    Except Problem (ScanPagesReport δ) :=
  match server.go.uuid.parse (request.get "ownerId") with
  | none => .error ⟨400, "INVALID_OWNER_ID", "ownerId must be a UUID."⟩
  | some ownerId =>
    match server.go.uuid.parse request.scanId with
    | none => .error ⟨400, "INVALID_SCAN_ID", "scanId must be a UUID."⟩
    | some scanId =>
      match server.reportState ownerId scanId with
      | none => .error ⟨404, "REPORT_NOT_FOUND", "The scan report does not exist."⟩
      | some state => server.answer state ownerId scanId request

/-! ### Reading a cursor back -/

section Cursors

variable {go : GoText}

/-- A field of an object whose fields have different names. -/
theorem lookup_keepLast {members : List (ByteString × Json)} (hnames : (members.map Prod.fst).Nodup)
    {name : ByteString} {value : Json} (hmem : (name, value) ∈ members) :
    (Json.keepLast members).lookup name = some value := by
  rw [keepLast_of_nodup hnames]
  exact (lookup_eq_some_iff_mem hnames).2 hmem

theorem lookup_keepLast_eq_none {members : List (ByteString × Json)} {name : ByteString}
    (hname : name ∉ members.map Prod.fst) : (Json.keepLast members).lookup name = none := by
  rw [List.lookup_eq_none_iff]
  intro member hmember
  have hkept := (mem_names_keepLast members member.1).1 (List.mem_map_of_mem hmember)
  rw [bne_iff_ne]
  rintro rfl
  exact hname hkept

theorem cursor_names : ([ofText "url", ofText "id"] : List ByteString).Nodup ∧
    ([ofText "url", ofText "id", ofText "filter"] : List ByteString).Nodup ∧
    ofText "filter" ∉ ([ofText "url", ofText "id"] : List ByteString) := by
  decide

/-- A cursor whose texts are UTF-8 is read back. -/
theorem decodePageCursor_encodePageCursor {cursor : PageCursor} (hurl : valid cursor.url = true)
    (hfilter : valid cursor.filter = true) :
    go.decodePageCursor (go.encodePageCursor cursor) = some cursor := by
  obtain ⟨hshort, hlong, habsent⟩ := cursor_names
  have hjson : (go.cursorJson cursor).sanitize = go.cursorJson cursor := by
    unfold GoText.cursorJson
    by_cases hempty : cursor.filter = []
    · rw [if_pos hempty]
      simp only [List.append_nil, Json.sanitize, Json.sanitizeMembers,
        sanitize_of_valid _ (valid_ofText _), sanitize_of_valid _ hurl,
        sanitize_of_valid _ (go.uuid.valid_text cursor.id)]
    · rw [if_neg hempty]
      simp only [List.cons_append, List.nil_append, Json.sanitize, Json.sanitizeMembers,
        sanitize_of_valid _ (valid_ofText _), sanitize_of_valid _ hurl,
        sanitize_of_valid _ (go.uuid.valid_text cursor.id), sanitize_of_valid _ hfilter]
  have hread : go.readCursor (go.cursorJson cursor) = some cursor := by
    unfold GoText.cursorJson GoText.readCursor stringField GoText.uuidField
    by_cases hempty : cursor.filter = []
    · rw [if_pos hempty, List.append_nil]
      simp only
      rw [lookup_keepLast (by exact hshort) List.mem_cons_self,
        lookup_keepLast (by exact hshort) (List.mem_cons_of_mem _ List.mem_cons_self),
        lookup_keepLast_eq_none (by exact habsent)]
      show (go.uuid.parse (go.uuid.text cursor.id)).bind
        (fun id ↦ some (PageCursor.mk cursor.url id [])) = _
      rw [go.uuid.parse_text, Option.bind_some, ← hempty]
    · rw [if_neg hempty, List.cons_append, List.cons_append, List.nil_append]
      simp only
      rw [lookup_keepLast (by exact hlong) List.mem_cons_self,
        lookup_keepLast (by exact hlong) (List.mem_cons_of_mem _ List.mem_cons_self),
        lookup_keepLast (by exact hlong)
          (List.mem_cons_of_mem _ (List.mem_cons_of_mem _ List.mem_cons_self))]
      show (go.uuid.parse (go.uuid.text cursor.id)).bind
        (fun id ↦ some (PageCursor.mk cursor.url id cursor.filter)) = _
      rw [go.uuid.parse_text, Option.bind_some]
  unfold GoText.decodePageCursor GoText.encodePageCursor
  rw [Base64.decodeRawUrl_encodeRawUrl]
  show (Json.decode (go.cursorJson cursor).encode).bind go.readCursor = _
  rw [Json.decode_encode, hjson, Option.bind_some, hread]

theorem encodePageCursor_ne_nil (cursor : PageCursor) : go.encodePageCursor cursor ≠ [] :=
  Base64.encodeRawUrl_ne_nil (List.cons_ne_nil _ _)

theorem trimSpace_encodePageCursor (cursor : PageCursor) :
    go.trimSpace (go.encodePageCursor cursor) = go.encodePageCursor cursor :=
  go.trimSpace_visible _ fun _ h ↦ Base64.encodeRawUrl_visible h

theorem valid_filterFingerprint (filters : PageFilters) :
    valid (filterFingerprint filters) = true :=
  valid_of_ascii fun byte h ↦
    UInt8.lt_trans (Base64.encodeRawUrl_visible h).2 (show (0x7F : UInt8) < 0x80 by decide)

end Cursors

/-! ### Fingerprints -/

section Fingerprints

variable {go : GoText}

/-- What the texts of accepted filters are: constants, or in one case. -/
structure PageFilters.Valid (filters : PageFilters) : Prop where
  outcomes : ∀ outcome ∈ filters.outcomes, outcome ∈ pageOutcomes
  contentTypes : ∀ contentType ∈ filters.contentTypes, valid contentType = true
  severities : ∀ severity ∈ filters.severities, valid severity = true
  findingCodes : ∀ code ∈ filters.findingCodes, valid code = true

theorem bind_eq_ok {ε α β : Type} {x : Except ε α} {f : α → Except ε β} {b : β} :
    (x >>= f) = .ok b ↔ ∃ a, x = .ok a ∧ f a = .ok b := by
  cases x with
  | error e => exact ⟨fun h ↦ (by cases h), fun ⟨_, h, _⟩ ↦ (by cases h)⟩
  | ok a => exact ⟨fun h ↦ ⟨a, rfl, h⟩, fun ⟨_, h, hf⟩ ↦ (by cases h; exact hf)⟩

theorem named_eq_ok {α : Type} {name : String} {result : Except String α} {a : α} :
    named name result = .ok a ↔ result = .ok a := by
  cases result with
  | error e => exact ⟨fun h ↦ (by cases h), fun h ↦ (by cases h)⟩
  | ok b => exact Iff.rfl

theorem valid_boundedValues {values result : List ByteString} {maximum maxLength : ℕ}
    {uppercase : Bool} (h : go.boundedValues values maximum maxLength uppercase = .ok result) :
    ∀ value ∈ result, valid value = true := by
  unfold GoText.boundedValues at h
  extract_lets normalized at h
  by_cases hinvalid : normalized.any fun value ↦
      value.isEmpty || decide (maxLength < value.length)
  · rw [if_pos hinvalid] at h
    cases h
  · rw [if_neg hinvalid] at h
    by_cases hmany : maximum < normalized.dedup.length
    · rw [if_pos hmany] at h
      cases h
    · rw [if_neg hmany, Except.ok.injEq] at h
      intro value hvalue
      rw [← h, mem_sorted, List.mem_dedup, List.mem_map] at hvalue
      obtain ⟨raw, -, rfl⟩ := hvalue
      cases uppercase with
      | false => exact go.valid_toLower _
      | true => exact go.valid_toUpper _

theorem enumValues_spec {values result allowed : List ByteString} {maximum : ℕ}
    (h : go.enumValues values maximum allowed = .ok result) :
    (∀ value ∈ result, value ∈ allowed) ∧ ∀ value ∈ result, valid value = true := by
  obtain ⟨normalized, hbounded, h⟩ := bind_eq_ok.1 h
  split_ifs at h with hall
  · cases h
    refine ⟨fun value hvalue ↦ ?_, valid_boundedValues hbounded⟩
    exact List.contains_iff_mem.1 (List.all_eq_true.1 hall value hvalue)

/-- The filters of a request have texts that are UTF-8, the query apart. -/
theorem valid_pageFiltersQuery {request : ListRequest} {filters : PageFilters}
    (h : go.pageFiltersQuery request = .ok filters) : filters.Valid := by
  obtain ⟨issuesOnly, -, h⟩ := bind_eq_ok.1 h
  obtain ⟨outcomes, houtcomes, h⟩ := bind_eq_ok.1 h
  obtain ⟨statusMin, -, h⟩ := bind_eq_ok.1 h
  obtain ⟨statusMax, -, h⟩ := bind_eq_ok.1 h
  by_cases hbounds : (!boundsOrdered statusMin statusMax) = true
  · rw [if_pos hbounds] at h
    cases h
  rw [if_neg hbounds] at h
  extract_lets query at h
  by_cases hlong : 200 < query.length
  · rw [if_pos hlong] at h
    cases h
  rw [if_neg hlong] at h
  obtain ⟨indexable, -, h⟩ := bind_eq_ok.1 h
  obtain ⟨contentTypes, hcontentTypes, h⟩ := bind_eq_ok.1 h
  obtain ⟨severities, hseverities, h⟩ := bind_eq_ok.1 h
  obtain ⟨findingCodes, hfindingCodes, h⟩ := bind_eq_ok.1 h
  cases h
  constructor
  · exact (enumValues_spec (named_eq_ok.1 houtcomes)).1
  · exact valid_boundedValues (named_eq_ok.1 hcontentTypes)
  · exact (enumValues_spec (named_eq_ok.1 hseverities)).2
  · exact valid_boundedValues (named_eq_ok.1 hfindingCodes)

end Fingerprints

/-! ### Queries that match -/

variable {collation : Collation} {tables : Tables δ}

end WebLens.Reports
