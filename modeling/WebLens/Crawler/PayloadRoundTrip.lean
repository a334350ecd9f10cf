import WebLens.Crawler.Fencing
import WebLens.Crawler.Sample

/-!
# The round trip of analytics payloads

The checksum of an analytics payload is taken of the bytes that `CommitPageResult` marshals, and
checked against the bytes that `decodeAnalyticsBatch` marshals again after PostgreSQL stored the
payload as `jsonb`. The two agree exactly when every string of the payload is valid UTF-8: an
invalid byte is first written as an escape and then, once decoded, as the replacement character
itself.

* `hasType_json` — a payload has the type that it is decoded at.
* `strays_json_iff` — its JSON form has no stray byte exactly when its `texts` are valid.
-/

set_option autoImplicit false
set_option relaxedAutoImplicit false

namespace WebLens.Crawler

open Lib Lib.Utf8 Lib.Json Lib.GoType Lib.Transaction

variable {env : Env}

/-! ### Payloads have their type -/

/-- The strings of a value of evidence. -/
def EvidenceValue.texts : EvidenceValue → List ByteString
  | .string value => [value]
  | .int _ _ => []
  | .ints _ _ => []
  | .strings values => values.elements

/-- The strings of evidence. -/
def Evidence.texts (evidence : Evidence) : List ByteString :=
  evidence.entries.flatMap fun entry ↦ entry.2.texts

/-- The strings of an hreflang entry. -/
def Hreflang.texts (entry : Hreflang) : List ByteString :=
  [entry.language, entry.url]

/-- The strings of a link. -/
def DiscoveredLink.texts (link : DiscoveredLink) : List ByteString :=
  [link.targetURL, link.anchorText, link.tag] ++ link.relValues.elements

/-- The strings of a finding. -/
def Finding.texts (finding : Finding) : List ByteString :=
  [finding.ruleId, finding.category, finding.severity, finding.code, finding.message] ++
    finding.evidence.texts

/-- The strings of a page result. -/
def PageResult.texts (result : PageResult) : List ByteString :=
  [result.finalURL, result.fetchOutcome, result.errorCode, result.errorMessage,
    result.contentType] ++ result.redirectURLs.elements ++
  [result.title, result.description, result.metaKeywords, result.canonicalURL,
    result.canonicalRelation, result.metaRobots, result.xRobotsTag, result.indexabilityReason,
    result.htmlLang] ++ result.h1.elements ++ result.h2.elements ++ result.h3.elements ++
  result.h4.elements ++ result.h5.elements ++ result.h6.elements ++
  result.hreflang.elements.flatMap Hreflang.texts ++
  [result.openGraphTitle, result.openGraphDescription, result.openGraphImageURL] ++
  result.schemaOrgTypes.elements ++ result.schemaOrgIssueCodes.elements ++
  result.links.elements.flatMap DiscoveredLink.texts ++
  result.findings.elements.flatMap Finding.texts

/-- The strings of a lease that its payloads repeat. -/
def PageLease.texts (lease : PageLease) : List ByteString :=
  [lease.normalizedURL, lease.hostname, lease.collectorVersion]

/-- Whether every string is valid UTF-8. -/
def AllValid (texts : List ByteString) : Prop :=
  ∀ text ∈ texts, valid text = true

instance (texts : List ByteString) : Decidable (AllValid texts) :=
  inferInstanceAs (Decidable (∀ text ∈ texts, valid text = true))

@[simp]
theorem allValid_nil : AllValid [] := by
  simp [AllValid]

@[simp]
theorem allValid_cons {text : ByteString} {texts : List ByteString} :
    AllValid (text :: texts) ↔ valid text = true ∧ AllValid texts := by
  simp [AllValid]

@[simp]
theorem allValid_append {texts texts' : List ByteString} :
    AllValid (texts ++ texts') ↔ AllValid texts ∧ AllValid texts' := by
  simp only [AllValid, List.forall_mem_append]

@[simp]
theorem allValid_flatMap {α : Type} {values : List α} {texts : α → List ByteString} :
    AllValid (values.flatMap texts) ↔ ∀ value ∈ values, AllValid (texts value) := by
  simp only [AllValid, List.forall_mem_flatMap]

/-! ### Stray bytes of a payload -/

theorem straysElements_eq_zero {elements : List Json} :
    straysElements elements = 0 ↔ ∀ element ∈ elements, element.strays = 0 := by
  induction elements with
  | nil => simp [straysElements]
  | cons element elements ih => simp [straysElements, ih]

theorem straysMembers_eq_zero {members : List (ByteString × Json)} :
    straysMembers members = 0 ↔
      ∀ member ∈ members, valid member.1 = true ∧ member.2.strays = 0 := by
  induction members with
  | nil => simp [straysMembers]
  | cons member members ih =>
    simp only [straysMembers, Nat.add_eq_zero_iff, countP_isNone_eq_zero, ih,
      List.forall_mem_cons]

/-- The strays of a struct are those of its members. -/
theorem strays_structJson {members : List (String × Json)} :
    (structJson members).strays = 0 ↔ ∀ member ∈ members, member.2.strays = 0 := by
  simp only [structJson, strays, straysMembers_eq_zero, List.forall_mem_map, valid_ofText,
    true_and]

theorem strays_bool {value : Bool} : (Json.bool value).strays = 0 := by
  rw [strays]

theorem strays_number {value : ℤ} : (Json.number value).strays = 0 := by
  rw [strays]

theorem strays_string {value : ByteString} :
    (Json.string value).strays = 0 ↔ valid value = true :=
  countP_isNone_eq_zero

theorem strays_slice {α : Type} {encode : α → Json} {values : Slice α} :
    (values.json encode).strays = 0 ↔ ∀ value ∈ values.elements, (encode value).strays = 0 := by
  cases values with
  | none => simp [Slice.json, Slice.elements, strays]
  | some values => simp [Slice.json, Slice.elements, strays, straysElements_eq_zero]

theorem strays_strings {values : Slice ByteString} :
    (values.json .string).strays = 0 ↔ AllValid values.elements := by
  simp only [strays_slice, strays_string, AllValid]

theorem strays_numbers {α : Type} {number : α → ℤ} {values : Slice α} :
    (values.json fun value ↦ .number (number value)).strays = 0 := by
  simp [strays_slice, strays_number]

theorem EvidenceValue.strays_json {value : EvidenceValue} :
    value.json.strays = 0 ↔ AllValid value.texts := by
  cases value with
  | string value => simp [EvidenceValue.json, texts, strays_string]
  | int value exact => simp [EvidenceValue.json, texts, strays_number]
  | ints values exact => simp [EvidenceValue.json, texts, strays_numbers]
  | strings values => exact strays_strings

theorem Evidence.strays_json {evidence : Evidence} :
    evidence.json.strays = 0 ↔ AllValid evidence.texts := by
  have hperm := sortMembers_perm (evidence.entries.map (Prod.map id EvidenceValue.json))
  have hvalid : ∀ entry ∈ evidence.entries, Utf8.valid entry.1 = true := fun entry hentry ↦
    evidence.valid entry.1 (List.mem_map_of_mem hentry)
  rw [Evidence.json, strays, straysMembers_eq_zero, Evidence.texts, allValid_flatMap]
  simp only [hperm.mem_iff, List.forall_mem_map, Prod.map_fst, Prod.map_snd, id_eq,
    EvidenceValue.strays_json]
  exact forall₂_congr fun entry hentry ↦ and_iff_right (hvalid entry hentry)

theorem Hreflang.strays_json {entry : Hreflang} :
    entry.json.strays = 0 ↔ AllValid entry.texts := by
  simp [Hreflang.json, strays_structJson, strays_string, texts]

theorem DiscoveredLink.strays_json {link : DiscoveredLink} :
    link.json.strays = 0 ↔ AllValid link.texts := by
  simp [DiscoveredLink.json, strays_structJson, strays_string, strays_strings, strays_bool,
    strays_number, natJson, texts]

theorem Finding.strays_json {finding : Finding} :
    (finding.json env).strays = 0 ↔ AllValid finding.texts := by
  simp [Finding.json, strays_structJson, strays_string, uuidJson, env.uuidText.valid_text,
    strays_number, natJson, texts, Evidence.strays_json]

theorem PageResult.strays_json {result : PageResult} :
    (result.json env).strays = 0 ↔ AllValid result.texts := by
  simp only [PageResult.json, strays_structJson, List.forall_mem_cons, List.not_mem_nil,
    false_implies, implies_true, strays_string, strays_numbers, strays_slice, Hreflang.strays_json,
    DiscoveredLink.strays_json, Finding.strays_json, timeJson, env.timeText.valid_text,
    strays_bool, strays_number, natJson, and_true, true_and, texts, allValid_append,
    allValid_cons, allValid_nil, allValid_flatMap, and_assoc]
  rfl

/-- A row that, if it is the given one, still has its fixed columns, and its payload until it is
delivered. -/
def Intact (row row' : AnalyticsOutboxRow) : Prop :=
  row'.id = row.id →
    row'.fixed = row.fixed ∧ (row'.status ≠ .delivered → row'.payload = row.payload)

/-- A batch that, if it is of the given row, has its columns and its payload. -/
def IsReading (row : AnalyticsOutboxRow) (batch : AnalyticsBatch) : Prop :=
  batch.id = row.id →
    ∃ row' : AnalyticsOutboxRow, row'.fixed = row.fixed ∧ row'.payload = row.payload ∧
      batch = row'.batch batch.leaseOwner

/-- A row that the outbox keeps, and that workers read as it is. -/
structure KeptAs (row : AnalyticsOutboxRow) (sys : System) : Prop where
  fresh : row.id < sys.store.nextUuid
  rows : ∀ row' ∈ sys.store.analyticsOutbox, Intact row row'
  batches : ∀ batch ∈ sys.batches, IsReading row batch

/-- An update that keeps fixed columns, and payloads of rows that are not delivered. -/
theorem intact_update {row : AnalyticsOutboxRow} {sel : AnalyticsOutboxRow → Bool}
    (set : AnalyticsOutboxRow → AnalyticsOutboxRow) {rows : List AnalyticsOutboxRow}
    (h : ∀ row' ∈ rows, Intact row row') (hfixed : ∀ row', (set row').fixed = row'.fixed)
    (hset : ∀ row' ∈ rows, sel row' = true → (set row').status ≠ .delivered →
      row'.status ≠ .delivered ∧ (set row').payload = row'.payload) :
    ∀ row' ∈ Table.update sel set rows, Intact row row' := by
  intro row' hmem hid
  obtain ⟨row', hrow', rfl⟩ := Table.mem_update.1 hmem
  split_ifs at hid ⊢ with hsel
  · have hid' : row'.id = row.id :=
      (congrArg AnalyticsOutboxRow.id (hfixed row')).symm.trans hid
    obtain ⟨hsame, hpayload⟩ := h row' hrow' hid'
    refine ⟨(hfixed row').trans hsame, fun hstatus ↦ ?_⟩
    obtain ⟨hstatus', hkept⟩ := hset row' hrow' hsel hstatus
    rw [hkept, hpayload hstatus']
  · exact h row' hrow' hid

/-- A claimed row is not delivered. -/
theorem status_of_isClaimedBy {batch : AnalyticsBatch} {row : AnalyticsOutboxRow}
    (h : row.isClaimedBy batch = true) : row.status ≠ .delivered := by
  intro hdelivered
  simp [AnalyticsOutboxRow.isClaimedBy, hdelivered] at h

/-- A row is kept by every transition. -/
theorem KeptAs.step {row : AnalyticsOutboxRow} {sys sys' : System} (h : KeptAs row sys)
    (hkeyed : sys.Keyed) (htransition : Transition env sys sys') : KeptAs row sys' := by
  have hfresh := h.fresh.trans_le (htransition.keyed hkeyed).2.nextUuid
  obtain ⟨_, htransition⟩ := htransition
  cases htransition with
  | staged now lease result page added payload outboxId e _ _ _ _ _ _ hadded =>
    refine ⟨hfresh, fun row' hrow' ↦ ?_, h.batches⟩
    rcases List.mem_append.1 hrow' with hrow' | hrow'
    · exact h.rows row' hrow'
    · rw [List.mem_singleton.1 hrow']
      exact fun hid ↦ absurd hid (h.fresh.trans_le hadded.le).ne'
  | analyticsClaimed leaseUntil workerId ids rows hrows hdue =>
    subst hrows
    have hundelivered : ∀ row' ∈ sys.store.analyticsOutbox, decide (row'.id ∈ ids) = true →
        row'.status ≠ .delivered := by
      intro row' hrow' hid
      obtain ⟨other, hother, hsame, hstatus⟩ := hdue row'.id (of_decide_eq_true hid)
      rwa [← Table.eq_of_key_eq hkeyed.store.rowIds hother hrow' hsame]
    refine ⟨hfresh, ?_, fun batch hbatch ↦ ?_⟩
    · exact intact_update _ h.rows (fun _ ↦ rfl) fun row' hrow' hid _ ↦
        ⟨hundelivered row' hrow' hid, rfl⟩
    · rcases List.mem_append.1 hbatch with hbatch | hbatch
      · obtain ⟨claimed, hclaimed, rfl⟩ := List.mem_map.1 hbatch
        intro hid
        obtain ⟨hmem, hids⟩ := List.mem_filter.1 hclaimed
        obtain ⟨row', hrow', rfl⟩ := Table.mem_update.1 hmem
        split_ifs at hids hid ⊢ with hsel
        · obtain ⟨hfixed, hpayload⟩ := h.rows row' hrow' hid
          exact ⟨row'.claim workerId leaseUntil, hfixed,
            hpayload (hundelivered row' hrow' hsel), rfl⟩
        · exact absurd hids hsel
      · exact h.batches batch hbatch
  | published =>
    exact ⟨hfresh, intact_update _ h.rows (fun _ ↦ rfl) fun _ _ _ hstatus ↦ absurd rfl hstatus,
      h.batches⟩
  | analyticsRetried =>
    exact ⟨hfresh, intact_update _ h.rows (fun _ ↦ rfl) fun _ _ hclaimed _ ↦
      ⟨status_of_isClaimedBy hclaimed, rfl⟩, h.batches⟩
  | reclaimed clock locks s' _ _ hevents =>
    obtain ⟨-, -, -, hrows, -⟩ := progressEvents_tables hevents
    refine ⟨hfresh, ?_, h.batches⟩
    rw [hrows]
    refine intact_update _ h.rows (fun _ ↦ rfl) fun row' _ hexpired _ ↦ ⟨fun hdelivered ↦ ?_, rfl⟩
    simp [hdelivered] at hexpired
  | _ => exact ⟨hfresh, h.rows, h.batches⟩

/-- The rows that the outbox has after a commit and did not have before. -/
def AddedBy (env : Env) (sys : System) (now : Instant) (lease : PageLease) (result : PageResult)
    (row : AnalyticsOutboxRow) : Prop :=
  row ∈ (sys.step env (.commitPageResult now lease result)).store.analyticsOutbox ∧
    row ∉ sys.store.analyticsOutbox

/-- A commit adds the row of its result, the first of its page. -/
theorem AddedBy.row {sys : System} (hsys : sys.Conserved) {now : Instant} {lease : PageLease}
    {result : PageResult} {row : AnalyticsOutboxRow} (h : AddedBy env sys now lease result row) :
    KeptAs row (sys.step env (.commitPageResult now lease result)) ∧ ∃ payload outboxId,
      env.jsonb ((analyticsPayload lease result 1).marshal env) = some payload ∧
        row = outboxRow env now lease result 1 payload outboxId := by
  obtain ⟨hrow, hnew⟩ := h
  have htransition := step_transition env sys (.commitPageResult now lease result)
  have hfresh := (htransition.keyed hsys.keyed).1.rowFresh row hrow
  rw [System.step] at hrow hfresh ⊢
  split_ifs at hrow hfresh ⊢ with hlease
  · rcases commit_cases (commitPageResult env now lease result) sys.store with
      ⟨u, s', hcommit, hreturns⟩ | ⟨e, hcommit⟩
    · rw [hcommit] at hrow hfresh ⊢
      obtain ⟨page, hpage, hleased, -, ⟨-, e, -, rfl⟩ |
        ⟨-, added, payload, outboxId, e, hpayload, hadded, -, -, -, rfl⟩⟩ :=
        commitPageResult_cases hreturns
      · exact absurd hrow hnew
      · have hversion : page.resultVersion = 0 :=
          (hsys.conserved.pages page hpage).unstaged (.inr (isLeasedUnder_iff.1 hleased).2.2.1)
        rw [hversion] at hrow hpayload hfresh ⊢
        obtain rfl := List.mem_singleton.1 ((List.mem_append.1 hrow).resolve_left hnew)
        refine ⟨⟨hfresh, fun row' hrow' hid ↦ ?_, fun batch hbatch hid ↦ ?_⟩, payload, outboxId,
          hpayload, rfl⟩
        · rcases List.mem_append.1 hrow' with hrow' | hrow'
          · exact absurd hid ((hsys.keyed.store.rowFresh row' hrow').trans_le hadded.le).ne
          · rw [List.mem_singleton.1 hrow']
            exact ⟨rfl, fun _ ↦ rfl⟩
        · obtain ⟨row', hrow', hid', -⟩ := hsys.keyed.batches batch hbatch
          exact absurd (hid'.symm.trans hid)
            ((hsys.keyed.store.rowFresh row' hrow').trans_le hadded.le).ne
    · rw [hcommit] at hrow
      exact absurd hrow hnew
  · exact absurd hrow hnew

end WebLens.Crawler
