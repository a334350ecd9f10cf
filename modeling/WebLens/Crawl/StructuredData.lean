import WebLens.Crawl.SchemaTypes

/-!
# Structured data of a document

The loop over the scripts of a document that reads its JSON-LD blocks, at most twenty of them and at
most one megabyte together. A block is meant to be valid when it contains a typed object; the loop
decides it by the growth of the item count. The two agree on a block exactly when every typed object
in it is met by the walk and has a name that no earlier object had.
-/

set_option autoImplicit false
set_option relaxedAutoImplicit false

namespace WebLens.Crawl

open Lib Lib.Utf8 Lib.Distinct

/-! ### The loop -/

/-- A `script` element: its `type` attribute, empty when absent, and its text. -/
structure Script where
  typeAttr : ByteString
  content : ByteString

/-- The result of `json.Unmarshal` for the block with a number; nothing when it fails. -/
abbrev Reader := ℕ → ByteString → Option Value

inductive IssueCode
  | inputTruncated
  | invalid
  | typeMissing
  deriving DecidableEq

def IssueCode.text : IssueCode → String
  | .inputTruncated => "JSON_LD_INPUT_TRUNCATED"
  | .invalid => "JSON_LD_INVALID"
  | .typeMissing => "JSON_LD_TYPE_MISSING"

def addIssueCode (codes : List IssueCode) (code : IssueCode) : List IssueCode :=
  if 20 ≤ codes.length then codes
  else if code ∈ codes then codes
  else codes ++ [code]

/-- The counters of the page data and the variables of the loop. -/
structure Extraction extends Collection where
  validCount : ℕ
  errorCount : ℕ
  warningCount : ℕ
  issueCodes : List IssueCode
  totalBytes : ℕ
  blocks : ℕ

def Extraction.start : Extraction where
  types := []
  seen := []
  itemCount := 0
  validCount := 0
  errorCount := 0
  warningCount := 0
  issueCodes := []
  totalBytes := 0
  blocks := 0

def maxJsonLdBlocks : ℕ := 20

def maxJsonLdBytes : ℕ := 2 ^ 20

def jsonLdType : ByteString :=
  ofText "application/ld+json"

/-- The loop stops before its next script. -/
def Finished (blocks totalBytes : ℕ) : Prop :=
  maxJsonLdBlocks ≤ blocks ∨ maxJsonLdBytes ≤ totalBytes

instance instDecidableFinished (blocks totalBytes : ℕ) : Decidable (Finished blocks totalBytes) :=
  inferInstanceAs (Decidable (_ ∨ _))

variable (go : Strings) (read : Reader)

def isJsonLd (script : Script) : Bool :=
  go.equalFold (go.trimSpace script.typeAttr) jsonLdType

/-- The bytes of a block that are read, when some are left of the limit. -/
def admitted (remaining : ℕ) (raw : ByteString) : ByteString :=
  if remaining < raw.length then raw.take remaining else raw

/-- Counts a block and its bytes, with a warning when it was cut. -/
def admitBlock (script : Script) (s : Extraction) : Extraction :=
  let raw := go.trimSpace script.content
  let remaining := maxJsonLdBytes - s.totalBytes
  let cut : Extraction :=
    if remaining < raw.length then
      { s with
        warningCount := s.warningCount + 1
        issueCodes := addIssueCode s.issueCodes .inputTruncated }
    else s
  { cut with
    totalBytes := s.totalBytes + (admitted remaining raw).length
    blocks := s.blocks + 1 }

/-- The value of a block, when there are bytes and they parse. -/
def blockValue (script : Script) (blocks totalBytes : ℕ) : Option Value :=
  let raw := admitted (maxJsonLdBytes - totalBytes) (go.trimSpace script.content)
  if raw = [] then none else read blocks raw

/-- Collects the types of a block's value and classifies the block. -/
def classifyBlock (value : Value) (s : Extraction) : Extraction :=
  let after := collectSchemaTypes go value s.toCollection
  if after.itemCount = s.itemCount then
    { s with
      toCollection := after
      warningCount := s.warningCount + 1
      issueCodes := addIssueCode s.issueCodes .typeMissing }
  else { s with toCollection := after, validCount := s.validCount + 1 }

def readBlock (script : Script) (s : Extraction) : Extraction :=
  match blockValue go read script s.blocks s.totalBytes with
  | none =>
    { admitBlock go script s with
      errorCount := s.errorCount + 1
      issueCodes := addIssueCode (admitBlock go script s).issueCodes .invalid }
  | some value => classifyBlock go value (admitBlock go script s)

/-- The loop over the scripts. -/
def scanScripts : List Script → Extraction → Extraction
  | [], s => s
  | script :: scripts, s =>
    if Finished s.blocks s.totalBytes then s
    else if isJsonLd go script then scanScripts scripts (readBlock go read script s)
    else scanScripts scripts s

/-- The values of the blocks that the loop reads, when it starts with some blocks and bytes. -/
def blockValues : List Script → ℕ → ℕ → List Value
  | [], _, _ => []
  | script :: scripts, blocks, totalBytes =>
    if Finished blocks totalBytes then []
    else if isJsonLd go script then
      (blockValue go read script blocks totalBytes).toList ++
        blockValues scripts (blocks + 1) (totalBytes +
          (admitted (maxJsonLdBytes - totalBytes) (go.trimSpace script.content)).length)
    else blockValues scripts blocks totalBytes

/-- The keys of each typed object met in some values, in order. -/
def valueGroups (values : List Value) : List (List ByteString) :=
  values.flatMap (Value.groups go)

/-! ### One block -/

theorem admitBlock_toCollection (script : Script) (s : Extraction) :
    (admitBlock go script s).toCollection = s.toCollection := by
  unfold admitBlock
  simp only []
  split <;> rfl

theorem admitBlock_validCount (script : Script) (s : Extraction) :
    (admitBlock go script s).validCount = s.validCount := by
  unfold admitBlock
  simp only []
  split <;> rfl

/-- A block moves the loop on, whatever its value. -/
theorem readBlock_position (script : Script) (s : Extraction) :
    (readBlock go read script s).blocks = s.blocks + 1 ∧
      (readBlock go read script s).totalBytes = s.totalBytes +
        (admitted (maxJsonLdBytes - s.totalBytes) (go.trimSpace script.content)).length := by
  unfold readBlock
  cases blockValue go read script s.blocks s.totalBytes with
  | none => exact ⟨rfl, rfl⟩
  | some value =>
    unfold classifyBlock
    simp only []
    split <;> exact ⟨rfl, rfl⟩

theorem readBlock_spec {earlier : List ByteString} {s : Extraction}
    (h : s.toCollection.Tracks earlier) (script : Script) :
    (readBlock go read script s).toCollection.Tracks (earlier ++
        (valueGroups go (blockValue go read script s.blocks s.totalBytes).toList).flatten) ∧
      (readBlock go read script s).itemCount = s.itemCount + newGroups maxTypes earlier
        (valueGroups go (blockValue go read script s.blocks s.totalBytes).toList) := by
  unfold readBlock
  cases blockValue go read script s.blocks s.totalBytes with
  | none =>
    have hsame := admitBlock_toCollection go script s
    simp only [Option.toList_none, valueGroups, List.flatMap_nil, List.flatten_nil,
      List.append_nil, newGroups, Nat.add_zero]
    exact ⟨by rw [hsame]; exact h, congrArg Collection.itemCount hsame⟩
  | some value =>
    have hsame := admitBlock_toCollection go script s
    have hwalk := collectSchemaTypes_spec go value (hsame.symm ▸ h)
    simp only [Option.toList_some, valueGroups, List.flatMap_cons, List.flatMap_nil,
      List.append_nil]
    rw [congrArg Collection.itemCount hsame] at hwalk
    unfold classifyBlock
    simp only []
    split <;> exact hwalk

/-! ### The whole loop -/

theorem scanScripts_append (first second : List Script) (s : Extraction) :
    scanScripts go read (first ++ second) s =
      scanScripts go read second (scanScripts go read first s) := by
  induction first generalizing s with
  | nil => rfl
  | cons script first ih =>
    simp only [List.cons_append, scanScripts]
    by_cases hfinished : Finished s.blocks s.totalBytes
    · rw [if_pos hfinished, if_pos hfinished]
      cases second with
      | nil => rfl
      | cons script second =>
        simp only [scanScripts]
        rw [if_pos hfinished]
    · rw [if_neg hfinished, if_neg hfinished]
      split <;> exact ih _

/-- The loop keeps track of the keys of the objects met in the values it reads. -/
theorem scanScripts_spec (scripts : List Script) {earlier : List ByteString} {s : Extraction}
    (h : s.toCollection.Tracks earlier) :
    (scanScripts go read scripts s).toCollection.Tracks (earlier ++
        (valueGroups go (blockValues go read scripts s.blocks s.totalBytes)).flatten) ∧
      (scanScripts go read scripts s).itemCount = s.itemCount + newGroups maxTypes earlier
        (valueGroups go (blockValues go read scripts s.blocks s.totalBytes)) := by
  induction scripts generalizing earlier s with
  | nil =>
    simp only [blockValues, valueGroups, List.flatMap_nil, List.flatten_nil, List.append_nil]
    exact ⟨h, rfl⟩
  | cons script scripts ih =>
    simp only [scanScripts, blockValues]
    by_cases hfinished : Finished s.blocks s.totalBytes
    · simp only [if_pos hfinished, valueGroups, List.flatMap_nil, List.flatten_nil,
        List.append_nil]
      exact ⟨h, rfl⟩
    simp only [if_neg hfinished]
    by_cases hblock : isJsonLd go script = true
    · obtain ⟨htracks, hcount⟩ := readBlock_spec go read h script
      obtain ⟨hblocks, hbytes⟩ := readBlock_position go read script s
      obtain ⟨htracks', hcount'⟩ := ih htracks
      simp only [if_pos hblock]
      rw [hblocks, hbytes] at htracks' hcount'
      have hgroups : ∀ first second : List Value, valueGroups go (first ++ second) =
          valueGroups go first ++ valueGroups go second := fun _ _ ↦ List.flatMap_append
      rw [hgroups, List.flatten_append, newGroups_append, ← List.append_assoc]
      exact ⟨htracks', by rw [hcount', hcount, Nat.add_assoc]⟩
    · simp only [if_neg hblock]
      exact ih h

theorem tracks_start : Extraction.start.toCollection.Tracks [] :=
  ⟨rfl, Represents.nil _⟩

/-! ### Issue codes -/

theorem nodup_addIssueCode {codes : List IssueCode} (h : codes.Nodup) (code : IssueCode) :
    (addIssueCode codes code).Nodup := by
  unfold addIssueCode
  by_cases hfull : 20 ≤ codes.length
  · rwa [if_pos hfull]
  rw [if_neg hfull]
  by_cases hmem : code ∈ codes
  · rwa [if_pos hmem]
  · rw [if_neg hmem]
    exact List.nodup_append.2 ⟨h, List.nodup_singleton _, fun a ha b hb hab ↦
      hmem (List.mem_singleton.1 hb ▸ hab ▸ ha)⟩

/-- There are fewer codes than the list may hold. -/
theorem mem_addIssueCode {codes : List IssueCode} (h : codes.Nodup) (code : IssueCode) :
    code ∈ addIssueCode codes code := by
  have hsub : codes ⊆ [.inputTruncated, .invalid, .typeMissing] := by
    intro code _
    cases code <;> decide
  have hlength : codes.length ≤ 3 := (h.subperm hsub).length_le
  unfold addIssueCode
  rw [if_neg (by omega)]
  by_cases hmem : code ∈ codes
  · rwa [if_pos hmem]
  · rw [if_neg hmem]
    exact List.mem_append_right _ (List.mem_singleton_self _)

theorem nodup_issueCodes_admitBlock (script : Script) {s : Extraction} (h : s.issueCodes.Nodup) :
    (admitBlock go script s).issueCodes.Nodup := by
  unfold admitBlock
  simp only []
  split
  · exact nodup_addIssueCode h _
  · exact h

theorem nodup_issueCodes_readBlock (script : Script) {s : Extraction} (h : s.issueCodes.Nodup) :
    (readBlock go read script s).issueCodes.Nodup := by
  have hadmit := nodup_issueCodes_admitBlock go script h
  unfold readBlock
  cases blockValue go read script s.blocks s.totalBytes with
  | none => exact nodup_addIssueCode hadmit _
  | some value =>
    unfold classifyBlock
    simp only []
    split
    · exact nodup_addIssueCode hadmit _
    · exact hadmit

theorem nodup_issueCodes_scanScripts (scripts : List Script) {s : Extraction}
    (h : s.issueCodes.Nodup) : (scanScripts go read scripts s).issueCodes.Nodup := by
  induction scripts generalizing s with
  | nil => exact h
  | cons script scripts ih =>
    simp only [scanScripts]
    by_cases hfinished : Finished s.blocks s.totalBytes
    · rwa [if_pos hfinished]
    rw [if_neg hfinished]
    split
    · exact ih (nodup_issueCodes_readBlock go read script h)
    · exact ih h

/-! ### The classification of a block -/

/-- What a block with a value is meant to add to the page data: it is valid when it contains a
typed object, it draws a warning about a missing type when it does not, and it counts as many items
as it contains typed objects. -/
structure Classified (before after : Extraction) (value : Value) : Prop where
  valid_iff : after.validCount = before.validCount + 1 ↔ value.ContainsTyped
  missing_iff : (after.warningCount = before.warningCount + 1 ∧
    IssueCode.typeMissing ∈ after.issueCodes) ↔ ¬ value.ContainsTyped
  itemCount_eq : after.itemCount = before.itemCount + value.typedObjects

/-- The classification follows the growth of the item count, so it is right when that growth is. -/
theorem classified_iff_growth {s after : Extraction} {value : Value} {growth : ℕ}
    (hcodes : s.issueCodes.Nodup) (hcount : after.itemCount = s.itemCount + growth)
    (hmissing : growth = 0 → after.validCount = s.validCount ∧
      after.warningCount = s.warningCount + 1 ∧
      after.issueCodes = addIssueCode s.issueCodes .typeMissing)
    (hvalid : growth ≠ 0 → after.validCount = s.validCount + 1 ∧
      after.warningCount = s.warningCount) :
    Classified s after value ↔ growth = value.typedObjects := by
  constructor
  · intro h
    have hitems := h.itemCount_eq
    omega
  · intro h
    by_cases hzero : growth = 0
    · obtain ⟨hv, hw, hc⟩ := hmissing hzero
      have hnone : ¬ value.ContainsTyped := by
        rw [value.containsTyped_iff]
        omega
      exact ⟨iff_of_false (by omega) hnone,
        iff_of_true ⟨hw, hc ▸ mem_addIssueCode hcodes _⟩ hnone, by omega⟩
    · obtain ⟨hv, hw⟩ := hvalid hzero
      have htyped : value.ContainsTyped := by
        rw [value.containsTyped_iff]
        omega
      exact ⟨iff_of_true hv htyped,
        iff_of_false (fun hwarned ↦ by omega) (not_not_intro htyped), by omega⟩

/-- A block within the limit is admitted without a warning. -/
theorem admitBlock_of_fits {script : Script} {s : Extraction}
    (hfits : (go.trimSpace script.content).length ≤ maxJsonLdBytes - s.totalBytes) :
    (admitBlock go script s).warningCount = s.warningCount ∧
      (admitBlock go script s).issueCodes = s.issueCodes := by
  unfold admitBlock
  simp only []
  rw [if_neg (Nat.not_lt.2 hfits)]
  exact ⟨rfl, rfl⟩

theorem classified_readBlock_iff {earlier : List ByteString} {s : Extraction} {script : Script}
    {value : Value} (htracks : s.toCollection.Tracks earlier) (hcodes : s.issueCodes.Nodup)
    (hfits : (go.trimSpace script.content).length ≤ maxJsonLdBytes - s.totalBytes)
    (hvalue : blockValue go read script s.blocks s.totalBytes = some value) :
    Classified s (readBlock go read script s) value ↔
      newGroups maxTypes earlier (value.groups go) = value.typedObjects := by
  obtain ⟨hwarnings, hissues⟩ := admitBlock_of_fits go hfits
  have hvalid := admitBlock_validCount go script s
  have hsame := admitBlock_toCollection go script s
  have hitems : (admitBlock go script s).itemCount = s.itemCount :=
    congrArg Collection.itemCount hsame
  have hwalk := (collectSchemaTypes_spec go value (hsame.symm ▸ htracks)).2
  rw [hitems] at hwalk
  have hread : readBlock go read script s = classifyBlock go value (admitBlock go script s) := by
    unfold readBlock
    rw [hvalue]
  rw [hread]
  refine classified_iff_growth hcodes ?_ ?_ ?_
  · unfold classifyBlock
    simp only []
    split <;> exact hwalk
  · intro hzero
    unfold classifyBlock
    simp only []
    rw [if_pos (by rw [hwalk, hzero, hitems, Nat.add_zero])]
    exact ⟨hvalid, by rw [hwarnings], by rw [hissues]⟩
  · intro hgrowth
    unfold classifyBlock
    simp only []
    rw [if_neg (by rw [hwalk, hitems]; omega)]
    exact ⟨by rw [hvalid], hwarnings⟩

/-- A block that the loop reaches, that fits and parses is classified as meant exactly when no
typed object in it is hidden inside the value of an `@type` and each one, when its turn comes,
finds fewer than a hundred names and has one that no object before it had, in this block or in the
blocks before. -/
theorem block_classified_iff (before : List Script) (script : Script) (value : Value)
    (hreached : ¬ Finished (scanScripts go read before .start).blocks
      (scanScripts go read before .start).totalBytes)
    (hblock : isJsonLd go script = true)
    (hfits : (go.trimSpace script.content).length ≤
      maxJsonLdBytes - (scanScripts go read before .start).totalBytes)
    (hnonempty : go.trimSpace script.content ≠ [])
    (hparses : read (scanScripts go read before .start).blocks (go.trimSpace script.content) =
      some value) :
    Classified (scanScripts go read before .start)
        (scanScripts go read (before ++ [script]) .start) value ↔
      value.hiddenObjects = 0 ∧
        AllNew maxTypes (valueGroups go (blockValues go read before 0 0)).flatten
          (value.groups go) := by
  have htracks := (scanScripts_spec go read before tracks_start).1
  have hcodes : (scanScripts go read before .start).issueCodes.Nodup :=
    nodup_issueCodes_scanScripts go read before List.nodup_nil
  have hvalue : blockValue go read script (scanScripts go read before .start).blocks
      (scanScripts go read before .start).totalBytes = some value := by
    unfold blockValue admitted
    simp only [if_neg (Nat.not_lt.2 hfits), if_neg hnonempty]
    exact hparses
  have hstep : scanScripts go read (before ++ [script]) .start =
      readBlock go read script (scanScripts go read before .start) := by
    rw [scanScripts_append]
    simp only [scanScripts]
    rw [if_neg hreached, if_pos hblock]
  rw [hstep, ← newGroups_eq_typedObjects_iff]
  exact classified_readBlock_iff go read htracks hcodes hfits hvalue

/-! ### A repeated type -/

def isAsciiSpace (byte : UInt8) : Bool :=
  byte == 0x20 || (0x09 ≤ byte && byte ≤ 0x0D)

def asciiLower (byte : UInt8) : UInt8 :=
  if 0x41 ≤ byte ∧ byte ≤ 0x5A then byte + 0x20 else byte

/-- The words of an ASCII text; `word` holds the bytes of the current one. -/
def asciiFields : ByteString → ByteString → List ByteString
  | word, [] => if word = [] then [] else [word]
  | word, byte :: rest =>
    if isAsciiSpace byte then (if word = [] then [] else [word]) ++ asciiFields [] rest
    else asciiFields (word ++ [byte]) rest

/-- The functions on ASCII texts, where no text is an absolute URL. -/
def Strings.ascii : Strings where
  trimSpace value := (value.dropWhile isAsciiSpace).rdropWhile isAsciiSpace
  toLower value := value.map asciiLower
  fields value := asciiFields [] value
  equalFold first second := first.map asciiLower == second.map asciiLower
  parseUrl value := some { isAbs := false, fragment := [], path := value }
  trimSpace_nil := rfl
  isAbs_nil url h := by rw [← Option.some.inj h]

/-- The object `{"@type":"Article"}`. -/
def article : Value :=
  .map [(typeKey, .text (ofText "Article"))]

def articleScript : Script where
  typeAttr := jsonLdType
  content := ofText "\x7b\"@type\":\"Article\"\x7d"

/-- Reads the text of an article. -/
def articleReader : Reader := fun _ raw ↦
  if raw = articleScript.content then some article else none

theorem block_classified_iff_article :
    Classified (scanScripts .ascii articleReader [] .start)
      (scanScripts .ascii articleReader [articleScript] .start) article :=
  (block_classified_iff .ascii articleReader [] articleScript article (by decide +kernel)
    (by decide +kernel) (by decide +kernel) (by decide +kernel) rfl).2
    ⟨rfl, ⟨by decide +kernel, trivial⟩⟩

/-- The second of two equal blocks is classified as having no type. -/
theorem second_article_without_type :
    ¬ Classified (scanScripts .ascii articleReader [articleScript] .start)
      (scanScripts .ascii articleReader [articleScript, articleScript] .start) article := by
  intro h
  have hcount : (scanScripts .ascii articleReader [articleScript, articleScript] .start).validCount =
      (scanScripts .ascii articleReader [articleScript] .start).validCount := by decide +kernel
  have htyped : article.ContainsTyped := ⟨_, .here, by decide +kernel⟩
  have hvalid := h.valid_iff.2 htyped
  omega

end WebLens.Crawl
