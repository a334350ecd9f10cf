import WebLens.Crawl.StructuredData

/-!
# Counts of a page

The counts that the parser makes of a document and their narrow copies in the page result. The
loops over JSON-LD blocks bound errors and warnings by the number of blocks, and the parser makes no
more elements and words than the body has bytes. The loop over `itemtype` attributes stops at a
hundred names but counts every word, so the item count is exact only while the words and the JSON-LD
items together fit in sixteen bits.
-/

set_option autoImplicit false
set_option relaxedAutoImplicit false

namespace WebLens.Crawl

open Lib Lib.Utf8 Lib.Distinct

/-! ### Documents and their counts -/

/-- What the counts are made of: the `script` elements, the `itemtype` attributes of elements that
also have `itemscope`, the `rel` attributes of the `link` elements, the number of `img` elements and
the text of the body. -/
structure Document where
  scripts : List Script
  itemTypes : List ByteString
  linkRels : List ByteString
  images : ℕ
  bodyText : ByteString

/-- The counts of the page data. -/
structure PageData where
  schemaOrgItemCount : ℕ
  schemaOrgValidCount : ℕ
  schemaOrgErrorCount : ℕ
  schemaOrgWarningCount : ℕ
  wordCount : ℕ
  imageCount : ℕ
  scriptCount : ℕ
  stylesheetCount : ℕ

/-- The counts of the page result. -/
structure PageResult where
  schemaOrgItemCount : UInt16
  schemaOrgValidCount : UInt16
  schemaOrgErrorCount : UInt16
  schemaOrgWarningCount : UInt16
  wordCount : UInt32
  imageCount : UInt32
  scriptCount : UInt32
  stylesheetCount : UInt32

variable (go : Strings) (read : Reader) (isWordRune : Char → Bool)

/-- Adds a word of an `itemtype` attribute; every word counts as a valid item. -/
def addItemType (s : Extraction) (rawType : ByteString) : Extraction :=
  { s with
    toCollection :=
      { addTypeText go s.toCollection rawType with itemCount := s.itemCount + 1 }
    validCount := s.validCount + 1 }

/-- The loop over the `itemtype` attributes. -/
def scanItemTypes : List ByteString → Extraction → Extraction
  | [], s => s
  | itemType :: itemTypes, s =>
    if maxTypes ≤ s.types.length then s
    else scanItemTypes itemTypes ((go.fields itemType).foldl (addItemType go) s)

def extractStructuredData (document : Document) : Extraction :=
  scanItemTypes go document.itemTypes (scanScripts go read document.scripts .start)

/-- The words among some runes, when the rune before them was inside a word or not. -/
def countWordsFrom : List (Option Char) → Bool → ℕ
  | [], _ => 0
  | rune :: runes, inWord =>
    if isWordRune (rune.getD replacementCharacter) then
      (if inWord then 0 else 1) + countWordsFrom runes true
    else countWordsFrom runes false

def countWords (text : ByteString) : ℕ :=
  countWordsFrom isWordRune (runes text) false

/-- At most thirty-two lower-case words. -/
def tokenValues (value : ByteString) : List ByteString :=
  (go.fields (go.toLower value)).take 32

def isStylesheet (rel : ByteString) : Bool :=
  (tokenValues go rel).contains (ofText "stylesheet")

/-- The counts that `ParseHTML` makes of a document. -/
def parseHtml (document : Document) : PageData :=
  let data := extractStructuredData go read document
  { schemaOrgItemCount := data.itemCount
    schemaOrgValidCount := data.validCount
    schemaOrgErrorCount := data.errorCount
    schemaOrgWarningCount := data.warningCount
    wordCount := countWords isWordRune document.bodyText
    imageCount := document.images
    scriptCount := document.scripts.length
    stylesheetCount := document.linkRels.countP (isStylesheet go) }

/-- The conversions of `buildResult`. -/
def buildResult (data : PageData) : PageResult where
  schemaOrgItemCount := UInt16.ofNat data.schemaOrgItemCount
  schemaOrgValidCount := UInt16.ofNat data.schemaOrgValidCount
  schemaOrgErrorCount := UInt16.ofNat data.schemaOrgErrorCount
  schemaOrgWarningCount := UInt16.ofNat data.schemaOrgWarningCount
  wordCount := UInt32.ofNat data.wordCount
  imageCount := UInt32.ofNat data.imageCount
  scriptCount := UInt32.ofNat data.scriptCount
  stylesheetCount := UInt32.ofNat data.stylesheetCount

/-- The counts of a result are the counts they were made from. -/
structure PageResult.Exact (result : PageResult) (data : PageData) : Prop where
  schemaOrgItemCount : result.schemaOrgItemCount.toNat = data.schemaOrgItemCount
  schemaOrgValidCount : result.schemaOrgValidCount.toNat = data.schemaOrgValidCount
  schemaOrgErrorCount : result.schemaOrgErrorCount.toNat = data.schemaOrgErrorCount
  schemaOrgWarningCount : result.schemaOrgWarningCount.toNat = data.schemaOrgWarningCount
  wordCount : result.wordCount.toNat = data.wordCount
  imageCount : result.imageCount.toNat = data.imageCount
  scriptCount : result.scriptCount.toNat = data.scriptCount
  stylesheetCount : result.stylesheetCount.toNat = data.stylesheetCount

/-- The largest body limit that the configuration accepts: 50 MiB. -/
def maxBodyBytes : ℕ := 50 * 2 ^ 20

/-- The HTML parser makes at most one element of each kind, and at most one character of text, for
each byte it reads. -/
structure Linear (parse : ByteString → Option Document) : Prop where
  scripts_le : ∀ body document, parse body = some document →
    document.scripts.length ≤ body.length
  links_le : ∀ body document, parse body = some document →
    document.linkRels.length ≤ body.length
  images_le : ∀ body document, parse body = some document → document.images ≤ body.length
  text_le : ∀ body document, parse body = some document →
    (runes document.bodyText).length ≤ body.length

/-! ### Bounds from the loops -/

/-- What the blocks read so far allow of the other counts. -/
structure Extraction.Bounded (s : Extraction) : Prop where
  errors_le : s.errorCount ≤ s.blocks
  warnings_le : s.warningCount ≤ 2 * s.blocks
  valid_le : s.validCount ≤ s.itemCount
  blocks_le : s.blocks ≤ maxJsonLdBlocks

theorem bounded_start : Extraction.start.Bounded :=
  ⟨le_rfl, le_rfl, le_rfl, Nat.zero_le _⟩

/-- A block adds at most one error and two warnings, and is valid only when it adds an item. -/
theorem readBlock_counts (script : Script) {s : Extraction} {earlier : List ByteString}
    (htracks : s.toCollection.Tracks earlier) :
    (readBlock go read script s).errorCount ≤ s.errorCount + 1 ∧
      (readBlock go read script s).warningCount ≤ s.warningCount + 2 ∧
      (readBlock go read script s).validCount + s.itemCount ≤
        s.validCount + (readBlock go read script s).itemCount := by
  have hsame := admitBlock_toCollection go script s
  have hitems : (admitBlock go script s).itemCount = s.itemCount :=
    congrArg Collection.itemCount hsame
  have hvalid := admitBlock_validCount go script s
  have herrors : (admitBlock go script s).errorCount = s.errorCount := by
    unfold admitBlock
    simp only []
    split <;> rfl
  have hwarnings : (admitBlock go script s).warningCount ≤ s.warningCount + 1 := by
    unfold admitBlock
    simp only []
    split
    · exact le_rfl
    · exact Nat.le_succ _
  unfold readBlock
  cases blockValue go read script s.blocks s.totalBytes with
  | none =>
    simp only []
    omega
  | some value =>
    have hwalk := (collectSchemaTypes_spec go value (hsame.symm ▸ htracks)).2
    unfold classifyBlock
    simp only []
    split <;> simp only [] <;> omega

theorem bounded_scanScripts (scripts : List Script) {s : Extraction} {earlier : List ByteString}
    (htracks : s.toCollection.Tracks earlier) (h : s.Bounded) :
    (scanScripts go read scripts s).Bounded := by
  induction scripts generalizing s earlier with
  | nil => exact h
  | cons script scripts ih =>
    simp only [scanScripts]
    by_cases hfinished : Finished s.blocks s.totalBytes
    · rwa [if_pos hfinished]
    rw [if_neg hfinished]
    by_cases hblock : isJsonLd go script = true
    · rw [if_pos hblock]
      obtain ⟨herrors, hwarnings, hvalid⟩ := readBlock_counts go read script htracks
      have hblocks := (readBlock_position go read script s).1
      have hroom : s.blocks < maxJsonLdBlocks := Nat.lt_of_not_le fun hle ↦ hfinished (Or.inl hle)
      refine ih (readBlock_spec go read htracks script).1 ⟨?_, ?_, ?_, ?_⟩
      · have := h.errors_le
        omega
      · have := h.warnings_le
        omega
      · have := h.valid_le
        omega
      · omega
    · rw [if_neg hblock]
      exact ih htracks h

/-! ### The words of `itemtype` attributes -/

/-- The words of the attributes read while fewer than a hundred names came before. -/
def itemWords (earlier : List ByteString) : List ByteString → ℕ
  | [] => 0
  | itemType :: itemTypes =>
    if maxTypes ≤ earlier.dedup.length then 0
    else (go.fields itemType).length +
      itemWords (earlier ++ (go.fields itemType).flatMap (textKeys go)) itemTypes

theorem foldl_addItemType_spec (words : List ByteString) {s : Extraction}
    {earlier : List ByteString} (htracks : s.toCollection.Tracks earlier) :
    (words.foldl (addItemType go) s).toCollection.Tracks
        (earlier ++ words.flatMap (textKeys go)) ∧
      (words.foldl (addItemType go) s).itemCount = s.itemCount + words.length ∧
      (words.foldl (addItemType go) s).validCount = s.validCount + words.length ∧
      (words.foldl (addItemType go) s).errorCount = s.errorCount ∧
      (words.foldl (addItemType go) s).warningCount = s.warningCount := by
  induction words generalizing s earlier with
  | nil =>
    rw [List.flatMap_nil, List.append_nil]
    exact ⟨htracks, rfl, rfl, rfl, rfl⟩
  | cons word words ih =>
    obtain ⟨hseen, hlength, -⟩ := addTypeText_spec go htracks.length_eq word
    have hnext : (addItemType go s word).toCollection.Tracks (earlier ++ textKeys go word) := by
      refine ⟨hlength, ?_⟩
      show Represents maxTypes _ (addTypeText go s.toCollection word).seen
      rw [hseen]
      exact htracks.represents.insertAll _
    obtain ⟨htracks', hitems, hvalid, herrors, hwarnings⟩ := ih hnext
    rw [List.flatMap_cons, ← List.append_assoc, List.length_cons, List.foldl_cons]
    have hitem : (addItemType go s word).itemCount = s.itemCount + 1 := rfl
    have hone : (addItemType go s word).validCount = s.validCount + 1 := rfl
    exact ⟨htracks', by omega, by omega, herrors, hwarnings⟩

theorem scanItemTypes_spec (itemTypes : List ByteString) {s : Extraction}
    {earlier : List ByteString} (htracks : s.toCollection.Tracks earlier) :
    (scanItemTypes go itemTypes s).itemCount = s.itemCount + itemWords go earlier itemTypes ∧
      (scanItemTypes go itemTypes s).validCount =
        s.validCount + itemWords go earlier itemTypes ∧
      (scanItemTypes go itemTypes s).errorCount = s.errorCount ∧
      (scanItemTypes go itemTypes s).warningCount = s.warningCount := by
  induction itemTypes generalizing s earlier with
  | nil => exact ⟨rfl, rfl, rfl, rfl⟩
  | cons itemType itemTypes ih =>
    have hlt := htracks.represents.length_lt_iff
    rw [← htracks.length_eq] at hlt
    simp only [scanItemTypes, itemWords]
    by_cases hfull : maxTypes ≤ s.types.length
    · rw [if_pos hfull, if_pos (by omega)]
      exact ⟨rfl, rfl, rfl, rfl⟩
    · rw [if_neg hfull, if_neg (by omega)]
      obtain ⟨htracks', hitems, hvalid, herrors, hwarnings⟩ :=
        foldl_addItemType_spec go (go.fields itemType) htracks
      obtain ⟨hitems', hvalid', herrors', hwarnings'⟩ := ih htracks'
      exact ⟨by omega, by omega, herrors'.trans herrors, hwarnings'.trans hwarnings⟩

/-! ### The counts of a document -/

/-- The items of a document: the JSON-LD objects that bring a new name, and the words of the
`itemtype` attributes that are read. -/
def documentItems (document : Document) : ℕ :=
  newGroups maxTypes [] (valueGroups go (blockValues go read document.scripts 0 0)) +
    itemWords go (valueGroups go (blockValues go read document.scripts 0 0)).flatten
      document.itemTypes

theorem extractStructuredData_counts (document : Document) :
    (extractStructuredData go read document).itemCount = documentItems go read document ∧
      (extractStructuredData go read document).validCount ≤ documentItems go read document ∧
      (extractStructuredData go read document).errorCount ≤ 20 ∧
      (extractStructuredData go read document).warningCount ≤ 40 := by
  obtain ⟨htracks, hcount⟩ := scanScripts_spec go read document.scripts tracks_start
  have hbounds := bounded_scanScripts go read document.scripts tracks_start bounded_start
  obtain ⟨hitems, hvalid, herrors, hwarnings⟩ :=
    scanItemTypes_spec go document.itemTypes (show (scanScripts go read document.scripts
      .start).toCollection.Tracks (valueGroups go (blockValues go read document.scripts 0
        0)).flatten from htracks)
  have hstart : (scanScripts go read document.scripts .start).itemCount =
      newGroups maxTypes [] (valueGroups go (blockValues go read document.scripts 0 0)) :=
    hcount.trans (Nat.zero_add _)
  have hblocks : (scanScripts go read document.scripts .start).blocks ≤ 20 := hbounds.blocks_le
  have hvalidLe := hbounds.valid_le
  have herrorsLe := hbounds.errors_le
  have hwarningsLe := hbounds.warnings_le
  unfold extractStructuredData documentItems
  exact ⟨by omega, by omega, by omega, by omega⟩

theorem countWordsFrom_le (runes : List (Option Char)) (inWord : Bool) :
    countWordsFrom isWordRune runes inWord ≤ runes.length := by
  induction runes generalizing inWord with
  | nil => exact le_rfl
  | cons rune runes ih =>
    have htrue := ih true
    have hfalse := ih false
    simp only [countWordsFrom, List.length_cons]
    split
    · split <;> omega
    · omega

theorem toNat_ofNat16_iff (n : ℕ) : (UInt16.ofNat n).toNat = n ↔ n ≤ 65535 := by
  rw [UInt16.toNat_ofNat']
  omega

theorem toNat_ofNat32_of_le {n : ℕ} (h : n ≤ maxBodyBytes) : (UInt32.ofNat n).toNat = n := by
  have hbody : maxBodyBytes < 2 ^ 32 := by decide
  rw [UInt32.toNat_ofNat']
  exact Nat.mod_eq_of_lt (lt_of_le_of_lt h hbody)

/-- For every body within the limit, the counts of the result are those of the parser exactly when
the JSON-LD items and the words of the `itemtype` attributes that are read are together at most
65 535. -/
theorem buildResult_exact_iff (parse : ByteString → Option Document) (hparse : Linear parse)
    (body : ByteString) (hbody : body.length ≤ maxBodyBytes) (document : Document)
    (hdocument : parse body = some document) :
    (buildResult (parseHtml go read isWordRune document)).Exact
        (parseHtml go read isWordRune document) ↔
      documentItems go read document ≤ 65535 := by
  obtain ⟨hitems, hvalid, herrors, hwarnings⟩ := extractStructuredData_counts go read document
  constructor
  · intro h
    rw [← hitems]
    exact (toNat_ofNat16_iff _).1 h.schemaOrgItemCount
  · intro h
    have hwords : countWords isWordRune document.bodyText ≤ maxBodyBytes :=
      (countWordsFrom_le isWordRune _ _).trans
        ((hparse.text_le body document hdocument).trans hbody)
    have hscripts := (hparse.scripts_le body document hdocument).trans hbody
    have himages := (hparse.images_le body document hdocument).trans hbody
    have hstylesheets : document.linkRels.countP (isStylesheet go) ≤ maxBodyBytes :=
      List.countP_le_length.trans ((hparse.links_le body document hdocument).trans hbody)
    exact {
      schemaOrgItemCount := (toNat_ofNat16_iff _).2 (hitems.trans_le h)
      schemaOrgValidCount := (toNat_ofNat16_iff _).2 (hvalid.trans h)
      schemaOrgErrorCount := (toNat_ofNat16_iff _).2 (herrors.trans (by omega))
      schemaOrgWarningCount := (toNat_ofNat16_iff _).2 (hwarnings.trans (by omega))
      wordCount := toNat_ofNat32_of_le hwords
      imageCount := toNat_ofNat32_of_le himages
      scriptCount := toNat_ofNat32_of_le hscripts
      stylesheetCount := toNat_ofNat32_of_le hstylesheets }

/-! ### A type repeated 65 536 times -/

/-- The attribute `a a … a `, with a number of words. -/
def repeatedType (words : ℕ) : ByteString :=
  (List.replicate words [0x61, 0x20]).flatten

theorem asciiFields_repeatedType (words : ℕ) :
    asciiFields [] (repeatedType words) = List.replicate words [0x61] := by
  induction words with
  | zero => rfl
  | succ words ih =>
    show [[0x61]] ++ asciiFields [] (repeatedType words) = _
    rw [ih]
    rfl

/-- The body `<p itemscope itemtype="a a … a "></p>`. -/
def repeatedBody (words : ℕ) : ByteString :=
  ofText "<p itemscope itemtype=\"" ++ repeatedType words ++ ofText "\"></p>"

theorem length_repeatedBody (words : ℕ) : (repeatedBody words).length = 2 * words + 29 := by
  have hopen : (ofText "<p itemscope itemtype=\"").length = 23 := by decide +kernel
  have hclose : (ofText "\"></p>").length = 6 := by decide +kernel
  have hwords : (repeatedType words).length = 2 * words := by
    unfold repeatedType
    rw [List.length_flatten, List.map_replicate, List.sum_replicate_nat]
    exact Nat.mul_comm _ _
  unfold repeatedBody
  rw [List.length_append, List.length_append, hopen, hclose, hwords]
  omega

/-- The document of a body with one `itemtype` attribute. -/
def repeatedDocument (words : ℕ) : Document where
  scripts := []
  itemTypes := [repeatedType words]
  linkRels := []
  images := 0
  bodyText := []

/-- Parses the body with a number of words. -/
def parseRepeated (words : ℕ) (body : ByteString) : Option Document :=
  if body = repeatedBody words then some (repeatedDocument words) else none

theorem linear_parseRepeated (words : ℕ) : Linear (parseRepeated words) := by
  have hdocument : ∀ body document, parseRepeated words body = some document →
      document = repeatedDocument words := by
    intro body document h
    unfold parseRepeated at h
    split at h
    · exact (Option.some.inj h).symm
    · exact absurd h (by simp)
  constructor
  · intro body document h
    rw [hdocument body document h]
    exact Nat.zero_le _
  · intro body document h
    rw [hdocument body document h]
    exact Nat.zero_le _
  · intro body document h
    rw [hdocument body document h]
    exact Nat.zero_le _
  · intro body document h
    rw [hdocument body document h]
    exact Nat.zero_le _

theorem parseRepeated_body (words : ℕ) :
    parseRepeated words (repeatedBody words) = some (repeatedDocument words) :=
  if_pos rfl

theorem documentItems_repeated (read : Reader) (words : ℕ) :
    documentItems .ascii read (repeatedDocument words) = words := by
  show 0 + ((asciiFields [] (repeatedType words)).length + 0) = words
  rw [asciiFields_repeatedType, List.length_replicate]
  omega

theorem buildResult_exact_iff_repeated :
    (buildResult (parseHtml .ascii articleReader Char.isAlphanum (repeatedDocument 3))).Exact
      (parseHtml .ascii articleReader Char.isAlphanum (repeatedDocument 3)) :=
  (buildResult_exact_iff .ascii articleReader Char.isAlphanum (parseRepeated 3)
    (linear_parseRepeated 3) (repeatedBody 3) (by rw [length_repeatedBody]; decide)
    (repeatedDocument 3) (parseRepeated_body 3)).2
    (by rw [documentItems_repeated]; decide)

theorem not_exact_repeated {words : ℕ} (h : 65535 < words) :
    ¬ (buildResult (parseHtml .ascii articleReader Char.isAlphanum (repeatedDocument words))).Exact
      (parseHtml .ascii articleReader Char.isAlphanum (repeatedDocument words)) := by
  intro hexact
  have hitems := (extractStructuredData_counts .ascii articleReader (repeatedDocument words)).1
  rw [documentItems_repeated] at hitems
  have hle := (toNat_ofNat16_iff _).1 hexact.schemaOrgItemCount
  have hcount : (parseHtml .ascii articleReader Char.isAlphanum
      (repeatedDocument words)).schemaOrgItemCount = words := hitems
  omega

/-- A body of 131 kB whose item count wraps to zero. -/
theorem repeated_type_wraps :
    (repeatedBody 65536).length ≤ maxBodyBytes ∧
      parseRepeated 65536 (repeatedBody 65536) = some (repeatedDocument 65536) ∧
      ¬ (buildResult (parseHtml .ascii articleReader Char.isAlphanum
          (repeatedDocument 65536))).Exact
        (parseHtml .ascii articleReader Char.isAlphanum (repeatedDocument 65536)) :=
  ⟨by rw [length_repeatedBody]; decide, parseRepeated_body 65536,
    not_exact_repeated (by decide)⟩

end WebLens.Crawl
