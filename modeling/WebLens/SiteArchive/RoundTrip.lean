import WebLens.SiteArchive.Bundle

/-!
# Bundles that survive their encoding

A bundle is decoded to itself exactly when it passes the checks of the decoder and these leave its
paths and URLs as they are. Of a bundle that `processPage` makes only three checks are open: the
length of the route template, the paths, and the URLs of the resource gaps.
-/

set_option autoImplicit false
set_option relaxedAutoImplicit false

namespace WebLens.SiteArchive

open Lib
open Lib.Utf8 (ByteString)
open SiteClone.Design (textLength DesignPageInput describeDesignPage layoutFingerprint
  IsLocaleText localePattern)
open StaticClone

/-! ### What the decoder accepts -/

section Accepted

variable (p : Platform)

structure SiteBundleFile.Accepted (file : SiteBundleFile) : Prop where
  body_ne : file.body ≠ []
  body_length : file.body.length ≤ 52_428_800
  path : safeArchivePath p file.localPath = some file.localPath

structure SiteResourceGap.Accepted (gap : SiteResourceGap) : Prop where
  sourceUrl : textLength gap.sourceUrl ≤ 8192
  resourceType : textLength gap.resourceType ≤ 32
  reason : isReason gap.reason = true
  sanitized : sanitizeUrl p gap.sourceUrl = gap.sourceUrl

structure DesignMetadata.Accepted (design : DesignMetadata) : Prop where
  locale : textLength design.locale ≤ 35
  semanticRole : textLength design.semanticRole ≤ 64
  routeTemplate : textLength design.routeTemplate ≤ 512
  layoutFingerprint : ∀ digest, design.layoutFingerprint = some digest → isDigest digest = true
  version : design.layoutFingerprintVersion = SiteArchive.layoutFingerprintVersion

/-- A bundle that the decoder accepts and leaves as it is. -/
structure SitePageBundle.Accepted (bundle : SitePageBundle) : Prop where
  mainPath : safeArchivePath p bundle.mainPath = some bundle.mainPath
  files_ne : bundle.files ≠ []
  files_length : bundle.files.length ≤ 101
  files : ∀ file ∈ bundle.files, file.Accepted p
  design : ∀ design, bundle.design = some design → design.Accepted
  gaps_length : ∀ gaps, bundle.resourceGaps = some gaps → gaps.length ≤ 100
  gaps : ∀ gaps, bundle.resourceGaps = some gaps → ∀ gap ∈ gaps, gap.Accepted p

end Accepted

variable {p : Platform} {codec : JsonCodec}

theorem mapM_map_eq_some_iff {α β : Type} {encode : α → β} {decode : β → Option α} {list : List α} :
    (list.map encode).mapM decode = some list ↔ ∀ a ∈ list, decode (encode a) = some a := by
  induction list with
  | nil => exact iff_of_true rfl fun _ h ↦ absurd h List.not_mem_nil
  | cons head rest ih =>
    rw [List.map_cons, List.mapM_cons, List.forall_mem_cons, ← ih]
    constructor
    · intro h
      obtain ⟨image, himage, h⟩ := Option.bind_eq_some_iff.1 h
      obtain ⟨images, himages, h⟩ := Option.bind_eq_some_iff.1 h
      cases h
      exact ⟨himage, himages⟩
    · rintro ⟨hhead, hrest⟩
      rw [hhead, hrest]
      rfl

theorem decodeKind_text (kind : FileKind) : decodeKind kind.text = some kind := by
  cases kind <;> rfl

theorem decodeFile_fileValue_iff (hcodec : codec.Lawful) (file : SiteBundleFile) :
    decodeFile codec p (fileValue codec file) = some file ↔ file.Accepted p := by
  have hdecode : decodeFile codec p (fileValue codec file) =
      if file.body = [] ∨ 52_428_800 < file.body.length then none
      else (safeArchivePath p file.localPath).map fun path ↦ { file with localPath := path } := by
    have hkind : ((fileValue codec file).getText "kind").bind decodeKind = some file.kind := by
      show ((Json.ofString file.kind.text).text).bind decodeKind = _
      rw [Json.text_ofString, Option.bind_some, decodeKind_text]
    have hpath : (fileValue codec file).getText "localPath" = some file.localPath :=
      Json.text_ofString _
    have hurl : (fileValue codec file).getText "sourceUrl" = some file.sourceUrl :=
      Json.text_ofString _
    have htype : (fileValue codec file).getText "contentType" = some file.contentType :=
      Json.text_ofString _
    have hbody : (fileValue codec file).getText "bodyBase64" = some (codec.toBase64 file.body) :=
      Json.text_ofString _
    unfold decodeFile
    rw [hkind, hpath, hurl, htype, hbody]
    show (if codec.ofBase64 (codec.toBase64 file.body) = [] ∨ _ then none else _) = _
    rw [hcodec.ofBase64_toBase64]
    split_ifs
    · rfl
    · cases safeArchivePath p file.localPath <;> rfl
  rw [hdecode]
  constructor
  · intro h
    split_ifs at h with hbody
    obtain ⟨hne, hlength⟩ := not_or.1 hbody
    obtain ⟨path, hpath, heq⟩ := Option.map_eq_some_iff.1 h
    refine ⟨hne, Nat.not_lt.1 hlength, ?_⟩
    have hlocal := congrArg SiteBundleFile.localPath heq
    rw [hpath]
    exact congrArg some hlocal
  · intro h
    rw [if_neg (not_or.2 ⟨h.body_ne, Nat.not_lt.2 h.body_length⟩), h.path]
    rfl

theorem decodeGap_gapValue_iff (gap : SiteResourceGap) :
    decodeGap p (gapValue gap) = some gap ↔ gap.Accepted p := by
  have hurl : (gapValue gap).getText "sourceUrl" = some gap.sourceUrl := Json.text_ofString _
  have htype : (gapValue gap).getText "resourceType" = some gap.resourceType :=
    Json.text_ofString _
  have hreason : (gapValue gap).getText "reason" = some gap.reason := Json.text_ofString _
  unfold decodeGap
  rw [hurl, htype, hreason]
  show (if _ then none else some _) = _ ↔ _
  constructor
  · intro h
    split_ifs at h with hchecks
    obtain ⟨hlength, htypeLength, hpattern⟩ := (not_or.1 hchecks).imp_right not_or.1
    exact ⟨Nat.not_lt.1 hlength, Nat.not_lt.1 htypeLength, Bool.of_not_eq_false hpattern,
      congrArg SiteResourceGap.sourceUrl (Option.some.inj h)⟩
  · intro h
    rw [if_neg (not_or.2 ⟨Nat.not_lt.2 h.sourceUrl, not_or.2 ⟨Nat.not_lt.2 h.resourceType,
      fun hfalse ↦ Bool.noConfusion (h.reason.symm.trans hfalse)⟩⟩), h.sanitized]

theorem decodeFingerprint_nullableValue_iff (fingerprint : Option String) :
    decodeFingerprint (some (nullableValue fingerprint)) = some fingerprint ↔
      ∀ digest, fingerprint = some digest → isDigest digest = true := by
  cases fingerprint with
  | none => exact iff_of_true rfl fun _ h ↦ (by cases h)
  | some digest =>
    have hstring : ∀ bytes, decodeFingerprint (some (.string bytes)) =
        (Json.string bytes).text.bind fun text ↦
          if isDigest text = true then some (some text) else none := fun _ ↦ rfl
    unfold nullableValue Json.ofString
    rw [hstring]
    show ((Json.ofString digest).text.bind fun text ↦ if isDigest text = true then some (some text)
      else none) = _ ↔ _
    rw [Json.text_ofString, Option.bind_some]
    constructor
    · intro h other hother
      cases hother
      split_ifs at h with hdigest
      exact hdigest
    · intro h
      rw [if_pos (h digest rfl)]

theorem decodeDesign_designValue_iff (design : DesignMetadata) :
    decodeDesign (designValue design) = some design ↔ design.Accepted := by
  have hlocale : (designValue design).getText "locale" = some design.locale :=
    Json.text_ofString _
  have hrole : (designValue design).getText "semanticRole" = some design.semanticRole :=
    Json.text_ofString _
  have htemplate : (designValue design).getText "routeTemplate" = some design.routeTemplate :=
    Json.text_ofString _
  have hversion : (designValue design).getText "layoutFingerprintVersion" =
      some design.layoutFingerprintVersion := Json.text_ofString _
  have hfingerprint : (designValue design).get "layoutFingerprint" =
      some (nullableValue design.layoutFingerprint) := rfl
  unfold decodeDesign
  rw [hlocale, hrole, htemplate, hversion, hfingerprint]
  constructor
  · intro h
    rw [Option.bind_eq_bind, Option.bind_some, Option.bind_some, Option.bind_some] at h
    obtain ⟨fingerprint, hread, h⟩ := Option.bind_eq_some_iff.1 h
    have h : (if _ then none else some _) = _ := h
    split_ifs at h with hchecks
    have heq := congrArg DesignMetadata.layoutFingerprint (Option.some.inj h)
    have heq : fingerprint = design.layoutFingerprint := heq
    obtain ⟨hlocale, hrole, htemplate, hversion⟩ :=
      (not_or.1 hchecks).imp_right fun h ↦ (not_or.1 h).imp_right not_or.1
    refine ⟨Nat.not_lt.1 hlocale, Nat.not_lt.1 hrole, Nat.not_lt.1 htemplate,
      (decodeFingerprint_nullableValue_iff _).1 ?_, not_not.1 hversion⟩
    rw [hread, heq]
  · intro h
    rw [Option.bind_eq_bind, Option.bind_some, Option.bind_some, Option.bind_some]
    refine Option.bind_eq_some_iff.2 ⟨design.layoutFingerprint,
      (decodeFingerprint_nullableValue_iff _).2 h.layoutFingerprint, ?_⟩
    show (if _ then none else some _) = _
    rw [if_neg (not_or.2 ⟨Nat.not_lt.2 h.locale, not_or.2 ⟨Nat.not_lt.2 h.semanticRole, not_or.2
      ⟨Nat.not_lt.2 h.routeTemplate, not_not.2 h.version⟩⟩⟩)]

/-! ### What is written -/

theorem straysMembers_textMember (name value : String) (members : List (ByteString × Json)) :
    Json.straysMembers (textMember name value :: members) = Json.straysMembers members := by
  unfold textMember member
  rw [Json.straysMembers_cons_ofText, Json.strays_ofString, Nat.zero_add]

theorem straysMembers_member {name : String} {value : Json} (h : value.strays = 0)
    (members : List (ByteString × Json)) :
    Json.straysMembers (member name value :: members) = Json.straysMembers members := by
  unfold member
  rw [Json.straysMembers_cons_ofText, h, Nat.zero_add]

theorem strays_fileValue (file : SiteBundleFile) : (fileValue codec file).strays = 0 := by
  show Json.straysMembers _ = 0
  rw [straysMembers_textMember, straysMembers_textMember, straysMembers_textMember,
    straysMembers_textMember, straysMembers_textMember]
  rfl

theorem strays_gapValue (gap : SiteResourceGap) : (gapValue gap).strays = 0 := by
  show Json.straysMembers _ = 0
  rw [straysMembers_textMember, straysMembers_textMember, straysMembers_textMember]
  rfl

theorem strays_designValue (design : DesignMetadata) : (designValue design).strays = 0 := by
  have hnullable : (nullableValue design.layoutFingerprint).strays = 0 := by
    cases design.layoutFingerprint with
    | none => rfl
    | some digest => exact Json.strays_ofString digest
  show Json.straysMembers _ = 0
  rw [straysMembers_textMember, straysMembers_textMember, straysMembers_textMember,
    straysMembers_member hnullable, straysMembers_textMember]
  rfl

theorem strays_array {α : Type} {encode : α → Json} (h : ∀ a, (encode a).strays = 0)
    (list : List α) : (Json.array (list.map encode)).strays = 0 := by
  refine Json.straysElements_eq_zero_iff.2 fun value hvalue ↦ ?_
  obtain ⟨a, -, rfl⟩ := List.mem_map.1 hvalue
  exact h a

theorem distinct_array {α : Type} {encode : α → Json} (h : ∀ a, (encode a).distinct = true)
    (list : List α) : (Json.array (list.map encode)).distinct = true := by
  refine Json.distinctElements_iff.2 fun value hvalue ↦ ?_
  obtain ⟨a, -, rfl⟩ := List.mem_map.1 hvalue
  exact h a

theorem straysMembers_optionalMember {name : String} {value : Option Json}
    (h : ∀ json, value = some json → json.strays = 0) (members : List (ByteString × Json)) :
    Json.straysMembers (optionalMember name value ++ members) = Json.straysMembers members := by
  cases value with
  | none => rfl
  | some json => exact straysMembers_member (h json rfl) members

theorem strays_bundleValue (bundle : SitePageBundle) : (bundleValue codec bundle).strays = 0 := by
  have hgaps : ∀ json, (bundle.resourceGaps.map fun gaps ↦ Json.array (gaps.map gapValue)) =
      some json → json.strays = 0 := by
    intro json h
    obtain ⟨gaps, -, rfl⟩ := Option.map_eq_some_iff.1 h
    exact strays_array strays_gapValue gaps
  have hdesign : ∀ json, bundle.design.map designValue = some json → json.strays = 0 := by
    intro json h
    obtain ⟨design, -, rfl⟩ := Option.map_eq_some_iff.1 h
    exact strays_designValue design
  show Json.straysMembers _ = 0
  rw [straysMembers_member rfl, straysMembers_textMember, straysMembers_textMember,
    straysMembers_textMember, straysMembers_textMember, straysMembers_optionalMember hgaps,
    straysMembers_member (strays_array strays_fileValue bundle.files), straysMembers_textMember,
    ← List.append_nil (optionalMember _ _), straysMembers_optionalMember hdesign]
  rfl

theorem distinctMembers_member {name : String} {value : Json} (h : value.distinct = true)
    (members : List (ByteString × Json)) :
    Json.distinctMembers (member name value :: members) = Json.distinctMembers members := by
  show (value.distinct && Json.distinctMembers members) = _
  rw [h, Bool.true_and]

theorem distinctMembers_textMember (name value : String) (members : List (ByteString × Json)) :
    Json.distinctMembers (textMember name value :: members) = Json.distinctMembers members :=
  distinctMembers_member rfl members

theorem distinctMembers_optionalMember {name : String} {value : Option Json}
    (h : ∀ json, value = some json → json.distinct = true) (members : List (ByteString × Json)) :
    Json.distinctMembers (optionalMember name value ++ members) = Json.distinctMembers members := by
  cases value with
  | none => rfl
  | some json => exact distinctMembers_member (h json rfl) members

/-- The names of the members of a bundle differ. -/
theorem nodup_bundleNames (version source publicUrl main captured files page : Json)
    (gaps design : Option Json) :
    ((member "schemaVersion" version :: member "sourceFinalUrl" source ::
      member "publicFinalUrl" publicUrl :: member "mainPath" main ::
      member "capturedAt" captured :: (optionalMember "resourceGaps" gaps ++
        member "files" files :: member "pageId" page ::
        optionalMember "design" design)).map Prod.fst).Nodup := by
  cases gaps <;> cases design <;>
    simp only [optionalMember, member, List.nil_append, List.cons_append, List.map_cons,
      List.map_nil] <;>
    decide +kernel

theorem distinct_bundleValue (bundle : SitePageBundle) :
    (bundleValue codec bundle).distinct = true := by
  have hgaps : ∀ json, (bundle.resourceGaps.map fun gaps ↦ Json.array (gaps.map gapValue)) =
      some json → json.distinct = true := by
    intro json h
    obtain ⟨gaps, -, rfl⟩ := Option.map_eq_some_iff.1 h
    exact distinct_array (fun _ ↦ rfl) gaps
  have hdesign : ∀ json, bundle.design.map designValue = some json → json.distinct = true := by
    intro json h
    obtain ⟨⟨_, _, _, fingerprint, _⟩, -, rfl⟩ := Option.map_eq_some_iff.1 h
    cases fingerprint <;> rfl
  show (decide _ && Json.distinctMembers _) = true
  rw [Bool.and_eq_true]
  constructor
  · exact decide_eq_true (nodup_bundleNames _ _ _ _ _ _ _ _ _)
  · rw [distinctMembers_member rfl, distinctMembers_textMember, distinctMembers_textMember,
      distinctMembers_textMember, distinctMembers_textMember,
      distinctMembers_optionalMember hgaps,
      distinctMembers_member (distinct_array (fun _ ↦ rfl) bundle.files),
      distinctMembers_textMember, ← List.append_nil (optionalMember _ _),
      distinctMembers_optionalMember hdesign]
    rfl

theorem parse_encodeSiteBundle (hcodec : codec.Lawful) (bundle : SitePageBundle) :
    codec.parse (encodeSiteBundle codec bundle) = some (bundleValue codec bundle) :=
  hcodec.parse_stringify (strays_bundleValue bundle) (distinct_bundleValue bundle)

/-! ### Decoding what is encoded -/

theorem getText_of_get {value : Json} {name text : String}
    (h : value.get name = some (.ofString text)) : value.getText name = some text := by
  show (value.get name).bind Json.text = _
  rw [h]
  exact Json.text_ofString text

/-- The members of a bundle. -/
theorem get_bundleValue (codec : JsonCodec) (bundle : SitePageBundle) :
    (bundleValue codec bundle).get "schemaVersion" = some (.number 1) ∧
    (bundleValue codec bundle).get "pageId" = some (.ofString bundle.pageId) ∧
    (bundleValue codec bundle).get "sourceFinalUrl" = some (.ofString bundle.sourceFinalUrl) ∧
    (bundleValue codec bundle).get "publicFinalUrl" = some (.ofString bundle.publicFinalUrl) ∧
    (bundleValue codec bundle).get "mainPath" = some (.ofString bundle.mainPath) ∧
    (bundleValue codec bundle).get "capturedAt" = some (.ofString bundle.capturedAt) ∧
    (bundleValue codec bundle).get "files" =
      some (.array (bundle.files.map (fileValue codec))) ∧
    (bundleValue codec bundle).get "design" = bundle.design.map designValue ∧
    (bundleValue codec bundle).get "resourceGaps" =
      bundle.resourceGaps.map fun gaps ↦ .array (gaps.map gapValue) := by
  obtain ⟨_, _, _, _, _, gaps, design, _⟩ := bundle
  cases gaps <;> cases design <;> exact ⟨rfl, rfl, rfl, rfl, rfl, rfl, rfl, rfl, rfl⟩

theorem decodeOptional_map_eq_some_iff {α : Type} {encode : α → Json} {decode : Json → Option α}
    {value : Option α} :
    decodeOptional decode (value.map encode) = some value ↔
      ∀ a, value = some a → decode (encode a) = some a := by
  cases value with
  | none => exact iff_of_true rfl fun _ h ↦ (by cases h)
  | some a =>
    show (decode (encode a)).map some = some (some a) ↔ _
    rw [Option.map_eq_some_iff]
    constructor
    · rintro ⟨b, hb, hab⟩ c hc
      cases hc
      cases hab
      exact hb
    · intro h
      exact ⟨a, h a rfl, rfl⟩

theorem decodeGaps_iff (gaps : List SiteResourceGap) :
    decodeGaps p (.array (gaps.map gapValue)) = some gaps ↔
      gaps.length ≤ 100 ∧ ∀ gap ∈ gaps, gap.Accepted p := by
  show (if 100 < (gaps.map gapValue).length then none
    else (gaps.map gapValue).mapM (decodeGap p)) = _ ↔ _
  rw [List.length_map]
  by_cases hlength : 100 < gaps.length
  · rw [if_pos hlength]
    exact iff_of_false (fun h ↦ by cases h) fun h ↦ absurd h.1 (Nat.not_le.2 hlength)
  · rw [if_neg hlength, mapM_map_eq_some_iff, and_iff_right (Nat.not_lt.1 hlength)]
    exact forall₂_congr fun gap _ ↦ decodeGap_gapValue_iff gap

/-- A bundle is read back exactly when it is accepted. -/
theorem decodeSiteBundle_encodeSiteBundle_iff (hcodec : codec.Lawful) (bundle : SitePageBundle) :
    decodeSiteBundle codec p (encodeSiteBundle codec bundle) bundle.pageId = some bundle ↔
      bundle.Accepted p := by
  obtain ⟨hversion, hpage, hsource, hpublic, hmain, hcaptured, hfiles, hdesign, hgaps⟩ :=
    get_bundleValue codec bundle
  have hrest : decodeSiteBundle codec p (encodeSiteBundle codec bundle) bundle.pageId =
      if bundle.files.map (fileValue codec) = [] ∨ 101 < (bundle.files.map (fileValue codec)).length
      then none
      else (do
        let files ← (bundle.files.map (fileValue codec)).mapM (decodeFile codec p)
        let design ← decodeOptional decodeDesign (bundle.design.map designValue)
        let gaps ← decodeOptional (decodeGaps p)
          (bundle.resourceGaps.map fun gaps ↦ .array (gaps.map gapValue))
        let mainPath ← safeArchivePath p bundle.mainPath
        some { bundle with files, design, resourceGaps := gaps, mainPath }) := by
    unfold decodeSiteBundle
    rw [parse_encodeSiteBundle hcodec, Option.bind_eq_bind, Option.bind_some, hversion,
      getText_of_get hpage, getText_of_get hsource, getText_of_get hpublic, getText_of_get hmain,
      getText_of_get hcaptured, hfiles, hdesign, hgaps]
    show (if isOne (.number 1) = false ∨ bundle.pageId ≠ bundle.pageId ∨ _ then none else _) = _
    have hone : isOne (.number 1) = true := by decide
    by_cases hlength : bundle.files.map (fileValue codec) = [] ∨
        101 < (bundle.files.map (fileValue codec)).length
    · rw [if_pos hlength, if_pos (.inr (.inr hlength))]
    · rw [if_neg hlength, if_neg]
      rintro (hversion | hpage | hfiles)
      · exact Bool.noConfusion (hone.symm.trans hversion)
      · exact hpage rfl
      · exact hlength hfiles
  have hcount : (bundle.files.map (fileValue codec) = [] ∨
      101 < (bundle.files.map (fileValue codec)).length) ↔
      bundle.files = [] ∨ 101 < bundle.files.length := by
    rw [List.map_eq_nil_iff, List.length_map]
  rw [hrest]
  constructor
  · intro h
    split_ifs at h with hlength
    obtain ⟨hne, hlength⟩ := not_or.1 (mt hcount.2 hlength)
    obtain ⟨files, hfiles, h⟩ := Option.bind_eq_some_iff.1 h
    obtain ⟨design, hdesign, h⟩ := Option.bind_eq_some_iff.1 h
    obtain ⟨gaps, hgaps, h⟩ := Option.bind_eq_some_iff.1 h
    obtain ⟨mainPath, hmain, h⟩ := Option.bind_eq_some_iff.1 h
    have h := Option.some.inj h
    have hfilesEq : files = bundle.files := congrArg SitePageBundle.files h
    have hdesignEq : design = bundle.design := congrArg SitePageBundle.design h
    have hgapsEq : gaps = bundle.resourceGaps := congrArg SitePageBundle.resourceGaps h
    have hmainEq : mainPath = bundle.mainPath := congrArg SitePageBundle.mainPath h
    subst hfilesEq
    subst hdesignEq
    subst hgapsEq
    subst hmainEq
    have hgaps := decodeOptional_map_eq_some_iff.1 hgaps
    exact {
      mainPath := hmain
      files_ne := hne
      files_length := Nat.not_lt.1 hlength
      files := fun file hfile ↦
        (decodeFile_fileValue_iff hcodec file).1 (mapM_map_eq_some_iff.1 hfiles file hfile)
      design := fun design h ↦
        (decodeDesign_designValue_iff design).1 (decodeOptional_map_eq_some_iff.1 hdesign design h)
      gaps_length := fun list h ↦ ((decodeGaps_iff list).1 (hgaps list h)).1
      gaps := fun list h ↦ ((decodeGaps_iff list).1 (hgaps list h)).2 }
  · intro h
    rw [if_neg (mt hcount.1 (not_or.2 ⟨h.files_ne, Nat.not_lt.2 h.files_length⟩))]
    refine Option.bind_eq_some_iff.2 ⟨bundle.files, mapM_map_eq_some_iff.2 fun file hfile ↦
      (decodeFile_fileValue_iff hcodec file).2 (h.files file hfile), ?_⟩
    refine Option.bind_eq_some_iff.2 ⟨bundle.design, decodeOptional_map_eq_some_iff.2
      fun design hdesign ↦ (decodeDesign_designValue_iff design).2 (h.design design hdesign), ?_⟩
    refine Option.bind_eq_some_iff.2 ⟨bundle.resourceGaps, decodeOptional_map_eq_some_iff.2
      fun gaps hgaps ↦ (decodeGaps_iff gaps).2 ⟨h.gaps_length gaps hgaps, h.gaps gaps hgaps⟩, ?_⟩
    exact Option.bind_eq_some_iff.2 ⟨bundle.mainPath, h.mainPath, rfl⟩

/-! ### The bundle of a page -/

/-- No locale that the pattern matches is long. -/
def ShortLocales (p : Platform) : Prop :=
  ∀ text, p.toPlatform.test localePattern text = true → textLength text ≤ 35

theorem text_semanticRole_length (role : SiteClone.Design.SemanticRole) :
    textLength role.text ≤ 64 := by
  cases role <;> decide

theorem resourceType_length (kind : BodyResourceType) : textLength kind.text ≤ 32 := by
  cases kind <;> decide

/-- The digests of a platform are accepted. -/
theorem isDigest_of_hexDigest (hhex : p.HexDigest) (bytes : ByteString) :
    isDigest (p.sha256 bytes) = true := by
  obtain ⟨hlength, hchars⟩ := hhex bytes
  unfold isDigest
  rw [Bool.and_eq_true]
  refine ⟨decide_eq_true hlength, List.all_eq_true.2 fun c hc ↦ ?_⟩
  exact List.contains_iff_mem.2 (hchars c hc)

theorem isDigest_layoutFingerprint (hhex : p.HexDigest) {document : Option Html.Node}
    {digest : String} (h : layoutFingerprint p document = some digest) :
    isDigest digest = true := by
  unfold layoutFingerprint at h
  obtain ⟨node, -, h⟩ := Option.bind_eq_some_iff.1 h
  dsimp only at h
  split_ifs at h
  cases h
  exact isDigest_of_hexDigest hhex _

/-- The entry of a collected resource has the type of the resource, and a reason of a capture if it
has a reason. -/
theorem resourceFile_spec_of_collected (selected : List (PlannedResource × ByteString))
    {left : PlannedResource} (h : left.Collected) :
    textLength (resourceFile p selected left).resourceType ≤ 32 ∧
      ∀ reason, (resourceFile p selected left).reason = some reason → isReason reason = true := by
  obtain ⟨kind, hkind⟩ := h.resourceType
  have htype : textLength left.resourceType ≤ 32 := by
    rw [hkind]
    exact resourceType_length kind
  have hskipped : textLength (skippedFile p left).resourceType ≤ 32 ∧
      ∀ reason, (skippedFile p left).reason = some reason → isReason reason = true := by
    refine ⟨htype, fun reason hreason ↦ ?_⟩
    rw [← Option.some.inj hreason]
    cases hskip : left.skipReason with
    | none => decide
    | some text => exact h.skipReason text hskip
  unfold resourceFile
  split
  · split_ifs
    · exact hskipped
    · exact ⟨htype, fun _ hreason ↦ (by cases hreason)⟩
  · exact hskipped

/-- The gaps of a collected page. -/
theorem resourceGaps_spec {plan : StaticClonePlan}
    (hplan : ∀ resource ∈ plan.resources, resource.Collected) (html : ByteString) :
    ∀ gap ∈ resourceGaps p plan html,
      textLength gap.resourceType ≤ 32 ∧ isReason gap.reason = true := by
  intro gap hgap
  unfold resourceGaps at hgap
  obtain ⟨file, hfile, rfl⟩ := List.mem_map.1 hgap
  obtain ⟨hfile, hopen⟩ := List.mem_filter.1 (List.mem_of_mem_take hfile)
  rcases List.mem_cons.1 hfile with rfl | hfile
  · cases hopen
  obtain ⟨left, hleft, rfl⟩ := List.mem_map.1 hfile
  obtain ⟨htype, hreason⟩ := resourceFile_spec_of_collected (p := p)
    (built p plan html).selected ((collected_buildRounds p hplan html plan.resources.length).done left hleft)
  refine ⟨htype, ?_⟩
  show isReason ((resourceFile p _ left).reason.getD "TRUNCATED_RESOURCE") = true
  cases hskip : (resourceFile p (built p plan html).selected left).reason with
  | none => decide
  | some reason => exact hreason reason hskip

/-- The files of a collected page have bodies of the length that the decoder asks for. -/
theorem resourceBundleFile_spec {plan : StaticClonePlan}
    (hplan : ∀ resource ∈ plan.resources, resource.Collected) (html : ByteString) :
    ∀ item ∈ (built p plan html).selected, (resourceBundleFile item).body ≠ [] ∧
      (resourceBundleFile item).body.length ≤ 52_428_800 := by
  intro item hitem
  obtain ⟨body, hbody, hne, hlength, hpackaged, hplain⟩ :=
    (collected_buildRounds p hplan html plan.resources.length).selected item hitem
  have heq : (resourceBundleFile item).body = body := by
    unfold resourceBundleFile
    dsimp only
    by_cases hstylesheet : item.1.resourceType = "stylesheet"
    · rw [if_pos hstylesheet, hbody]
      rfl
    · rw [if_neg hstylesheet]
      exact hplain hstylesheet
  rw [heq]
  exact ⟨hne, hlength⟩

/-- The bundle of a rendered page is decoded to itself if and only if its route template is not too
long, its paths are safe and short, and the redacted URLs of its gaps are short and stay as they
are. -/
theorem site_bundle_round_trip_iff (p : Platform) (hhex : p.HexDigest) (hlocales : ShortLocales p)
    (codec : JsonCodec) (hcodec : codec.Lawful) (page : RenderedPage)
    (options : StaticClonePlanOptions) (candidates : List (ResponseCandidate × BodyWait))
    (unanswered : List UnansweredRequest) (maxResourceBytes budget htmlBytes : ℕ)
    (hmax : 0 < maxResourceBytes) (plan : StaticClonePlan)
    (hplan : planStaticClone p page.finalUrl
      (cloneInputs p maxResourceBytes budget candidates unanswered) htmlBytes options = some plan)
    (bundle : SitePageBundle) (hbundle : processPage p page plan = some bundle) :
    decodeSiteBundle codec p (encodeSiteBundle codec bundle) bundle.pageId = some bundle ↔
      (∀ design, bundle.design = some design → textLength design.routeTemplate ≤ 512) ∧
      (∀ file ∈ bundle.files, safeArchivePath p file.localPath = some file.localPath) ∧
      ∀ gaps, bundle.resourceGaps = some gaps → ∀ gap ∈ gaps,
        textLength gap.sourceUrl ≤ 8192 ∧ sanitizeUrl p gap.sourceUrl = gap.sourceUrl := by
  rw [decodeSiteBundle_encodeSiteBundle_iff hcodec]
  constructor
  · intro h
    exact ⟨fun design hdesign ↦ (h.design design hdesign).routeTemplate,
      fun file hfile ↦ (h.files file hfile).path,
      fun gaps hgaps gap hgap ↦ ⟨(h.gaps gaps hgaps gap hgap).sourceUrl,
        (h.gaps gaps hgaps gap hgap).sanitized⟩⟩
  rintro ⟨htemplate, hpaths, hgaps⟩
  have hcollected := collected_planStaticClone
    (collected_cloneInputs p hmax candidates unanswered) hplan
  have hbuilt := built_buildRounds p page.html (sound_planStaticClone hhex hplan)
    (Nat.le_refl plan.resources.length)
  unfold processPage at hbundle
  by_cases hlength : maxInputBytes < page.html.length
  · rw [if_pos hlength] at hbundle
    cases hbundle
  rw [if_neg hlength] at hbundle
  obtain ⟨descriptor, hdescriptor, hbundle⟩ := Option.bind_eq_some_iff.1 hbundle
  cases hbundle
  refine ⟨?_, ?_, ?_, ?_, ?_, ?_, ?_⟩
  · exact hpaths (documentBundleFile plan page.html) (List.mem_cons_self ..)
  · exact List.cons_ne_nil _ _
  · show ((built p plan page.html).selected.map resourceBundleFile).length + 1 ≤ 101
    rw [List.length_map]
    have hcount := hbuilt.count
    have hle : (buildRounds p plan page.html plan.resources.length).contentFileCount ≤ 100 :=
      hbuilt.count_le
    show (buildRounds p plan page.html plan.resources.length).selected.length + 1 ≤ 101
    omega
  · intro file hfile
    have hpath := hpaths file hfile
    rcases List.mem_cons.1 hfile with rfl | hfile
    · exact ⟨page.html_ne, Nat.not_lt.1 hlength, hpath⟩
    · obtain ⟨item, hitem, rfl⟩ := List.mem_map.1 hfile
      obtain ⟨hne, hbytes⟩ := resourceBundleFile_spec hcollected page.html item hitem
      exact ⟨hne, hbytes, hpath⟩
  · intro design hdesign
    have htemplate := htemplate design hdesign
    cases hdesign
    refine ⟨?_, text_semanticRole_length _, htemplate,
      fun digest hdigest ↦ isDigest_layoutFingerprint hhex hdigest, rfl⟩
    rcases SiteClone.Design.isLocaleText_describeDesignPage hdescriptor with hund | hmatch
    · show textLength descriptor.locale ≤ 35
      rw [hund]
      decide
    · exact hlocales _ hmatch
  · intro gaps heq
    have heq : (if resourceGaps p plan page.html = [] then none
        else some (resourceGaps p plan page.html)) = some gaps := heq
    split_ifs at heq
    rw [← Option.some.inj heq]
    unfold resourceGaps
    rw [List.length_map]
    exact Nat.le_trans (List.length_take_le _ _) (Nat.le_refl 100)
  · intro gaps heq gap hgap
    obtain ⟨hurl, hsanitized⟩ := hgaps gaps heq gap hgap
    have heq : (if resourceGaps p plan page.html = [] then none
        else some (resourceGaps p plan page.html)) = some gaps := heq
    split_ifs at heq
    rw [← Option.some.inj heq] at hgap
    obtain ⟨htype, hreason⟩ := resourceGaps_spec hcollected page.html gap hgap
    exact ⟨hurl, htype, hreason, hsanitized⟩

/-! ### Samples -/

/-- Every character is at least one code unit. -/
theorem length_le_textLength (text : String) : text.toList.length ≤ textLength text := by
  unfold textLength SiteClone.Design.codeUnits
  induction text.toList with
  | nil => exact Nat.le_refl 0
  | cons c rest ih =>
    rw [List.flatMap_cons, List.length_append, List.length_cons]
    split_ifs
    · rw [List.length_singleton]
      omega
    · rw [List.length_cons]
      omega

/-- The SHA-256 of `<html></html>`. -/
def markupDigest : String :=
  "b633a587c652d02386c4f16f8c6f6aab7352d97f16367c3c40576214372dd628"

/-- A platform with this digest. -/
def Platform.markup : Platform :=
  { StaticClone.Platform.sample with sha256 := fun _ ↦ markupDigest }

theorem hexDigest_markup : Platform.markup.HexDigest := by
  intro bytes
  have hdigest : markupDigest.toList.length = 64 ∧
      ∀ c ∈ markupDigest.toList, c ∈ "0123456789abcdef".toList :=
    hexDigest_of_all (by decide +kernel) (by decide +kernel)
  exact hdigest

theorem shortLocales_markup : ShortLocales Platform.markup := by
  intro text htest
  have hfr := (of_decide_eq_true htest).2
  rw [hfr]
  decide

/-- A page without resources. -/
def RenderedPage.sample (url : String) : RenderedPage where
  pageId := "p"
  rootUrl := url
  target := {
    id := "p", url := url, finalUrl := none, outcome := .success, statusCode := 200
    contentType := "text/html", canonicalUrl := "", htmlLang := "", hreflang := [], h1 := []
    h2 := [], schemaOrgTypes := [], scripts := 0, stylesheets := 0 }
  finalUrl := url
  capturedAt := "2026-01-01T00:00:00.000Z"
  document := some (.mk (some "html") none [] [])
  html := Utf8.ofText "<!DOCTYPE html>\n<html></html>"
  html_ne := by decide +kernel

/-- How the pages of a site are planned. -/
def siteOptions : StaticClonePlanOptions where
  mainPath := some "pages/p.html"
  contentAddressedResources := true
  allowExternalVisualResources := true

/-- The plan of a page without resources. -/
def barePlan (url : String) : StaticClonePlan where
  finalUrl := url
  mainPath := "pages/p.html"
  resources := []
  replacements := []
  allowExternalVisualResources := true

/-- The bundle of a page without resources. -/
def SitePageBundle.sample (url routeTemplate : String) : SitePageBundle where
  pageId := "p"
  sourceFinalUrl := url
  publicFinalUrl := url
  mainPath := "pages/p.html"
  capturedAt := "2026-01-01T00:00:00.000Z"
  resourceGaps := none
  design := some ⟨"und", "MARKETING_LANDING", routeTemplate,
    some markupDigest, "dom-structure-v1"⟩
  files := [⟨.document, "pages/p.html", url, "text/html; charset=utf-8",
    Utf8.ofText "<!DOCTYPE html>\n<html></html>"⟩]

theorem planStaticClone_bare (p : Platform) (url : String) :
    planStaticClone p url (cloneInputs p 1 1 [] []) 29 siteOptions =
      some (barePlan url) := by
  have hinputs : cloneInputs p 1 1 [] [] = [] := List.mergeSort_nil
  rw [hinputs]
  rfl

/-- The page at `/article`. -/
theorem site_bundle_round_trip_iff_article :
    decodeSiteBundle .standard Platform.markup (encodeSiteBundle .standard
        (.sample "https://example.com/article" "/article")) "p" =
          some (.sample "https://example.com/article" "/article") ↔
      (∀ design, (SitePageBundle.sample "https://example.com/article" "/article").design =
        some design → textLength design.routeTemplate ≤ 512) ∧
      (∀ file ∈ (SitePageBundle.sample "https://example.com/article" "/article").files,
        safeArchivePath Platform.markup file.localPath = some file.localPath) ∧
      ∀ gaps, (SitePageBundle.sample "https://example.com/article" "/article").resourceGaps =
        some gaps → ∀ gap ∈ gaps, textLength gap.sourceUrl ≤ 8192 ∧
          sanitizeUrl Platform.markup gap.sourceUrl = gap.sourceUrl :=
  site_bundle_round_trip_iff Platform.markup hexDigest_markup shortLocales_markup .standard
    JsonCodec.lawful_standard (.sample "https://example.com/article") siteOptions [] [] 1 1 29
    Nat.one_pos (barePlan "https://example.com/article") (planStaticClone_bare _ _)
    (.sample "https://example.com/article" "/article") (by decide +kernel)

/-- The platform on the URL of a site with one page. -/
def Platform.ofSegment (segment : String) : Platform where
  Url := Unit
  newUrl _ := some ()
  newUrlFrom _ _ := some ()
  toString _ := "https://example.com/" ++ segment
  protocol _ := "https:"
  origin _ := "https://example.com"
  pathname _ := "/" ++ segment
  search _ := ""
  setUsername url _ := url
  setPassword url _ := url
  setHash url _ := url
  setPathname url _ := url
  setSearch url _ := url
  searchKeys _ := []
  deleteKey url _ := url
  setKey url _ _ := url
  sortKeys url := url
  test _ _ := false
  localeCompare := SiteClone.Design.Platform.sample.localeCompare
  languageName _ := some none
  toLowerCase text := text
  trim text := text
  host _ := "example.com"
  username _ := ""
  password _ := ""
  hash _ := ""
  appendKey url _ _ := url
  normalizeNfc text := text
  decodeUriComponent text := some text
  decodeUtf8 := Platform.markup.decodeUtf8
  sha256 := Platform.markup.sha256

section Segment

variable {segment : String}

theorem segmentsOf_segment (hslash : '/' ∉ segment.toList) (hne : segment ≠ "") :
    SiteClone.Design.segmentsOf ("/" ++ segment) = [segment] := by
  have hfirst : "/".toList = ['/'] := rfl
  unfold SiteClone.Design.segmentsOf SiteClone.Design.splitText
  rw [String.toList_append, hfirst, List.singleton_append, List.splitOn_cons_eq_if_modifyHead,
    if_pos (by decide), List.splitOn_eq_singleton hslash, List.map_cons, List.map_cons,
    List.map_nil, String.ofList_toList, List.filter_cons_of_neg (by decide),
    List.filter_cons_of_pos (by exact decide_eq_true hne), List.filter_nil]

/-- The template of a page is its segment. -/
theorem describeDesignPage_segment (hslash : '/' ∉ segment.toList) (hne : segment ≠ "")
    (hsection : SiteClone.Design.sectionRole [segment] = none) :
    describeDesignPage (Platform.ofSegment segment).toPlatform ("https://example.com/" ++ segment)
      (RenderedPage.sample ("https://example.com/" ++ segment)).target = some {
        page := (RenderedPage.sample ("https://example.com/" ++ segment)).target
        normalizedUrl := "https://example.com/" ++ segment
        locale := "und"
        semanticRole := .marketingLanding
        routeTemplate := "/" ++ segment } := by
  have hsegments : SiteClone.Design.segmentsOf ((Platform.ofSegment segment).pathname ()) =
      [segment] := segmentsOf_segment hslash hne
  have hnormalize : ∀ url, SiteClone.Design.normalizeDesignUrl
      (Platform.ofSegment segment).toPlatform url = some ("https://example.com/" ++ segment) := by
    intro url
    rfl
  have hpath : SiteClone.Design.localeFromPath (Platform.ofSegment segment).toPlatform () =
      some none := by
    unfold SiteClone.Design.localeFromPath
    rw [hsegments]
    rfl
  have hrole : SiteClone.Design.classifySemanticRole (Platform.ofSegment segment).toPlatform
      ("https://example.com/" ++ segment) 200 [] = some .marketingLanding := by
    have hlower : SiteClone.Design.segmentsOf ((Platform.ofSegment segment).toLowerCase
        ((Platform.ofSegment segment).pathname ())) = [segment] := hsegments
    unfold SiteClone.Design.classifySemanticRole
    rw [if_neg (by decide), if_neg (by decide)]
    refine Option.bind_eq_some_iff.2 ⟨(), rfl, ?_⟩
    rw [hlower]
    simp only [hsection]
    rfl
  have htemplate : SiteClone.Design.inferRouteTemplate (Platform.ofSegment segment).toPlatform
      ("https://example.com/" ++ segment) .marketingLanding "und" = some ("/" ++ segment) := by
    unfold SiteClone.Design.inferRouteTemplate
    show some ("/" ++ String.intercalate "/" ((SiteClone.Design.segmentsOf
      ((Platform.ofSegment segment).pathname ())).zipIdx.map _)) = _
    rw [hsegments]
    rfl
  have hlocale : SiteClone.Design.inferPageLocale (Platform.ofSegment segment).toPlatform ()
      (RenderedPage.sample ("https://example.com/" ++ segment)).target = some "und" := by
    unfold SiteClone.Design.inferPageLocale
    rw [hpath]
    rfl
  have hroot : SiteClone.Design.firstText "und"
      [SiteClone.Design.localeFromPath (Platform.ofSegment segment).toPlatform (),
        SiteClone.Design.normalizeLocale (Platform.ofSegment segment).toPlatform (some "")] =
      some "und" := by
    rw [hpath]
    rfl
  unfold describeDesignPage
  refine Option.bind_eq_some_iff.2 ⟨_, hnormalize _, ?_⟩
  refine Option.bind_eq_some_iff.2 ⟨_, hnormalize _, ?_⟩
  refine Option.bind_eq_some_iff.2 ⟨(), rfl, ?_⟩
  refine Option.bind_eq_some_iff.2 ⟨_, hroot, ?_⟩
  refine Option.bind_eq_some_iff.2 ⟨(), rfl, ?_⟩
  refine Option.bind_eq_some_iff.2 ⟨_, hlocale, ?_⟩
  refine Option.bind_eq_some_iff.2 ⟨_, hrole, ?_⟩
  exact Option.bind_eq_some_iff.2 ⟨_, htemplate, rfl⟩

theorem processPage_segment (hslash : '/' ∉ segment.toList) (hne : segment ≠ "")
    (hsection : SiteClone.Design.sectionRole [segment] = none)
    (hlength : ("https://example.com/" ++ segment).toList.length ≤ 8192) :
    processPage (Platform.ofSegment segment) (.sample ("https://example.com/" ++ segment))
      (barePlan ("https://example.com/" ++ segment)) =
        some (.sample ("https://example.com/" ++ segment) ("/" ++ segment)) := by
  have hredact : redactUrl (Platform.ofSegment segment) ("https://example.com/" ++ segment) =
      "https://example.com/" ++ segment := by
    show String.ofList (("https://example.com/" ++ segment).toList.take 8192) = _
    rw [List.take_of_length_le hlength, String.ofList_toList]
  have hbytes : ¬ maxInputBytes < (Utf8.ofText "<!DOCTYPE html>\n<html></html>").length := by
    decide +kernel
  unfold processPage
  rw [if_neg (by exact hbytes)]
  refine Option.bind_eq_some_iff.2 ⟨_, describeDesignPage_segment hslash hne hsection, ?_⟩
  have hfinal : (barePlan ("https://example.com/" ++ segment)).finalUrl =
      "https://example.com/" ++ segment := rfl
  rw [hfinal, hredact]
  rfl

end Segment

/-- A segment of 512 letters. -/
def longSegment : String :=
  String.ofList (List.replicate 512 'z')

theorem length_longSegment : longSegment.toList.length = 512 := by
  unfold longSegment
  rw [String.toList_ofList, List.length_replicate]

theorem sectionRole_long : SiteClone.Design.sectionRole [longSegment] = none := by
  have hshort : ∀ roles ∈ SiteClone.Design.sectionRoles, ∀ name ∈ roles.1,
      name.toList.length < 512 := by decide +kernel
  unfold SiteClone.Design.sectionRole
  rw [List.findSome?_eq_none_iff]
  intro roles hroles
  have hfree : longSegment ∉ roles.1 := fun h ↦
    absurd (hshort roles hroles longSegment h) (Nat.not_lt.2 (Nat.le_of_eq length_longSegment.symm))
  rw [List.findIdx?_cons, if_neg (by rwa [decide_eq_true_iff])]
  rfl

def longUrl : String :=
  "https://example.com/" ++ longSegment

/-- The platform on this URL. -/
def Platform.long : Platform :=
  Platform.ofSegment longSegment

/-- The bundle of a page whose route template is too long is not decoded to itself. -/
theorem long_route_rejected :
    planStaticClone Platform.long longUrl (cloneInputs Platform.long 1 1 [] []) 29 siteOptions =
        some (barePlan longUrl) ∧
      processPage Platform.long (.sample longUrl) (barePlan longUrl) =
        some (.sample longUrl ("/" ++ longSegment)) ∧
      decodeSiteBundle .standard Platform.long
          (encodeSiteBundle .standard (.sample longUrl ("/" ++ longSegment))) "p" ≠
        some (.sample longUrl ("/" ++ longSegment)) := by
  have hslash : '/' ∉ longSegment.toList := by
    unfold longSegment
    rw [String.toList_ofList]
    intro h
    exact absurd (List.eq_of_mem_replicate h) (by decide)
  have hne : longSegment ≠ "" := by
    intro h
    have hlength := length_longSegment
    rw [h] at hlength
    cases hlength
  refine ⟨planStaticClone_bare _ _, ?_, fun hdecode ↦ ?_⟩
  · refine processPage_segment hslash hne sectionRole_long ?_
    rw [String.toList_append, List.length_append, length_longSegment]
    decide +kernel
  · have haccepted := (decodeSiteBundle_encodeSiteBundle_iff JsonCodec.lawful_standard
      (.sample longUrl ("/" ++ longSegment))).1 hdecode
    have htemplate : textLength ("/" ++ longSegment) ≤ 512 :=
      (haccepted.design _ rfl).routeTemplate
    have hlength := length_le_textLength ("/" ++ longSegment)
    rw [String.toList_append, List.length_append, length_longSegment] at hlength
    have hslash : "/".toList.length = 1 := rfl
    omega

end WebLens.SiteArchive
