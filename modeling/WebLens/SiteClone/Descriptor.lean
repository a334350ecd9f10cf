import WebLens.Lib.Html
import WebLens.StaticClone.Rendered

/-!
# The descriptor of a page

`describeDesignPage` and `layoutFingerprint` of `design-clone.ts`: what the bundle of a page says
about its design. A locale is a text that the pattern of locales matches, or `und`.
-/

set_option autoImplicit false
set_option relaxedAutoImplicit false

namespace WebLens.SiteClone.Design

open Lib

variable (platform : Platform)

/-! ### The descriptor -/

/-- `describeDesignPage`. -/
def describeDesignPage (rootUrl : String) (page : DesignPageInput) : Option DesignCandidate := do
  let normalizedUrl ← normalizeDesignUrl platform page.rawUrl
  let normalizedRoot ← normalizeDesignUrl platform rootUrl
  let root ← platform.newUrl normalizedRoot
  let rootLocale ← firstText "und" [localeFromPath platform root,
    normalizeLocale platform (some page.htmlLang)]
  let url ← platform.newUrl normalizedUrl
  let locale ← inferPageLocale platform url page
  let semanticRole ← classifySemanticRole platform normalizedUrl page.statusCode page.h1
  let routeTemplate ← inferRouteTemplate platform normalizedUrl semanticRole rootLocale
  return {
    page
    normalizedUrl
    locale := if locale = "und" then rootLocale else locale
    semanticRole
    routeTemplate }

/-! ### The fingerprint -/

section Fingerprint

variable (p : StaticClone.Platform)

/-- The variables of the walk over a document. -/
structure Walk where
  tokens : List String := []
  visited : ℕ := 0

def maxVisited : ℕ := 50_000

/-- The value of an attribute, or the empty text. -/
def attributeText (name : String) (attrs : List Html.Attribute) : String :=
  ((attrs.find? fun attr ↦ p.toLowerCase attr.name = name).map Html.Attribute.value).getD ""

/-- The first 32 classes of an element in order, with dots between them. -/
def classesOf (attrs : List Html.Attribute) : String :=
  let words := ((attributeText p "class" attrs).toList.splitOnP StaticClone.isSpace).filter
    StaticClone.isWord
  String.intercalate "." ((sortTexts (words.map String.ofList)).take 32)

/-- The token of the start of an element. -/
def startToken (tagName : String) (attrs : List Html.Attribute) : String :=
  let role := p.toLowerCase (p.trim (attributeText p "role" attrs))
  "<" ++ p.toLowerCase tagName ++
    (if classesOf p attrs = "" then "" else "." ++ classesOf p attrs) ++
    (if role = "" then "" else "[role=" ++ role ++ "]") ++ ">"

mutual

def walk (s : Walk) : Html.Node → Walk
  | .mk tagName _ attrs childNodes =>
    if maxVisited ≤ s.visited then s
    else match tagName with
    | none => walkAll s childNodes
    | some name =>
      let s := walkAll
        { tokens := s.tokens ++ [startToken p name attrs]
          visited := s.visited + 1 } childNodes
      { s with tokens := s.tokens ++ ["</" ++ p.toLowerCase name ++ ">"] }

def walkAll (s : Walk) : List Html.Node → Walk
  | [] => s
  | node :: nodes => walkAll (walk s node) nodes

end

/-- `layoutFingerprint` of a document, unless it cannot be parsed. -/
def layoutFingerprint (document : Option Html.Node) : Option String := do
  let document ← document
  let s := walk p {} document
  if s.visited = 0 then none else some (p.sha256 (Utf8.ofText (String.join s.tokens)))

end Fingerprint

/-! ### Locales -/

/-- A text that the pattern of locales matches, or none. -/
def IsLocaleText (text : String) : Prop :=
  text = "und" ∨ platform.test localePattern text = true

variable {platform}

theorem isLocaleText_of_normalizeLocale {value : Option String} {text : String}
    (h : normalizeLocale platform value = some (some text)) : IsLocaleText platform text := by
  unfold normalizeLocale at h
  cases value with
  | none => cases h
  | some value =>
    dsimp only at h
    split_ifs at h with hempty
    · cases h
    · obtain ⟨known, hknown, h⟩ := Option.map_eq_some_iff.1 h
      cases known with
      | false => cases h
      | true =>
        rw [if_pos rfl] at h
        rw [← Option.some.inj h]
        unfold isLocale at hknown
        split_ifs at hknown with htest
        · exact .inr htest
        · cases hknown

theorem isLocaleText_of_localeFromPath {url : platform.Url} {text : String}
    (h : localeFromPath platform url = some (some text)) : IsLocaleText platform text := by
  unfold localeFromPath at h
  split at h
  · cases h
  · obtain ⟨known, -, h⟩ := Option.bind_eq_some_iff.1 h
    cases known with
    | false => cases h
    | true =>
      rw [if_pos rfl] at h
      exact isLocaleText_of_normalizeLocale h

theorem isLocaleText_of_localeFromCanonical {canonical : Option String} {origin text : String}
    (h : localeFromCanonical platform canonical origin = some text) : IsLocaleText platform text := by
  unfold localeFromCanonical at h
  obtain ⟨raw, -, h⟩ := Option.bind_eq_some_iff.1 h
  split_ifs at h
  obtain ⟨url, -, h⟩ := Option.bind_eq_some_iff.1 h
  split_ifs at h
  obtain ⟨locale, hlocale, h⟩ := Option.bind_eq_some_iff.1 h
  rw [h] at hlocale
  exact isLocaleText_of_localeFromPath hlocale

theorem isLocaleText_of_hreflangLocale {pageUrl : platform.Url} {pageIdentity text : String}
    {entries : List Hreflang}
    (h : hreflangLocale platform pageUrl pageIdentity entries = some (some text)) :
    IsLocaleText platform text := by
  induction entries with
  | nil => cases h
  | cons entry entries ih =>
    unfold hreflangLocale at h
    obtain ⟨locale, hlocale, h⟩ := Option.bind_eq_some_iff.1 h
    cases locale with
    | none => exact ih h
    | some language =>
      dsimp only at h
      split_ifs at h
      · cases h
        exact isLocaleText_of_normalizeLocale hlocale
      · exact ih h

theorem isLocaleText_of_localeFromHreflang {pageUrl : platform.Url} {entries : List Hreflang}
    {text : String} (h : localeFromHreflang platform pageUrl entries = some (some text)) :
    IsLocaleText platform text := by
  unfold localeFromHreflang at h
  obtain ⟨normalized, -, h⟩ := Option.bind_eq_some_iff.1 h
  obtain ⟨identity, -, h⟩ := Option.bind_eq_some_iff.1 h
  exact isLocaleText_of_hreflangLocale h

theorem isLocaleText_firstText {texts : List (Option (Option String))} {text : String}
    (htexts : ∀ other ∈ texts, ∀ text, other = some (some text) → IsLocaleText platform text)
    (h : firstText "und" texts = some text) : IsLocaleText platform text := by
  induction texts with
  | nil =>
    cases h
    exact .inl rfl
  | cons first rest ih =>
    unfold firstText at h
    split at h
    · next heq => cases heq
    · cases h
    · next heq =>
      cases heq
      cases h
      exact htexts _ (List.mem_cons_self ..) _ rfl
    · next heq =>
      cases heq
      exact ih (fun other hother ↦ htexts other (List.mem_cons_of_mem _ hother)) h

theorem isLocaleText_inferPageLocale {url : platform.Url} {page : DesignPageInput} {text : String}
    (h : inferPageLocale platform url page = some text) : IsLocaleText platform text := by
  unfold inferPageLocale at h
  refine isLocaleText_firstText (fun other hother locale hlocale ↦ ?_) h
  rcases List.mem_cons.1 hother with rfl | hother
  · exact isLocaleText_of_localeFromPath hlocale
  rcases List.mem_cons.1 hother with rfl | hother
  · exact isLocaleText_of_normalizeLocale hlocale
  rcases List.mem_cons.1 hother with rfl | hother
  · exact isLocaleText_of_localeFromCanonical (Option.some.inj hlocale)
  · rw [List.mem_singleton.1 hother] at hlocale
    exact isLocaleText_of_localeFromHreflang hlocale

/-- The locale of a descriptor. -/
theorem isLocaleText_describeDesignPage {rootUrl : String} {page : DesignPageInput}
    {candidate : DesignCandidate} (h : describeDesignPage platform rootUrl page = some candidate) :
    IsLocaleText platform candidate.locale := by
  unfold describeDesignPage at h
  obtain ⟨normalizedUrl, -, h⟩ := Option.bind_eq_some_iff.1 h
  obtain ⟨normalizedRoot, -, h⟩ := Option.bind_eq_some_iff.1 h
  obtain ⟨root, -, h⟩ := Option.bind_eq_some_iff.1 h
  obtain ⟨rootLocale, hroot, h⟩ := Option.bind_eq_some_iff.1 h
  obtain ⟨url, -, h⟩ := Option.bind_eq_some_iff.1 h
  obtain ⟨locale, hlocale, h⟩ := Option.bind_eq_some_iff.1 h
  obtain ⟨role, -, h⟩ := Option.bind_eq_some_iff.1 h
  obtain ⟨template, -, h⟩ := Option.bind_eq_some_iff.1 h
  cases h
  dsimp only
  split_ifs
  · refine isLocaleText_firstText (fun other hother text htext ↦ ?_) hroot
    rcases List.mem_cons.1 hother with rfl | hother
    · exact isLocaleText_of_localeFromPath htext
    · rw [List.mem_singleton.1 hother] at htext
      exact isLocaleText_of_normalizeLocale htext
  · exact isLocaleText_inferPageLocale hlocale

end WebLens.SiteClone.Design
