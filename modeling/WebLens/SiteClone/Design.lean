import Mathlib.Data.List.DropRight
import WebLens.Lib.Elect
import WebLens.SiteClone.Model

/-!
# The choice of the pages of a site clone

`design-clone.ts`: from the pages that the crawler found, `selectDesignPages` chooses one page for
each canonical identity and then one for each semantic role, route template and layout hint. The
platform under it (`URL`, regular expressions, `localeCompare`, `Intl.DisplayNames`, the case and
the trimming of strings) is a parameter. A function of the source that may throw returns an
`Option`, and `none` where it throws.
-/

set_option autoImplicit false
set_option relaxedAutoImplicit false

namespace WebLens.SiteClone.Design

/-! ### The platform -/

/-- A regular expression. -/
structure Pattern where
  source : String
  flags : String
deriving DecidableEq

/-- The part of the platform that the choice uses. -/
structure Platform where
  Url : Type
  /-- `new URL(text)`. -/
  newUrl : String → Option Url
  /-- `new URL(text, base)`. -/
  newUrlFrom : String → String → Option Url
  toString : Url → String
  protocol : Url → String
  origin : Url → String
  pathname : Url → String
  search : Url → String
  setUsername : Url → String → Url
  setPassword : Url → String → Url
  setHash : Url → String → Url
  setPathname : Url → String → Url
  setSearch : Url → String → Url
  /-- `[...url.searchParams.keys()]`, and the updates of `url.searchParams`. -/
  searchKeys : Url → List String
  deleteKey : Url → String → Url
  setKey : Url → String → String → Url
  sortKeys : Url → Url
  test : Pattern → String → Bool
  localeCompare : String → String → Ordering
  /-- `languageNames.of(code)`, which throws for a text that is no language code. -/
  languageName : String → Option (Option String)
  toLowerCase : String → String
  trim : String → String

/-! ### Texts -/

/-- The code units of a text. -/
def codeUnits (text : String) : List ℕ :=
  text.toList.flatMap fun c ↦
    if c.toNat < 0x10000 then [c.toNat]
    else [0xD800 + (c.toNat - 0x10000) / 0x400, 0xDC00 + (c.toNat - 0x10000) % 0x400]

/-- `text.length`. -/
def textLength (text : String) : ℕ := (codeUnits text).length

/-- `text.split(separator)`. -/
def splitText (separator : Char) (text : String) : List String :=
  (text.toList.splitOn separator).map String.ofList

/-- `text.split('/').filter(Boolean)`. -/
def segmentsOf (text : String) : List String :=
  (splitText '/' text).filter fun segment ↦ segment ≠ ""

/-- `text.replace(/\/+$/u, '')`. -/
def dropTrailingSlashes (text : String) : String :=
  String.ofList (text.toList.rdropWhile fun c ↦ c = '/')

/-- `texts.sort()`. -/
def sortTexts (texts : List String) : List String :=
  sortBy (fun left right ↦ compare (codeUnits left) (codeUnits right)) texts

/-- The first of several texts that is there; a text is read only when the ones before it are
absent. -/
def firstText (fallback : String) : List (Option (Option String)) → Option String
  | [] => some fallback
  | none :: _ => none
  | some (some text) :: _ => some text
  | some none :: rest => firstText fallback rest

/-! ### Pages -/

inductive Outcome
  | success
  | warning
  | failed
deriving DecidableEq

structure Hreflang where
  language : String
  url : String
deriving DecidableEq

/-- `DesignPageInput`. -/
structure DesignPageInput where
  id : String
  url : String
  finalUrl : Option String
  outcome : Outcome
  statusCode : ℤ
  contentType : String
  canonicalUrl : String
  htmlLang : String
  hreflang : List Hreflang
  h1 : List String
  h2 : List String
  schemaOrgTypes : List String
  scripts : ℤ
  stylesheets : ℤ
deriving DecidableEq

/-- `page.finalUrl || page.url`. -/
def DesignPageInput.rawUrl (page : DesignPageInput) : String :=
  match page.finalUrl with
  | some text => if text = "" then page.url else text
  | none => page.url

inductive SemanticRole
  | home
  | marketingLanding
  | productList
  | productDetail
  | pricing
  | contact
  | download
  | partner
  | affiliate
  | authLogin
  | authRegister
  | authForgotPassword
  | authVerifyOrStatus
  | blogIndex
  | blogDetail
  | useCaseIndex
  | useCaseDetail
  | comparisonDetail
  | legalText
  | error4xx
  | error5xx
  | unknown
deriving DecidableEq

def SemanticRole.text : SemanticRole → String
  | .home => "HOME"
  | .marketingLanding => "MARKETING_LANDING"
  | .productList => "PRODUCT_LIST"
  | .productDetail => "PRODUCT_DETAIL"
  | .pricing => "PRICING"
  | .contact => "CONTACT"
  | .download => "DOWNLOAD"
  | .partner => "PARTNER"
  | .affiliate => "AFFILIATE"
  | .authLogin => "AUTH_LOGIN"
  | .authRegister => "AUTH_REGISTER"
  | .authForgotPassword => "AUTH_FORGOT_PASSWORD"
  | .authVerifyOrStatus => "AUTH_VERIFY_OR_STATUS"
  | .blogIndex => "BLOG_INDEX"
  | .blogDetail => "BLOG_DETAIL"
  | .useCaseIndex => "USE_CASE_INDEX"
  | .useCaseDetail => "USE_CASE_DETAIL"
  | .comparisonDetail => "COMPARISON_DETAIL"
  | .legalText => "LEGAL_TEXT"
  | .error4xx => "ERROR_4XX"
  | .error5xx => "ERROR_5XX"
  | .unknown => "UNKNOWN"

structure DesignCandidate where
  page : DesignPageInput
  normalizedUrl : String
  locale : String
  semanticRole : SemanticRole
  routeTemplate : String
deriving DecidableEq

structure DesignRejection where
  page : DesignPageInput
  normalizedUrl : String
  reason : DesignRejectionReason
deriving DecidableEq

structure DesignSelection where
  locale : String
  discoveredCount : ℕ
  selected : List DesignCandidate
  rejected : List DesignRejection
deriving DecidableEq

/-- A candidate with what the election reads of it. -/
structure Candidate extends DesignCandidate where
  identity : String
  staticHint : String
  hadQuery : Bool
  canonicalSelfReference : Bool
deriving DecidableEq

/-! ### Patterns -/

def trackingQuery : Pattern := ⟨"^(?:utm_.+|ref|from|gclid|fbclid)$", "iu"⟩

def downloadExtension : Pattern :=
  ⟨"\\.(?:7z|avi|csv|docx?|exe|gz|mp3|mp4|mov|pdf|rar|tar|webm|xlsx?|zip)$", "iu"⟩

def staticExtension : Pattern :=
  ⟨"\\.(?:avif|bmp|css|gif|ico|jpe?g|js|json|map|png|svg|webp|woff2?|xml)$", "iu"⟩

def identifierSegment : Pattern :=
  ⟨"^(?:\\d+|[0-9a-f]\x7b16,\x7d|[0-9a-f]\x7b8\x7d-" ++
    "(?:[0-9a-f]\x7b4\x7d-)\x7b3\x7d[0-9a-f]\x7b12\x7d)$", "iu"⟩

def localePattern : Pattern := ⟨"^[a-z]\x7b2,3\x7d(?:-[a-z]\x7b2\x7d|-[0-9]\x7b3\x7d)?$", "iu"⟩

def policyPattern : Pattern := ⟨"\\/(?:api|feeds?|robots\\.txt|sitemaps?)(?:\\/|\\.|$)", "iu"⟩

/-- The roles that a pattern of the path decides, in the order in which they are tried. -/
def pathRoles : List (Pattern × SemanticRole) :=
  [(⟨"\\/(?:login|log-in|sign-in|signin|dang-nhap)(?:\\/|$)", "u"⟩, .authLogin),
    (⟨"\\/(?:register|sign-up|signup|create-account|dang-ky)(?:\\/|$)", "u"⟩, .authRegister),
    (⟨"\\/(?:forgot|forgot-password|reset-password|recover|quen-mat-khau)(?:\\/|$)", "u"⟩,
      .authForgotPassword),
    (⟨"\\/(?:verify|verify-email|verification|email-verification|activate|confirm-email|" ++
        "auth-status|account-status)(?:\\/|$)", "u"⟩, .authVerifyOrStatus),
    (⟨"\\/(?:pricing|plans|bang-gia)(?:\\/|$)", "u"⟩, .pricing),
    (⟨"\\/(?:contact|contact-us|lien-he)(?:\\/|$)", "u"⟩, .contact),
    (⟨"\\/(?:download|downloads|tai-ve)(?:\\/|$)", "u"⟩, .download),
    (⟨"\\/(?:partners?|doi-tac)(?:\\/|$)", "u"⟩, .partner),
    (⟨"\\/(?:affiliate|affiliates)(?:\\/|$)", "u"⟩, .affiliate),
    (⟨"\\/(?:privacy|terms|legal|cookies?|policy|dieu-khoan)(?:\\/|$)", "u"⟩, .legalText),
    (⟨"\\/(?:vs|compare|comparison)\\/", "u"⟩, .comparisonDetail)]

/-- The sections of a site with an index page and detail pages. -/
def sectionRoles : List (List String × SemanticRole × SemanticRole) :=
  [(["blog", "blogs", "news", "articles", "tin-tuc"], .blogIndex, .blogDetail),
    (["use-case", "use-cases", "case-study", "case-studies"], .useCaseIndex, .useCaseDetail),
    (["product", "products", "san-pham"], .productList, .productDetail)]

def loginHeading : Pattern := ⟨"\\b(?:sign in|log in|đăng nhập)\\b", "iu"⟩

def registerHeading : Pattern := ⟨"\\b(?:sign up|register|đăng ký)\\b", "iu"⟩

variable (platform : Platform)

/-! ### URLs -/

def normalizeDesignUrl (rawUrl : String) : Option String := do
  let url ← platform.newUrl rawUrl
  let url := platform.setUsername url ""
  let url := platform.setPassword url ""
  let url := platform.setHash url ""
  let url := (platform.searchKeys url).foldl (fun url key ↦
    if platform.test trackingQuery key then platform.deleteKey url key else url) url
  let url := platform.sortKeys url
  let pathname := platform.pathname url
  let url := if 1 < textLength pathname then
    platform.setPathname url (dropTrailingSlashes pathname) else url
  return platform.toString url

def safeNormalize (rawUrl : String) : String :=
  (normalizeDesignUrl platform rawUrl).getD ""

def stripQuery (rawUrl : String) : Option String := do
  let url ← platform.newUrl rawUrl
  return platform.toString (platform.setSearch url "")

def redactUrl (rawUrl : String) : String :=
  match platform.newUrl rawUrl with
  | none => ""
  | some url =>
    let url := platform.setUsername url ""
    let url := platform.setPassword url ""
    let url := platform.setHash url ""
    platform.toString ((platform.searchKeys url).foldl
      (fun url key ↦ platform.setKey url key "[REDACTED]") url)

/-! ### Locales -/

/-- The language subtag of a locale. -/
def languageOf (value : String) : String :=
  (splitText '-' (platform.toLowerCase value)).headD ""

def isLocale (value : String) : Option Bool :=
  if platform.test localePattern value then
    (platform.languageName (languageOf platform value)).map Option.isSome
  else some false

def normalizeLocale : Option String → Option (Option String)
  | none => some none
  | some value =>
    let normalized := platform.toLowerCase
      (String.ofList ((platform.trim value).toList.map fun c ↦ if c = '_' then '-' else c))
    if normalized = "" then some none
    else (isLocale platform normalized).map fun known ↦ if known then some normalized else none

def localeFromPath (url : platform.Url) : Option (Option String) :=
  match (segmentsOf (platform.pathname url)).head? with
  | none => some none
  | some first => do
    if ← isLocale platform first then normalizeLocale platform (some first) else some none

/-- What is thrown while the canonical URL is read counts as its absence. -/
def localeFromCanonical (rawCanonical : Option String) (origin : String) : Option String := do
  let text ← rawCanonical
  if platform.trim text = "" then none
  else
    let canonical ← platform.newUrlFrom text origin
    if platform.origin canonical = origin then (← localeFromPath platform canonical) else none

/-- Whether an alternate URL names the page; what is thrown while it is read counts as a no. -/
def isSelfAlternate (pageUrl : platform.Url) (pageIdentity : String) (entry : Hreflang) : Bool :=
  (do
    let alternate ← platform.newUrlFrom entry.url (platform.toString pageUrl)
    if platform.origin alternate = platform.origin pageUrl then
      let normalized ← normalizeDesignUrl platform (platform.toString alternate)
      let identity ← stripQuery platform normalized
      return decide (identity = pageIdentity)
    else return false).getD false

def hreflangLocale (pageUrl : platform.Url) (pageIdentity : String) :
    List Hreflang → Option (Option String)
  | [] => some none
  | entry :: entries => do
    match ← normalizeLocale platform (some entry.language) with
    | none => hreflangLocale pageUrl pageIdentity entries
    | some language =>
      if isSelfAlternate platform pageUrl pageIdentity entry then return some language
      else hreflangLocale pageUrl pageIdentity entries

def localeFromHreflang (pageUrl : platform.Url) (entries : List Hreflang) :
    Option (Option String) := do
  let normalized ← normalizeDesignUrl platform (platform.toString pageUrl)
  let pageIdentity ← stripQuery platform normalized
  hreflangLocale platform pageUrl pageIdentity entries

def inferPageLocale (url : platform.Url) (page : DesignPageInput) : Option String :=
  firstText "und"
    [localeFromPath platform url,
      normalizeLocale platform (some page.htmlLang),
      some (localeFromCanonical platform (some page.canonicalUrl) (platform.origin url)),
      localeFromHreflang platform url page.hreflang]

def inferRootLocale (rootUrl : String) (rootPage : Option DesignPageInput) : Option String := do
  let url ← platform.newUrl rootUrl
  firstText "und"
    [localeFromPath platform url,
      normalizeLocale platform (rootPage.map DesignPageInput.htmlLang),
      some (localeFromCanonical platform (rootPage.map DesignPageInput.canonicalUrl)
        (platform.origin url)),
      localeFromHreflang platform url ((rootPage.map DesignPageInput.hreflang).getD [])]

/-! ### Roles and templates -/

/-- The role that the section of a path decides. -/
def sectionRole (segments : List String) : Option SemanticRole :=
  sectionRoles.findSome? fun roles ↦
    (segments.findIdx? fun segment ↦ segment ∈ roles.1).map fun index ↦
      if segments.length = index + 1 then roles.2.1 else roles.2.2

/-- `segments.length === 1 && isLocale(segments[0])`. -/
def isSoleLocale (first : String) (rest : List String) : Option Bool :=
  if rest = [] then isLocale platform first else some false

def classifySemanticRole (rawUrl : String) (statusCode : ℤ) (headings : List String) :
    Option SemanticRole :=
  if 500 ≤ statusCode ∧ statusCode < 600 then some .error5xx
  else if 400 ≤ statusCode ∧ statusCode < 500 then some .error4xx
  else do
    let url ← platform.newUrl rawUrl
    let segments := segmentsOf (platform.toLowerCase (platform.pathname url))
    let path := "/" ++ String.intercalate "/" segments
    let text := platform.toLowerCase (String.intercalate " " headings)
    match segments with
    | [] => return .home
    | first :: rest =>
      if ← isSoleLocale platform first rest then return .home
      else match pathRoles.find? (fun entry ↦ platform.test entry.1 path) with
      | some entry => return entry.2
      | none => match sectionRole segments with
        | some role => return role
        | none =>
          if platform.test loginHeading text then return .authLogin
          else if platform.test registerHeading text then return .authRegister
          else
            let localized ← isLocale platform first
            if segments.length ≤ (if localized then 2 else 1) then return .marketingLanding
            else return .unknown

/-- The roles of pages that show one of many items. -/
def detailRoles : List SemanticRole :=
  [.productDetail, .blogDetail, .useCaseDetail, .comparisonDetail]

/-- The part of a route template that stands for a segment. -/
def templateSegment (role : SemanticRole) (start count : ℕ) (segment : String) (index : ℕ) :
    String :=
  if platform.test identifierSegment segment then "\x7bid\x7d"
  else if role ∈ detailRoles ∧ index + 1 = count ∧ start ≤ index then "\x7bslug\x7d"
  else platform.toLowerCase segment

def inferRouteTemplate (rawUrl : String) (role : SemanticRole) (locale : String) :
    Option String :=
  match role with
  | .error4xx => some "/\x7berror-4xx\x7d"
  | .error5xx => some "/\x7berror-5xx\x7d"
  | role => do
    let url ← platform.newUrl rawUrl
    let segments := segmentsOf (platform.pathname url)
    let start :=
      if locale ≠ "und" ∧ segments.head?.map platform.toLowerCase = some locale then 1 else 0
    let templated := segments.zipIdx.map fun entry ↦
      templateSegment platform role start segments.length entry.1 entry.2
    return "/" ++ String.intercalate "/" templated

/-! ### Screening -/

def sameOriginCanonical (rawCanonical origin : String) : Option String :=
  if platform.trim rawCanonical = "" then none
  else do
    let canonical ← platform.newUrlFrom rawCanonical origin
    if platform.origin canonical = origin then
      normalizeDesignUrl platform (platform.toString canonical)
    else none

def isHtmlPage (page : DesignPageInput) (url : platform.Url) : Bool :=
  let contentType := platform.toLowerCase
    (platform.trim ((splitText ';' page.contentType).headD ""))
  if contentType ≠ "" ∧ contentType ≠ "text/html" ∧ contentType ≠ "application/xhtml+xml" then
    false
  else !platform.test downloadExtension (platform.pathname url) &&
    !platform.test staticExtension (platform.pathname url)

def isPolicyBlocked (url : platform.Url) : Bool :=
  platform.test policyPattern (platform.pathname url)

def staticLayoutHint (page : DesignPageInput) : String :=
  String.intercalate "|"
    [ToString.toString (page.statusCode.tdiv 100), ToString.toString page.h1.length,
      ToString.toString page.h2.length, ToString.toString page.scripts,
      ToString.toString page.stylesheets,
      String.intercalate "," (sortTexts (page.schemaOrgTypes.map platform.toLowerCase))]

def statusRank (status : ℤ) : ℕ :=
  if 200 ≤ status ∧ status < 300 then 0
  else if 300 ≤ status ∧ status < 400 then 1
  else if 400 ≤ status ∧ status < 500 then 2
  else if 500 ≤ status ∧ status < 600 then 3
  else 4

def candidateOrder (left right : Candidate) : Ordering :=
  (compare left.hadQuery.toNat right.hadQuery.toNat).then <|
  (compare right.canonicalSelfReference.toNat left.canonicalSelfReference.toNat).then <|
  (compare (statusRank left.page.statusCode) (statusRank right.page.statusCode)).then <|
  (compare (textLength left.normalizedUrl) (textLength right.normalizedUrl)).then <|
  (platform.localeCompare left.normalizedUrl right.normalizedUrl).then <|
  platform.localeCompare left.page.id right.page.id

def pageOrder (left right : DesignPageInput) : Ordering :=
  (platform.localeCompare left.rawUrl right.rawUrl).then
    (platform.localeCompare left.id right.id)

/-- Whether the canonical URL of a page names the page. -/
def isSelfReference (canonical : Option String) (normalizedUrl : String) : Option Bool :=
  match canonical with
  | none => some false
  | some canonical => do
    let left ← stripQuery platform canonical
    let right ← stripQuery platform normalizedUrl
    return decide (left = right)

/-- The candidate that a page of the origin and the locale becomes. -/
def candidateOf (rootOrigin locale pageLocale normalizedUrl : String) (page : DesignPageInput) :
    Option Candidate := do
  let semanticRole ← classifySemanticRole platform normalizedUrl page.statusCode page.h1
  let routeTemplate ← inferRouteTemplate platform normalizedUrl semanticRole locale
  let canonical := sameOriginCanonical platform page.canonicalUrl rootOrigin
  let identity ← stripQuery platform (canonical.getD normalizedUrl)
  let url ← platform.newUrl page.rawUrl
  let canonicalSelfReference ← isSelfReference platform canonical normalizedUrl
  return {
    page
    normalizedUrl
    locale := if pageLocale = "und" then locale else pageLocale
    semanticRole
    routeTemplate
    identity
    staticHint := staticLayoutHint platform page
    hadQuery := decide (0 < textLength (platform.search url))
    canonicalSelfReference }

/-- One turn of the loop over the pages: a page is rejected or becomes a candidate. -/
def screen (rootOrigin locale : String) (page : DesignPageInput) :
    Option (DesignRejection ⊕ Candidate) :=
  match platform.newUrl page.rawUrl with
  | none => some (.inl ⟨page, "", .httpFailure⟩)
  | some parsed =>
    if platform.protocol parsed ∉ ["http:", "https:"] ∨ platform.origin parsed ≠ rootOrigin then
      some (.inl ⟨page, redactUrl platform page.rawUrl, .externalOrigin⟩)
    else do
      let normalizedUrl ← normalizeDesignUrl platform page.rawUrl
      if ¬ isHtmlPage platform page parsed then
        return .inl ⟨page, normalizedUrl, .nonHtml⟩
      else if page.outcome = .warning then
        return .inl ⟨page, normalizedUrl, .robotsOrPolicyBlocked⟩
      else if (page.outcome = .failed ∨ page.statusCode = 0) ∧
          ¬ (400 ≤ page.statusCode ∧ page.statusCode < 600) then
        return .inl ⟨page, normalizedUrl, .httpFailure⟩
      else if isPolicyBlocked platform parsed then
        return .inl ⟨page, normalizedUrl, .robotsOrPolicyBlocked⟩
      else
        let pageLocale ← inferPageLocale platform parsed page
        if locale ≠ "und" ∧ pageLocale ≠ "und" ∧ pageLocale ≠ locale then
          return .inl ⟨page, normalizedUrl, .alternateLocale⟩
        else
          return .inr (← candidateOf platform rootOrigin locale pageLocale normalizedUrl page)

/-! ### The choice -/

/-- The candidates among the screened pages. -/
def candidatesOf (screened : List (DesignRejection ⊕ Candidate)) : List Candidate :=
  screened.filterMap Sum.getRight?

/-- The rejections among the screened pages. -/
def rejectionsOf (screened : List (DesignRejection ⊕ Candidate)) : List DesignRejection :=
  screened.filterMap Sum.getLeft?

/-- The rejection of a candidate whose canonical identity another one has won. -/
def canonicalRejection (rootOrigin : String) (candidate : Candidate) : DesignRejection where
  page := candidate.page
  normalizedUrl := candidate.normalizedUrl
  reason := match sameOriginCanonical platform candidate.page.canonicalUrl rootOrigin with
    | some _ => .canonicalDuplicate
    | none => .trackingOrQueryVariant

/-- The key of the group of a candidate. -/
def groupKey (candidate : Candidate) : String :=
  candidate.semanticRole.text ++ "\n" ++ candidate.routeTemplate ++ "\n" ++ candidate.staticHint

def groupRejection (candidate : Candidate) : DesignRejection where
  page := candidate.page
  normalizedUrl := candidate.normalizedUrl
  reason := .semanticTemplateDuplicate

/-- What was chosen before the limit of the crawl is looked at. -/
structure Chosen where
  selected : List DesignCandidate
  rejected : List DesignRejection

/-- The two elections. -/
def chooseWinners (rootOrigin : String) (screened : List (DesignRejection ⊕ Candidate)) : Chosen :=
  let canonical := elect Candidate.identity
    (sortBy (candidateOrder platform) (candidatesOf screened))
  let groups := elect groupKey (sortBy (candidateOrder platform) canonical.1)
  { selected := (sortBy (fun left right ↦ pageOrder platform left.page right.page) groups.1).map
      Candidate.toDesignCandidate
    rejected := rejectionsOf screened ++ canonical.2.map (canonicalRejection platform rootOrigin) ++
      groups.2.map groupRejection }

/-- The last page makes way for an entry of the manifest that says that the crawl was limited. -/
def dropBounded (bounded : DesignPageInput) (chosen : Chosen) : Chosen where
  selected := chosen.selected.eraseP fun candidate ↦ candidate.page.id = bounded.id
  rejected := (chosen.rejected.eraseP fun rejection ↦ rejection.page.id = bounded.id) ++
    [⟨bounded, safeNormalize platform bounded.rawUrl, .budgetLimited⟩]

/-- `budgetLimited && ordered.length > 1`. -/
def limitChosen (budgetLimited : Bool) (ordered : List DesignPageInput) (chosen : Chosen) :
    Chosen :=
  match ordered.getLast? with
  | some bounded =>
    if budgetLimited = true ∧ 1 < ordered.length then dropBounded platform bounded chosen
    else chosen
  | none => chosen

def selectDesignPages (rootUrl : String) (pages : List DesignPageInput) (budgetLimited : Bool) :
    Option DesignSelection := do
  let normalizedRoot ← normalizeDesignUrl platform rootUrl
  let root ← platform.newUrl normalizedRoot
  let rootOrigin := platform.origin root
  let ordered := sortBy (pageOrder platform) pages
  let rootPage := ordered.find? fun page ↦ safeNormalize platform page.rawUrl = normalizedRoot
  let locale ← inferRootLocale platform normalizedRoot rootPage
  let screened ← ordered.mapM (screen platform rootOrigin locale)
  let chosen := limitChosen platform budgetLimited ordered
    (chooseWinners platform rootOrigin screened)
  return {
    locale
    discoveredCount := pages.length
    selected := chosen.selected
    rejected := sortBy (fun left right ↦ pageOrder platform left.page right.page)
      chosen.rejected }

end WebLens.SiteClone.Design
