import Mathlib.Data.List.Find
import WebLens.SiteArchive.Navigation
import WebLens.StaticClone.SafePaths

/-!
# Links to packaged pages

Pages are selected by `normalizeDesignUrl`, and links are looked up by `normalizeRawUrl`, which
keeps the query as it is. URLs that are equal for the lookup are equal for the selection. The converse
fails, for a link with a tracking parameter for example: a link leads to the page that the selection
takes for its target exactly when the last route whose URL is equal for the lookup is one of that
page.
-/

set_option autoImplicit false
set_option relaxedAutoImplicit false

namespace WebLens.SiteArchive

open Lib Lib.Html
open Lib.Utf8 (ByteString)
open SiteClone.Design (textLength dropTrailingSlashes normalizeDesignUrl trackingQuery)
open StaticClone

/-! ### URLs -/

/-- A URL of a web page. -/
def IsWeb (p : Platform) (url : p.Url) : Prop :=
  p.protocol url = "http:" ∨ p.protocol url = "https:"

/-- What a URL standard promises of the components of a URL. -/
structure UrlLaws (p : Platform) : Prop where
  /-- The text of a URL begins with its protocol. -/
  protocol_eq {left right : p.Url} :
    p.toString left = p.toString right → p.protocol left = p.protocol right
  protocol_setUsername (url : p.Url) : p.protocol (p.setUsername url "") = p.protocol url
  protocol_setPassword (url : p.Url) : p.protocol (p.setPassword url "") = p.protocol url
  protocol_setHash (url : p.Url) : p.protocol (p.setHash url "") = p.protocol url
  protocol_setPathname (url : p.Url) (path : String) :
    p.protocol (p.setPathname url path) = p.protocol url
  /-- The text of a URL is read as that URL. -/
  newUrl_toString {url : p.Url} : IsWeb p url → p.newUrl (p.toString url) = some url
  stripUrl_stripUrl {url : p.Url} : IsWeb p url → stripUrl p (stripUrl p url) = stripUrl p url
  /-- The path is a component of its own. -/
  stripUrl_setPathname {url : p.Url} (path : String) :
    IsWeb p url → stripUrl p (p.setPathname url path) = p.setPathname (stripUrl p url) path
  searchKeys_setPathname {url : p.Url} (path : String) :
    IsWeb p url → p.searchKeys (p.setPathname url path) = p.searchKeys url
  deleteKey_setPathname {url : p.Url} (path key : String) :
    IsWeb p url →
      p.deleteKey (p.setPathname url path) key = p.setPathname (p.deleteKey url key) path
  sortKeys_setPathname {url : p.Url} (path : String) :
    IsWeb p url → p.sortKeys (p.setPathname url path) = p.setPathname (p.sortKeys url) path
  /-- The query is a component of its own. -/
  protocol_deleteKey (url : p.Url) (key : String) :
    p.protocol (p.deleteKey url key) = p.protocol url
  protocol_sortKeys (url : p.Url) : p.protocol (p.sortKeys url) = p.protocol url
  pathname_deleteKey {url : p.Url} (key : String) :
    IsWeb p url → p.pathname (p.deleteKey url key) = p.pathname url
  pathname_sortKeys {url : p.Url} : IsWeb p url → p.pathname (p.sortKeys url) = p.pathname url
  setPathname_setPathname {url : p.Url} (path next : String) :
    IsWeb p url → p.setPathname (p.setPathname url path) next = p.setPathname url next
  /-- A path that a URL had is left as it is but for its slashes, and an empty path is a slash. -/
  pathname_setPathname {url : p.Url} :
    IsWeb p url → p.pathname (p.setPathname url (dropTrailingSlashes (p.pathname url))) =
      if dropTrailingSlashes (p.pathname url) = "" then "/"
      else dropTrailingSlashes (p.pathname url)

/-- A URL without the keys of its query that are for tracking, and with the others sorted. -/
def cleanQuery (p : Platform) (url : p.Url) : p.Url :=
  p.sortKeys ((p.searchKeys url).foldl (fun url key ↦
    if p.test trackingQuery key = true then p.deleteKey url key else url) url)

variable {p : Platform} {url : p.Url}

theorem normalizeDesignUrl_eq (rawUrl : String) :
    normalizeDesignUrl p.toPlatform rawUrl =
      (p.newUrl rawUrl).map fun url ↦ p.toString (trimPath p (cleanQuery p (stripUrl p url))) := by
  unfold normalizeDesignUrl
  cases p.newUrl rawUrl <;> rfl

theorem dropTrailingSlashes_idem (text : String) :
    dropTrailingSlashes (dropTrailingSlashes text) = dropTrailingSlashes text := by
  unfold dropTrailingSlashes
  rw [String.toList_ofList, List.rdropWhile_idempotent]

section Laws

variable (laws : UrlLaws p)
include laws

theorem protocol_stripUrl (url : p.Url) : p.protocol (stripUrl p url) = p.protocol url := by
  unfold stripUrl
  rw [laws.protocol_setHash, laws.protocol_setPassword, laws.protocol_setUsername]

theorem protocol_trimPath (url : p.Url) : p.protocol (trimPath p url) = p.protocol url := by
  unfold trimPath
  split
  · rw [laws.protocol_setPathname]
  · rfl

theorem protocol_foldl_deleteKey (keys : List String) :
    ∀ url : p.Url, p.protocol (keys.foldl (fun url key ↦
      if p.test trackingQuery key = true then p.deleteKey url key else url) url) =
        p.protocol url := by
  induction keys with
  | nil => exact fun _ ↦ rfl
  | cons key keys ih =>
    intro url
    rw [List.foldl_cons, ih]
    split
    · rw [laws.protocol_deleteKey]
    · rfl

theorem protocol_cleanQuery (url : p.Url) : p.protocol (cleanQuery p url) = p.protocol url := by
  unfold cleanQuery
  rw [laws.protocol_sortKeys, protocol_foldl_deleteKey laws]

theorem pathname_foldl_deleteKey (keys : List String) :
    ∀ url : p.Url, IsWeb p url → p.pathname (keys.foldl (fun url key ↦
      if p.test trackingQuery key = true then p.deleteKey url key else url) url) =
        p.pathname url := by
  induction keys with
  | nil => exact fun _ _ ↦ rfl
  | cons key keys ih =>
    intro url hweb
    rw [List.foldl_cons]
    by_cases htest : p.test trackingQuery key = true
    · rw [if_pos htest]
      have hweb' : IsWeb p (p.deleteKey url key) := by
        unfold IsWeb
        rw [laws.protocol_deleteKey]
        exact hweb
      rw [ih _ hweb', laws.pathname_deleteKey key hweb]
    · rw [if_neg htest]
      exact ih url hweb

theorem pathname_cleanQuery (hweb : IsWeb p url) :
    p.pathname (cleanQuery p url) = p.pathname url := by
  unfold cleanQuery
  rw [laws.pathname_sortKeys, pathname_foldl_deleteKey laws _ _ hweb]
  unfold IsWeb
  rw [protocol_foldl_deleteKey laws]
  exact hweb

theorem foldl_deleteKey_setPathname (path : String) (keys : List String) :
    ∀ url : p.Url, IsWeb p url → keys.foldl (fun url key ↦
      if p.test trackingQuery key = true then p.deleteKey url key else url)
        (p.setPathname url path) =
        p.setPathname (keys.foldl (fun url key ↦
          if p.test trackingQuery key = true then p.deleteKey url key else url) url) path := by
  induction keys with
  | nil => exact fun _ _ ↦ rfl
  | cons key keys ih =>
    intro url hweb
    rw [List.foldl_cons, List.foldl_cons]
    by_cases htest : p.test trackingQuery key = true
    · rw [if_pos htest, if_pos htest, laws.deleteKey_setPathname path key hweb]
      refine ih _ ?_
      unfold IsWeb
      rw [laws.protocol_deleteKey]
      exact hweb
    · rw [if_neg htest, if_neg htest]
      exact ih url hweb

/-- Query and path do not touch each other. -/
theorem cleanQuery_setPathname (path : String) (hweb : IsWeb p url) :
    cleanQuery p (p.setPathname url path) = p.setPathname (cleanQuery p url) path := by
  unfold cleanQuery
  rw [laws.searchKeys_setPathname path hweb, foldl_deleteKey_setPathname laws path _ url hweb,
    laws.sortKeys_setPathname]
  unfold IsWeb
  rw [protocol_foldl_deleteKey laws]
  exact hweb

/-- The slashes at the end go once. -/
theorem trimPath_trimPath (hweb : IsWeb p url) : trimPath p (trimPath p url) = trimPath p url := by
  by_cases hlong : 1 < textLength (p.pathname url)
  · have htrim : trimPath p url = p.setPathname url (dropTrailingSlashes (p.pathname url)) := by
      unfold trimPath
      rw [if_pos hlong]
    rw [htrim]
    unfold trimPath
    rw [laws.pathname_setPathname hweb]
    by_cases hempty : dropTrailingSlashes (p.pathname url) = ""
    · rw [if_pos hempty, if_neg (by decide)]
    · rw [if_neg hempty, dropTrailingSlashes_idem, laws.setPathname_setPathname _ _ hweb, ite_self]
  · have htrim : trimPath p url = url := by
      unfold trimPath
      rw [if_neg hlong]
    rw [htrim, htrim]

/-- The selection does not see what the lookup takes away. -/
theorem trimPath_cleanQuery_trimPath (hweb : IsWeb p url) :
    trimPath p (cleanQuery p (trimPath p url)) = trimPath p (cleanQuery p url) := by
  have hpath := pathname_cleanQuery laws hweb
  by_cases hlong : 1 < textLength (p.pathname url)
  · have htrim : cleanQuery p (trimPath p url) = trimPath p (cleanQuery p url) := by
      unfold trimPath
      rw [if_pos hlong, hpath, if_pos hlong, cleanQuery_setPathname laws _ hweb]
    rw [htrim]
    refine trimPath_trimPath laws ?_
    unfold IsWeb
    rw [protocol_cleanQuery laws]
    exact hweb
  · have htrim : trimPath p url = url := by
      unfold trimPath
      rw [if_neg hlong]
    rw [htrim]

theorem stripUrl_trimPath_stripUrl (hweb : IsWeb p url) :
    stripUrl p (trimPath p (stripUrl p url)) = trimPath p (stripUrl p url) := by
  have hstrip : IsWeb p (stripUrl p url) := by
    unfold IsWeb
    rw [protocol_stripUrl laws]
    exact hweb
  unfold trimPath
  split
  · rw [laws.stripUrl_setPathname _ hstrip, laws.stripUrl_stripUrl hweb]
  · exact laws.stripUrl_stripUrl hweb

/-- The normal form of the selection depends on that of the lookup. -/
theorem normalizeDesignUrl_of_normalizeRawUrl {rawUrl text : String}
    (hurl : p.newUrl rawUrl = some url) (hweb : IsWeb p url)
    (hraw : normalizeRawUrl p rawUrl = some text) :
    normalizeDesignUrl p.toPlatform text = normalizeDesignUrl p.toPlatform rawUrl := by
  unfold normalizeRawUrl at hraw
  rw [hurl, Option.map_some] at hraw
  have hstrip : IsWeb p (stripUrl p url) := by
    unfold IsWeb
    rw [protocol_stripUrl laws]
    exact hweb
  have htrim : IsWeb p (trimPath p (stripUrl p url)) := by
    unfold IsWeb
    rw [protocol_trimPath laws]
    exact hstrip
  rw [normalizeDesignUrl_eq, normalizeDesignUrl_eq, ← Option.some.inj hraw,
    laws.newUrl_toString htrim, hurl, Option.map_some, Option.map_some,
    stripUrl_trimPath_stripUrl laws hweb, trimPath_cleanQuery_trimPath laws hstrip]

end Laws

/-! ### Lookup -/

/-- The last entry whose URL is equal to a target for the lookup. -/
def lastEntry (p : Platform) (entries : List (String × String)) (target : String) :
    Option (String × String) :=
  entries.reverse.find? fun entry ↦ normalizeRawUrl p entry.1 = normalizeRawUrl p target

theorem lookup_foldlM_addRoute {entries : List (String × String)} (hash : String) :
    ∀ {table table' : List (String × String)}, entries.foldlM (addRoute p) table = some table' →
      table'.lookup hash = ((entries.reverse.find? fun entry ↦
        rawUrlHash p entry.1 = some hash).map Prod.snd).or (table.lookup hash) := by
  induction entries with
  | nil =>
    intro table table' h
    cases h
    rfl
  | cons entry entries ih =>
    intro table table' h
    rw [List.foldlM_cons] at h
    obtain ⟨next, hnext, hrest⟩ := Option.bind_eq_some_iff.1 h
    unfold addRoute at hnext
    obtain ⟨key, hkey, rfl⟩ := Option.map_eq_some_iff.1 hnext
    rw [ih hrest, List.reverse_cons, List.find?_append, List.find?_singleton, hkey]
    cases hfind : entries.reverse.find? fun entry ↦ rawUrlHash p entry.1 = some hash with
    | some found => rfl
    | none =>
      rw [Option.map_none, Option.none_or, Option.none_or, List.lookup_cons]
      by_cases heq : key = hash
      · rw [heq, if_pos (by exact decide_eq_true rfl), beq_self_eq_true]
        rfl
      · have hne : (hash == key) = false := beq_eq_false_iff_ne.2 fun h ↦ heq h.symm
        rw [if_neg (by exact fun h ↦ heq (Option.some.inj (of_decide_eq_true h))), hne]
        rfl

/-- Every entry of a table has a hash. -/
theorem exists_rawUrlHash {entries : List (String × String)} :
    ∀ {table table' : List (String × String)}, entries.foldlM (addRoute p) table = some table' →
      ∀ entry ∈ entries, ∃ hash, rawUrlHash p entry.1 = some hash := by
  induction entries with
  | nil => exact fun _ entry hentry ↦ absurd hentry List.not_mem_nil
  | cons entry entries ih =>
    intro table table' h
    rw [List.foldlM_cons] at h
    obtain ⟨next, hnext, hrest⟩ := Option.bind_eq_some_iff.1 h
    unfold addRoute at hnext
    obtain ⟨key, hkey, -⟩ := Option.map_eq_some_iff.1 hnext
    intro other hother
    rcases List.mem_cons.1 hother with rfl | hother
    · exact ⟨key, hkey⟩
    · exact ih hrest other hother

/-- No entry has the hash of a target whose text is another one. -/
def HashesApart (p : Platform) (entries : List (String × String)) (target : String) : Prop :=
  ∀ entry ∈ entries, rawUrlHash p entry.1 = rawUrlHash p target →
    normalizeRawUrl p entry.1 = normalizeRawUrl p target

theorem rawUrlHash_eq_iff {entries : List (String × String)} {target hash : String}
    (happart : HashesApart p entries target) (hhash : rawUrlHash p target = some hash) :
    ∀ entry ∈ entries, rawUrlHash p entry.1 = some hash ↔
      normalizeRawUrl p entry.1 = normalizeRawUrl p target := by
  intro entry hentry
  constructor
  · intro h
    exact happart entry hentry (h.trans hhash.symm)
  · intro h
    rw [← hhash]
    unfold rawUrlHash
    rw [h]

/-- What a target is looked up as. -/
theorem lookup_routeMap {routes : List SiteRoute} {pages : List PackagedPage}
    {table : List (String × String)} (htable : routeMap p routes pages = some table)
    {target hash : String} (happart : HashesApart p (routeEntries routes pages) target)
    (hhash : rawUrlHash p target = some hash) :
    table.lookup hash = (lastEntry p (routeEntries routes pages) target).map Prod.snd := by
  rw [lookup_foldlM_addRoute hash htable]
  show Option.or _ none = _
  rw [Option.or_none]
  congr 1
  unfold lastEntry
  refine List.find?_congr fun entry hentry ↦ ?_
  exact decide_eq_decide.2 (rawUrlHash_eq_iff happart hhash entry (List.mem_reverse.1 hentry))

/-- A URL that a packaged page is known by. -/
def IsUrlOf (routes : List SiteRoute) (page : PackagedPage) (rawUrl : String) : Prop :=
  rawUrl = page.sourceFinalUrl ∨ rawUrl = page.publicFinalUrl ∨
    ⟨rawUrl, page.localPath⟩ ∈ routes

theorem exists_page_of_mem_routeEntries {routes : List SiteRoute} {pages : List PackagedPage}
    {entry : String × String} (h : entry ∈ routeEntries routes pages) :
    ∃ page ∈ pages, IsUrlOf routes page entry.1 ∧ page.localPath = entry.2 := by
  unfold routeEntries at h
  rcases List.mem_append.1 h with h | h
  · obtain ⟨route, hroute, rfl⟩ := List.mem_map.1 h
    obtain ⟨hroute, hkept⟩ := List.mem_filter.1 hroute
    obtain ⟨page, hpage, hpath⟩ := List.mem_map.1 (List.contains_iff_mem.1 hkept)
    refine ⟨page, hpage, .inr (.inr ?_), hpath⟩
    rw [hpath]
    exact hroute
  · obtain ⟨page, hpage, hentry⟩ := List.mem_flatMap.1 h
    rcases List.mem_cons.1 hentry with rfl | hentry
    · exact ⟨page, hpage, .inl rfl, rfl⟩
    · rw [List.mem_singleton.1 hentry]
      exact ⟨page, hpage, .inr (.inl rfl), rfl⟩

/-! ### Agreement -/

/-- Two URLs that the selection of pages takes for one. -/
def SameDesign (p : Platform) (left right : String) : Prop :=
  ∃ text, normalizeDesignUrl p.toPlatform left = some text ∧
    normalizeDesignUrl p.toPlatform right = some text

section Agreement

variable (p : Platform) (routes : List SiteRoute) (pages : List PackagedPage)
  (sourceUrl sourcePath : String) (table : List (String × String)) (value : String)

/-- The target of a link, without its fragment. -/
def targetOf (target : p.Url) : String :=
  p.toString (p.setHash target "")

/-- A link whose target the selection takes for a page. -/
def LeadsTo (target : p.Url) (page : PackagedPage) : Prop :=
  ∃ rawUrl, IsUrlOf routes page rawUrl ∧ SameDesign p (targetOf p target) rawUrl

/-- A link leads to the pages that the selection takes for its target, with its fragment, and it
leads to a path of the archive only if that is the path of such a page. -/
structure NavigationAgrees : Prop where
  complete (target : p.Url) (page : PackagedPage) : p.newUrlFrom value sourceUrl = some target →
    page ∈ pages → LeadsTo p routes target page →
    isFollowed value = true ∧ routeOf p table target = some page.localPath ∧
      rewriteLink p sourceUrl sourcePath table value =
        relativeArchivePath sourcePath page.localPath ++ p.hash target
  sound (target : p.Url) (path : String) : p.newUrlFrom value sourceUrl = some target →
    isFollowed value = true → routeOf p table target = some path →
    ∃ page ∈ pages, LeadsTo p routes target page ∧ page.localPath = path

/-- A link that leads to a page for the selection is followed, and the last route that is equal to
its target for the lookup is one of that page. -/
def LastRouteOfPage : Prop :=
  ∀ target page, p.newUrlFrom value sourceUrl = some target → page ∈ pages →
    LeadsTo p routes target page → isFollowed value = true ∧
      (lastEntry p (routeEntries routes pages) (targetOf p target)).map Prod.snd =
        some page.localPath

end Agreement

variable {routes : List SiteRoute} {pages : List PackagedPage} {sourceUrl sourcePath : String}
  {table : List (String × String)} {value : String}

/-- The route of a target is the path of the last entry. -/
theorem routeOf_eq (htable : routeMap p routes pages = some table) {target : p.Url}
    (happart : HashesApart p (routeEntries routes pages) (targetOf p target)) :
    routeOf p table target =
      (lastEntry p (routeEntries routes pages) (targetOf p target)).map Prod.snd := by
  unfold routeOf
  show ((rawUrlHash p (targetOf p target)).bind _).filter _ = _
  cases hhash : rawUrlHash p (targetOf p target) with
  | none =>
    rw [Option.bind_none, Option.filter_none]
    refine Eq.symm (Option.map_eq_none_iff.2 (List.find?_eq_none.2 fun entry hentry hequal ↦ ?_))
    obtain ⟨hash, hhash'⟩ := exists_rawUrlHash htable entry (List.mem_reverse.1 hentry)
    unfold rawUrlHash at hhash hhash'
    rw [of_decide_eq_true hequal, hhash] at hhash'
    cases hhash'
  | some hash =>
    rw [Option.bind_some, lookup_routeMap htable happart hhash]
    cases hlast : lastEntry p (routeEntries routes pages) (targetOf p target) with
    | none => rfl
    | some entry =>
      obtain ⟨page, -, -, hpath⟩ := exists_page_of_mem_routeEntries
        (List.mem_reverse.1 (List.mem_of_find?_eq_some hlast))
      refine Option.filter_some_pos (decide_eq_true ?_)
      rw [← hpath]
      exact page.localPath_ne_empty

theorem rewriteLink_of_routeOf {target : p.Url} {route : String}
    (htarget : p.newUrlFrom value sourceUrl = some target) (hfollowed : isFollowed value = true)
    (hroute : routeOf p table target = some route) :
    rewriteLink p sourceUrl sourcePath table value =
      relativeArchivePath sourcePath route ++ p.hash target := by
  have hhash : ∃ hash, rawUrlHash p (p.toString (p.setHash target "")) = some hash := by
    unfold routeOf at hroute
    cases hhash : rawUrlHash p (p.toString (p.setHash target "")) with
    | none =>
      rw [hhash] at hroute
      cases hroute
    | some hash => exact ⟨hash, rfl⟩
  obtain ⟨hash, hhash⟩ := hhash
  unfold rewriteLink
  rw [if_neg (fun hfalse ↦ Bool.noConfusion (hfollowed.symm.trans hfalse)), htarget]
  dsimp only
  rw [hhash, hroute]

/-- URLs that are equal for the lookup are equal for the selection. -/
theorem sameDesign_of_normalizeRawUrl (laws : UrlLaws p) {left right text : String}
    (hweb : ∀ url, p.newUrl right = some url → IsWeb p url)
    (hleft : normalizeRawUrl p left = some text) (hright : normalizeRawUrl p right = some text) :
    SameDesign p left right := by
  have hparse : ∀ {rawUrl : String}, normalizeRawUrl p rawUrl = some text →
      ∃ url, p.newUrl rawUrl = some url ∧ p.toString (trimPath p (stripUrl p url)) = text :=
    fun h ↦ Option.map_eq_some_iff.1 h
  obtain ⟨leftUrl, hleftUrl, hleftText⟩ := hparse hleft
  obtain ⟨rightUrl, hrightUrl, hrightText⟩ := hparse hright
  have hprotocol : p.protocol leftUrl = p.protocol rightUrl := by
    have h := laws.protocol_eq (hleftText.trans hrightText.symm)
    rwa [protocol_trimPath laws, protocol_trimPath laws, protocol_stripUrl laws,
      protocol_stripUrl laws] at h
  have hrightWeb : IsWeb p rightUrl := hweb rightUrl hrightUrl
  have hleftWeb : IsWeb p leftUrl := by
    unfold IsWeb
    rw [hprotocol]
    exact hrightWeb
  refine ⟨p.toString (trimPath p (cleanQuery p (stripUrl p leftUrl))), ?_, ?_⟩
  · rw [normalizeDesignUrl_eq, hleftUrl, Option.map_some]
  · rw [← normalizeDesignUrl_of_normalizeRawUrl laws hrightUrl hrightWeb hright,
      normalizeDesignUrl_of_normalizeRawUrl laws hleftUrl hleftWeb hleft, normalizeDesignUrl_eq,
      hleftUrl, Option.map_some]

/-- Only pages that the selection takes for a target are found for it. -/
theorem leadsTo_of_routeOf (laws : UrlLaws p)
    (hweb : ∀ entry ∈ routeEntries routes pages, ∀ url, p.newUrl entry.1 = some url → IsWeb p url)
    (htable : routeMap p routes pages = some table) {target : p.Url}
    (happart : HashesApart p (routeEntries routes pages) (targetOf p target)) {path : String}
    (hroute : routeOf p table target = some path) :
    ∃ page ∈ pages, LeadsTo p routes target page ∧ page.localPath = path := by
  rw [routeOf_eq htable happart] at hroute
  obtain ⟨entry, hlast, rfl⟩ := Option.map_eq_some_iff.1 hroute
  have hentry := List.mem_reverse.1 (List.mem_of_find?_eq_some hlast)
  have hequal : normalizeRawUrl p entry.1 = normalizeRawUrl p (targetOf p target) := by
    unfold lastEntry at hlast
    have hfound := List.find?_some hlast
    exact of_decide_eq_true hfound
  obtain ⟨hash, hhash⟩ := exists_rawUrlHash htable entry hentry
  obtain ⟨text, htext, -⟩ := Option.map_eq_some_iff.1 hhash
  obtain ⟨page, hpage, hurl, hpath⟩ := exists_page_of_mem_routeEntries hentry
  exact ⟨page, hpage, ⟨entry.1, hurl, sameDesign_of_normalizeRawUrl laws (hweb entry hentry)
    (hequal.symm.trans htext) htext⟩, hpath⟩

/-- Every link of a rewritten document agrees with the selection exactly when it is followed if it
leads to a page for the selection, and the last route that is equal to its target for the lookup is
one of that page. -/
theorem navigation_agrees_iff (p : Platform) (laws : UrlLaws p) (routes : List SiteRoute)
    (pages : List PackagedPage) (table : List (String × String))
    (htable : routeMap p routes pages = some table)
    (hweb : ∀ entry ∈ routeEntries routes pages, ∀ url, p.newUrl entry.1 = some url → IsWeb p url)
    (parse : String → Html.Node) (serialize : Html.Node → String) (sourceUrl sourcePath : String)
    (html : ByteString)
    (happart : ∀ value ∈ linksOf p (parse (p.decodeUtf8 html)), ∀ target,
      p.newUrlFrom value sourceUrl = some target →
        HashesApart p (routeEntries routes pages) (targetOf p target)) :
    ∃ document, rewriteSiteNavigation p sourceUrl sourcePath table parse serialize html =
        Utf8.ofText (serialize document) ∧
      linksOf p document = (linksOf p (parse (p.decodeUtf8 html))).map
        (rewriteLink p sourceUrl sourcePath table) ∧
      ∀ value ∈ linksOf p (parse (p.decodeUtf8 html)),
        NavigationAgrees p routes pages sourceUrl sourcePath table value ↔
          LastRouteOfPage p routes pages sourceUrl value := by
  refine ⟨_, rfl, linksOf_transform _, fun value hvalue ↦ ?_⟩
  constructor
  · intro hagrees target page htarget hpage hleads
    obtain ⟨hfollowed, hroute, -⟩ := hagrees.complete target page htarget hpage hleads
    refine ⟨hfollowed, ?_⟩
    rw [← routeOf_eq htable (happart value hvalue target htarget)]
    exact hroute
  · intro hlast
    refine ⟨fun target page htarget hpage hleads ↦ ?_, fun target path htarget _ hroute ↦ ?_⟩
    · obtain ⟨hfollowed, hentry⟩ := hlast target page htarget hpage hleads
      have hroute : routeOf p table target = some page.localPath := by
        rw [routeOf_eq htable (happart value hvalue target htarget)]
        exact hentry
      exact ⟨hfollowed, hroute, rewriteLink_of_routeOf htarget hfollowed hroute⟩
    · exact leadsTo_of_routeOf laws hweb htable (happart value hvalue target htarget) hroute

/-! ### A site with one page -/

/-- The URLs of a page and of links to it. -/
inductive NewsUrl
  | plain
  | heading
  | tracked
  | redacted
deriving DecidableEq

def NewsUrl.text : NewsUrl → String
  | .plain => "https://site.test/news"
  | .heading => "https://site.test/news#top"
  | .tracked => "https://site.test/news?utm_source=mail"
  | .redacted => "https://site.test/news?utm_source=%5BREDACTED%5D"

/-- The URLs that have a key, which is one for tracking. -/
def NewsUrl.hasKey : NewsUrl → Bool
  | .plain => false
  | .heading => false
  | .tracked => true
  | .redacted => true

def newsUrls : List NewsUrl := [.plain, .heading, .tracked, .redacted]

theorem find_newsUrls (url : NewsUrl) :
    newsUrls.find? (fun other ↦ other.text = url.text) = some url := by
  cases url <;> decide

/-- The platform on these URLs. -/
def Platform.news : Platform where
  Url := NewsUrl
  newUrl text := newsUrls.find? fun url ↦ url.text = text
  newUrlFrom text _ := newsUrls.find? fun url ↦ url.text = text
  toString := NewsUrl.text
  protocol _ := "https:"
  origin _ := "https://site.test"
  pathname _ := "/news"
  search url := if url.hasKey = true then "?utm_source=" else ""
  setUsername url _ := url
  setPassword url _ := url
  setHash url _ := if url = .heading then .plain else url
  setPathname url _ := url
  setSearch url _ := if url.hasKey = true then .plain else url
  searchKeys url := if url.hasKey = true then ["utm_source"] else []
  deleteKey url key := if url.hasKey = true ∧ key = "utm_source" then .plain else url
  setKey url key _ := if url.hasKey = true ∧ key = "utm_source" then .redacted else url
  sortKeys url := url
  test pattern text := decide (pattern = trackingQuery ∧ text = "utm_source")
  localeCompare := SiteClone.Design.Platform.sample.localeCompare
  languageName := SiteClone.Design.Platform.sample.languageName
  toLowerCase := SiteClone.Design.Platform.sample.toLowerCase
  trim := SiteClone.Design.Platform.sample.trim
  host _ := "site.test"
  username _ := ""
  password _ := ""
  hash url := if url = .heading then "#top" else ""
  appendKey url _ _ := url
  normalizeNfc := StaticClone.Platform.sample.normalizeNfc
  decodeUriComponent := StaticClone.Platform.sample.decodeUriComponent
  decodeUtf8 := StaticClone.Platform.sample.decodeUtf8
  sha256 := StaticClone.Platform.sample.sha256

theorem urlLaws_news : UrlLaws Platform.news where
  protocol_eq _ := rfl
  protocol_setUsername _ := rfl
  protocol_setPassword _ := rfl
  protocol_setHash _ := rfl
  protocol_setPathname _ _ := rfl
  newUrl_toString {url} _ := find_newsUrls url
  stripUrl_stripUrl {url} _ := by cases url <;> rfl
  stripUrl_setPathname _ _ := rfl
  searchKeys_setPathname _ _ := rfl
  deleteKey_setPathname _ _ _ := rfl
  sortKeys_setPathname _ _ := rfl
  protocol_deleteKey _ _ := rfl
  protocol_sortKeys _ := rfl
  pathname_deleteKey _ _ := rfl
  pathname_sortKeys _ := rfl
  setPathname_setPathname _ _ _ := rfl
  pathname_setPathname _ := by
    show "/news" =
      if dropTrailingSlashes "/news" = "" then "/" else dropTrailingSlashes "/news"
    decide

def newsPages : List PackagedPage :=
  [⟨NewsUrl.plain.text, NewsUrl.plain.text, "news.html", by decide⟩]

def newsRoutes : List SiteRoute := [⟨NewsUrl.plain.text, "news.html"⟩]

def newsTable : List (String × String) :=
  (routeMap Platform.news newsRoutes newsPages).getD []

/-- A document with a link. -/
def documentWithLink (value : String) : Html.Node :=
  .mk (some "a") none [⟨"href", value⟩] []

theorem routeMap_news : routeMap Platform.news newsRoutes newsPages = some newsTable := by
  unfold newsTable
  cases h : routeMap Platform.news newsRoutes newsPages with
  | some table => rfl
  | none =>
    have hsome : (routeMap Platform.news newsRoutes newsPages).isSome = true := by decide +kernel
    rw [h] at hsome
    cases hsome

theorem navigation_agrees_iff_news :
    ∃ document, rewriteSiteNavigation Platform.news NewsUrl.plain.text "news.html" newsTable
        (fun _ ↦ documentWithLink NewsUrl.heading.text) (fun _ ↦ "") [] = Utf8.ofText "" ∧
      linksOf Platform.news document =
        (linksOf Platform.news (documentWithLink NewsUrl.heading.text)).map
          (rewriteLink Platform.news NewsUrl.plain.text "news.html" newsTable) ∧
      ∀ value ∈ linksOf Platform.news (documentWithLink NewsUrl.heading.text),
        NavigationAgrees Platform.news newsRoutes newsPages NewsUrl.plain.text "news.html" newsTable
          value ↔ LastRouteOfPage Platform.news newsRoutes newsPages NewsUrl.plain.text value :=
  navigation_agrees_iff Platform.news urlLaws_news newsRoutes newsPages newsTable routeMap_news
    (fun _ _ _ _ ↦ .inr rfl) (fun _ ↦ documentWithLink NewsUrl.heading.text) (fun _ ↦ "")
    NewsUrl.plain.text "news.html" [] fun value hvalue target htarget entry hentry _ ↦ by
      have hvalue : value ∈ [NewsUrl.heading.text] := hvalue
      rw [List.mem_singleton.1 hvalue] at htarget
      have htarget : some NewsUrl.heading = some target := htarget
      have hentries : ∀ entry ∈ routeEntries newsRoutes newsPages,
          normalizeRawUrl Platform.news entry.1 =
            normalizeRawUrl Platform.news (targetOf Platform.news NewsUrl.heading) := by
        decide +kernel
      rw [← Option.some.inj htarget]
      exact hentries entry hentry

/-- A link with a tracking parameter leads to a packaged page for the selection, and leaves the
archive. -/
theorem tracked_link_leaves :
    NewsUrl.tracked.text ∈ linksOf Platform.news (documentWithLink NewsUrl.tracked.text) ∧
      rewriteLink Platform.news NewsUrl.plain.text "index.html" newsTable NewsUrl.tracked.text =
        NewsUrl.redacted.text ∧
      ¬ NavigationAgrees Platform.news newsRoutes newsPages NewsUrl.plain.text "index.html" newsTable
        NewsUrl.tracked.text := by
  refine ⟨List.mem_singleton_self _, by decide +kernel, fun hagrees ↦ ?_⟩
  have hleads : LeadsTo Platform.news newsRoutes NewsUrl.tracked newsPages[0] :=
    ⟨NewsUrl.plain.text, .inl rfl, NewsUrl.plain.text, by decide +kernel, by decide +kernel⟩
  obtain ⟨-, hroute, -⟩ := hagrees.complete NewsUrl.tracked newsPages[0] rfl
    (List.mem_singleton_self _) hleads
  have hnone : routeOf Platform.news newsTable NewsUrl.tracked = none := by decide +kernel
  rw [hnone] at hroute
  cases hroute

end WebLens.SiteArchive
