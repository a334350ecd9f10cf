import WebLens.SiteClone.Design

/-!
# What the choice of pages does with each page

The lemmas on `selectDesignPages`: what a screened page becomes, when the screening does not throw,
and how the two elections and the limit share the pages between the selected and the rejected ones.
-/

set_option autoImplicit false
set_option relaxedAutoImplicit false

namespace WebLens.SiteClone.Design

open Std
open scoped List

/-! ### What the platform documents -/

def IsAscii (text : String) : Prop :=
  ∀ c ∈ text.toList, c.toNat < 128

/-- `localeCompare` orders the texts, a serialised URL can be parsed, pathnames are ASCII, and an
ASCII text of the shape of a locale starts with a code that the language lookup reads. -/
structure Platform.Lawful (platform : Platform) : Prop where
  localeCompare : TransCmp platform.localeCompare
  newUrl_toString : ∀ url, (platform.newUrl (platform.toString url)).isSome
  pathname_ascii : ∀ url, IsAscii (platform.pathname url)
  toLowerCase_ascii : ∀ text, IsAscii text → IsAscii (platform.toLowerCase text)
  trim_ascii : ∀ text, IsAscii text → IsAscii (platform.trim text)
  languageName_ascii : ∀ text, IsAscii text → platform.test localePattern text = true →
    (platform.languageName (languageOf platform text)).isSome

variable {platform : Platform}

/-! ### The orders -/

theorem transCmp_pageOrder (hlaws : platform.Lawful) : TransCmp (pageOrder platform) := by
  have := hlaws.localeCompare
  exact transCmp_then (transCmp_on DesignPageInput.rawUrl _) (transCmp_on DesignPageInput.id _)

theorem transCmp_candidateOrder (hlaws : platform.Lawful) :
    TransCmp (candidateOrder platform) := by
  have := hlaws.localeCompare
  have hself : TransCmp fun left right : Candidate ↦
      compare right.canonicalSelfReference.toNat left.canonicalSelfReference.toNat :=
    transCmp_opposite (transCmp_on (fun c : Candidate ↦ c.canonicalSelfReference.toNat) compare)
  exact transCmp_then (transCmp_on (fun c : Candidate ↦ c.hadQuery.toNat) compare) <|
    transCmp_then hself <|
    transCmp_then (transCmp_on (fun c : Candidate ↦ statusRank c.page.statusCode) compare) <|
    transCmp_then (transCmp_on (fun c : Candidate ↦ textLength c.normalizedUrl) compare) <|
    transCmp_then (transCmp_on (fun c : Candidate ↦ c.normalizedUrl) _)
      (transCmp_on (fun c : Candidate ↦ c.page.id) _)

/-- The pages have identifiers of their own, which `localeCompare` tells apart. -/
structure Identified (platform : Platform) (pages : List DesignPageInput) : Prop where
  nodup : (pages.map DesignPageInput.id).Nodup
  compared : ∀ a ∈ pages, ∀ b ∈ pages, platform.localeCompare a.id b.id = .eq → a.id = b.id

theorem Identified.eq {pages : List DesignPageInput} (h : Identified platform pages)
    {a b : DesignPageInput} (ha : a ∈ pages) (hb : b ∈ pages) (hid : a.id = b.id) : a = b :=
  List.inj_on_of_nodup_map h.nodup ha hb hid

theorem Identified.perm {pages pages' : List DesignPageInput} (h : Identified platform pages)
    (hperm : pages.Perm pages') : Identified platform pages' where
  nodup := (hperm.map _).nodup_iff.1 h.nodup
  compared a ha b hb := h.compared a (hperm.mem_iff.2 ha) b (hperm.mem_iff.2 hb)

theorem Identified.separates_pageOrder {pages : List DesignPageInput}
    (h : Identified platform pages) : Separates (pageOrder platform) pages := by
  intro a ha b hb horder
  exact h.eq ha hb (h.compared a ha b hb (Ordering.then_eq_eq.1 horder).2)

/-! ### What a screened page becomes -/

/-- The page that was screened. -/
def screenedPage : DesignRejection ⊕ Candidate → DesignPageInput
  | .inl rejection => rejection.page
  | .inr candidate => candidate.page

/-- The canonical identity of a page. -/
def canonicalIdentity (platform : Platform) (rootOrigin : String) (candidate : DesignCandidate) :
    Option String :=
  stripQuery platform
    ((sameOriginCanonical platform candidate.page.canonicalUrl rootOrigin).getD
      candidate.normalizedUrl)

/-- The page is an HTML page of the origin. -/
def IsHtmlOf (platform : Platform) (rootOrigin : String) (page : DesignPageInput) : Prop :=
  ∃ url, platform.newUrl page.rawUrl = some url ∧ platform.protocol url ∈ ["http:", "https:"] ∧
    platform.origin url = rootOrigin ∧ isHtmlPage platform page url = true

/-- What the screening says of a candidate. -/
structure Qualified (platform : Platform) (rootOrigin locale : String) (candidate : Candidate) :
    Prop where
  html : IsHtmlOf platform rootOrigin candidate.page
  normalizedUrl : normalizeDesignUrl platform candidate.page.rawUrl = some candidate.normalizedUrl
  locale : candidate.locale = locale ∨ locale = "und"
  identity : canonicalIdentity platform rootOrigin candidate.toDesignCandidate =
    some candidate.identity
  staticHint : candidate.staticHint = staticLayoutHint platform candidate.page

variable {rootOrigin locale : String} {page : DesignPageInput}

/-- The fields of a candidate. -/
theorem candidateOf_eq_some {pageLocale normalizedUrl : String} {candidate : Candidate}
    (h : candidateOf platform rootOrigin locale pageLocale normalizedUrl page = some candidate) :
    candidate.page = page ∧ candidate.normalizedUrl = normalizedUrl ∧
      candidate.locale = (if pageLocale = "und" then locale else pageLocale) ∧
      canonicalIdentity platform rootOrigin candidate.toDesignCandidate =
        some candidate.identity ∧
      candidate.staticHint = staticLayoutHint platform candidate.page := by
  unfold candidateOf at h
  simp only [Option.bind_eq_bind, Option.bind_eq_some_iff, Option.pure_def,
    Option.some.injEq] at h
  obtain ⟨role, -, template, -, identity, hidentity, url, -, self, -, rfl⟩ := h
  exact ⟨rfl, rfl, rfl, hidentity, rfl⟩

/-- What the screening rejects is no duplicate. -/
def IsDuplicateReason (reason : DesignRejectionReason) : Prop :=
  reason = .canonicalDuplicate ∨ reason = .trackingOrQueryVariant ∨
    reason = .semanticTemplateDuplicate

instance (reason : DesignRejectionReason) : Decidable (IsDuplicateReason reason) := by
  unfold IsDuplicateReason
  infer_instance

/-- The text that a rejection names the page by: none, the redacted URL or the normalised one. -/
def IsUrlOf (platform : Platform) (page : DesignPageInput) (text : String) : Prop :=
  text = "" ∨ ((platform.newUrl page.rawUrl).isSome ∧ text = redactUrl platform page.rawUrl) ∨
    normalizeDesignUrl platform page.rawUrl = some text

/-- What became of a page: it was rejected, and not as a duplicate, or is a qualified candidate. -/
def ScreenedAs (platform : Platform) (rootOrigin locale : String) (page : DesignPageInput)
    (screened : DesignRejection ⊕ Candidate) : Prop :=
  (∃ rejection, screened = .inl rejection ∧ rejection.page = page ∧
    IsUrlOf platform page rejection.normalizedUrl ∧ ¬ IsDuplicateReason rejection.reason) ∨
  ∃ candidate, screened = .inr candidate ∧ candidate.page = page ∧
    Qualified platform rootOrigin locale candidate

theorem screenedAs_inl {screened : DesignRejection ⊕ Candidate} {normalizedUrl : String}
    {reason : DesignRejectionReason} (hreason : ¬ IsDuplicateReason reason)
    (hurl : IsUrlOf platform page normalizedUrl)
    (h : some (.inl ⟨page, normalizedUrl, reason⟩) = some screened) :
    ScreenedAs platform rootOrigin locale page screened :=
  Or.inl ⟨_, (Option.some.inj h).symm, rfl, hurl, hreason⟩

theorem screenedAs_of_screen {screened : DesignRejection ⊕ Candidate}
    (h : screen platform rootOrigin locale page = some screened) :
    ScreenedAs platform rootOrigin locale page screened := by
  unfold screen at h
  cases hurl : platform.newUrl page.rawUrl with
  | none =>
    rw [hurl] at h
    exact screenedAs_inl (by decide) (Or.inl rfl) h
  | some url =>
    rw [hurl] at h
    dsimp only at h
    by_cases horigin : platform.protocol url ∉ ["http:", "https:"] ∨
        platform.origin url ≠ rootOrigin
    · rw [if_pos horigin] at h
      exact screenedAs_inl (by decide) (Or.inr (Or.inl ⟨by rw [hurl]; rfl, rfl⟩)) h
    rw [if_neg horigin] at h
    obtain ⟨normalizedUrl, hnormalized, h⟩ := Option.bind_eq_some_iff.1 h
    by_cases hhtml : isHtmlPage platform page url = true
    swap
    · rw [if_pos hhtml] at h
      exact screenedAs_inl (by decide) (Or.inr (Or.inr hnormalized)) h
    rw [if_neg (not_not.2 hhtml)] at h
    by_cases hwarning : page.outcome = .warning
    · rw [if_pos hwarning] at h
      exact screenedAs_inl (by decide) (Or.inr (Or.inr hnormalized)) h
    rw [if_neg hwarning] at h
    by_cases hfailed : (page.outcome = .failed ∨ page.statusCode = 0) ∧
        ¬ (400 ≤ page.statusCode ∧ page.statusCode < 600)
    · rw [if_pos hfailed] at h
      exact screenedAs_inl (by decide) (Or.inr (Or.inr hnormalized)) h
    rw [if_neg hfailed] at h
    by_cases hpolicy : isPolicyBlocked platform url = true
    · rw [if_pos hpolicy] at h
      exact screenedAs_inl (by decide) (Or.inr (Or.inr hnormalized)) h
    rw [if_neg hpolicy] at h
    obtain ⟨pageLocale, -, h⟩ := Option.bind_eq_some_iff.1 h
    by_cases hlocale : locale ≠ "und" ∧ pageLocale ≠ "und" ∧ pageLocale ≠ locale
    · rw [if_pos hlocale] at h
      exact screenedAs_inl (by decide) (Or.inr (Or.inr hnormalized)) h
    rw [if_neg hlocale] at h
    obtain ⟨candidate, hcandidate, hscreened⟩ := Option.bind_eq_some_iff.1 h
    obtain ⟨hpage, hurl', hlocale', hidentity, hhint⟩ := candidateOf_eq_some hcandidate
    refine Or.inr ⟨candidate, (Option.some.inj hscreened).symm, hpage, ?_⟩
    rw [← hpage] at hurl hnormalized hhtml
    rw [not_or, not_not, ne_eq, not_not] at horigin
    exact {
      html := ⟨url, hurl, horigin.1, horigin.2, hhtml⟩
      normalizedUrl := hurl' ▸ hnormalized
      locale := by
        by_cases hund : locale = "und"
        · exact Or.inr hund
        · left
          rw [hlocale']
          by_cases hundetermined : pageLocale = "und"
          · rw [if_pos hundetermined]
          · rw [if_neg hundetermined]
            exact not_not.1 fun hne ↦ hlocale ⟨hund, hundetermined, hne⟩
      identity := hidentity
      staticHint := hhint }

theorem screen_page {screened : DesignRejection ⊕ Candidate}
    (h : screen platform rootOrigin locale page = some screened) :
    screenedPage screened = page := by
  rcases screenedAs_of_screen h with ⟨rejection, rfl, hpage, -⟩ | ⟨candidate, rfl, hpage, -⟩
  · exact hpage
  · exact hpage

/-! ### The screened pages -/

variable {ordered : List DesignPageInput} {screened : List (DesignRejection ⊕ Candidate)}

/-- What a list of results has in common with the list it was computed from. -/
theorem map_of_mapM {α β γ : Type} {f : α → Option β} {list : List α} {results : List β}
    (g : β → γ) (g' : α → γ) (hg : ∀ a b, f a = some b → g b = g' a)
    (h : list.mapM f = some results) : results.map g = list.map g' := by
  induction list generalizing results with
  | nil =>
    rw [List.mapM_nil] at h
    obtain rfl := Option.some.inj h
    rfl
  | cons a list ih =>
    rw [List.mapM_cons] at h
    obtain ⟨b, hb, h⟩ := Option.bind_eq_some_iff.1 h
    obtain ⟨bs, hbs, h⟩ := Option.bind_eq_some_iff.1 h
    obtain rfl := Option.some.inj h
    rw [List.map_cons, List.map_cons, hg a b hb, ih hbs]

theorem exists_of_mem_mapM {α β : Type} {f : α → Option β} {list : List α} {results : List β}
    (h : list.mapM f = some results) {b : β} (hb : b ∈ results) : ∃ a ∈ list, f a = some b := by
  have hmap : results.map some = list.map f :=
    map_of_mapM some f (fun _ _ hab ↦ hab.symm) h
  exact List.mem_map.1 (hmap ▸ List.mem_map_of_mem hb)

theorem map_screenedPage (h : ordered.mapM (screen platform rootOrigin locale) = some screened) :
    screened.map screenedPage = ordered :=
  (map_of_mapM screenedPage id (fun _ _ hscreen ↦ screen_page hscreen) h).trans ordered.map_id

/-- The candidates and the rejections are the screened pages. -/
theorem screened_perm (screened : List (DesignRejection ⊕ Candidate)) :
    ((candidatesOf screened).map (fun candidate ↦ candidate.page) ++
      (rejectionsOf screened).map DesignRejection.page).Perm (screened.map screenedPage) := by
  unfold candidatesOf rejectionsOf
  induction screened with
  | nil => rfl
  | cons result screened ih =>
    cases result with
    | inl rejection =>
      exact List.perm_middle.trans (ih.cons _)
    | inr candidate => exact ih.cons _

theorem candidatesOf_spec (h : ordered.mapM (screen platform rootOrigin locale) = some screened)
    {candidate : Candidate} (hmem : candidate ∈ candidatesOf screened) :
    candidate.page ∈ ordered ∧ Qualified platform rootOrigin locale candidate := by
  obtain ⟨result, hresult, hright⟩ := List.mem_filterMap.1 hmem
  obtain rfl := Sum.getRight?_eq_some_iff.1 hright
  obtain ⟨page, hpage, hscreen⟩ := exists_of_mem_mapM h hresult
  rcases screenedAs_of_screen hscreen with ⟨_, hresult, -⟩ | ⟨_, hresult, rfl, hqualified⟩
  · exact absurd hresult Sum.inr_ne_inl
  · obtain rfl := Sum.inr.inj hresult
    exact ⟨hpage, hqualified⟩

theorem rejectionsOf_spec (h : ordered.mapM (screen platform rootOrigin locale) = some screened)
    {rejection : DesignRejection} (hmem : rejection ∈ rejectionsOf screened) :
    IsUrlOf platform rejection.page rejection.normalizedUrl ∧
      ¬ IsDuplicateReason rejection.reason := by
  obtain ⟨result, hresult, hleft⟩ := List.mem_filterMap.1 hmem
  obtain rfl := Sum.getLeft?_eq_some_iff.1 hleft
  obtain ⟨page, -, hscreen⟩ := exists_of_mem_mapM h hresult
  rcases screenedAs_of_screen hscreen with ⟨_, hresult, rfl, hrejection⟩ | ⟨_, hresult, -⟩
  · obtain rfl := Sum.inl.inj hresult
    exact hrejection
  · exact absurd hresult Sum.inl_ne_inr

/-! ### The two elections and the limit -/

/-- The candidates that win their canonical identity. -/
def canonicalWinners (platform : Platform) (screened : List (DesignRejection ⊕ Candidate)) :
    List Candidate :=
  (elect Candidate.identity (sortBy (candidateOrder platform) (candidatesOf screened))).1

/-- The candidates that win their group as well. -/
def groupWinners (platform : Platform) (screened : List (DesignRejection ⊕ Candidate)) :
    List Candidate :=
  (elect groupKey (sortBy (candidateOrder platform) (canonicalWinners platform screened))).1

/-- The pages of what was chosen. -/
def Chosen.pages (chosen : Chosen) : List DesignPageInput :=
  chosen.selected.map DesignCandidate.page ++ chosen.rejected.map DesignRejection.page

theorem elected_perm (platform : Platform) {κ : Type} [DecidableEq κ] (key : Candidate → κ)
    (list : List Candidate) :
    ((elect key (sortBy (candidateOrder platform) list)).1.map (fun c ↦ c.page) ++
      (elect key (sortBy (candidateOrder platform) list)).2.map (fun c ↦ c.page)).Perm
      (list.map fun c ↦ c.page) := by
  rw [← List.map_append]
  exact ((elect_perm key _).trans sortBy_perm).map _

/-- Winners, rejections and the losers of two elections put together. -/
theorem shares_perm {α : Type} {winners losers winners' losers' rejections candidates : List α}
    (h : (winners ++ losers).Perm candidates) (h' : (winners' ++ losers').Perm winners) :
    (winners' ++ (rejections ++ losers ++ losers')).Perm (candidates ++ rejections) := by
  have hback : (rejections ++ losers ++ losers').Perm (losers' ++ (losers ++ rejections)) :=
    List.perm_append_comm.trans (List.perm_append_comm.append_left _)
  calc winners' ++ (rejections ++ losers ++ losers')
    _ ~ winners' ++ (losers' ++ (losers ++ rejections)) := hback.append_left _
    _ ~ (winners' ++ losers') ++ (losers ++ rejections) := by rw [List.append_assoc]
    _ ~ winners ++ (losers ++ rejections) := h'.append_right _
    _ ~ (winners ++ losers) ++ rejections := by rw [List.append_assoc]
    _ ~ candidates ++ rejections := h.append_right _

/-- Every screened page is selected or rejected, once. -/
theorem chooseWinners_perm (rootOrigin : String)
    (screened : List (DesignRejection ⊕ Candidate)) :
    (chooseWinners platform rootOrigin screened).pages.Perm (screened.map screenedPage) := by
  have hcanonical := elected_perm platform Candidate.identity (candidatesOf screened)
  have hgroups := elected_perm platform groupKey (canonicalWinners platform screened)
  have hscreened := screened_perm screened
  have hsorted : ((groupWinners platform screened).map fun c ↦ c.page).Perm
      ((chooseWinners platform rootOrigin screened).selected.map DesignCandidate.page) := by
    unfold chooseWinners
    rw [List.map_map]
    exact (sortBy_perm.map _).symm
  have hrejected : (chooseWinners platform rootOrigin screened).rejected.map DesignRejection.page =
      (rejectionsOf screened).map DesignRejection.page ++
        (elect Candidate.identity (sortBy (candidateOrder platform)
          (candidatesOf screened))).2.map (fun c ↦ c.page) ++
        (elect groupKey (sortBy (candidateOrder platform)
          (canonicalWinners platform screened))).2.map fun c ↦ c.page := by
    unfold chooseWinners canonicalWinners
    rw [List.map_append, List.map_append, List.map_map, List.map_map]
    rfl
  unfold Chosen.pages
  rw [hrejected]
  exact (hsorted.symm.append_right _).trans
    ((shares_perm hcanonical hgroups).trans hscreened)

theorem chooseWinners_selected (rootOrigin : String)
    (screened : List (DesignRejection ⊕ Candidate)) :
    ((chooseWinners platform rootOrigin screened).selected).Perm
      ((groupWinners platform screened).map Candidate.toDesignCandidate) :=
  sortBy_perm.map _

/-- A value that is told apart from the others by an identifier makes way. -/
theorem eraseP_perm {α : Type} {list : List α} {pageOf : α → DesignPageInput}
    {bounded : DesignPageInput} (h : bounded ∈ list.map pageOf)
    (hids : ∀ page ∈ list.map pageOf, page.id = bounded.id → page = bounded) :
    (bounded :: (list.eraseP fun a ↦ (pageOf a).id = bounded.id).map pageOf).Perm
      (list.map pageOf) := by
  obtain ⟨a, ha, rfl⟩ := List.mem_map.1 h
  obtain ⟨b, before, after, -, hb, hlist, herase⟩ :=
    List.exists_of_eraseP (p := fun b ↦ decide ((pageOf b).id = (pageOf a).id)) ha
      (decide_eq_true rfl)
  have hsame : pageOf b = pageOf a :=
    hids _ (List.mem_map_of_mem (hlist ▸ List.mem_append_right _ List.mem_cons_self))
      (of_decide_eq_true hb)
  rw [herase, hlist, List.map_append, List.map_append, List.map_cons, hsame]
  exact List.perm_middle.symm

theorem eraseP_of_not_mem {α : Type} {list : List α} {pageOf : α → DesignPageInput}
    {bounded : DesignPageInput} (h : bounded ∉ list.map pageOf)
    (hids : ∀ page ∈ list.map pageOf, page.id = bounded.id → page = bounded) :
    (list.eraseP fun a ↦ (pageOf a).id = bounded.id) = list := by
  refine List.eraseP_of_forall_not fun a ha hid ↦ h ?_
  have hmem := List.mem_map_of_mem (f := pageOf) ha
  exact hids _ hmem (of_decide_eq_true hid) ▸ hmem

/-- The last page changes its place, and the others keep theirs. -/
theorem dropBounded_perm {bounded : DesignPageInput} {chosen : Chosen}
    (hmem : bounded ∈ chosen.pages) (hids : (chosen.pages.map DesignPageInput.id).Nodup) :
    (dropBounded platform bounded chosen).pages.Perm chosen.pages := by
  have hinj : ∀ page ∈ chosen.pages, page.id = bounded.id → page = bounded :=
    fun page hpage ↦ List.inj_on_of_nodup_map hids hpage hmem
  have hdisjoint := List.disjoint_of_nodup_append hids.of_map
  have hselected : ∀ page ∈ chosen.selected.map DesignCandidate.page,
      page.id = bounded.id → page = bounded :=
    fun page hpage ↦ hinj page (List.mem_append_left _ hpage)
  have hrejected : ∀ page ∈ chosen.rejected.map DesignRejection.page,
      page.id = bounded.id → page = bounded :=
    fun page hpage ↦ hinj page (List.mem_append_right _ hpage)
  unfold Chosen.pages dropBounded
  rw [List.map_append]
  rcases List.mem_append.1 hmem with hin | hin
  · rw [eraseP_of_not_mem (hdisjoint hin) hrejected]
    have hperm := eraseP_perm hin hselected
    refine List.Perm.trans ?_ (hperm.append_right _)
    rw [← List.append_assoc]
    exact List.perm_append_singleton _ _
  · rw [eraseP_of_not_mem (fun h ↦ hdisjoint h hin) hselected]
    exact ((List.perm_append_singleton _ _).trans (eraseP_perm hin hrejected)).append_left _

/-- The last page is not selected any more, and the others stay. -/
theorem mem_dropBounded_selected {bounded : DesignPageInput} {chosen : Chosen}
    (hmem : bounded ∈ chosen.pages) (hids : (chosen.pages.map DesignPageInput.id).Nodup) :
    page ∈ (dropBounded platform bounded chosen).selected.map DesignCandidate.page ↔
      page ∈ chosen.selected.map DesignCandidate.page ∧ page ≠ bounded := by
  have hselected : ∀ page ∈ chosen.selected.map DesignCandidate.page,
      page.id = bounded.id → page = bounded :=
    fun page hpage ↦ List.inj_on_of_nodup_map hids (List.mem_append_left _ hpage) hmem
  by_cases hin : bounded ∈ chosen.selected.map DesignCandidate.page
  · have hperm := eraseP_perm hin hselected
    have hnodup := hperm.nodup_iff.2 hids.of_map.of_append_left
    rw [← hperm.mem_iff, List.mem_cons]
    constructor
    · intro hpage
      refine ⟨Or.inr hpage, ?_⟩
      rintro rfl
      exact (List.nodup_cons.1 hnodup).1 hpage
    · rintro ⟨hpage, hne⟩
      exact hpage.resolve_left hne
  · unfold dropBounded
    rw [eraseP_of_not_mem hin hselected]
    refine (and_iff_left_of_imp ?_).symm
    rintro hpage rfl
    exact hin hpage

/-- The duplicates stay, except for the last page. -/
theorem mem_dropBounded_rejected {bounded : DesignPageInput} {chosen : Chosen}
    {rejection : DesignRejection} (hreason : IsDuplicateReason rejection.reason) :
    (rejection ∈ (dropBounded platform bounded chosen).rejected → rejection ∈ chosen.rejected) ∧
      (rejection ∈ chosen.rejected → rejection.page.id ≠ bounded.id →
        rejection ∈ (dropBounded platform bounded chosen).rejected) := by
  unfold dropBounded
  rw [List.mem_append, List.mem_singleton]
  refine ⟨fun hmem ↦ ?_, fun hmem hne ↦ Or.inl ?_⟩
  · rcases hmem with hmem | rfl
    · exact List.mem_of_mem_eraseP hmem
    · exact absurd hreason (show ¬ IsDuplicateReason .budgetLimited by decide)
  · exact (List.mem_eraseP_of_neg (by simpa using hne)).2 hmem

theorem limitChosen_perm {budgetLimited : Bool} {chosen : Chosen}
    (hperm : chosen.pages.Perm ordered) (hids : (ordered.map DesignPageInput.id).Nodup) :
    (limitChosen platform budgetLimited ordered chosen).pages.Perm ordered := by
  unfold limitChosen
  cases hlast : ordered.getLast? with
  | none => exact hperm
  | some bounded =>
    by_cases hlimited : budgetLimited = true ∧ 1 < ordered.length
    · have hmem : bounded ∈ chosen.pages := hperm.mem_iff.2 (List.mem_of_getLast? hlast)
      simp only [if_pos hlimited]
      exact (dropBounded_perm hmem ((hperm.map _).nodup_iff.2 hids)).trans hperm
    · simp only [if_neg hlimited]
      exact hperm

/-- The limit only takes pages from the selected ones. -/
theorem limitChosen_selected (budgetLimited : Bool) (ordered : List DesignPageInput)
    (chosen : Chosen) :
    (limitChosen platform budgetLimited ordered chosen).selected.Sublist chosen.selected := by
  unfold limitChosen
  cases ordered.getLast? with
  | none => exact .refl _
  | some bounded =>
    by_cases hlimited : budgetLimited = true ∧ 1 < ordered.length
    · simp only [if_pos hlimited]
      exact List.eraseP_sublist
    · simp only [if_neg hlimited]
      exact .refl _

/-! ### When nothing is thrown -/

/-- The language values of the page are texts that the language lookup reads. -/
def Legible (platform : Platform) (page : DesignPageInput) : Prop :=
  (normalizeLocale platform (some page.htmlLang)).isSome ∧
    ∀ entry ∈ page.hreflang, (normalizeLocale platform (some entry.language)).isSome

theorem isSome_bind {α β : Type} {a : Option α} {f : α → Option β} (ha : a.isSome)
    (hf : ∀ x, a = some x → (f x).isSome) : (a >>= f).isSome := by
  obtain ⟨x, rfl⟩ := Option.isSome_iff_exists.1 ha
  exact hf x rfl

theorem isSome_normalizeDesignUrl {rawUrl : String} (h : (platform.newUrl rawUrl).isSome) :
    (normalizeDesignUrl platform rawUrl).isSome :=
  isSome_bind h fun _ _ ↦ rfl

theorem isSome_stripQuery {rawUrl : String} (h : (platform.newUrl rawUrl).isSome) :
    (stripQuery platform rawUrl).isSome :=
  isSome_bind h fun _ _ ↦ rfl

theorem IsAscii.of_mem_splitText {separator : Char} {text part : String} (h : IsAscii text)
    (hpart : part ∈ splitText separator text) : IsAscii part := by
  obtain ⟨chars, hchars, rfl⟩ := List.mem_map.1 hpart
  intro c hc
  rw [String.toList_ofList] at hc
  refine h c ?_
  obtain ⟨i, hi⟩ := List.mem_iff_getElem?.1 hchars
  have hpart : chars ∈ (text.toList.splitOn separator).intersperse [separator] :=
    List.mem_of_getElem? (List.getElem?_intersperse_two_mul.trans hi)
  rw [← @List.intercalate_splitOn _ text.toList _ _ separator]
  exact List.mem_flatten.2 ⟨chars, hpart, hc⟩

theorem IsAscii.of_mem_segmentsOf {text segment : String} (h : IsAscii text)
    (hsegment : segment ∈ segmentsOf text) : IsAscii segment :=
  h.of_mem_splitText (List.mem_of_mem_filter hsegment)

theorem isSome_firstText {fallback : String} {texts : List (Option (Option String))}
    (h : ∀ text ∈ texts, text.isSome) : (firstText fallback texts).isSome := by
  induction texts with
  | nil => rfl
  | cons text texts ih =>
    obtain ⟨value, rfl⟩ := Option.isSome_iff_exists.1 (h text List.mem_cons_self)
    cases value with
    | some value => rfl
    | none => exact ih fun text htext ↦ h text (List.mem_cons_of_mem _ htext)

section Total

variable (hlaws : platform.Lawful)

include hlaws

theorem isSome_newUrl_of_normalize {rawUrl normalizedUrl : String}
    (h : normalizeDesignUrl platform rawUrl = some normalizedUrl) :
    (platform.newUrl normalizedUrl).isSome := by
  obtain ⟨url, -, h⟩ := Option.bind_eq_some_iff.1 h
  obtain rfl := Option.some.inj h
  exact hlaws.newUrl_toString _

theorem isSome_isLocale {value : String} (h : IsAscii value) :
    (isLocale platform value).isSome := by
  unfold isLocale
  by_cases htest : platform.test localePattern value = true
  · rw [if_pos htest, Option.isSome_map]
    exact hlaws.languageName_ascii value h htest
  · rw [if_neg htest]
    rfl

theorem isSome_normalizeLocale {value : String} (h : IsAscii value) :
    (normalizeLocale platform (some value)).isSome := by
  have hdashed : IsAscii (String.ofList
      ((platform.trim value).toList.map fun c ↦ if c = '_' then '-' else c)) := by
    intro c hc
    rw [String.toList_ofList] at hc
    obtain ⟨c', hc', rfl⟩ := List.mem_map.1 hc
    by_cases hunderscore : c' = '_'
    · rw [if_pos hunderscore]
      decide
    · rw [if_neg hunderscore]
      exact hlaws.trim_ascii value h c' hc'
  unfold normalizeLocale
  dsimp only
  split_ifs
  · rfl
  · rw [Option.isSome_map]
    exact isSome_isLocale hlaws (hlaws.toLowerCase_ascii _ hdashed)

theorem isSome_localeFromPath (url : platform.Url) : (localeFromPath platform url).isSome := by
  unfold localeFromPath
  cases hfirst : (segmentsOf (platform.pathname url)).head? with
  | none => rfl
  | some first =>
    have hascii : IsAscii first :=
      (hlaws.pathname_ascii url).of_mem_segmentsOf (List.mem_of_head? hfirst)
    refine isSome_bind (isSome_isLocale hlaws hascii) fun known _ ↦ ?_
    cases known with
    | true => exact isSome_normalizeLocale hlaws hascii
    | false => rfl

omit hlaws in
theorem isSome_hreflangLocale (pageUrl : platform.Url) (pageIdentity : String)
    {entries : List Hreflang}
    (h : ∀ entry ∈ entries, (normalizeLocale platform (some entry.language)).isSome) :
    (hreflangLocale platform pageUrl pageIdentity entries).isSome := by
  induction entries with
  | nil => rfl
  | cons entry entries ih =>
    have hrest := ih fun entry hentry ↦ h entry (List.mem_cons_of_mem _ hentry)
    refine isSome_bind (h entry List.mem_cons_self) fun language _ ↦ ?_
    cases language with
    | none => exact hrest
    | some language =>
      dsimp only
      split_ifs
      · rfl
      · exact hrest

theorem isSome_localeFromHreflang (pageUrl : platform.Url) {entries : List Hreflang}
    (h : ∀ entry ∈ entries, (normalizeLocale platform (some entry.language)).isSome) :
    (localeFromHreflang platform pageUrl entries).isSome := by
  refine isSome_bind (isSome_normalizeDesignUrl (hlaws.newUrl_toString pageUrl))
    fun normalized hnormalized ↦ ?_
  refine isSome_bind (isSome_stripQuery (isSome_newUrl_of_normalize hlaws hnormalized))
    fun pageIdentity _ ↦ ?_
  exact isSome_hreflangLocale pageUrl pageIdentity h

theorem isSome_inferPageLocale (url : platform.Url) (h : Legible platform page) :
    (inferPageLocale platform url page).isSome := by
  refine isSome_firstText ?_
  simp only [List.forall_mem_cons, Option.isSome_some, List.not_mem_nil, false_implies,
    implies_true, and_true, true_and]
  exact ⟨isSome_localeFromPath hlaws url, h.1, isSome_localeFromHreflang hlaws url h.2⟩

theorem isSome_inferRootLocale {rootUrl : String} {rootPage : Option DesignPageInput}
    (hroot : (platform.newUrl rootUrl).isSome)
    (h : ∀ page, rootPage = some page → Legible platform page) :
    (inferRootLocale platform rootUrl rootPage).isSome := by
  refine isSome_bind hroot fun url _ ↦ isSome_firstText ?_
  simp only [List.forall_mem_cons, Option.isSome_some, List.not_mem_nil, false_implies,
    implies_true, and_true, true_and]
  refine ⟨isSome_localeFromPath hlaws url, ?_⟩
  cases rootPage with
  | none =>
    exact ⟨rfl, isSome_localeFromHreflang hlaws url fun _ hentry ↦
      absurd hentry List.not_mem_nil⟩
  | some page =>
    exact ⟨(h page rfl).1, isSome_localeFromHreflang hlaws url (h page rfl).2⟩

theorem isSome_classifySemanticRole {rawUrl : String} (h : (platform.newUrl rawUrl).isSome)
    (statusCode : ℤ) (headings : List String) :
    (classifySemanticRole platform rawUrl statusCode headings).isSome := by
  unfold classifySemanticRole
  split_ifs
  · rfl
  · rfl
  refine isSome_bind h fun url _ ↦ ?_
  cases hsegments : segmentsOf (platform.toLowerCase (platform.pathname url)) with
  | nil => rfl
  | cons first rest =>
    have hfirst : (isLocale platform first).isSome := by
      refine isSome_isLocale hlaws ?_
      refine (hlaws.toLowerCase_ascii _ (hlaws.pathname_ascii url)).of_mem_segmentsOf ?_
      rw [hsegments]
      exact List.mem_cons_self
    have hsole : (isSoleLocale platform first rest).isSome := by
      unfold isSoleLocale
      split_ifs
      · exact hfirst
      · rfl
    refine isSome_bind hsole fun sole _ ↦ ?_
    by_cases hhome : sole = true
    · rw [if_pos hhome]
      rfl
    rw [if_neg hhome]
    split
    · rfl
    split
    · rfl
    by_cases hlogin : platform.test loginHeading
        (platform.toLowerCase (String.intercalate " " headings)) = true
    · rw [if_pos hlogin]
      rfl
    rw [if_neg hlogin]
    by_cases hregister : platform.test registerHeading
        (platform.toLowerCase (String.intercalate " " headings)) = true
    · rw [if_pos hregister]
      rfl
    rw [if_neg hregister]
    refine isSome_bind hfirst fun localized _ ↦ ?_
    split_ifs <;> rfl

omit hlaws in
theorem isSome_inferRouteTemplate {rawUrl : String} (h : (platform.newUrl rawUrl).isSome)
    (role : SemanticRole) (locale : String) :
    (inferRouteTemplate platform rawUrl role locale).isSome := by
  unfold inferRouteTemplate
  split
  · rfl
  · rfl
  · exact isSome_bind h fun _ _ ↦ rfl

/-- The canonical URL of a page can be parsed when there is one. -/
theorem isSome_newUrl_canonical {rawCanonical origin canonical : String}
    (h : sameOriginCanonical platform rawCanonical origin = some canonical) :
    (platform.newUrl canonical).isSome := by
  unfold sameOriginCanonical at h
  by_cases hblank : platform.trim rawCanonical = ""
  · rw [if_pos hblank] at h
    exact absurd h (by simp)
  rw [if_neg hblank] at h
  obtain ⟨url, -, h⟩ := Option.bind_eq_some_iff.1 h
  by_cases horigin : platform.origin url = origin
  · rw [if_pos horigin] at h
    exact isSome_newUrl_of_normalize hlaws h
  · rw [if_neg horigin] at h
    exact absurd h (by simp)

theorem isSome_candidateOf {normalizedUrl : String}
    (hurl : (platform.newUrl page.rawUrl).isSome)
    (hnormalized : (platform.newUrl normalizedUrl).isSome) (rootOrigin locale pageLocale : String) :
    (candidateOf platform rootOrigin locale pageLocale normalizedUrl page).isSome := by
  refine isSome_bind (isSome_classifySemanticRole hlaws hnormalized _ _) fun role _ ↦ ?_
  refine isSome_bind (isSome_inferRouteTemplate hnormalized role locale) fun template _ ↦ ?_
  dsimp only
  cases hcanonical : sameOriginCanonical platform page.canonicalUrl rootOrigin with
  | none =>
    refine isSome_bind (isSome_stripQuery hnormalized) fun identity _ ↦ ?_
    refine isSome_bind hurl fun url _ ↦ ?_
    rfl
  | some canonical =>
    have hparsed := isSome_stripQuery (isSome_newUrl_canonical hlaws hcanonical)
    refine isSome_bind hparsed fun identity _ ↦ ?_
    refine isSome_bind hurl fun url _ ↦ ?_
    refine isSome_bind ?_ fun self _ ↦ rfl
    refine isSome_bind hparsed fun left _ ↦ ?_
    exact isSome_bind (isSome_stripQuery hnormalized) fun right _ ↦ rfl

theorem isSome_screen (h : Legible platform page) (rootOrigin locale : String) :
    (screen platform rootOrigin locale page).isSome := by
  unfold screen
  cases hurl : platform.newUrl page.rawUrl with
  | none => rfl
  | some url =>
    have hsome : (platform.newUrl page.rawUrl).isSome := by
      rw [hurl]
      rfl
    dsimp only
    by_cases horigin : platform.protocol url ∉ ["http:", "https:"] ∨
        platform.origin url ≠ rootOrigin
    · rw [if_pos horigin]
      rfl
    rw [if_neg horigin]
    refine isSome_bind (isSome_normalizeDesignUrl hsome) fun normalizedUrl hnormalized ↦ ?_
    by_cases hhtml : ¬ isHtmlPage platform page url = true
    · rw [if_pos hhtml]
      rfl
    rw [if_neg hhtml]
    by_cases hwarning : page.outcome = .warning
    · rw [if_pos hwarning]
      rfl
    rw [if_neg hwarning]
    by_cases hfailed : (page.outcome = .failed ∨ page.statusCode = 0) ∧
        ¬ (400 ≤ page.statusCode ∧ page.statusCode < 600)
    · rw [if_pos hfailed]
      rfl
    rw [if_neg hfailed]
    by_cases hpolicy : isPolicyBlocked platform url = true
    · rw [if_pos hpolicy]
      rfl
    rw [if_neg hpolicy]
    refine isSome_bind (isSome_inferPageLocale hlaws url h) fun pageLocale _ ↦ ?_
    by_cases hlocale : locale ≠ "und" ∧ pageLocale ≠ "und" ∧ pageLocale ≠ locale
    · rw [if_pos hlocale]
      rfl
    rw [if_neg hlocale]
    exact isSome_bind (isSome_candidateOf hlaws hsome
      (isSome_newUrl_of_normalize hlaws hnormalized) rootOrigin locale pageLocale) fun _ _ ↦ rfl

theorem isSome_mapM_screen (h : ∀ page ∈ ordered, Legible platform page)
    (rootOrigin locale : String) :
    (ordered.mapM (screen platform rootOrigin locale)).isSome := by
  induction ordered with
  | nil => rfl
  | cons page ordered ih =>
    rw [List.mapM_cons]
    refine isSome_bind (isSome_screen hlaws (h page List.mem_cons_self) _ _) fun _ _ ↦ ?_
    exact isSome_bind (ih fun page hpage ↦ h page (List.mem_cons_of_mem _ hpage)) fun _ _ ↦ rfl

/-- The choice returns for every root URL that parses and all pages with legible languages. -/
theorem isSome_selectDesignPages {rootUrl : String} {pages : List DesignPageInput}
    (hroot : (platform.newUrl rootUrl).isSome) (h : ∀ page ∈ pages, Legible platform page)
    (budgetLimited : Bool) : (selectDesignPages platform rootUrl pages budgetLimited).isSome := by
  refine isSome_bind (isSome_normalizeDesignUrl hroot) fun normalizedRoot hnormalized ↦ ?_
  have hparsed := isSome_newUrl_of_normalize hlaws hnormalized
  refine isSome_bind hparsed fun root _ ↦ ?_
  have hsorted : ∀ page ∈ sortBy (pageOrder platform) pages, Legible platform page :=
    fun page hpage ↦ h page (mem_sortBy.1 hpage)
  refine isSome_bind (isSome_inferRootLocale hlaws hparsed fun page hpage ↦
    hsorted page (List.mem_of_find?_eq_some hpage)) fun locale _ ↦ ?_
  exact isSome_bind (isSome_mapM_screen hlaws hsorted _ _) fun _ _ ↦ rfl

end Total

/-! ### What a selection consists of -/

theorem mem_candidatesOf_canonicalWinners {candidate : Candidate}
    (h : candidate ∈ canonicalWinners platform screened) : candidate ∈ candidatesOf screened :=
  mem_sortBy.1 (mem_of_mem_elect h)

theorem isUrlOf_safeNormalize (page : DesignPageInput) :
    IsUrlOf platform page (safeNormalize platform page.rawUrl) := by
  unfold safeNormalize
  cases hnormalized : normalizeDesignUrl platform page.rawUrl with
  | none => exact Or.inl rfl
  | some text => exact Or.inr (Or.inr hnormalized)

/-- The origin of the root. -/
def rootOriginOf (platform : Platform) (rootUrl : String) : Option String := do
  let normalizedRoot ← normalizeDesignUrl platform rootUrl
  let root ← platform.newUrl normalizedRoot
  return platform.origin root

/-- The pages as the choice screens them. -/
def screenedPages (platform : Platform) (rootUrl : String) (pages : List DesignPageInput) :
    Option (List (DesignRejection ⊕ Candidate)) := do
  let normalizedRoot ← normalizeDesignUrl platform rootUrl
  let root ← platform.newUrl normalizedRoot
  let ordered := sortBy (pageOrder platform) pages
  let locale ← inferRootLocale platform normalizedRoot
    (ordered.find? fun page ↦ safeNormalize platform page.rawUrl = normalizedRoot)
  ordered.mapM (Design.screen platform (platform.origin root) locale)

/-- The steps of the choice. -/
structure Steps (platform : Platform) (rootUrl : String) (pages : List DesignPageInput)
    (budgetLimited : Bool) (selection : DesignSelection) (rootOrigin : String)
    (screened : List (DesignRejection ⊕ Candidate)) : Prop where
  origin : rootOriginOf platform rootUrl = some rootOrigin
  screenedPages : Design.screenedPages platform rootUrl pages = some screened
  mapM : (sortBy (pageOrder platform) pages).mapM
    (screen platform rootOrigin selection.locale) = some screened
  selected : selection.selected = (limitChosen platform budgetLimited
    (sortBy (pageOrder platform) pages) (chooseWinners platform rootOrigin screened)).selected
  rejected : selection.rejected.Perm (limitChosen platform budgetLimited
    (sortBy (pageOrder platform) pages) (chooseWinners platform rootOrigin screened)).rejected

theorem steps_of_selectDesignPages {rootUrl : String} {pages : List DesignPageInput}
    {budgetLimited : Bool} {selection : DesignSelection}
    (h : selectDesignPages platform rootUrl pages budgetLimited = some selection) :
    ∃ rootOrigin screened,
      Steps platform rootUrl pages budgetLimited selection rootOrigin screened := by
  obtain ⟨normalizedRoot, hnormalized, h⟩ := Option.bind_eq_some_iff.1 h
  obtain ⟨root, hroot, h⟩ := Option.bind_eq_some_iff.1 h
  obtain ⟨locale, hlocale, h⟩ := Option.bind_eq_some_iff.1 h
  obtain ⟨screened, hscreened, h⟩ := Option.bind_eq_some_iff.1 h
  obtain rfl := Option.some.inj h
  refine ⟨platform.origin root, screened, ?_, ?_, hscreened, rfl, sortBy_perm⟩
  · exact Option.bind_eq_some_iff.2 ⟨normalizedRoot, hnormalized,
      Option.bind_eq_some_iff.2 ⟨root, hroot, rfl⟩⟩
  · exact Option.bind_eq_some_iff.2 ⟨normalizedRoot, hnormalized,
      Option.bind_eq_some_iff.2 ⟨root, hroot,
        Option.bind_eq_some_iff.2 ⟨locale, hlocale, hscreened⟩⟩⟩

namespace Steps

variable {rootUrl : String} {pages : List DesignPageInput} {budgetLimited : Bool}
  {selection : DesignSelection}

/-- A page that is selected won both elections. -/
theorem mem_selected (h : Steps platform rootUrl pages budgetLimited selection rootOrigin screened)
    {selected : DesignCandidate} (hmem : selected ∈ selection.selected) :
    ∃ candidate ∈ groupWinners platform screened, candidate.toDesignCandidate = selected := by
  rw [h.selected] at hmem
  have hchosen := (limitChosen_selected _ _ _).subset hmem
  exact List.mem_map.1 ((chooseWinners_selected _ _).mem_iff.1 hchosen)

theorem qualified (h : Steps platform rootUrl pages budgetLimited selection rootOrigin screened)
    {candidate : Candidate} (hmem : candidate ∈ candidatesOf screened) :
    candidate.page ∈ pages ∧ Qualified platform rootOrigin selection.locale candidate := by
  obtain ⟨hpage, hqualified⟩ := candidatesOf_spec h.mapM hmem
  exact ⟨mem_sortBy.1 hpage, hqualified⟩

theorem perm (h : Steps platform rootUrl pages budgetLimited selection rootOrigin screened) :
    ((candidatesOf screened).map (fun candidate ↦ candidate.page) ++
      (rejectionsOf screened).map DesignRejection.page).Perm pages := by
  have hscreened := screened_perm screened
  rw [map_screenedPage h.mapM] at hscreened
  exact hscreened.trans sortBy_perm

/-- The candidates are told apart by their pages. -/
theorem candidate_eq (h : Steps platform rootUrl pages budgetLimited selection rootOrigin screened)
    (hids : Identified platform pages) {left right : Candidate}
    (hleft : left ∈ candidatesOf screened) (hright : right ∈ candidatesOf screened)
    (hpage : left.page = right.page) : left = right :=
  List.inj_on_of_nodup_map ((h.perm.nodup_iff.2 hids.nodup.of_map).of_append_left) hleft hright
    hpage

theorem separates_candidateOrder
    (h : Steps platform rootUrl pages budgetLimited selection rootOrigin screened)
    (hids : Identified platform pages) :
    Separates (candidateOrder platform) (candidatesOf screened) := by
  intro left hleft right hright horder
  obtain ⟨-, -, -, -, -, hcompare⟩ : _ ∧ _ ∧ _ ∧ _ ∧ _ ∧ _ := by
    simpa only [candidateOrder, Ordering.then_eq_eq] using horder
  have hpages := (h.qualified hleft).1
  have hpages' := (h.qualified hright).1
  exact h.candidate_eq hids hleft hright
    (hids.eq hpages hpages' (hids.compared _ hpages _ hpages' hcompare))

/-- A rejection names its page by no URL, a redacted one or the normalised one. -/
theorem isUrlOf (h : Steps platform rootUrl pages budgetLimited selection rootOrigin screened)
    {rejection : DesignRejection} (hmem : rejection ∈ selection.rejected) :
    IsUrlOf platform rejection.page rejection.normalizedUrl := by
  have hchosen : ∀ rejection ∈ (chooseWinners platform rootOrigin screened).rejected,
      IsUrlOf platform rejection.page rejection.normalizedUrl := by
    intro rejection hrejection
    rcases List.mem_append.1 hrejection with hrejection | hrejection
    · rcases List.mem_append.1 hrejection with hrejection | hrejection
      · exact (rejectionsOf_spec h.mapM hrejection).1
      · obtain ⟨candidate, hcandidate, rfl⟩ := List.mem_map.1 hrejection
        exact Or.inr (Or.inr
          (h.qualified (mem_sortBy.1 (mem_of_mem_elect_snd hcandidate))).2.normalizedUrl)
    · obtain ⟨candidate, hcandidate, rfl⟩ := List.mem_map.1 hrejection
      exact Or.inr (Or.inr (h.qualified (mem_candidatesOf_canonicalWinners
        (mem_sortBy.1 (mem_of_mem_elect_snd hcandidate)))).2.normalizedUrl)
  have hmem := h.rejected.mem_iff.1 hmem
  unfold limitChosen at hmem
  split at hmem
  · split_ifs at hmem
    · rcases List.mem_append.1 hmem with hmem | hmem
      · exact hchosen rejection (List.mem_of_mem_eraseP hmem)
      · obtain rfl := List.mem_singleton.1 hmem
        exact isUrlOf_safeNormalize _
    · exact hchosen rejection hmem
  · exact hchosen rejection hmem

/-- What holds between any two winners holds between any two selected pages. -/
theorem pairwise_selected
    (h : Steps platform rootUrl pages budgetLimited selection rootOrigin screened)
    {r : DesignCandidate → DesignCandidate → Prop} (hsymm : ∀ {a b}, r a b → r b a)
    (hwinners : (groupWinners platform screened).Pairwise fun left right ↦
      r left.toDesignCandidate right.toDesignCandidate) : selection.selected.Pairwise r := by
  have hchosen := @chooseWinners_selected platform rootOrigin screened
  rw [h.selected]
  refine List.Pairwise.sublist (limitChosen_selected _ _ _) ?_
  exact (hchosen.pairwise_iff hsymm).2 (List.pairwise_map.2 hwinners)

end Steps

theorem mem_canonicalWinners_of_groupWinners {candidate : Candidate}
    (h : candidate ∈ groupWinners platform screened) :
    candidate ∈ canonicalWinners platform screened :=
  mem_sortBy.1 (mem_of_mem_elect h)

theorem mem_candidatesOf_groupWinners {candidate : Candidate}
    (h : candidate ∈ groupWinners platform screened) : candidate ∈ candidatesOf screened :=
  mem_candidatesOf_canonicalWinners (mem_canonicalWinners_of_groupWinners h)

/-- No two winners of the groups share an identity. -/
theorem groupWinners_identities (platform : Platform)
    (screened : List (DesignRejection ⊕ Candidate)) :
    ((groupWinners platform screened).map Candidate.identity).Nodup := by
  have hcanonical : ((canonicalWinners platform screened).map Candidate.identity).Nodup :=
    elect_nodup _ _
  have hperm := ((elect_perm groupKey (sortBy (candidateOrder platform)
    (canonicalWinners platform screened))).trans sortBy_perm).map Candidate.identity
  have hboth := hperm.nodup_iff.2 hcanonical
  rw [List.map_append] at hboth
  exact hboth.of_append_left

/-- No two winners of the groups share a group. -/
theorem groupWinners_keys (platform : Platform)
    (screened : List (DesignRejection ⊕ Candidate)) :
    ((groupWinners platform screened).map groupKey).Nodup :=
  elect_nodup _ _

/-! ### A platform to run the choice on -/

/-- A URL of `https://example.com`. -/
structure SampleUrl where
  path : String
  query : String
deriving DecidableEq

/-- A URL of another origin does not parse. -/
def SampleUrl.ofText (text : String) : Option SampleUrl :=
  let origin := "https://example.com".toList
  if origin.isPrefixOf text.toList then
    let rest := text.toList.drop origin.length
    let path := rest.takeWhile fun c ↦ c ≠ '?'
    some ⟨String.ofList (if path = [] then ['/'] else path),
      String.ofList (rest.dropWhile fun c ↦ c ≠ '?')⟩
  else none

/-- A serialised URL has no line break. -/
def SampleUrl.text (url : SampleUrl) : String :=
  String.ofList ("https://example.com".toList ++
    (url.path.toList ++ url.query.toList).filter fun c ↦ c ≠ '\n')

/-- URLs of one origin whose queries have no keys, and French as the one language. -/
def Platform.sample : Platform where
  Url := SampleUrl
  newUrl := SampleUrl.ofText
  newUrlFrom text _ := SampleUrl.ofText text
  toString := SampleUrl.text
  protocol _ := "https:"
  origin _ := "https://example.com"
  pathname url := String.ofList (url.path.toList.filter fun c ↦ c.toNat < 128)
  search url := url.query
  setUsername url _ := url
  setPassword url _ := url
  setHash url _ := url
  setPathname url text := { url with path := if text = "" then "/" else text }
  setSearch url text := { url with query := text }
  searchKeys _ := []
  deleteKey url _ := url
  setKey url _ _ := url
  sortKeys url := url
  test pattern text := decide (pattern = localePattern ∧ text = "fr")
  localeCompare left right := compare (codeUnits left) (codeUnits right)
  languageName code := some (if code = "fr" then some "French" else none)
  toLowerCase text := String.ofList (text.toList.map Char.toLower)
  trim text := text

theorem SampleUrl.isSome_ofText (url : SampleUrl) : (SampleUrl.ofText url.text).isSome := by
  unfold SampleUrl.ofText SampleUrl.text
  rw [if_pos]
  · rfl
  · rw [List.isPrefixOf_iff_prefix, String.toList_ofList, String.toList_ofList]
    exact List.prefix_append _ _

theorem toNat_toLower_lt {c : Char} (h : c.toNat < 128) : c.toLower.toNat < 128 := by
  have hall : ∀ n < 128, (Char.ofNat n).toLower.toNat < 128 := by decide +kernel
  have hc := hall c.toNat h
  rwa [Char.ofNat_toNat] at hc

theorem Platform.sample_lawful : Platform.sample.Lawful where
  localeCompare := transCmp_on codeUnits compare
  newUrl_toString := SampleUrl.isSome_ofText
  pathname_ascii url c hc := by
    have hc : c ∈ (String.ofList (url.path.toList.filter fun c ↦ c.toNat < 128)).toList := hc
    rw [String.toList_ofList] at hc
    exact of_decide_eq_true (List.mem_filter.1 hc).2
  toLowerCase_ascii text h c hc := by
    have hc : c ∈ (String.ofList (text.toList.map Char.toLower)).toList := hc
    rw [String.toList_ofList] at hc
    obtain ⟨c', hc', rfl⟩ := List.mem_map.1 hc
    exact toNat_toLower_lt (h c' hc')
  trim_ascii _ h := h
  languageName_ascii _ _ _ := rfl

/-- A page that was fetched and has nothing but its URL. -/
def DesignPageInput.sample (id url : String) : DesignPageInput where
  id
  url
  finalUrl := none
  outcome := .success
  statusCode := 200
  contentType := "text/html"
  canonicalUrl := ""
  htmlLang := ""
  hreflang := []
  h1 := []
  h2 := []
  schemaOrgTypes := []
  scripts := 0
  stylesheets := 0

end WebLens.SiteClone.Design
