import WebLens.SiteClone.Selection

/-!
# The choice of pages is a partition

Every page is selected or rejected, once, whatever the order of the list; the selected pages are
HTML pages of the origin and no two of them stand for the same thing. They have the locale of the
selection, unless that locale is undetermined.
-/

set_option autoImplicit false
set_option relaxedAutoImplicit false

namespace WebLens.SiteClone.Design

variable {platform : Platform}

/-- The role, the route template and the layout hint of a page. -/
def designKey (platform : Platform) (candidate : DesignCandidate) :
    SemanticRole × String × String :=
  (candidate.semanticRole, candidate.routeTemplate, staticLayoutHint platform candidate.page)

/-- A selection shares the pages out, and its selected pages stand for different things. -/
structure Partitions (platform : Platform) (rootUrl : String) (pages : List DesignPageInput)
    (selection : DesignSelection) : Prop where
  once : (selection.selected.map DesignCandidate.page ++
    selection.rejected.map DesignRejection.page).Perm pages
  identities : ∀ rootOrigin, rootOriginOf platform rootUrl = some rootOrigin →
    selection.selected.Pairwise fun left right ↦
      canonicalIdentity platform rootOrigin left ≠ canonicalIdentity platform rootOrigin right
  keys : selection.selected.Pairwise fun left right ↦
    designKey platform left ≠ designKey platform right
  html : ∀ candidate ∈ selection.selected, ∃ rootOrigin,
    rootOriginOf platform rootUrl = some rootOrigin ∧
      IsHtmlOf platform rootOrigin candidate.page
  locale : ∀ candidate ∈ selection.selected,
    candidate.locale = selection.locale ∨ selection.locale = "und"

theorem groupKey_eq {rootOrigin locale : String} {left right : Candidate}
    (hleft : Qualified platform rootOrigin locale left)
    (hright : Qualified platform rootOrigin locale right)
    (h : designKey platform left.toDesignCandidate = designKey platform right.toDesignCandidate) :
    groupKey left = groupKey right := by
  simp only [designKey, Prod.mk.injEq] at h
  obtain ⟨hrole, htemplate, hhint⟩ := h
  unfold groupKey
  rw [hleft.staticHint, hright.staticHint, hrole, htemplate, hhint]

theorem partitions_of_selectDesignPages {rootUrl : String} {pages : List DesignPageInput}
    (hids : Identified platform pages) {budgetLimited : Bool} {selection : DesignSelection}
    (h : selectDesignPages platform rootUrl pages budgetLimited = some selection) :
    Partitions platform rootUrl pages selection := by
  obtain ⟨rootOrigin, screened, hsteps⟩ := steps_of_selectDesignPages h
  have hqualified : ∀ candidate ∈ groupWinners platform screened,
      Qualified platform rootOrigin selection.locale candidate :=
    fun candidate hmem ↦ (hsteps.qualified (mem_candidatesOf_groupWinners hmem)).2
  refine ⟨?_, fun rootOrigin' horigin ↦ ?_, ?_, fun selected hmem ↦ ?_, fun selected hmem ↦ ?_⟩
  · have hordered : (sortBy (pageOrder platform) pages).Perm pages := sortBy_perm
    have hchosen : (chooseWinners platform rootOrigin screened).pages.Perm
        (sortBy (pageOrder platform) pages) :=
      (chooseWinners_perm rootOrigin screened).trans (map_screenedPage hsteps.mapM ▸ .refl _)
    have hlimited := @limitChosen_perm platform _ budgetLimited _ hchosen
      ((hordered.map _).nodup_iff.2 hids.nodup)
    rw [hsteps.selected]
    exact ((hsteps.rejected.map _).append_left _).trans (hlimited.trans hordered)
  · obtain rfl := Option.some.inj (hsteps.origin.symm.trans horigin)
    refine hsteps.pairwise_selected Ne.symm ?_
    refine List.Pairwise.imp_of_mem (fun hleft hright hne hsame ↦ hne ?_)
      (List.pairwise_map.1 (groupWinners_identities platform screened))
    rw [(hqualified _ hleft).identity, (hqualified _ hright).identity] at hsame
    exact Option.some.inj hsame
  · refine hsteps.pairwise_selected Ne.symm ?_
    exact List.Pairwise.imp_of_mem (fun hleft hright hne hsame ↦
      hne (groupKey_eq (hqualified _ hleft) (hqualified _ hright) hsame))
      (List.pairwise_map.1 (groupWinners_keys platform screened))
  · obtain ⟨candidate, hcandidate, rfl⟩ := hsteps.mem_selected hmem
    exact ⟨rootOrigin, hsteps.origin, (hqualified candidate hcandidate).html⟩
  · obtain ⟨candidate, hcandidate, rfl⟩ := hsteps.mem_selected hmem
    exact (hqualified candidate hcandidate).locale

theorem selectDesignPages_perm (hlaws : platform.Lawful) {pages pages' : List DesignPageInput}
    (hids : Identified platform pages) (hperm : pages.Perm pages') (rootUrl : String)
    (budgetLimited : Bool) :
    selectDesignPages platform rootUrl pages' budgetLimited =
      selectDesignPages platform rootUrl pages budgetLimited := by
  have := transCmp_pageOrder hlaws
  unfold selectDesignPages
  rw [sortBy_eq_of_perm hids.separates_pageOrder hperm, hperm.length_eq]

/-- For pages with identifiers of their own, the order of the list does not matter to the choice;
the choice returns when the root URL parses and the languages of the pages can be read; and the
selection it returns shares the pages out. -/
theorem selection_is_partition (platform : Platform) (hlaws : platform.Lawful) (rootUrl : String)
    (pages : List DesignPageInput) (hids : Identified platform pages) (budgetLimited : Bool) :
    (∀ pages', pages.Perm pages' →
      selectDesignPages platform rootUrl pages' budgetLimited =
        selectDesignPages platform rootUrl pages budgetLimited) ∧
    ((platform.newUrl rootUrl).isSome → (∀ page ∈ pages, Legible platform page) →
      (selectDesignPages platform rootUrl pages budgetLimited).isSome) ∧
    ∀ selection, selectDesignPages platform rootUrl pages budgetLimited = some selection →
      Partitions platform rootUrl pages selection := by
  refine ⟨fun pages' hperm ↦ ?_, fun hroot hlegible ↦ ?_, fun selection h ↦ ?_⟩
  · exact selectDesignPages_perm hlaws hids hperm rootUrl budgetLimited
  · exact isSome_selectDesignPages hlaws hroot hlegible budgetLimited
  · exact partitions_of_selectDesignPages hids h

/-- The home page and a page whose path names French. -/
def frenchPages : List DesignPageInput :=
  [.sample "1" "https://example.com/", .sample "2" "https://example.com/fr/about"]

theorem identified_frenchPages : Identified Platform.sample frenchPages :=
  ⟨by decide, by decide +kernel⟩

theorem legible_frenchPages : ∀ page ∈ frenchPages, Legible Platform.sample page := by
  unfold frenchPages Legible
  decide +kernel

theorem selection_is_partition_french :
    selectDesignPages Platform.sample "https://example.com/" frenchPages.reverse false =
        selectDesignPages Platform.sample "https://example.com/" frenchPages false ∧
      (selectDesignPages Platform.sample "https://example.com/" frenchPages false).isSome :=
  have h := selection_is_partition Platform.sample Platform.sample_lawful "https://example.com/"
    frenchPages identified_frenchPages false
  ⟨h.1 _ (List.reverse_perm _).symm, h.2.1 (by decide +kernel) legible_frenchPages⟩

/-- With no locale for the selection, a page of any locale is selected. -/
theorem selected_locale_differs :
    ¬ ∀ selection,
      selectDesignPages Platform.sample "https://example.com/" frenchPages false =
        some selection →
      ∀ candidate ∈ selection.selected, candidate.locale = selection.locale := by
  intro h
  have hrun : (selectDesignPages Platform.sample "https://example.com/" frenchPages false).any
      (fun selection ↦ selection.selected.any fun candidate ↦
        decide (candidate.locale ≠ selection.locale)) = true := by
    decide +kernel
  obtain ⟨selection, hselection, hany⟩ := (Option.any_eq_true _ _).1 hrun
  obtain ⟨candidate, hcandidate, hne⟩ := List.any_eq_true.1 hany
  exact of_decide_eq_true hne (h selection hselection candidate hcandidate)

end WebLens.SiteClone.Design
