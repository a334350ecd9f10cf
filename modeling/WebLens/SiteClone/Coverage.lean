import WebLens.SiteClone.Selection

/-!
# When the duplicates of a selection are represented

A page that is rejected as a duplicate has a representative: the winner of the group of the winner
of its canonical identity. The representative is selected, except when the crawl was limited and
the representative of another page comes last in the order of the pages.
-/

set_option autoImplicit false
set_option relaxedAutoImplicit false

namespace WebLens.SiteClone.Design

open Std

variable {platform : Platform} {rootOrigin : String}
  {screened : List (DesignRejection ⊕ Candidate)}

/-! ### Representatives -/

/-- The winner of the group of the winner of the canonical identity of a candidate. -/
def representative (platform : Platform) (screened : List (DesignRejection ⊕ Candidate))
    (candidate : Candidate) : Option Candidate := do
  let winner ← winnerOf (candidateOrder platform) Candidate.identity (candidatesOf screened)
    candidate
  winnerOf (candidateOrder platform) groupKey (canonicalWinners platform screened) winner

/-- The page has a representative, which is selected. -/
def IsRepresented (platform : Platform) (rootUrl : String) (pages : List DesignPageInput)
    (selection : DesignSelection) (page : DesignPageInput) : Prop :=
  ∃ screened, screenedPages platform rootUrl pages = some screened ∧
    ∃ candidate ∈ candidatesOf screened, candidate.page = page ∧
    ∃ winner, representative platform screened candidate = some winner ∧
      winner.page ∈ selection.selected.map DesignCandidate.page

/-- The best candidate of its identity, and the best such candidate of its group. -/
def IsLeader (platform : Platform) (candidates : List Candidate) (leader : Candidate) : Prop :=
  IsBest (candidateOrder platform) Candidate.identity candidates leader ∧
    ∀ candidate, IsBest (candidateOrder platform) Candidate.identity candidates candidate →
      groupKey candidate = groupKey leader →
      (candidateOrder platform leader candidate).isLE = true

/-- The leader of the group of the best candidate with the identity of a candidate. -/
def StandsFor (platform : Platform) (candidates : List Candidate) (leader candidate : Candidate) :
    Prop :=
  IsLeader platform candidates leader ∧
    ∃ best, IsBest (candidateOrder platform) Candidate.identity candidates best ∧
      best.identity = candidate.identity ∧ groupKey best = groupKey leader

/-- The last page in the order of the pages stands for another page. -/
def LastStandsForAnother (platform : Platform) (rootUrl : String)
    (pages : List DesignPageInput) : Prop :=
  ∃ screened, screenedPages platform rootUrl pages = some screened ∧
    ∃ last ∈ candidatesOf screened,
      (∀ page ∈ pages, (pageOrder platform page last.page).isLE = true) ∧
      ∃ candidate ∈ candidatesOf screened, candidate.page ≠ last.page ∧
        StandsFor platform (candidatesOf screened) last candidate

theorem separates_canonicalWinners
    (hsep : Separates (candidateOrder platform) (candidatesOf screened)) :
    Separates (candidateOrder platform) (canonicalWinners platform screened) :=
  fun a ha b hb ↦ hsep a (mem_candidatesOf_canonicalWinners ha) b
    (mem_candidatesOf_canonicalWinners hb)

section

variable (hlaws : platform.Lawful)
  (hsep : Separates (candidateOrder platform) (candidatesOf screened))

include hlaws hsep

theorem mem_canonicalWinners {candidate : Candidate} :
    candidate ∈ canonicalWinners platform screened ↔
      IsBest (candidateOrder platform) Candidate.identity (candidatesOf screened) candidate := by
  have := transCmp_candidateOrder hlaws
  exact mem_elect_sortBy hsep

theorem isLeader_iff {candidate : Candidate} :
    IsLeader platform (candidatesOf screened) candidate ↔
      IsBest (candidateOrder platform) groupKey (canonicalWinners platform screened) candidate := by
  unfold IsLeader
  rw [← mem_canonicalWinners hlaws hsep]
  refine and_congr_right fun _ ↦ forall_congr' fun other ↦ ?_
  rw [mem_canonicalWinners hlaws hsep]

theorem mem_groupWinners {candidate : Candidate} :
    candidate ∈ groupWinners platform screened ↔
      IsLeader platform (candidatesOf screened) candidate := by
  have := transCmp_candidateOrder hlaws
  rw [isLeader_iff hlaws hsep]
  exact mem_elect_sortBy (separates_canonicalWinners hsep)

/-- The representative of a candidate is the one that stands for it. -/
theorem representative_eq_some {candidate winner : Candidate} :
    representative platform screened candidate = some winner ↔
      StandsFor platform (candidatesOf screened) winner candidate := by
  have := transCmp_candidateOrder hlaws
  have hgroup : ∀ best, winnerOf (candidateOrder platform) groupKey
      (canonicalWinners platform screened) best = some winner ↔
      IsLeader platform (candidatesOf screened) winner ∧ groupKey winner = groupKey best := by
    intro best
    rw [isLeader_iff hlaws hsep]
    exact winnerOf_eq_some (separates_canonicalWinners hsep)
  unfold representative StandsFor
  rw [Option.bind_eq_bind, Option.bind_eq_some_iff]
  constructor
  · rintro ⟨best, hbest, hwinner⟩
    obtain ⟨hbest, hidentity⟩ := (winnerOf_eq_some hsep).1 hbest
    obtain ⟨hleader, hkey⟩ := (hgroup best).1 hwinner
    exact ⟨hleader, best, hbest, hidentity, hkey.symm⟩
  · rintro ⟨hleader, best, hbest, hidentity, hkey⟩
    exact ⟨best, (winnerOf_eq_some hsep).2 ⟨hbest, hidentity⟩,
      (hgroup best).2 ⟨hleader, hkey.symm⟩⟩

theorem exists_representative {candidate : Candidate} (h : candidate ∈ candidatesOf screened) :
    ∃ winner, StandsFor platform (candidatesOf screened) winner candidate := by
  have := transCmp_candidateOrder hlaws
  obtain ⟨best, hbest⟩ := exists_winnerOf (candidateOrder platform) Candidate.identity h
  obtain ⟨hbest, hidentity⟩ := (winnerOf_eq_some hsep).1 hbest
  obtain ⟨winner, hwinner⟩ := exists_winnerOf (candidateOrder platform) groupKey
    ((mem_canonicalWinners hlaws hsep).2 hbest)
  obtain ⟨hwinner, hkey⟩ := (winnerOf_eq_some (separates_canonicalWinners hsep)).1 hwinner
  exact ⟨winner, (isLeader_iff hlaws hsep).2 hwinner, best, hbest, hidentity, hkey.symm⟩

end

/-- One candidate stands for a candidate. -/
theorem StandsFor.eq (hlaws : platform.Lawful) {candidates : List Candidate}
    (hsep : Separates (candidateOrder platform) candidates) {winner winner' candidate : Candidate}
    (h : StandsFor platform candidates winner candidate)
    (h' : StandsFor platform candidates winner' candidate) : winner = winner' := by
  have := transCmp_candidateOrder hlaws
  obtain ⟨hleader, best, hbest, hidentity, hkey⟩ := h
  obtain ⟨hleader', best', hbest', hidentity', hkey'⟩ := h'
  obtain rfl := hbest.eq hsep hbest' (hidentity.trans hidentity'.symm)
  have hsame := hkey.symm.trans hkey'
  exact hsep.eq_of_isLE hleader.1.1 hleader'.1.1 (hleader.2 _ hleader'.1 hsame.symm)
    (hleader'.2 _ hleader.1 hsame)

theorem IsLeader.standsFor {candidates : List Candidate} {candidate : Candidate}
    (h : IsLeader platform candidates candidate) :
    StandsFor platform candidates candidate candidate :=
  ⟨h, candidate, h.1, rfl, rfl⟩

/-! ### The duplicates -/

theorem isDuplicateReason_canonicalRejection (rootOrigin : String) (candidate : Candidate) :
    IsDuplicateReason (canonicalRejection platform rootOrigin candidate).reason := by
  unfold canonicalRejection
  cases sameOriginCanonical platform candidate.page.canonicalUrl rootOrigin with
  | none => exact Or.inr (Or.inl rfl)
  | some canonical => exact Or.inl rfl

/-- The duplicates before the limit are the candidates that lead no group. -/
theorem exists_duplicate_iff (hnodup : (candidatesOf screened).Nodup)
    (hrejections : ∀ rejection ∈ rejectionsOf screened, ¬ IsDuplicateReason rejection.reason)
    {page : DesignPageInput} :
    (∃ rejection ∈ (chooseWinners platform rootOrigin screened).rejected,
      rejection.page = page ∧ IsDuplicateReason rejection.reason) ↔
    ∃ candidate ∈ candidatesOf screened, candidate.page = page ∧
      candidate ∉ groupWinners platform screened := by
  have hsorted : (sortBy (candidateOrder platform) (candidatesOf screened)).Nodup :=
    sortBy_perm.nodup_iff.2 hnodup
  have hsorted' : (sortBy (candidateOrder platform)
      (canonicalWinners platform screened)).Nodup :=
    sortBy_perm.nodup_iff.2
      (((elect_perm Candidate.identity _).nodup_iff.2 hsorted).of_append_left)
  constructor
  · rintro ⟨rejection, hmem, hpage, hreason⟩
    rcases List.mem_append.1 hmem with hmem | hmem
    · rcases List.mem_append.1 hmem with hmem | hmem
      · exact absurd hreason (hrejections rejection hmem)
      · obtain ⟨candidate, hloser, rfl⟩ := List.mem_map.1 hmem
        exact ⟨candidate, mem_sortBy.1 (mem_of_mem_elect_snd hloser), hpage,
          fun hwinner ↦ disjoint_elect hsorted (mem_canonicalWinners_of_groupWinners hwinner)
            hloser⟩
    · obtain ⟨candidate, hloser, rfl⟩ := List.mem_map.1 hmem
      exact ⟨candidate, mem_candidatesOf_canonicalWinners
        (mem_sortBy.1 (mem_of_mem_elect_snd hloser)), hpage,
        fun hwinner ↦ disjoint_elect hsorted' hwinner hloser⟩
  · rintro ⟨candidate, hcandidate, hpage, hnot⟩
    have hmem : candidate ∈ sortBy (candidateOrder platform) (candidatesOf screened) :=
      mem_sortBy.2 hcandidate
    rcases mem_elect_or_snd Candidate.identity hmem with hmem | hmem
    · have hmem : candidate ∈ sortBy (candidateOrder platform)
          (canonicalWinners platform screened) := mem_sortBy.2 hmem
      have hloser := (mem_elect_or_snd groupKey hmem).resolve_left hnot
      exact ⟨groupRejection candidate, List.mem_append_right _ (List.mem_map_of_mem hloser), hpage,
        Or.inr (Or.inr rfl)⟩
    · exact ⟨canonicalRejection platform rootOrigin candidate,
        List.mem_append_left _ (List.mem_append_right _ (List.mem_map_of_mem hmem)), hpage,
        isDuplicateReason_canonicalRejection rootOrigin candidate⟩

/-! ### The selection -/

/-- The duplicates among the candidates and the pages of the winners, before the limit. -/
theorem mem_chooseWinners_selected {page : DesignPageInput} :
    page ∈ (chooseWinners platform rootOrigin screened).selected.map DesignCandidate.page ↔
      ∃ winner ∈ groupWinners platform screened, winner.page = page := by
  rw [((chooseWinners_selected rootOrigin screened).map _).mem_iff, List.map_map, List.mem_map]
  rfl

section

variable {rootUrl : String} {pages : List DesignPageInput} {budgetLimited : Bool}
  {selection : DesignSelection}

theorem isRepresented_iff (hlaws : platform.Lawful) (hids : Identified platform pages)
    (hsteps : Steps platform rootUrl pages budgetLimited selection rootOrigin screened)
    {candidate winner : Candidate} (hcandidate : candidate ∈ candidatesOf screened)
    (hstands : StandsFor platform (candidatesOf screened) winner candidate) :
    IsRepresented platform rootUrl pages selection candidate.page ↔
      winner.page ∈ selection.selected.map DesignCandidate.page := by
  have hsep := hsteps.separates_candidateOrder hids
  constructor
  · rintro ⟨screened', hscreened', candidate', hcandidate', hpage, winner', hwinner', hmem⟩
    obtain rfl := Option.some.inj (hsteps.screenedPages.symm.trans hscreened')
    obtain rfl := hsteps.candidate_eq hids hcandidate' hcandidate hpage
    rwa [hstands.eq hlaws hsep ((representative_eq_some hlaws hsep).1 hwinner')]
  · intro hmem
    exact ⟨screened, hsteps.screenedPages, candidate, hcandidate, rfl, winner,
      (representative_eq_some hlaws hsep).2 hstands, hmem⟩

theorem nodup_candidatesOf (hids : Identified platform pages)
    (hsteps : Steps platform rootUrl pages budgetLimited selection rootOrigin screened) :
    (candidatesOf screened).Nodup :=
  ((hsteps.perm.nodup_iff.2 hids.nodup.of_map).of_append_left).of_map

/-- Before the limit, the representative of every candidate is selected. -/
theorem exists_standsFor (hlaws : platform.Lawful) (hids : Identified platform pages)
    (hsteps : Steps platform rootUrl pages budgetLimited selection rootOrigin screened)
    {candidate : Candidate} (hcandidate : candidate ∈ candidatesOf screened) :
    ∃ winner ∈ groupWinners platform screened,
      StandsFor platform (candidatesOf screened) winner candidate := by
  have hsep := hsteps.separates_candidateOrder hids
  obtain ⟨winner, hwinner⟩ := exists_representative hlaws hsep hcandidate
  exact ⟨winner, (mem_groupWinners hlaws hsep).2 hwinner.1, hwinner⟩

/-- Without a limit, each duplicate is represented. -/
theorem represented_of_not_limited (hlaws : platform.Lawful) (hids : Identified platform pages)
    (hsteps : Steps platform rootUrl pages budgetLimited selection rootOrigin screened)
    (hlimit : ¬ (budgetLimited = true ∧ 1 < pages.length)) {rejection : DesignRejection}
    (hrejection : rejection ∈ selection.rejected) (hreason : IsDuplicateReason rejection.reason) :
    IsRepresented platform rootUrl pages selection rejection.page := by
  have hsame : limitChosen platform budgetLimited (sortBy (pageOrder platform) pages)
      (chooseWinners platform rootOrigin screened) =
        chooseWinners platform rootOrigin screened := by
    have hlength : (sortBy (pageOrder platform) pages).length = pages.length :=
      sortBy_perm.length_eq
    unfold limitChosen
    split
    · rw [hlength, if_neg hlimit]
    · rfl
  have hmem := hsteps.rejected.mem_iff.1 hrejection
  rw [hsame] at hmem
  obtain ⟨candidate, hcandidate, hpage, -⟩ :=
    (exists_duplicate_iff (nodup_candidatesOf hids hsteps) fun _ hmem ↦
      (rejectionsOf_spec hsteps.mapM hmem).2).1 ⟨rejection, hmem, rfl, hreason⟩
  obtain ⟨winner, hwinner, hstands⟩ := exists_standsFor hlaws hids hsteps hcandidate
  rw [← hpage, isRepresented_iff hlaws hids hsteps hcandidate hstands, hsteps.selected, hsame]
  exact mem_chooseWinners_selected.2 ⟨winner, hwinner, rfl⟩

/-- With a limit, each duplicate is represented exactly when the last page stands for no other. -/
theorem represented_iff_of_limited (hlaws : platform.Lawful) (hids : Identified platform pages)
    (hsteps : Steps platform rootUrl pages budgetLimited selection rootOrigin screened)
    (hlimit : budgetLimited = true ∧ 1 < pages.length) :
    (∀ rejection ∈ selection.rejected, IsDuplicateReason rejection.reason →
      IsRepresented platform rootUrl pages selection rejection.page) ↔
    ¬ LastStandsForAnother platform rootUrl pages := by
  have := transCmp_pageOrder hlaws
  have hsep := hsteps.separates_candidateOrder hids
  have hduplicate := @exists_duplicate_iff platform rootOrigin screened
    (nodup_candidatesOf hids hsteps) fun _ hmem ↦ (rejectionsOf_spec hsteps.mapM hmem).2
  have hperm : (sortBy (pageOrder platform) pages).Perm pages := sortBy_perm
  obtain ⟨bounded, hbounded⟩ : ∃ bounded,
      (sortBy (pageOrder platform) pages).getLast? = some bounded := by
    rw [← Option.isSome_iff_exists, List.getLast?_isSome]
    intro hnil
    have hlength := hperm.length_eq
    rw [hnil, List.length_nil] at hlength
    omega
  have hlast : ∀ page, (page ∈ pages ∧ ∀ other ∈ pages, (pageOrder platform other page).isLE) ↔
      bounded = page := by
    intro page
    rw [← getLast?_sortBy hids.separates_pageOrder, hbounded, Option.some.injEq]
  have hsame : limitChosen platform budgetLimited (sortBy (pageOrder platform) pages)
      (chooseWinners platform rootOrigin screened) =
        dropBounded platform bounded (chooseWinners platform rootOrigin screened) := by
    unfold limitChosen
    rw [hbounded]
    simp only [hperm.length_eq, if_pos hlimit]
  have hselected := hsteps.selected
  have hrejected := hsteps.rejected
  rw [hsame] at hselected hrejected
  have hpages : (chooseWinners platform rootOrigin screened).pages.Perm pages := by
    have hchosen := @chooseWinners_perm platform rootOrigin screened
    rw [map_screenedPage hsteps.mapM] at hchosen
    exact hchosen.trans hperm
  have hmember : bounded ∈ pages := ((hlast bounded).2 rfl).1
  have hdrop : ∀ page, page ∈ selection.selected.map DesignCandidate.page ↔
      (∃ winner ∈ groupWinners platform screened, winner.page = page) ∧ page ≠ bounded := by
    intro page
    rw [hselected, mem_dropBounded_selected (hpages.mem_iff.2 hmember)
      ((hpages.map _).nodup_iff.2 hids.nodup), mem_chooseWinners_selected]
  constructor
  · rintro hall ⟨screened', hscreened', last, hin, hgreatest, candidate, hcandidate, hne, hstands⟩
    obtain rfl := Option.some.inj (hsteps.screenedPages.symm.trans hscreened')
    obtain rfl := (hlast last.page).1 ⟨(hsteps.qualified hin).1, hgreatest⟩
    -- the candidate leads no group: it would stand for itself
    have hnot : candidate ∉ groupWinners platform screened := by
      intro hwinner
      have hself := ((mem_groupWinners hlaws hsep).1 hwinner).standsFor
      exact hne (congrArg (fun c : Candidate ↦ c.page) (hself.eq hlaws hsep hstands))
    obtain ⟨rejection, hrejection, hpage, hreason⟩ :=
      hduplicate.2 ⟨candidate, hcandidate, rfl, hnot⟩
    have hid : rejection.page.id ≠ last.page.id := by
      rw [hpage]
      exact fun hid ↦ hne (hids.eq (hsteps.qualified hcandidate).1 hmember hid)
    have hrepresented := hall rejection
      (hrejected.mem_iff.2 ((mem_dropBounded_rejected hreason).2 hrejection hid)) hreason
    rw [hpage, isRepresented_iff hlaws hids hsteps hcandidate hstands] at hrepresented
    exact ((hdrop _).1 hrepresented).2 rfl
  · intro hnone rejection hrejection hreason
    have hmem := (mem_dropBounded_rejected hreason).1 (hrejected.mem_iff.1 hrejection)
    obtain ⟨candidate, hcandidate, hpage, hnot⟩ := hduplicate.1 ⟨rejection, hmem, rfl, hreason⟩
    obtain ⟨winner, hwinner, hstands⟩ := exists_standsFor hlaws hids hsteps hcandidate
    rw [← hpage, isRepresented_iff hlaws hids hsteps hcandidate hstands, hdrop]
    refine ⟨⟨winner, hwinner, rfl⟩, fun hlastPage ↦ hnone ?_⟩
    refine ⟨screened, hsteps.screenedPages, winner, mem_candidatesOf_groupWinners hwinner,
      ((hlast winner.page).2 hlastPage.symm).2, candidate, hcandidate, ?_, hstands⟩
    intro hsamePage
    have hsameCandidate := hsteps.candidate_eq hids hcandidate
      (mem_candidatesOf_groupWinners hwinner) hsamePage
    exact hnot (hsameCandidate ▸ hwinner)

end

/-- A selection represents each duplicate that it rejects exactly when the crawl was not limited,
or there is one page only, or the last page stands for no other page. -/
theorem duplicates_represented_iff (platform : Platform) (hlaws : platform.Lawful)
    (rootUrl : String) (pages : List DesignPageInput) (hids : Identified platform pages)
    (budgetLimited : Bool) (selection : DesignSelection)
    (h : selectDesignPages platform rootUrl pages budgetLimited = some selection) :
    (∀ rejection ∈ selection.rejected, IsDuplicateReason rejection.reason →
      IsRepresented platform rootUrl pages selection rejection.page) ↔
    ¬ (budgetLimited = true ∧ 1 < pages.length ∧
      LastStandsForAnother platform rootUrl pages) := by
  obtain ⟨rootOrigin, screened, hsteps⟩ := steps_of_selectDesignPages h
  by_cases hlimit : budgetLimited = true ∧ 1 < pages.length
  · rw [represented_iff_of_limited hlaws hids hsteps hlimit, ← and_assoc, and_iff_right hlimit]
  · refine iff_of_true (fun rejection ↦ represented_of_not_limited hlaws hids hsteps hlimit)
      fun hbad ↦ hlimit ⟨hbad.1, hbad.2.1⟩

/-- Two blog posts of one layout, the shorter one last. -/
def blogPages : List DesignPageInput :=
  [.sample "1" "https://example.com/blog/a-first-post", .sample "2" "https://example.com/blog/b"]

theorem identified_blogPages : Identified Platform.sample blogPages :=
  ⟨by decide, by decide +kernel⟩

theorem isSome_blogPages :
    (selectDesignPages Platform.sample "https://example.com/" blogPages true).isSome := by
  decide +kernel

theorem duplicates_represented_iff_blog :
    (∀ rejection ∈ ((selectDesignPages Platform.sample "https://example.com/" blogPages true).get
        isSome_blogPages).rejected, IsDuplicateReason rejection.reason →
      IsRepresented Platform.sample "https://example.com/" blogPages
        ((selectDesignPages Platform.sample "https://example.com/" blogPages true).get
          isSome_blogPages) rejection.page) ↔
    ¬ (true = true ∧ 1 < blogPages.length ∧
      LastStandsForAnother Platform.sample "https://example.com/" blogPages) :=
  duplicates_represented_iff Platform.sample Platform.sample_lawful "https://example.com/"
    blogPages identified_blogPages true _ (Option.some_get isSome_blogPages).symm

/-- Of the two blog posts, one is rejected as a duplicate of the other, and the other makes way for
the entry of the limit: nothing is selected. -/
theorem duplicate_unrepresented :
    ¬ ∀ selection,
      selectDesignPages Platform.sample "https://example.com/" blogPages true = some selection →
      ∀ rejection ∈ selection.rejected, IsDuplicateReason rejection.reason →
        IsRepresented Platform.sample "https://example.com/" blogPages selection
          rejection.page := by
  intro h
  have hrun : (selectDesignPages Platform.sample "https://example.com/" blogPages true).any
      (fun selection ↦ selection.selected.isEmpty && selection.rejected.any fun rejection ↦
        decide (IsDuplicateReason rejection.reason)) = true := by
    decide +kernel
  obtain ⟨selection, hselection, hboth⟩ := (Option.any_eq_true _ _).1 hrun
  obtain ⟨hempty, hany⟩ := (Bool.and_eq_true _ _).mp hboth
  obtain ⟨rejection, hrejection, hreason⟩ := List.any_eq_true.1 hany
  obtain ⟨screened, -, candidate, -, -, winner, -, hmem⟩ :=
    h selection hselection rejection hrejection (of_decide_eq_true hreason)
  rw [List.isEmpty_iff.1 hempty] at hmem
  exact List.not_mem_nil hmem

end WebLens.SiteClone.Design
