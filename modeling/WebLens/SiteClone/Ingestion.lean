import WebLens.SiteClone.Partition
import WebLens.SiteClone.Store

/-!
# The targets of a site clone

What ingestion makes of the pages of a scan: a target for each page that was selected or rejected,
or the root URL alone when none was selected, and the rows that the targets become. When the URLs
of the pages parse and no two selected pages have the same URL, each target gets a row of its own.

SHA-256 and the reading of an identifier are parameters like the platform.
-/

set_option autoImplicit false
set_option relaxedAutoImplicit false

namespace WebLens.SiteClone.Design

open Capture (Uuid Instant)
open Lib.Utf8 (ByteString ofText ofText_injective)

/-- The platform, the hash function and the database's reading of an identifier. -/
structure Ingestion where
  platform : Platform
  sha256 : ByteString → ByteString
  readUuid : String → Uuid

/-! ### URLs and paths of targets -/

section

variable (platform : Platform)

def normalizeRawUrl (rawUrl : String) : Option String := do
  let url ← platform.newUrl rawUrl
  let url := platform.setUsername url ""
  let url := platform.setPassword url ""
  let url := platform.setHash url ""
  let pathname := platform.pathname url
  let url := if 1 < textLength pathname then
    platform.setPathname url (dropTrailingSlashes pathname) else url
  return platform.toString url

/-- The path of a page with an identifier that has no slash. -/
def sitePagePath (rootUrl targetUrl pageId : String) : Option String := do
  let root ← normalizeRawUrl platform rootUrl
  let target ← normalizeRawUrl platform targetUrl
  return if root = target then "index.html" else "pages/" ++ pageId ++ ".html"

/-- The URL that the database keeps, without its query; a serialised URL is ASCII. -/
def sanitizeForDatabase (rawUrl : String) : Option String := do
  let url ← platform.newUrl rawUrl
  let url := platform.setUsername url ""
  let url := platform.setPassword url ""
  let url := platform.setHash url ""
  let url := platform.setSearch url ""
  return String.ofList ((platform.toString url).toList.take 8192)

end

namespace Ingestion

variable (env : Ingestion)

def rawUrlHash (rawUrl : String) : Option ByteString :=
  (normalizeRawUrl env.platform rawUrl).map fun url ↦ env.sha256 (ofText url)

/-! ### Targets -/

/-- What a turn of a loop knows of a target before it looks at the paths that are taken: its first
path, and the path for the ordinal when the first one is taken. -/
structure Entry where
  pageId : Uuid
  firstPath : String
  otherPath : ℕ → String
  publicUrl : String
  urlSha256 : ByteString
  rejection : Option DesignRejectionReason

/-- The root URL, when no page is selected. -/
def rootEntry (rootUrl : String) (jobId : Uuid) : Option Entry := do
  let firstPath ← sitePagePath env.platform rootUrl rootUrl ""
  let publicUrl ← sanitizeForDatabase env.platform rootUrl
  let urlSha256 ← env.rawUrlHash rootUrl
  return {
    pageId := jobId
    firstPath
    otherPath := fun _ ↦ firstPath
    publicUrl
    urlSha256
    rejection := none }

/-- The turn of the loop over the selected pages. -/
def selectedEntry (rootUrl : String) (candidate : DesignCandidate) : Option Entry := do
  let firstPath ← sitePagePath env.platform rootUrl candidate.normalizedUrl candidate.page.id
  let publicUrl ← sanitizeForDatabase env.platform candidate.normalizedUrl
  let urlSha256 ← env.rawUrlHash candidate.normalizedUrl
  return {
    pageId := env.readUuid candidate.page.id
    firstPath
    otherPath := fun ordinal ↦
      "pages/" ++ candidate.page.id ++ "-" ++ ToString.toString ordinal ++ ".html"
    publicUrl
    urlSha256
    rejection := none }

/-- `rejection.normalizedUrl || rejection.page.finalUrl || rejection.page.url`. -/
def rejectionUrl (rejection : DesignRejection) : String :=
  if rejection.normalizedUrl = "" then rejection.page.rawUrl else rejection.normalizedUrl

/-- The turn of the loop over the rejected pages. -/
def rejectedEntry (rejection : DesignRejection) : Option Entry := do
  let publicUrl ← sanitizeForDatabase env.platform (rejectionUrl rejection)
  return {
    pageId := env.readUuid rejection.page.id
    firstPath := "rejected/" ++ rejection.page.id ++ ".html"
    otherPath := fun ordinal ↦
      "rejected/" ++ rejection.page.id ++ "-" ++ ToString.toString ordinal ++ ".html"
    publicUrl
    urlSha256 := env.sha256 (ofText (rejectionUrl rejection ++ "\n" ++ rejection.page.id))
    rejection := some rejection.reason }

/-- The targets so far and the paths that are taken; the next ordinal is their number. -/
structure Building where
  seenPaths : List String
  targets : List SiteTargetInput

/-- A path that is not taken, ignoring case. The loop tries the same path again and again once the
first one is taken, and does not end when that one is taken as well. -/
def freshPath (seenPaths : List String) (firstPath otherPath : String) : Option String :=
  if env.platform.toLowerCase firstPath ∉ seenPaths then some firstPath
  else if env.platform.toLowerCase otherPath ∉ seenPaths then some otherPath
  else none

/-- The target of an entry. -/
def Entry.target (entry : Entry) (localPath : String) (ordinal : ℕ) : SiteTargetInput where
  pageId := entry.pageId
  ordinal
  publicUrl := entry.publicUrl
  urlSha256 := entry.urlSha256
  localPath
  rejection := entry.rejection

def addEntry (building : Building) (entry : Entry) : Option Building := do
  let ordinal := building.targets.length
  let localPath ← env.freshPath building.seenPaths entry.firstPath (entry.otherPath ordinal)
  return {
    seenPaths := building.seenPaths ++ [env.platform.toLowerCase localPath]
    targets := building.targets ++ [entry.target localPath ordinal] }

/-- The entries in the order of the loops: the rejected pages only when a page was selected. -/
def entriesOf (rootUrl : String) (jobId : Uuid) (selection : DesignSelection) :
    Option (List Entry) :=
  if selection.selected = [] then (env.rootEntry rootUrl jobId).map fun entry ↦ [entry]
  else do
    let selected ← selection.selected.mapM (env.selectedEntry rootUrl)
    let rejected ← selection.rejected.mapM env.rejectedEntry
    return selected ++ rejected

def buildTargets (rootUrl : String) (jobId : Uuid) (selection : DesignSelection) :
    Option (List SiteTargetInput) := do
  let entries ← env.entriesOf rootUrl jobId selection
  let building ← entries.foldlM env.addEntry ⟨[], []⟩
  return building.targets

/-- The targets that ingestion makes of the pages of a scan. -/
def ingestionTargets (rootUrl : String) (jobId : Uuid) (pages : List DesignPageInput)
    (reachedLimit : Bool) : Option (List SiteTargetInput) := do
  let selection ← selectDesignPages env.platform rootUrl pages reachedLimit
  env.buildTargets rootUrl jobId selection

/-- The targets by 250, in the order in which `addTargets` gets them. -/
def targetBatches (targets : List SiteTargetInput) : List (List SiteTargetInput) :=
  (List.range ((targets.length + 249) / 250)).map fun i ↦ (targets.drop (250 * i)).take 250

/-- The clone after `addTargets` for every batch, each at its own time. -/
def storeBatches (times : ℕ → Instant) (batches : List (List SiteTargetInput)) (c : Clone) :
    Clone :=
  batches.zipIdx.foldl (fun c entry ↦ c.addTargets (times entry.2) entry.1) c

/-! ### What the platform and the caller document -/

/-- A character of an identifier or of the paths that are built of it. -/
def IsPathChar (c : Char) : Prop :=
  c ∈ "0123456789abcdefghijklmnopqrstuvwxyz-./".toList

/-- The text of an identifier: 36 digits, small letters and dashes. -/
def IsUuidText (text : String) : Prop :=
  text.toList.length = 36 ∧ ∀ c ∈ text.toList, c ∈ "0123456789abcdef-".toList

/-- A property of the characters of a text, decided one character after the other. -/
theorem forall_chars {p : Char → Prop} [DecidablePred p] {chars : List Char}
    (h : (chars.all fun c ↦ decide (p c)) = true) : ∀ c ∈ chars, p c := by
  intro c hc
  exact of_decide_eq_true (List.all_eq_true.1 h c hc)

instance decidableIsPathChar (c : Char) : Decidable (IsPathChar c) := by
  unfold IsPathChar
  infer_instance

/-- The laws of the platform, and the hash function taken as injective. -/
structure Lawful (env : Ingestion) : Prop where
  platform : env.platform.Lawful
  newline_not_mem : ∀ url, '\n' ∉ (env.platform.toString url).toList
  toLowerCase_path : ∀ text : String, (∀ c ∈ text.toList, IsPathChar c) →
    env.platform.toLowerCase text = text
  sha256_injective : Function.Injective env.sha256
  readUuid_injective : ∀ a b, IsUuidText a → IsUuidText b → env.readUuid a = env.readUuid b →
    a = b

variable {env}

/-! ### Targets that are built -/

/-- When the first paths are not taken, every entry becomes a target with its first path. -/
theorem foldlM_addEntry {entries : List Entry} {building : Building}
    (hnodup : (entries.map fun entry ↦ env.platform.toLowerCase entry.firstPath).Nodup)
    (hfresh : ∀ entry ∈ entries,
      env.platform.toLowerCase entry.firstPath ∉ building.seenPaths) :
    ∃ building', entries.foldlM env.addEntry building = some building' ∧
      building'.targets = building.targets ++
        (entries.zipIdx building.targets.length).map fun entry ↦
          entry.1.target entry.1.firstPath entry.2 := by
  induction entries generalizing building with
  | nil => exact ⟨building, rfl, (List.append_nil _).symm⟩
  | cons entry entries ih =>
    obtain ⟨hnot, hnodup⟩ := List.nodup_cons.1 hnodup
    have hadd : env.addEntry building entry = some
        { seenPaths := building.seenPaths ++ [env.platform.toLowerCase entry.firstPath]
          targets := building.targets ++
            [entry.target entry.firstPath building.targets.length] } := by
      have hpath : env.freshPath building.seenPaths entry.firstPath
          (entry.otherPath building.targets.length) = some entry.firstPath :=
        if_pos (hfresh entry List.mem_cons_self)
      unfold addEntry
      dsimp only
      rw [hpath]
      rfl
    have hfresh' : ∀ other ∈ entries, env.platform.toLowerCase other.firstPath ∉
        building.seenPaths ++ [env.platform.toLowerCase entry.firstPath] := by
      intro other hother hmem
      rcases List.mem_append.1 hmem with hmem | hmem
      · exact hfresh other (List.mem_cons_of_mem _ hother) hmem
      · refine hnot (List.mem_map.2 ⟨other, hother, ?_⟩)
        exact List.mem_singleton.1 hmem
    obtain ⟨building', hbuilding', htargets⟩ := @ih
      { seenPaths := building.seenPaths ++ [env.platform.toLowerCase entry.firstPath]
        targets := building.targets ++
          [entry.target entry.firstPath building.targets.length] } hnodup hfresh'
    refine ⟨building', ?_, ?_⟩
    · rw [List.foldlM_cons, hadd]
      exact hbuilding'
    · rw [htargets, List.length_append, List.length_singleton, List.zipIdx_cons, List.map_cons,
        List.append_assoc, List.singleton_append]

/-- What the targets have in common with the entries. -/
theorem map_target {β : Type} {entries : List Entry} (f : SiteTargetInput → β) (g : Entry → β)
    (hfg : ∀ entry ordinal, f (entry.target entry.firstPath ordinal) = g entry) :
    ((entries.zipIdx 0).map fun entry ↦ entry.1.target entry.1.firstPath entry.2).map f =
      entries.map g := by
  rw [List.map_map]
  calc (entries.zipIdx 0).map (f ∘ fun entry ↦ entry.1.target entry.1.firstPath entry.2)
    _ = (entries.zipIdx 0).map (g ∘ Prod.fst) := List.map_congr_left fun entry _ ↦ hfg _ _
    _ = ((entries.zipIdx 0).map Prod.fst).map g := (List.map_map ..).symm
    _ = entries.map g := by rw [List.zipIdx_map_fst]

/-! ### Targets that are stored -/

/-- Targets with keys of their own, in order. -/
structure KeysApart (targets : List SiteTargetInput) : Prop where
  ordinals : (targets.map SiteTargetInput.ordinal).Nodup
  pageIds : (targets.map SiteTargetInput.pageId).Nodup
  localPaths : (targets.map SiteTargetInput.localPath).Nodup
  hashes : (targets.map SiteTargetInput.urlSha256).Nodup

theorem flatten_batches (targets : List SiteTargetInput) (count : ℕ) :
    ((List.range count).map fun i ↦ (targets.drop (250 * i)).take 250).flatten =
      targets.take (250 * count) := by
  induction count with
  | zero => rw [Nat.mul_zero, List.take_zero]; rfl
  | succ count ih =>
    rw [List.range_succ, List.map_append, List.flatten_append, ih, List.map_singleton,
      List.flatten_singleton, Nat.mul_succ, List.take_add]

theorem flatten_targetBatches (targets : List SiteTargetInput) :
    (targetBatches targets).flatten = targets := by
  unfold targetBatches
  rw [flatten_batches, List.take_of_length_le]
  omega

/-- The unique keys of a row and of a target. -/
def pageKeys (page : SitePage) : Uuid × ℕ × ByteString × String :=
  (page.pageId, page.ordinal, page.urlSha256, page.localPath)

def targetKeys (target : SiteTargetInput) : Uuid × ℕ × ByteString × String :=
  (target.pageId, target.ordinal, target.urlSha256, target.localPath)

theorem KeysApart.of_append {targets targets' : List SiteTargetInput}
    (h : KeysApart (targets ++ targets')) : KeysApart targets := by
  obtain ⟨hordinals, hpageIds, hlocalPaths, hhashes⟩ := h
  rw [List.map_append] at hordinals hpageIds hlocalPaths hhashes
  exact ⟨hordinals.of_append_left, hpageIds.of_append_left, hlocalPaths.of_append_left,
    hhashes.of_append_left⟩

/-- A key of a target is not among those of the targets before it. -/
theorem not_mem_of_nodup_concat {α β : Type} {f : α → β} {list : List α} {a b : α}
    (h : ((list ++ [a]).map f).Nodup) (hb : b ∈ list) : f b ≠ f a := by
  rw [List.map_append, List.nodup_append] at h
  exact h.2.2 _ (List.mem_map_of_mem hb) _ (List.mem_singleton_self _)

/-- A target with keys of its own becomes a row. -/
theorem insertTarget_keys {now : Instant} {pages : List SitePage}
    {stored : List SiteTargetInput} {target : SiteTargetInput}
    (hpages : pages.map pageKeys = stored.map targetKeys)
    (happart : KeysApart (stored ++ [target])) :
    (insertTarget now pages target).map pageKeys = (stored ++ [target]).map targetKeys := by
  have hnone : pages.any (SitePage.conflicts target) = false := by
    rw [List.any_eq_false]
    intro page hpage hconflict
    obtain ⟨other, hother, hkeys⟩ := List.mem_map.1 (hpages ▸ List.mem_map_of_mem hpage)
    simp only [pageKeys, targetKeys, Prod.mk.injEq] at hkeys
    obtain ⟨hpageId, hordinal, hhash, hlocalPath⟩ := hkeys
    simp only [SitePage.conflicts, Bool.or_eq_true, decide_eq_true_eq] at hconflict
    rcases hconflict with ((hconflict | hconflict) | hconflict) | hconflict
    · exact not_mem_of_nodup_concat happart.pageIds hother (hpageId.trans hconflict)
    · exact not_mem_of_nodup_concat happart.ordinals hother (hordinal.trans hconflict)
    · exact not_mem_of_nodup_concat happart.hashes hother (hhash.trans hconflict)
    · exact not_mem_of_nodup_concat happart.localPaths hother (hlocalPath.trans hconflict)
  unfold insertTarget
  rw [hnone, if_neg Bool.false_ne_true, List.map_append, List.map_append, hpages]
  rfl

theorem insertTargets_keys {now : Instant} {targets : List SiteTargetInput}
    {pages : List SitePage} {stored : List SiteTargetInput}
    (hpages : pages.map pageKeys = stored.map targetKeys)
    (happart : KeysApart (stored ++ targets)) :
    (targets.foldl (insertTarget now) pages).map pageKeys =
      (stored ++ targets).map targetKeys := by
  induction targets generalizing pages stored with
  | nil => rwa [List.append_nil]
  | cons target targets ih =>
    rw [← List.singleton_append, ← List.append_assoc] at happart ⊢
    exact ih (insertTarget_keys hpages happart.of_append) happart

theorem storeBatches_keys {times : ℕ → Instant} {batches : List (List SiteTargetInput)}
    {start : ℕ} {c : Clone} {stored : List SiteTargetInput}
    (hpages : c.pages.map pageKeys = stored.map targetKeys)
    (happart : KeysApart (stored ++ batches.flatten)) :
    (((batches.zipIdx start).foldl (fun c entry ↦ c.addTargets (times entry.2) entry.1)
      c).pages).map pageKeys = (stored ++ batches.flatten).map targetKeys := by
  induction batches generalizing start c stored with
  | nil => rwa [List.flatten_nil, List.append_nil]
  | cons batch batches ih =>
    rw [List.flatten_cons, ← List.append_assoc] at happart ⊢
    rw [List.zipIdx_cons, List.foldl_cons]
    exact ih (insertTargets_keys hpages happart.of_append) happart

/-- A clone without pages gets a row for each target. -/
theorem storeBatches_targetBatches {targets : List SiteTargetInput} (happart : KeysApart targets)
    (times : ℕ → Instant) {c : Clone} (hc : c.pages = []) :
    (storeBatches times (targetBatches targets) c).pages.map pageKeys =
      targets.map targetKeys := by
  have hflat := flatten_targetBatches targets
  have hstored := @storeBatches_keys times (targetBatches targets) 0 c [] (by rw [hc]; rfl)
    (by rwa [List.nil_append, hflat])
  rwa [List.nil_append, hflat] at hstored

/-! ### The keys of the entries -/

theorem selectedEntry_spec {rootUrl : String} {candidate : DesignCandidate} {entry : Entry}
    (h : env.selectedEntry rootUrl candidate = some entry) :
    entry.pageId = env.readUuid candidate.page.id ∧
      sitePagePath env.platform rootUrl candidate.normalizedUrl candidate.page.id =
        some entry.firstPath ∧
      env.rawUrlHash candidate.normalizedUrl = some entry.urlSha256 := by
  obtain ⟨firstPath, hpath, h⟩ := Option.bind_eq_some_iff.1 h
  obtain ⟨publicUrl, -, h⟩ := Option.bind_eq_some_iff.1 h
  obtain ⟨urlSha256, hhash, h⟩ := Option.bind_eq_some_iff.1 h
  obtain rfl := Option.some.inj h
  exact ⟨rfl, hpath, hhash⟩

theorem rejectedEntry_spec {rejection : DesignRejection} {entry : Entry}
    (h : env.rejectedEntry rejection = some entry) :
    entry.pageId = env.readUuid rejection.page.id ∧
      entry.firstPath = "rejected/" ++ rejection.page.id ++ ".html" ∧
      entry.urlSha256 =
        env.sha256 (ofText (rejectionUrl rejection ++ "\n" ++ rejection.page.id)) := by
  obtain ⟨publicUrl, -, h⟩ := Option.bind_eq_some_iff.1 h
  obtain rfl := Option.some.inj h
  exact ⟨rfl, rfl, rfl⟩

theorem sitePagePath_eq_some {rootUrl targetUrl pageId path : String}
    (h : sitePagePath env.platform rootUrl targetUrl pageId = some path) :
    (path = "index.html" ∧
      normalizeRawUrl env.platform targetUrl = normalizeRawUrl env.platform rootUrl) ∨
    path = "pages/" ++ pageId ++ ".html" := by
  obtain ⟨root, hroot, h⟩ := Option.bind_eq_some_iff.1 h
  obtain ⟨target, htarget, h⟩ := Option.bind_eq_some_iff.1 h
  have h := Option.some.inj h
  by_cases hsame : root = target
  · rw [if_pos hsame] at h
    rw [hroot, htarget, hsame]
    exact Or.inl ⟨h.symm, rfl⟩
  · rw [if_neg hsame] at h
    exact Or.inr h.symm

/-- Paths that are built alike of two identifiers. -/
theorem eq_of_path_eq {directory id id' suffix : String}
    (h : directory ++ id ++ suffix = directory ++ id' ++ suffix) : id = id' := by
  have hlist := congrArg String.toList h
  simp only [String.toList_append] at hlist
  exact String.toList_inj.1 (List.append_cancel_left (List.append_cancel_right hlist))

/-- The first character tells the directories apart. -/
theorem head_path {directory id : String} :
    (directory ++ id ++ ".html").toList.head? =
      directory.toList.head?.or (id ++ ".html").toList.head? := by
  rw [String.append_assoc, String.toList_append, List.head?_append]

theorem isPathChar_of_isUuidText {id : String} (h : IsUuidText id) :
    ∀ c ∈ id.toList, IsPathChar c := by
  have hall : ∀ c ∈ "0123456789abcdef-".toList, IsPathChar c := forall_chars (by decide +kernel)
  exact fun c hc ↦ hall c (h.2 c hc)

theorem isPathChar_path {directory id : String} (hdirectory : ∀ c ∈ directory.toList, IsPathChar c)
    (hid : IsUuidText id) : ∀ c ∈ (directory ++ id ++ ".html").toList, IsPathChar c := by
  have hsuffix : ∀ c ∈ ".html".toList, IsPathChar c := forall_chars (by decide +kernel)
  intro c hc
  rw [String.toList_append, String.toList_append, List.mem_append, List.mem_append] at hc
  rcases hc with (hc | hc) | hc
  · exact hdirectory c hc
  · exact isPathChar_of_isUuidText hid c hc
  · exact hsuffix c hc

/-- The identifier after the last line break of a text. -/
theorem eq_of_line_eq {text text' id id' : String} (hid : IsUuidText id) (hid' : IsUuidText id')
    (h : text ++ "\n" ++ id = text' ++ "\n" ++ id') : id = id' := by
  have hlist := congrArg String.toList h
  simp only [String.toList_append] at hlist
  exact String.toList_inj.1 (List.append_inj' hlist (hid.1.trans hid'.1.symm)).2

/-! ### The entries of a selection -/

/-- What the entries of a selection need to be built and to be told apart. -/
structure Apart (env : Ingestion) (rootUrl : String) (selection : DesignSelection) : Prop where
  root : (env.platform.newUrl rootUrl).isSome
  selected : ∀ candidate ∈ selection.selected,
    (env.platform.newUrl candidate.normalizedUrl).isSome ∧ IsUuidText candidate.page.id
  rejected : ∀ rejection ∈ selection.rejected,
    (env.platform.newUrl (rejectionUrl rejection)).isSome ∧ IsUuidText rejection.page.id
  ids : ((selection.selected.map fun candidate ↦ candidate.page.id) ++
    selection.rejected.map fun rejection ↦ rejection.page.id).Nodup
  urls : (selection.selected.map fun candidate ↦
    normalizeRawUrl env.platform candidate.normalizedUrl).Nodup

theorem isSome_mapM {α β : Type} {f : α → Option β} {list : List α}
    (h : ∀ a ∈ list, (f a).isSome) : (list.mapM f).isSome := by
  induction list with
  | nil => rfl
  | cons a list ih =>
    rw [List.mapM_cons]
    refine isSome_bind (h a List.mem_cons_self) fun _ _ ↦ ?_
    exact isSome_bind (ih fun a ha ↦ h a (List.mem_cons_of_mem _ ha)) fun _ _ ↦ rfl

theorem isSome_normalizeRawUrl {rawUrl : String} (h : (env.platform.newUrl rawUrl).isSome) :
    (normalizeRawUrl env.platform rawUrl).isSome :=
  isSome_bind h fun _ _ ↦ rfl

theorem isSome_sanitizeForDatabase {rawUrl : String}
    (h : (env.platform.newUrl rawUrl).isSome) :
    (sanitizeForDatabase env.platform rawUrl).isSome :=
  isSome_bind h fun _ _ ↦ rfl

theorem isSome_rawUrlHash {rawUrl : String} (h : (env.platform.newUrl rawUrl).isSome) :
    (env.rawUrlHash rawUrl).isSome := by
  unfold rawUrlHash
  rw [Option.isSome_map]
  exact isSome_normalizeRawUrl h

theorem isSome_sitePagePath {rootUrl targetUrl : String}
    (hroot : (env.platform.newUrl rootUrl).isSome)
    (htarget : (env.platform.newUrl targetUrl).isSome) (pageId : String) :
    (sitePagePath env.platform rootUrl targetUrl pageId).isSome :=
  isSome_bind (isSome_normalizeRawUrl hroot) fun _ _ ↦
    isSome_bind (isSome_normalizeRawUrl htarget) fun _ _ ↦ rfl

theorem isSome_selectedEntry {rootUrl : String} {candidate : DesignCandidate}
    (hroot : (env.platform.newUrl rootUrl).isSome)
    (hurl : (env.platform.newUrl candidate.normalizedUrl).isSome) :
    (env.selectedEntry rootUrl candidate).isSome :=
  isSome_bind (isSome_sitePagePath hroot hurl _) fun _ _ ↦
    isSome_bind (isSome_sanitizeForDatabase hurl) fun _ _ ↦
      isSome_bind (isSome_rawUrlHash hurl) fun _ _ ↦ rfl

theorem isSome_rejectedEntry {rejection : DesignRejection}
    (hurl : (env.platform.newUrl (rejectionUrl rejection)).isSome) :
    (env.rejectedEntry rejection).isSome :=
  isSome_bind (isSome_sanitizeForDatabase hurl) fun _ _ ↦ rfl

/-- Entries with keys of their own. -/
structure EntriesApart (env : Ingestion) (entries : List Entry) : Prop where
  pageIds : (entries.map Entry.pageId).Nodup
  firstPaths : (entries.map fun entry ↦ env.platform.toLowerCase entry.firstPath).Nodup
  hashes : (entries.map Entry.urlSha256).Nodup

theorem keysApart_of_entriesApart {entries : List Entry} (h : EntriesApart env entries) :
    KeysApart ((entries.zipIdx 0).map fun entry ↦ entry.1.target entry.1.firstPath entry.2) := by
  have hpaths : (entries.map Entry.firstPath).Nodup := by
    have hlower : ((entries.map Entry.firstPath).map env.platform.toLowerCase).Nodup := by
      rw [List.map_map]
      exact h.firstPaths
    exact hlower.of_map
  refine ⟨?_, ?_, ?_, ?_⟩
  · rw [List.map_map]
    show ((entries.zipIdx 0).map Prod.snd).Nodup
    rw [List.zipIdx_map_snd]
    exact List.nodup_range'
  · rw [map_target _ Entry.pageId fun _ _ ↦ rfl]
    exact h.pageIds
  · rw [map_target _ Entry.firstPath fun _ _ ↦ rfl]
    exact hpaths
  · rw [map_target _ Entry.urlSha256 fun _ _ ↦ rfl]
    exact h.hashes

/-! ### The entries are told apart -/

section

variable {rootUrl : String} {selection : DesignSelection} {selected rejected : List Entry}

/-- The first path of a selected page. -/
def selectedPath (env : Ingestion) (rootUrl : String) (candidate : DesignCandidate) : String :=
  (sitePagePath env.platform rootUrl candidate.normalizedUrl candidate.page.id).getD ""

def rejectedPath (rejection : DesignRejection) : String :=
  "rejected/" ++ rejection.page.id ++ ".html"

/-- The hash of a selected page. -/
def selectedHash (env : Ingestion) (candidate : DesignCandidate) : ByteString :=
  (env.rawUrlHash candidate.normalizedUrl).getD []

def rejectedHash (env : Ingestion) (rejection : DesignRejection) : ByteString :=
  env.sha256 (ofText (rejectionUrl rejection ++ "\n" ++ rejection.page.id))

variable (h : Apart env rootUrl selection)

include h

theorem selectedPath_cases {candidate : DesignCandidate}
    (hmem : candidate ∈ selection.selected) :
    (selectedPath env rootUrl candidate = "index.html" ∧
      normalizeRawUrl env.platform candidate.normalizedUrl =
        normalizeRawUrl env.platform rootUrl) ∨
    selectedPath env rootUrl candidate = "pages/" ++ candidate.page.id ++ ".html" := by
  obtain ⟨path, hpath⟩ := Option.isSome_iff_exists.1
    (isSome_sitePagePath h.root (h.selected candidate hmem).1 candidate.page.id)
  unfold selectedPath
  rw [hpath]
  exact sitePagePath_eq_some hpath

theorem selectedHash_spec {candidate : DesignCandidate} (hmem : candidate ∈ selection.selected) :
    ∃ url, normalizeRawUrl env.platform candidate.normalizedUrl = some url ∧
      selectedHash env candidate = env.sha256 (ofText url) := by
  obtain ⟨url, hurl⟩ := Option.isSome_iff_exists.1
    (isSome_normalizeRawUrl (h.selected candidate hmem).1)
  refine ⟨url, hurl, ?_⟩
  unfold selectedHash rawUrlHash
  rw [hurl]
  rfl

theorem eq_of_selectedPath_eq {left right : DesignCandidate} (hleft : left ∈ selection.selected)
    (hright : right ∈ selection.selected)
    (hpath : selectedPath env rootUrl left = selectedPath env rootUrl right) : left = right := by
  have hnamed : ∀ id : String, "pages/" ++ id ++ ".html" ≠ "index.html" := by
    intro id hsame
    have hhead := congrArg (fun text ↦ text.toList.head?) hsame
    rw [head_path] at hhead
    exact absurd hhead (by simp)
  rcases selectedPath_cases h hleft with ⟨hindex, hroot⟩ | hpages
  · rcases selectedPath_cases h hright with ⟨-, hroot'⟩ | hpages'
    · exact List.inj_on_of_nodup_map h.urls hleft hright (hroot.trans hroot'.symm)
    · exact absurd (hpages'.symm.trans (hpath.symm.trans hindex)) (hnamed _)
  · rcases selectedPath_cases h hright with ⟨hindex', -⟩ | hpages'
    · exact absurd (hpages.symm.trans (hpath.trans hindex')) (hnamed _)
    · have hid := eq_of_path_eq (hpages.symm.trans (hpath.trans hpages'))
      exact List.inj_on_of_nodup_map h.ids.of_append_left hleft hright hid

theorem selectedPath_ne_rejectedPath {candidate : DesignCandidate}
    (hmem : candidate ∈ selection.selected) (rejection : DesignRejection) :
    selectedPath env rootUrl candidate ≠ rejectedPath rejection := by
  intro hsame
  have hhead := congrArg (fun text ↦ text.toList.head?) hsame
  unfold rejectedPath at hhead
  rcases selectedPath_cases h hmem with ⟨hindex, -⟩ | hpages
  · rw [hindex, head_path] at hhead
    exact absurd hhead (by simp)
  · rw [hpages, head_path, head_path] at hhead
    exact absurd hhead (by simp)

theorem isPathChar_selectedPath {candidate : DesignCandidate}
    (hmem : candidate ∈ selection.selected) :
    ∀ c ∈ (selectedPath env rootUrl candidate).toList, IsPathChar c := by
  rcases selectedPath_cases h hmem with ⟨hindex, -⟩ | hpages
  · rw [hindex]
    exact forall_chars (by decide +kernel)
  · rw [hpages]
    exact isPathChar_path (forall_chars (by decide +kernel)) (h.selected candidate hmem).2

theorem isPathChar_rejectedPath {rejection : DesignRejection}
    (hmem : rejection ∈ selection.rejected) :
    ∀ c ∈ (rejectedPath rejection).toList, IsPathChar c :=
  isPathChar_path (forall_chars (by decide +kernel)) (h.rejected rejection hmem).2

theorem nodup_selected : selection.selected.Nodup :=
  h.urls.of_map

theorem nodup_rejected : selection.rejected.Nodup :=
  h.ids.of_append_right.of_map

variable (hlaws : env.Lawful)

include hlaws

theorem nodup_paths :
    ((selection.selected.map fun candidate ↦
        env.platform.toLowerCase (selectedPath env rootUrl candidate)) ++
      selection.rejected.map fun rejection ↦
        env.platform.toLowerCase (rejectedPath rejection)).Nodup := by
  have hselected : ∀ candidate ∈ selection.selected,
      env.platform.toLowerCase (selectedPath env rootUrl candidate) =
        selectedPath env rootUrl candidate :=
    fun candidate hmem ↦ hlaws.toLowerCase_path _ (isPathChar_selectedPath h hmem)
  have hrejected : ∀ rejection ∈ selection.rejected,
      env.platform.toLowerCase (rejectedPath rejection) = rejectedPath rejection :=
    fun rejection hmem ↦ hlaws.toLowerCase_path _ (isPathChar_rejectedPath h hmem)
  rw [List.map_congr_left hselected, List.map_congr_left hrejected, List.nodup_append]
  refine ⟨?_, ?_, ?_⟩
  · exact (nodup_selected h).map_on fun left hleft right hright ↦
      eq_of_selectedPath_eq h hleft hright
  · refine (nodup_rejected h).map_on fun left hleft right hright hpath ↦ ?_
    exact List.inj_on_of_nodup_map h.ids.of_append_right hleft hright (eq_of_path_eq hpath)
  · intro path hpath path' hpath' hsame
    obtain ⟨candidate, hcandidate, rfl⟩ := List.mem_map.1 hpath
    obtain ⟨rejection, -, rfl⟩ := List.mem_map.1 hpath'
    exact selectedPath_ne_rejectedPath h hcandidate rejection hsame

theorem nodup_hashes :
    (selection.selected.map (selectedHash env) ++
      selection.rejected.map (rejectedHash env)).Nodup := by
  rw [List.nodup_append]
  refine ⟨?_, ?_, ?_⟩
  · refine (nodup_selected h).map_on fun left hleft right hright hhash ↦ ?_
    obtain ⟨url, hurl, hsha⟩ := selectedHash_spec h hleft
    obtain ⟨url', hurl', hsha'⟩ := selectedHash_spec h hright
    have hsame := ofText_injective (hlaws.sha256_injective (hsha.symm.trans (hhash.trans hsha')))
    refine List.inj_on_of_nodup_map h.urls hleft hright ?_
    rw [hurl, hurl', hsame]
  · refine (nodup_rejected h).map_on fun left hleft right hright hhash ↦ ?_
    have hsame := ofText_injective (hlaws.sha256_injective hhash)
    exact List.inj_on_of_nodup_map h.ids.of_append_right hleft hright
      (eq_of_line_eq (h.rejected left hleft).2 (h.rejected right hright).2 hsame)
  · intro hash hhash hash' hhash' hsame
    obtain ⟨candidate, hcandidate, rfl⟩ := List.mem_map.1 hhash
    obtain ⟨rejection, -, rfl⟩ := List.mem_map.1 hhash'
    obtain ⟨url, hurl, hsha⟩ := selectedHash_spec h hcandidate
    have hline := ofText_injective (hlaws.sha256_injective (hsha.symm.trans hsame))
    obtain ⟨parsed, -, hparsed⟩ := Option.bind_eq_some_iff.1 hurl
    have hnot : '\n' ∉ url.toList := Option.some.inj hparsed ▸ hlaws.newline_not_mem _
    rw [hline, String.toList_append, String.toList_append] at hnot
    exact hnot (List.mem_append_left _ (List.mem_append_right _ (by decide)))

theorem nodup_pageIds :
    ((selection.selected.map fun candidate ↦ env.readUuid candidate.page.id) ++
      selection.rejected.map fun rejection ↦ env.readUuid rejection.page.id).Nodup := by
  have hall := h.ids.map_on (f := env.readUuid) fun left hleft right hright hsame ↦ ?_
  · rw [List.map_append, List.map_map, List.map_map] at hall
    exact hall
  · have huuid : ∀ id ∈ (selection.selected.map fun candidate ↦ candidate.page.id) ++
        selection.rejected.map fun rejection ↦ rejection.page.id, IsUuidText id := by
      intro id hid
      rcases List.mem_append.1 hid with hid | hid
      · obtain ⟨candidate, hcandidate, rfl⟩ := List.mem_map.1 hid
        exact (h.selected candidate hcandidate).2
      · obtain ⟨rejection, hrejection, rfl⟩ := List.mem_map.1 hid
        exact (h.rejected rejection hrejection).2
    exact hlaws.readUuid_injective left right (huuid left hleft) (huuid right hright) hsame

/-- The entries of a selection have keys of their own. -/
theorem entriesApart (hselected : selection.selected.mapM (env.selectedEntry rootUrl) =
      some selected) (hrejected : selection.rejected.mapM env.rejectedEntry = some rejected) :
    EntriesApart env (selected ++ rejected) := by
  have hids := map_of_mapM Entry.pageId (fun candidate : DesignCandidate ↦
    env.readUuid candidate.page.id) (fun _ _ hentry ↦ (selectedEntry_spec hentry).1) hselected
  have hids' := map_of_mapM Entry.pageId (fun rejection : DesignRejection ↦
    env.readUuid rejection.page.id) (fun _ _ hentry ↦ (rejectedEntry_spec hentry).1) hrejected
  have hpaths := map_of_mapM (fun entry : Entry ↦ env.platform.toLowerCase entry.firstPath)
    (fun candidate ↦ env.platform.toLowerCase (selectedPath env rootUrl candidate))
    (fun candidate entry hentry ↦ by
      unfold selectedPath
      rw [(selectedEntry_spec hentry).2.1]
      rfl) hselected
  have hpaths' := map_of_mapM (fun entry : Entry ↦ env.platform.toLowerCase entry.firstPath)
    (fun rejection ↦ env.platform.toLowerCase (rejectedPath rejection))
    (fun rejection entry hentry ↦ by
      unfold rejectedPath
      rw [(rejectedEntry_spec hentry).2.1]) hrejected
  have hhashes := map_of_mapM Entry.urlSha256 (selectedHash env)
    (fun candidate entry hentry ↦ by
      unfold selectedHash
      rw [(selectedEntry_spec hentry).2.2]
      rfl) hselected
  have hhashes' := map_of_mapM Entry.urlSha256 (rejectedHash env)
    (fun rejection entry hentry ↦ (rejectedEntry_spec hentry).2.2) hrejected
  refine ⟨?_, ?_, ?_⟩
  · rw [List.map_append, hids, hids']
    exact nodup_pageIds h hlaws
  · rw [List.map_append, hpaths, hpaths']
    exact nodup_paths h hlaws
  · rw [List.map_append, hhashes, hhashes']
    exact nodup_hashes h hlaws

end

/-! ### Ingestion -/

/-- The targets keep the pages of a selection: they have keys of their own and get a row each, and
there is one for every page, or one for the root URL when no page is selected. -/
structure KeepsPages (env : Ingestion) (jobId : Uuid) (pages : List DesignPageInput)
    (selection : DesignSelection) (targets : List SiteTargetInput) : Prop where
  pageIds : (targets.map SiteTargetInput.pageId).Nodup
  localPaths : (targets.map fun target ↦ env.platform.toLowerCase target.localPath).Nodup
  hashes : (targets.map SiteTargetInput.urlSha256).Nodup
  kept : selection.selected ≠ [] →
    (targets.map SiteTargetInput.pageId).Perm (pages.map fun page ↦ env.readUuid page.id)
  count : selection.selected ≠ [] →
    targets.length = selection.selected.length + selection.rejected.length
  fallback : selection.selected = [] → targets.map SiteTargetInput.pageId = [jobId]
  limit : ∀ maxPages, 0 < maxPages → pages.length ≤ maxPages → targets.length ≤ maxPages
  stored : ∀ times (c : Clone), c.pages = [] →
    (storeBatches times (targetBatches targets) c).pages.map pageKeys = targets.map targetKeys

section

variable {rootUrl : String} {jobId : Uuid} {pages : List DesignPageInput} {reachedLimit : Bool}
  {selection : DesignSelection}

/-- The pages of a selection can be named and told apart. -/
theorem apart_of_selection (hlaws : env.Lawful) (hids : Identified env.platform pages)
    (huuids : ∀ page ∈ pages, IsUuidText page.id)
    (hroot : (env.platform.newUrl rootUrl).isSome)
    (hurls : ∀ page ∈ pages, (env.platform.newUrl page.rawUrl).isSome)
    (h : selectDesignPages env.platform rootUrl pages reachedLimit = some selection)
    (hdistinct : (selection.selected.map fun candidate ↦
      normalizeRawUrl env.platform candidate.normalizedUrl).Nodup) :
    Apart env rootUrl selection := by
  have honce := (partitions_of_selectDesignPages hids h).once
  obtain ⟨rootOrigin, screened, hsteps⟩ := steps_of_selectDesignPages h
  refine ⟨hroot, fun selected hmem ↦ ?_, fun rejection hmem ↦ ?_, ?_, hdistinct⟩
  · obtain ⟨candidate, hcandidate, rfl⟩ := hsteps.mem_selected hmem
    obtain ⟨hpage, hqualified⟩ := hsteps.qualified (mem_candidatesOf_groupWinners hcandidate)
    exact ⟨isSome_newUrl_of_normalize hlaws.platform hqualified.normalizedUrl,
      huuids _ hpage⟩
  · have hpage : rejection.page ∈ pages :=
      honce.mem_iff.1 (List.mem_append_right _ (List.mem_map_of_mem hmem))
    refine ⟨?_, huuids _ hpage⟩
    unfold rejectionUrl
    by_cases hempty : rejection.normalizedUrl = ""
    · rw [if_pos hempty]
      exact hurls _ hpage
    · rw [if_neg hempty]
      rcases hsteps.isUrlOf hmem with hnone | ⟨-, hredacted⟩ | hnormalized
      · exact absurd hnone hempty
      · rw [hredacted]
        obtain ⟨url, hurl⟩ := Option.isSome_iff_exists.1 (hurls _ hpage)
        unfold redactUrl
        rw [hurl]
        exact hlaws.platform.newUrl_toString _
      · exact isSome_newUrl_of_normalize hlaws.platform hnormalized
  · have hnodup := (honce.map DesignPageInput.id).nodup_iff.2 hids.nodup
    rw [List.map_append, List.map_map, List.map_map] at hnodup
    exact hnodup

/-- Entries with keys of their own become targets with their keys. -/
theorem buildTargets_of_entries {entries : List Entry}
    (hentries : env.entriesOf rootUrl jobId selection = some entries)
    (happart : EntriesApart env entries) :
    env.buildTargets rootUrl jobId selection = some
      ((entries.zipIdx 0).map fun entry ↦ entry.1.target entry.1.firstPath entry.2) := by
  obtain ⟨building, hbuilding, htargets⟩ := @foldlM_addEntry env entries ⟨[], []⟩
    happart.firstPaths fun _ _ ↦ List.not_mem_nil
  refine Option.bind_eq_some_iff.2 ⟨entries, hentries, Option.bind_eq_some_iff.2
    ⟨building, hbuilding, ?_⟩⟩
  rw [htargets]
  rfl

theorem keepsPages_selected (hlaws : env.Lawful) (h : Apart env rootUrl selection)
    (honce : (selection.selected.map DesignCandidate.page ++
      selection.rejected.map DesignRejection.page).Perm pages)
    (hselected : selection.selected ≠ []) :
    ∃ targets, env.buildTargets rootUrl jobId selection = some targets ∧
      KeepsPages env jobId pages selection targets := by
  obtain ⟨selected, hselectedEntries⟩ := Option.isSome_iff_exists.1
    (isSome_mapM fun candidate hmem ↦ isSome_selectedEntry h.root (h.selected candidate hmem).1)
  obtain ⟨rejected, hrejectedEntries⟩ := Option.isSome_iff_exists.1
    (isSome_mapM fun rejection hmem ↦
      @isSome_rejectedEntry env rejection (h.rejected rejection hmem).1)
  have happart := entriesApart h hlaws hselectedEntries hrejectedEntries
  have hentries : env.entriesOf rootUrl jobId selection = some (selected ++ rejected) := by
    unfold entriesOf
    rw [if_neg hselected]
    exact Option.bind_eq_some_iff.2 ⟨selected, hselectedEntries,
      Option.bind_eq_some_iff.2 ⟨rejected, hrejectedEntries, rfl⟩⟩
  have hpageIds : (((selected ++ rejected).zipIdx 0).map fun entry ↦
      entry.1.target entry.1.firstPath entry.2).map SiteTargetInput.pageId =
      (selection.selected.map DesignCandidate.page ++
        selection.rejected.map DesignRejection.page).map fun page ↦ env.readUuid page.id := by
    rw [map_target _ Entry.pageId fun _ _ ↦ rfl, List.map_append, List.map_append, List.map_map,
      List.map_map,
      map_of_mapM Entry.pageId _ (fun _ _ hentry ↦ (selectedEntry_spec hentry).1)
        hselectedEntries,
      map_of_mapM Entry.pageId _ (fun _ _ hentry ↦ (rejectedEntry_spec hentry).1)
        hrejectedEntries]
    rfl
  have hkeys := keysApart_of_entriesApart happart
  have hlength := congrArg List.length hpageIds
  have hpages := honce.length_eq
  simp only [List.length_map, List.length_append] at hlength hpages
  refine ⟨_, buildTargets_of_entries hentries happart, ?_⟩
  exact {
    pageIds := hkeys.pageIds
    localPaths := by
      rw [map_target _ (fun entry ↦ env.platform.toLowerCase entry.firstPath) fun _ _ ↦ rfl]
      exact happart.firstPaths
    hashes := hkeys.hashes
    kept := fun _ ↦ hpageIds ▸ honce.map _
    count := fun _ ↦ by rw [List.length_map, hlength]
    fallback := fun hnone ↦ absurd hnone hselected
    limit := fun maxPages _ hle ↦ by
      rw [List.length_map, hlength, hpages]
      exact hle
    stored := fun times c ↦ storeBatches_targetBatches hkeys times }

theorem keepsPages_fallback (hroot : (env.platform.newUrl rootUrl).isSome)
    (hselected : selection.selected = []) :
    ∃ targets, env.buildTargets rootUrl jobId selection = some targets ∧
      KeepsPages env jobId pages selection targets := by
  obtain ⟨path, hpath⟩ := Option.isSome_iff_exists.1 (isSome_sitePagePath hroot hroot "")
  obtain ⟨publicUrl, hpublicUrl⟩ := Option.isSome_iff_exists.1 (isSome_sanitizeForDatabase hroot)
  obtain ⟨hash, hhash⟩ := Option.isSome_iff_exists.1 (isSome_rawUrlHash hroot)
  have hentries : env.entriesOf rootUrl jobId selection =
      some [⟨jobId, path, fun _ ↦ path, publicUrl, hash, none⟩] := by
    have hroot : env.rootEntry rootUrl jobId =
        some ⟨jobId, path, fun _ ↦ path, publicUrl, hash, none⟩ :=
      Option.bind_eq_some_iff.2 ⟨path, hpath, Option.bind_eq_some_iff.2
        ⟨publicUrl, hpublicUrl, Option.bind_eq_some_iff.2 ⟨hash, hhash, rfl⟩⟩⟩
    unfold entriesOf
    rw [if_pos hselected, hroot]
    rfl
  have happart : EntriesApart env
      [⟨jobId, path, fun _ ↦ path, publicUrl, hash, none⟩] :=
    ⟨List.nodup_singleton _, List.nodup_singleton _, List.nodup_singleton _⟩
  have hkeys := keysApart_of_entriesApart happart
  refine ⟨_, buildTargets_of_entries hentries happart, ?_⟩
  exact {
    pageIds := hkeys.pageIds
    localPaths := List.nodup_singleton _
    hashes := hkeys.hashes
    kept := fun hsome ↦ absurd hselected hsome
    count := fun hsome ↦ absurd hselected hsome
    fallback := fun _ ↦ rfl
    limit := fun maxPages hpos _ ↦ hpos
    stored := fun times c ↦ storeBatches_targetBatches hkeys times }

end

end Ingestion

/-- For crawled pages with identifiers of their own whose URLs parse and whose languages can be
read, a selection is made; and unless two selected pages have the same URL, its targets are built
and keep the pages. -/
theorem ingestion_keeps_pages (env : Ingestion) (hlaws : env.Lawful) (rootUrl : String)
    (jobId : Uuid) (pages : List DesignPageInput) (reachedLimit : Bool)
    (hids : Identified env.platform pages)
    (huuids : ∀ page ∈ pages, Ingestion.IsUuidText page.id)
    (hroot : (env.platform.newUrl rootUrl).isSome)
    (hurls : ∀ page ∈ pages, (env.platform.newUrl page.rawUrl).isSome)
    (hlegible : ∀ page ∈ pages, Legible env.platform page) :
    ∃ selection, selectDesignPages env.platform rootUrl pages reachedLimit = some selection ∧
      ((selection.selected.map fun candidate ↦
          normalizeRawUrl env.platform candidate.normalizedUrl).Nodup →
        ∃ targets, env.ingestionTargets rootUrl jobId pages reachedLimit = some targets ∧
          env.KeepsPages jobId pages selection targets) := by
  obtain ⟨selection, hselection⟩ := Option.isSome_iff_exists.1
    (isSome_selectDesignPages hlaws.platform hroot hlegible reachedLimit)
  refine ⟨selection, hselection, fun hdistinct ↦ ?_⟩
  have happart :=
    Ingestion.apart_of_selection hlaws hids huuids hroot hurls hselection hdistinct
  obtain ⟨targets, htargets, hkeeps⟩ : ∃ targets,
      env.buildTargets rootUrl jobId selection = some targets ∧
        env.KeepsPages jobId pages selection targets := by
    by_cases hselected : selection.selected = []
    · exact Ingestion.keepsPages_fallback hroot hselected
    · exact Ingestion.keepsPages_selected hlaws happart
        (partitions_of_selectDesignPages hids hselection).once hselected
  exact ⟨targets, Option.bind_eq_some_iff.2 ⟨selection, hselection, htargets⟩, hkeeps⟩

/-- Texts are their own hashes, and identifiers are read as numbers, character by character. -/
def Ingestion.sample : Ingestion where
  platform := Platform.sample
  sha256 := id
  readUuid text := text.toList.foldl (fun value c ↦ value * 4294967296 + c.toNat) 0

theorem eq_of_foldl_eq {left right : List Char} (hlength : left.length = right.length)
    (h : left.foldl (fun value c ↦ value * 4294967296 + c.toNat) 0 =
      right.foldl (fun value c ↦ value * 4294967296 + c.toNat) 0) : left = right := by
  induction left using List.reverseRecOn generalizing right with
  | nil => exact (List.eq_nil_of_length_eq_zero hlength.symm).symm
  | append_singleton left c ih =>
    rcases List.eq_nil_or_concat' right with rfl | ⟨right, c', rfl⟩
    · simp at hlength
    · rw [List.length_append, List.length_append] at hlength
      rw [List.foldl_append, List.foldl_append] at h
      have hc : c.toNat < 4294967296 := c.val.toNat_lt
      have hc' : c'.toNat < 4294967296 := c'.val.toNat_lt
      simp only [List.foldl_cons, List.foldl_nil] at h
      have hchar : c.toNat = c'.toNat := by omega
      rw [ih (Nat.add_right_cancel hlength) (by omega), Char.toNat_inj.1 hchar]

theorem Ingestion.sample_lawful : Ingestion.sample.Lawful where
  platform := Platform.sample_lawful
  newline_not_mem url hmem := by
    have hmem : '\n' ∈ url.text.toList := hmem
    unfold SampleUrl.text at hmem
    rw [String.toList_ofList, List.mem_append] at hmem
    rcases hmem with hmem | hmem
    · exact absurd hmem (by decide)
    · exact absurd (of_decide_eq_true (List.mem_filter.1 hmem).2) (fun hne ↦ hne rfl)
  toLowerCase_path text h := by
    have hall : ∀ c ∈ "0123456789abcdefghijklmnopqrstuvwxyz-./".toList, c.toLower = c :=
      Ingestion.forall_chars (by decide +kernel)
    show String.ofList (text.toList.map Char.toLower) = text
    rw [List.map_congr_left (fun c hc ↦ hall c (h c hc)), List.map_id', String.ofList_toList]
  sha256_injective := fun _ _ h ↦ h
  readUuid_injective _ _ ha hb h :=
    String.toList_inj.1 (eq_of_foldl_eq (ha.1.trans hb.1.symm) h)

/-- The home page and an article, with identifiers as the crawler has them. -/
def articlePages : List DesignPageInput :=
  [.sample "00000000-0000-0000-0000-000000000001" "https://example.com/",
    .sample "00000000-0000-0000-0000-000000000002" "https://example.com/blog/first"]

theorem isUuidText_articlePages : ∀ page ∈ articlePages, Ingestion.IsUuidText page.id := by
  have hid : ∀ page ∈ articlePages, page.id.toList.length = 36 ∧
      (page.id.toList.all fun c ↦ decide (c ∈ "0123456789abcdef-".toList)) = true := by
    unfold articlePages
    decide +kernel
  intro page hpage
  exact ⟨(hid page hpage).1, Ingestion.forall_chars (hid page hpage).2⟩

theorem ingestion_keeps_pages_articles :
    ∃ selection,
      selectDesignPages Platform.sample "https://example.com/" articlePages false =
        some selection ∧
      ∃ targets,
        Ingestion.sample.ingestionTargets "https://example.com/" 7 articlePages false =
          some targets ∧
        Ingestion.sample.KeepsPages 7 articlePages selection targets := by
  obtain ⟨selection, hselection, hkeeps⟩ := ingestion_keeps_pages Ingestion.sample
    Ingestion.sample_lawful "https://example.com/" 7 articlePages false
    ⟨by decide +kernel, by decide +kernel⟩
    isUuidText_articlePages (by decide +kernel)
    (by unfold articlePages; decide +kernel) (by unfold articlePages Legible; decide +kernel)
  refine ⟨selection, hselection, hkeeps ?_⟩
  have hrun : (selectDesignPages Platform.sample "https://example.com/" articlePages false).all
      (fun selection ↦ decide (selection.selected.map fun candidate ↦
        normalizeRawUrl Platform.sample candidate.normalizedUrl).Nodup) = true := by
    decide +kernel
  have hselection : selectDesignPages Platform.sample "https://example.com/" articlePages false =
      some selection := hselection
  rw [hselection] at hrun
  exact of_decide_eq_true hrun

/-- Two pages that the crawler was warned off. -/
def warnedPages : List DesignPageInput :=
  articlePages.map fun page ↦ { page with outcome := .warning }

/-- When no page is selected, the root URL gets the only row, whatever was rejected. -/
theorem rejected_pages_not_stored :
    ¬ ∀ selection,
      selectDesignPages Platform.sample "https://example.com/" warnedPages false =
        some selection →
      ∃ targets,
        Ingestion.sample.ingestionTargets "https://example.com/" 7 warnedPages false =
          some targets ∧
        targets.length = selection.selected.length + selection.rejected.length := by
  intro h
  have hselected : (selectDesignPages Platform.sample "https://example.com/" warnedPages false).any
      (fun selection ↦ decide (selection.selected.length + selection.rejected.length = 2)) =
        true := by
    decide +kernel
  have htargets : (Ingestion.sample.ingestionTargets "https://example.com/" 7 warnedPages
      false).all (fun targets ↦ decide (targets.length = 1)) = true := by
    decide +kernel
  obtain ⟨selection, hselection, htwo⟩ := (Option.any_eq_true _ _).1 hselected
  obtain ⟨targets, hbuilt, hlength⟩ := h selection hselection
  rw [hbuilt] at htargets
  have hone : targets.length = 1 := of_decide_eq_true htargets
  rw [of_decide_eq_true htwo, hone] at hlength
  exact absurd hlength (by decide)

end WebLens.SiteClone.Design
