import WebLens.StaticClone.Plan
import WebLens.StaticClone.SafePaths

/-!
# Extracting a planned archive

The paths of a plan are distinct ignoring case, since `deduplicatePath` gives a name that is not
used. It does not look at directories: a file may get the name of a directory of another file. The
files of a plan can be extracted if and only if no step of the plan does that.
-/

set_option autoImplicit false
set_option relaxedAutoImplicit false

namespace WebLens.StaticClone

open Lib Lib.PosixPath
open Lib.Utf8 (ByteString)

/-! ### Trees of files -/

/-- A path goes through a name as through a directory, ignoring case. -/
def IsDirectoryOf (directory path : String) : Prop :=
  (lowerCase directory).toList ++ ['/'] <+: (lowerCase path).toList

/-- Files that can be extracted side by side: two paths that differ in case only are one path, and
no file is a directory of another one. -/
structure Extractable (paths : List String) : Prop where
  distinct : ∀ a ∈ paths, ∀ b ∈ paths, lowerCase a = lowerCase b → a = b
  no_directory : ∀ a ∈ paths, ∀ b ∈ paths, ¬ IsDirectoryOf a b

/-- The paths of the files of an archive. -/
def StaticClonePlan.paths (plan : StaticClonePlan) : List String :=
  "manifest.json" :: plan.mainPath :: plan.resources.filterMap PlannedResource.localPath

/-- A new file is given a name that is no directory of a file before it, and no file before it has
the name of a directory of the path that is wanted. -/
def Planning.GivesFreeName (s : Planning) (desired : String) : Prop :=
  ∀ name ∈ "manifest.json" :: s.used,
    ¬ IsDirectoryOf name desired ∧ ¬ IsDirectoryOf (deduplicatePath desired s.used) name

/-- Every digest is 64 hexadecimal digits. -/
def Platform.HexDigest (p : Platform) : Prop :=
  ∀ bytes, (p.sha256 bytes).toList.length = 64 ∧
    ∀ c ∈ (p.sha256 bytes).toList, c ∈ "0123456789abcdef".toList

theorem hexDigest_of_all {digest : String} (hlength : digest.toList.length = 64)
    (hall : digest.toList.all (fun c ↦ "0123456789abcdef".toList.contains c) = true) :
    digest.toList.length = 64 ∧ ∀ c ∈ digest.toList, c ∈ "0123456789abcdef".toList :=
  ⟨hlength, fun c hc ↦ List.contains_iff_mem.1 (List.all_eq_true.1 hall c hc)⟩

/-! ### Lower case -/

/-- A capital letter becomes the small one; other characters stay. -/
theorem toLower_cases (c : Char) :
    (65 ≤ c.toNat ∧ c.toNat ≤ 90 ∧ c.toLower.toNat = c.toNat + 32) ∨
      (¬ (65 ≤ c.toNat ∧ c.toNat ≤ 90) ∧ c.toLower = c) := by
  by_cases hupper : c.val ≥ 'A'.val ∧ c.val ≤ 'Z'.val
  · have hlow : 65 ≤ c.toNat := hupper.1
    have hhigh : c.toNat ≤ 90 := hupper.2
    refine .inl ⟨hlow, hhigh, ?_⟩
    have hval : c.toLower.val = c.val + 32 := by
      unfold Char.toLower
      rw [dif_pos hupper]
      rfl
    show c.toLower.val.toNat = c.val.toNat + 32
    rw [hval, UInt32.toNat_add]
    have hhigh' : c.val.toNat ≤ 90 := hhigh
    exact Nat.mod_eq_of_lt (by have : (32 : UInt32).toNat = 32 := rfl; omega)
  · refine .inr ⟨hupper, ?_⟩
    unfold Char.toLower
    rw [dif_neg hupper]

theorem lowerChar_eq_self {c : Char} (hupper : ¬ (65 ≤ c.toNat ∧ c.toNat ≤ 90))
    (hkelvin : c ≠ '\u212A') : lowerChar c = c := by
  unfold lowerChar
  rw [if_neg hkelvin]
  rcases toLower_cases c with ⟨hlow, hhigh, -⟩ | ⟨-, heq⟩
  · exact absurd ⟨hlow, hhigh⟩ hupper
  · exact heq

theorem lowerChar_spec (c : Char) :
    ¬ (65 ≤ (lowerChar c).toNat ∧ (lowerChar c).toNat ≤ 90) ∧ lowerChar c ≠ '\u212A' := by
  unfold lowerChar
  by_cases hkelvin : c = '\u212A'
  · rw [if_pos hkelvin]
    decide
  rw [if_neg hkelvin]
  rcases toLower_cases c with ⟨hlow, hhigh, heq⟩ | ⟨hupper, heq⟩
  · refine ⟨by rw [heq]; omega, fun heq' ↦ ?_⟩
    rw [heq'] at heq
    have hcode : '\u212A'.toNat = 0x212A := rfl
    omega
  · rw [heq]
    exact ⟨hupper, hkelvin⟩

theorem lowerChar_eq_slash_iff {c : Char} : lowerChar c = '/' ↔ c = '/' := by
  constructor
  · intro heq
    unfold lowerChar at heq
    by_cases hkelvin : c = '\u212A'
    · rw [if_pos hkelvin] at heq
      exact absurd heq (by decide)
    rw [if_neg hkelvin] at heq
    rcases toLower_cases c with ⟨hlow, -, hlower⟩ | ⟨-, hself⟩
    · rw [heq] at hlower
      have hcode : '/'.toNat = 47 := rfl
      omega
    · rwa [hself] at heq
  · rintro rfl
    decide

theorem toList_lowerCase (path : String) : (lowerCase path).toList = path.toList.map lowerChar := by
  unfold lowerCase
  rw [String.toList_ofList]

theorem lowerCase_lowerCase (path : String) : lowerCase (lowerCase path) = lowerCase path := by
  rw [← String.toList_inj, toList_lowerCase, toList_lowerCase, List.map_map]
  exact List.map_congr_left fun c _ ↦
    lowerChar_eq_self (lowerChar_spec c).1 (lowerChar_spec c).2

theorem slash_not_mem_lowerCase {name : String} (h : '/' ∉ name.toList) :
    '/' ∉ (lowerCase name).toList := by
  rw [toList_lowerCase]
  intro hmem
  obtain ⟨c, hc, hslash⟩ := List.mem_map.1 hmem
  exact h (lowerChar_eq_slash_iff.1 hslash ▸ hc)

theorem isDirectoryOf_lowerCase_left {directory path : String} :
    IsDirectoryOf (lowerCase directory) path ↔ IsDirectoryOf directory path := by
  unfold IsDirectoryOf
  rw [lowerCase_lowerCase]

theorem isDirectoryOf_lowerCase_right {directory path : String} :
    IsDirectoryOf directory (lowerCase path) ↔ IsDirectoryOf directory path := by
  unfold IsDirectoryOf
  rw [lowerCase_lowerCase]

/-! ### Directories of a path -/

/-- A beginning that ends in a slash lies before what has no slash. -/
theorem prefix_append_iff {directory front last : List Char} (h : '/' ∉ last) :
    directory ++ ['/'] <+: front ++ last ↔ directory ++ ['/'] <+: front := by
  constructor
  · intro hprefix
    rcases Nat.lt_or_ge front.length (directory ++ ['/']).length with hlt | hle
    · obtain ⟨rest, hrest⟩ := hprefix
      have hfront : front <+: directory ++ ['/'] :=
        List.prefix_of_prefix_length_le (List.prefix_append _ _) ⟨rest, hrest⟩ hlt.le
      obtain ⟨middle, hmiddle⟩ := hfront
      rw [← hmiddle, List.append_assoc, List.append_cancel_left_eq] at hrest
      have hne : middle ≠ [] := by
        rintro rfl
        rw [List.append_nil] at hmiddle
        rw [← hmiddle] at hlt
        exact lt_irrefl _ hlt
      have hlast : middle.getLast? = some '/' := by
        have hget := congrArg List.getLast? hmiddle
        rwa [getLast?_append_of_ne_nil hne, List.getLast?_concat] at hget
      refine absurd ?_ h
      rw [← hrest]
      exact List.mem_append_left _ (List.mem_of_getLast? hlast)
    · exact List.prefix_of_prefix_length_le hprefix (List.prefix_append _ _) hle
  · exact fun hprefix ↦ hprefix.trans (List.prefix_append _ _)

/-- The directories of a path do not depend on its last name. -/
theorem isDirectoryOf_concat_iff {directory name name' : String} {front : List String}
    (hname : '/' ∉ name.toList) (hname' : '/' ∉ name'.toList) :
    IsDirectoryOf directory (ofSegments (front ++ [name])) ↔
      IsDirectoryOf directory (ofSegments (front ++ [name'])) := by
  have hsplit : ∀ other : String, '/' ∉ other.toList →
      (IsDirectoryOf directory (ofSegments (front ++ [other])) ↔
        front ≠ [] ∧ (lowerCase directory).toList ++ ['/'] <+:
          ((ofSegments front).toList ++ ['/']).map lowerChar) := by
    intro other hother
    unfold IsDirectoryOf
    obtain ⟨start, htext, hstart⟩ := exists_toList_ofSegments_concat front other
    have hlower := slash_not_mem_lowerCase hother
    rw [toList_lowerCase] at hlower
    rw [toList_lowerCase (ofSegments _), htext, List.map_append, prefix_append_iff hlower]
    rcases hstart with ⟨rfl, hfront⟩ | ⟨hfront, rfl⟩
    · refine iff_of_false (fun hprefix ↦ ?_) (fun hprefix ↦ hprefix.1 hfront)
      rw [List.map_nil, List.prefix_nil] at hprefix
      exact List.append_ne_nil_of_right_ne_nil _ (List.cons_ne_nil _ _) hprefix
    · exact (and_iff_right hfront).symm
  rw [hsplit name hname, hsplit name' hname']

/-! ### Names that are not used -/

/-- A numbered path keeps its number. -/
theorem lowerCase_numberedPath_injective {path name : String} {front : List String}
    (h : IsCleanPath path front name) (hname : IsName name) :
    Function.Injective fun number ↦ lowerCase (numberedPath path number) := by
  obtain ⟨stem, extension, hstem, hnumbered⟩ := exists_numberedPath h hname
  have htext : ∀ counter, (lowerCase (numberedPath path (counter + 1))).toList =
      ((ofSegments front).toList ++ ['/'] ++ stem.toList ++ ['_']).map lowerChar ++
        (toString (counter + 1)).toList ++ extension.toList.map lowerChar := by
    intro counter
    have hdigits : (toString (counter + 1)).toList.map lowerChar = (toString (counter + 1)).toList := by
      refine (List.map_congr_left fun c hc ↦ ?_).trans (List.map_id _)
      have hdigit := isDigit_of_mem_toString hc
      unfold Char.isDigit at hdigit
      simp only [Bool.and_eq_true, decide_eq_true_eq] at hdigit
      have hhigh : c.toNat ≤ 57 := hdigit.2
      refine lowerChar_eq_self (fun hupper ↦ by omega) ?_
      rintro rfl
      exact absurd hhigh (by decide)
    rw [hnumbered, ofSegments_concat h.front_ne_nil, toList_lowerCase]
    simp only [String.toList_append, List.map_append, hdigits, List.append_assoc]
    rfl
  have hzero : (lowerCase (numberedPath path 0)).toList =
      ((ofSegments front).toList ++ ['/'] ++ stem.toList).map lowerChar ++
        extension.toList.map lowerChar := by
    have hpath : numberedPath path 0 = path := rfl
    rw [hpath, h.eq, ofSegments_concat h.front_ne_nil, toList_lowerCase]
    simp only [String.toList_append, hstem.eq, List.map_append, List.append_assoc]
    rfl
  have hzero_ne : ∀ counter, lowerCase (numberedPath path 0) ≠
      lowerCase (numberedPath path (counter + 1)) := by
    intro counter heq
    have hlength := congrArg List.length (congrArg String.toList heq)
    rw [hzero, htext counter] at hlength
    simp only [List.length_append, List.length_map, List.length_singleton] at hlength
    omega
  intro first second heq
  dsimp only at heq
  cases first with
  | zero =>
    cases second with
    | zero => rfl
    | succ second => exact absurd heq (hzero_ne second)
  | succ first =>
    cases second with
    | zero => exact absurd heq.symm (hzero_ne first)
    | succ second =>
      have htexts := congrArg String.toList heq
      rw [htext first, htext second, List.append_cancel_right_eq, List.append_cancel_left_eq,
        String.toList_inj] at htexts
      rw [Nat.toString_eq_ofList_toDigits, Nat.toString_eq_ofList_toDigits] at htexts
      have hdigits := congrArg String.toList htexts
      rw [String.toList_ofList, String.toList_ofList] at hdigits
      have hnumber := Nat.ofDigitChars_toDigits (n := first + 1) (by decide : 1 < 10) (by decide)
      rwa [hdigits, Nat.ofDigitChars_toDigits (by decide) (by decide), eq_comm] at hnumber

/-- Of as many candidates as there are names used, and one more, one is chosen that is not used. -/
theorem firstUnused_cases (path : String) (used : List String) (fuel counter : ℕ) :
    lowerCase (firstUnused path used fuel counter) ∉ used ∨
      ∀ number, counter ≤ number → number ≤ counter + fuel →
        lowerCase (numberedPath path number) ∈ used := by
  induction fuel generalizing counter with
  | zero =>
    by_cases hmem : lowerCase (numberedPath path counter) ∈ used
    · refine .inr fun number hle hge ↦ ?_
      rwa [show number = counter by omega]
    · exact .inl hmem
  | succ fuel ih =>
    unfold firstUnused
    by_cases hmem : lowerCase (numberedPath path counter) ∈ used
    · rw [if_pos (List.contains_iff_mem.2 hmem)]
      refine (ih (counter + 1)).imp_right fun hused number hle hge ↦ ?_
      by_cases hnumber : number = counter
      · rwa [hnumber]
      · exact hused number (by omega) (by omega)
    · rw [if_neg fun hcontains ↦ hmem (List.contains_iff_mem.1 hcontains)]
      exact .inl hmem

/-- The path that is given is not used. -/
theorem deduplicatePath_not_mem {path name : String} {front : List String}
    (h : IsCleanPath path front name) (hname : IsName name) (used : List String) :
    lowerCase (deduplicatePath path used) ∉ used := by
  rcases firstUnused_cases path used used.length 0 with hfree | hused
  · exact hfree
  · have hnodup : ((List.range (used.length + 1)).map fun number ↦
        lowerCase (numberedPath path number)).Nodup :=
      List.nodup_range.map (lowerCase_numberedPath_injective h hname)
    have hsubset : ((List.range (used.length + 1)).map fun number ↦
        lowerCase (numberedPath path number)) ⊆ used := by
      intro text htext
      obtain ⟨number, hnumber, rfl⟩ := List.mem_map.1 htext
      exact hused number (Nat.zero_le _) (by have := List.mem_range.1 hnumber; omega)
    have hlength := hnodup.length_le_of_subset hsubset
    rw [List.length_map, List.length_range] at hlength
    omega

/-- The directories of a path that is given are those of the path that is wanted. -/
theorem isDirectoryOf_deduplicatePath_iff {directory path name : String} {front : List String}
    (h : IsCleanPath path front name) (hname : IsName name) (used : List String) :
    IsDirectoryOf directory (deduplicatePath path used) ↔ IsDirectoryOf directory path := by
  obtain ⟨number, hnumber⟩ := exists_firstUnused path used used.length 0
  unfold deduplicatePath
  rw [hnumber]
  cases number with
  | zero => rfl
  | succ counter =>
    obtain ⟨stem, extension, hstem, hnumbered⟩ := exists_numberedPath h hname
    rw [hnumbered, h.eq]
    refine isDirectoryOf_concat_iff ?_ hname.slash_not_mem
    have hslash := hname.slash_not_mem
    rw [hstem.eq, List.mem_append, not_or] at hslash
    rw [String.toList_append, String.toList_append, String.toList_append]
    simp only [List.mem_append, not_or]
    refine ⟨⟨⟨hslash.1, by decide⟩, fun hdigit ↦ ?_⟩, hslash.2⟩
    exact absurd (isDigit_of_mem_toString hdigit) (by decide)

/-! ### Wanted paths -/

/-- A path whose last segment is a name, in a directory of safe components. -/
def IsWanted (path : String) : Prop :=
  ∃ front name, IsCleanPath path front name ∧ IsName name

theorem slash_not_mem_extensionOf (mime : String) : '/' ∉ (extensionOf mime).toList := by
  rcases extensionOf_cases mime with ⟨-, hempty | htable⟩ | ⟨-, htext⟩
  · rw [hempty]
    exact List.not_mem_nil
  · obtain ⟨rest, hrest, -, -, hkept⟩ := mimeExtensions_spec htable
    rw [hrest]
    intro hmem
    rcases List.mem_cons.1 hmem with hmem | hmem
    · exact absurd hmem (by decide)
    · exact absurd (List.all_eq_true.1 hkept _ hmem) (by decide)
  · exact (inheritedProperties_spec htext).2.1

theorem isWanted_inferExtension {p : Platform} {path name : String} {front : List String}
    (h : IsCleanPath path front name) (hname : IsSafeComponent name.toList) (contentType : String) :
    IsWanted (inferExtension p path contentType) := by
  unfold inferExtension
  by_cases hdot : '.' ∈ (basename path).toList
  · rw [if_pos hdot]
    exact ⟨front, name, h, hname.isName_toList⟩
  rw [if_neg hdot]
  refine ⟨front, name ++ extensionOf (mimeOf p contentType), ⟨?_, h.front_ne_nil, h.front_safe⟩, ?_⟩
  · rw [h.eq, ofSegments_concat h.front_ne_nil, ofSegments_concat h.front_ne_nil,
      String.append_assoc]
  · have hhead : ∀ other : String, name ++ extensionOf (mimeOf p contentType) = other →
        name.toList <+: other.toList := by
      rintro other rfl
      rw [String.toList_append]
      exact List.prefix_append _ _
    refine ⟨fun heq ↦ ?_, fun heq ↦ ?_, fun heq ↦ ?_, ?_⟩
    · exact hname.ne_nil (List.prefix_nil.1 (hhead _ heq))
    · obtain ⟨rest, hrest⟩ := hhead _ heq
      rcases List.append_eq_singleton_iff.1 hrest with ⟨hnil, -⟩ | ⟨hone, -⟩
      · exact hname.ne_nil hnil
      · exact hname.ne_dot hone
    · have hprefix := hhead _ heq
      have hlength := hprefix.length_le
      have htake := List.prefix_iff_eq_take.1 hprefix
      have hsmall : name.toList.length = 0 ∨ name.toList.length = 1 ∨ name.toList.length = 2 := by
        have htwo : "..".toList.length = 2 := rfl
        omega
      rcases hsmall with hsmall | hsmall | hsmall
      · exact hname.ne_nil (List.length_eq_zero_iff.1 hsmall)
      · rw [hsmall] at htake
        exact hname.ne_dot htake
      · rw [hsmall] at htake
        exact hname.ne_dots htake
    · rw [String.toList_append, List.mem_append, not_or]
      exact ⟨hname.isName_toList.slash_not_mem, slash_not_mem_extensionOf _⟩

theorem isSafeComponent_of_hexDigest {p : Platform} (hhex : p.HexDigest) (bytes : ByteString) :
    IsSafeComponent (p.sha256 bytes).toList := by
  obtain ⟨hlength, hchars⟩ := hhex bytes
  have hall : ("0123456789abcdef".toList.all fun c ↦ isKept c && decide (c ≠ '.')) = true := by
    decide
  have hkept : ∀ c ∈ (p.sha256 bytes).toList, isKept c = true ∧ c ≠ '.' := by
    intro c hc
    have h := List.all_eq_true.1 hall c (hchars c hc)
    rw [Bool.and_eq_true, decide_eq_true_eq] at h
    exact h
  have hdot : '.' ∉ (p.sha256 bytes).toList := fun hmem ↦ (hkept _ hmem).2 rfl
  refine IsSafeComponent.mk' ?_ (fun c hc ↦ isPathChar_of_isKept (hkept c hc).1) ?_ ?_
  · intro hnil
    rw [hnil] at hlength
    exact absurd hlength (by decide)
  · exact fun hlast ↦ hdot (List.mem_of_getLast? hlast)
  · refine not_device_of_length ?_
    have happend := baseOf_append_of_not_mem hdot []
    rw [List.append_nil, show baseOf [] = [] from rfl, List.append_nil] at happend
    rw [happend, hlength]
    decide

theorem isWanted_desiredPath {p : Platform} (hhex : p.HexDigest) {options : StaticClonePlanOptions}
    {resource : CloneInputResource} {body : ByteString} {desired : String}
    (h : desiredPath p options resource body = some desired) : IsWanted desired := by
  unfold desiredPath at h
  by_cases hcontent : options.contentAddressedResources = true
  · rw [if_pos hcontent] at h
    rw [← Option.some.inj h]
    have hsafe := isSafeComponent_of_hexDigest hhex body
    have hassets : IsSafeComponent "assets".toList := by
      refine IsSafeComponent.mk' (by decide) ?_ (by decide) (by decide)
      intro c hc
      have hall : ("assets".toList.all isKept) = true := by decide
      exact isPathChar_of_isKept (List.all_eq_true.1 hall c hc)
    have hclean : IsCleanPath (join ["assets", p.sha256 body]) ["assets"] (p.sha256 body) := by
      refine ⟨?_, List.cons_ne_nil _ _, ?_⟩
      · refine join_names fun other hother ↦ ?_
        rcases List.mem_cons.1 hother with rfl | hother
        · exact hassets.isName_toList
        · rw [List.mem_singleton.1 hother]
          exact hsafe.isName_toList
      · intro component hcomponent
        rw [List.mem_singleton.1 hcomponent]
        exact hassets
    exact isWanted_inferExtension hclean hsafe _
  · rw [if_neg hcontent] at h
    obtain ⟨path, hpath, rfl⟩ := Option.map_eq_some_iff.1 h
    obtain ⟨front, name, hclean, hname⟩ := exists_urlToLocalPath hpath
    exact isWanted_inferExtension hclean hname _

theorem isWanted_mainPathOf {p : Platform} {finalUrl mainPath : String}
    {options : StaticClonePlanOptions} (hmain : options.mainPath = none)
    (h : mainPathOf p finalUrl options = some mainPath) : IsWanted mainPath := by
  unfold mainPathOf at h
  rw [hmain] at h
  obtain ⟨path, hpath, rfl⟩ := Option.map_eq_some_iff.1 h
  obtain ⟨front, name, hclean, hname⟩ := exists_urlToLocalPath hpath
  exact isWanted_inferExtension hclean hname _

theorem IsWanted.slash_mem {path : String} (h : IsWanted path) : '/' ∈ path.toList := by
  obtain ⟨front, name, hclean, -⟩ := h
  rw [hclean.eq, ofSegments_concat hclean.front_ne_nil, String.toList_append, String.toList_append]
  exact List.mem_append_left _ (List.mem_append_right _ (List.mem_cons_self ..))

theorem IsWanted.slash_mem_deduplicatePath {path : String} (h : IsWanted path)
    (used : List String) : '/' ∈ (deduplicatePath path used).toList := by
  obtain ⟨front, name, hclean, hname⟩ := h
  obtain ⟨number, hnumber⟩ := exists_firstUnused path used used.length 0
  unfold deduplicatePath
  rw [hnumber]
  cases number with
  | zero => exact IsWanted.slash_mem ⟨front, name, hclean, hname⟩
  | succ counter =>
    obtain ⟨stem, extension, -, hnumbered⟩ := exists_numberedPath hclean hname
    rw [hnumbered, ofSegments_concat hclean.front_ne_nil, String.toList_append,
      String.toList_append]
    exact List.mem_append_left _ (List.mem_append_right _ (List.mem_cons_self ..))

/-! ### The steps of a plan -/

/-- The paths of the document and of the resources planned so far. -/
def Planning.paths (mainPath : String) (s : Planning) : List String :=
  mainPath :: s.planned.filterMap PlannedResource.localPath

/-- The names that are used are those of the paths, which are distinct and lie in directories,
except for the document. -/
structure Planning.Named (options : StaticClonePlanOptions) (mainPath : String) (s : Planning) :
    Prop where
  used : ∀ name, name ∈ s.used ↔ ∃ path ∈ s.paths mainPath, lowerCase path = name
  shared : ∀ entry ∈ s.contentPaths, entry.2 ∈ s.paths mainPath
  distinct : ∀ a ∈ s.paths mainPath, ∀ b ∈ s.paths mainPath, lowerCase a = lowerCase b → a = b
  nodup : options.contentAddressedResources = false → (s.paths mainPath).Nodup
  slash : ∀ path ∈ s.paths mainPath, path = mainPath ∨ '/' ∈ path.toList

variable {p : Platform} {finalUrl mainPath : String} {options : StaticClonePlanOptions}
  {s s' : Planning} {resource : CloneInputResource}

/-- A path that is shared is one of those that were planned. -/
theorem decideResource_spec {decision : Decision}
    (h : decideResource p finalUrl options s resource = some decision) :
    (∃ reason, decision = .skip reason) ∨
      (∃ url path key, decision = .share url path ∧ options.contentAddressedResources = true ∧
        (key, path) ∈ s.contentPaths) ∨
      ∃ url key desired bytes body, decision = .add url key desired bytes ∧
        desiredPath p options resource body = some desired := by
  rcases decideResource_cases h with hskip | ⟨body, desired, url, -, -, hdesired, -,
    ⟨path, rfl, hcontent, hlookup⟩ | ⟨rfl, -⟩⟩
  · exact .inl hskip
  · obtain ⟨front, rest, heq, -⟩ := List.lookup_eq_some_iff.1 hlookup
    refine .inr (.inl ⟨url, path, contentKey resource desired url, rfl, hcontent, ?_⟩)
    rw [heq]
    exact List.mem_append_right _ (List.mem_cons_self ..)
  · exact .inr (.inr ⟨_, _, _, _, body, rfl, hdesired⟩)

/-- The paths that a decision plans. -/
def Planning.newPaths (s : Planning) : Decision → List String
  | .skip _ => []
  | .share _ path => [path]
  | .add _ _ desired _ => [deduplicatePath desired s.used]

theorem paths_apply (decision : Decision) :
    (s.apply mainPath options resource decision).paths mainPath =
      s.paths mainPath ++ s.newPaths decision := by
  cases decision with
  | skip reason =>
    unfold Planning.paths Planning.apply
    rw [List.filterMap_append]
    rfl
  | share url path =>
    unfold Planning.paths Planning.apply
    rw [List.filterMap_append]
    rfl
  | add url key desired bytes =>
    unfold Planning.paths Planning.apply
    rw [List.filterMap_append]
    rfl

theorem Planning.Named.apply (hhex : p.HexDigest) (h : s.Named options mainPath) {decision : Decision}
    (hdecide : decideResource p finalUrl options s resource = some decision) :
    (s.apply mainPath options resource decision).Named options mainPath := by
  rcases decideResource_spec hdecide with ⟨reason, rfl⟩ | ⟨url, path, key, rfl, hcontent, hshared⟩ |
    ⟨url, key, desired, bytes, body, rfl, hdesired⟩
  · have hpaths : (s.apply mainPath options resource (.skip reason)).paths mainPath =
        s.paths mainPath := (paths_apply _).trans (List.append_nil _)
    exact ⟨by rw [hpaths]; exact h.used, by rw [hpaths]; exact h.shared, by
      rw [hpaths]; exact h.distinct, by rw [hpaths]; exact h.nodup, by rw [hpaths]; exact h.slash⟩
  · have hmem : ∀ other, other ∈ (s.apply mainPath options resource (.share url path)).paths
        mainPath ↔ other ∈ s.paths mainPath := by
      intro other
      rw [paths_apply, Planning.newPaths, List.mem_append, List.mem_singleton]
      exact or_iff_left_of_imp fun heq ↦ heq ▸ h.shared _ hshared
    refine ⟨fun name ↦ ?_, fun entry hentry ↦ (hmem _).2 (h.shared entry hentry), ?_, ?_, ?_⟩
    · simp only [hmem]
      exact h.used name
    · simp only [hmem]
      exact h.distinct
    · intro hseparate
      rw [hcontent] at hseparate
      cases hseparate
    · simp only [hmem]
      exact h.slash
  · have hwanted := isWanted_desiredPath hhex hdesired
    obtain ⟨front, name, hclean, hname⟩ := hwanted
    have hfresh := deduplicatePath_not_mem hclean hname s.used
    have hmem : ∀ other, other ∈ (s.apply mainPath options resource
        (.add url key desired bytes)).paths mainPath ↔
          other ∈ s.paths mainPath ∨ other = deduplicatePath desired s.used := by
      intro other
      rw [paths_apply, Planning.newPaths, List.mem_append, List.mem_singleton]
    refine ⟨fun name ↦ ?_, fun entry hentry ↦ ?_, ?_, ?_, ?_⟩
    · show name ∈ s.used ++ [lowerCase (deduplicatePath desired s.used)] ↔ _
      simp only [hmem]
      rw [List.mem_append, List.mem_singleton, h.used]
      constructor
      · rintro (⟨path, hpath, heq⟩ | heq)
        · exact ⟨path, .inl hpath, heq⟩
        · exact ⟨_, .inr rfl, heq.symm⟩
      · rintro ⟨path, hpath | rfl, heq⟩
        · exact .inl ⟨path, hpath, heq⟩
        · exact .inr heq.symm
    · rw [hmem]
      have hentry' : entry ∈ s.contentPaths ∨ entry = (key, deduplicatePath desired s.used) := by
        have hentry'' : entry ∈ if options.contentAddressedResources = true then
            s.contentPaths ++ [(key, deduplicatePath desired s.used)] else s.contentPaths := hentry
        by_cases hcontent : options.contentAddressedResources = true
        · rwa [if_pos hcontent, List.mem_append, List.mem_singleton] at hentry''
        · rw [if_neg hcontent] at hentry''
          exact .inl hentry''
      rcases hentry' with hentry' | rfl
      · exact .inl (h.shared entry hentry')
      · exact .inr rfl
    · intro a ha b hb heq
      rcases (hmem a).1 ha with ha | rfl <;> rcases (hmem b).1 hb with hb | rfl
      · exact h.distinct a ha b hb heq
      · exact absurd ((h.used _).2 ⟨a, ha, heq⟩) hfresh
      · exact absurd ((h.used _).2 ⟨b, hb, heq.symm⟩) hfresh
      · rfl
    · intro hseparate
      rw [paths_apply, Planning.newPaths]
      refine List.nodup_append.2 ⟨h.nodup hseparate, List.nodup_singleton _, ?_⟩
      intro path hpath other hother heq
      rw [List.mem_singleton.1 hother] at heq
      exact hfresh ((h.used _).2 ⟨path, hpath, by rw [heq]⟩)
    · intro path hpath
      rcases (hmem path).1 hpath with hpath | rfl
      · exact h.slash path hpath
      · exact .inr <| IsWanted.slash_mem_deduplicatePath ⟨front, name, hclean, hname⟩ s.used

theorem Planning.Named.start (htmlBytes : ℕ) :
    (Planning.start mainPath htmlBytes).Named options mainPath where
  used name := by
    show name ∈ [lowerCase mainPath] ↔ ∃ path ∈ [mainPath], lowerCase path = name
    simp only [List.mem_singleton, exists_eq_left]
    exact eq_comm
  shared entry hentry := by cases hentry
  distinct a ha b hb _ := by
    rw [List.mem_singleton.1 ha, List.mem_singleton.1 hb]
  nodup _ := List.nodup_singleton _
  slash path hpath := .inl (List.mem_singleton.1 hpath)

/-! ### Directories -/

theorem not_isDirectoryOf_self (path : String) : ¬ IsDirectoryOf path path := by
  intro h
  have hlength := h.length_le
  rw [List.length_append, List.length_singleton] at hlength
  omega

theorem not_isDirectoryOf_of_slash_not_mem {directory path : String} (h : '/' ∉ path.toList) :
    ¬ IsDirectoryOf directory path := by
  intro hdirectory
  refine slash_not_mem_lowerCase h (hdirectory.subset ?_)
  exact List.mem_append_right _ (List.mem_singleton_self _)

/-- No path is a directory of another one. -/
def NoDirectory (paths : List String) : Prop :=
  ∀ a ∈ paths, ∀ b ∈ paths, ¬ IsDirectoryOf a b

/-- One more path keeps files and directories apart if neither is a directory of the other. -/
theorem noDirectory_concat_iff {paths : List String} {given : String} :
    NoDirectory (paths ++ [given]) ↔ NoDirectory paths ∧
      ∀ path ∈ paths, ¬ IsDirectoryOf path given ∧ ¬ IsDirectoryOf given path := by
  unfold NoDirectory
  constructor
  · intro hall
    have hgiven : given ∈ paths ++ [given] := List.mem_concat_self
    exact ⟨fun a ha b hb ↦ hall a (List.mem_append_left _ ha) b (List.mem_append_left _ hb),
      fun path hpath ↦ ⟨hall path (List.mem_append_left _ hpath) given hgiven,
        hall given hgiven path (List.mem_append_left _ hpath)⟩⟩
  · rintro ⟨hall, hgives⟩ a ha b hb
    rw [List.mem_append, List.mem_singleton] at ha hb
    rcases ha with ha | rfl <;> rcases hb with hb | rfl
    · exact hall a ha b hb
    · exact (hgives a ha).1
    · exact (hgives b hb).2
    · exact not_isDirectoryOf_self _

/-- A step keeps files and directories apart if and only if a new file is given a free name. -/
theorem noDirectory_apply_iff (hhex : p.HexDigest) (h : s.Named options mainPath) {decision : Decision}
    (hdecide : decideResource p finalUrl options s resource = some decision) :
    NoDirectory ("manifest.json" :: (s.apply mainPath options resource decision).paths mainPath) ↔
      NoDirectory ("manifest.json" :: s.paths mainPath) ∧
        ∀ url key desired bytes, decision = .add url key desired bytes →
          s.GivesFreeName desired := by
  rcases decideResource_spec hdecide with ⟨reason, rfl⟩ | ⟨url, path, key, rfl, hcontent, hshared⟩ |
    ⟨url, key, desired, bytes, body, rfl, hdesired⟩
  · rw [paths_apply, Planning.newPaths, List.append_nil]
    exact (and_iff_left fun url key desired bytes heq ↦ by cases heq).symm
  · have hmem : ∀ other, other ∈ "manifest.json" ::
        (s.apply mainPath options resource (.share url path)).paths mainPath ↔
          other ∈ "manifest.json" :: s.paths mainPath := by
      intro other
      rw [paths_apply, Planning.newPaths, List.mem_cons, List.mem_cons, List.mem_append,
        List.mem_singleton]
      refine or_congr_right (or_iff_left_of_imp fun heq ↦ ?_)
      rw [heq]
      exact h.shared _ hshared
    unfold NoDirectory
    simp only [hmem]
    exact (and_iff_left fun url key desired bytes heq ↦ by cases heq).symm
  · obtain ⟨front, name, hclean, hname⟩ := isWanted_desiredPath hhex hdesired
    have hnames : ∀ P : String → Prop, (∀ path, P (lowerCase path) ↔ P path) →
        ((∀ name ∈ "manifest.json" :: s.used, P name) ↔
          ∀ path ∈ "manifest.json" :: s.paths mainPath, P path) := by
      intro P hP
      constructor
      · intro hall path hpath
        rcases List.mem_cons.1 hpath with rfl | hpath
        · exact hall _ (List.mem_cons_self ..)
        · exact (hP path).1 (hall _ (List.mem_cons_of_mem _ ((h.used _).2 ⟨path, hpath, rfl⟩)))
      · intro hall name hname
        rcases List.mem_cons.1 hname with rfl | hname
        · exact hall _ (List.mem_cons_self ..)
        · obtain ⟨path, hpath, rfl⟩ := (h.used name).1 hname
          exact (hP path).2 (hall path (List.mem_cons_of_mem _ hpath))
    have hfree : s.GivesFreeName desired ↔ ∀ path ∈ "manifest.json" :: s.paths mainPath,
        ¬ IsDirectoryOf path (deduplicatePath desired s.used) ∧
          ¬ IsDirectoryOf (deduplicatePath desired s.used) path := by
      unfold Planning.GivesFreeName
      simp only [isDirectoryOf_deduplicatePath_iff hclean hname]
      refine hnames (fun path ↦ ¬ IsDirectoryOf path desired ∧
        ¬ IsDirectoryOf (deduplicatePath desired s.used) path) fun path ↦ ?_
      rw [isDirectoryOf_lowerCase_left, isDirectoryOf_lowerCase_right]
    have hadd : (∀ url' key' desired' bytes', Decision.add url key desired bytes =
        .add url' key' desired' bytes' → s.GivesFreeName desired') ↔ s.GivesFreeName desired := by
      constructor
      · intro hall
        exact hall _ _ _ _ rfl
      · intro hgives url' key' desired' bytes' heq
        cases heq
        exact hgives
    have hpaths : (s.apply mainPath options resource (.add url key desired bytes)).paths mainPath =
        s.paths mainPath ++ [deduplicatePath desired s.used] := paths_apply _
    rw [hadd, hfree, hpaths, ← List.cons_append, noDirectory_concat_iff]

/-! ### The plan -/

/-- Every step that plans a new file, from the variables `s`, gives it a free name. -/
def StepsGiveFreeNames (p : Platform) (finalUrl mainPath : String)
    (options : StaticClonePlanOptions) (s : Planning) (resources : List CloneInputResource) : Prop :=
  ∀ front resource rest, resources = front ++ resource :: rest →
    ∀ before, front.foldlM (planResource p finalUrl mainPath options) s = some before →
      ∀ url key desired bytes,
        decideResource p finalUrl options before resource = some (.add url key desired bytes) →
          before.GivesFreeName desired

theorem stepsGiveFreeNames_nil : StepsGiveFreeNames p finalUrl mainPath options s [] := by
  intro front resource rest heq
  cases front <;> cases heq

theorem stepsGiveFreeNames_cons_iff {rest : List CloneInputResource} {decision : Decision}
    (hdecide : decideResource p finalUrl options s resource = some decision) :
    StepsGiveFreeNames p finalUrl mainPath options s (resource :: rest) ↔
      (∀ url key desired bytes, decision = .add url key desired bytes → s.GivesFreeName desired) ∧
        StepsGiveFreeNames p finalUrl mainPath options
          (s.apply mainPath options resource decision) rest := by
  have hplan : planResource p finalUrl mainPath options s resource =
      some (s.apply mainPath options resource decision) := by
    unfold planResource
    rw [hdecide]
    rfl
  constructor
  · intro hall
    refine ⟨fun url key desired bytes heq ↦ ?_, fun front other rest' heq before hbefore ↦ ?_⟩
    · refine hall [] resource rest rfl s rfl url key desired bytes ?_
      rw [hdecide, heq]
    · refine hall (resource :: front) other rest' (by rw [heq]; rfl) before ?_
      rw [List.foldlM_cons, hplan]
      exact hbefore
  · rintro ⟨hfirst, hrest⟩ front other rest' heq before hbefore
    cases front with
    | nil =>
      cases heq
      cases hbefore
      intro url key desired bytes hother
      rw [hdecide] at hother
      exact hfirst url key desired bytes (Option.some.inj hother)
    | cons first front =>
      cases heq
      rw [List.foldlM_cons, hplan] at hbefore
      exact hrest front other rest' rfl before hbefore

/-- The loop keeps the names, and keeps files and directories apart if and only if its steps give
free names. -/
theorem foldlM_planResource (hhex : p.HexDigest) {resources : List CloneInputResource}
    (h : s.Named options mainPath)
    (hrun : resources.foldlM (planResource p finalUrl mainPath options) s = some s') :
    s'.Named options mainPath ∧
      (NoDirectory ("manifest.json" :: s'.paths mainPath) ↔
        NoDirectory ("manifest.json" :: s.paths mainPath) ∧
          StepsGiveFreeNames p finalUrl mainPath options s resources) := by
  induction resources generalizing s with
  | nil =>
    cases hrun
    exact ⟨h, (and_iff_left stepsGiveFreeNames_nil).symm⟩
  | cons resource rest ih =>
    rw [List.foldlM_cons] at hrun
    obtain ⟨middle, hmiddle, hrun⟩ := Option.bind_eq_some_iff.1 hrun
    obtain ⟨decision, hdecide, rfl⟩ := Option.map_eq_some_iff.1 hmiddle
    obtain ⟨hnamed, hiff⟩ := ih (h.apply hhex hdecide) hrun
    refine ⟨hnamed, ?_⟩
    rw [hiff, noDirectory_apply_iff hhex h hdecide, stepsGiveFreeNames_cons_iff hdecide, and_assoc]

theorem extractable_paths_iff (hhex : p.HexDigest) {resources : List CloneInputResource}
    {htmlBytes : ℕ} {plan : StaticClonePlan}
    (hmain : ∀ path, options.mainPath = some path → lowerCase path ≠ "manifest.json")
    (hplan : planStaticClone p finalUrl resources htmlBytes options = some plan) :
    Extractable plan.paths ∧ (options.contentAddressedResources = false → plan.paths.Nodup) ↔
      ¬ IsDirectoryOf "manifest.json" plan.mainPath ∧
        StepsGiveFreeNames p finalUrl plan.mainPath options
          (Planning.start plan.mainPath htmlBytes) resources := by
  unfold planStaticClone at hplan
  obtain ⟨mainPath, hmainPath, hplan⟩ := Option.bind_eq_some_iff.1 hplan
  obtain ⟨s, hrun, hplan⟩ := Option.bind_eq_some_iff.1 hplan
  cases hplan
  obtain ⟨hnamed, hiff⟩ := foldlM_planResource hhex (Planning.Named.start htmlBytes) hrun
  have hmanifest : '/' ∉ "manifest.json".toList := by decide
  have hstart : NoDirectory ("manifest.json" :: (Planning.start mainPath htmlBytes).paths mainPath) ↔
      ¬ IsDirectoryOf "manifest.json" mainPath := by
    show NoDirectory ["manifest.json", mainPath] ↔ _
    unfold NoDirectory
    simp only [List.mem_cons, List.not_mem_nil, or_false, forall_eq_or_imp, forall_eq]
    constructor
    · intro hall
      exact hall.1.2
    · intro hfree
      exact ⟨⟨not_isDirectoryOf_self _, hfree⟩, not_isDirectoryOf_of_slash_not_mem hmanifest,
        not_isDirectoryOf_self _⟩
  have hpaths : StaticClonePlan.paths
      { finalUrl := finalUrl, mainPath := mainPath, resources := s.planned
        replacements := s.replacements
        allowExternalVisualResources := options.allowExternalVisualResources } =
      "manifest.json" :: s.paths mainPath := rfl
  -- No path of the plan is that of the manifest: it lies in a directory or is the document.
  have hne : ∀ path ∈ s.paths mainPath, lowerCase path ≠ lowerCase "manifest.json" := by
    intro path hpath heq
    have hslashes : ∀ other : String, '/' ∈ other.toList →
        lowerCase other ≠ lowerCase "manifest.json" := by
      intro other hother heq
      refine slash_not_mem_lowerCase hmanifest ?_
      rw [← heq, toList_lowerCase]
      exact List.mem_map.2 ⟨'/', hother, lowerChar_eq_slash_iff.2 rfl⟩
    rcases hnamed.slash path hpath with rfl | hslash
    · by_cases hoption : options.mainPath = some path
      · exact hmain path hoption heq
      · refine hslashes path (isWanted_mainPathOf ?_ hmainPath).slash_mem heq
        cases hgiven : options.mainPath with
        | none => rfl
        | some other =>
          unfold mainPathOf at hmainPath
          rw [hgiven] at hmainPath
          cases hmainPath
          exact absurd hgiven hoption
    · exact hslashes path hslash heq
  have hextract : Extractable ("manifest.json" :: s.paths mainPath) ↔
      NoDirectory ("manifest.json" :: s.paths mainPath) := by
    refine ⟨fun h ↦ h.no_directory, fun h ↦ ⟨fun a ha b hb heq ↦ ?_, h⟩⟩
    rcases List.mem_cons.1 ha with rfl | ha <;> rcases List.mem_cons.1 hb with rfl | hb
    · rfl
    · exact absurd heq.symm (hne b hb)
    · exact absurd heq (hne a ha)
    · exact hnamed.distinct a ha b hb heq
  have hnodup : options.contentAddressedResources = false →
      ("manifest.json" :: s.paths mainPath).Nodup := by
    intro hseparate
    exact List.nodup_cons.2 ⟨fun hmem ↦ hne _ hmem rfl, hnamed.nodup hseparate⟩
  rw [hpaths, and_iff_left hnodup, hextract, hiff, hstart]

/-- The files of a plan are distinct ignoring case and can be extracted side by side, if and only
if every new file is given a free name and the document does not lie in a directory
`manifest.json`. Two resources have one file only where files are named by their contents. -/
theorem plan_extractable_iff (p : Platform) (hhex : p.HexDigest) (finalUrl : String)
    (resources : List CloneInputResource) (htmlBytes : ℕ) (options : StaticClonePlanOptions)
    (hmain : ∀ path, options.mainPath = some path → lowerCase path ≠ "manifest.json")
    (plan : StaticClonePlan)
    (hplan : planStaticClone p finalUrl resources htmlBytes options = some plan) :
    Extractable plan.paths ∧ (options.contentAddressedResources = false → plan.paths.Nodup) ↔
      ¬ IsDirectoryOf "manifest.json" plan.mainPath ∧
        StepsGiveFreeNames p finalUrl plan.mainPath options
          (Planning.start plan.mainPath htmlBytes) resources :=
  extractable_paths_iff hhex hmain hplan

/-! ### A script in a directory that is a file -/

theorem Platform.hexDigest_sample : Platform.sample.HexDigest := by
  intro bytes
  refine ⟨?_, fun c hc ↦ Sha256.mem_hex hc⟩
  show (Sha256.hex (Sha256.sum bytes)).toList.length = 64
  rw [Sha256.length_hex, Sha256.length_sum]

/-- A resource of one byte. -/
def CloneInputResource.sample (sourceUrl : String) : CloneInputResource where
  sequence := 0
  sourceUrl := sourceUrl
  publicUrl := sourceUrl
  resourceType := "script"
  mimeType := "text/javascript"
  body := some [0x3B]
  wasTruncated := false
  skipReason := none

/-- The plan of a page that loads `/lib.v1` and another script. -/
def StaticClonePlan.sample (script : String) : StaticClonePlan where
  finalUrl := "https://example.com/"
  mainPath := "example.com/index.html"
  resources := [
    { CloneInputResource.sample "https://example.com/lib.v1" with
      localPath := some "example.com/lib.v1" },
    { CloneInputResource.sample ("https://example.com/" ++ script) with
      localPath := some ("example.com/" ++ script) }]
  replacements := [("https://example.com/lib.v1", "lib.v1"),
    ("https://example.com/" ++ script, script)]
  allowExternalVisualResources := false

theorem planStaticClone_file :
    planStaticClone Platform.sample "https://example.com/"
      [.sample "https://example.com/lib.v1", .sample "https://example.com/app.js"] 20 {} =
      some (.sample "app.js") := by
  decide +kernel

theorem planStaticClone_directory :
    planStaticClone Platform.sample "https://example.com/"
      [.sample "https://example.com/lib.v1", .sample "https://example.com/lib.v1/app.js"] 20 {} =
      some (.sample "lib.v1/app.js") := by
  decide +kernel

theorem plan_extractable_iff_file :
    Extractable (StaticClonePlan.sample "app.js").paths ∧
        (false = false → (StaticClonePlan.sample "app.js").paths.Nodup) ↔
      ¬ IsDirectoryOf "manifest.json" "example.com/index.html" ∧
        StepsGiveFreeNames Platform.sample "https://example.com/" "example.com/index.html" {}
          (Planning.start "example.com/index.html" 20)
          [.sample "https://example.com/lib.v1", .sample "https://example.com/app.js"] :=
  plan_extractable_iff Platform.sample Platform.hexDigest_sample "https://example.com/"
    [.sample "https://example.com/lib.v1", .sample "https://example.com/app.js"] 20 {}
    (fun path hpath ↦ by cases hpath) (.sample "app.js") planStaticClone_file

/-- `lib.v1` is a file, and the directory of `lib.v1/app.js`. -/
theorem file_is_directory :
    ¬ ∀ (finalUrl : String) (resources : List CloneInputResource) (htmlBytes : ℕ)
      (plan : StaticClonePlan),
      planStaticClone Platform.sample finalUrl resources htmlBytes {} = some plan →
        Extractable plan.paths := by
  intro h
  have hextract := h _ _ _ _ planStaticClone_directory
  refine hextract.no_directory "example.com/lib.v1" ?_ "example.com/lib.v1/app.js" ?_ ?_
  · exact List.mem_cons_of_mem _ (List.mem_cons_of_mem _ (List.mem_cons_self ..))
  · exact List.mem_cons_of_mem _ (List.mem_cons_of_mem _ (List.mem_cons_of_mem _
      (List.mem_cons_self ..)))
  · show (lowerCase "example.com/lib.v1").toList ++ ['/'] <+:
      (lowerCase "example.com/lib.v1/app.js").toList
    decide +kernel

end WebLens.StaticClone
