import WebLens.SiteClone.Selection
import WebLens.Lib.Sha256
import WebLens.StaticClone.Paths

/-!
# Safe archive paths

What `urlToLocalPath`, `inferExtension` and `deduplicatePath` make of a URL and a MIME type is a
relative path of safe components, unless the MIME type names a property that every object inherits:
then the text of that property becomes the extension. Each of the steps keeps a component safe.
-/

set_option autoImplicit false
set_option relaxedAutoImplicit false

namespace WebLens.StaticClone

open Lib Lib.PosixPath
open SiteClone.Design (splitText segmentsOf textLength codeUnits)

/-! ### Safe components -/

/-- A letter that a path may have. -/
def IsLetter (c : Char) : Prop :=
  c.isAlpha = true ∨ c = 'ſ' ∨ c = '\u212A'

/-- A letter, a digit, a dot, an underscore or a hyphen. -/
def IsPathChar (c : Char) : Prop :=
  IsLetter c ∨ c.isDigit = true ∨ c = '.' ∨ c = '_' ∨ c = '-'

/-- A component that every file system takes. -/
structure IsSafeComponent (component : List Char) : Prop where
  ne_nil : component ≠ []
  chars : ∀ c ∈ component, IsPathChar c
  ne_dot : component ≠ ['.']
  ne_dots : component ≠ ['.', '.']
  last_ne_dot : component.getLast? ≠ some '.'
  not_device : (baseOf component).map upperCase ∉ deviceNames

/-- A relative path of safe components. -/
structure IsSafePath (path : String) : Prop where
  relative : isAbsolute path = false
  components : ∀ component ∈ segments path, IsSafeComponent component.toList

variable {component name : List Char}

theorem isPathChar_of_isKept {c : Char} (h : isKept c = true) : IsPathChar c := by
  unfold isKept Char.isAlphanum at h
  simp only [Bool.or_eq_true, List.contains_iff_mem, List.mem_cons, List.not_mem_nil,
    or_false] at h
  unfold IsPathChar IsLetter
  tauto

theorem isKept_of_isPathChar {c : Char} (h : IsPathChar c) : isKept c = true := by
  unfold IsPathChar IsLetter at h
  unfold isKept Char.isAlphanum
  simp only [Bool.or_eq_true, List.contains_iff_mem, List.mem_cons, List.not_mem_nil,
    or_false]
  tauto

/-- The two dot names end in a dot. -/
theorem IsSafeComponent.mk' (hne : component ≠ []) (hchars : ∀ c ∈ component, IsPathChar c)
    (hlast : component.getLast? ≠ some '.')
    (hdevice : (baseOf component).map upperCase ∉ deviceNames) : IsSafeComponent component where
  ne_nil := hne
  chars := hchars
  ne_dot := by
    rintro rfl
    exact hlast rfl
  ne_dots := by
    rintro rfl
    exact hlast rfl
  last_ne_dot := hlast
  not_device := hdevice

theorem IsSafeComponent.isName (h : IsSafeComponent component) : IsName (String.ofList component) where
  ne_empty hempty := h.ne_nil (by
    have hlist := congrArg String.toList hempty
    rwa [String.toList_ofList] at hlist)
  ne_dot hdot := h.ne_dot (by
    have hlist := congrArg String.toList hdot
    rwa [String.toList_ofList] at hlist)
  ne_dots hdots := h.ne_dots (by
    have hlist := congrArg String.toList hdots
    rwa [String.toList_ofList] at hlist)
  slash_not_mem hslash := by
    rw [String.toList_ofList] at hslash
    have hkept := isKept_of_isPathChar (h.chars '/' hslash)
    exact absurd hkept (by decide)

/-- A device name has three or four characters, none of them an underscore. -/
theorem device_spec {device : List Char} (h : device ∈ deviceNames) :
    device ≠ [] ∧ device.length ≤ 4 ∧ '_' ∉ device := by
  have hall : ∀ device ∈ deviceNames, device ≠ [] ∧ device.length ≤ 4 ∧ '_' ∉ device := by decide
  exact hall device h

theorem not_device_of_underscore (h : '_' ∈ baseOf component) :
    (baseOf component).map upperCase ∉ deviceNames := by
  intro hdevice
  have hmem : upperCase '_' ∈ (baseOf component).map upperCase := List.mem_map_of_mem h
  exact (device_spec hdevice).2.2 hmem

theorem not_device_of_length (h : 4 < (baseOf component).length) :
    (baseOf component).map upperCase ∉ deviceNames := by
  intro hdevice
  have hlength := (device_spec hdevice).2.1
  rw [List.length_map] at hlength
  omega

/-- The base of a component that goes on after a dot. -/
theorem baseOf_append_of_mem (h : '.' ∈ component) (rest : List Char) :
    baseOf (component ++ rest) = baseOf component := by
  unfold baseOf
  induction component with
  | nil => cases h
  | cons c component ih =>
    by_cases hc : c = '.'
    · rw [List.cons_append, List.takeWhile_cons_of_neg (by rw [hc]; decide),
        List.takeWhile_cons_of_neg (by rw [hc]; decide)]
    · have hmem : '.' ∈ component := by
        rcases List.mem_cons.1 h with h | h
        · exact absurd h.symm hc
        · exact h
      have htake : ∀ list : List Char, (c :: list).takeWhile (fun c ↦ decide (c ≠ '.')) =
          c :: list.takeWhile fun c ↦ decide (c ≠ '.') := fun list ↦
        List.takeWhile_cons_of_pos (decide_eq_true hc)
      rw [List.cons_append, htake, htake, ih hmem]

/-- The base of a component without a dot, up to what follows it. -/
theorem baseOf_append_of_not_mem (h : '.' ∉ component) (rest : List Char) :
    baseOf (component ++ rest) = component ++ baseOf rest := by
  have hkeep : ∀ c ∈ component, (fun c : Char ↦ decide (c ≠ '.')) c = true := by
    intro c hc
    exact decide_eq_true fun hdot ↦ h (hdot ▸ hc)
  unfold baseOf
  rw [List.takeWhile_append_of_pos hkeep]

theorem baseOf_dot_cons (rest : List Char) : baseOf ('.' :: rest) = [] :=
  List.takeWhile_cons_of_neg (by decide)

/-! ### The last dot -/

/-- A component without a dot, or its part up to the last dot and the rest. -/
theorem uptoLastDot_cases (component : List Char) :
    (uptoLastDot component = [] ∧ '.' ∉ component) ∨
      ∃ front rest, component = front ++ '.' :: rest ∧ '.' ∉ rest ∧
        uptoLastDot component = front ++ ['.'] ∧
        (component.rtakeWhile fun c ↦ decide (c ≠ '.')) = rest := by
  induction component using List.reverseRecOn with
  | nil => exact .inl ⟨rfl, List.not_mem_nil⟩
  | append_singleton component c ih =>
    unfold uptoLastDot at ih ⊢
    by_cases hc : c = '.'
    · refine .inr ⟨component, [], ?_, List.not_mem_nil, ?_, ?_⟩
      · rw [hc]
      · rw [List.rdropWhile_concat_neg _ _ _ (by rw [hc]; decide), hc]
      · rw [List.rtakeWhile_concat_neg _ _ _ (by rw [hc]; decide)]
    · rw [List.rdropWhile_concat_pos (fun c ↦ decide (c ≠ '.')) _ _ (decide_eq_true hc),
        List.rtakeWhile_concat_pos (fun c ↦ decide (c ≠ '.')) _ _ (decide_eq_true hc)]
      rcases ih with ⟨hnil, hmem⟩ | ⟨front, rest, rfl, hmem, hupto, hrest⟩
      · refine .inl ⟨hnil, fun hdot ↦ ?_⟩
        rcases List.mem_append.1 hdot with hdot | hdot
        · exact hmem hdot
        · exact hc (List.mem_singleton.1 hdot).symm
      · refine .inr ⟨front, rest ++ [c], ?_, ?_, hupto, ?_⟩
        · rw [List.append_assoc, List.cons_append]
        · intro hdot
          rcases List.mem_append.1 hdot with hdot | hdot
          · exact hmem hdot
          · exact hc (List.mem_singleton.1 hdot).symm
        · rw [hrest]

theorem getLast?_append_of_ne_nil {front rest : List Char} (h : rest ≠ []) :
    (front ++ rest).getLast? = rest.getLast? := by
  rw [List.getLast?_append, List.getLast?_eq_some_getLast h]
  rfl

/-- The extension that is kept: none, or a dot and some characters that are no dots. -/
theorem shortExtension_cases (h : IsSafeComponent component) :
    (shortExtension component = [] ∧ '.' ∉ component.drop 1) ∨
      ∃ front c rest, component = front ++ '.' :: c :: rest ∧ front ≠ [] ∧
        shortExtension component = '.' :: c :: rest.take 19 ∧ '.' ∉ c :: rest.take 19 := by
  unfold shortExtension
  rcases uptoLastDot_cases component with ⟨hnil, hmem⟩ | ⟨front, rest, hcomponent, hmem, hupto, hrest⟩
  · refine .inl ⟨?_, fun hdot ↦ hmem (List.mem_of_mem_drop hdot)⟩
    rw [hnil]
    rfl
  · cases rest with
    | nil =>
      refine absurd ?_ h.last_ne_dot
      rw [hcomponent, List.getLast?_concat]
    | cons c rest =>
      by_cases hfront : front = []
      · refine .inl ⟨?_, ?_⟩
        · rw [hupto, hfront, if_pos (by decide)]
        · rw [hcomponent, hfront]
          exact hmem
      · have hlength : 0 < front.length := List.length_pos_iff.2 hfront
        refine .inr ⟨front, c, rest, hcomponent, hfront, ?_, fun hdot ↦ hmem ?_⟩
        · rw [hupto, hrest, if_neg (by rw [List.length_append, List.length_singleton]; omega)]
          rfl
        · rcases List.mem_cons.1 hdot with hdot | hdot
          · exact List.mem_cons.2 (.inl hdot)
          · exact List.mem_cons_of_mem _ (List.mem_of_mem_take hdot)

/-! ### Sanitising -/

/-- Cutting a long component keeps it safe. -/
theorem IsSafeComponent.shorten (h : IsSafeComponent component) :
    IsSafeComponent (shorten component) := by
  unfold StaticClone.shorten
  by_cases hlong : 100 < component.length
  · rw [if_pos hlong]
    rcases shortExtension_cases h with ⟨hnil, hdot⟩ | ⟨front, c, rest, hcomponent, -, hextension, hdot⟩
    · rw [hnil, List.append_nil]
      have htake : component.take (max 1 (100 - ([] : List Char).length)) = component.take 100 := rfl
      rw [htake]
      have hlength : (component.take 100).length = 100 := by rw [List.length_take]; omega
      obtain ⟨first, others, rfl⟩ := List.exists_cons_of_ne_nil h.ne_nil
      have hothers : '.' ∉ others.take 99 := fun hmem ↦ hdot (List.mem_of_mem_take hmem)
      have hne : others.take 99 ≠ [] := by
        rw [ne_eq, ← List.length_eq_zero_iff]
        rw [List.take_succ_cons, List.length_cons] at hlength
        omega
      refine IsSafeComponent.mk' ?_ (fun c hc ↦ h.chars c (List.mem_of_mem_take hc)) ?_ ?_
      · rw [List.take_succ_cons]
        exact List.cons_ne_nil _ _
      · rw [List.take_succ_cons, ← List.singleton_append, getLast?_append_of_ne_nil hne]
        exact fun hlast ↦ hothers (List.mem_of_getLast? hlast)
      · by_cases hfirst : first = '.'
        · rw [hfirst, List.take_succ_cons, baseOf_dot_cons]
          exact fun hdevice ↦ (device_spec hdevice).1 rfl
        · refine not_device_of_length ?_
          have hnot : '.' ∉ (first :: others).take 100 := by
            rw [List.take_succ_cons]
            intro hmem
            rcases List.mem_cons.1 hmem with hmem | hmem
            · exact hfirst hmem.symm
            · exact hothers hmem
          have hbase := baseOf_append_of_not_mem hnot []
          rw [List.append_nil] at hbase
          rw [hbase]
          unfold baseOf
          rw [List.takeWhile_nil, List.append_nil, hlength]
          omega
    · have hshort : (shortExtension component).length ≤ 21 := by
        rw [hextension, List.length_cons, List.length_cons, List.length_take]
        omega
      have hmax : max 1 (100 - (shortExtension component).length) =
          100 - (shortExtension component).length := by omega
      rw [hmax]
      have hcount : 79 ≤ 100 - (shortExtension component).length := by omega
      generalize 100 - (shortExtension component).length = count at hcount
      have hmem : ∀ other ∈ shortExtension component, other ∈ component := by
        intro other hother
        rw [hextension] at hother
        rw [hcomponent]
        refine List.mem_append_right _ ?_
        rcases List.mem_cons.1 hother with rfl | hother
        · exact List.mem_cons_self ..
        · refine List.mem_cons_of_mem _ ?_
          rcases List.mem_cons.1 hother with rfl | hother
          · exact List.mem_cons_self ..
          · exact List.mem_cons_of_mem _ (List.mem_of_mem_take hother)
      refine IsSafeComponent.mk' ?_ ?_ ?_ ?_
      · rw [hextension]
        exact List.append_ne_nil_of_right_ne_nil _ (List.cons_ne_nil _ _)
      · intro other hother
        rcases List.mem_append.1 hother with hother | hother
        · exact h.chars other (List.mem_of_mem_take hother)
        · exact h.chars other (hmem other hother)
      · rw [hextension, ← List.singleton_append, ← List.append_assoc,
          getLast?_append_of_ne_nil (List.cons_ne_nil _ _)]
        exact fun hlast ↦ hdot (List.mem_of_getLast? hlast)
      · by_cases htaken : '.' ∈ component.take count
        · rw [baseOf_append_of_mem htaken]
          have hbase := baseOf_append_of_mem htaken (component.drop count)
          rw [List.take_append_drop] at hbase
          rw [← hbase]
          exact h.not_device
        · refine not_device_of_length ?_
          rw [baseOf_append_of_not_mem htaken, List.length_append, List.length_take]
          omega
  · rwa [if_neg hlong]

theorem length_shorten (h : IsSafeComponent component) : (shorten component).length ≤ 100 := by
  unfold shorten
  by_cases hlong : 100 < component.length
  · rw [if_pos hlong, List.length_append, List.length_take]
    have hshort : (shortExtension component).length ≤ 21 := by
      rcases shortExtension_cases h with ⟨hnil, -⟩ | ⟨front, c, rest, -, -, hextension, -⟩
      · rw [hnil]
        exact Nat.zero_le _
      · rw [hextension, List.length_cons, List.length_cons, List.length_take]
        omega
    omega
  · rw [if_neg hlong]
    omega

/-- The component before it is cut. -/
theorem exists_sanitizePathComponent (p : Platform) (value : String) :
    ∃ component, IsSafeComponent component ∧
      sanitizePathComponent p value = String.ofList (shorten component) := by
  have hkept : ∀ c ∈ cleanComponent p value, IsPathChar c := by
    intro c hc
    unfold cleanComponent at hc
    obtain ⟨other, -, rfl⟩ := List.mem_map.1 (List.rdropWhile_prefix _ _ |>.subset hc)
    by_cases hother : isKept other = true
    · rw [if_pos hother]
      exact isPathChar_of_isKept hother
    · rw [if_neg hother]
      exact isPathChar_of_isKept (by decide)
  have hlast : (cleanComponent p value).getLast? ≠ some '.' := by
    intro hdot
    have hne : cleanComponent p value ≠ [] := fun hnil ↦ by rw [hnil] at hdot; cases hdot
    have hdrop := List.rdropWhile_last_not _ _ hne
    rw [List.getLast?_eq_some_getLast hne] at hdot
    unfold cleanComponent at hdot
    rw [Option.some.inj hdot] at hdrop
    exact hdrop (by decide)
  generalize hcleaned : cleanComponent p value = cleaned at hkept hlast
  have hnamed : ∃ named, named ≠ [] ∧ (∀ c ∈ named, IsPathChar c) ∧ named.getLast? ≠ some '.' ∧
      (if cleaned = [] ∨ cleaned = ['.'] ∨ cleaned = ['.', '.'] then ['_'] else cleaned) =
        named := by
    by_cases hdots : cleaned = [] ∨ cleaned = ['.'] ∨ cleaned = ['.', '.']
    · refine ⟨['_'], List.cons_ne_nil _ _, ?_, by decide, if_pos hdots⟩
      intro c hc
      rw [List.mem_singleton.1 hc]
      exact isPathChar_of_isKept (by decide)
    · exact ⟨cleaned, fun hnil ↦ hdots (.inl hnil), hkept, hlast, if_neg hdots⟩
  obtain ⟨named, hne, hchars, hend, heq⟩ := hnamed
  unfold sanitizePathComponent
  rw [hcleaned]
  dsimp only
  rw [heq]
  by_cases hdevice : isDevice named = true
  · refine ⟨'_' :: named, IsSafeComponent.mk' (List.cons_ne_nil _ _) ?_ ?_ ?_, by rw [if_pos hdevice]⟩
    · intro c hc
      rcases List.mem_cons.1 hc with rfl | hc
      · exact isPathChar_of_isKept (by decide)
      · exact hchars c hc
    · rwa [← List.singleton_append, getLast?_append_of_ne_nil hne]
    · exact not_device_of_underscore (List.mem_cons_self ..)
  · refine ⟨named, IsSafeComponent.mk' hne hchars hend fun hmem ↦ hdevice ?_, by rw [if_neg hdevice]⟩
    exact List.contains_iff_mem.2 hmem

theorem isSafeComponent_sanitizePathComponent (p : Platform) (value : String) :
    IsSafeComponent (sanitizePathComponent p value).toList := by
  obtain ⟨component, hsafe, hresult⟩ := exists_sanitizePathComponent p value
  rw [hresult, String.toList_ofList]
  exact hsafe.shorten

/-- The characters of a path are code units of their own. -/
theorem textLength_of_isPathChar {text : String} (h : ∀ c ∈ text.toList, IsPathChar c) :
    textLength text = text.toList.length := by
  have hsmall : ∀ c, IsPathChar c → c.toNat < 0x10000 := by
    intro c hc
    unfold IsPathChar IsLetter Char.isAlpha Char.isUpper Char.isLower Char.isDigit at hc
    simp only [Bool.or_eq_true, Bool.and_eq_true, decide_eq_true_eq, ge_iff_le,
      UInt32.le_iff_toNat_le] at hc
    rcases hc with (((h | h) | h | h)) | h | h | h | h
    · exact h.2.trans_lt (by decide)
    · exact h.2.trans_lt (by decide)
    · rw [h]; decide
    · rw [h]; decide
    · exact h.2.trans_lt (by decide)
    · rw [h]; decide
    · rw [h]; decide
    · rw [h]; decide
  have hunits : codeUnits text = text.toList.map Char.toNat := by
    unfold codeUnits
    rw [List.map_eq_flatMap]
    exact List.flatMap_congr fun c hc ↦ if_pos (hsmall c (h c hc))
  unfold textLength
  rw [hunits, List.length_map]

theorem length_sanitizePathComponent (p : Platform) (value : String) :
    textLength (sanitizePathComponent p value) ≤ 100 := by
  rw [textLength_of_isPathChar (isSafeComponent_sanitizePathComponent p value).chars]
  obtain ⟨component, hsafe, hresult⟩ := exists_sanitizePathComponent p value
  rw [hresult, String.toList_ofList]
  exact length_shorten hsafe

/-! ### The steps of a path -/

/-- A path of safe components, at least one of them a directory. -/
structure IsCleanPath (path : String) (front : List String) (name : String) : Prop where
  eq : path = ofSegments (front ++ [name])
  front_ne_nil : front ≠ []
  front_safe : ∀ component ∈ front, IsSafeComponent component.toList

theorem IsSafeComponent.isName_toList {name : String} (h : IsSafeComponent name.toList) :
    IsName name := by
  have hname := h.isName
  rwa [String.ofList_toList] at hname

/-- What is not kept in the last component of a path makes it unsafe. -/
theorem isSafePath_iff {path name : String} {front : List String} (h : IsCleanPath path front name)
    (hslash : '/' ∉ name.toList) : IsSafePath path ↔ IsSafeComponent name.toList := by
  have hsegments : segments path = front ++ [name] := by
    rw [h.eq]
    refine segments_ofSegments (List.append_ne_nil_of_right_ne_nil _ (List.cons_ne_nil _ _)) ?_
    intro component hcomponent
    rcases List.mem_append.1 hcomponent with hcomponent | hcomponent
    · exact (h.front_safe component hcomponent).isName_toList.slash_not_mem
    · rwa [List.mem_singleton.1 hcomponent]
  constructor
  · intro hsafe
    exact hsafe.components name (by rw [hsegments]; exact List.mem_concat_self)
  · intro hname
    obtain ⟨first, rest, hfront⟩ := List.exists_cons_of_ne_nil h.front_ne_nil
    refine ⟨?_, fun component hcomponent ↦ ?_⟩
    · rw [h.eq, hfront, List.cons_append]
      refine isAbsolute_ofSegments (h.front_safe first ?_).isName_toList
      rw [hfront]
      exact List.mem_cons_self ..
    · rw [hsegments] at hcomponent
      rcases List.mem_append.1 hcomponent with hcomponent | hcomponent
      · exact h.front_safe component hcomponent
      · rwa [List.mem_singleton.1 hcomponent]

/-- The path of a URL has a host and at least one more component, all of them safe. -/
theorem exists_urlToLocalPath {p : Platform} {raw path : String} (h : urlToLocalPath p raw = some path) :
    ∃ front name, IsCleanPath path front name ∧ IsSafeComponent name.toList := by
  unfold urlToLocalPath at h
  obtain ⟨url, -, h⟩ := Option.bind_eq_some_iff.1 h
  dsimp only at h
  generalize hhost : sanitizePathComponent p _ = host at h
  generalize hparts : List.map (fun part ↦ sanitizePathComponent p (safeDecode p part)) _ = parts at h
  have hhost : IsSafeComponent host.toList := hhost ▸ isSafeComponent_sanitizePathComponent p _
  have hparts : ∀ part ∈ parts, IsSafeComponent part.toList := by
    intro part hpart
    rw [← hparts] at hpart
    obtain ⟨raw, -, rfl⟩ := List.mem_map.1 hpart
    exact isSafeComponent_sanitizePathComponent p _
  have hindex : IsSafeComponent "index.html".toList := by
    refine IsSafeComponent.mk' (by decide) ?_ (by decide) (by decide)
    intro c hc
    have hall : ("index.html".toList.all isKept) = true := by decide
    exact isPathChar_of_isKept (List.all_eq_true.1 hall c hc)
  have hall : ∃ front name, (if parts = [] ∨ endsInSlash (p.pathname url) = true then
      parts ++ ["index.html"] else parts) = front ++ [name] ∧
      (∀ part ∈ front, IsSafeComponent part.toList) ∧ IsSafeComponent name.toList := by
    by_cases hcond : parts = [] ∨ endsInSlash (p.pathname url) = true
    · exact ⟨parts, "index.html", if_pos hcond, hparts, hindex⟩
    · rw [if_neg hcond]
      rcases List.eq_nil_or_concat parts with hnil | ⟨front, name, hconcat⟩
      · exact absurd (.inl hnil) hcond
      · rw [List.concat_eq_append] at hconcat
        refine ⟨front, name, hconcat, fun part hpart ↦ hparts part ?_, hparts name ?_⟩
        · rw [hconcat]
          exact List.mem_append_left _ hpart
        · rw [hconcat]
          exact List.mem_concat_self
  obtain ⟨front, name, heq, hfront, hname⟩ := hall
  rw [heq] at h
  have hsafe : ∀ component ∈ host :: (front ++ [name]), IsSafeComponent component.toList := by
    intro component hcomponent
    rcases List.mem_cons.1 hcomponent with rfl | hcomponent
    · exact hhost
    rcases List.mem_append.1 hcomponent with hcomponent | hcomponent
    · exact hfront component hcomponent
    · rwa [List.mem_singleton.1 hcomponent]
  refine ⟨host :: front, name, ⟨?_, List.cons_ne_nil _ _, fun component hcomponent ↦ ?_⟩, hname⟩
  · rw [← Option.some.inj h, join_names fun other hother ↦ (hsafe other hother).isName_toList,
      List.cons_append]
  · exact hsafe component (by
      rw [← List.cons_append]
      exact List.mem_append_left _ hcomponent)

/-! ### Numbered paths -/

theorem isDigit_of_mem_toString {counter : ℕ} {c : Char} (h : c ∈ (toString counter).toList) :
    c.isDigit = true := by
  rw [Nat.toString_eq_ofList_toDigits, String.toList_ofList] at h
  exact Nat.isDigit_of_mem_toDigits (by decide) (by decide) h

/-- A name is its stem and its extension; the extension is empty, or a dot after the stem and
characters that are no dots. -/
structure IsStem (name stem extension : String) : Prop where
  eq : name.toList = stem.toList ++ extension.toList
  extension_cases : extension.toList = [] ∨
    ∃ rest, extension.toList = '.' :: rest ∧ '.' ∉ rest ∧ stem.toList ≠ []

/-- The names of a numbered path: the directory stays, the number goes before the extension. -/
theorem exists_numberedPath {path name : String} {front : List String}
    (h : IsCleanPath path front name) (hname : IsName name) :
    ∃ stem extension, IsStem name stem extension ∧ ∀ counter,
      numberedPath path (counter + 1) =
        ofSegments (front ++ [stem ++ "_" ++ toString (counter + 1) ++ extension]) := by
  have hbasename : basename path = name := by rw [h.eq, basename_ofSegments hname]
  have hdirname : dirname path = ofSegments front := by
    obtain ⟨first, rest, hfront⟩ := List.exists_cons_of_ne_nil h.front_ne_nil
    rw [h.eq]
    refine dirname_ofSegments ⟨first, rest, hfront, ?_⟩ hname
    refine (h.front_safe first ?_).isName_toList
    rw [hfront]
    exact List.mem_cons_self ..
  have hstem : ∃ stem, IsStem name stem (extname path) ∧
      basenameWithout path (extname path) = stem := by
    have hextname : extname path =
        if name.toList = ['.', '.'] ∨ (uptoLastDot name.toList).length ≤ 1 then ""
        else String.ofList ('.' :: name.toList.rtakeWhile fun c ↦ decide (c ≠ '.')) := by
      unfold extname
      rw [hbasename]
      rfl
    have hnone : extname path = "" → ∃ stem, IsStem name stem (extname path) ∧
        basenameWithout path (extname path) = stem := by
      intro hempty
      refine ⟨name, ⟨?_, .inl ?_⟩, ?_⟩
      · rw [hempty]
        exact (List.append_nil _).symm
      · rw [hempty]
        rfl
      · unfold basenameWithout
        rw [hbasename, if_pos (.inl hempty)]
    rcases uptoLastDot_cases name.toList with ⟨hnil, -⟩ | ⟨stem, rest, heq, hrest, hupto, htake⟩
    · exact hnone (by rw [hextname, hnil, if_pos (.inr (Nat.zero_le _))])
    by_cases hstem : stem = []
    · exact hnone (by rw [hextname, hupto, hstem, if_pos (.inr (by decide))])
    have hlength : 0 < stem.length := List.length_pos_iff.2 hstem
    have hdots : name.toList ≠ ['.', '.'] := by
      intro hdots
      exact hname.ne_dots (String.toList_inj.1 hdots)
    have hextension : extname path = String.ofList ('.' :: rest) := by
      rw [hextname, hupto, htake, if_neg (not_or.2 ⟨hdots, ?_⟩)]
      rw [List.length_append, List.length_singleton]
      omega
    refine ⟨String.ofList stem, ⟨?_, .inr ⟨rest, ?_, hrest, ?_⟩⟩, ?_⟩
    · rw [hextension, String.toList_ofList, String.toList_ofList, heq]
    · rw [hextension, String.toList_ofList]
    · rwa [String.toList_ofList]
    · have hne : name ≠ String.ofList ('.' :: rest) := by
        intro heq'
        have hlengths := congrArg List.length heq
        rw [heq', String.toList_ofList, List.length_append] at hlengths
        omega
      unfold basenameWithout
      dsimp only
      rw [hbasename, hextension, String.toList_ofList, heq, if_neg, List.length_append,
        Nat.add_sub_cancel, List.take_left]
      refine not_or.2 ⟨?_, not_or.2 ⟨hne, not_not.2 (List.suffix_append _ _)⟩⟩
      intro hempty
      have hlist := congrArg String.toList hempty
      rw [String.toList_ofList] at hlist
      cases hlist
  obtain ⟨stem, hisStem, hbase⟩ := hstem
  refine ⟨stem, extname path, hisStem, fun counter ↦ ?_⟩
  have hunderscore : '_' ∈ (stem ++ "_" ++ toString (counter + 1) ++ extname path).toList := by
    rw [String.toList_append, String.toList_append, String.toList_append]
    exact List.mem_append_left _ (List.mem_append_left _ (List.mem_append_right _
      (List.mem_cons_self ..)))
  have hnew : IsName (stem ++ "_" ++ toString (counter + 1) ++ extname path) := by
    refine ⟨?_, ?_, ?_, ?_⟩
    · intro heq
      rw [heq] at hunderscore
      exact absurd hunderscore (by decide)
    · intro heq
      rw [heq] at hunderscore
      exact absurd hunderscore (by decide)
    · intro heq
      rw [heq] at hunderscore
      exact absurd hunderscore (by decide)
    · have hname' := hname.slash_not_mem
      rw [hisStem.eq, List.mem_append, not_or] at hname'
      rw [String.toList_append, String.toList_append, String.toList_append]
      simp only [List.mem_append, not_or]
      refine ⟨⟨⟨hname'.1, by decide⟩, fun hdigit ↦ ?_⟩, hname'.2⟩
      exact absurd (isDigit_of_mem_toString hdigit) (by decide)
  unfold numberedPath
  dsimp only
  rw [hdirname, hbase]
  exact join_ofSegments (fun other hother ↦ (h.front_safe other hother).isName_toList)
    h.front_ne_nil hnew

/-- A number keeps the characters of a name, and a safe name safe. -/
theorem isSafeComponent_numbered_iff {name stem extension : String}
    (h : IsStem name stem extension) (counter : ℕ)
    (hlast : name.toList.getLast? ≠ some '.') (hne : name.toList ≠ [])
    (hdevice : (baseOf name.toList).map upperCase ∉ deviceNames) :
    IsSafeComponent (stem ++ "_" ++ toString counter ++ extension).toList ↔
      IsSafeComponent name.toList := by
  have htext : (stem ++ "_" ++ toString counter ++ extension).toList =
      stem.toList ++ ('_' :: (toString counter).toList ++ extension.toList) := by
    rw [String.toList_append, String.toList_append, String.toList_append, List.append_assoc,
      List.append_assoc]
    rfl
  have hdigits : ∀ c ∈ '_' :: (toString counter).toList, IsPathChar c := by
    intro c hc
    rcases List.mem_cons.1 hc with rfl | hc
    · exact .inr (.inr (.inr (.inl rfl)))
    · exact .inr (.inl (isDigit_of_mem_toString hc))
  rw [htext]
  constructor
  · intro hsafe
    refine IsSafeComponent.mk' hne (fun c hc ↦ hsafe.chars c ?_) hlast hdevice
    rw [h.eq] at hc
    rcases List.mem_append.1 hc with hc | hc
    · exact List.mem_append_left _ hc
    · exact List.mem_append_right _ (List.mem_append_right _ hc)
  · intro hsafe
    refine IsSafeComponent.mk' ?_ ?_ ?_ ?_
    · exact List.append_ne_nil_of_right_ne_nil _ (List.cons_ne_nil _ _)
    · intro c hc
      rcases List.mem_append.1 hc with hc | hc
      · exact hsafe.chars c (h.eq ▸ List.mem_append_left _ hc)
      rcases List.mem_append.1 hc with hc | hc
      · exact hdigits c hc
      · exact hsafe.chars c (h.eq ▸ List.mem_append_right _ hc)
    · rcases h.extension_cases with hnil | ⟨rest, hrest, -, -⟩
      · rw [hnil, List.append_nil, getLast?_append_of_ne_nil (List.cons_ne_nil _ _)]
        intro hdot
        have hmem := List.mem_of_getLast? hdot
        rcases List.mem_cons.1 hmem with hmem | hmem
        · exact absurd hmem (by decide)
        · exact absurd (isDigit_of_mem_toString hmem) (by decide)
      · have hend := hsafe.last_ne_dot
        rw [h.eq, getLast?_append_of_ne_nil (by rw [hrest]; exact List.cons_ne_nil _ _)] at hend
        rwa [← List.append_assoc,
          getLast?_append_of_ne_nil (by rw [hrest]; exact List.cons_ne_nil _ _)]
    · by_cases hdot : '.' ∈ stem.toList
      · rw [baseOf_append_of_mem hdot]
        have hbase := hsafe.not_device
        rwa [h.eq, baseOf_append_of_mem hdot] at hbase
      · refine not_device_of_underscore ?_
        rw [baseOf_append_of_not_mem hdot]
        refine List.mem_append_right _ ?_
        unfold baseOf
        rw [List.cons_append, List.takeWhile_cons_of_pos (by decide)]
        exact List.mem_cons_self ..

/-- One of the numbered paths is chosen. -/
theorem exists_firstUnused (path : String) (used : List String) (fuel counter : ℕ) :
    ∃ number, firstUnused path used fuel counter = numberedPath path number := by
  induction fuel generalizing counter with
  | zero => exact ⟨counter, rfl⟩
  | succ fuel ih =>
    unfold firstUnused
    by_cases hused : used.contains (lowerCase (numberedPath path counter)) = true
    · rw [if_pos hused]
      exact ih (counter + 1)
    · rw [if_neg hused]
      exact ⟨counter, rfl⟩

/-- A path that is taken keeps its directory and the safety of its name. -/
theorem isSafePath_deduplicatePath_iff {path name : String} {front : List String}
    (h : IsCleanPath path front name) (hname : IsName name)
    (hlast : name.toList.getLast? ≠ some '.')
    (hdevice : (baseOf name.toList).map upperCase ∉ deviceNames) (used : List String) :
    IsSafePath (deduplicatePath path used) ↔ IsSafeComponent name.toList := by
  obtain ⟨number, hnumber⟩ := exists_firstUnused path used used.length 0
  unfold deduplicatePath
  rw [hnumber]
  cases number with
  | zero => exact isSafePath_iff h hname.slash_not_mem
  | succ counter =>
    obtain ⟨stem, extension, hstem, hnumbered⟩ := exists_numberedPath h hname
    have hne : name.toList ≠ [] := hname.toList_ne_nil
    rw [← isSafeComponent_numbered_iff hstem (counter + 1) hlast hne hdevice]
    refine isSafePath_iff ⟨hnumbered counter, h.front_ne_nil, h.front_safe⟩ ?_
    have hslash := hname.slash_not_mem
    rw [hstem.eq, List.mem_append, not_or] at hslash
    rw [String.toList_append, String.toList_append, String.toList_append]
    simp only [List.mem_append, not_or]
    refine ⟨⟨⟨hslash.1, by decide⟩, fun hdigit ↦ ?_⟩, hslash.2⟩
    exact absurd (isDigit_of_mem_toString hdigit) (by decide)

/-! ### Extensions -/

theorem mem_map_snd_of_lookup {table : List (String × String)} {key text : String}
    (h : table.lookup key = some text) : text ∈ table.map Prod.snd := by
  obtain ⟨front, rest, heq, -⟩ := List.lookup_eq_some_iff.1 h
  rw [heq, List.map_append, List.map_cons]
  exact List.mem_append_right _ (List.mem_cons_self ..)

/-- What an object literal has for a MIME type: nothing, an extension of its table, or the text of
an inherited property. -/
theorem extensionOf_cases (mime : String) :
    (mime ∉ inheritedProperties.map Prod.fst ∧
        (extensionOf mime = "" ∨ extensionOf mime ∈ mimeExtensions.map Prod.snd)) ∨
      (mime ∈ inheritedProperties.map Prod.fst ∧
        extensionOf mime ∈ inheritedProperties.map Prod.snd) := by
  have hdisjoint : ∀ mime ∈ inheritedProperties.map Prod.fst, mimeExtensions.lookup mime = none := by
    decide +kernel
  unfold extensionOf
  by_cases hmem : mime ∈ inheritedProperties.map Prod.fst
  · refine .inr ⟨hmem, ?_⟩
    rw [List.lookup_append, hdisjoint mime hmem, Option.none_or]
    cases hlookup : inheritedProperties.lookup mime with
    | none =>
      obtain ⟨pair, hpair, rfl⟩ := List.mem_map.1 hmem
      rw [List.lookup_eq_none_iff] at hlookup
      exact absurd (hlookup pair hpair) (by simp)
    | some text => exact mem_map_snd_of_lookup hlookup
  · refine .inl ⟨hmem, ?_⟩
    have hnone : inheritedProperties.lookup mime = none := by
      rw [List.lookup_eq_none_iff]
      intro pair hpair
      refine bne_iff_ne.2 fun heq ↦ hmem ?_
      rw [heq]
      exact List.mem_map_of_mem hpair
    rw [List.lookup_append, hnone, Option.or_none]
    cases hlookup : mimeExtensions.lookup mime with
    | none => exact .inl rfl
    | some text => exact .inr (mem_map_snd_of_lookup hlookup)

/-- An extension of the table is a dot and characters of a path that are no dots. -/
theorem mimeExtensions_spec {extension : String} (h : extension ∈ mimeExtensions.map Prod.snd) :
    ∃ rest, extension.toList = '.' :: rest ∧ rest ≠ [] ∧ '.' ∉ rest ∧
      rest.all isKept = true := by
  have hall : ∀ extension ∈ mimeExtensions.map Prod.snd,
      extension.toList = '.' :: extension.toList.drop 1 ∧ extension.toList.drop 1 ≠ [] ∧
        '.' ∉ extension.toList.drop 1 ∧ (extension.toList.drop 1).all isKept = true := by
    decide +kernel
  exact ⟨_, hall extension h⟩

/-- The text of an inherited property has a character that no path has, and ends in no dot. -/
theorem inheritedProperties_spec {text : String} (h : text ∈ inheritedProperties.map Prod.snd) :
    text.toList.all isKept = false ∧ '/' ∉ text.toList ∧ '.' ∉ text.toList ∧ text.toList ≠ [] ∧
      4 < text.toList.length := by
  have hall : ∀ text ∈ inheritedProperties.map Prod.snd, text.toList.all isKept = false ∧
      '/' ∉ text.toList ∧ '.' ∉ text.toList ∧ text.toList ≠ [] ∧ 4 < text.toList.length := by
    decide +kernel
  exact hall text h

/-- Adding an extension keeps a path safe, unless the MIME type names an inherited property. -/
theorem isSafePath_inferExtension_iff {p : Platform} {path name : String} {front : List String}
    (h : IsCleanPath path front name) (hname : IsSafeComponent name.toList) (contentType : String)
    (used : List String) :
    IsSafePath (deduplicatePath (inferExtension p path contentType) used) ↔
      '.' ∈ name.toList ∨ mimeOf p contentType ∉ inheritedProperties.map Prod.fst := by
  have hbasename : basename path = name := by rw [h.eq, basename_ofSegments hname.isName_toList]
  unfold inferExtension
  rw [hbasename]
  by_cases hdot : '.' ∈ name.toList
  · rw [if_pos hdot, isSafePath_deduplicatePath_iff h hname.isName_toList hname.last_ne_dot
      hname.not_device]
    exact iff_of_true hname (.inl hdot)
  rw [if_neg hdot]
  have hbase : baseOf name.toList = name.toList := by
    have happend := baseOf_append_of_not_mem hdot []
    rwa [List.append_nil, show baseOf [] = [] from rfl, List.append_nil] at happend
  have hclean : ∀ extension : String,
      IsCleanPath (path ++ extension) front (name ++ extension) := by
    intro extension
    refine ⟨?_, h.front_ne_nil, h.front_safe⟩
    rw [h.eq, ofSegments_concat h.front_ne_nil, ofSegments_concat h.front_ne_nil,
      String.append_assoc]
  rcases extensionOf_cases (mimeOf p contentType) with ⟨hmime, hempty | htable⟩ | ⟨hmime, htext⟩
  · rw [hempty, String.append_empty, isSafePath_deduplicatePath_iff h hname.isName_toList
      hname.last_ne_dot hname.not_device]
    exact iff_of_true hname (.inr hmime)
  · obtain ⟨rest, hrest, hne, hnodot, hkept⟩ := mimeExtensions_spec htable
    have hlist : (name ++ extensionOf (mimeOf p contentType)).toList =
        name.toList ++ '.' :: rest := by
      rw [String.toList_append, hrest]
    have hsafe : IsSafeComponent (name ++ extensionOf (mimeOf p contentType)).toList := by
      rw [hlist]
      refine IsSafeComponent.mk' ?_ (fun c hc ↦ ?_) ?_ ?_
      · exact List.append_ne_nil_of_right_ne_nil _ (List.cons_ne_nil _ _)
      · rcases List.mem_append.1 hc with hc | hc
        · exact hname.chars c hc
        rcases List.mem_cons.1 hc with rfl | hc
        · exact isPathChar_of_isKept (by decide)
        · exact isPathChar_of_isKept (List.all_eq_true.1 hkept c hc)
      · rw [← List.singleton_append, ← List.append_assoc, getLast?_append_of_ne_nil hne]
        exact fun hlast ↦ hnodot (List.mem_of_getLast? hlast)
      · rw [baseOf_append_of_not_mem hdot, baseOf_dot_cons, List.append_nil]
        have hdevice := hname.not_device
        rwa [hbase] at hdevice
    rw [isSafePath_deduplicatePath_iff (hclean _) hsafe.isName_toList hsafe.last_ne_dot
      hsafe.not_device]
    exact iff_of_true hsafe (.inr hmime)
  · obtain ⟨hkept, hslash, hnodot, hne, hlength⟩ := inheritedProperties_spec htext
    have hlist : (name ++ extensionOf (mimeOf p contentType)).toList =
        name.toList ++ (extensionOf (mimeOf p contentType)).toList := String.toList_append
    have hnodots : '.' ∉ (name ++ extensionOf (mimeOf p contentType)).toList := by
      rw [hlist, List.mem_append, not_or]
      exact ⟨hdot, hnodot⟩
    have hlong : 4 < (name ++ extensionOf (mimeOf p contentType)).toList.length := by
      rw [hlist, List.length_append]
      omega
    have hisName : IsName (name ++ extensionOf (mimeOf p contentType)) := by
      refine ⟨fun heq ↦ ?_, fun heq ↦ ?_, fun heq ↦ ?_, ?_⟩
      · rw [heq] at hlong
        exact absurd hlong (by decide)
      · rw [heq] at hlong
        exact absurd hlong (by decide)
      · rw [heq] at hlong
        exact absurd hlong (by decide)
      · rw [hlist, List.mem_append, not_or]
        exact ⟨hname.isName_toList.slash_not_mem, hslash⟩
    have hunsafe : ¬ IsSafeComponent (name ++ extensionOf (mimeOf p contentType)).toList := by
      intro hsafe
      refine absurd ?_ (Bool.eq_false_iff.1 hkept)
      rw [List.all_eq_true]
      intro c hc
      refine isKept_of_isPathChar (hsafe.chars c ?_)
      rw [hlist]
      exact List.mem_append_right _ hc
    rw [isSafePath_deduplicatePath_iff (hclean _) hisName]
    · refine iff_of_false hunsafe (not_or.2 ⟨hdot, not_not.2 hmime⟩)
    · intro hlast
      exact hnodots (List.mem_of_getLast? hlast)
    · refine not_device_of_length ?_
      have happend := baseOf_append_of_not_mem hnodots []
      rw [List.append_nil, show baseOf [] = [] from rfl, List.append_nil] at happend
      rwa [happend]

theorem isSafePath_archivePath_iff {p : Platform} {raw path : String}
    (hpath : urlToLocalPath p raw = some path) (contentType : String) (used : List String) :
    IsSafePath (deduplicatePath (inferExtension p path contentType) used) ↔
      '.' ∈ (basename path).toList ∨
        mimeOf p contentType ∉ inheritedProperties.map Prod.fst := by
  obtain ⟨front, name, hclean, hname⟩ := exists_urlToLocalPath hpath
  have hbasename : basename path = name := by
    rw [hclean.eq, basename_ofSegments hname.isName_toList]
  rw [hbasename]
  exact isSafePath_inferExtension_iff hclean hname contentType used

/-- The path of a URL in an archive is safe and its components are short, if and only if the last
component has a dot already or the MIME type names no inherited property. -/
theorem archive_path_safe_iff (p : Platform) (raw contentType : String) (used : List String)
    (path : String) (hpath : urlToLocalPath p raw = some path) :
    (IsSafePath (deduplicatePath (inferExtension p path contentType) used) ∧
        ∀ value, textLength (sanitizePathComponent p value) ≤ 100) ↔
      '.' ∈ (basename path).toList ∨
        mimeOf p contentType ∉ inheritedProperties.map Prod.fst := by
  rw [← isSafePath_archivePath_iff hpath contentType used]
  exact and_iff_left (length_sanitizePathComponent p)

/-! ### A platform -/

/-- The platform of the choice of pages, with texts that are normal and need no decoding. -/
def Platform.sample : Platform where
  toPlatform := SiteClone.Design.Platform.sample
  host _ := "example.com"
  username _ := ""
  password _ := ""
  hash _ := ""
  appendKey url _ _ := url
  normalizeNfc text := text
  decodeUriComponent text := some text
  decodeUtf8 bytes := String.ofList (bytes.map fun byte ↦ Char.ofNat byte.toNat)
  sha256 bytes := Sha256.hex (Sha256.sum bytes)

theorem archive_path_safe_iff_article :
    (IsSafePath (deduplicatePath (inferExtension Platform.sample "example.com/article" "text/html")
        ["example.com/article.html"]) ∧
      ∀ value, textLength (sanitizePathComponent Platform.sample value) ≤ 100) ↔
      '.' ∈ (basename "example.com/article").toList ∨
        mimeOf Platform.sample "text/html" ∉ inheritedProperties.map Prod.fst :=
  archive_path_safe_iff Platform.sample "https://example.com/article" "text/html"
    ["example.com/article.html"] "example.com/article" (by decide +kernel)

/-- A MIME type that is called `constructor`. -/
theorem inherited_extension_unsafe :
    ¬ ∀ (raw contentType path : String), urlToLocalPath Platform.sample raw = some path →
      IsSafePath (deduplicatePath (inferExtension Platform.sample path contentType) []) := by
  intro h
  have hpath : urlToLocalPath Platform.sample "https://example.com/article" =
      some "example.com/article" := by decide +kernel
  have hsafe := h "https://example.com/article" "constructor" "example.com/article" hpath
  rcases (isSafePath_archivePath_iff hpath "constructor" []).1 hsafe with hdot | hmime
  · exact absurd hdot (by decide +kernel)
  · exact absurd hmime (by decide +kernel)

end WebLens.StaticClone
