import Mathlib.Data.List.Chain

/-!
# Image candidates

The texts of a `srcset` attribute: image candidate strings that are separated by commas. A candidate
has a URL, which has no ASCII white space and no comma at either end, and may have a descriptor of
its width or its density. A comma within a URL separates nothing, so a candidate without a
descriptor is followed by white space on one side of the comma.
-/

set_option autoImplicit false
set_option relaxedAutoImplicit false

namespace WebLens.Lib.Srcset

/-! ### Joining -/

/-- The texts with a separator between them. -/
def joinWith (separator : List Char) : List (List Char) → List Char
  | [] => []
  | [text] => text
  | text :: rest => text ++ separator ++ joinWith separator rest

theorem joinWith_cons_cons (separator text next : List Char) (rest : List (List Char)) :
    joinWith separator (text :: next :: rest) =
      text ++ separator ++ joinWith separator (next :: rest) := rfl

/-- Texts without the separator are what splitting at it gives back. -/
theorem splitOn_joinWith {c : Char} {texts : List (List Char)} (hne : texts ≠ [])
    (h : ∀ text ∈ texts, c ∉ text) : (joinWith [c] texts).splitOn c = texts := by
  induction texts with
  | nil => exact absurd rfl hne
  | cons text rest ih =>
    have htext : ∀ x ∈ text, (x == c) = false := by
      intro x hx
      exact beq_false_of_ne fun heq ↦ h text (List.mem_cons_self ..) (heq ▸ hx)
    cases rest with
    | nil => exact List.splitOnP_eq_singleton htext
    | cons next rest =>
      have hrest := ih (List.cons_ne_nil _ _) fun other hother ↦
        h other (List.mem_cons_of_mem _ hother)
      rw [joinWith_cons_cons, List.append_assoc, List.singleton_append]
      unfold List.splitOn at hrest ⊢
      rw [List.splitOnP_append_cons_of_forall_mem htext c (beq_self_eq_true c), hrest]

/-! ### Candidates -/

/-- ASCII white space. -/
def isAsciiSpace (c : Char) : Bool :=
  [0x09, 0x0A, 0x0C, 0x0D, 0x20].contains c.toNat

/-- A candidate: its URL and, if there is one, its descriptor. -/
structure ImageCandidate where
  url : List Char
  descriptor : Option (List Char)
deriving DecidableEq

/-- A text of digits. -/
def IsDigits (text : List Char) : Prop :=
  text ≠ [] ∧ ∀ c ∈ text, c.isDigit = true

/-- A descriptor of a width: digits that are not all zero, and `w`. -/
def IsWidth (descriptor : List Char) : Prop :=
  ∃ digits, descriptor = digits ++ ['w'] ∧ IsDigits digits ∧ ∃ c ∈ digits, c ≠ '0'

/-- A number: digits, a point and digits, or both, and an exponent if there is one. -/
def IsNumber (text : List Char) : Prop :=
  ∃ whole fraction exponent, text = whole ++ fraction ++ exponent ∧
    (whole = [] ∨ IsDigits whole) ∧
    (fraction = [] ∨ ∃ digits, fraction = '.' :: digits ∧ IsDigits digits) ∧
    (whole ≠ [] ∨ fraction ≠ []) ∧
    (exponent = [] ∨ ∃ e sign digits, exponent = e :: sign ++ digits ∧ (e = 'e' ∨ e = 'E') ∧
      (sign = [] ∨ sign = ['+'] ∨ sign = ['-']) ∧ IsDigits digits)

/-- A descriptor of a density: a number and `x`. -/
def IsDensity (descriptor : List Char) : Prop :=
  ∃ number, descriptor = number ++ ['x'] ∧ IsNumber number

def IsDescriptor (descriptor : List Char) : Prop :=
  IsWidth descriptor ∨ IsDensity descriptor

/-- A candidate with a URL that may stand in a `srcset`. -/
structure ImageCandidate.WellFormed (candidate : ImageCandidate) : Prop where
  url_ne_nil : candidate.url ≠ []
  url_space : ∀ c ∈ candidate.url, isAsciiSpace c = false
  url_first : candidate.url.head? ≠ some ','
  url_last : candidate.url.getLast? ≠ some ','
  descriptor : ∀ descriptor, candidate.descriptor = some descriptor → IsDescriptor descriptor

/-- The candidates of an element: no two descriptors are alike, a missing one being `1x`, and either
all of them are widths or none is. -/
structure Compatible (descriptors : List (Option (List Char))) : Prop where
  distinct : (descriptors.map fun descriptor ↦ descriptor.getD ['1', 'x']).Nodup
  kind : (∀ descriptor ∈ descriptors, ∃ text, descriptor = some text ∧ IsWidth text) ∨
    ∀ descriptor ∈ descriptors, ∀ text, descriptor = some text → IsDensity text

theorem Compatible.sublist {descriptors fewer : List (Option (List Char))}
    (h : Compatible descriptors) (hfewer : fewer.Sublist descriptors) : Compatible fewer := by
  refine ⟨h.distinct.sublist (hfewer.map _), ?_⟩
  rcases h.kind with hwidth | hdensity
  · exact .inl fun descriptor hmem ↦ hwidth descriptor (hfewer.subset hmem)
  · exact .inr fun descriptor hmem ↦ hdensity descriptor (hfewer.subset hmem)

/-! ### Texts -/

/-- How a candidate is written: the white space before it, before its descriptor and after it. -/
structure Layout extends ImageCandidate where
  before : List Char
  gap : List Char
  after : List Char

/-- The URL and the descriptor, with some white space between them. -/
def core (url : List Char) (gap : List Char) : Option (List Char) → List Char
  | none => url
  | some descriptor => url ++ gap ++ descriptor

/-- The image candidate string. -/
def Layout.text (layout : Layout) : List Char :=
  layout.before ++ core layout.url layout.gap layout.descriptor ++ layout.after

structure Layout.WellFormed (layout : Layout) : Prop where
  candidate : layout.toImageCandidate.WellFormed
  before : ∀ c ∈ layout.before, isAsciiSpace c = true
  gap : ∀ c ∈ layout.gap, isAsciiSpace c = true
  gap_ne_nil : layout.gap ≠ []
  after : ∀ c ∈ layout.after, isAsciiSpace c = true

/-- A candidate without a descriptor and without white space after it is followed by white space. -/
def Layout.Separated (layout next : Layout) : Prop :=
  layout.descriptor = none → layout.after = [] → next.before ≠ []

/-- The text is a valid `srcset` with the candidates. -/
def IsSrcset (value : List Char) (candidates : List ImageCandidate) : Prop :=
  ∃ layouts : List Layout, layouts ≠ [] ∧ layouts.map Layout.toImageCandidate = candidates ∧
    (∀ layout ∈ layouts, layout.WellFormed) ∧ layouts.IsChain Layout.Separated ∧
    joinWith [','] (layouts.map Layout.text) = value ∧
    Compatible (candidates.map ImageCandidate.descriptor)

/-! ### The usual way to write candidates -/

/-- A candidate with one space before its descriptor. -/
def ImageCandidate.text (candidate : ImageCandidate) : List Char :=
  core candidate.url [' '] candidate.descriptor

/-- The layout of a candidate that comes first, and of one that does not. -/
def ImageCandidate.layout (candidate : ImageCandidate) (before : List Char) : Layout where
  toImageCandidate := candidate
  before := before
  gap := [' ']
  after := []

theorem text_layout (candidate : ImageCandidate) (before : List Char) :
    (candidate.layout before).text = before ++ candidate.text :=
  List.append_nil _

theorem wellFormed_layout {candidate : ImageCandidate} {before : List Char}
    (h : candidate.WellFormed) (hbefore : ∀ c ∈ before, isAsciiSpace c = true) :
    (candidate.layout before).WellFormed where
  candidate := h
  before := hbefore
  gap c hc := by
    rw [List.mem_singleton.1 hc]
    decide
  gap_ne_nil := List.cons_ne_nil _ _
  after c hc := by cases hc

theorem joinWith_text (first : ImageCandidate) (rest : List ImageCandidate) (before : List Char) :
    joinWith [','] ((first.layout before :: rest.map fun candidate ↦ candidate.layout [' ']).map
      Layout.text) = before ++ joinWith [',', ' '] ((first :: rest).map ImageCandidate.text) := by
  induction rest generalizing first before with
  | nil => exact text_layout first before
  | cons next rest ih =>
    have hrest := ih next [' ']
    rw [List.map_cons, List.map_cons] at hrest ⊢
    rw [List.map_cons, joinWith_cons_cons, hrest, text_layout, List.map_cons, List.map_cons,
      joinWith_cons_cons]
    simp only [List.append_assoc, List.cons_append, List.nil_append]

/-- Candidates with a comma and a space between them are a valid `srcset`. -/
theorem isSrcset_joinWith {candidates : List ImageCandidate} (hne : candidates ≠ [])
    (h : ∀ candidate ∈ candidates, candidate.WellFormed)
    (hcompatible : Compatible (candidates.map ImageCandidate.descriptor)) :
    IsSrcset (joinWith [',', ' '] (candidates.map ImageCandidate.text)) candidates := by
  cases candidates with
  | nil => exact absurd rfl hne
  | cons first rest =>
    refine ⟨first.layout [] :: rest.map fun candidate ↦ candidate.layout [' '],
      List.cons_ne_nil _ _, ?_, ?_, ?_, joinWith_text first rest [], hcompatible⟩
    · rw [List.map_cons, List.map_map]
      exact congrArg _ (List.map_id rest)
    · intro layout hlayout
      rcases List.mem_cons.1 hlayout with rfl | hlayout
      · exact wellFormed_layout (h first (List.mem_cons_self ..)) fun c hc ↦ (by cases hc)
      · obtain ⟨candidate, hcandidate, rfl⟩ := List.mem_map.1 hlayout
        refine wellFormed_layout (h candidate (List.mem_cons_of_mem _ hcandidate)) fun c hc ↦ ?_
        rw [List.mem_singleton.1 hc]
        decide
    · have hseparated : ∀ (layout : Layout) (others : List ImageCandidate),
          (layout :: others.map fun candidate ↦ candidate.layout [' ']).IsChain
            Layout.Separated := by
        intro layout others
        induction others generalizing layout with
        | nil => exact List.isChain_singleton _
        | cons next others ih =>
          exact List.isChain_cons_cons.2 ⟨fun _ _ ↦ List.cons_ne_nil _ _, ih _⟩
      exact hseparated _ rest

/-! ### Characters of descriptors -/

/-- The characters that a descriptor may have. -/
def isDescriptorChar (c : Char) : Bool :=
  c.isDigit || ".eE+-wx".toList.contains c

theorem IsDigits.isDescriptorChar {text : List Char} (h : IsDigits text) {c : Char} (hc : c ∈ text) :
    isDescriptorChar c = true := by
  unfold Srcset.isDescriptorChar
  rw [h.2 c hc]
  rfl

theorem IsNumber.isDescriptorChar {text : List Char} (h : IsNumber text) {c : Char}
    (hc : c ∈ text) : isDescriptorChar c = true := by
  obtain ⟨whole, fraction, exponent, rfl, hwhole, hfraction, -, hexponent⟩ := h
  rcases List.mem_append.1 hc with hc | hc
  · rcases List.mem_append.1 hc with hc | hc
    · rcases hwhole with rfl | hwhole
      · cases hc
      · exact hwhole.isDescriptorChar hc
    · rcases hfraction with rfl | ⟨digits, rfl, hdigits⟩
      · cases hc
      · rcases List.mem_cons.1 hc with rfl | hc
        · decide
        · exact hdigits.isDescriptorChar hc
  · rcases hexponent with rfl | ⟨e, sign, digits, rfl, he, hsign, hdigits⟩
    · cases hc
    · rw [List.cons_append] at hc
      rcases List.mem_cons.1 hc with rfl | hc
      · rcases he with rfl | rfl <;> decide
      · rcases List.mem_append.1 hc with hc | hc
        · rcases hsign with rfl | rfl | rfl
          · cases hc
          · rw [List.mem_singleton.1 hc]
            decide
          · rw [List.mem_singleton.1 hc]
            decide
        · exact hdigits.isDescriptorChar hc

theorem IsDescriptor.isDescriptorChar {descriptor : List Char} (h : IsDescriptor descriptor)
    {c : Char} (hc : c ∈ descriptor) : isDescriptorChar c = true := by
  rcases h with ⟨digits, rfl, hdigits, -⟩ | ⟨number, rfl, hnumber⟩
  · rcases List.mem_append.1 hc with hc | hc
    · exact hdigits.isDescriptorChar hc
    · rw [List.mem_singleton.1 hc]
      decide
  · rcases List.mem_append.1 hc with hc | hc
    · exact hnumber.isDescriptorChar hc
    · rw [List.mem_singleton.1 hc]
      decide

theorem IsDescriptor.ne_nil {descriptor : List Char} (h : IsDescriptor descriptor) :
    descriptor ≠ [] := by
  rcases h with ⟨digits, rfl, -⟩ | ⟨number, rfl, -⟩
  · exact List.append_ne_nil_of_right_ne_nil _ (List.cons_ne_nil _ _)
  · exact List.append_ne_nil_of_right_ne_nil _ (List.cons_ne_nil _ _)

end WebLens.Lib.Srcset
