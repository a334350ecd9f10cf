import WebLens.Crawl.Fetch
import WebLens.Crawl.StructuredData

/-!
# Robots directives

How a crawl reads the `X-Robots-Tag` fields of a response and the robots meta tags of a page. The
fetch keeps the values of the fields as lines of one text; each line is a list of directives, and
an agent in front of a directive restricts it and those after it in the line to that agent.

The scanner splits lines at commas before it looks at names and values. A date with a weekday has a
comma, so its second half is read as a directive of its own, with the hour in front of a colon as
its agent, and hides what follows it; and a value after a blank is read like a directive, so the
value `none` of another directive excludes the page.
-/

set_option autoImplicit false
set_option relaxedAutoImplicit false

namespace WebLens.Crawl

open Lib.Fields Lib.Utf8

variable (go : Strings)

/-! ### The scanner -/

/-- The characters that separate the tokens of a directive list. -/
def isTokenSeparator (byte : UInt8) : Bool :=
  [0x2C, 0x3B, 0x20, 0x09, 0x0D, 0x0A].contains byte

/-- The tokens that exclude a page. -/
def exclusions : List ByteString :=
  [ofText "noindex", ofText "none"]

def hasNoindexDirective (value : ByteString) : Bool :=
  (fieldsBy isTokenSeparator (go.toLower value)).any exclusions.contains

/-- The directives that have a value. -/
def valuedDirectives : List ByteString :=
  [ofText "max-snippet", ofText "max-image-preview", ofText "max-video-preview",
    ofText "unavailable_after"]

/-- Whether a part is for an agent, given whether those before it in the line are, and the text
that directives are looked for in. -/
def readPart (targeted : Bool) (part : ByteString) : Bool × ByteString :=
  match cut 0x3A part with
  | none => (targeted, part)
  | some (name, remainder) =>
    if valuedDirectives.contains (go.toLower (go.trimSpace name)) then (targeted, part)
    else (true, remainder)

/-- The loop over the parts of a line. -/
def readParts : Bool → List ByteString → Bool
  | _, [] => false
  | targeted, part :: parts =>
    let read := readPart go targeted (go.trimSpace part)
    (!read.1 && hasNoindexDirective go read.2) || readParts read.1 parts

def hasGenericXRobotsNoindex (value : ByteString) : Bool :=
  (value.splitOn 0x0A).any fun line ↦ readParts go false (line.splitOn 0x2C)

def indexability (statusCode : ℕ) (metaRobots xRobotsTag : ByteString) : Bool × String :=
  if statusCode < 200 ∨ 300 ≤ statusCode then (false, "HTTP_STATUS_NOT_INDEXABLE")
  else
    let metaNoindex := hasNoindexDirective go metaRobots
    let headerNoindex := hasGenericXRobotsNoindex go xRobotsTag
    if metaNoindex && headerNoindex then (false, "META_AND_X_ROBOTS_NOINDEX")
    else if headerNoindex then (false, "X_ROBOTS_TAG_NOINDEX")
    else if metaNoindex then (false, "META_ROBOTS_NOINDEX")
    else (true, "INDEXABLE")

/-! ### Directives -/

def isBlank (byte : UInt8) : Bool :=
  byte == 0x20 || byte == 0x09

/-- The characters of names and values: printable, without the comma, the colon and the
semicolon. -/
def isWordByte (byte : UInt8) : Bool :=
  0x21 ≤ byte && byte ≤ 0x7E && !([0x2C, 0x3A, 0x3B].contains byte)

/-- The characters of a time: those of words, blanks, and the colon. -/
def isTimeByte (byte : UInt8) : Bool :=
  isBlank byte || isWordByte byte || byte == 0x3A

def isDigit (byte : UInt8) : Bool :=
  0x30 ≤ byte && byte ≤ 0x39

/-- Optional white space. -/
structure Blanks where
  bytes : ByteString := []
  isBlank : ∀ byte ∈ bytes, isBlank byte = true

structure Word where
  bytes : ByteString
  isWord : ∀ byte ∈ bytes, isWordByte byte = true

/-- Whether a word is `noindex` or `none`, in any case. -/
def Word.excludes (word : Word) : Bool :=
  exclusions.contains (word.bytes.map asciiLower)

/-- The name of a directive with a value, in any case. -/
structure ValuedName extends Word where
  known : valuedDirectives.contains (bytes.map asciiLower) = true

/-- The name of an agent. -/
structure Agent extends Word where
  ne_nil : bytes ≠ []
  unknown : valuedDirectives.contains (bytes.map asciiLower) = false

/-- A date: the weekday, which a comma follows, if it is given, and the rest, which starts with the
day or the year and has a time of day if there is a weekday. -/
structure Date where
  weekday : Option (Word × Blanks) := none
  moment : ByteString
  isTime : ∀ byte ∈ moment, isTimeByte byte = true
  startsWithDigit : (moment.head?.map isDigit) = some true
  isTimed : weekday.isSome = true → 0x3A ∈ moment
  weekday_not_excludes : ∀ day ∈ weekday, day.1.excludes = false
  moment_not_excludes :
    (fieldsBy isTokenSeparator (moment.map asciiLower)).any exclusions.contains = false

/-- A directive: one without a value, one with a word as its value, and `unavailable_after`. -/
inductive Directive
  | plain (name : Word)
  | valued (name : ValuedName) (gap : Blanks) (value : Word)
  | unavailableAfter (name : ValuedName) (gap : Blanks) (date : Date)

/-- An element of a field: a directive, with the agent in front of it if there is one. -/
structure Item where
  left : Blanks := { isBlank := fun _ h ↦ absurd h List.not_mem_nil }
  agent : Option (Agent × Blanks) := none
  directive : Directive
  right : Blanks := { isBlank := fun _ h ↦ absurd h List.not_mem_nil }

/-- The text of an agent in front of a directive. -/
def agentText : Option (Agent × Blanks) → ByteString
  | none => []
  | some (agent, gap) => agent.bytes ++ 0x3A :: gap.bytes

/-- The texts of a directive between its commas. -/
def Directive.parts : Directive → ByteString × List ByteString
  | .plain name => (name.bytes, [])
  | .valued name gap value => (name.bytes ++ 0x3A :: (gap.bytes ++ value.bytes), [])
  | .unavailableAfter name gap date =>
    match date.weekday with
    | none => (name.bytes ++ 0x3A :: (gap.bytes ++ date.moment), [])
    | some (day, between) =>
      (name.bytes ++ 0x3A :: (gap.bytes ++ day.bytes), [between.bytes ++ date.moment])

/-- The texts of an element between its commas; blanks may follow the last one. -/
def Item.parts (item : Item) : List ByteString :=
  match item.directive.parts with
  | (first, []) => [item.left.bytes ++ (agentText item.agent ++ (first ++ item.right.bytes))]
  | (first, last :: _) =>
    [item.left.bytes ++ (agentText item.agent ++ first), last ++ item.right.bytes]

/-- The value of a field: its elements with commas between them. -/
def fieldValue (field : List Item) : ByteString :=
  join 0x2C (field.flatMap Item.parts)

/-! ### What a field says -/

/-- The elements outside every agent's scope, which lasts to the end of the field. -/
def generic (field : List Item) : List Item :=
  field.takeWhile fun item ↦ item.agent.isNone

theorem generic_cons (item : Item) (field : List Item) :
    generic (item :: field) = if item.agent.isNone then item :: generic field else [] := by
  unfold generic
  rw [List.takeWhile_cons]

/-- Whether a directive is `noindex` or `none`. -/
def Directive.excludes : Directive → Bool
  | .plain name => name.excludes
  | _ => false

/-- Some field has `noindex` or `none` outside every agent's scope. -/
def GenericNoindex (fields : List (List Item)) : Prop :=
  ∃ field ∈ fields, ∃ item ∈ generic field, item.directive.excludes = true

/-! ### Characters -/

theorem forall_byte {P : UInt8 → Prop} (h : ∀ n : Fin 256, P (UInt8.ofFin n)) (byte : UInt8) :
    P byte :=
  h byte.toFin

/-- What the kinds of characters have to do with each other. -/
theorem byte_spec : ∀ byte,
    (isAsciiSpace (asciiLower byte) = isAsciiSpace byte ∧
      isTokenSeparator (asciiLower byte) = isTokenSeparator byte) ∧
    (isBlank byte = true → isAsciiSpace byte = true ∧ isTokenSeparator byte = true ∧
      byte ≠ 0x3A ∧ isTimeByte byte = true) ∧
    (isWordByte byte = true → isAsciiSpace byte = false ∧ isTokenSeparator byte = false ∧
      byte ≠ 0x3A ∧ isTimeByte byte = true) ∧
    (isTimeByte byte = true → byte ≠ 0x2C ∧ byte ≠ 0x0A ∧ byte < 0x80 ∧
      (isAsciiSpace byte = true → isTokenSeparator byte = true)) ∧
    (isDigit byte = true → isAsciiSpace byte = false ∧ byte ≠ 0x3A ∧
      asciiLower byte = byte) :=
  forall_byte (by decide +kernel)

theorem isAsciiSpace_asciiLower (byte : UInt8) :
    isAsciiSpace (asciiLower byte) = isAsciiSpace byte := (byte_spec byte).1.1

theorem isTokenSeparator_asciiLower (byte : UInt8) :
    isTokenSeparator (asciiLower byte) = isTokenSeparator byte := (byte_spec byte).1.2

theorem isBlank_spec (byte : UInt8) (h : isBlank byte = true) :
    isAsciiSpace byte = true ∧ isTokenSeparator byte = true ∧ byte ≠ 0x3A ∧
      isTimeByte byte = true := (byte_spec byte).2.1 h

theorem isWordByte_spec (byte : UInt8) (h : isWordByte byte = true) :
    isAsciiSpace byte = false ∧ isTokenSeparator byte = false ∧ byte ≠ 0x3A ∧
      isTimeByte byte = true := (byte_spec byte).2.2.1 h

theorem isTimeByte_spec (byte : UInt8) (h : isTimeByte byte = true) :
    byte ≠ 0x2C ∧ byte ≠ 0x0A ∧ byte < 0x80 ∧
      (isAsciiSpace byte = true → isTokenSeparator byte = true) := (byte_spec byte).2.2.2.1 h

theorem isDigit_spec (byte : UInt8) (h : isDigit byte = true) :
    isAsciiSpace byte = false ∧ byte ≠ 0x3A ∧ asciiLower byte = byte :=
  (byte_spec byte).2.2.2.2 h

/-! ### The tokens of a part -/

/-- Whether a text has an excluding token. -/
def hasToken (text : ByteString) : Bool :=
  (fieldsBy isTokenSeparator (text.map asciiLower)).any exclusions.contains

theorem hasNoindexDirective_ascii (text : ByteString) :
    hasNoindexDirective .ascii text = hasToken text := rfl

theorem hasToken_trim {text : ByteString} (h : ∀ byte ∈ text, isTimeByte byte = true) :
    hasToken (trim isAsciiSpace text) = hasToken text := by
  unfold hasToken
  rw [← trim_map asciiLower text isAsciiSpace_asciiLower, fieldsBy_trim]
  intro byte hbyte hspace
  obtain ⟨original, horiginal, rfl⟩ := List.mem_map.1 hbyte
  rw [isAsciiSpace_asciiLower] at hspace
  rw [isTokenSeparator_asciiLower]
  exact (isTimeByte_spec _ (h original horiginal)).2.2.2 hspace

theorem isTokenSeparator_map {text : ByteString} {value : Bool}
    (h : ∀ byte ∈ text, isTokenSeparator byte = value) :
    ∀ byte ∈ text.map asciiLower, isTokenSeparator byte = value := by
  intro byte hbyte
  obtain ⟨original, horiginal, rfl⟩ := List.mem_map.1 hbyte
  rw [isTokenSeparator_asciiLower]
  exact h original horiginal

theorem Blanks.isSeparator (blanks : Blanks) :
    ∀ byte ∈ blanks.bytes, isTokenSeparator byte = true :=
  fun byte hbyte ↦ (isBlank_spec _ (blanks.isBlank byte hbyte)).2.1

theorem Word.not_isSeparator (word : Word) :
    ∀ byte ∈ word.bytes, isTokenSeparator byte = false :=
  fun byte hbyte ↦ (isWordByte_spec _ (word.isWord byte hbyte)).2.1

theorem hasToken_blanks_append (blanks : Blanks) (text : ByteString) :
    hasToken (blanks.bytes ++ text) = hasToken text := by
  unfold hasToken
  rw [List.map_append, fieldsBy_append_left (isTokenSeparator_map blanks.isSeparator)]

theorem hasToken_append_blanks (text : ByteString) (blanks : Blanks) :
    hasToken (text ++ blanks.bytes) = hasToken text := by
  unfold hasToken
  rw [List.map_append, fieldsBy_append_right (isTokenSeparator_map blanks.isSeparator)]

theorem exclusions_eq :
    exclusions = [[0x6E, 0x6F, 0x69, 0x6E, 0x64, 0x65, 0x78], [0x6E, 0x6F, 0x6E, 0x65]] := by
  decide +kernel

/-- No excluding token has a colon. -/
theorem contains_of_colon {token : ByteString} (h : (0x3A : UInt8) ∈ token) :
    exclusions.contains token = false := by
  rw [Bool.eq_false_iff, exclusions_eq]
  intro hcontains
  have hfree : ∀ other ∈ [([0x6E, 0x6F, 0x69, 0x6E, 0x64, 0x65, 0x78] : ByteString),
      [0x6E, 0x6F, 0x6E, 0x65]], (0x3A : UInt8) ∉ other := by
    decide
  exact hfree token (List.contains_iff_mem.1 hcontains) h

theorem hasToken_word (word : Word) : hasToken word.bytes = word.excludes := by
  unfold hasToken Word.excludes
  rw [fieldsBy_word (isTokenSeparator_map word.not_isSeparator)]
  by_cases hempty : word.bytes.map asciiLower = []
  · rw [if_pos hempty, hempty, exclusions_eq]
    rfl
  · rw [if_neg hempty, List.any_cons, List.any_nil, Bool.or_false]

/-- A name with its colon is no excluding token, whatever is written right after it. -/
theorem hasToken_name (name : Word) {text : ByteString} (h : hasToken text = false) :
    hasToken (name.bytes ++ 0x3A :: text) = false := by
  unfold hasToken at h ⊢
  rw [List.any_eq_false] at h ⊢
  intro field hfield
  have hnamed : ∀ byte ∈ (name.bytes ++ [0x3A]).map asciiLower, isTokenSeparator byte = false := by
    refine isTokenSeparator_map fun byte hbyte ↦ ?_
    rcases List.mem_append.1 hbyte with hname | hcolon
    · exact name.not_isSeparator byte hname
    · rw [List.mem_singleton.1 hcolon]
      decide
  rw [← List.singleton_append, ← List.append_assoc, List.map_append] at hfield
  rcases mem_fieldsBy_append hnamed hfield with ⟨rest, rfl⟩ | htext
  · intro hcontains
    have hcolon : (0x3A : UInt8) ∈ (name.bytes ++ [0x3A]).map asciiLower ++ rest :=
      List.mem_append_left _ (List.mem_map.2 ⟨0x3A, by simp, by decide⟩)
    rw [contains_of_colon hcolon] at hcontains
    exact Bool.false_ne_true hcontains
  · exact h field htext

/-- A blank ends the name, so that the value is read by itself. -/
theorem hasToken_name_blank (name : Word) {blank : UInt8} (hblank : isBlank blank = true)
    (text : ByteString) :
    hasToken (name.bytes ++ 0x3A :: blank :: text) = hasToken text := by
  have hname : hasToken (name.bytes ++ [0x3A]) = false := hasToken_name name rfl
  unfold hasToken at hname ⊢
  have hseparator : isTokenSeparator (asciiLower blank) = true := by
    rw [isTokenSeparator_asciiLower]
    exact (isBlank_spec _ hblank).2.1
  have hassoc : (name.bytes ++ 0x3A :: blank :: text).map asciiLower =
      (name.bytes ++ [0x3A]).map asciiLower ++ asciiLower blank :: text.map asciiLower := by
    simp only [List.map_append, List.map_cons, List.map_nil, List.append_assoc,
      List.singleton_append]
  rw [hassoc, fieldsBy_append_cons _ _ hseparator, List.any_append, hname, Bool.false_or]

/-- A word with a colon in it is no excluding token. -/
theorem hasToken_colon {text : ByteString} (hword : ∀ byte ∈ text, isTokenSeparator byte = false)
    (hcolon : (0x3A : UInt8) ∈ text) : hasToken text = false := by
  have hmem : (0x3A : UInt8) ∈ text.map asciiLower := List.mem_map.2 ⟨0x3A, hcolon, by decide⟩
  unfold hasToken
  rw [fieldsBy_word (isTokenSeparator_map hword), if_neg (List.ne_nil_of_mem hmem), List.any_cons,
    List.any_nil, Bool.or_false]
  exact contains_of_colon hmem

/-- A value is read as a directive exactly when a blank precedes it. -/
theorem hasToken_value (name : Word) (gap : Blanks) (value : Word) :
    hasToken (name.bytes ++ 0x3A :: (gap.bytes ++ value.bytes)) =
      (!gap.bytes.isEmpty && value.excludes) := by
  obtain ⟨blanks, hblanks⟩ := gap
  cases blanks with
  | nil =>
    refine hasToken_colon (fun byte hbyte ↦ ?_) (List.mem_append_right _ List.mem_cons_self)
    rcases List.mem_append.1 hbyte with hname | hvalue
    · exact name.not_isSeparator byte hname
    rcases List.mem_cons.1 hvalue with rfl | hvalue
    · decide
    · exact value.not_isSeparator byte hvalue
  | cons blank blanks =>
    have hrest : ∀ byte ∈ blanks, isBlank byte = true :=
      fun byte hbyte ↦ hblanks byte (List.mem_cons_of_mem _ hbyte)
    show hasToken (name.bytes ++ 0x3A :: blank :: (blanks ++ value.bytes)) = value.excludes
    rw [hasToken_name_blank name (hblanks blank List.mem_cons_self),
      hasToken_blanks_append ⟨blanks, hrest⟩, hasToken_word]

/-! ### The characters of a field -/

/-- All characters of a text are those of times. -/
def IsTime (text : ByteString) : Prop :=
  ∀ byte ∈ text, isTimeByte byte = true

theorem IsTime.append {first second : ByteString} (hfirst : IsTime first)
    (hsecond : IsTime second) : IsTime (first ++ second) := by
  intro byte hbyte
  rcases List.mem_append.1 hbyte with h | h
  · exact hfirst byte h
  · exact hsecond byte h

theorem IsTime.colon {text : ByteString} (h : IsTime text) : IsTime (0x3A :: text) := by
  intro byte hbyte
  rcases List.mem_cons.1 hbyte with rfl | hmem
  · decide
  · exact h byte hmem

theorem Blanks.isTime (blanks : Blanks) : IsTime blanks.bytes :=
  fun byte hbyte ↦ (isBlank_spec byte (blanks.isBlank byte hbyte)).2.2.2

theorem Word.isTime (word : Word) : IsTime word.bytes :=
  fun byte hbyte ↦ (isWordByte_spec byte (word.isWord byte hbyte)).2.2.2

theorem isTime_agentText (agent : Option (Agent × Blanks)) : IsTime (agentText agent) := by
  cases agent with
  | none => exact fun _ h ↦ absurd h List.not_mem_nil
  | some agent => exact agent.1.isTime.append agent.2.isTime.colon

theorem Directive.isTime (directive : Directive) :
    IsTime directive.parts.1 ∧ ∀ part ∈ directive.parts.2, IsTime part := by
  cases directive with
  | plain name => exact ⟨name.isTime, fun _ h ↦ absurd h List.not_mem_nil⟩
  | valued name gap value =>
    exact ⟨name.isTime.append (gap.isTime.append value.isTime).colon,
      fun _ h ↦ absurd h List.not_mem_nil⟩
  | unavailableAfter name gap date =>
    obtain ⟨weekday, moment, htime, _, _, _, _⟩ := date
    cases weekday with
    | none =>
      exact ⟨name.isTime.append (IsTime.append gap.isTime htime).colon,
        fun _ h ↦ absurd h List.not_mem_nil⟩
    | some day =>
      refine ⟨name.isTime.append (gap.isTime.append day.1.isTime).colon, fun part hpart ↦ ?_⟩
      rw [List.mem_singleton.1 hpart]
      exact IsTime.append day.2.isTime htime

theorem Item.isTime (item : Item) : ∀ part ∈ item.parts, IsTime part := by
  have hfront := item.left.isTime.append (isTime_agentText item.agent)
  obtain ⟨hfirst, hrest⟩ := item.directive.isTime
  intro part hpart
  unfold Item.parts at hpart
  rcases hparts : item.directive.parts with ⟨first, rest⟩
  rw [hparts] at hpart hfirst hrest
  cases rest with
  | nil =>
    rw [List.mem_singleton.1 hpart, ← List.append_assoc]
    exact hfront.append (IsTime.append hfirst item.right.isTime)
  | cons last rest =>
    rcases List.mem_cons.1 hpart with rfl | hlast
    · rw [← List.append_assoc]
      exact hfront.append hfirst
    · rw [List.mem_singleton.1 hlast]
      exact IsTime.append (hrest last List.mem_cons_self) item.right.isTime

/-! ### Reading a part -/

theorem Blanks.isSpace (blanks : Blanks) : ∀ byte ∈ blanks.bytes, isAsciiSpace byte = true :=
  fun byte hbyte ↦ (isBlank_spec byte (blanks.isBlank byte hbyte)).1

theorem Word.not_isSpace (word : Word) : ∀ byte ∈ word.bytes, isAsciiSpace byte = false :=
  fun byte hbyte ↦ (isWordByte_spec byte (word.isWord byte hbyte)).1

theorem Word.colon_not_mem (word : Word) : (0x3A : UInt8) ∉ word.bytes :=
  fun h ↦ (isWordByte_spec 0x3A (word.isWord 0x3A h)).2.2.1 rfl

theorem Blanks.colon_not_mem (blanks : Blanks) : (0x3A : UInt8) ∉ blanks.bytes :=
  fun h ↦ (isBlank_spec 0x3A (blanks.isBlank 0x3A h)).2.2.1 rfl

theorem trim_ascii (text : ByteString) :
    Strings.ascii.trimSpace text = trim isAsciiSpace text := rfl

/-- A named part is cut right after its name. -/
theorem cut_named (left : Blanks) (name : Word) (hname : name.bytes ≠ []) (text : ByteString) :
    cut 0x3A (trim isAsciiSpace (left.bytes ++ (name.bytes ++ 0x3A :: text))) =
      some (name.bytes, text.rdropWhile isAsciiSpace) := by
  rw [trim_append left.isSpace]
  have hcolon := name.colon_not_mem
  have hspace := name.not_isSpace
  cases hbytes : name.bytes with
  | nil => exact absurd hbytes hname
  | cons first rest =>
    rw [hbytes] at hcolon hspace
    rw [trim_cons_append first rest text (hspace first List.mem_cons_self) (by decide),
      cut_append_cons hcolon]

/-- A part that an agent starts is for that agent. -/
theorem readPart_agent (targeted : Bool) (left : Blanks) (agent : Agent) (text : ByteString) :
    (readPart .ascii targeted (trim isAsciiSpace
      (left.bytes ++ (agent.bytes ++ 0x3A :: text)))).1 = true := by
  have hunknown : valuedDirectives.contains
      (Strings.ascii.toLower (Strings.ascii.trimSpace agent.bytes)) = false := by
    rw [trim_ascii, trim_eq_self agent.not_isSpace]
    exact agent.unknown
  unfold readPart
  rw [cut_named left agent.toWord agent.ne_nil]
  simp only [hunknown, Bool.false_eq_true, if_false]

theorem ValuedName.ne_nil (name : ValuedName) : name.bytes ≠ [] := by
  intro hnil
  have hknown := name.known
  rw [hnil] at hknown
  exact absurd hknown (by decide +kernel)

/-- A part that the name of a directive with a value starts is read as a whole. -/
theorem readPart_valued (targeted : Bool) (left : Blanks) (name : ValuedName)
    (text : ByteString) :
    readPart .ascii targeted (trim isAsciiSpace (left.bytes ++ (name.bytes ++ 0x3A :: text))) =
      (targeted, trim isAsciiSpace (left.bytes ++ (name.bytes ++ 0x3A :: text))) := by
  have hknown : valuedDirectives.contains
      (Strings.ascii.toLower (Strings.ascii.trimSpace name.bytes)) = true := by
    rw [trim_ascii, trim_eq_self name.not_isSpace]
    exact name.known
  unfold readPart
  rw [cut_named left name.toWord name.ne_nil]
  simp only [hknown, if_true]

/-- A part without a colon is read as a whole. -/
theorem readPart_plain (targeted : Bool) {text : ByteString} (h : (0x3A : UInt8) ∉ text) :
    readPart .ascii targeted (trim isAsciiSpace text) = (targeted, trim isAsciiSpace text) := by
  unfold readPart
  rw [cut_eq_none fun hmem ↦ h (mem_of_mem_trim hmem)]

/-- No directive with a value starts with a digit. -/
theorem contains_digit {first : UInt8} (hdigit : isDigit first = true) (text : ByteString) :
    valuedDirectives.contains (first :: text) = false := by
  have hheads : ∀ name ∈ valuedDirectives, (name.head?.map isDigit) = some false := by
    decide +kernel
  rw [Bool.eq_false_iff]
  intro hcontains
  have hhead := hheads _ (List.contains_iff_mem.1 hcontains)
  rw [List.head?_cons, Option.map_some, hdigit] at hhead
  exact absurd hhead (by decide)

/-- The second half of a date with a weekday is taken for an agent and its directive. -/
theorem readPart_moment (targeted : Bool) (between right : Blanks) {moment : ByteString}
    (hdigit : (moment.head?.map isDigit) = some true) (hcolon : (0x3A : UInt8) ∈ moment) :
    (readPart .ascii targeted
      (trim isAsciiSpace (between.bytes ++ moment ++ right.bytes))).1 = true := by
  obtain ⟨before, after, rfl, hfree⟩ := List.eq_append_cons_of_mem hcolon
  cases before with
  | nil =>
    have hcolonDigit : isDigit 0x3A = true := Option.some.inj hdigit
    exact absurd hcolonDigit (by decide)
  | cons first before =>
    have hfirst : isDigit first = true := Option.some.inj hdigit
    obtain ⟨hspace, _, hlower⟩ := isDigit_spec first hfirst
    rw [List.append_assoc, trim_append between.isSpace, List.append_assoc, List.cons_append,
      List.cons_append, ← List.cons_append,
      trim_cons_append first before (after ++ right.bytes) hspace (by decide)]
    have hunknown : valuedDirectives.contains
        (Strings.ascii.toLower (Strings.ascii.trimSpace (first :: before))) = false := by
      rw [trim_ascii, trim_cons first before hspace]
      show valuedDirectives.contains (asciiLower first :: _) = false
      rw [hlower]
      exact contains_digit hfirst _
    unfold readPart
    rw [cut_append_cons hfree]
    simp only [hunknown, Bool.false_eq_true, if_false]

/-! ### Reading a line -/

/-- Once a part is for an agent, the rest of the line is. -/
theorem readPart_targeted (text : ByteString) : (readPart go true text).1 = true := by
  unfold readPart
  cases cut 0x3A text with
  | none => rfl
  | some parts =>
    simp only
    split
    · rfl
    · rfl

theorem readParts_cons (targeted : Bool) (part : ByteString) (parts : List ByteString) :
    readParts go targeted (part :: parts) =
      ((!(readPart go targeted (go.trimSpace part)).1 &&
          hasNoindexDirective go (readPart go targeted (go.trimSpace part)).2) ||
        readParts go (readPart go targeted (go.trimSpace part)).1 parts) := rfl

theorem readParts_targeted (parts : List ByteString) : readParts go true parts = false := by
  induction parts with
  | nil => rfl
  | cons part parts ih =>
    rw [readParts_cons]
    simp only [readPart_targeted, ih, Bool.not_true, Bool.false_and, Bool.or_self]

/-- A part for an agent hides the rest of the line. -/
theorem readParts_of_targeted {part : ByteString} {parts : List ByteString}
    (h : (readPart go false (go.trimSpace part)).1 = true) :
    readParts go false (part :: parts) = false := by
  rw [readParts_cons]
  simp only [h, readParts_targeted, Bool.not_true, Bool.false_and, Bool.or_self]

/-- A part that is read as a whole excludes the page if it has such a token. -/
theorem readParts_whole {part : ByteString} {parts : List ByteString}
    (htime : IsTime part)
    (h : readPart .ascii false (trim isAsciiSpace part) = (false, trim isAsciiSpace part)) :
    readParts .ascii false (part :: parts) = (hasToken part || readParts .ascii false parts) := by
  rw [readParts_cons]
  simp only [trim_ascii, h, hasNoindexDirective_ascii, hasToken_trim htime, Bool.not_false,
    Bool.true_and]

/-- Whether the value of a directive is read as a directive. -/
def Directive.misread : Directive → Bool
  | .valued _ gap value => !gap.bytes.isEmpty && value.excludes
  | _ => false

/-- Whether a directive is a date with a weekday, whose comma splits it. -/
def Directive.splits : Directive → Bool
  | .unavailableAfter _ _ date => date.weekday.isSome
  | _ => false

/-- An agent hides its element and the rest of the line. -/
theorem readParts_agent (left : Blanks) (agent : Agent) (gap : Blanks) (text : ByteString)
    (parts : List ByteString) :
    readParts .ascii false
      ((left.bytes ++ (agentText (some (agent, gap)) ++ text)) :: parts) = false := by
  refine readParts_of_targeted .ascii ?_
  show (readPart .ascii false (trim isAsciiSpace
    (left.bytes ++ ((agent.bytes ++ 0x3A :: gap.bytes) ++ text)))).1 = true
  rw [List.append_assoc, List.cons_append]
  exact readPart_agent false left agent _

theorem readParts_plain (left : Blanks) (name : Word) (right : Blanks)
    (parts : List ByteString) :
    readParts .ascii false ((left.bytes ++ (name.bytes ++ right.bytes)) :: parts) =
      (name.excludes || readParts .ascii false parts) := by
  have htime := left.isTime.append (name.isTime.append right.isTime)
  have hcolon : (0x3A : UInt8) ∉ left.bytes ++ (name.bytes ++ right.bytes) := by
    rw [List.mem_append, List.mem_append, not_or, not_or]
    exact ⟨left.colon_not_mem, name.colon_not_mem, right.colon_not_mem⟩
  rw [readParts_whole htime (readPart_plain false hcolon), hasToken_blanks_append,
    hasToken_append_blanks, hasToken_word]

/-- The part that the name of a directive with a value starts is read by its tokens. -/
theorem readParts_named (left : Blanks) (name : ValuedName) {text : ByteString}
    (htext : IsTime text) (parts : List ByteString) :
    readParts .ascii false ((left.bytes ++ (name.bytes ++ 0x3A :: text)) :: parts) =
      (hasToken (name.bytes ++ 0x3A :: text) || readParts .ascii false parts) := by
  have htime := left.isTime.append (name.isTime.append htext.colon)
  rw [readParts_whole htime (readPart_valued false left name text), hasToken_blanks_append]

theorem readParts_valued (left : Blanks) (name : ValuedName) (gap : Blanks) (value : Word)
    (right : Blanks) (parts : List ByteString) :
    readParts .ascii false
        ((left.bytes ++ (name.bytes ++ 0x3A :: (gap.bytes ++ value.bytes) ++ right.bytes)) ::
          parts) =
      (!gap.bytes.isEmpty && value.excludes || readParts .ascii false parts) := by
  have htext := (gap.isTime.append value.isTime).append right.isTime
  have hassoc : name.bytes ++ 0x3A :: (gap.bytes ++ value.bytes) ++ right.bytes =
      name.bytes ++ 0x3A :: (gap.bytes ++ value.bytes ++ right.bytes) := by
    rw [List.append_assoc, List.cons_append]
  rw [hassoc, readParts_named left name htext, ← hassoc, hasToken_append_blanks, hasToken_value]

/-- A date is passed over; one with a weekday hides the rest of the line. -/
theorem readParts_date (left : Blanks) (name : ValuedName) (gap : Blanks) (date : Date)
    (right : Blanks) (parts : List ByteString) :
    readParts .ascii false
        (Item.parts { left := left, directive := .unavailableAfter name gap date,
                      right := right } ++ parts) =
      (!date.weekday.isSome && readParts .ascii false parts) := by
  obtain ⟨weekday, moment, htime, hdigit, htimed, hweekday, hmoment⟩ := date
  have hquiet : hasToken moment = false := hmoment
  cases weekday with
  | none =>
    have htext := (IsTime.append gap.isTime htime).append right.isTime
    have hassoc : name.bytes ++ 0x3A :: (gap.bytes ++ moment) ++ right.bytes =
        name.bytes ++ 0x3A :: (gap.bytes ++ moment ++ right.bytes) := by
      rw [List.append_assoc, List.cons_append]
    show readParts .ascii false
      ((left.bytes ++ (name.bytes ++ 0x3A :: (gap.bytes ++ moment) ++ right.bytes)) :: parts) = _
    rw [hassoc, readParts_named left name htext, hasToken_name name.toWord]
    · rfl
    · rw [hasToken_append_blanks, hasToken_blanks_append, hquiet]
  | some day =>
    obtain ⟨day, between⟩ := day
    have htext := gap.isTime.append day.isTime
    show readParts .ascii false
      ((left.bytes ++ (name.bytes ++ 0x3A :: (gap.bytes ++ day.bytes))) ::
        ((between.bytes ++ moment ++ right.bytes) :: parts)) = false
    rw [readParts_named left name htext, hasToken_name name.toWord, Bool.false_or]
    · exact readParts_of_targeted .ascii
        (readPart_moment false between right hdigit (htimed rfl))
    · rw [hasToken_blanks_append, hasToken_word]
      exact hweekday (day, between) rfl

/-- What the loop makes of one element, and whether it goes on to the next one. -/
theorem readParts_item (item : Item) (parts : List ByteString) :
    readParts .ascii false (item.parts ++ parts) =
      (item.agent.isNone && (item.directive.excludes || item.directive.misread ||
        (!item.directive.splits && readParts .ascii false parts))) := by
  obtain ⟨left, agent, directive, right⟩ := item
  cases agent with
  | some agent =>
    obtain ⟨agent, gap⟩ := agent
    unfold Item.parts
    rcases directive.parts with ⟨first, _ | ⟨last, rest⟩⟩
    · exact readParts_agent left agent gap _ parts
    · exact readParts_agent left agent gap _ _
  | none =>
    cases directive with
    | plain name =>
      exact (readParts_plain left name right parts).trans (by simp [Directive.excludes,
        Directive.misread, Directive.splits])
    | valued name gap value =>
      exact (readParts_valued left name gap value right parts).trans (by simp [Directive.excludes,
        Directive.misread, Directive.splits])
    | unavailableAfter name gap date =>
      exact (readParts_date left name gap date right parts).trans (by simp [Directive.excludes,
        Directive.misread, Directive.splits])

/-! ### Reading the fields -/

/-- The elements that are read: those outside every agent's scope, up to the first date with a
weekday. -/
def seen : List Item → List Item
  | [] => []
  | item :: field =>
    if item.agent.isNone then item :: (if item.directive.splits then [] else seen field) else []

theorem readParts_field (field : List Item) :
    readParts .ascii false (field.flatMap Item.parts) =
      (seen field).any fun item ↦ item.directive.excludes || item.directive.misread := by
  induction field with
  | nil => rfl
  | cons item field ih =>
    unfold seen
    rw [List.flatMap_cons, readParts_item, ih]
    by_cases hagent : item.agent.isNone = true
    · rw [if_pos hagent, hagent, Bool.true_and, List.any_cons]
      by_cases hsplits : item.directive.splits = true
      · rw [if_pos hsplits, hsplits]
        rfl
      · rw [if_neg hsplits, Bool.eq_false_iff.2 hsplits]
        rfl
    · rw [if_neg hagent, Bool.eq_false_iff.2 hagent]
      rfl

/-- What is read is outside every agent's scope. -/
theorem mem_generic_of_mem_seen {field : List Item} {item : Item} (h : item ∈ seen field) :
    item ∈ generic field := by
  induction field with
  | nil => exact absurd h List.not_mem_nil
  | cons first field ih =>
    unfold seen at h
    by_cases hagent : first.agent.isNone = true
    · rw [if_pos hagent] at h
      rw [generic_cons, if_pos hagent]
      rcases List.mem_cons.1 h with rfl | hlater
      · exact List.mem_cons_self
      · by_cases hsplits : first.directive.splits = true
        · rw [if_pos hsplits] at hlater
          exact absurd hlater List.not_mem_nil
        · rw [if_neg hsplits] at hlater
          exact List.mem_cons_of_mem _ (ih hlater)
    · rw [if_neg hagent] at h
      exact absurd h List.not_mem_nil

theorem Item.parts_ne_nil (item : Item) : item.parts ≠ [] := by
  unfold Item.parts
  rcases item.directive.parts with ⟨first, _ | ⟨last, rest⟩⟩
  · exact List.cons_ne_nil _ _
  · exact List.cons_ne_nil _ _

theorem isTime_parts (field : List Item) : ∀ part ∈ field.flatMap Item.parts, IsTime part := by
  intro part hpart
  obtain ⟨item, _, hitem⟩ := List.mem_flatMap.1 hpart
  exact item.isTime part hitem

theorem readParts_fieldValue (field : List Item) :
    readParts .ascii false ((fieldValue field).splitOn 0x2C) =
      (seen field).any fun item ↦ item.directive.excludes || item.directive.misread := by
  cases field with
  | nil => decide +kernel
  | cons item field =>
    have hne : (item :: field).flatMap Item.parts ≠ [] := by
      rw [List.flatMap_cons]
      exact fun h ↦ item.parts_ne_nil (List.append_eq_nil_iff.1 h).1
    have hfree : ∀ part ∈ (item :: field).flatMap Item.parts, (0x2C : UInt8) ∉ part :=
      fun part hpart hmem ↦
        (isTimeByte_spec 0x2C (isTime_parts (item :: field) part hpart 0x2C hmem)).1 rfl
    unfold fieldValue
    rw [splitOn_join hne hfree]
    exact readParts_field (item :: field)

/-- The characters of a value are those of its parts and commas. -/
theorem fieldValue_spec (field : List Item) :
    ∀ byte ∈ fieldValue field, byte ≠ 0x0A ∧ byte < 0x80 := by
  intro byte hbyte
  rcases mem_join hbyte with rfl | ⟨part, hpart, hmem⟩
  · decide
  · obtain ⟨_, hline, hascii, _⟩ := isTimeByte_spec byte (isTime_parts field part hpart byte hmem)
    exact ⟨hline, hascii⟩

theorem hasGenericXRobotsNoindex_ascii (fields : List (List Item)) :
    hasGenericXRobotsNoindex .ascii (joinLines (fields.map fieldValue)) =
      fields.any fun field ↦
        (seen field).any fun item ↦ item.directive.excludes || item.directive.misread := by
  cases fields with
  | nil => decide +kernel
  | cons field fields =>
    have hfree : ∀ value ∈ (field :: fields).map fieldValue, (0x0A : UInt8) ∉ value := by
      intro value hvalue hmem
      obtain ⟨source, _, rfl⟩ := List.mem_map.1 hvalue
      exact (fieldValue_spec source 0x0A hmem).1 rfl
    unfold hasGenericXRobotsNoindex joinLines
    rw [splitOn_join (by simp) hfree, List.any_map]
    congr 1
    funext source
    exact readParts_fieldValue source

/-! ### Texts that are not ASCII -/

/-- On ASCII texts the functions of the standard library are the ASCII ones. -/
def AgreesOnAscii : Prop :=
  ∀ text : ByteString, (∀ byte ∈ text, byte < 0x80) →
    go.trimSpace text = Strings.ascii.trimSpace text ∧
      go.toLower text = Strings.ascii.toLower text

section Agreement

variable {go} (hgo : AgreesOnAscii go)

include hgo

theorem hasNoindexDirective_congr {value : ByteString} (h : ∀ byte ∈ value, byte < 0x80) :
    hasNoindexDirective go value = hasNoindexDirective .ascii value := by
  unfold hasNoindexDirective
  rw [(hgo value h).2]

theorem readPart_congr (targeted : Bool) {part : ByteString} (h : ∀ byte ∈ part, byte < 0x80) :
    readPart go targeted part = readPart .ascii targeted part := by
  unfold readPart
  cases hcut : cut 0x3A part with
  | none => rfl
  | some parts =>
    have hname : ∀ byte ∈ parts.1, byte < 0x80 := by
      intro byte hbyte
      refine h byte ?_
      rw [eq_of_cut hcut]
      exact List.mem_append_left _ hbyte
    have htrimmed : ∀ byte ∈ Strings.ascii.trimSpace parts.1, byte < 0x80 :=
      fun byte hbyte ↦ hname byte (mem_of_mem_trim hbyte)
    simp only [(hgo _ hname).1, (hgo _ htrimmed).2]

omit hgo in
theorem mem_readPart {targeted : Bool} {part : ByteString} {byte : UInt8}
    (h : byte ∈ (readPart go targeted part).2) : byte ∈ part := by
  unfold readPart at h
  cases hcut : cut 0x3A part with
  | none =>
    rw [hcut] at h
    exact h
  | some parts =>
    simp only [hcut] at h
    split at h
    · exact h
    · rw [eq_of_cut hcut]
      exact List.mem_append_right _ (List.mem_cons_of_mem _ h)

theorem readParts_congr (targeted : Bool) {parts : List ByteString}
    (h : ∀ part ∈ parts, ∀ byte ∈ part, byte < 0x80) :
    readParts go targeted parts = readParts .ascii targeted parts := by
  induction parts generalizing targeted with
  | nil => rfl
  | cons part parts ih =>
    have hpart : ∀ byte ∈ Strings.ascii.trimSpace part, byte < 0x80 :=
      fun byte hbyte ↦ h part List.mem_cons_self byte (mem_of_mem_trim hbyte)
    rw [readParts_cons, readParts_cons, (hgo part (h part List.mem_cons_self)).1,
      readPart_congr hgo targeted hpart,
      hasNoindexDirective_congr hgo fun byte hbyte ↦ hpart byte (mem_readPart hbyte),
      ih _ fun other hother ↦ h other (List.mem_cons_of_mem _ hother)]

theorem hasGenericXRobotsNoindex_congr {value : ByteString} (h : ∀ byte ∈ value, byte < 0x80) :
    hasGenericXRobotsNoindex go value = hasGenericXRobotsNoindex .ascii value := by
  unfold hasGenericXRobotsNoindex
  have hlines : ∀ line ∈ value.splitOn 0x0A,
      readParts go false (line.splitOn 0x2C) = readParts .ascii false (line.splitOn 0x2C) :=
    fun line hline ↦ readParts_congr hgo false fun part hpart byte hbyte ↦
      h byte (mem_of_mem_splitOn hline (mem_of_mem_splitOn hpart hbyte))
  rw [Bool.eq_iff_iff, List.any_eq_true, List.any_eq_true]
  constructor
  · rintro ⟨line, hline, hread⟩
    exact ⟨line, hline, (hlines line hline).symm.trans hread⟩
  · rintro ⟨line, hline, hread⟩
    exact ⟨line, hline, (hlines line hline).trans hread⟩

end Agreement

/-! ### The verdict -/

/-- The reasons that blame the header. -/
def headerReasons : List String :=
  ["X_ROBOTS_TAG_NOINDEX", "META_AND_X_ROBOTS_NOINDEX"]

/-- The `X-Robots-Tag` text that a fetch keeps of some fields. -/
def keptTag (fields : List (List Item)) : ByteString :=
  bounded (joinLines (fields.map fieldValue)) 512

/-- The verdict on a page follows what the fields and its meta tags say. -/
structure ReadCorrectly (fields : List (List Item)) : Prop where
  noindex_iff : hasGenericXRobotsNoindex go (keptTag fields) = true ↔ GenericNoindex fields
  indexable_iff : ∀ statusCode metaRobots,
    (indexability go statusCode metaRobots (keptTag fields)).1 = true ↔
      (200 ≤ statusCode ∧ statusCode < 300) ∧ hasNoindexDirective go metaRobots = false ∧
        ¬ GenericNoindex fields
  reason_iff : ∀ statusCode metaRobots,
    (indexability go statusCode metaRobots (keptTag fields)).2 ∈ headerReasons ↔
      (200 ≤ statusCode ∧ statusCode < 300) ∧ GenericNoindex fields

/-- The condition: what is read has an exclusion, or a value that looks like one, if some field
excludes the page, and has no such value otherwise. -/
structure Readable (fields : List (List Item)) : Prop where
  found : GenericNoindex fields → ∃ field ∈ fields, ∃ item ∈ seen field,
    item.directive.excludes = true ∨ item.directive.misread = true
  quiet : ¬ GenericNoindex fields → ∀ field ∈ fields, ∀ item ∈ seen field,
    item.directive.misread = false

/-- The verdict from the two that it combines. -/
theorem indexability_eq (statusCode : ℕ) (metaRobots tag : ByteString) :
    ((indexability go statusCode metaRobots tag).1 = true ↔
        (200 ≤ statusCode ∧ statusCode < 300) ∧ hasNoindexDirective go metaRobots = false ∧
          ¬ hasGenericXRobotsNoindex go tag = true) ∧
      ((indexability go statusCode metaRobots tag).2 ∈ headerReasons ↔
        (200 ≤ statusCode ∧ statusCode < 300) ∧ hasGenericXRobotsNoindex go tag = true) := by
  unfold indexability
  by_cases hstatus : statusCode < 200 ∨ 300 ≤ statusCode
  · have hnot : ¬ (200 ≤ statusCode ∧ statusCode < 300) := by omega
    rw [if_pos hstatus]
    exact ⟨⟨fun h ↦ absurd h (by decide), fun h ↦ absurd h.1 hnot⟩,
      ⟨fun h ↦ absurd h (by decide), fun h ↦ absurd h.1 hnot⟩⟩
  · have hin : 200 ≤ statusCode ∧ statusCode < 300 := by omega
    rw [if_neg hstatus]
    cases hasNoindexDirective go metaRobots <;> cases hasGenericXRobotsNoindex go tag <;>
      simp [hin, headerReasons]

theorem hasGenericXRobotsNoindex_keptTag (hgo : AgreesOnAscii go) {fields : List (List Item)}
    (hfit : (joinLines (fields.map fieldValue)).length ≤ 512) :
    hasGenericXRobotsNoindex go (keptTag fields) = true ↔
      ∃ field ∈ fields, ∃ item ∈ seen field,
        item.directive.excludes = true ∨ item.directive.misread = true := by
  have hkept : keptTag fields = joinLines (fields.map fieldValue) := by
    unfold keptTag bounded
    rw [if_neg (Nat.not_lt.2 hfit)]
  have hascii : ∀ byte ∈ joinLines (fields.map fieldValue), byte < 0x80 := by
    intro byte hbyte
    rcases mem_join hbyte with rfl | ⟨value, hvalue, hmem⟩
    · decide
    · obtain ⟨field, _, rfl⟩ := List.mem_map.1 hvalue
      exact (fieldValue_spec field byte hmem).2
  rw [hkept, hasGenericXRobotsNoindex_congr hgo hascii, hasGenericXRobotsNoindex_ascii]
  simp only [List.any_eq_true, Bool.or_eq_true]

/-- Fields without dates with weekdays and values that look like exclusions are readable. -/
theorem readable_of_forall {fields : List (List Item)}
    (h : ∀ field ∈ fields, ∀ item ∈ generic field,
      item.directive.splits = false ∧ item.directive.misread = false) : Readable fields := by
  have hseen : ∀ field : List Item, (∀ item ∈ generic field, item.directive.splits = false) →
      seen field = generic field := by
    intro field hsplits
    induction field with
    | nil => rfl
    | cons item field ih =>
      rw [generic_cons] at hsplits ⊢
      unfold seen
      by_cases hagent : item.agent.isNone = true
      · rw [if_pos hagent] at hsplits
        rw [if_pos hagent, if_pos hagent, hsplits item List.mem_cons_self,
          if_neg Bool.false_ne_true,
          ih fun other hother ↦ hsplits other (List.mem_cons_of_mem _ hother)]
      · rw [if_neg hagent, if_neg hagent]
  constructor
  · rintro ⟨field, hfield, item, hitem, hexcludes⟩
    refine ⟨field, hfield, item, ?_, .inl hexcludes⟩
    rw [hseen field fun other hother ↦ (h field hfield other hother).1]
    exact hitem
  · intro _ field hfield item hitem
    exact (h field hfield item (mem_generic_of_mem_seen hitem)).2

/-! ### A date with a weekday -/

/-- The directive `noindex`. -/
def noindexItem : Item where
  directive := .plain ⟨ofText "noindex", by decide +kernel⟩

/-- `unavailable_after: Wednesday, 25-Jun-25 15:00:00 GMT`. -/
def expiryItem : Item where
  directive := .unavailableAfter
    { bytes := ofText "unavailable_after", isWord := by decide +kernel, known := by decide +kernel }
    { bytes := [0x20], isBlank := by decide +kernel }
    { weekday := some (⟨ofText "Wednesday", by decide +kernel⟩,
        { bytes := [0x20], isBlank := by decide +kernel })
      moment := ofText "25-Jun-25 15:00:00 GMT"
      isTime := by decide +kernel
      startsWithDigit := by decide +kernel
      isTimed := fun _ ↦ by decide +kernel
      weekday_not_excludes := by
        intro day hday
        rw [← Option.some.inj hday]
        decide +kernel
      moment_not_excludes := by decide +kernel }

theorem agreesOnAscii_ascii : AgreesOnAscii .ascii := fun _ _ ↦ ⟨rfl, rfl⟩

theorem readable_noindexItem : Readable [[noindexItem]] := by
  have hexcludes : noindexItem.directive.excludes = true := by decide +kernel
  refine ⟨fun _ ↦ ⟨[noindexItem], List.mem_cons_self, noindexItem, List.mem_cons_self,
    .inl hexcludes⟩, fun hnone ↦ absurd ?_ hnone⟩
  exact ⟨[noindexItem], List.mem_cons_self, noindexItem, List.mem_cons_self, hexcludes⟩

/-- The fields are read correctly exactly when they are readable. -/
theorem readCorrectly_iff (hgo : AgreesOnAscii go) (fields : List (List Item))
    (hfit : (joinLines (fields.map fieldValue)).length ≤ 512) :
    ReadCorrectly go fields ↔ Readable fields := by
  have hread := hasGenericXRobotsNoindex_keptTag go hgo hfit
  constructor
  · intro hcorrect
    refine ⟨fun hgeneric ↦ hread.1 (hcorrect.noindex_iff.2 hgeneric), ?_⟩
    intro hnone field hfield item hitem
    by_contra hmisread
    exact hnone (hcorrect.noindex_iff.1
      (hread.2 ⟨field, hfield, item, hitem, .inr (Bool.not_eq_false _ ▸ hmisread)⟩))
  · intro hreadable
    have hiff : hasGenericXRobotsNoindex go (keptTag fields) = true ↔ GenericNoindex fields := by
      rw [hread]
      constructor
      · rintro ⟨field, hfield, item, hitem, hexcludes | hmisread⟩
        · exact ⟨field, hfield, item, mem_generic_of_mem_seen hitem, hexcludes⟩
        · by_contra hnone
          rw [hreadable.quiet hnone field hfield item hitem] at hmisread
          exact Bool.false_ne_true hmisread
      · exact hreadable.found
    refine ⟨hiff, fun statusCode metaRobots ↦ ?_, fun statusCode metaRobots ↦ ?_⟩
    · rw [(indexability_eq go statusCode metaRobots _).1, hiff]
    · rw [(indexability_eq go statusCode metaRobots _).2, hiff]

theorem readCorrectly_noindexItem : ReadCorrectly .ascii [[noindexItem]] :=
  (readCorrectly_iff .ascii agreesOnAscii_ascii [[noindexItem]] (by decide +kernel)).2
    readable_noindexItem

/-- The hour of the date is taken for an agent, so the page stays indexable. -/
theorem not_readCorrectly_expiryItem :
    fieldValue [expiryItem, noindexItem] =
        ofText "unavailable_after: Wednesday, 25-Jun-25 15:00:00 GMT,noindex" ∧
      ¬ ReadCorrectly .ascii [[expiryItem, noindexItem]] := by
  refine ⟨by decide +kernel, fun hcorrect ↦ ?_⟩
  have hgeneric : GenericNoindex [[expiryItem, noindexItem]] :=
    ⟨[expiryItem, noindexItem], List.mem_cons_self, noindexItem,
      List.mem_cons_of_mem _ List.mem_cons_self, by decide +kernel⟩
  have hread : hasGenericXRobotsNoindex .ascii (keptTag [[expiryItem, noindexItem]]) = false := by
    decide +kernel
  rw [hcorrect.noindex_iff.2 hgeneric] at hread
  exact Bool.false_ne_true hread.symm

end WebLens.Crawl
