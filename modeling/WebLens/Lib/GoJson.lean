import WebLens.Lib.JsonRoundTrip

/-!
# Typed JSON of Go values

A Go value is written by `encoding/json` as the JSON value of its fields in the order of their
declaration, and read back under the guidance of its type. `GoType` is the part of Go's types that
have a JSON form here; `GoType.unmarshal` decodes a JSON value at a type and gives the JSON value
that encoding the result writes, with unknown fields refused.

* `unmarshal_canon` — decoding does not depend on the order of members.
* `unmarshal_sanitize` — the sanitized form of a value of the type decodes to itself.
-/

set_option autoImplicit false
set_option relaxedAutoImplicit false

namespace WebLens.Lib

open Utf8 Json

/-- A Go type with a JSON form. `text` is a type with its own text form, given by the text of its
zero value and by parsing a text and printing the result; `map` is `map[string]any`, whose numbers
are read as they are, as Go does with the integers that a `float64` holds exactly. -/
inductive GoType
  | bool
  | int (low high : ℤ)
  | string
  | text (zero : ByteString) (reprint : ByteString → Option ByteString)
  | slice (element : GoType)
  | struct (fields : List (ByteString × GoType))
  | map

/-- A type that is written as its own text, such as an identifier or a time: printing a value and
parsing the text gives the value back, and the text is valid UTF-8. -/
structure TextCodec (α : Type) where
  /-- The text of a value. -/
  text : α → ByteString
  /-- The value of a text. -/
  parse : ByteString → Option α
  parse_text : ∀ a, parse (text a) = some a
  valid_text : ∀ a, valid (text a) = true

/-- The JSON type of a text codec with the given zero value. -/
def TextCodec.type {α : Type} (codec : TextCodec α) (zero : α) : GoType :=
  .text (codec.text zero) fun value ↦ (codec.parse value).map codec.text

namespace GoType

mutual

/-- The JSON form of the zero value. -/
def zero : GoType → Json
  | .bool => .bool false
  | .int _ _ => .number 0
  | .string => .string []
  | .text zero _ => .string zero
  | .slice _ => .null
  | .struct fields => .object (zeroFields fields)
  | .map => .null

/-- The fields of the zero value. -/
def zeroFields : List (ByteString × GoType) → List (ByteString × Json)
  | [] => []
  | (name, type) :: fields => (name, type.zero) :: zeroFields fields

end

mutual

/-- Decodes a JSON value at a type and gives the JSON form of the result. A null leaves the zero
value, numbers must be in range, a struct refuses members that are not fields, and a map writes its
members in the order of their names. -/
def unmarshal : GoType → Json → Option Json
  | type, .null => some type.zero
  | .bool, .bool value => some (.bool value)
  | .int low high, .number value =>
    if low ≤ value ∧ value ≤ high then some (.number value) else none
  | .string, .string value => some (.string value)
  | .text _ reprint, .string value => (reprint value).map .string
  | .slice element, .array elements => (elements.mapM (unmarshal element)).map .array
  | .struct fields, .object members =>
    if ∀ name ∈ members.map Prod.fst, (fields.map Prod.fst).contains name = true then
      (unmarshalFields fields (keepLast members)).map .object
    else none
  | .map, .object members => some (.object (sortMembers (keepLast (canonMembers members))))
  | _, _ => none

/-- Decodes the fields of a struct in the order of their declaration. A field without a member
keeps its zero value. -/
def unmarshalFields :
    List (ByteString × GoType) → List (ByteString × Json) → Option (List (ByteString × Json))
  | [], _ => some []
  | (name, type) :: fields, members =>
    match unmarshal type ((members.lookup name).getD .null), unmarshalFields fields members with
    | some value, some rest => some ((name, value) :: rest)
    | _, _ => none

end

end GoType

/-! ### Members by name -/

section Members

variable {α β : Type*}

private instance : Std.Total fun first second : ByteString × α ↦ first.1 ≤ second.1 :=
  ⟨fun first second ↦ List.le_total first.1 second.1⟩

private instance : IsTrans (ByteString × α) fun first second ↦ first.1 ≤ second.1 :=
  ⟨fun _ _ _ h h' ↦ List.le_trans h h'⟩

/-- Sorting keeps the members. -/
theorem sortMembers_perm (members : List (ByteString × α)) : (sortMembers members).Perm members :=
  List.perm_insertionSort _ members

/-- The sorted members are in order. -/
theorem pairwise_sortMembers (members : List (ByteString × α)) :
    (sortMembers members).Pairwise fun first second ↦ first.1 ≤ second.1 :=
  List.pairwise_insertionSort _ members

/-- Sorted members are left alone. -/
theorem sortMembers_of_pairwise {members : List (ByteString × α)}
    (h : members.Pairwise fun first second ↦ first.1 ≤ second.1) : sortMembers members = members :=
  h.insertionSort_eq

/-- Sorting looks at names only. -/
theorem sortMembers_map (f : α → β) (members : List (ByteString × α)) :
    sortMembers (members.map (Prod.map id f)) = (sortMembers members).map (Prod.map id f) :=
  (List.map_insertionSort _ _ (Prod.map id f) members fun _ _ _ _ ↦ Iff.rfl).symm

/-- Without repeated names no member is overridden. -/
theorem keepLast_of_nodup {members : List (ByteString × α)} (h : (members.map Prod.fst).Nodup) :
    keepLast members = members := by
  induction members with
  | nil => rfl
  | cons member members ih =>
    rw [List.map_cons, List.nodup_cons] at h
    rw [keepLast, if_neg h.1, ih h.2]

/-- Every name keeps a member. -/
theorem mem_names_keepLast (members : List (ByteString × α)) (name : ByteString) :
    name ∈ (keepLast members).map Prod.fst ↔ name ∈ members.map Prod.fst := by
  induction members with
  | nil => rfl
  | cons member members ih =>
    rw [keepLast]
    split_ifs with hmem
    · rw [ih, List.map_cons, List.mem_cons]
      exact ⟨.inr, fun h ↦ h.elim (fun heq ↦ heq ▸ hmem) id⟩
    · rw [List.map_cons, List.mem_cons, ih, List.map_cons, List.mem_cons]

/-- No name keeps two members. -/
theorem nodup_names_keepLast (members : List (ByteString × α)) :
    ((keepLast members).map Prod.fst).Nodup := by
  induction members with
  | nil => exact List.nodup_nil
  | cons member members ih =>
    rw [keepLast]
    split_ifs with hmem
    · exact ih
    · rw [List.map_cons, List.nodup_cons, mem_names_keepLast]
      exact ⟨hmem, ih⟩

/-- Overriding looks at names only. -/
theorem keepLast_map (f : α → β) (members : List (ByteString × α)) :
    keepLast (members.map (Prod.map id f)) = (keepLast members).map (Prod.map id f) := by
  induction members with
  | nil => rfl
  | cons member members ih =>
    have hnames : (members.map (Prod.map id f)).map Prod.fst = members.map Prod.fst := by
      rw [List.map_map]
      rfl
    have hname : (Prod.map id f member).1 = member.1 := rfl
    rw [List.map_cons, keepLast, keepLast, hnames, hname, ih]
    split_ifs
    · rfl
    · rfl

/-- The names of sorted members are distinct when the names were. -/
theorem nodup_names_sortMembers {members : List (ByteString × α)}
    (h : (members.map Prod.fst).Nodup) : ((sortMembers members).map Prod.fst).Nodup :=
  ((sortMembers_perm members).map Prod.fst).nodup_iff.2 h

/-- With distinct names, looking up a name finds its member. -/
theorem lookup_eq_some_iff_mem {members : List (ByteString × α)} {name : ByteString} {value : α}
    (h : (members.map Prod.fst).Nodup) :
    members.lookup name = some value ↔ (name, value) ∈ members := by
  induction members with
  | nil => simp
  | cons member members ih =>
    obtain ⟨first, other⟩ := member
    rw [List.map_cons, List.nodup_cons] at h
    rw [List.lookup_cons, List.mem_cons]
    by_cases heq : name = first
    · subst heq
      have hnot : (name, value) ∉ members := fun hmem ↦
        h.1 (List.mem_map.2 ⟨(name, value), hmem, rfl⟩)
      simp [hnot, eq_comm]
    · rw [beq_false_of_ne heq]
      simp [heq, ih h.2]

/-- With distinct names, looking up a name does not depend on the order. -/
theorem lookup_sortMembers {members : List (ByteString × α)} (h : (members.map Prod.fst).Nodup)
    (name : ByteString) : (sortMembers members).lookup name = members.lookup name := by
  refine Option.ext fun value ↦ ?_
  rw [lookup_eq_some_iff_mem h, lookup_eq_some_iff_mem (nodup_names_sortMembers h),
    (sortMembers_perm members).mem_iff]

/-- Looking up a name among mapped values. -/
theorem lookup_map (f : α → β) (members : List (ByteString × α)) (name : ByteString) :
    (members.map (Prod.map id f)).lookup name = (members.lookup name).map f := by
  induction members with
  | nil => rfl
  | cons member members ih =>
    rw [List.map_cons, List.lookup_cons, List.lookup_cons, ih]
    cases hname : name == member.1 <;> simp [hname]

end Members

/-! ### Canonical forms -/

namespace Json

/-- The canonical members, member by member. -/
theorem canonMembers_eq_map (members : List (ByteString × Json)) :
    canonMembers members = members.map (Prod.map id canon) := by
  induction members with
  | nil => rfl
  | cons member members ih => rw [canonMembers, ih]; rfl

/-- The canonical elements, element by element. -/
theorem canonElements_eq_map (elements : List Json) : canonElements elements = elements.map canon := by
  induction elements with
  | nil => rfl
  | cons value elements ih => rw [canonElements, ih]; rfl

/-- The sanitized members, member by member. -/
theorem sanitizeMembers_eq_map (members : List (ByteString × Json)) :
    sanitizeMembers members = members.map (Prod.map Utf8.sanitize sanitize) := by
  induction members with
  | nil => rfl
  | cons member members ih => rw [sanitizeMembers, ih]; rfl

/-- The sanitized elements, element by element. -/
theorem sanitizeElements_eq_map (elements : List Json) :
    sanitizeElements elements = elements.map sanitize := by
  induction elements with
  | nil => rfl
  | cons value elements ih => rw [sanitizeElements, ih]; rfl

/-- Sorting and overriding canonical members once more changes nothing. -/
theorem sortMembers_keepLast_idem {members : List (ByteString × Json)}
    (h : canonMembers (canonMembers members) = canonMembers members) :
    sortMembers (keepLast (canonMembers (sortMembers (keepLast (canonMembers members))))) =
      sortMembers (keepLast (canonMembers members)) := by
  have hcommute : canonMembers (sortMembers (keepLast (canonMembers members))) =
      sortMembers (keepLast (canonMembers members)) := by
    rw [canonMembers_eq_map (sortMembers _), ← sortMembers_map, ← keepLast_map,
      ← canonMembers_eq_map, h]
  rw [hcommute, keepLast_of_nodup (nodup_names_sortMembers (nodup_names_keepLast _)),
    sortMembers_of_pairwise (pairwise_sortMembers _)]

mutual

/-- A canonical form is its own canonical form. -/
theorem canon_canon : ∀ value : Json, value.canon.canon = value.canon
  | .null => rfl
  | .bool _ => rfl
  | .number _ => rfl
  | .string _ => rfl
  | .array elements => by rw [canon, canon, canonElements_canonElements elements]
  | .object members => by
    rw [canon, canon, sortMembers_keepLast_idem (canonMembers_canonMembers members)]

/-- Canonical elements are their own canonical elements. -/
theorem canonElements_canonElements : ∀ elements : List Json,
    canonElements (canonElements elements) = canonElements elements
  | [] => rfl
  | value :: elements => by
    rw [canonElements, canonElements, canon_canon value, canonElements_canonElements elements]

/-- Canonical members are their own canonical members. -/
theorem canonMembers_canonMembers : ∀ members : List (ByteString × Json),
    canonMembers (canonMembers members) = canonMembers members
  | [] => rfl
  | (name, value) :: members => by
    rw [canonMembers, canonMembers, canon_canon value, canonMembers_canonMembers members]

end

end Json

namespace GoType

/-! ### Decoding up to the order of members -/

/-- The canonical elements decode as the elements do. -/
theorem mapM_canonElements {decode : Json → Option Json} (elements : List Json)
    (h : ∀ value, decode value.canon = decode value) :
    (canonElements elements).mapM decode = elements.mapM decode := by
  induction elements with
  | nil => rfl
  | cons value elements ih =>
    rw [canonElements, List.mapM_cons, List.mapM_cons, h, ih]

/-- The member of a name in canonical members. -/
theorem lookup_canonMembers (members : List (ByteString × Json)) (name : ByteString) :
    ((keepLast (sortMembers (keepLast (canonMembers members)))).lookup name).getD .null =
      (((keepLast members).lookup name).getD .null).canon := by
  rw [keepLast_of_nodup (nodup_names_sortMembers (nodup_names_keepLast _)),
    lookup_sortMembers (nodup_names_keepLast _), canonMembers_eq_map, keepLast_map, lookup_map]
  cases (keepLast members).lookup name <;> rfl

/-- The names of canonical members. -/
theorem mem_names_canonMembers (members : List (ByteString × Json)) (name : ByteString) :
    name ∈ (sortMembers (keepLast (canonMembers members))).map Prod.fst ↔
      name ∈ members.map Prod.fst := by
  rw [((sortMembers_perm _).map Prod.fst).mem_iff, mem_names_keepLast, canonMembers_eq_map,
    List.map_map]
  rfl

mutual

/-- Decoding a canonical form decodes the value: the order of members does not matter. -/
theorem unmarshal_canon : ∀ (type : GoType) (value : Json),
    type.unmarshal value.canon = type.unmarshal value
  | type, .null => rfl
  | .bool, .bool _ | .bool, .number _ | .bool, .string _ | .bool, .array _ | .bool, .object _ => rfl
  | .int _ _, .bool _ | .int _ _, .number _ | .int _ _, .string _ | .int _ _, .array _
  | .int _ _, .object _ => rfl
  | .string, .bool _ | .string, .number _ | .string, .string _ | .string, .array _
  | .string, .object _ => rfl
  | .text _ _, .bool _ | .text _ _, .number _ | .text _ _, .string _ | .text _ _, .array _
  | .text _ _, .object _ => rfl
  | .slice element, .array elements => by
    rw [canon, unmarshal, unmarshal, mapM_canonElements elements (unmarshal_canon element)]
  | .slice _, .bool _ | .slice _, .number _ | .slice _, .string _ | .slice _, .object _ => rfl
  | .struct fields, .object members => by
    rw [canon, unmarshal, unmarshal]
    simp only [mem_names_canonMembers]
    rw [unmarshalFields_congr fields _ _ (lookup_canonMembers members)]
  | .struct _, .bool _ | .struct _, .number _ | .struct _, .string _ | .struct _, .array _ => rfl
  | .map, .object members => by
    rw [canon, unmarshal, unmarshal, sortMembers_keepLast_idem (canonMembers_canonMembers members)]
  | .map, .bool _ | .map, .number _ | .map, .string _ | .map, .array _ => rfl

/-- Fields decode alike from members with the same canonical values. -/
theorem unmarshalFields_congr : ∀ (fields : List (ByteString × GoType))
    (members members' : List (ByteString × Json)),
    (∀ name, (members.lookup name).getD .null = ((members'.lookup name).getD .null).canon) →
      unmarshalFields fields members = unmarshalFields fields members'
  | [], _, _, _ => rfl
  | (name, type) :: fields, members, members', h => by
    rw [unmarshalFields, unmarshalFields, h name, unmarshal_canon type,
      unmarshalFields_congr fields members members' h]

end

/-! ### Values of a type -/

/-- A JSON value without objects: a scalar, or a list of scalars. -/
def flat : Json → Bool
  | .null | .bool _ | .number _ | .string _ => true
  | .array elements => elements.all fun element ↦ match element with
    | .null | .bool _ | .number _ | .string _ => true
    | .array _ | .object _ => false
  | .object _ => false

mutual

/-- Whether a JSON value is the form of a value of the type: fields in the order of declaration,
numbers in range, texts in their printed form, and maps in the order of their names with flat
values. Strings may hold any bytes; names may not. -/
def HasType : GoType → Json → Prop
  | .bool, .bool _ => True
  | .int low high, .number value => low ≤ value ∧ value ≤ high
  | .string, .string _ => True
  | .text _ reprint, .string value => valid value = true ∧ reprint value = some value
  | .slice _, .null => True
  | .slice element, .array elements => ∀ value ∈ elements, HasType element value
  | .struct fields, .object members => HasFields fields members
  | .map, .null => True
  | .map, .object members =>
    (members.Pairwise fun first second ↦ first.1 ≤ second.1) ∧ (members.map Prod.fst).Nodup ∧
      ∀ member ∈ members, valid member.1 = true ∧ flat member.2 = true
  | _, _ => False

/-- Whether the members are the fields, in order, with distinct names. -/
def HasFields : List (ByteString × GoType) → List (ByteString × Json) → Prop
  | [], [] => True
  | (name, type) :: fields, (name', value) :: members =>
    name' = name ∧ valid name = true ∧ name ∉ members.map Prod.fst ∧ HasType type value ∧
      HasFields fields members
  | _, _ => False

end

/-- The canonical form of a flat value is the value. -/
theorem canon_of_flat {value : Json} (h : flat value = true) : value.canon = value := by
  cases value with
  | null => rfl
  | bool value => rfl
  | number value => rfl
  | string value => rfl
  | object members => cases h
  | array elements =>
    rw [canon, canonElements_eq_map]
    congr 1
    conv_rhs => rw [← List.map_id elements]
    refine List.map_congr_left fun element hmem ↦ ?_
    have := List.all_eq_true.1 h element hmem
    cases element with
    | array elements => cases this
    | object members => cases this
    | null => rfl
    | bool value => rfl
    | number value => rfl
    | string value => rfl

/-- Sanitizing a flat value leaves it flat. -/
theorem flat_sanitize {value : Json} (h : flat value = true) : flat value.sanitize = true := by
  cases value with
  | null => rfl
  | bool value => rfl
  | number value => rfl
  | string value => rfl
  | object members => cases h
  | array elements =>
    rw [Json.sanitize, sanitizeElements_eq_map]
    refine List.all_eq_true.2 fun element hmem ↦ ?_
    obtain ⟨element, helement, rfl⟩ := List.mem_map.1 hmem
    have := List.all_eq_true.1 h element helement
    cases element with
    | array elements => cases this
    | object members => cases this
    | null => rfl
    | bool value => rfl
    | number value => rfl
    | string value => rfl

/-- The members of a struct have the names of its fields. -/
theorem names_of_hasFields : ∀ {fields : List (ByteString × GoType)}
    {members : List (ByteString × Json)},
    HasFields fields members → members.map Prod.fst = fields.map Prod.fst
  | [], [], _ => rfl
  | (name, type) :: fields, (name', value) :: members, h => by
    rw [List.map_cons, List.map_cons, names_of_hasFields h.2.2.2.2, h.1]
  | [], _ :: _, h => by cases h
  | _ :: _, [], h => by cases h

/-- The members of a struct have distinct, valid names. -/
theorem names_spec_of_hasFields : ∀ {fields : List (ByteString × GoType)}
    {members : List (ByteString × Json)}, HasFields fields members →
      (members.map Prod.fst).Nodup ∧ ∀ name ∈ members.map Prod.fst, valid name = true
  | [], [], _ => ⟨List.nodup_nil, fun _ h ↦ by cases h⟩
  | (name, type) :: fields, (name', value) :: members, h => by
    obtain ⟨rfl, hvalid, hnot, -, hfields⟩ := h
    obtain ⟨hnodup, hall⟩ := names_spec_of_hasFields hfields
    refine ⟨List.nodup_cons.2 ⟨hnot, hnodup⟩, ?_⟩
    simpa [hvalid] using hall
  | [], _ :: _, h => by cases h
  | _ :: _, [], h => by cases h

/-- With valid names, sanitizing members sanitizes their values only. -/
theorem sanitizeMembers_of_valid {members : List (ByteString × Json)}
    (h : ∀ name ∈ members.map Prod.fst, valid name = true) :
    sanitizeMembers members = members.map (Prod.map id Json.sanitize) := by
  rw [sanitizeMembers_eq_map]
  refine List.map_congr_left fun member hmem ↦ ?_
  have := h member.1 (List.mem_map_of_mem hmem)
  rw [Prod.map, Prod.map, sanitize_of_valid _ this]
  rfl

/-- A map in order is its own decoded form. -/
theorem sortMembers_of_flat {members : List (ByteString × Json)}
    (hsorted : members.Pairwise fun first second ↦ first.1 ≤ second.1)
    (hnodup : (members.map Prod.fst).Nodup)
    (hflat : ∀ member ∈ members, flat member.2 = true) :
    sortMembers (keepLast (canonMembers members)) = members := by
  have hcanon : canonMembers members = members := by
    rw [canonMembers_eq_map]
    conv_rhs => rw [← List.map_id members]
    refine List.map_congr_left fun member hmem ↦ ?_
    rw [Prod.map, canon_of_flat (hflat member hmem)]
    rfl
  rw [hcanon, keepLast_of_nodup hnodup, sortMembers_of_pairwise hsorted]

/-- Elements that decode to themselves when sanitized. -/
theorem mapM_sanitizeElements {decode : Json → Option Json} (elements : List Json)
    (h : ∀ value ∈ elements, decode value.sanitize = some value.sanitize) :
    (sanitizeElements elements).mapM decode = some (sanitizeElements elements) := by
  induction elements with
  | nil => rfl
  | cons value elements ih =>
    rw [sanitizeElements, List.mapM_cons, h value List.mem_cons_self,
      ih fun value hmem ↦ h value (List.mem_cons_of_mem _ hmem)]
    rfl

mutual

/-- The sanitized form of a value of the type decodes to itself. -/
theorem unmarshal_sanitize : ∀ (type : GoType) (value : Json), type.HasType value →
    type.unmarshal value.sanitize = some value.sanitize
  | .bool, .bool _, _ => rfl
  | .int _ _, .number _, h => if_pos h
  | .string, .string _, _ => rfl
  | .text _ reprint, .string value, h => by
    rw [Json.sanitize, sanitize_of_valid value h.1, unmarshal, h.2]
    rfl
  | .slice _, .null, _ => rfl
  | .slice element, .array elements, h => by
    rw [Json.sanitize, unmarshal, mapM_sanitizeElements elements fun value hmem ↦
      unmarshal_sanitize element value (h value hmem)]
    rfl
  | .struct fields, .object members, h => by
    obtain ⟨hnodup, hvalid⟩ := names_spec_of_hasFields h
    have hnames : (members.map (Prod.map id Json.sanitize)).map Prod.fst = fields.map Prod.fst := by
      rw [← names_of_hasFields h, List.map_map]
      rfl
    rw [Json.sanitize, sanitizeMembers_of_valid hvalid, unmarshal, hnames,
      if_pos fun _ hname ↦ List.contains_iff_mem.2 hname, keepLast_map, keepLast_of_nodup hnodup,
      unmarshalFields_sanitize fields members members h fun member hmem ↦
        (lookup_eq_some_iff_mem hnodup).2 hmem]
    rfl
  | .map, .null, _ => rfl
  | .map, .object members, h => by
    obtain ⟨hsorted, hnodup, hmembers⟩ := h
    rw [Json.sanitize, sanitizeMembers_of_valid (by simpa using fun name value hmem ↦
      (hmembers (name, value) hmem).1), unmarshal, sortMembers_of_flat]
    · exact List.pairwise_map.2 hsorted
    · rw [List.map_map]
      exact hnodup
    · intro member hmem
      obtain ⟨member, hmember, rfl⟩ := List.mem_map.1 hmem
      exact flat_sanitize (hmembers member hmember).2

/-- Fields of a struct decode to their members. -/
theorem unmarshalFields_sanitize : ∀ (fields : List (ByteString × GoType))
    (members all : List (ByteString × Json)), HasFields fields members →
    (∀ member ∈ members, all.lookup member.1 = some member.2) →
      unmarshalFields fields (all.map (Prod.map id Json.sanitize)) =
        some (members.map (Prod.map id Json.sanitize))
  | [], [], _, _, _ => rfl
  | (name, type) :: fields, (name', value) :: members, all, h, hall => by
    obtain ⟨rfl, -, -, htype, hfields⟩ := h
    have hmember := hall (name', value) List.mem_cons_self
    have hrest := unmarshalFields_sanitize fields members all hfields fun member hmem ↦
      hall member (List.mem_cons_of_mem _ hmem)
    rw [unmarshalFields, hrest, lookup_map, hmember, Option.map_some, Option.getD_some,
      unmarshal_sanitize type value htype]
    rfl

end

end GoType

end WebLens.Lib
