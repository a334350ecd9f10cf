import Mathlib.Data.List.DropRight
import WebLens.Lib.Distinct
import WebLens.Lib.Utf8

/-!
# Schema.org types of a value

The walk over a decoded JSON-LD value that collects the type names it finds and counts the objects
that bring a new one. An object is typed when its `@type` is a non-empty text or an array with one.
The walk does not enter the value of `@type`, keeps each name once up to letter case and stops
collecting at a hundred names, so it counts the typed objects it meets exactly when each of them
has a name that is new when its turn comes.
-/

set_option autoImplicit false
set_option relaxedAutoImplicit false

namespace WebLens.Crawl

open Lib Lib.Utf8 Lib.Distinct

/-! ### Values -/

/-- What `json.Unmarshal` stores in an `any`. The properties of a map are listed in the order in
which the loop over the map visits them. -/
inductive Value
  | null
  | bool (value : Bool)
  | number (literal : ByteString)
  | text (value : ByteString)
  | array (items : List Value)
  | map (properties : List (ByteString × Value))

/-- The name of the property that holds the type of an object. -/
def typeKey : ByteString :=
  [0x40, 0x74, 0x79, 0x70, 0x65]

/-- A non-empty text. -/
def Value.isName : Value → Bool
  | .text value => !value.isEmpty
  | _ => false

/-- A non-empty text or an array with one. -/
def Value.isTypeName : Value → Bool
  | .array items => items.any Value.isName
  | value => value.isName

/-- Whether the properties of an object give it a type. -/
def isTyped (properties : List (ByteString × Value)) : Bool :=
  match properties.lookup typeKey with
  | some rawType => rawType.isTypeName
  | none => false

mutual

/-- The number of typed objects at any depth. -/
def Value.typedObjects : Value → ℕ
  | .array items => typedItems items
  | .map properties => (if isTyped properties then 1 else 0) + typedProperties properties
  | _ => 0

def typedItems : List Value → ℕ
  | [] => 0
  | item :: items => item.typedObjects + typedItems items

def typedProperties : List (ByteString × Value) → ℕ
  | [] => 0
  | (_, child) :: properties => child.typedObjects + typedProperties properties

end

mutual

/-- The number of typed objects inside values of `@type`. -/
def Value.hiddenObjects : Value → ℕ
  | .array items => hiddenItems items
  | .map properties => hiddenProperties properties
  | _ => 0

def hiddenItems : List Value → ℕ
  | [] => 0
  | item :: items => item.hiddenObjects + hiddenItems items

def hiddenProperties : List (ByteString × Value) → ℕ
  | [] => 0
  | (key, child) :: properties =>
    (if key = typeKey then child.typedObjects else child.hiddenObjects) +
      hiddenProperties properties

end

/-- An object at some depth of a value, given by its properties. -/
inductive Value.Inside (object : List (ByteString × Value)) : Value → Prop
  | here : Inside object (.map object)
  | item {items : List Value} {item : Value} (hmem : item ∈ items)
      (hinside : Inside object item) : Inside object (.array items)
  | property {properties : List (ByteString × Value)} {key : ByteString} {child : Value}
      (hmem : (key, child) ∈ properties) (hinside : Inside object child) :
      Inside object (.map properties)

/-- A typed object lies at some depth of the value. -/
def Value.ContainsTyped (value : Value) : Prop :=
  ∃ object, value.Inside object ∧ isTyped object = true

theorem typedItems_pos {items : List Value} {item : Value} (hmem : item ∈ items)
    (h : 0 < item.typedObjects) : 0 < typedItems items := by
  induction items with
  | nil => exact absurd hmem List.not_mem_nil
  | cons first items ih =>
    rcases List.mem_cons.1 hmem with rfl | hrest
    · exact Nat.add_pos_left h _
    · exact Nat.add_pos_right _ (ih hrest)

theorem typedProperties_pos {properties : List (ByteString × Value)} {key : ByteString}
    {child : Value} (hmem : (key, child) ∈ properties) (h : 0 < child.typedObjects) :
    0 < typedProperties properties := by
  induction properties with
  | nil => exact absurd hmem List.not_mem_nil
  | cons first properties ih =>
    rcases List.mem_cons.1 hmem with rfl | hrest
    · exact Nat.add_pos_left h _
    · exact Nat.add_pos_right _ (ih hrest)

mutual

theorem Value.containsTyped_of_pos : ∀ value : Value, 0 < value.typedObjects →
    value.ContainsTyped
  | .array items, h => by
    obtain ⟨item, hmem, object, hinside, htyped⟩ := exists_item_of_pos items h
    exact ⟨object, .item hmem hinside, htyped⟩
  | .map properties, h => by
    by_cases htyped : isTyped properties = true
    · exact ⟨properties, .here, htyped⟩
    · simp only [Value.typedObjects, if_neg htyped, Nat.zero_add] at h
      obtain ⟨property, hmem, object, hinside, htyped⟩ := exists_property_of_pos properties h
      exact ⟨object, .property hmem hinside, htyped⟩
  | .null, h => absurd h (Nat.lt_irrefl 0)
  | .bool _, h => absurd h (Nat.lt_irrefl 0)
  | .number _, h => absurd h (Nat.lt_irrefl 0)
  | .text _, h => absurd h (Nat.lt_irrefl 0)

theorem exists_item_of_pos : ∀ items : List Value, 0 < typedItems items →
    ∃ item ∈ items, item.ContainsTyped
  | [], h => absurd h (Nat.lt_irrefl 0)
  | item :: items, h => by
    by_cases hitem : 0 < item.typedObjects
    · exact ⟨item, List.mem_cons_self, Value.containsTyped_of_pos item hitem⟩
    · simp only [typedItems] at h
      obtain ⟨other, hmem, hother⟩ := exists_item_of_pos items (by omega)
      exact ⟨other, List.mem_cons_of_mem _ hmem, hother⟩

theorem exists_property_of_pos : ∀ properties : List (ByteString × Value),
    0 < typedProperties properties → ∃ property ∈ properties, property.2.ContainsTyped
  | [], h => absurd h (Nat.lt_irrefl 0)
  | (key, child) :: properties, h => by
    by_cases hchild : 0 < child.typedObjects
    · exact ⟨(key, child), List.mem_cons_self, Value.containsTyped_of_pos child hchild⟩
    · simp only [typedProperties] at h
      obtain ⟨other, hmem, hother⟩ := exists_property_of_pos properties (by omega)
      exact ⟨other, List.mem_cons_of_mem _ hmem, hother⟩

end

/-- A value contains a typed object exactly when it has at least one. -/
theorem Value.containsTyped_iff (value : Value) :
    value.ContainsTyped ↔ 0 < value.typedObjects := by
  constructor
  · rintro ⟨object, hinside, htyped⟩
    induction hinside with
    | here => simp only [Value.typedObjects, if_pos htyped, Nat.add_pos_iff_pos_or_pos,
        Nat.zero_lt_one, true_or]
    | item hmem _ ih => exact typedItems_pos hmem ih
    | property hmem _ ih => exact Nat.add_pos_right _ (typedProperties_pos hmem ih)
  · exact Value.containsTyped_of_pos value

/-! ### The walk -/

/-- A parsed URL: whether it has a scheme, its fragment and its path. -/
structure Url where
  isAbs : Bool
  fragment : ByteString
  path : ByteString

/-- The functions of the standard library that the parser applies to texts: `strings.TrimSpace`,
`strings.ToLower`, `strings.Fields`, `strings.EqualFold` and `url.Parse`, which gives nothing when
it fails. -/
structure Strings where
  trimSpace : ByteString → ByteString
  toLower : ByteString → ByteString
  fields : ByteString → List ByteString
  equalFold : ByteString → ByteString → Bool
  parseUrl : ByteString → Option Url
  trimSpace_nil : trimSpace [] = []
  isAbs_nil : ∀ url, parseUrl [] = some url → url.isAbs = false

variable (go : Strings)

/-- The longest valid text among the first bytes of a value. -/
def validUpTo : ℕ → ByteString → ByteString
  | 0, _ => []
  | limit + 1, value =>
    if valid (value.take (limit + 1)) then value.take (limit + 1) else validUpTo limit value

def bounded (value : ByteString) (limit : ℕ) : ByteString :=
  if limit < value.length then validUpTo limit value else value

/-- `strings.Trim(path, "/")`. -/
def trimSlashes (path : ByteString) : ByteString :=
  (path.dropWhile (· == 0x2F)).rdropWhile (· == 0x2F)

/-- The part of an absolute URL that names a type: its fragment, or the last part of its path. -/
def urlTypeName (url : Url) : Option ByteString :=
  if url.fragment ≠ [] then some url.fragment
  else if trimSlashes url.path ≠ [] then (trimSlashes url.path |>.splitOn 0x2F).getLast?
  else none

def schemaTypeName (value : ByteString) : ByteString :=
  match go.parseUrl (go.trimSpace value) with
  | some url =>
    if url.isAbs then bounded ((urlTypeName url).getD (go.trimSpace value)) 255
    else bounded (go.trimSpace value) 255
  | none => bounded (go.trimSpace value) 255

/-- The names collected so far, the keys under which they were seen, and the objects counted. -/
structure Collection where
  types : List ByteString
  seen : List ByteString
  itemCount : ℕ

/-- The number of type names that are kept. -/
def maxTypes : ℕ := 100

def addSchemaType (value : ByteString) (c : Collection) : Collection :=
  if value = [] ∨ maxTypes ≤ c.types.length then c
  else if go.toLower value ∈ c.seen then c
  else { c with types := c.types ++ [value], seen := c.seen ++ [go.toLower value] }

/-- Adds the type name of a text. -/
def addTypeText (c : Collection) (value : ByteString) : Collection :=
  addSchemaType go (schemaTypeName go value) c

/-- The text of a value that is one. -/
def Value.asText : Value → Option ByteString
  | .text value => some value
  | _ => none

/-- The texts of an `@type` value, in order. -/
def typeTexts : Value → List ByteString
  | .array items => items.filterMap Value.asText
  | value => value.asText.toList

/-- Adds the names of an object and counts it when the list of names has grown. -/
def countType (rawType : Value) (c : Collection) : Collection :=
  let after := (typeTexts rawType).foldl (addTypeText go) c
  if c.types.length < after.types.length then { after with itemCount := after.itemCount + 1 }
  else after

/-- The part of the walk over an object that reads its `@type`. -/
def countObject (properties : List (ByteString × Value)) (c : Collection) : Collection :=
  match properties.lookup typeKey with
  | some rawType => countType go rawType c
  | none => c

mutual

def collectSchemaTypes : Value → Collection → Collection
  | .array items, c => collectItems items c
  | .map properties, c => collectProperties properties (countObject go properties c)
  | _, c => c

def collectItems : List Value → Collection → Collection
  | [], c => c
  | item :: items, c => collectItems items (collectSchemaTypes item c)

def collectProperties : List (ByteString × Value) → Collection → Collection
  | [], c => c
  | (key, child) :: properties, c =>
    collectProperties properties (if key = typeKey then c else collectSchemaTypes child c)

end

/-! ### The keys of a value -/

/-- The key under which a text is seen, unless its type name is empty. -/
def textKeys (value : ByteString) : List ByteString :=
  if schemaTypeName go value = [] then [] else [go.toLower (schemaTypeName go value)]

/-- The keys of the names of an `@type` value. -/
def typeKeys (rawType : Value) : List ByteString :=
  (typeTexts rawType).flatMap (textKeys go)

/-- The keys of an object, if it is typed. -/
def objectGroups (properties : List (ByteString × Value)) : List (List ByteString) :=
  match properties.lookup typeKey with
  | some rawType => if rawType.isTypeName then [typeKeys go rawType] else []
  | none => []

mutual

/-- The keys of each typed object that the walk meets, in its order. -/
def Value.groups : Value → List (List ByteString)
  | .array items => groupsItems items
  | .map properties => objectGroups go properties ++ groupsProperties properties
  | _ => []

def groupsItems : List Value → List (List ByteString)
  | [] => []
  | item :: items => item.groups ++ groupsItems items

def groupsProperties : List (ByteString × Value) → List (List ByteString)
  | [] => []
  | (key, child) :: properties =>
    (if key = typeKey then [] else child.groups) ++ groupsProperties properties

end

theorem schemaTypeName_nil : schemaTypeName go [] = [] := by
  have hplain : bounded [] 255 = [] := rfl
  unfold schemaTypeName
  rw [go.trimSpace_nil]
  cases hurl : go.parseUrl [] with
  | none => exact hplain
  | some url =>
    show (if url.isAbs = true then _ else _) = _
    rw [go.isAbs_nil url hurl, if_neg Bool.false_ne_true]
    exact hplain

theorem typeKeys_eq_nil_of_not_isTypeName {rawType : Value} (h : rawType.isTypeName = false) :
    typeKeys go rawType = [] := by
  have hempty : ∀ value : Value, value.isName = false →
      ∀ text, value.asText = some text → text = [] := by
    intro value hvalue text htext
    cases value with
    | text value =>
      rw [← Option.some.inj htext]
      simpa [Value.isName] using hvalue
    | _ => exact absurd htext (by simp [Value.asText])
  have hall : ∀ text ∈ typeTexts rawType, text = [] := by
    intro text htext
    cases rawType with
    | array items =>
      obtain ⟨item, hitem, heq⟩ := List.mem_filterMap.1 htext
      exact hempty item (Bool.eq_false_iff.2 (List.any_eq_false.1 h item hitem)) text heq
    | text value => exact hempty (.text value) h text (Option.mem_toList.1 htext)
    | _ => exact absurd htext List.not_mem_nil
  refine List.flatMap_eq_nil_iff.2 fun text htext ↦ ?_
  rw [hall text htext]
  unfold textKeys
  rw [if_pos (schemaTypeName_nil go)]

/-! ### What the walk collects and counts -/

/-- The collection holds the names that go with the keys met so far. -/
structure Collection.Tracks (earlier : List ByteString) (c : Collection) : Prop where
  length_eq : c.types.length = c.seen.length
  represents : Represents maxTypes earlier c.seen

theorem addTypeText_spec {c : Collection} (h : c.types.length = c.seen.length)
    (value : ByteString) :
    (addTypeText go c value).seen = insertAll maxTypes c.seen (textKeys go value) ∧
      (addTypeText go c value).types.length = (addTypeText go c value).seen.length ∧
      (addTypeText go c value).itemCount = c.itemCount := by
  unfold addTypeText addSchemaType textKeys
  by_cases hempty : schemaTypeName go value = []
  · rw [if_pos (Or.inl hempty), if_pos hempty]
    exact ⟨rfl, h, rfl⟩
  rw [if_neg hempty]
  by_cases hfull : maxTypes ≤ c.types.length
  · rw [if_pos (Or.inr hfull)]
    refine ⟨?_, h, rfl⟩
    show _ = insertNew _ _ _
    unfold insertNew
    rw [if_pos (Or.inl (h ▸ hfull))]
  rw [if_neg (not_or.2 ⟨hempty, hfull⟩)]
  by_cases hseen : go.toLower (schemaTypeName go value) ∈ c.seen
  · rw [if_pos hseen]
    refine ⟨?_, h, rfl⟩
    show _ = insertNew _ _ _
    unfold insertNew
    rw [if_pos (Or.inr hseen)]
  rw [if_neg hseen]
  refine ⟨?_, ?_, rfl⟩
  · show _ = insertNew _ _ _
    unfold insertNew
    rw [if_neg (not_or.2 ⟨h ▸ hfull, hseen⟩)]
  · show (c.types ++ [_]).length = (c.seen ++ [_]).length
    rw [List.length_append, List.length_append, h]
    rfl

theorem foldl_addTypeText_spec (texts : List ByteString) {c : Collection}
    (h : c.types.length = c.seen.length) :
    (texts.foldl (addTypeText go) c).seen =
        insertAll maxTypes c.seen (texts.flatMap (textKeys go)) ∧
      (texts.foldl (addTypeText go) c).types.length =
        (texts.foldl (addTypeText go) c).seen.length ∧
      (texts.foldl (addTypeText go) c).itemCount = c.itemCount := by
  induction texts generalizing c with
  | nil => exact ⟨rfl, h, rfl⟩
  | cons text texts ih =>
    obtain ⟨hseen, hlength, hcount⟩ := addTypeText_spec go h text
    obtain ⟨hseen', hlength', hcount'⟩ := ih hlength
    refine ⟨?_, hlength', hcount'.trans hcount⟩
    rw [List.flatMap_cons, insertAll_append, ← hseen]
    exact hseen'

theorem countType_spec {earlier : List ByteString} {c : Collection} (h : c.Tracks earlier)
    (rawType : Value) :
    (countType go rawType c).Tracks (earlier ++ typeKeys go rawType) ∧
      (countType go rawType c).itemCount =
        c.itemCount + newGroups maxTypes earlier [typeKeys go rawType] := by
  obtain ⟨hseen, hlength, hcount⟩ := foldl_addTypeText_spec go (typeTexts rawType) h.length_eq
  have hgrows := h.represents.length_lt_insertAll_iff (typeKeys go rawType)
  have htracks : ((typeTexts rawType).foldl (addTypeText go) c).Tracks
      (earlier ++ typeKeys go rawType) := by
    refine ⟨hlength, ?_⟩
    rw [hseen]
    exact h.represents.insertAll _
  rw [← show _ = insertAll maxTypes c.seen (typeKeys go rawType) from hseen, ← hlength,
    ← h.length_eq] at hgrows
  unfold countType
  simp only [newGroups]
  by_cases hnew : c.types.length < ((typeTexts rawType).foldl (addTypeText go) c).types.length
  · rw [if_pos hnew, if_pos (hgrows.1 hnew)]
    exact ⟨⟨htracks.length_eq, htracks.represents⟩, by rw [hcount]⟩
  · rw [if_neg hnew, if_neg fun h ↦ hnew (hgrows.2 h)]
    exact ⟨htracks, hcount⟩

theorem countObject_spec {earlier : List ByteString} {c : Collection} (h : c.Tracks earlier)
    (properties : List (ByteString × Value)) :
    (countObject go properties c).Tracks (earlier ++ (objectGroups go properties).flatten) ∧
      (countObject go properties c).itemCount =
        c.itemCount + newGroups maxTypes earlier (objectGroups go properties) := by
  unfold countObject objectGroups
  cases hlookup : properties.lookup typeKey with
  | none =>
    rw [List.flatten_nil, List.append_nil]
    exact ⟨h, rfl⟩
  | some rawType =>
    obtain ⟨htracks, hcount⟩ := countType_spec go h rawType
    by_cases htyped : rawType.isTypeName = true
    · simp only [if_pos htyped, List.flatten_cons, List.flatten_nil, List.append_nil]
      exact ⟨htracks, hcount⟩
    · rw [typeKeys_eq_nil_of_not_isTypeName go (Bool.eq_false_iff.2 htyped)] at htracks hcount
      simp only [if_neg htyped, List.flatten_nil]
      refine ⟨htracks, hcount.trans ?_⟩
      have hnone : ¬ IsNew maxTypes earlier ([] : List ByteString) := by
        rintro ⟨-, value, hvalue, -⟩
        exact absurd hvalue List.not_mem_nil
      simp only [newGroups, if_neg hnone]

mutual

/-- The walk keeps track of the keys of the objects it meets and counts the new groups. -/
theorem collectSchemaTypes_spec : ∀ (value : Value) {earlier : List ByteString} {c : Collection},
    c.Tracks earlier →
    (collectSchemaTypes go value c).Tracks (earlier ++ (value.groups go).flatten) ∧
      (collectSchemaTypes go value c).itemCount =
        c.itemCount + newGroups maxTypes earlier (value.groups go)
  | .array items, _, _, h => collectItems_spec items h
  | .map properties, earlier, c, h => by
    obtain ⟨htracks, hcount⟩ := countObject_spec go h properties
    obtain ⟨htracks', hcount'⟩ := collectProperties_spec properties htracks
    simp only [Value.groups, collectSchemaTypes, List.flatten_append, newGroups_append]
    rw [← List.append_assoc]
    exact ⟨htracks', by rw [hcount', hcount, Nat.add_assoc]⟩
  | .null, earlier, c, h => ⟨(List.append_nil earlier).symm ▸ h, rfl⟩
  | .bool _, earlier, c, h => ⟨(List.append_nil earlier).symm ▸ h, rfl⟩
  | .number _, earlier, c, h => ⟨(List.append_nil earlier).symm ▸ h, rfl⟩
  | .text _, earlier, c, h => ⟨(List.append_nil earlier).symm ▸ h, rfl⟩

theorem collectItems_spec : ∀ (items : List Value) {earlier : List ByteString} {c : Collection},
    c.Tracks earlier →
    (collectItems go items c).Tracks (earlier ++ (groupsItems go items).flatten) ∧
      (collectItems go items c).itemCount =
        c.itemCount + newGroups maxTypes earlier (groupsItems go items)
  | [], earlier, _, h => ⟨(List.append_nil earlier).symm ▸ h, rfl⟩
  | item :: items, earlier, c, h => by
    obtain ⟨htracks, hcount⟩ := collectSchemaTypes_spec item h
    obtain ⟨htracks', hcount'⟩ := collectItems_spec items htracks
    simp only [groupsItems, collectItems, List.flatten_append, newGroups_append]
    rw [← List.append_assoc]
    exact ⟨htracks', by rw [hcount', hcount, Nat.add_assoc]⟩

theorem collectProperties_spec : ∀ (properties : List (ByteString × Value))
    {earlier : List ByteString} {c : Collection}, c.Tracks earlier →
    (collectProperties go properties c).Tracks
        (earlier ++ (groupsProperties go properties).flatten) ∧
      (collectProperties go properties c).itemCount =
        c.itemCount + newGroups maxTypes earlier (groupsProperties go properties)
  | [], earlier, _, h => ⟨(List.append_nil earlier).symm ▸ h, rfl⟩
  | (key, child) :: properties, earlier, c, h => by
    simp only [groupsProperties, collectProperties, List.flatten_append, newGroups_append]
    by_cases hkey : key = typeKey
    · simp only [if_pos hkey, List.flatten_nil, List.append_nil, newGroups, Nat.zero_add]
      exact collectProperties_spec properties h
    · obtain ⟨htracks, hcount⟩ := collectSchemaTypes_spec child h
      obtain ⟨htracks', hcount'⟩ := collectProperties_spec properties htracks
      simp only [if_neg hkey]
      rw [← List.append_assoc]
      exact ⟨htracks', by rw [hcount', hcount, Nat.add_assoc]⟩

end

/-! ### Typed objects and those the walk meets -/

theorem length_objectGroups (properties : List (ByteString × Value)) :
    (objectGroups go properties).length = if isTyped properties then 1 else 0 := by
  unfold objectGroups isTyped
  cases properties.lookup typeKey with
  | none => rfl
  | some rawType =>
    by_cases htyped : rawType.isTypeName = true
    · simp only [if_pos htyped, List.length_singleton]
    · simp only [if_neg htyped, List.length_nil]

mutual

/-- A typed object is met by the walk or lies inside a value of `@type`. -/
theorem typedObjects_eq : ∀ value : Value,
    value.typedObjects = (value.groups go).length + value.hiddenObjects
  | .array items => typedItems_eq items
  | .map properties => by
    simp only [Value.typedObjects, Value.groups, Value.hiddenObjects, List.length_append,
      length_objectGroups, typedProperties_eq properties, Nat.add_assoc]
  | .null => rfl
  | .bool _ => rfl
  | .number _ => rfl
  | .text _ => rfl

theorem typedItems_eq : ∀ items : List Value,
    typedItems items = (groupsItems go items).length + hiddenItems items
  | [] => rfl
  | item :: items => by
    simp only [typedItems, groupsItems, hiddenItems, List.length_append, typedObjects_eq item,
      typedItems_eq items]
    omega

theorem typedProperties_eq : ∀ properties : List (ByteString × Value),
    typedProperties properties =
      (groupsProperties go properties).length + hiddenProperties properties
  | [] => rfl
  | (key, child) :: properties => by
    simp only [typedProperties, groupsProperties, hiddenProperties, List.length_append,
      typedProperties_eq properties]
    by_cases hkey : key = typeKey
    · simp only [if_pos hkey, List.length_nil]
      omega
    · simp only [if_neg hkey, typedObjects_eq child]
      omega

end

/-- The groups counted are all the typed objects of a value exactly when no typed object is
hidden from the walk and each of them is new. -/
theorem newGroups_eq_typedObjects_iff (earlier : List ByteString) (value : Value) :
    newGroups maxTypes earlier (value.groups go) = value.typedObjects ↔
      value.hiddenObjects = 0 ∧ AllNew maxTypes earlier (value.groups go) := by
  have hle : newGroups maxTypes earlier (value.groups go) ≤ (value.groups go).length :=
    newGroups_le _ _
  rw [typedObjects_eq go value, ← newGroups_eq_length_iff]
  constructor
  · intro h
    exact ⟨by omega, by omega⟩
  · rintro ⟨hhidden, hnew⟩
    omega

end WebLens.Crawl
