import WebLens.Crawl.PageCounts
import WebLens.Lib.Gather
import WebLens.Lib.GoJson

/-!
# The order of maps

A JSON object becomes a map, whose loop visits its properties in an order that changes from run to
run. `Value.Reordered` are the values that another run may walk over, and `Value.tree` says what of
a value the order leaves open.

The names that an extraction stores, and the objects it counts, do not depend on the orders exactly
when the values of its blocks are steady with the names stored before them (`orderFree_iff`): at
each object that is reached, the new names of one property are, object by object, the first new
names of any other. Two nested objects with the types `A` and `A, B` are not: the first way round
counts two items and the other way round one.
-/

set_option autoImplicit false
set_option relaxedAutoImplicit false

namespace WebLens.Crawl

open Lib Lib.Utf8 Lib.Gather

/-! ### Values in another order -/

mutual

/-- The value that another run may walk over. -/
def Value.Reordered : Value → Value → Prop
  | .array items, other => ∃ others, ItemsReordered items others ∧ other = .array others
  | .map properties, other =>
    ∃ others visited, PropertiesReordered properties others ∧ others.Perm visited ∧
      other = .map visited
  | .null, other => other = .null
  | .bool value, other => other = .bool value
  | .number literal, other => other = .number literal
  | .text value, other => other = .text value

def ItemsReordered : List Value → List Value → Prop
  | [], others => others = []
  | item :: items, others =>
    ∃ other rest, item.Reordered other ∧ ItemsReordered items rest ∧ others = other :: rest

def PropertiesReordered : List (ByteString × Value) → List (ByteString × Value) → Prop
  | [], others => others = []
  | (key, child) :: properties, others =>
    ∃ other rest, child.Reordered other ∧ PropertiesReordered properties rest ∧
      others = (key, other) :: rest

end

mutual

/-- The properties of each object have different names, as those of a map do. -/
def Value.Distinct : Value → Prop
  | .array items => ItemsDistinct items
  | .map properties => (properties.map Prod.fst).Nodup ∧ PropertiesDistinct properties
  | _ => True

def ItemsDistinct : List Value → Prop
  | [] => True
  | item :: items => item.Distinct ∧ ItemsDistinct items

def PropertiesDistinct : List (ByteString × Value) → Prop
  | [] => True
  | (_, child) :: properties => child.Distinct ∧ PropertiesDistinct properties

end

mutual

theorem Value.reordered_refl : ∀ value : Value, value.Reordered value
  | .array items => ⟨items, itemsReordered_refl items, rfl⟩
  | .map properties =>
    ⟨properties, properties, propertiesReordered_refl properties, List.Perm.refl _, rfl⟩
  | .null => rfl
  | .bool _ => rfl
  | .number _ => rfl
  | .text _ => rfl

theorem itemsReordered_refl : ∀ items : List Value, ItemsReordered items items
  | [] => rfl
  | item :: items => ⟨item, items, item.reordered_refl, itemsReordered_refl items, rfl⟩

theorem propertiesReordered_refl : ∀ properties : List (ByteString × Value),
    PropertiesReordered properties properties
  | [] => rfl
  | (_, child) :: properties =>
    ⟨child, properties, child.reordered_refl, propertiesReordered_refl properties, rfl⟩

end

/-! ### The names of a value and their orders -/

variable (go : Strings)

/-- The names of an `@type` value. -/
def typeNames (rawType : Value) : List ByteString :=
  ((typeTexts rawType).map (schemaTypeName go)).filter (· ≠ [])

/-- The names of an object, if it has an `@type`. -/
def objectTrees (properties : List (ByteString × Value)) : List (Gather.Tree ByteString) :=
  match properties.lookup typeKey with
  | some rawType => [.leaf (typeNames go rawType)]
  | none => []

mutual

/-- The names of a value, object by object: an array is walked in order, an object reads its type
first and then its other properties in any order. -/
def Value.tree : Value → Gather.Tree ByteString
  | .array items => .steps (itemTrees items)
  | .map properties => .steps (objectTrees go properties ++ [.choices (propertyTrees properties)])
  | _ => .steps []

def itemTrees : List Value → List (Gather.Tree ByteString)
  | [] => []
  | item :: items => item.tree :: itemTrees items

def propertyTrees : List (ByteString × Value) → List (Gather.Tree ByteString)
  | [] => []
  | (key, child) :: properties =>
    if key = typeKey then propertyTrees properties else child.tree :: propertyTrees properties

end

/-- The names and the count of a collection. -/
def Collection.names (c : Collection) : List ByteString × ℕ :=
  (c.types, c.itemCount)

/-- The keys of a collection are those of its names. -/
def Collection.Keyed (c : Collection) : Prop :=
  c.seen = c.types.map go.toLower

theorem Collection.ext_of_keyed {c d : Collection} (hc : c.Keyed go) (hd : d.Keyed go)
    (h : c.names = d.names) : c = d := by
  obtain ⟨types, seen, itemCount⟩ := c
  obtain ⟨types', seen', itemCount'⟩ := d
  simp only [Collection.names, Prod.mk.injEq] at h
  obtain ⟨rfl, rfl⟩ := h
  rw [Collection.Keyed] at hc hd
  simp only at hc hd
  rw [hc, hd]

/-- Adding a text stores its name. -/
theorem addTypeText_names {c : Collection} (h : c.Keyed go) (value : ByteString) :
    (addTypeText go c value).Keyed go ∧ (addTypeText go c value).itemCount = c.itemCount ∧
      (addTypeText go c value).types = storeAll go.toLower maxTypes c.types
        ([schemaTypeName go value].filter (· ≠ [])) := by
  unfold addTypeText addSchemaType
  by_cases hempty : schemaTypeName go value = []
  · rw [if_pos (Or.inl hempty), List.filter_cons_of_neg (by simpa using hempty)]
    exact ⟨h, rfl, rfl⟩
  rw [List.filter_cons_of_pos (by simpa using hempty)]
  by_cases hfull : maxTypes ≤ c.types.length
  · rw [if_pos (Or.inr hfull)]
    exact ⟨h, rfl, (store_of_idle (Or.inl hfull)).symm⟩
  rw [if_neg (not_or.2 ⟨hempty, hfull⟩)]
  by_cases hseen : go.toLower (schemaTypeName go value) ∈ c.seen
  · rw [if_pos hseen]
    rw [h] at hseen
    exact ⟨h, rfl, (store_of_idle (Or.inr hseen)).symm⟩
  · rw [if_neg hseen]
    refine ⟨?_, rfl, ?_⟩
    · show c.seen ++ _ = (c.types ++ _).map go.toLower
      rw [h, List.map_append]
      rfl
    · rw [h] at hseen
      exact (store_of_not_idle (not_or.2 ⟨hfull, hseen⟩)).symm

theorem foldl_addTypeText_names (texts : List ByteString) {c : Collection} (h : c.Keyed go) :
    (texts.foldl (addTypeText go) c).Keyed go ∧
      (texts.foldl (addTypeText go) c).itemCount = c.itemCount ∧
      (texts.foldl (addTypeText go) c).types = storeAll go.toLower maxTypes c.types
        ((texts.map (schemaTypeName go)).filter (· ≠ [])) := by
  induction texts generalizing c with
  | nil => exact ⟨h, rfl, rfl⟩
  | cons text texts ih =>
    obtain ⟨hkeyed, hcount, htypes⟩ := addTypeText_names go h text
    obtain ⟨hkeyed', hcount', htypes'⟩ := ih hkeyed
    refine ⟨hkeyed', hcount'.trans hcount, ?_⟩
    rw [List.foldl_cons, htypes', htypes, ← storeAll_append, ← List.filter_append, List.map_cons,
      List.singleton_append]

/-- Reading the type of an object visits its names. -/
theorem countObject_names (properties : List (ByteString × Value)) {c : Collection}
    (h : c.Keyed go) :
    (countObject go properties c).Keyed go ∧ (countObject go properties c).names =
      visitAll go.toLower maxTypes c.names (Gather.Tree.listedAll (objectTrees go properties)) := by
  unfold countObject objectTrees
  cases properties.lookup typeKey with
  | none => exact ⟨h, rfl⟩
  | some rawType =>
    obtain ⟨hkeyed, hcount, htypes⟩ := foldl_addTypeText_names go (typeTexts rawType) h
    show (countType go rawType c).Keyed go ∧ (countType go rawType c).names =
      visit go.toLower maxTypes c.names (typeNames go rawType)
    unfold countType visit typeNames Collection.names
    simp only [← htypes]
    by_cases hgrown : c.types.length < ((typeTexts rawType).foldl (addTypeText go) c).types.length
    · rw [if_pos hgrown, if_pos hgrown]
      exact ⟨hkeyed, by rw [hcount]⟩
    · rw [if_neg hgrown, if_neg hgrown]
      exact ⟨hkeyed, by rw [hcount]⟩

theorem listed_map (properties : List (ByteString × Value)) :
    ((Value.map properties).tree go).listed =
      Gather.Tree.listedAll (objectTrees go properties) ++
        Gather.Tree.listedAll (propertyTrees go properties) := by
  rw [Value.tree, Gather.Tree.listed, Gather.Tree.listedAll_eq, List.map_append,
    List.flatten_append, ← Gather.Tree.listedAll_eq, List.map_singleton, List.flatten_singleton,
    Gather.Tree.listed]

mutual

/-- The walk over a value visits its names in the order in which they are listed. -/
theorem collectSchemaTypes_names : ∀ (value : Value) {c : Collection}, c.Keyed go →
    (collectSchemaTypes go value c).Keyed go ∧ (collectSchemaTypes go value c).names =
      visitAll go.toLower maxTypes c.names (value.tree go).listed
  | .array items, _, h => collectItems_names items h
  | .map properties, c, h => by
    obtain ⟨hkeyed, hnames⟩ := countObject_names go properties h
    obtain ⟨hkeyed', hnames'⟩ := collectProperties_names properties hkeyed
    refine ⟨hkeyed', ?_⟩
    rw [listed_map, visitAll_append, ← hnames]
    exact hnames'
  | .null, _, h => ⟨h, rfl⟩
  | .bool _, _, h => ⟨h, rfl⟩
  | .number _, _, h => ⟨h, rfl⟩
  | .text _, _, h => ⟨h, rfl⟩

theorem collectItems_names : ∀ (items : List Value) {c : Collection}, c.Keyed go →
    (collectItems go items c).Keyed go ∧ (collectItems go items c).names =
      visitAll go.toLower maxTypes c.names (Gather.Tree.listedAll (itemTrees go items))
  | [], _, h => ⟨h, rfl⟩
  | item :: items, c, h => by
    obtain ⟨hkeyed, hnames⟩ := collectSchemaTypes_names item h
    obtain ⟨hkeyed', hnames'⟩ := collectItems_names items hkeyed
    refine ⟨hkeyed', ?_⟩
    rw [itemTrees, Gather.Tree.listedAll, visitAll_append, ← hnames]
    exact hnames'

theorem collectProperties_names : ∀ (properties : List (ByteString × Value)) {c : Collection},
    c.Keyed go →
    (collectProperties go properties c).Keyed go ∧ (collectProperties go properties c).names =
      visitAll go.toLower maxTypes c.names (Gather.Tree.listedAll (propertyTrees go properties))
  | [], _, h => ⟨h, rfl⟩
  | (key, child) :: properties, c, h => by
    by_cases hkey : key = typeKey
    · simp only [collectProperties, propertyTrees, if_pos hkey]
      exact collectProperties_names properties h
    · obtain ⟨hkeyed, hnames⟩ := collectSchemaTypes_names child h
      obtain ⟨hkeyed', hnames'⟩ := collectProperties_names properties hkeyed
      simp only [collectProperties, propertyTrees, if_neg hkey]
      refine ⟨hkeyed', ?_⟩
      rw [Gather.Tree.listedAll, visitAll_append, ← hnames]
      exact hnames'

end

/-! ### Reordered values and orders of names -/

theorem asText_of_reordered {value other : Value} (h : value.Reordered other) :
    other.asText = value.asText := by
  cases value with
  | array items =>
    obtain ⟨others, -, rfl⟩ := h
    rfl
  | map properties =>
    obtain ⟨others, visited, -, -, rfl⟩ := h
    rfl
  | null => rw [show other = .null from h]
  | bool value => rw [show other = .bool value from h]
  | number literal => rw [show other = .number literal from h]
  | text value => rw [show other = .text value from h]

theorem filterMap_asText_of_reordered {items others : List Value}
    (h : ItemsReordered items others) :
    others.filterMap Value.asText = items.filterMap Value.asText := by
  induction items generalizing others with
  | nil => rw [show others = [] from h]
  | cons item items ih =>
    obtain ⟨other, rest, hitem, hitems, rfl⟩ := h
    rw [List.filterMap_cons, List.filterMap_cons, asText_of_reordered hitem, ih hitems]

/-- The names of an `@type` value do not depend on orders. -/
theorem typeNames_of_reordered {rawType other : Value} (h : rawType.Reordered other) :
    typeNames go other = typeNames go rawType := by
  have htexts : typeTexts other = typeTexts rawType := by
    cases rawType with
    | array items =>
      obtain ⟨others, hitems, rfl⟩ := h
      exact filterMap_asText_of_reordered hitems
    | map properties =>
      obtain ⟨others, visited, -, -, rfl⟩ := h
      rfl
    | null => rw [show other = .null from h]
    | bool value => rw [show other = .bool value from h]
    | number literal => rw [show other = .number literal from h]
    | text value => rw [show other = .text value from h]
  rw [typeNames, typeNames, htexts]

theorem map_fst_of_reordered {properties others : List (ByteString × Value)}
    (h : PropertiesReordered properties others) :
    others.map Prod.fst = properties.map Prod.fst := by
  induction properties generalizing others with
  | nil => rw [show others = [] from h]
  | cons property properties ih =>
    obtain ⟨other, rest, -, hproperties, rfl⟩ := h
    rw [List.map_cons, List.map_cons, ih hproperties]

theorem objectTrees_of_propertiesReordered {properties others : List (ByteString × Value)}
    (h : PropertiesReordered properties others) :
    objectTrees go others = objectTrees go properties := by
  unfold objectTrees
  induction properties generalizing others with
  | nil => rw [show others = [] from h]
  | cons property properties ih =>
    obtain ⟨key, child⟩ := property
    obtain ⟨other, rest, hchild, hproperties, rfl⟩ := h
    rw [List.lookup_cons, List.lookup_cons]
    by_cases hkey : typeKey = key
    · rw [beq_iff_eq.2 hkey]
      simp only
      rw [typeNames_of_reordered go hchild]
    · rw [beq_eq_false_iff_ne.2 hkey]
      exact ih hproperties

/-- The value of a name among properties with different names does not depend on their order. -/
theorem lookup_of_perm {properties visited : List (ByteString × Value)}
    (hnames : (properties.map Prod.fst).Nodup) (hperm : properties.Perm visited)
    (name : ByteString) : visited.lookup name = properties.lookup name := by
  apply Option.ext
  intro value
  rw [lookup_eq_some_iff_mem hnames,
    lookup_eq_some_iff_mem ((hperm.map Prod.fst).nodup_iff.1 hnames), hperm.mem_iff]

theorem objectTrees_cases (properties : List (ByteString × Value)) :
    objectTrees go properties = [] ∨
      ∃ names, objectTrees go properties = [.leaf names] := by
  unfold objectTrees
  cases properties.lookup typeKey with
  | none => exact .inl rfl
  | some rawType => exact .inr ⟨_, rfl⟩

theorem propertyTrees_eq (properties : List (ByteString × Value)) :
    propertyTrees go properties =
      (properties.filter fun property ↦ property.1 ≠ typeKey).map fun property ↦
        property.2.tree go := by
  induction properties with
  | nil => rfl
  | cons property properties ih =>
    obtain ⟨key, child⟩ := property
    by_cases hkey : key = typeKey
    · rw [propertyTrees, if_pos hkey, List.filter_cons_of_neg (by simpa using hkey), ih]
    · rw [propertyTrees, if_neg hkey, List.filter_cons_of_pos (by simpa using hkey), ih,
        List.map_cons]

mutual

/-- A run over a reordered value meets the names in one of the orders of the value. -/
theorem isOrder_of_reordered : ∀ {value other : Value}, value.Distinct → value.Reordered other →
    (value.tree go).IsOrder (other.tree go).listed
  | .array items, _, hdistinct, ⟨others, hitems, heq⟩ => by
    rw [heq]
    exact ⟨_, areOrders_of_itemsReordered hdistinct hitems, Gather.Tree.listedAll_eq _⟩
  | .map properties, _, ⟨hnames, hdistinct⟩, ⟨others, visited, hproperties, hperm, heq⟩ => by
    rw [heq]
    have hobject : objectTrees go visited = objectTrees go properties := by
      rw [← objectTrees_of_propertiesReordered go hproperties]
      unfold objectTrees
      rw [lookup_of_perm (by rw [map_fst_of_reordered hproperties]; exact hnames) hperm]
    have hchoice : (Gather.Tree.choices (propertyTrees go properties)).IsOrder
        (Gather.Tree.listedAll (propertyTrees go visited)) := by
      refine ⟨_, _, areOrders_of_propertiesReordered hdistinct hproperties, ?_,
        Gather.Tree.listedAll_eq _⟩
      rw [propertyTrees_eq, propertyTrees_eq]
      exact ((hperm.filter _).map _).map _
    refine ⟨(objectTrees go properties).map Gather.Tree.listed ++
      [Gather.Tree.listedAll (propertyTrees go visited)], ?_, ?_⟩
    · exact Gather.Tree.areOrders_iff.2 (List.rel_append
        (Gather.Tree.areOrders_iff.1 (Gather.Tree.areOrders_listed _)) (.cons hchoice .nil))
    · rw [listed_map, hobject, Gather.Tree.listedAll_eq (objectTrees go properties),
        List.flatten_append, List.flatten_singleton]
  | .null, _, _, h => by
    rw [show _ = Value.null from h]
    exact ⟨[], rfl, rfl⟩
  | .bool value, _, _, h => by
    rw [show _ = Value.bool value from h]
    exact ⟨[], rfl, rfl⟩
  | .number literal, _, _, h => by
    rw [show _ = Value.number literal from h]
    exact ⟨[], rfl, rfl⟩
  | .text value, _, _, h => by
    rw [show _ = Value.text value from h]
    exact ⟨[], rfl, rfl⟩

theorem areOrders_of_itemsReordered : ∀ {items others : List Value}, ItemsDistinct items →
    ItemsReordered items others →
    Gather.Tree.AreOrders (itemTrees go items) ((itemTrees go others).map Gather.Tree.listed)
  | [], _, _, h => by
    rw [show _ = [] from h]
    rfl
  | _ :: _, _, ⟨hitem, hitems⟩, ⟨_, _, hother, hrest, heq⟩ => by
    rw [heq]
    exact ⟨_, _, isOrder_of_reordered hitem hother, areOrders_of_itemsReordered hitems hrest, rfl⟩

theorem areOrders_of_propertiesReordered : ∀ {properties others : List (ByteString × Value)},
    PropertiesDistinct properties → PropertiesReordered properties others →
    Gather.Tree.AreOrders (propertyTrees go properties)
      ((propertyTrees go others).map Gather.Tree.listed)
  | [], _, _, h => by
    rw [show _ = [] from h]
    rfl
  | (key, _) :: _, _, ⟨hchild, hproperties⟩, ⟨_, _, hother, hrest, heq⟩ => by
    rw [heq]
    by_cases hkey : key = typeKey
    · rw [propertyTrees, propertyTrees, if_pos hkey, if_pos hkey]
      exact areOrders_of_propertiesReordered hproperties hrest
    · rw [propertyTrees, propertyTrees, if_neg hkey, if_neg hkey]
      exact ⟨_, _, isOrder_of_reordered hchild hother,
        areOrders_of_propertiesReordered hproperties hrest, rfl⟩

end

/-- A permutation of the images of some elements comes from one of the elements. -/
theorem exists_perm_of_map_perm {α β : Type} {f : α → β} {xs : List α} {ys : List β}
    (h : (xs.map f).Perm ys) : ∃ zs, xs.Perm zs ∧ zs.map f = ys := by
  have himages : List.Forall₂ (fun x y ↦ f x = y) xs (xs.map f) := by
    rw [List.forall₂_map_right_iff, List.forall₂_same]
    exact fun _ _ ↦ rfl
  have hcomp : Relation.Comp (List.Forall₂ fun x y ↦ f x = y) List.Perm xs ys :=
    ⟨_, himages, h⟩
  rw [List.forall₂_comp_perm_eq_perm_comp_forall₂] at hcomp
  obtain ⟨zs, hperm, hzs⟩ := hcomp
  refine ⟨zs, hperm, ?_⟩
  rw [← List.forall₂_eq_eq_eq, List.forall₂_map_left_iff]
  exact hzs

mutual

/-- Every order of the names of a value is met by a run over a reordered value. -/
theorem exists_reordered : ∀ {value : Value} {groups : List (List ByteString)}, value.Distinct →
    (value.tree go).IsOrder groups →
    ∃ other, value.Reordered other ∧ (other.tree go).listed = groups
  | .array items, _, hdistinct, ⟨_, horders, heq⟩ => by
    obtain ⟨others, hitems, hlisted⟩ := exists_itemsReordered hdistinct horders
    refine ⟨.array others, ⟨others, hitems, rfl⟩, ?_⟩
    rw [heq, ← hlisted]
    exact Gather.Tree.listedAll_eq _
  | .map properties, groups, ⟨hnames, hdistinct⟩, h => by
    obtain ⟨choice, ⟨orders, order, horders, hperm, hchoice⟩, hgroups⟩ :
        ∃ choice, (Gather.Tree.choices (propertyTrees go properties)).IsOrder choice ∧
          groups = Gather.Tree.listedAll (objectTrees go properties) ++ choice := by
      obtain ⟨orders, horders, heq⟩ := h
      rcases objectTrees_cases go properties with hnone | ⟨names, hsome⟩
      · rw [hnone] at horders ⊢
        obtain ⟨choice, rest, hchoice, hrest, rfl⟩ := horders
        rw [show rest = [] from hrest] at heq
        exact ⟨choice, hchoice, by rw [heq, List.flatten_singleton]; rfl⟩
      · rw [hsome] at horders ⊢
        obtain ⟨leaf, rest, hleaf, ⟨choice, others, hchoice, hothers, rfl⟩, rfl⟩ := horders
        rw [show others = [] from hothers, show leaf = [names] from hleaf] at heq
        exact ⟨choice, hchoice, by rw [heq, List.flatten_cons, List.flatten_singleton]; rfl⟩
    obtain ⟨others, hproperties, hlisted⟩ := exists_propertiesReordered hdistinct horders
    rw [← hlisted, propertyTrees_eq, List.map_map] at hperm
    obtain ⟨arranged, harranged, hsame⟩ := exists_perm_of_map_perm hperm
    have hvisited : others.Perm
        ((others.filter fun property ↦ !decide (property.1 ≠ typeKey)) ++ arranged) :=
      (List.filter_append_perm (fun property ↦ decide (property.1 ≠ typeKey)) others).symm.trans
        (List.perm_append_comm.trans (harranged.append_left _))
    refine ⟨_, ⟨others, _, hproperties, hvisited, rfl⟩, ?_⟩
    have hobject : objectTrees go ((others.filter fun property ↦
        !decide (property.1 ≠ typeKey)) ++ arranged) = objectTrees go properties := by
      rw [← objectTrees_of_propertiesReordered go hproperties]
      unfold objectTrees
      rw [lookup_of_perm (by rw [map_fst_of_reordered hproperties]; exact hnames) hvisited]
    have hkept : ((others.filter fun property ↦ !decide (property.1 ≠ typeKey)) ++
        arranged).filter (fun property ↦ decide (property.1 ≠ typeKey)) = arranged := by
      have hnone : (others.filter fun property ↦ !decide (property.1 ≠ typeKey)).filter
          (fun property ↦ decide (property.1 ≠ typeKey)) = [] := by
        rw [List.filter_filter, List.filter_eq_nil_iff]
        intro property _
        simp only [Bool.and_not_self, Bool.false_eq_true, not_false_eq_true]
      have hall : arranged.filter (fun property ↦ decide (property.1 ≠ typeKey)) = arranged := by
        rw [List.filter_eq_self]
        intro property hproperty
        exact (List.mem_filter.1 (harranged.mem_iff.2 hproperty)).2
      rw [List.filter_append, hnone, hall, List.nil_append]
    rw [listed_map, hobject, propertyTrees_eq, hkept, hgroups, hchoice,
      Gather.Tree.listedAll_eq (List.map _ arranged), List.map_map, hsame]
  | .null, _, _, ⟨_, horders, heq⟩ => ⟨.null, rfl, by rw [heq, show _ = [] from horders]; rfl⟩
  | .bool value, _, _, ⟨_, horders, heq⟩ =>
    ⟨.bool value, rfl, by rw [heq, show _ = [] from horders]; rfl⟩
  | .number literal, _, _, ⟨_, horders, heq⟩ =>
    ⟨.number literal, rfl, by rw [heq, show _ = [] from horders]; rfl⟩
  | .text value, _, _, ⟨_, horders, heq⟩ =>
    ⟨.text value, rfl, by rw [heq, show _ = [] from horders]; rfl⟩

theorem exists_itemsReordered : ∀ {items : List Value} {orders : List (List (List ByteString))},
    ItemsDistinct items → Gather.Tree.AreOrders (itemTrees go items) orders →
    ∃ others, ItemsReordered items others ∧ (itemTrees go others).map Gather.Tree.listed = orders
  | [], _, _, h => ⟨[], rfl, (show _ = [] from h).symm⟩
  | _ :: _, _, ⟨hitem, hitems⟩, ⟨_, _, hfirst, hrest, heq⟩ => by
    obtain ⟨other, hother, hlisted⟩ := exists_reordered hitem hfirst
    obtain ⟨others, hothers, hlisted'⟩ := exists_itemsReordered hitems hrest
    refine ⟨other :: others, ⟨other, others, hother, hothers, rfl⟩, ?_⟩
    rw [heq, itemTrees, List.map_cons, hlisted, hlisted']

theorem exists_propertiesReordered : ∀ {properties : List (ByteString × Value)}
    {orders : List (List (List ByteString))}, PropertiesDistinct properties →
    Gather.Tree.AreOrders (propertyTrees go properties) orders →
    ∃ others, PropertiesReordered properties others ∧
      (propertyTrees go others).map Gather.Tree.listed = orders
  | [], _, _, h => ⟨[], rfl, (show _ = [] from h).symm⟩
  | (key, child) :: _, _, ⟨hchild, hproperties⟩, h => by
    by_cases hkey : key = typeKey
    · rw [propertyTrees, if_pos hkey] at h
      obtain ⟨others, hothers, hlisted⟩ := exists_propertiesReordered hproperties h
      refine ⟨(key, child) :: others, ⟨child, others, child.reordered_refl, hothers, rfl⟩, ?_⟩
      rw [propertyTrees, if_pos hkey, hlisted]
    · rw [propertyTrees, if_neg hkey] at h
      obtain ⟨first, rest, hfirst, hrest, heq⟩ := h
      obtain ⟨other, hother, hlisted⟩ := exists_reordered hchild hfirst
      obtain ⟨others, hothers, hlisted'⟩ := exists_propertiesReordered hproperties hrest
      refine ⟨(key, other) :: others, ⟨other, others, hother, hothers, rfl⟩, ?_⟩
      rw [propertyTrees, if_neg hkey, List.map_cons, hlisted, hlisted', heq]

end

/-! ### Blocks -/

theorem start_keyed : Extraction.start.toCollection.Keyed go :=
  rfl

/-- Reading a block visits the names of its value. -/
theorem readBlock_names (read : Reader) (script : Script) {s : Extraction}
    (h : s.toCollection.Keyed go) :
    (readBlock go read script s).toCollection.Keyed go ∧
      (readBlock go read script s).toCollection.names =
        visitAll go.toLower maxTypes s.toCollection.names (Gather.Tree.listedAll
          (itemTrees go (blockValue go read script s.blocks s.totalBytes).toList)) := by
  have hsame := admitBlock_toCollection go script s
  unfold readBlock
  cases blockValue go read script s.blocks s.totalBytes with
  | none =>
    refine ⟨?_, congrArg Collection.names hsame⟩
    show (admitBlock go script s).toCollection.Keyed go
    rw [hsame]
    exact h
  | some value =>
    have hafter : (classifyBlock go value (admitBlock go script s)).toCollection =
        collectSchemaTypes go value s.toCollection := by
      unfold classifyBlock
      rw [hsame]
      simp only []
      split
      · rfl
      · rfl
    obtain ⟨hkeyed, hnames⟩ := collectSchemaTypes_names go value h
    simp only [hafter]
    refine ⟨hkeyed, ?_⟩
    rw [hnames, Option.toList_some, itemTrees, itemTrees, Gather.Tree.listedAll,
      Gather.Tree.listedAll, List.append_nil]

theorem itemTrees_append (first second : List Value) :
    itemTrees go (first ++ second) = itemTrees go first ++ itemTrees go second := by
  induction first with
  | nil => rfl
  | cons item items ih => rw [List.cons_append, itemTrees, itemTrees, ih, List.cons_append]

theorem listedAll_append (first second : List (Gather.Tree ByteString)) :
    Gather.Tree.listedAll (first ++ second) =
      Gather.Tree.listedAll first ++ Gather.Tree.listedAll second := by
  rw [Gather.Tree.listedAll_eq, Gather.Tree.listedAll_eq, Gather.Tree.listedAll_eq,
    List.map_append, List.flatten_append]

/-- The loop over the scripts visits the names of the values of its blocks. -/
theorem scanScripts_names (read : Reader) (scripts : List Script) {s : Extraction}
    (h : s.toCollection.Keyed go) :
    (scanScripts go read scripts s).toCollection.Keyed go ∧
      (scanScripts go read scripts s).toCollection.names =
        visitAll go.toLower maxTypes s.toCollection.names (Gather.Tree.listedAll
          (itemTrees go (blockValues go read scripts s.blocks s.totalBytes))) := by
  induction scripts generalizing s with
  | nil => exact ⟨h, rfl⟩
  | cons script scripts ih =>
    rw [scanScripts, blockValues]
    by_cases hfinished : Finished s.blocks s.totalBytes
    · rw [if_pos hfinished, if_pos hfinished]
      exact ⟨h, rfl⟩
    rw [if_neg hfinished, if_neg hfinished]
    by_cases hjson : isJsonLd go script
    · rw [if_pos hjson, if_pos hjson]
      obtain ⟨hkeyed, hnames⟩ := readBlock_names go read script h
      obtain ⟨hblocks, hbytes⟩ := readBlock_position go read script s
      obtain ⟨hkeyed', hnames'⟩ := ih hkeyed
      refine ⟨hkeyed', ?_⟩
      rw [hnames', hnames, hblocks, hbytes, itemTrees_append, listedAll_append, visitAll_append]
    · rw [if_neg hjson, if_neg hjson]
      exact ih h

/-! ### Documents -/

/-- A decoder of JSON, whose objects have different names. -/
structure Decoder where
  read : Reader
  distinct : ∀ block raw value, read block raw = some value → value.Distinct

/-- Another run decodes the same values and visits their maps in its own orders. -/
def Reader.Reordered (read other : Reader) : Prop :=
  ∀ block raw, Option.Rel Value.Reordered (read block raw) (other block raw)

/-- What an extraction reports. -/
structure StructuredReport where
  types : List ByteString
  itemCount : ℕ
  validCount : ℕ
  errorCount : ℕ
  warningCount : ℕ
  deriving DecidableEq

def Extraction.report (s : Extraction) : StructuredReport where
  types := s.types
  itemCount := s.itemCount
  validCount := s.validCount
  errorCount := s.errorCount
  warningCount := s.warningCount

/-- Any two runs over a document report the same. -/
def OrderFree (decoder : Decoder) (document : Document) : Prop :=
  ∀ first second : Reader, decoder.read.Reordered first → decoder.read.Reordered second →
    (extractStructuredData go first document).report =
      (extractStructuredData go second document).report

/-- The values of the blocks of a document that are read. -/
def Decoder.values (decoder : Decoder) (document : Document) : List Value :=
  blockValues go decoder.read document.scripts 0 0

/-- The names of a document, block by block, leave nothing to the order of its maps. -/
def Steady (decoder : Decoder) (document : Document) : Prop :=
  ((Value.array (decoder.values go document)).tree go).Steady go.toLower maxTypes []

theorem eq_none_of_rel {other : Option Value} (h : Option.Rel Value.Reordered none other) :
    other = none := by
  cases h with
  | none => rfl

theorem exists_of_rel {value : Value} {other : Option Value}
    (h : Option.Rel Value.Reordered (some value) other) :
    ∃ found, other = some found ∧ value.Reordered found := by
  cases h with
  | some hvalue => exact ⟨_, rfl, hvalue⟩

theorem blockValue_of_reordered {read other : Reader} (h : read.Reordered other)
    (script : Script) (blocks totalBytes : ℕ) :
    Option.Rel Value.Reordered (blockValue go read script blocks totalBytes)
      (blockValue go other script blocks totalBytes) := by
  unfold blockValue
  simp only []
  split
  · exact .none
  · exact h _ _

/-- Another run reads the blocks of a document in its own orders. -/
theorem blockValues_of_reordered {read other : Reader} (h : read.Reordered other)
    (scripts : List Script) (blocks totalBytes : ℕ) :
    ItemsReordered (blockValues go read scripts blocks totalBytes)
      (blockValues go other scripts blocks totalBytes) := by
  induction scripts generalizing blocks totalBytes with
  | nil => rfl
  | cons script scripts ih =>
    rw [blockValues, blockValues]
    by_cases hfinished : Finished blocks totalBytes
    · rw [if_pos hfinished, if_pos hfinished]
      rfl
    rw [if_neg hfinished, if_neg hfinished]
    by_cases hjson : isJsonLd go script
    · rw [if_pos hjson, if_pos hjson]
      have hvalue := blockValue_of_reordered go h script blocks totalBytes
      cases hread : blockValue go read script blocks totalBytes with
      | none =>
        rw [hread] at hvalue
        rw [eq_none_of_rel hvalue]
        exact ih _ _
      | some value =>
        rw [hread] at hvalue
        obtain ⟨found, hfound, hreordered⟩ := exists_of_rel hvalue
        rw [hfound]
        exact ⟨_, _, hreordered, ih _ _, rfl⟩
    · rw [if_neg hjson, if_neg hjson]
      exact ih _ _

theorem Decoder.valueOf_distinct (decoder : Decoder) {script : Script} {blocks totalBytes : ℕ}
    {value : Value} (h : blockValue go decoder.read script blocks totalBytes = some value) :
    value.Distinct := by
  unfold blockValue at h
  simp only [] at h
  split at h
  · exact absurd h (Option.some_ne_none _).symm
  · exact decoder.distinct _ _ _ h

theorem Decoder.values_distinct (decoder : Decoder) (scripts : List Script)
    (blocks totalBytes : ℕ) :
    ItemsDistinct (blockValues go decoder.read scripts blocks totalBytes) := by
  induction scripts generalizing blocks totalBytes with
  | nil => trivial
  | cons script scripts ih =>
    rw [blockValues]
    split
    · trivial
    split
    · cases hvalue : blockValue go decoder.read script blocks totalBytes with
      | none => exact ih _ _
      | some value => exact ⟨decoder.valueOf_distinct go hvalue, ih _ _⟩
    · exact ih _ _

/-! ### Steady documents report the same -/

/-- A block whose names are steady is read the same by another run. -/
theorem readBlock_of_steady (decoder : Decoder) {other : Reader}
    (h : decoder.read.Reordered other) (script : Script) {s : Extraction}
    (hkeyed : s.toCollection.Keyed go)
    (hsteady : ∀ value, blockValue go decoder.read script s.blocks s.totalBytes = some value →
      (value.tree go).Steady go.toLower maxTypes s.types) :
    readBlock go other script s = readBlock go decoder.read script s := by
  have hvalue := blockValue_of_reordered go h script s.blocks s.totalBytes
  unfold readBlock
  cases hread : blockValue go decoder.read script s.blocks s.totalBytes with
  | none =>
    rw [hread] at hvalue
    rw [eq_none_of_rel hvalue]
  | some value =>
    rw [hread] at hvalue
    obtain ⟨found, hfound, hreordered⟩ := exists_of_rel hvalue
    have horder := isOrder_of_reordered go (decoder.valueOf_distinct go hread) hreordered
    have hsame : collectSchemaTypes go found s.toCollection =
        collectSchemaTypes go value s.toCollection := by
      obtain ⟨hfirst, hnames⟩ := collectSchemaTypes_names go found hkeyed
      obtain ⟨hsecond, hnames'⟩ := collectSchemaTypes_names go value hkeyed
      apply Collection.ext_of_keyed go hfirst hsecond
      rw [hnames, hnames']
      exact Gather.Tree.Steady.visitAll_eq _ (hsteady value hread) s.itemCount horder
    rw [hfound]
    show classifyBlock go _ _ = classifyBlock go _ _
    unfold classifyBlock
    rw [admitBlock_toCollection, hsame]

/-- Reading a block stores the names that its value lists. -/
theorem readBlock_types (read : Reader) (script : Script) {s : Extraction}
    (h : s.toCollection.Keyed go) :
    (readBlock go read script s).types = storeAll go.toLower maxTypes s.types
      (Gather.Tree.listedAll (itemTrees go
        (blockValue go read script s.blocks s.totalBytes).toList)).flatten := by
  have hnames := congrArg Prod.fst (readBlock_names go read script h).2
  rw [show s.toCollection.names = (s.types, s.itemCount) from rfl, visitAll_eq] at hnames
  rw [← append_flatten_added]
  exact hnames

/-- The loop over blocks whose names are steady does the same in another run. -/
theorem scanScripts_of_steady (decoder : Decoder) {other : Reader}
    (h : decoder.read.Reordered other) (scripts : List Script) {s : Extraction}
    (hkeyed : s.toCollection.Keyed go)
    (hsteady : Gather.Tree.SteadySteps go.toLower maxTypes
      (itemTrees go (blockValues go decoder.read scripts s.blocks s.totalBytes)) s.types) :
    scanScripts go other scripts s = scanScripts go decoder.read scripts s := by
  induction scripts generalizing s with
  | nil => rfl
  | cons script scripts ih =>
    rw [scanScripts, scanScripts]
    rw [blockValues] at hsteady
    by_cases hfinished : Finished s.blocks s.totalBytes
    · rw [if_pos hfinished, if_pos hfinished]
    rw [if_neg hfinished] at hsteady ⊢
    rw [if_neg hfinished]
    by_cases hjson : isJsonLd go script
    · rw [if_pos hjson] at hsteady ⊢
      rw [if_pos hjson]
      have hnow : (∀ value,
          blockValue go decoder.read script s.blocks s.totalBytes = some value →
            (value.tree go).Steady go.toLower maxTypes s.types) ∧
          Gather.Tree.SteadySteps go.toLower maxTypes (itemTrees go (blockValues go decoder.read
            scripts (readBlock go decoder.read script s).blocks
            (readBlock go decoder.read script s).totalBytes))
            (readBlock go decoder.read script s).types := by
        obtain ⟨hblocks, hbytes⟩ := readBlock_position go decoder.read script s
        rw [hblocks, hbytes, readBlock_types go decoder.read script hkeyed]
        cases hvalue : blockValue go decoder.read script s.blocks s.totalBytes with
        | none =>
          rw [hvalue] at hsteady
          exact ⟨fun value heq ↦ absurd heq (Option.some_ne_none _).symm, hsteady⟩
        | some value =>
          rw [hvalue] at hsteady
          obtain ⟨hfirst, hrest⟩ := hsteady
          refine ⟨fun found heq ↦ ?_, ?_⟩
          · rw [← Option.some.inj heq]
            exact hfirst
          · rw [Option.toList_some, itemTrees, itemTrees, Gather.Tree.listedAll,
              Gather.Tree.listedAll, List.append_nil]
            exact hrest
      rw [readBlock_of_steady go decoder h script hkeyed hnow.1]
      exact ih (readBlock_names go decoder.read script hkeyed).1 hnow.2
    · rw [if_neg hjson] at hsteady ⊢
      rw [if_neg hjson]
      exact ih hkeyed hsteady

theorem orderFree_of_steady {decoder : Decoder} {document : Document}
    (h : Steady go decoder document) : OrderFree go decoder document := by
  intro first second hfirst hsecond
  have hsame : ∀ other : Reader, decoder.read.Reordered other →
      extractStructuredData go other document =
        extractStructuredData go decoder.read document := by
    intro other hother
    unfold extractStructuredData
    rw [scanScripts_of_steady go decoder hother document.scripts (start_keyed go) h]
  rw [hsame first hfirst, hsame second hsecond]

/-! ### Documents that report the same are steady -/

/-- The blocks read from a number on depend on what is read from that number on. -/
theorem blockValues_congr {read other : Reader} (scripts : List Script) {blocks : ℕ}
    (totalBytes : ℕ) (h : ∀ block, blocks ≤ block → read block = other block) :
    blockValues go read scripts blocks totalBytes =
      blockValues go other scripts blocks totalBytes := by
  induction scripts generalizing blocks totalBytes with
  | nil => rfl
  | cons script scripts ih =>
    have hvalue : blockValue go read script blocks totalBytes =
        blockValue go other script blocks totalBytes := by
      unfold blockValue
      rw [h blocks (le_refl _)]
    rw [blockValues, blockValues, hvalue, ih _ h,
      ih _ fun block hblock ↦ h block (le_trans (Nat.le_succ _) hblock)]

theorem Reader.reordered_refl (read : Reader) : read.Reordered read := by
  intro block raw
  cases read block raw with
  | none => exact .none
  | some value => exact .some value.reordered_refl

/-- The reader that reads one block otherwise. -/
def Reader.replace (read : Reader) (number : ℕ) (bytes : ByteString) (value : Value)
    (behind : Reader) : Reader := fun block raw ↦
  if block = number then (if raw = bytes then some value else read block raw)
  else behind block raw

theorem Reader.replace_behind (read : Reader) {number block : ℕ} (bytes : ByteString)
    (value : Value) (behind : Reader) (h : number + 1 ≤ block) :
    read.replace number bytes value behind block = behind block := by
  funext raw
  exact if_neg (by omega)

/-- Any reordered values of the blocks of a document are what another run reads. -/
theorem exists_reader (read : Reader) (scripts : List Script) (blocks totalBytes : ℕ)
    {others : List Value}
    (h : ItemsReordered (blockValues go read scripts blocks totalBytes) others) :
    ∃ other : Reader, read.Reordered other ∧
      blockValues go other scripts blocks totalBytes = others := by
  induction scripts generalizing blocks totalBytes others with
  | nil => exact ⟨read, read.reordered_refl, (show others = [] from h).symm⟩
  | cons script scripts ih =>
    rw [blockValues] at h
    by_cases hfinished : Finished blocks totalBytes
    · rw [if_pos hfinished] at h
      refine ⟨read, read.reordered_refl, ?_⟩
      rw [blockValues, if_pos hfinished, show others = [] from h]
    rw [if_neg hfinished] at h
    by_cases hjson : isJsonLd go script
    · rw [if_pos hjson] at h
      cases hvalue : blockValue go read script blocks totalBytes with
      | none =>
        rw [hvalue] at h
        obtain ⟨other, hother, hothers⟩ := ih _ _ h
        refine ⟨other, hother, ?_⟩
        have hnone := blockValue_of_reordered go hother script blocks totalBytes
        rw [hvalue] at hnone
        rw [blockValues, if_neg hfinished, if_pos hjson, hothers, eq_none_of_rel hnone]
        rfl
      | some value =>
        rw [hvalue] at h
        obtain ⟨first, rest, hfirst, hrest, rfl⟩ := h
        obtain ⟨behind, hbehind, hothers⟩ := ih _ _ hrest
        refine ⟨read.replace blocks
          (admitted (maxJsonLdBytes - totalBytes) (go.trimSpace script.content)) first behind,
          ?_, ?_⟩
        · intro block raw
          unfold Reader.replace
          split
          case isTrue hblock =>
            split
            case isTrue hraw =>
              subst hblock hraw
              unfold blockValue at hvalue
              simp only [] at hvalue
              split at hvalue
              · exact absurd hvalue (Option.some_ne_none _).symm
              · rw [hvalue]
                exact .some hfirst
            case isFalse => exact read.reordered_refl block raw
          case isFalse => exact hbehind block raw
        · rw [blockValues, if_neg hfinished, if_pos hjson]
          rw [blockValues_congr go scripts _ fun block hblock ↦
            read.replace_behind _ first behind hblock, hothers]
          unfold blockValue at hvalue ⊢
          simp only [] at hvalue ⊢
          split at hvalue
          · exact absurd hvalue (Option.some_ne_none _).symm
          · rename_i hne
            rw [if_neg hne]
            unfold Reader.replace
            rw [if_pos rfl, if_pos rfl]
            rfl
    · rw [if_neg hjson] at h
      obtain ⟨other, hother, hothers⟩ := ih _ _ h
      refine ⟨other, hother, ?_⟩
      rw [blockValues, if_neg hfinished, if_neg hjson]
      exact hothers

/-- The words of an `itemtype` attribute store their names, and each of them counts. -/
theorem foldl_addItemType_names (words : List ByteString) {s : Extraction}
    (h : s.toCollection.Keyed go) :
    (words.foldl (addItemType go) s).toCollection.Keyed go ∧
      (words.foldl (addItemType go) s).types = storeAll go.toLower maxTypes s.types
        ((words.map (schemaTypeName go)).filter (· ≠ [])) ∧
      (words.foldl (addItemType go) s).itemCount = s.itemCount + words.length := by
  induction words generalizing s with
  | nil => exact ⟨h, rfl, rfl⟩
  | cons word words ih =>
    obtain ⟨hkeyed, -, htypes⟩ := addTypeText_names go h word
    obtain ⟨hkeyed', htypes', hcount'⟩ :=
      ih (show (addItemType go s word).toCollection.Keyed go from hkeyed)
    refine ⟨hkeyed', ?_, ?_⟩
    · rw [List.foldl_cons, htypes', List.map_cons, ← List.singleton_append, List.filter_append,
        storeAll_append, ← htypes]
      rfl
    · rw [List.foldl_cons, hcount', List.length_cons]
      show s.itemCount + 1 + _ = _
      omega

/-- The loop over `itemtype` attributes only makes the list longer. -/
theorem scanItemTypes_types (itemTypes : List ByteString) {s : Extraction}
    (h : s.toCollection.Keyed go) :
    s.types <+: (scanItemTypes go itemTypes s).types := by
  induction itemTypes generalizing s with
  | nil => exact List.prefix_refl _
  | cons itemType itemTypes ih =>
    obtain ⟨hkeyed, htypes, -⟩ := foldl_addItemType_names go (go.fields itemType) h
    rw [scanItemTypes]
    split
    · exact List.prefix_refl _
    · refine List.IsPrefix.trans ?_ (ih hkeyed)
      rw [htypes]
      exact isPrefix_storeAll _ _

/-- What the loop over `itemtype` attributes counts depends on the names that it starts with. -/
theorem scanItemTypes_itemCount (itemTypes : List ByteString) {s t : Extraction}
    (hs : s.toCollection.Keyed go) (ht : t.toCollection.Keyed go) (h : s.types = t.types) :
    (scanItemTypes go itemTypes s).itemCount + t.itemCount =
      (scanItemTypes go itemTypes t).itemCount + s.itemCount := by
  induction itemTypes generalizing s t with
  | nil => exact Nat.add_comm _ _
  | cons itemType itemTypes ih =>
    rw [scanItemTypes, scanItemTypes]
    by_cases hfull : maxTypes ≤ s.types.length
    · rw [if_pos hfull, if_pos (h ▸ hfull), Nat.add_comm]
    · rw [if_neg hfull, if_neg (h ▸ hfull)]
      obtain ⟨hs', hstypes, hscount⟩ := foldl_addItemType_names go (go.fields itemType) hs
      obtain ⟨ht', httypes, htcount⟩ := foldl_addItemType_names go (go.fields itemType) ht
      have hrest := ih hs' ht' (by rw [hstypes, httypes, h])
      omega

/-- What the scripts of a document have stored when it reports the same. -/
theorem scanScripts_names_of_report {read other : Reader} {document : Document}
    (hlength : (scanScripts go read document.scripts .start).types.length =
      (scanScripts go other document.scripts .start).types.length)
    (h : (extractStructuredData go read document).report =
      (extractStructuredData go other document).report) :
    (scanScripts go read document.scripts .start).toCollection.names =
      (scanScripts go other document.scripts .start).toCollection.names := by
  have hread := (scanScripts_names go read document.scripts (start_keyed go)).1
  have hother := (scanScripts_names go other document.scripts (start_keyed go)).1
  have htypes : (extractStructuredData go read document).types =
      (extractStructuredData go other document).types := congrArg StructuredReport.types h
  have hcount : (extractStructuredData go read document).itemCount =
      (extractStructuredData go other document).itemCount :=
    congrArg StructuredReport.itemCount h
  have hsame : (scanScripts go read document.scripts .start).types =
      (scanScripts go other document.scripts .start).types := by
    apply List.IsPrefix.eq_of_length _ hlength
    apply List.prefix_of_prefix_length_le (scanItemTypes_types go document.itemTypes hread) _
      (le_of_eq hlength)
    have hlonger := scanItemTypes_types go document.itemTypes hother
    have heq : (scanItemTypes go document.itemTypes
        (scanScripts go read document.scripts .start)).types =
        (scanItemTypes go document.itemTypes
          (scanScripts go other document.scripts .start)).types := htypes
    rw [heq]
    exact hlonger
  have hcounts := scanItemTypes_itemCount go document.itemTypes hread hother hsame
  unfold extractStructuredData at hcount
  exact Prod.ext hsame (by simp only [Collection.names]; omega)

theorem steady_of_orderFree {decoder : Decoder} {document : Document}
    (h : OrderFree go decoder document) : Steady go decoder document := by
  apply Gather.Tree.steady_of_orderFree
  intro first second hfirst hsecond
  have hrun : ∀ groups : List (List ByteString),
      ((Value.array (decoder.values go document)).tree go).IsOrder groups →
      ∃ other : Reader, decoder.read.Reordered other ∧
        (scanScripts go other document.scripts .start).toCollection.names =
          visitAll go.toLower maxTypes ([], 0) groups := by
    intro groups hgroups
    obtain ⟨orders, horders, heq⟩ := hgroups
    obtain ⟨others, hothers, hlisted⟩ :=
      exists_itemsReordered go (decoder.values_distinct go document.scripts 0 0) horders
    obtain ⟨other, hreordered, hvalues⟩ :=
      exists_reader go decoder.read document.scripts 0 0 hothers
    refine ⟨other, hreordered, ?_⟩
    rw [(scanScripts_names go other document.scripts (start_keyed go)).2, heq, ← hlisted,
      ← Gather.Tree.listedAll_eq]
    show visitAll _ _ _ (Gather.Tree.listedAll (itemTrees go
      (blockValues go other document.scripts 0 0))) = _
    rw [hvalues]
    rfl
  obtain ⟨read, hread, hnames⟩ := hrun first hfirst
  obtain ⟨other, hother, hnames'⟩ := hrun second hsecond
  rw [← hnames, ← hnames']
  apply scanScripts_names_of_report go _ (h read other hread hother)
  have htypes := congrArg Prod.fst hnames
  have htypes' := congrArg Prod.fst hnames'
  rw [visitAll_eq, append_flatten_added] at htypes htypes'
  show (Collection.names _).1.length = (Collection.names _).1.length
  rw [htypes, htypes']
  exact length_storeAll_of_perm _ ((Gather.Tree.perm_of_isOrder _ hfirst).trans
    (Gather.Tree.perm_of_isOrder _ hsecond).symm)

/-- Runs over a document report the same types and counts, whatever the orders of its maps, exactly
when the names of its blocks are steady. -/
theorem orderFree_iff (decoder : Decoder) (document : Document) :
    OrderFree go decoder document ↔ Steady go decoder document :=
  ⟨steady_of_orderFree go, orderFree_of_steady go⟩

/-! ### Two objects with a common type -/

/-- The objects `{"@type":"A"}` and `{"@type":["A","B"]}` as two properties, in some order. -/
def pairProperties : List (ByteString × Value) :=
  [(ofText "a", .map [(typeKey, .text (ofText "A"))]),
    (ofText "b", .map [(typeKey, .array [.text (ofText "A"), .text (ofText "B")])])]

def pairDocument : Document where
  scripts := [⟨jsonLdType,
    ofText "\x7b\"a\":\x7b\"@type\":\"A\"\x7d,\"b\":\x7b\"@type\":[\"A\",\"B\"]\x7d\x7d"⟩]
  itemTypes := []
  linkRels := []
  images := 0
  bodyText := []

/-- Reads the text of the document, with its properties in the order given. -/
def pairReader (properties : List (ByteString × Value)) : Reader := fun _ raw ↦
  if (pairDocument.scripts.map Script.content).contains raw then some (.map properties) else none

theorem pairReader_distinct (block : ℕ) (raw : ByteString) (value : Value)
    (h : pairReader pairProperties block raw = some value) : value.Distinct := by
  unfold pairReader at h
  split at h
  · rw [← Option.some.inj h]
    refine ⟨by decide, ⟨?_, trivial, trivial⟩, ⟨?_, ⟨trivial, trivial, trivial⟩, trivial⟩, trivial⟩
    · exact List.nodup_singleton _
    · exact List.nodup_singleton _
  · exact absurd h (Option.some_ne_none _).symm

def pairDecoder : Decoder where
  read := pairReader pairProperties
  distinct := pairReader_distinct

theorem pairReader_reordered :
    pairDecoder.read.Reordered (pairReader pairProperties.reverse) := by
  intro block raw
  show Option.Rel _ (pairReader _ block raw) (pairReader _ block raw)
  unfold pairReader
  split
  · exact .some ⟨_, _, propertiesReordered_refl _, pairProperties.reverse_perm.symm, rfl⟩
  · exact .none

/-- In the order `a`, `b` both objects count, in the order `b`, `a` only one of them. -/
theorem pair_depends_on_order :
    ¬ ∀ (go : Strings) (decoder : Decoder) (document : Document),
      OrderFree go decoder document := by
  intro h
  have hsame := congrArg StructuredReport.itemCount (h .ascii pairDecoder pairDocument _ _
    pairDecoder.read.reordered_refl pairReader_reordered)
  exact absurd hsame (by decide +kernel)

end WebLens.Crawl
