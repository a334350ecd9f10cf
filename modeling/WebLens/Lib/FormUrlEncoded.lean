import Mathlib.Data.List.Basic
import Mathlib.Data.List.Nodup
import WebLens.Lib.Srcset
import WebLens.Lib.Utf8

/-!
# Form-encoded parameters

Lists of parameters with names and values, their `application/x-www-form-urlencoded` text, and the
updates of a list by name. The parser reads back what the serializer writes. An update that
overwrites the values of a name depends on the names of the list only, and doing it for every name
leaves nothing of the values.
-/

set_option autoImplicit false
set_option relaxedAutoImplicit false

namespace WebLens.Lib.FormUrlEncoded

open Utf8 Srcset

/-- Parameters: names and values, in order. -/
abbrev Params := List (String × String)

/-- The names of some parameters. -/
def names (params : Params) : List String :=
  params.map Prod.fst

/-! ### Texts -/

/-- The upper-case hexadecimal digit of a value below sixteen. -/
def hexDigit (value : ℕ) : Char :=
  Char.ofNat (if value < 10 then 0x30 + value else 0x37 + value)

/-- The value of a hexadecimal digit. -/
def hexValue (c : Char) : Option ℕ :=
  if '0' ≤ c ∧ c ≤ '9' then some (c.toNat - 0x30)
  else if 'A' ≤ c ∧ c ≤ 'F' then some (c.toNat - 0x37)
  else if 'a' ≤ c ∧ c ≤ 'f' then some (c.toNat - 0x57)
  else none

/-- Whether a byte stands for itself: letters, digits and `*-._`. -/
def isPlain (byte : UInt8) : Bool :=
  (0x30 ≤ byte && byte ≤ 0x39) || (0x41 ≤ byte && byte ≤ 0x5A) ||
    (0x61 ≤ byte && byte ≤ 0x7A) || [0x2A, 0x2D, 0x2E, 0x5F].contains byte

def encodeByte (byte : UInt8) : List Char :=
  if isPlain byte then [Char.ofNat byte.toNat]
  else if byte = 0x20 then ['+']
  else ['%', hexDigit (byte.toNat / 16), hexDigit (byte.toNat % 16)]

/-- The text of a name or a value. -/
def encode (text : String) : List Char :=
  (ofText text).flatMap encodeByte

/-- The bytes that a text stands for. -/
def decodeBytes : List Char → ByteString
  | [] => []
  | '+' :: rest => 0x20 :: decodeBytes rest
  | '%' :: high :: low :: rest =>
    match hexValue high, hexValue low with
    | some h, some l => (h * 16 + l).toUInt8 :: decodeBytes rest
    | _, _ => 0x25 :: decodeBytes (high :: low :: rest)
  | c :: rest => String.utf8EncodeChar c ++ decodeBytes rest

/-- The characters that a serialized name or value is made of. -/
def isEncoded (c : Char) : Bool :=
  decide (0x21 ≤ c.toNat) && decide (c.toNat ≤ 0x7E) && !(['&', '=', '#'].contains c)

/-- A parameter. -/
def encodePair (param : String × String) : List Char :=
  encode param.1 ++ '=' :: encode param.2

/-- The serializer. -/
def serialize (params : Params) : List Char :=
  joinWith ['&'] (params.map encodePair)

section Parsing

variable (decode : ByteString → String)

/-- A parameter from the text between two ampersands. -/
def readPair (piece : List Char) : String × String :=
  (decode (decodeBytes (piece.takeWhile (· ≠ '='))),
    decode (decodeBytes ((piece.dropWhile (· ≠ '=')).drop 1)))

/-- The parser, with a decoder of UTF-8. -/
def parse (text : List Char) : Params :=
  ((text.splitOn '&').filter (· ≠ [])).map (readPair decode)

end Parsing

/-! ### The round trip -/

theorem plain_spec : ∀ value < 256, isPlain (UInt8.ofNat value) = true →
    Char.ofNat value ≠ '+' ∧ Char.ofNat value ≠ '%' ∧ isEncoded (Char.ofNat value) = true ∧
      String.utf8EncodeChar (Char.ofNat value) = [UInt8.ofNat value] := by
  decide +kernel

theorem hexDigit_spec : ∀ value < 16,
    hexValue (hexDigit value) = some value ∧ isEncoded (hexDigit value) = true := by
  decide +kernel

theorem decodeBytes_plain {c : Char} (hplus : c ≠ '+') (hpercent : c ≠ '%') (rest : List Char) :
    decodeBytes (c :: rest) = String.utf8EncodeChar c ++ decodeBytes rest := by
  rw [decodeBytes]
  · exact hplus
  · intro _ _ _ h
    exact absurd h hpercent

theorem decodeBytes_encodeByte (byte : UInt8) (rest : List Char) :
    decodeBytes (encodeByte byte ++ rest) = byte :: decodeBytes rest := by
  have hlt : byte.toNat < 256 := byte.toNat_lt
  unfold encodeByte
  by_cases hplain : isPlain byte = true
  · rw [if_pos hplain]
    obtain ⟨hplus, hpercent, -, hbyte⟩ := plain_spec byte.toNat hlt (by rwa [UInt8.ofNat_toNat])
    rw [List.cons_append, List.nil_append, decodeBytes_plain hplus hpercent, hbyte,
      UInt8.ofNat_toNat]
    rfl
  rw [if_neg hplain]
  by_cases hspace : byte = 0x20
  · rw [if_pos hspace, hspace]
    rfl
  rw [if_neg hspace]
  have hhigh := (hexDigit_spec (byte.toNat / 16) (by omega)).1
  have hlow := (hexDigit_spec (byte.toNat % 16) (by omega)).1
  have hvalue : byte.toNat / 16 * 16 + byte.toNat % 16 = byte.toNat := by omega
  simp only [List.cons_append, List.nil_append, decodeBytes, hhigh, hlow, hvalue]
  rw [show byte.toNat.toUInt8 = byte from UInt8.ofNat_toNat]

theorem decodeBytes_encode (bytes : ByteString) :
    decodeBytes (bytes.flatMap encodeByte) = bytes := by
  induction bytes with
  | nil => rfl
  | cons byte bytes ih => rw [List.flatMap_cons, decodeBytes_encodeByte, ih]

theorem isEncoded_encode {text : String} {c : Char} (h : c ∈ encode text) :
    isEncoded c = true := by
  obtain ⟨byte, -, hmem⟩ := List.mem_flatMap.1 h
  have hlt : byte.toNat < 256 := byte.toNat_lt
  unfold encodeByte at hmem
  by_cases hplain : isPlain byte = true
  · rw [if_pos hplain] at hmem
    rw [List.mem_singleton.1 hmem]
    exact (plain_spec byte.toNat hlt (by rwa [UInt8.ofNat_toNat])).2.2.1
  rw [if_neg hplain] at hmem
  by_cases hspace : byte = 0x20
  · rw [if_pos hspace] at hmem
    rw [List.mem_singleton.1 hmem]
    decide
  rw [if_neg hspace] at hmem
  rcases List.mem_cons.1 hmem with rfl | hmem
  · decide
  rcases List.mem_cons.1 hmem with rfl | hmem
  · exact (hexDigit_spec _ (by omega)).2
  · rw [List.mem_singleton.1 hmem]
    exact (hexDigit_spec _ (by omega)).2

theorem ne_of_isEncoded {c : Char} (h : isEncoded c = true) : c ≠ '&' ∧ c ≠ '=' ∧ c ≠ '#' := by
  refine ⟨?_, ?_, ?_⟩ <;> rintro rfl <;> exact absurd h (by decide)

theorem amp_not_mem_encodePair (param : String × String) : '&' ∉ encodePair param := by
  intro h
  rcases List.mem_append.1 h with h | h
  · exact (ne_of_isEncoded (isEncoded_encode h)).1 rfl
  rcases List.mem_cons.1 h with h | h
  · exact absurd h (by decide)
  · exact (ne_of_isEncoded (isEncoded_encode h)).1 rfl

theorem encodePair_ne_nil (param : String × String) : encodePair param ≠ [] := by
  intro h
  exact absurd (List.append_eq_nil_iff.1 h).2 (List.cons_ne_nil _ _)

variable {decode : ByteString → String}

theorem readPair_encodePair (hdecode : ∀ text, decode (ofText text) = text)
    (param : String × String) : readPair decode (encodePair param) = param := by
  have hname : ∀ c ∈ encode param.1, decide (c ≠ '=') = true := fun c hc ↦
    decide_eq_true (ne_of_isEncoded (isEncoded_encode hc)).2.1
  have htake : (encodePair param).takeWhile (fun c ↦ decide (c ≠ '=')) = encode param.1 := by
    unfold encodePair
    rw [List.takeWhile_append_of_pos hname, List.takeWhile_cons_of_neg (by decide),
      List.append_nil]
  have hdrop : (encodePair param).dropWhile (fun c ↦ decide (c ≠ '=')) =
      '=' :: encode param.2 := by
    unfold encodePair
    rw [List.dropWhile_append_of_pos hname, List.dropWhile_cons_of_neg (by decide)]
  unfold readPair
  rw [htake, hdrop, List.drop_one, List.tail_cons]
  unfold encode
  rw [decodeBytes_encode, decodeBytes_encode, hdecode, hdecode]

/-- The parser reads back what the serializer writes. -/
theorem parse_serialize (hdecode : ∀ text, decode (ofText text) = text) (params : Params) :
    parse decode (serialize params) = params := by
  unfold parse serialize
  by_cases hempty : params = []
  · subst hempty
    rfl
  have hpieces : (joinWith ['&'] (params.map encodePair)).splitOn '&' =
      params.map encodePair := by
    refine splitOn_joinWith (fun h ↦ hempty (List.map_eq_nil_iff.1 h)) fun piece hpiece ↦ ?_
    obtain ⟨param, -, rfl⟩ := List.mem_map.1 hpiece
    exact amp_not_mem_encodePair param
  have hfilter : (params.map encodePair).filter (fun piece ↦ decide (piece ≠ [])) =
      params.map encodePair := by
    refine List.filter_eq_self.2 fun piece hpiece ↦ ?_
    obtain ⟨param, -, rfl⟩ := List.mem_map.1 hpiece
    exact decide_eq_true (encodePair_ne_nil param)
  rw [hpieces, hfilter, List.map_map]
  conv_rhs => rw [← List.map_id params]
  exact List.map_congr_left fun param _ ↦ readPair_encodePair hdecode param

theorem serialize_ne_nil {params : Params} (h : params ≠ []) : serialize params ≠ [] := by
  unfold serialize
  match params with
  | [] => exact absurd rfl h
  | [param] => exact encodePair_ne_nil param
  | param :: next :: rest =>
    rw [List.map_cons, List.map_cons, joinWith_cons_cons]
    intro hnil
    exact encodePair_ne_nil param
      (List.append_eq_nil_iff.1 (List.append_eq_nil_iff.1 hnil).1).1

/-- The characters of a serialized list: visible ASCII, without a number sign. -/
def isQueryChar (c : Char) : Bool :=
  isEncoded c || c == '&' || c == '='

theorem isQueryChar_encodePair {param : String × String} {c : Char} (h : c ∈ encodePair param) :
    isQueryChar c = true := by
  unfold isQueryChar
  rcases List.mem_append.1 h with h | h
  · rw [isEncoded_encode h]
    rfl
  rcases List.mem_cons.1 h with rfl | h
  · decide
  · rw [isEncoded_encode h]
    rfl

theorem isQueryChar_serialize {params : Params} {c : Char} (h : c ∈ serialize params) :
    isQueryChar c = true := by
  unfold serialize at h
  induction params with
  | nil => exact absurd h List.not_mem_nil
  | cons param params ih =>
    match params with
    | [] => exact isQueryChar_encodePair h
    | next :: rest =>
      rw [List.map_cons, List.map_cons, joinWith_cons_cons] at h
      rcases List.mem_append.1 h with h | h
      · rcases List.mem_append.1 h with h | h
        · exact isQueryChar_encodePair h
        · rw [List.mem_singleton.1 h]
          decide
      · exact ih h

/-! ### Updates by name -/

/-- `searchParams.delete`. -/
def deleteParam (params : Params) (name : String) : Params :=
  params.filter fun param ↦ param.1 ≠ name

/-- `searchParams.append`. -/
def appendParam (params : Params) (name value : String) : Params :=
  params ++ [(name, value)]

/-- `searchParams.set`: the first parameter with the name gets the value, the others go. -/
def setParam : Params → String → String → Params
  | [], name, value => [(name, value)]
  | param :: rest, name, value =>
    if param.1 = name then (name, value) :: deleteParam rest name
    else param :: setParam rest name value

/-- `searchParams.delete` and then `searchParams.append`. -/
def replaceParam (params : Params) (name value : String) : Params :=
  appendParam (deleteParam params name) name value

/-- Every value is the one given. -/
def AllValues (value : String) (params : Params) : Prop :=
  ∀ param ∈ params, param.2 = value

theorem eq_map_of_allValues {value : String} {params : Params} (h : AllValues value params) :
    params = (names params).map fun name ↦ (name, value) := by
  unfold names
  rw [List.map_map]
  conv_lhs => rw [← List.map_id params]
  exact List.map_congr_left fun param hparam ↦ Prod.ext rfl (h param hparam)

/-- Lists with the same names and one value are the same. -/
theorem eq_of_names_eq {value : String} {params other : Params} (hnames : names params = names other)
    (h : AllValues value params) (h' : AllValues value other) : params = other := by
  rw [eq_map_of_allValues h, eq_map_of_allValues h', hnames]

/-- An update that gives a name a value: which names remain, and in what order, depends on the
names only; the name remains once, every other name as often as before, with its values. -/
structure Overwrites (value : String) (update : Params → String → Params) : Prop where
  names_congr : ∀ {params other : Params} (name : String), names params = names other →
    names (update params name) = names (update other name)
  count_self : ∀ (params : Params) (name : String), (names (update params name)).count name ≤ 1
  count_other : ∀ (params : Params) {name other : String}, other ≠ name →
    (names (update params name)).count other = (names params).count other
  values : ∀ (params : Params) (name : String), ∀ param ∈ update params name,
    param = (name, value) ∨ param ∈ params ∧ param.1 ≠ name
  ne_nil : ∀ (params : Params) (name : String), update params name ≠ []

section Overwrites

variable {value : String} {update : Params → String → Params}

theorem Overwrites.names_foldl (h : Overwrites value update) (keys : List String)
    {params other : Params} (hnames : names params = names other) :
    names (keys.foldl update params) = names (keys.foldl update other) := by
  induction keys generalizing params other with
  | nil => exact hnames
  | cons key keys ih => exact ih (h.names_congr key hnames)

/-- The values of all names that are still to come may be others, those of no other name. -/
theorem Overwrites.allValues_foldl (h : Overwrites value update) (keys : List String)
    {params : Params} (hcovered : ∀ param ∈ params, param.2 = value ∨ param.1 ∈ keys) :
    AllValues value (keys.foldl update params) := by
  induction keys generalizing params with
  | nil => exact fun param hparam ↦ (hcovered param hparam).resolve_right List.not_mem_nil
  | cons key keys ih =>
    refine ih fun param hparam ↦ ?_
    rcases h.values params key param hparam with rfl | ⟨hmem, hne⟩
    · exact .inl rfl
    · rcases hcovered param hmem with hvalue | hkey
      · exact .inl hvalue
      · exact .inr ((List.mem_cons.1 hkey).resolve_left hne)

theorem Overwrites.foldl_ne_nil (h : Overwrites value update) {keys : List String}
    (hkeys : keys ≠ []) (params : Params) : keys.foldl update params ≠ [] := by
  rw [← List.dropLast_concat_getLast hkeys, List.foldl_append]
  exact h.ne_nil _ _

/-- Overwriting some names that include those of the list leaves the same for any two lists with
the same names. -/
theorem Overwrites.foldl_eq (h : Overwrites value update) {keys : List String}
    {params other : Params} (hnames : names params = names other)
    (hkeys : ∀ name ∈ names params, name ∈ keys) :
    keys.foldl update params = keys.foldl update other := by
  have hcovers : ∀ {params : Params}, (∀ name ∈ names params, name ∈ keys) →
      ∀ param ∈ params, param.2 = value ∨ param.1 ∈ keys := fun hkeys param hparam ↦
    .inr (hkeys param.1 (List.mem_map_of_mem hparam))
  exact eq_of_names_eq (h.names_foldl keys hnames) (h.allValues_foldl keys (hcovers hkeys))
    (h.allValues_foldl keys (hcovers (hnames ▸ hkeys)))

theorem Overwrites.count_foldl_le (h : Overwrites value update) (keys : List String)
    {params : Params} {name : String}
    (hname : (names params).count name ≤ 1 ∨ name ∈ keys) :
    (names (keys.foldl update params)).count name ≤ 1 := by
  induction keys generalizing params with
  | nil => exact hname.resolve_right List.not_mem_nil
  | cons key keys ih =>
    refine ih ?_
    by_cases hkey : name = key
    · subst hkey
      exact .inl (h.count_self params name)
    · rcases hname with hcount | hmem
      · exact .inl ((h.count_other params hkey).trans_le hcount)
      · exact .inr ((List.mem_cons.1 hmem).resolve_left hkey)

/-- After every name has been overwritten, no name is there twice. -/
theorem Overwrites.nodup_foldl (h : Overwrites value update) {keys : List String}
    {params : Params} (hkeys : ∀ name ∈ names params, name ∈ keys) :
    (names (keys.foldl update params)).Nodup := by
  refine List.nodup_iff_count_le_one.2 fun name ↦ h.count_foldl_le keys ?_
  by_cases hname : name ∈ names params
  · exact .inr (hkeys name hname)
  · rw [List.count_eq_zero_of_not_mem hname]
    exact .inl (Nat.zero_le 1)

end Overwrites

/-! ### The two ways to overwrite -/

variable (value : String)

theorem names_deleteParam (params : Params) (name : String) :
    names (deleteParam params name) = (names params).filter fun other ↦ other ≠ name := by
  unfold names deleteParam
  rw [List.filter_map]
  rfl

theorem count_names_deleteParam (params : Params) {name other : String} (h : other ≠ name) :
    (names (deleteParam params name)).count other = (names params).count other := by
  rw [names_deleteParam]
  exact List.count_filter (p := fun o ↦ decide (o ≠ name)) (decide_eq_true h)

theorem name_not_mem_deleteParam (params : Params) (name : String) :
    name ∉ names (deleteParam params name) := by
  rw [names_deleteParam]
  intro h
  exact of_decide_eq_true (List.mem_filter.1 h).2 rfl

theorem deleteParam_of_not_mem {params : Params} {name : String} (h : name ∉ names params) :
    deleteParam params name = params := by
  refine List.filter_eq_self.2 fun param hparam ↦ decide_eq_true fun heq ↦ ?_
  exact h (heq ▸ List.mem_map_of_mem hparam)

theorem overwrites_replaceParam :
    Overwrites value fun params name ↦ replaceParam params name value where
  names_congr name hnames := by
    show names (deleteParam _ name ++ _) = names (deleteParam _ name ++ _)
    unfold names
    rw [List.map_append, List.map_append]
    exact congrArg (· ++ _) ((names_deleteParam _ name).trans
      (hnames ▸ (names_deleteParam _ name).symm))
  count_self params name := by
    have hzero := List.count_eq_zero_of_not_mem (name_not_mem_deleteParam params name)
    show (List.map _ (deleteParam params name ++ [(name, value)])).count name ≤ 1
    rw [List.map_append, List.count_append]
    unfold names at hzero
    rw [hzero]
    simp
  count_other params name other h := by
    have hsame := count_names_deleteParam params h
    show (List.map _ (deleteParam params name ++ [(name, value)])).count other = _
    rw [List.map_append, List.count_append]
    unfold names at hsame
    rw [hsame]
    simp [Ne.symm h, names]
  values params name param hparam := by
    rcases List.mem_append.1 hparam with hmem | hmem
    · exact .inr ⟨(List.mem_filter.1 hmem).1, of_decide_eq_true (List.mem_filter.1 hmem).2⟩
    · exact .inl (List.mem_singleton.1 hmem)
  ne_nil params name h := absurd (List.append_eq_nil_iff.1 h).2 (List.cons_ne_nil _ _)

/-- What `setParam` does to the names. -/
def setName : List String → String → List String
  | [], name => [name]
  | first :: rest, name =>
    if first = name then name :: rest.filter fun other ↦ other ≠ name
    else first :: setName rest name

theorem names_setParam (params : Params) (name : String) :
    names (setParam params name value) = setName (names params) name := by
  induction params with
  | nil => rfl
  | cons param params ih =>
    show names (if _ then _ else _) = if _ then _ else _
    by_cases h : param.1 = name
    · rw [if_pos h, if_pos h]
      exact congrArg (name :: ·) (names_deleteParam params name)
    · rw [if_neg h, if_neg h]
      exact congrArg (param.1 :: ·) ih

theorem count_setName_self (list : List String) (name : String) :
    (setName list name).count name = 1 := by
  induction list with
  | nil => simp [setName]
  | cons first list ih =>
    unfold setName
    by_cases h : first = name
    · rw [if_pos h, List.count_cons_self, List.count_eq_zero_of_not_mem]
      intro hmem
      exact of_decide_eq_true (List.mem_filter.1 hmem).2 rfl
    · rw [if_neg h, List.count_cons_of_ne h, ih]

theorem count_setName_other (list : List String) {name other : String} (hne : other ≠ name) :
    (setName list name).count other = list.count other := by
  induction list with
  | nil => simp [setName, Ne.symm hne]
  | cons first list ih =>
    unfold setName
    by_cases h : first = name
    · rw [if_pos h, h, List.count_cons_of_ne (Ne.symm hne), List.count_cons_of_ne (Ne.symm hne)]
      exact List.count_filter (p := fun o ↦ decide (o ≠ name)) (decide_eq_true hne)
    · rw [if_neg h, List.count_cons, List.count_cons, ih]

theorem overwrites_setParam : Overwrites value fun params name ↦ setParam params name value where
  names_congr name hnames := by
    rw [names_setParam, names_setParam, hnames]
  count_self params name := by
    rw [names_setParam, count_setName_self]
  count_other params name other h := by
    rw [names_setParam, count_setName_other _ h]
  values params name := by
    induction params with
    | nil => exact fun param hparam ↦ .inl (List.mem_singleton.1 hparam)
    | cons first params ih =>
      intro param hparam
      unfold setParam at hparam
      by_cases h : first.1 = name
      · rw [if_pos h] at hparam
        rcases List.mem_cons.1 hparam with rfl | hmem
        · exact .inl rfl
        · exact .inr ⟨List.mem_cons_of_mem _ (List.mem_filter.1 hmem).1,
            of_decide_eq_true (List.mem_filter.1 hmem).2⟩
      · rw [if_neg h] at hparam
        rcases List.mem_cons.1 hparam with rfl | hmem
        · exact .inr ⟨List.mem_cons_self, h⟩
        · exact (ih param hmem).imp_right fun ⟨hrest, hne⟩ ↦ ⟨List.mem_cons_of_mem _ hrest, hne⟩
  ne_nil params name := by
    cases params with
    | nil => exact List.cons_ne_nil _ _
    | cons first params =>
      unfold setParam
      split <;> exact List.cons_ne_nil _ _

/-- Setting a name again changes nothing once it is there once, with the value. -/
theorem setParam_settled {params : Params} {name : String} (hnodup : (names params).Nodup)
    (hvalues : AllValues value params) (hname : name ∈ names params) :
    setParam params name value = params := by
  refine eq_of_names_eq ?_ ?_ hvalues
  · rw [names_setParam]
    generalize names params = list at hnodup hname
    induction list with
    | nil => exact absurd hname List.not_mem_nil
    | cons first list ih =>
      obtain ⟨hfirst, hrest⟩ := List.nodup_cons.1 hnodup
      unfold setName
      by_cases h : first = name
      · rw [if_pos h]
        subst h
        congr 1
        refine List.filter_eq_self.2 fun other hother ↦ decide_eq_true fun heq ↦ ?_
        exact hfirst (heq ▸ hother)
      · rw [if_neg h, ih hrest ((List.mem_cons.1 hname).resolve_left (Ne.symm h))]
  · intro param hparam
    rcases (overwrites_setParam value).values params name param hparam with rfl | ⟨hmem, -⟩
    · rfl
    · exact hvalues param hmem

theorem foldl_setParam_settled {params : Params} (hnodup : (names params).Nodup)
    (hvalues : AllValues value params) {keys : List String} (hkeys : keys ⊆ names params) :
    keys.foldl (fun params name ↦ setParam params name value) params = params := by
  induction keys with
  | nil => rfl
  | cons key keys ih =>
    obtain ⟨hkey, hrest⟩ := List.cons_subset.1 hkeys
    rw [List.foldl_cons, setParam_settled value hnodup hvalues hkey]
    exact ih hrest

/-- Each replacement moves a name to the end, so replacing all of them restores their order. -/
theorem foldl_replaceParam_rotate (keys done : List String) (hnodup : (keys ++ done).Nodup) :
    keys.foldl (fun params name ↦ replaceParam params name value)
        ((keys ++ done).map fun name ↦ (name, value)) =
      (done ++ keys).map fun name ↦ (name, value) := by
  induction keys generalizing done with
  | nil => rw [List.nil_append, List.append_nil, List.foldl_nil]
  | cons key keys ih =>
    have hfresh : key ∉ keys ++ done := (List.nodup_cons.1 hnodup).1
    have hstep : replaceParam ((key :: keys ++ done).map fun name ↦ (name, value)) key value =
        (keys ++ (done ++ [key])).map fun name ↦ (name, value) := by
      have hrest : key ∉ names ((keys ++ done).map fun name ↦ (name, value)) := by
        unfold names
        rw [List.map_map]
        intro hmem
        obtain ⟨name, hname, rfl⟩ := List.mem_map.1 hmem
        exact hfresh hname
      have hdelete := deleteParam_of_not_mem hrest
      have hright : (keys ++ (done ++ [key])).map (fun name ↦ (name, value)) =
          (keys ++ done).map (fun name ↦ (name, value)) ++ [(key, value)] := by
        rw [← List.append_assoc, List.map_append]
        rfl
      rw [hright]
      unfold replaceParam appendParam
      unfold deleteParam at hdelete ⊢
      rw [List.cons_append, List.map_cons, List.filter_cons_of_neg (by simp), hdelete]
    have hrotated : (keys ++ (done ++ [key])).Nodup := by
      rw [← List.append_assoc]
      exact (List.perm_append_singleton key (keys ++ done)).nodup_iff.2 hnodup
    rw [List.foldl_cons, hstep, ih (done ++ [key]) hrotated, List.append_assoc,
      List.singleton_append]

theorem foldl_replaceParam_settled {params : Params} (hnodup : (names params).Nodup)
    (hvalues : AllValues value params) :
    (names params).foldl (fun params name ↦ replaceParam params name value) params = params := by
  have hrotate := foldl_replaceParam_rotate value (names params) [] (by rwa [List.append_nil])
  rw [List.append_nil, List.nil_append, ← eq_map_of_allValues hvalues] at hrotate
  exact hrotate

end WebLens.Lib.FormUrlEncoded
