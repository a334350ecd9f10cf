import WebLens.Lib.FormUrlEncoded
import WebLens.Lib.JsonObject
import WebLens.Lib.Sha256
import WebLens.StaticClone.Rendered

/-!
# The URL redactors

Three functions take the user info, the fragment and the values of the query out of a URL:
`sanitizeUrl` sets every name once, the `redactUrl` of static clones replaces it and the `redactUrl`
of design clones sets it as often as it occurs. On a platform that follows the URL standard, what
each leaves of an http URL depends on its scheme, host, port, path and parameter names only, and
each maps what it left to itself, unless it had to cut it.
-/

set_option autoImplicit false
set_option relaxedAutoImplicit false

namespace WebLens.StaticClone

open Lib Lib.Utf8 Lib.FormUrlEncoded

/-! ### URL records -/

/-- The record of a URL with a host; its components are serialized. -/
structure UrlRecord where
  scheme : String
  username : String := ""
  password : String := ""
  host : String
  port : Option ℕ := none
  path : String
  query : Option (List Char) := none
  fragment : Option String := none
deriving DecidableEq

namespace UrlRecord

def IsHttp (url : UrlRecord) : Prop :=
  url.scheme = "http" ∨ url.scheme = "https"

/-- The user info and the sign behind it. -/
def credentials (url : UrlRecord) : List Char :=
  if url.username = "" ∧ url.password = "" then []
  else url.username.toList ++
    (if url.password = "" then [] else ':' :: url.password.toList) ++ ['@']

/-- The host, the port and the path. -/
def place (url : UrlRecord) : List Char :=
  url.host.toList ++ ((url.port.map fun port ↦ ':' :: (toString port).toList).getD []) ++
    url.path.toList

/-- The query with its sign. -/
def queryText (query : Option (List Char)) : List Char :=
  (query.map fun query ↦ '?' :: query).getD []

/-- The URL serializer. -/
def text (url : UrlRecord) : String :=
  String.ofList (url.scheme.toList ++ "://".toList ++ url.credentials ++ url.place ++
    queryText url.query ++ (url.fragment.map fun fragment ↦ '#' :: fragment.toList).getD [])

/-- The record without user info and fragment. -/
def bare (url : UrlRecord) : UrlRecord :=
  { url with username := "", password := "", fragment := none }

/-- `updateSteps` of the search parameters. -/
def withParams (url : UrlRecord) (params : Params) : UrlRecord :=
  { url with query := if params = [] then none else some (serialize params) }

/-- The records have the same scheme, host, port and path. -/
structure SameLocation (url other : UrlRecord) : Prop where
  scheme : url.scheme = other.scheme
  host : url.host = other.host
  port : url.port = other.port
  path : url.path = other.path

section Params

variable (decode : ByteString → String)

/-- The search parameters of a record. -/
def params (url : UrlRecord) : Params :=
  (url.query.map (parse decode)).getD []

theorem params_withParams {decode : ByteString → String}
    (hdecode : ∀ text, decode (ofText text) = text) (url : UrlRecord) (params : Params) :
    (url.withParams params).params decode = params := by
  unfold withParams UrlRecord.params
  by_cases h : params = []
  · subst h
    rfl
  · simp only [if_neg h, Option.map_some, Option.getD_some, parse_serialize hdecode]

end Params

@[simp]
theorem withParams_withParams (url : UrlRecord) (params other : Params) :
    (url.withParams params).withParams other = url.withParams other := rfl

@[simp]
theorem bare_withParams (url : UrlRecord) (params : Params) :
    (url.withParams params).bare = url.bare.withParams params := rfl

@[simp]
theorem bare_bare (url : UrlRecord) : url.bare.bare = url.bare := rfl

theorem text_bare_withParams_congr {url other : UrlRecord} (h : url.SameLocation other)
    (params : Params) :
    (url.bare.withParams params).text = (other.bare.withParams params).text := by
  unfold text credentials place bare withParams
  simp only [h.scheme, h.host, h.port, h.path]

end UrlRecord

/-- Visible ASCII. -/
def IsVisible (c : Char) : Prop :=
  0x21 ≤ c.toNat ∧ c.toNat ≤ 0x7E

/-- The platform follows the URL standard, as far as the redactors rely on it: what the accessors
and updates do to the record of a URL with scheme `http` or `https`; that the components of a parsed
one are visible ASCII; and that parsing the serialization of such a record, without user info and
fragment, and with its own query or one that the search parameters have written, gives that record
again. -/
structure Whatwg (p : Platform) where
  record : p.Url → UrlRecord
  protocol_eq : ∀ url, p.protocol url = (record url).scheme ++ ":"
  toString_eq : ∀ url, (record url).IsHttp → p.toString url = (record url).text
  setUsername_eq : ∀ url, (record url).IsHttp →
    record (p.setUsername url "") = { record url with username := "" }
  setPassword_eq : ∀ url, (record url).IsHttp →
    record (p.setPassword url "") = { record url with password := "" }
  setHash_eq : ∀ url, (record url).IsHttp →
    record (p.setHash url "") = { record url with fragment := none }
  searchKeys_eq : ∀ url, (record url).IsHttp →
    p.searchKeys url = names ((record url).params p.decodeUtf8)
  setKey_eq : ∀ url name value, (record url).IsHttp → record (p.setKey url name value) =
    (record url).withParams (setParam ((record url).params p.decodeUtf8) name value)
  deleteKey_eq : ∀ url name, (record url).IsHttp → record (p.deleteKey url name) =
    (record url).withParams (deleteParam ((record url).params p.decodeUtf8) name)
  appendKey_eq : ∀ url name value, (record url).IsHttp → record (p.appendKey url name value) =
    (record url).withParams (appendParam ((record url).params p.decodeUtf8) name value)
  visible : ∀ text url, p.newUrl text = some url → (record url).IsHttp →
    ∀ c ∈ (record url).bare.text.toList, IsVisible c
  reparses : ∀ text url, p.newUrl text = some url → (record url).IsHttp →
    ∀ query, (query = (record url).query ∨
      ∃ params, params ≠ [] ∧ query = some (serialize params)) →
    ∃ again, p.newUrl { (record url).bare with query := query }.text = some again ∧
      record again = { (record url).bare with query := query }
  decodeUtf8_eq : ∀ text, p.decodeUtf8 (ofText text) = text
  trim_eq : ∀ text : String, (∀ c ∈ text.toList, IsVisible c) → p.trim text = text

variable {p : Platform}

namespace Whatwg

variable (w : Whatwg p)

/-- The parameters of a URL. -/
def params (url : p.Url) : Params :=
  (w.record url).params p.decodeUtf8

/-- The URL without its user info and its fragment. -/
theorem record_strip {url : p.Url} (h : (w.record url).IsHttp) :
    w.record (p.setHash (p.setPassword (p.setUsername url "") "") "") =
      (w.record url).bare := by
  have husername := w.setUsername_eq url h
  have hpassword := w.setPassword_eq (p.setUsername url "") (by rw [husername]; exact h)
  rw [w.setHash_eq _ (by rw [hpassword, husername]; exact h), hpassword, husername]
  rfl

/-- A step that updates the parameters of a URL does so as often as it is made. -/
theorem record_foldl {step : p.Url → String → p.Url} {update : Params → String → Params}
    (hstep : ∀ url name, (w.record url).IsHttp →
      w.record (step url name) = (w.record url).withParams (update (w.params url) name))
    {keys : List String} (hkeys : keys ≠ []) {url : p.Url} (h : (w.record url).IsHttp) :
    w.record (keys.foldl step url) =
      (w.record url).withParams (keys.foldl update (w.params url)) := by
  induction keys generalizing url with
  | nil => exact absurd rfl hkeys
  | cons key keys ih =>
    have hone := hstep url key h
    by_cases hlast : keys = []
    · rw [hlast]
      exact hone
    · have hhttp : (w.record (step url key)).IsHttp := by
        rw [hone]
        exact h
      have hparams : w.params (step url key) = update (w.params url) key := by
        unfold params
        rw [hone, UrlRecord.params_withParams w.decodeUtf8_eq]
        rfl
      rw [List.foldl_cons, ih hlast hhttp, hone, hparams, UrlRecord.withParams_withParams]
      rfl

theorem setKey_step (url : p.Url) (name : String) (h : (w.record url).IsHttp) :
    w.record (p.setKey url name "[REDACTED]") =
      (w.record url).withParams (setParam (w.params url) name "[REDACTED]") :=
  w.setKey_eq url name "[REDACTED]" h

theorem replaceKey_step (url : p.Url) (name : String) (h : (w.record url).IsHttp) :
    w.record (p.appendKey (p.deleteKey url name) name "[REDACTED]") =
      (w.record url).withParams (replaceParam (w.params url) name "[REDACTED]") := by
  have hdelete := w.deleteKey_eq url name h
  rw [w.appendKey_eq _ name _ (by rw [hdelete]; exact h), hdelete,
    UrlRecord.params_withParams w.decodeUtf8_eq, UrlRecord.withParams_withParams]
  rfl

end Whatwg

/-! ### Redactors -/

/-- A redactor takes the names of the parameters, in some order, and overwrites each of them; with
`keysOf` the choice of names, `step` the update of a URL and `update` that of its parameters. -/
structure Redactor (w : Whatwg p) (keysOf : List String → List String)
    (step : p.Url → String → p.Url) (update : Params → String → Params) : Prop where
  mem_keysOf : ∀ {list : List String} {name : String}, name ∈ keysOf list ↔ name ∈ list
  step_eq : ∀ url name, (w.record url).IsHttp →
    w.record (step url name) = (w.record url).withParams (update (w.params url) name)
  overwrites : Overwrites "[REDACTED]" update
  settled : ∀ {params : Params}, (names params).Nodup → AllValues "[REDACTED]" params →
    (keysOf (names params)).foldl update params = params

/-- The URL without user info and fragment, and with its parameters overwritten. -/
def redactWith (p : Platform) (keysOf : List String → List String)
    (step : p.Url → String → p.Url) (url : p.Url) : p.Url :=
  (keysOf (p.searchKeys (p.setHash (p.setPassword (p.setUsername url "") "") ""))).foldl step
    (p.setHash (p.setPassword (p.setUsername url "") "") "")

namespace Redactor

variable {w : Whatwg p} {keysOf : List String → List String} {step : p.Url → String → p.Url}
  {update : Params → String → Params} (h : Redactor w keysOf step update)

include h

theorem keysOf_eq_nil_iff {list : List String} : keysOf list = [] ↔ list = [] := by
  rw [List.eq_nil_iff_forall_not_mem, List.eq_nil_iff_forall_not_mem]
  exact forall_congr' fun name ↦ not_congr h.mem_keysOf

/-- The record that a redactor leaves. -/
theorem record_redactWith {url : p.Url} (hhttp : (w.record url).IsHttp) :
    w.record (redactWith p keysOf step url) =
      if w.params url = [] then (w.record url).bare
      else (w.record url).bare.withParams
        ((keysOf (names (w.params url))).foldl update (w.params url)) := by
  have hstrip := w.record_strip hhttp
  have hhttp' : (w.record (p.setHash (p.setPassword (p.setUsername url "") "") "")).IsHttp := by
    rw [hstrip]
    exact hhttp
  have hparams : w.params (p.setHash (p.setPassword (p.setUsername url "") "") "") =
      w.params url := by
    unfold Whatwg.params
    rw [hstrip]
    rfl
  have hkeys : p.searchKeys (p.setHash (p.setPassword (p.setUsername url "") "") "") =
      names (w.params url) :=
    (w.searchKeys_eq _ hhttp').trans (congrArg names hparams)
  unfold redactWith
  rw [hkeys]
  by_cases hnil : w.params url = []
  · have hnone : keysOf (names (w.params url)) = [] := by
      rw [h.keysOf_eq_nil_iff, hnil]
      rfl
    rw [hnone, if_pos hnil, List.foldl_nil, hstrip]
  · have hsome : keysOf (names (w.params url)) ≠ [] := by
      rw [ne_eq, h.keysOf_eq_nil_iff]
      exact fun hnames ↦ hnil (List.map_eq_nil_iff.1 hnames)
    rw [if_neg hnil, w.record_foldl h.step_eq hsome hhttp', hstrip, hparams]

theorem isHttp_redactWith {url : p.Url} (hhttp : (w.record url).IsHttp) :
    (w.record (redactWith p keysOf step url)).IsHttp := by
  rw [h.record_redactWith hhttp]
  split <;> exact hhttp

theorem toString_redactWith {url : p.Url} (hhttp : (w.record url).IsHttp) :
    p.toString (redactWith p keysOf step url) =
      (w.record (redactWith p keysOf step url)).text :=
  w.toString_eq _ (h.isHttp_redactWith hhttp)

/-- What a redactor leaves depends on the location and the names of the parameters only. -/
theorem toString_congr {url other : p.Url} (hhttp : (w.record url).IsHttp)
    (hlocation : (w.record url).SameLocation (w.record other))
    (hnames : names (w.params url) = names (w.params other)) (hne : names (w.params url) ≠ []) :
    p.toString (redactWith p keysOf step url) = p.toString (redactWith p keysOf step other) := by
  have hhttp' : (w.record other).IsHttp := by
    unfold UrlRecord.IsHttp
    rw [← hlocation.scheme]
    exact hhttp
  have hurl : w.params url ≠ [] := fun hnil ↦ hne (by rw [hnil]; rfl)
  have hother : w.params other ≠ [] := fun hnil ↦ hne (by rw [hnames, hnil]; rfl)
  have hsame : (keysOf (names (w.params url))).foldl update (w.params url) =
      (keysOf (names (w.params other))).foldl update (w.params other) := by
    rw [← hnames]
    exact h.overwrites.foldl_eq hnames fun name hname ↦ h.mem_keysOf.2 hname
  rw [h.toString_redactWith hhttp, h.toString_redactWith hhttp', h.record_redactWith hhttp,
    h.record_redactWith hhttp', if_neg hurl, if_neg hother, hsame]
  exact UrlRecord.text_bare_withParams_congr hlocation _

/-- The query that a redactor leaves is the one of the URL or written by the search parameters. -/
theorem query_redactWith {url : p.Url} (hhttp : (w.record url).IsHttp) :
    ∃ query, w.record (redactWith p keysOf step url) =
        { (w.record url).bare with query := query } ∧
      (query = (w.record url).query ∨ ∃ params, params ≠ [] ∧ query = some (serialize params)) := by
  rw [h.record_redactWith hhttp]
  by_cases hnil : w.params url = []
  · rw [if_pos hnil]
    exact ⟨(w.record url).query, rfl, .inl rfl⟩
  · rw [if_neg hnil]
    have hkeys : keysOf (names (w.params url)) ≠ [] := by
      rw [ne_eq, h.keysOf_eq_nil_iff]
      exact fun hnames ↦ hnil (List.map_eq_nil_iff.1 hnames)
    have hne := h.overwrites.foldl_ne_nil hkeys (w.params url)
    refine ⟨_, rfl, .inr ⟨_, hne, ?_⟩⟩
    show (if _ then _ else _) = _
    rw [if_neg hne]

/-- What a redactor leaves is parsed to a URL of which it leaves the same. -/
theorem toString_again {text : String} {url : p.Url} (hurl : p.newUrl text = some url)
    (hhttp : (w.record url).IsHttp) :
    ∃ again, p.newUrl (p.toString (redactWith p keysOf step url)) = some again ∧
      (w.record again).IsHttp ∧
      p.toString (redactWith p keysOf step again) =
        p.toString (redactWith p keysOf step url) := by
  obtain ⟨query, hrecord, hquery⟩ := h.query_redactWith hhttp
  obtain ⟨again, hagain, hsame⟩ := w.reparses text url hurl hhttp query hquery
  rw [← hrecord] at hagain hsame
  have hhttp' : (w.record again).IsHttp := by
    rw [hsame]
    exact h.isHttp_redactWith hhttp
  refine ⟨again, by rw [h.toString_redactWith hhttp]; exact hagain, hhttp', ?_⟩
  rw [h.toString_redactWith hhttp', h.toString_redactWith hhttp, h.record_redactWith hhttp']
  have hleft := h.record_redactWith hhttp
  congr 1
  by_cases hnil : w.params url = []
  · rw [if_pos hnil] at hleft
    have hparams : w.params again = [] := by
      unfold Whatwg.params
      rw [hsame, hleft]
      exact hnil
    rw [if_pos hparams, hsame, hleft, UrlRecord.bare_bare]
  · rw [if_neg hnil] at hleft
    have hkeys : keysOf (names (w.params url)) ≠ [] := by
      rw [ne_eq, h.keysOf_eq_nil_iff]
      exact fun hnames ↦ hnil (List.map_eq_nil_iff.1 hnames)
    have hne := h.overwrites.foldl_ne_nil hkeys (w.params url)
    have hmem : ∀ name ∈ names (w.params url), name ∈ keysOf (names (w.params url)) :=
      fun name hname ↦ h.mem_keysOf.2 hname
    have hparams : w.params again =
        (keysOf (names (w.params url))).foldl update (w.params url) := by
      unfold Whatwg.params
      rw [hsame, hleft, UrlRecord.params_withParams w.decodeUtf8_eq]
      rfl
    have hsettled := h.settled (h.overwrites.nodup_foldl hmem)
      (h.overwrites.allValues_foldl (keysOf (names (w.params url))) fun param hparam ↦
        .inr (hmem param.1 (List.mem_map_of_mem hparam)))
    rw [if_neg (hparams ▸ hne), hparams, hsettled, hsame, hleft, UrlRecord.bare_withParams,
      UrlRecord.bare_bare, UrlRecord.withParams_withParams]

/-- What a redactor leaves is visible ASCII. -/
theorem visible_redactWith {text : String} {url : p.Url} (hurl : p.newUrl text = some url)
    (hhttp : (w.record url).IsHttp) :
    ∀ c ∈ (p.toString (redactWith p keysOf step url)).toList, IsVisible c := by
  have hbare := w.visible text url hurl hhttp
  obtain ⟨query, hrecord, hquery⟩ := h.query_redactWith hhttp
  rw [h.toString_redactWith hhttp, hrecord]
  rcases hquery with rfl | ⟨params, -, rfl⟩
  · exact hbare
  intro c hc
  unfold UrlRecord.text at hbare hc
  rw [String.toList_ofList] at hbare hc
  simp only [List.mem_append] at hbare hc
  rcases hc with ((((hscheme | hslashes) | hcredentials) | hplace) | hquery) | hfragment
  · exact hbare c (.inl (.inl (.inl (.inl (.inl hscheme)))))
  · exact hbare c (.inl (.inl (.inl (.inl (.inr hslashes)))))
  · exact hbare c (.inl (.inl (.inl (.inr hcredentials))))
  · exact hbare c (.inl (.inl (.inr hplace)))
  · rcases List.mem_cons.1 hquery with rfl | hmem
    · exact ⟨by decide, by decide⟩
    · have hchar := isQueryChar_serialize hmem
      unfold isQueryChar isEncoded at hchar
      simp only [Bool.or_eq_true, Bool.and_eq_true, decide_eq_true_eq, beq_iff_eq] at hchar
      rcases hchar with (⟨⟨hlow, hhigh⟩, -⟩ | rfl) | rfl
      · exact ⟨hlow, hhigh⟩
      · exact ⟨by decide, by decide⟩
      · exact ⟨by decide, by decide⟩
  · exact absurd hfragment List.not_mem_nil

end Redactor

/-! ### The three redactors -/

theorem redactor_sanitizeUrl (w : Whatwg p) :
    Redactor w List.eraseDups (fun url key ↦ p.setKey url key "[REDACTED]")
      (fun params name ↦ setParam params name "[REDACTED]") where
  mem_keysOf := List.mem_eraseDups
  step_eq := w.setKey_step
  overwrites := overwrites_setParam "[REDACTED]"
  settled hnodup hvalues := foldl_setParam_settled "[REDACTED]" hnodup hvalues
    fun _ hname ↦ List.mem_eraseDups.1 hname

theorem redactor_redactUrl (w : Whatwg p) :
    Redactor w id (fun url key ↦ p.appendKey (p.deleteKey url key) key "[REDACTED]")
      (fun params name ↦ replaceParam params name "[REDACTED]") where
  mem_keysOf := Iff.rfl
  step_eq := w.replaceKey_step
  overwrites := overwrites_replaceParam "[REDACTED]"
  settled := foldl_replaceParam_settled "[REDACTED]"

theorem redactor_designRedactUrl (w : Whatwg p) :
    Redactor w id (fun url key ↦ p.setKey url key "[REDACTED]")
      (fun params name ↦ setParam params name "[REDACTED]") where
  mem_keysOf := Iff.rfl
  step_eq := w.setKey_step
  overwrites := overwrites_setParam "[REDACTED]"
  settled hnodup hvalues := foldl_setParam_settled "[REDACTED]" hnodup hvalues
    (List.Subset.refl _)

theorem sanitizeUrl_eq {text : String} {url : p.Url} (hurl : p.newUrl text = some url) :
    sanitizeUrl p text = capText p (p.toString (redactWith p List.eraseDups
      (fun url key ↦ p.setKey url key "[REDACTED]") url)) 8192 := by
  unfold sanitizeUrl
  rw [hurl]
  rfl

theorem redactUrl_eq (w : Whatwg p) {text : String} {url : p.Url}
    (hurl : p.newUrl text = some url) (hhttp : (w.record url).IsHttp) :
    redactUrl p text = String.ofList ((p.toString (redactWith p id
      (fun url key ↦ p.appendKey (p.deleteKey url key) key "[REDACTED]") url)).toList.take 8192) := by
  have hprotocol : ¬ (p.protocol url ≠ "http:" ∧ p.protocol url ≠ "https:") := by
    rw [w.protocol_eq]
    rintro ⟨hne, hne'⟩
    rcases hhttp with h | h
    · exact hne (by rw [h]; rfl)
    · exact hne' (by rw [h]; rfl)
  unfold redactUrl
  rw [hurl]
  simp only [if_neg hprotocol]
  rfl

theorem designRedactUrl_eq {text : String} {url : p.Url} (hurl : p.newUrl text = some url) :
    SiteClone.Design.redactUrl p.toPlatform text = p.toString (redactWith p id
      (fun url key ↦ p.setKey url key "[REDACTED]") url) := by
  unfold SiteClone.Design.redactUrl
  rw [hurl]
  rfl

/-! ### Cuts -/

theorem utf8EncodeChar_of_visible {c : Char} (h : IsVisible c) :
    String.utf8EncodeChar c = [c.toNat.toUInt8] := by
  have hascii : c.val.toNat ≤ 0x7F := h.2.trans (by decide)
  unfold String.utf8EncodeChar
  rw [if_pos hascii]
  rfl

theorem ofText_of_visible {text : String} (h : ∀ c ∈ text.toList, IsVisible c) :
    ofText text = text.toList.map fun c ↦ c.toNat.toUInt8 := by
  unfold ofText
  generalize text.toList = chars at h
  induction chars with
  | nil => rfl
  | cons c chars ih =>
    rw [List.flatMap_cons, utf8EncodeChar_of_visible (h c List.mem_cons_self),
      ih fun other hother ↦ h other (List.mem_cons_of_mem _ hother)]
    rfl

/-- A text of visible ASCII that comes out shorter than the limit is not cut. -/
theorem capText_of_visible (w : Whatwg p) {text : String} (h : ∀ c ∈ text.toList, IsVisible c)
    {bytes : ℕ} (hshort : (ofText (capText p text bytes)).length < bytes) :
    capText p text bytes = text := by
  unfold capText at hshort ⊢
  rw [w.trim_eq text h] at hshort ⊢
  by_cases hfits : (ofText text).length ≤ bytes
  · simp only [if_pos hfits]
    exact w.decodeUtf8_eq text
  simp only [if_neg hfits] at hshort
  have htake : ∀ c ∈ (String.ofList (text.toList.take bytes)).toList, IsVisible c := by
    intro c hc
    rw [String.toList_ofList] at hc
    exact h c (List.mem_of_mem_take hc)
  have hcut : (ofText text).take bytes = ofText (String.ofList (text.toList.take bytes)) := by
    rw [ofText_of_visible h, ofText_of_visible htake, String.toList_ofList, List.map_take]
  have hlast : (text.toList.take bytes).getLast? ≠ some '\uFFFD' := by
    intro hlast
    have hvisible := h _ (List.mem_of_mem_take (List.mem_of_getLast? hlast))
    exact absurd hvisible.2 (by decide)
  rw [hcut, w.decodeUtf8_eq, String.toList_ofList, if_neg hlast, ← hcut, List.length_take]
    at hshort
  omega

/-- A cut text that comes out shorter than the limit is not cut. -/
theorem take_of_short {text : String} {bound : ℕ}
    (h : (String.ofList (text.toList.take bound)).toList.length < bound) :
    String.ofList (text.toList.take bound) = text := by
  rw [String.toList_ofList, List.length_take] at h
  rw [List.take_of_length_le (by omega), String.ofList_toList]

/-! ### Redaction -/

/-- The URLs have the same scheme, host, port and path, and the same names of parameters. -/
structure Whatwg.Alike (w : Whatwg p) (url other : p.Url) : Prop where
  location : (w.record url).SameLocation (w.record other)
  names_eq : names (w.params url) = names (w.params other)

/-- On a platform that follows the URL standard, each redactor leaves the same of two http URLs with
the same location and names of parameters, of which there is one at least; and each maps what it has
left of an http URL to itself when that is shorter than its limit. -/
theorem redactors_leave_no_value (p : Platform) (w : Whatwg p) {text : String} {url : p.Url}
    (hurl : p.newUrl text = some url) (hhttp : (w.record url).IsHttp) :
    (∀ otherText other, p.newUrl otherText = some other → w.Alike url other →
      names (w.params url) ≠ [] →
        sanitizeUrl p text = sanitizeUrl p otherText ∧ redactUrl p text = redactUrl p otherText ∧
          SiteClone.Design.redactUrl p.toPlatform text =
            SiteClone.Design.redactUrl p.toPlatform otherText) ∧
    ((ofText (sanitizeUrl p text)).length < 8192 →
      sanitizeUrl p (sanitizeUrl p text) = sanitizeUrl p text) ∧
    ((redactUrl p text).toList.length < 8192 →
      redactUrl p (redactUrl p text) = redactUrl p text) ∧
    SiteClone.Design.redactUrl p.toPlatform (SiteClone.Design.redactUrl p.toPlatform text) =
      SiteClone.Design.redactUrl p.toPlatform text := by
  refine ⟨?_, ?_, ?_, ?_⟩
  · intro otherText other hother halike hne
    have hhttp' : (w.record other).IsHttp := by
      unfold UrlRecord.IsHttp
      rw [← halike.location.scheme]
      exact hhttp
    rw [sanitizeUrl_eq hurl, sanitizeUrl_eq hother, redactUrl_eq w hurl hhttp,
      redactUrl_eq w hother hhttp', designRedactUrl_eq hurl, designRedactUrl_eq hother,
      (redactor_sanitizeUrl w).toString_congr hhttp halike.location halike.names_eq hne,
      (redactor_redactUrl w).toString_congr hhttp halike.location halike.names_eq hne,
      (redactor_designRedactUrl w).toString_congr hhttp halike.location halike.names_eq hne]
    exact ⟨rfl, rfl, rfl⟩
  · intro hshort
    have hvisible := (redactor_sanitizeUrl w).visible_redactWith hurl hhttp
    rw [sanitizeUrl_eq hurl] at hshort
    have huncut := capText_of_visible w hvisible hshort
    obtain ⟨again, hagain, -, hsame⟩ := (redactor_sanitizeUrl w).toString_again hurl hhttp
    rw [sanitizeUrl_eq hurl, huncut, sanitizeUrl_eq hagain, hsame, huncut]
  · intro hshort
    rw [redactUrl_eq w hurl hhttp] at hshort
    have huncut := take_of_short hshort
    obtain ⟨again, hagain, hhttp', hsame⟩ := (redactor_redactUrl w).toString_again hurl hhttp
    rw [redactUrl_eq w hurl hhttp, huncut, redactUrl_eq w hagain hhttp', hsame, huncut]
  · obtain ⟨again, hagain, -, hsame⟩ := (redactor_designRedactUrl w).toString_again hurl hhttp
    rw [designRedactUrl_eq hurl, designRedactUrl_eq hagain, hsame]

/-! ### Two queries -/

/-- The characters of a query that the parser below takes. -/
def isVisibleQuery (c : Char) : Bool :=
  decide (0x21 ≤ c.toNat) && decide (c.toNat ≤ 0x7E) && decide (c ≠ '#')

/-- The record of a URL `https://example.com/?…`, whose query is visible ASCII. -/
@[irreducible] def parseQueryUrl (text : String) : Option UrlRecord :=
  if text.toList.take 21 = "https://example.com/?".toList ∧
      (text.toList.drop 21).all isVisibleQuery = true then
    some {
      scheme := "https", host := "example.com", path := "/", query := some (text.toList.drop 21) }
  else none

/-- A platform whose URLs are those of `https://example.com/` with a query. -/
def Platform.query : Platform where
  Url := UrlRecord
  newUrl := parseQueryUrl
  newUrlFrom text _ := parseQueryUrl text
  toString := UrlRecord.text
  protocol url := url.scheme ++ ":"
  origin url := url.scheme ++ "://" ++ url.host
  pathname url := url.path
  search url := String.ofList (UrlRecord.queryText url.query)
  setUsername url text := { url with username := text }
  setPassword url text := { url with password := text }
  setHash url text := { url with fragment := if text = "" then none else some text }
  setPathname url text := { url with path := text }
  setSearch url text := { url with query := some text.toList }
  searchKeys url := names (url.params Json.readText)
  deleteKey url name := url.withParams (deleteParam (url.params Json.readText) name)
  setKey url name value := url.withParams (setParam (url.params Json.readText) name value)
  sortKeys url := url
  test _ _ := false
  localeCompare left right := compare left right
  languageName _ := some none
  toLowerCase text := text
  trim text := String.ofList (trimSpaces text.toList)
  host url := url.host
  username url := url.username
  password url := url.password
  hash url := (url.fragment.map fun fragment ↦ "#" ++ fragment).getD ""
  appendKey url name value := url.withParams (appendParam (url.params Json.readText) name value)
  normalizeNfc text := text
  decodeUriComponent text := some text
  decodeUtf8 := Json.readText
  sha256 bytes := Sha256.hex (Sha256.sum bytes)

theorem parseQueryUrl_eq_some {text : String} {url : UrlRecord}
    (h : parseQueryUrl text = some url) : ∃ query, query.all isVisibleQuery = true ∧
      url = { scheme := "https", host := "example.com", path := "/", query := some query } := by
  unfold parseQueryUrl at h
  split at h
  · rename_i hparsed
    exact ⟨_, hparsed.2, (Option.some.inj h).symm⟩
  · exact absurd h (by simp)

theorem toList_text_query (query : List Char) :
    ({ scheme := "https", host := "example.com", path := "/", query := some query } :
      UrlRecord).text.toList = "https://example.com/?".toList ++ query := by
  unfold UrlRecord.text UrlRecord.credentials UrlRecord.place UrlRecord.queryText
  rw [String.toList_ofList]
  simp

theorem parseQueryUrl_text {query : List Char} (h : query.all isVisibleQuery = true) :
    parseQueryUrl
        ({ scheme := "https", host := "example.com", path := "/", query := some query } :
          UrlRecord).text =
      some { scheme := "https", host := "example.com", path := "/", query := some query } := by
  have hlength : "https://example.com/?".toList.length = 21 := by decide +kernel
  have htake : ("https://example.com/?".toList ++ query).take 21 =
      "https://example.com/?".toList := by
    rw [← hlength]
    exact List.take_left
  have hdrop : ("https://example.com/?".toList ++ query).drop 21 = query := by
    rw [← hlength]
    exact List.drop_left
  unfold parseQueryUrl
  rw [toList_text_query, htake, hdrop, if_pos ⟨rfl, h⟩]

theorem all_isVisibleQuery_serialize (params : Params) :
    (serialize params).all isVisibleQuery = true := by
  refine List.all_eq_true.2 fun c hc ↦ ?_
  have hchar := isQueryChar_serialize hc
  unfold isQueryChar at hchar
  rcases Bool.or_eq_true_iff.1 hchar with h | h
  · rcases Bool.or_eq_true_iff.1 h with h | h
    · have hsharp := (ne_of_isEncoded h).2.2
      unfold isEncoded at h
      unfold isVisibleQuery
      rw [(Bool.and_eq_true_iff.1 h).1, decide_eq_true hsharp]
      rfl
    · rw [beq_iff_eq.1 h]
      decide
  · rw [beq_iff_eq.1 h]
    decide

theorem isSpace_of_isVisible {c : Char} (h : IsVisible c) : isSpace c = false := by
  have hall : ∀ n < 0x7F, 0x21 ≤ n → isSpace (Char.ofNat n) = false := by decide +kernel
  have hc := hall c.toNat (Nat.lt_succ_of_le h.2) h.1
  rwa [Char.ofNat_toNat] at hc

theorem trimSpaces_of_visible {chars : List Char} (h : ∀ c ∈ chars, IsVisible c) :
    trimSpaces chars = chars := by
  have hnone : ∀ list : List Char, (∀ c ∈ list, IsVisible c) → list.dropWhile isSpace = list := by
    intro list hlist
    cases list with
    | nil => rfl
    | cons c list =>
      rw [List.dropWhile_cons_of_neg]
      rw [isSpace_of_isVisible (hlist c List.mem_cons_self)]
      exact Bool.false_ne_true
  unfold trimSpaces List.rdropWhile
  rw [hnone chars h, hnone chars.reverse fun c hc ↦ h c (List.mem_reverse.1 hc),
    List.reverse_reverse]

theorem visible_of_parseQueryUrl {text : String} {url : UrlRecord}
    (h : parseQueryUrl text = some url) : ∀ c ∈ url.bare.text.toList, IsVisible c := by
  obtain ⟨query, hquery, rfl⟩ := parseQueryUrl_eq_some h
  have hplace : "https://example.com/?".toList.all
      (fun c ↦ decide (0x21 ≤ c.toNat) && decide (c.toNat ≤ 0x7E)) = true := by
    decide +kernel
  intro c hc
  have hc : c ∈ "https://example.com/?".toList ++ query := toList_text_query query ▸ hc
  rcases List.mem_append.1 hc with hc | hc
  · have hchar := List.all_eq_true.1 hplace c hc
    rw [Bool.and_eq_true, decide_eq_true_eq, decide_eq_true_eq] at hchar
    exact hchar
  · have hchar := List.all_eq_true.1 hquery c hc
    unfold isVisibleQuery at hchar
    simp only [Bool.and_eq_true, decide_eq_true_eq] at hchar
    exact hchar.1

theorem parseQueryUrl_again : ∀ (text : String) (url : UrlRecord),
    parseQueryUrl text = some url → url.IsHttp → ∀ query, (query = url.query ∨
      ∃ params, params ≠ [] ∧ query = some (serialize params)) →
    ∃ again, parseQueryUrl { url.bare with query := query }.text = some again ∧
      again = { url.bare with query := query } := by
  intro text url h _ query hquery
  obtain ⟨own, hown, rfl⟩ := parseQueryUrl_eq_some h
  rcases hquery with rfl | ⟨params, -, rfl⟩
  · exact ⟨_, parseQueryUrl_text hown, rfl⟩
  · exact ⟨_, parseQueryUrl_text (all_isVisibleQuery_serialize params), rfl⟩

/-- The platform follows the URL standard. -/
def whatwgQuery : Whatwg Platform.query where
  record url := url
  protocol_eq _ := rfl
  toString_eq _ _ := rfl
  setUsername_eq _ _ := rfl
  setPassword_eq _ _ := rfl
  setHash_eq _ _ := rfl
  searchKeys_eq _ _ := rfl
  setKey_eq _ _ _ _ := rfl
  deleteKey_eq _ _ _ := rfl
  appendKey_eq _ _ _ _ := rfl
  visible _ _ hurl _ := visible_of_parseQueryUrl hurl
  reparses := parseQueryUrl_again
  decodeUtf8_eq := Json.readText_ofText
  trim_eq text h := by
    show String.ofList (trimSpaces text.toList) = text
    rw [trimSpaces_of_visible h, String.ofList_toList]

/-- The record of `https://example.com/?token=…`. -/
def tokenUrl (value : List Char) : UrlRecord where
  scheme := "https"
  host := "example.com"
  path := "/"
  query := some ("token=".toList ++ value)

theorem parseQueryUrl_token (value : List Char) (h : value.all isVisibleQuery = true) :
    parseQueryUrl (tokenUrl value).text = some (tokenUrl value) := by
  have hname : "token=".toList.all isVisibleQuery = true := by decide +kernel
  refine parseQueryUrl_text ?_
  rw [List.all_append, hname, h]
  rfl

theorem redactors_leave_no_value_token :
    sanitizeUrl Platform.query (tokenUrl ['1']).text =
        sanitizeUrl Platform.query (tokenUrl ['2', '3']).text ∧
      redactUrl Platform.query (tokenUrl ['1']).text =
        redactUrl Platform.query (tokenUrl ['2', '3']).text ∧
      SiteClone.Design.redactUrl Platform.query.toPlatform (tokenUrl ['1']).text =
        SiteClone.Design.redactUrl Platform.query.toPlatform (tokenUrl ['2', '3']).text :=
  (redactors_leave_no_value Platform.query whatwgQuery (parseQueryUrl_token ['1'] (by decide))
    (.inr rfl)).1 (tokenUrl ['2', '3']).text (tokenUrl ['2', '3'])
      (parseQueryUrl_token ['2', '3'] (by decide)) ⟨⟨rfl, rfl, rfl, rfl⟩, by decide +kernel⟩
      (by decide +kernel)

end WebLens.StaticClone
