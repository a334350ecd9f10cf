import Mathlib.Data.List.DropRight
import Mathlib.Data.List.Induction
import Mathlib.Tactic.SplitIfs

/-!
# POSIX paths

Paths are texts, and their segments are the texts between the slashes. The operations are those of
Node's `path.posix`. A path whose segments are all names is `ofSegments` of them: it is its own
normal form, its directory is the path of all names but the last, and the relative path from one
directory to such a path leads back to it.
-/

set_option autoImplicit false
set_option relaxedAutoImplicit false

namespace WebLens.Lib.PosixPath

/-! ### The operations -/

/-- The segments between the slashes. -/
def segments (path : String) : List String :=
  (path.toList.splitOn '/').map String.ofList

/-- The path of the segments. -/
def ofSegments (names : List String) : String :=
  "/".intercalate names

/-- The segments of a normal form with one more segment; `above` says whether the path may climb
above the directory it starts in. -/
def push (above : Bool) (kept : List String) (segment : String) : List String :=
  if segment = "" ∨ segment = "." then kept
  else if segment = ".." then
    if kept.getLast?.all (fun last ↦ decide (last = "..")) = true then
      if above = true then kept ++ [".."] else kept
    else kept.dropLast
  else kept ++ [segment]

def isAbsolute (path : String) : Bool :=
  decide (path.toList.head? = some '/')

def endsInSlash (path : String) : Bool :=
  decide (path.toList.getLast? = some '/')

/-- `posix.normalize`. -/
def normalize (path : String) : String :=
  let kept := (segments path).foldl (push (!isAbsolute path)) []
  if path = "" then "."
  else if kept = [] then
    if isAbsolute path = true then "/" else if endsInSlash path = true then "./" else "."
  else (if isAbsolute path = true then "/" else "") ++ ofSegments kept ++
    (if endsInSlash path = true then "/" else "")

/-- `posix.join`. -/
def join (parts : List String) : String :=
  match parts.filter fun part ↦ decide (part ≠ "") with
  | [] => "."
  | part :: rest => normalize (ofSegments (part :: rest))

/-- `posix.dirname`. -/
def dirname (path : String) : String :=
  let upto := (path.toList.rdropWhile fun c ↦ decide (c = '/')).rdropWhile fun c ↦ decide (c ≠ '/')
  if upto = [] then if isAbsolute path = true then "/" else "."
  else if upto.length = 1 then "/"
  else if isAbsolute path = true ∧ upto.length = 2 then "//"
  else String.ofList upto.dropLast

/-- `posix.basename` of one argument. -/
def basename (path : String) : String :=
  String.ofList ((path.toList.rdropWhile fun c ↦ decide (c = '/')).rtakeWhile fun c ↦
    decide (c ≠ '/'))

/-- `posix.extname`: the last name from its last dot on, unless that dot is its first character. -/
def extname (path : String) : String :=
  let name := (basename path).toList
  if name = ['.', '.'] ∨ (name.rdropWhile fun c ↦ decide (c ≠ '.')).length ≤ 1 then ""
  else String.ofList ('.' :: name.rtakeWhile fun c ↦ decide (c ≠ '.'))

/-- `posix.basename(path, extension)`. -/
def basenameWithout (path extension : String) : String :=
  let name := basename path
  if extension = "" ∨ name = extension ∨ ¬ extension.toList <:+ name.toList then name
  else String.ofList (name.toList.take (name.toList.length - extension.toList.length))

/-- Two lists without their common beginning. -/
def dropCommon : List String → List String → List String × List String
  | first :: firsts, second :: seconds =>
    if first = second then dropCommon firsts seconds else (first :: firsts, second :: seconds)
  | firsts, seconds => (firsts, seconds)

/-- The names that a path leads to from the root directory. -/
def resolve (path : String) : List String :=
  (segments path).foldl (push false) []

/-- `posix.relative`, with the root directory as the working directory. -/
def relative (source target : String) : String :=
  let rest := dropCommon (resolve source) (resolve target)
  ofSegments (rest.1.map (fun _ ↦ "..") ++ rest.2)

/-! ### Paths of names -/

/-- A segment that stands for itself in a normal form. -/
structure IsName (segment : String) : Prop where
  ne_empty : segment ≠ ""
  ne_dot : segment ≠ "."
  ne_dots : segment ≠ ".."
  slash_not_mem : '/' ∉ segment.toList

variable {name : String} {names : List String}

theorem toList_ofSegments (names : List String) :
    (ofSegments names).toList = ['/'].intercalate (names.map String.toList) := by
  unfold ofSegments
  rw [String.toList_intercalate]
  rfl

theorem segments_ofSegments (hne : names ≠ []) (h : ∀ name ∈ names, '/' ∉ name.toList) :
    segments (ofSegments names) = names := by
  have hslash : ∀ chars ∈ names.map String.toList, '/' ∉ chars := by
    intro chars hchars
    obtain ⟨name, hname, rfl⟩ := List.mem_map.1 hchars
    exact h name hname
  have hsplit := List.splitOn_intercalate '/' hslash (by rwa [ne_eq, List.map_eq_nil_iff])
  unfold segments
  rw [toList_ofSegments, hsplit, List.map_map]
  exact (List.map_congr_left fun name _ ↦ String.ofList_toList).trans (List.map_id' _)

theorem ofSegments_segments (path : String) : ofSegments (segments path) = path := by
  rw [← String.toList_inj, toList_ofSegments, segments, List.map_map]
  have hid : (String.toList ∘ String.ofList : List Char → List Char) = id := by
    funext chars
    exact String.toList_ofList
  rw [hid, List.map_id, List.intercalate_splitOn]

theorem ofSegments_singleton : ofSegments [name] = name :=
  String.intercalate_singleton

theorem ofSegments_concat (hne : names ≠ []) :
    ofSegments (names ++ [name]) = ofSegments names ++ "/" ++ name := by
  unfold ofSegments
  rw [String.intercalate_append_of_ne_nil hne (List.cons_ne_nil _ _),
    String.intercalate_singleton]

theorem foldl_push (above : Bool) (h : ∀ name ∈ names, IsName name) (kept : List String) :
    names.foldl (push above) kept = kept ++ names := by
  induction names generalizing kept with
  | nil => exact (List.append_nil kept).symm
  | cons name names ih =>
    have hname : IsName name := h name (List.mem_cons_self ..)
    have hpush : push above kept name = kept ++ [name] := by
      unfold push
      rw [if_neg (not_or.2 ⟨hname.ne_empty, hname.ne_dot⟩), if_neg hname.ne_dots]
    rw [List.foldl_cons, hpush, ih fun other hother ↦ h other (List.mem_cons_of_mem _ hother),
      List.append_assoc, List.singleton_append]

theorem IsName.toList_ne_nil (h : IsName name) : name.toList ≠ [] := by
  intro hnil
  exact h.ne_empty (String.toList_inj.1 hnil)

/-- The characters of a path of names: those of all names but the last, up to a slash, and those of
the last one. -/
theorem exists_toList_ofSegments_concat (names : List String) (name : String) :
    ∃ front, (ofSegments (names ++ [name])).toList = front ++ name.toList ∧
      (front = [] ∧ names = [] ∨
        names ≠ [] ∧ front = (ofSegments names).toList ++ ['/']) := by
  by_cases hnames : names = []
  · refine ⟨[], ?_, .inl ⟨rfl, hnames⟩⟩
    rw [hnames, List.nil_append, ofSegments_singleton, List.nil_append]
  · refine ⟨(ofSegments names).toList ++ ['/'], ?_, .inr ⟨hnames, rfl⟩⟩
    rw [ofSegments_concat hnames, String.toList_append, String.toList_append]
    rfl

theorem IsName.getLast?_toList (h : IsName name) :
    ∃ c, name.toList.getLast? = some c ∧ c ≠ '/' := by
  refine ⟨name.toList.getLast h.toList_ne_nil, List.getLast?_eq_some_getLast _, ?_⟩
  intro hslash
  exact h.slash_not_mem (hslash ▸ List.getLast_mem _)

theorem endsInSlash_ofSegments (hlast : IsName name) :
    endsInSlash (ofSegments (names ++ [name])) = false := by
  obtain ⟨front, htext, -⟩ := exists_toList_ofSegments_concat names name
  obtain ⟨c, hc, hne⟩ := hlast.getLast?_toList
  unfold endsInSlash
  rw [htext, List.getLast?_append, hc]
  exact decide_eq_false fun h ↦ hne (Option.some.inj h)

theorem isAbsolute_ofSegments (h : IsName name) :
    isAbsolute (ofSegments (name :: names)) = false := by
  have hhead : (ofSegments (name :: names)).toList.head? = name.toList.head? := by
    rw [toList_ofSegments, List.map_cons]
    by_cases hnames : names = []
    · rw [hnames, List.map_nil, List.intercalate_singleton]
    · rw [List.intercalate_cons_of_ne_nil (by rwa [ne_eq, List.map_eq_nil_iff]),
        List.append_assoc, List.head?_append_of_ne_nil _ h.toList_ne_nil]
  unfold isAbsolute
  rw [hhead]
  refine decide_eq_false fun hslash ↦ h.slash_not_mem ?_
  exact List.mem_of_head? hslash

theorem ofSegments_ne_empty (h : IsName name) : ofSegments (name :: names) ≠ "" := by
  intro hempty
  have hlist : (ofSegments (name :: names)).toList = [] := by rw [hempty]; rfl
  rw [toList_ofSegments, List.map_cons] at hlist
  by_cases hnames : names = []
  · rw [hnames, List.map_nil, List.intercalate_singleton] at hlist
    exact h.toList_ne_nil hlist
  · rw [List.intercalate_cons_of_ne_nil (by rwa [ne_eq, List.map_eq_nil_iff])] at hlist
    exact h.toList_ne_nil (List.append_eq_nil_iff.1 (List.append_eq_nil_iff.1 hlist).1).1

/-- A path of names is its own normal form. -/
theorem normalize_ofSegments (h : ∀ other ∈ name :: names, IsName other) :
    normalize (ofSegments (name :: names)) = ofSegments (name :: names) := by
  have hname : IsName name := h name (List.mem_cons_self ..)
  have hslash : endsInSlash (ofSegments (name :: names)) = false := by
    rcases List.eq_nil_or_concat (name :: names) with hnil | ⟨front, last, hconcat⟩
    · cases hnil
    · rw [List.concat_eq_append] at hconcat
      rw [hconcat]
      exact endsInSlash_ofSegments (h last (hconcat ▸ List.mem_concat_self))
  unfold normalize
  rw [segments_ofSegments (List.cons_ne_nil _ _) fun other hother ↦ (h other hother).slash_not_mem,
    foldl_push _ h, List.nil_append]
  dsimp only
  rw [if_neg (ofSegments_ne_empty hname), if_neg (List.cons_ne_nil _ _),
    isAbsolute_ofSegments hname, hslash, if_neg Bool.false_ne_true, String.empty_append,
    String.append_empty]

theorem join_names (h : ∀ other ∈ name :: names, IsName other) :
    join (name :: names) = ofSegments (name :: names) := by
  have hfilter : (name :: names).filter (fun part ↦ decide (part ≠ "")) = name :: names :=
    List.filter_eq_self.2 fun other hother ↦ decide_eq_true (h other hother).ne_empty
  unfold join
  rw [hfilter]
  exact normalize_ofSegments h

/-- A directory joined with a name. -/
theorem join_ofSegments (h : ∀ other ∈ names, IsName other) (hne : names ≠ []) (hname : IsName name) :
    join [ofSegments names, name] = ofSegments (names ++ [name]) := by
  obtain ⟨first, rest, rfl⟩ := List.exists_cons_of_ne_nil hne
  have hfilter : [ofSegments (first :: rest), name].filter (fun part ↦ decide (part ≠ "")) =
      [ofSegments (first :: rest), name] := by
    refine List.filter_eq_self.2 fun other hother ↦ decide_eq_true ?_
    rcases List.mem_cons.1 hother with rfl | hother
    · exact ofSegments_ne_empty (h first (List.mem_cons_self ..))
    · rw [List.mem_singleton.1 hother]
      exact hname.ne_empty
  have htext : ofSegments [ofSegments (first :: rest), name] =
      ofSegments (first :: (rest ++ [name])) := by
    have hpair : ofSegments ([ofSegments (first :: rest)] ++ [name]) =
        ofSegments [ofSegments (first :: rest)] ++ "/" ++ name :=
      ofSegments_concat (List.cons_ne_nil _ _)
    rw [← List.cons_append, ofSegments_concat (List.cons_ne_nil _ _)]
    rwa [ofSegments_singleton] at hpair
  unfold join
  rw [hfilter]
  show normalize (ofSegments [ofSegments (first :: rest), name]) = _
  rw [htext, List.cons_append]
  refine normalize_ofSegments fun other hother ↦ ?_
  rw [← List.cons_append, List.mem_append, List.mem_singleton] at hother
  rcases hother with hother | rfl
  · exact h other hother
  · exact hname

/-! ### Directory, name and extension -/

theorem rtakeWhile_append_of_not {α : Type} {p : α → Bool} {front last : List α}
    (hlast : ∀ a ∈ last, p a = true) (hfront : ∀ a ∈ front.getLast?, p a = false) :
    (front ++ last).rtakeWhile p = last := by
  induction last using List.reverseRecOn with
  | nil =>
    rw [List.append_nil]
    by_cases hne : front = []
    · rw [hne]; rfl
    · refine List.rtakeWhile_eq_nil_iff.2 fun hne' ↦ ?_
      rw [hfront _ (List.getLast?_eq_some_getLast hne')]
      exact Bool.false_ne_true
  | append_singleton last a ih =>
    rw [← List.append_assoc, List.rtakeWhile_concat_pos _ _ _
      (hlast a (List.mem_append_right _ (List.mem_singleton_self a))),
      ih fun b hb ↦ hlast b (List.mem_append_left _ hb)]

theorem getLast?_front {front : List Char} {names : List String}
    (h : front = [] ∧ names = [] ∨ names ≠ [] ∧ front = (ofSegments names).toList ++ ['/']) :
    ∀ c ∈ front.getLast?, decide (c ≠ '/') = false := by
  intro c hc
  rcases h with ⟨rfl, -⟩ | ⟨-, rfl⟩
  · cases hc
  · rw [List.getLast?_concat] at hc
    rw [← Option.some.inj hc]
    decide

theorem rdropWhile_slash (hname : IsName name) (front : List Char) :
    ((front ++ name.toList).rdropWhile fun c ↦ decide (c = '/')) = front ++ name.toList := by
  obtain ⟨c, hc, hne⟩ := hname.getLast?_toList
  refine List.rdropWhile_eq_self_iff.2 fun hne' ↦ ?_
  have hlast : (front ++ name.toList).getLast hne' = c := by
    have hsome := List.getLast?_eq_some_getLast hne'
    rw [List.getLast?_append, hc] at hsome
    exact (Option.some.inj hsome).symm
  rw [hlast, decide_eq_true_eq]
  exact hne

theorem basename_ofSegments (hname : IsName name) :
    basename (ofSegments (names ++ [name])) = name := by
  obtain ⟨front, htext, hfront⟩ := exists_toList_ofSegments_concat names name
  unfold basename
  rw [htext, rdropWhile_slash hname, rtakeWhile_append_of_not _ (getLast?_front hfront),
    String.ofList_toList]
  intro c hc
  exact decide_eq_true fun hslash ↦ hname.slash_not_mem (hslash ▸ hc)

theorem rdropWhile_append_of {α : Type} {p : α → Bool} {front last : List α}
    (hlast : ∀ a ∈ last, p a = true) (hfront : ∀ a ∈ front.getLast?, p a = false) :
    (front ++ last).rdropWhile p = front := by
  induction last using List.reverseRecOn with
  | nil =>
    rw [List.append_nil]
    refine List.rdropWhile_eq_self_iff.2 fun hne ↦ ?_
    rw [hfront _ (List.getLast?_eq_some_getLast hne)]
    exact Bool.false_ne_true
  | append_singleton last a ih =>
    rw [← List.append_assoc, List.rdropWhile_concat_pos _ _ _
      (hlast a (List.mem_append_right _ (List.mem_singleton_self a))),
      ih fun b hb ↦ hlast b (List.mem_append_left _ hb)]

/-- The directory of a path of names is the path of all names but the last. -/
theorem dirname_ofSegments (hfirst : ∃ first rest, names = first :: rest ∧ IsName first)
    (hname : IsName name) : dirname (ofSegments (names ++ [name])) = ofSegments names := by
  obtain ⟨first, rest, rfl, hfirst⟩ := hfirst
  obtain ⟨front, htext, hfront⟩ := exists_toList_ofSegments_concat (first :: rest) name
  have hupto : ((front ++ name.toList).rdropWhile fun c ↦ decide (c ≠ '/')) = front := by
    refine rdropWhile_append_of (fun c hc ↦ ?_) (getLast?_front hfront)
    exact decide_eq_true fun hslash ↦ hname.slash_not_mem (hslash ▸ hc)
  have habsolute : isAbsolute (ofSegments (first :: rest ++ [name])) = false :=
    isAbsolute_ofSegments hfirst
  rcases hfront with ⟨-, hnil⟩ | ⟨-, hfront⟩
  · cases hnil
  have hpos : 0 < (ofSegments (first :: rest)).toList.length := by
    rw [List.length_pos_iff]
    exact fun hnil ↦ ofSegments_ne_empty hfirst (String.toList_inj.1 hnil)
  unfold dirname
  rw [htext, rdropWhile_slash hname, hupto, habsolute, hfront]
  dsimp only
  rw [if_neg (List.append_ne_nil_of_right_ne_nil _ (List.cons_ne_nil _ _)),
    if_neg (by rw [List.length_append, List.length_singleton]; omega),
    if_neg (fun h ↦ Bool.false_ne_true h.1), List.dropLast_concat, String.ofList_toList]

theorem dirname_name (hname : IsName name) : dirname name = "." := by
  have hupto : (name.toList.rdropWhile fun c ↦ decide (c ≠ '/')) = [] := by
    refine List.rdropWhile_eq_nil_iff.2 fun c hc ↦ ?_
    exact decide_eq_true fun hslash ↦ hname.slash_not_mem (hslash ▸ hc)
  have habsolute : isAbsolute name = false := by
    have h : isAbsolute (ofSegments [name]) = false := isAbsolute_ofSegments hname
    rwa [ofSegments_singleton] at h
  unfold dirname
  rw [← List.nil_append name.toList, rdropWhile_slash hname, List.nil_append, hupto, habsolute]
  rfl

/-! ### Relative paths -/

theorem resolve_ofSegments (h : ∀ other ∈ names, IsName other) (hne : names ≠ []) :
    resolve (ofSegments names) = names := by
  unfold resolve
  rw [segments_ofSegments hne fun other hother ↦ (h other hother).slash_not_mem, foldl_push _ h,
    List.nil_append]

/-- A common beginning, and what follows it in both lists. -/
theorem exists_dropCommon (first second : List String) :
    ∃ common, first = common ++ (dropCommon first second).1 ∧
      second = common ++ (dropCommon first second).2 := by
  induction first generalizing second with
  | nil => cases second <;> exact ⟨[], rfl, rfl⟩
  | cons a first ih =>
    cases second with
    | nil => exact ⟨[], rfl, rfl⟩
    | cons b second =>
      by_cases hab : a = b
      · obtain ⟨common, hfirst, hsecond⟩ := ih second
        refine ⟨a :: common, ?_, ?_⟩
        · rw [dropCommon, if_pos hab, List.cons_append, ← hfirst]
        · rw [dropCommon, if_pos hab, List.cons_append, ← hsecond, hab]
      · refine ⟨[], ?_, ?_⟩ <;> rw [dropCommon, if_neg hab] <;> rfl

/-- Climbing leads back to a common beginning. -/
theorem foldl_push_climb (common rest : List String) (h : ∀ other ∈ rest, IsName other) :
    (rest.map fun _ ↦ "..").foldl (push false) (common ++ rest) = common := by
  induction rest using List.reverseRecOn with
  | nil => exact List.append_nil common
  | append_singleton rest last ih =>
    have hlast : IsName last := h last List.mem_concat_self
    have hpush : push false (common ++ (rest ++ [last])) ".." = common ++ rest := by
      have hall : (some last).all (fun last ↦ decide (last = "..")) ≠ true := by
        intro hdots
        exact hlast.ne_dots (of_decide_eq_true hdots)
      unfold push
      rw [if_neg (by decide), if_pos rfl, ← List.append_assoc, List.getLast?_concat, if_neg hall,
        List.dropLast_concat]
    have hmap : ((rest ++ [last]).map fun _ ↦ "..") = ".." :: rest.map fun _ ↦ ".." := by
      rw [List.map_append, List.map_const', List.map_singleton, ← List.replicate_succ',
        List.replicate_succ]
    rw [hmap, List.foldl_cons, hpush]
    exact ih fun other hother ↦ h other (List.mem_append_left _ hother)

/-- What a relative path leads to from a directory of names. -/
def follow (directory : List String) (path : String) : List String :=
  (segments path).foldl (push false) directory

/-- The relative path to a path of names leads to it. -/
theorem follow_relative {directory target : List String} {source : String}
    (hsource : resolve source = directory) (hdirectory : ∀ other ∈ directory, IsName other)
    (htarget : ∀ other ∈ target, IsName other) (hne : target ≠ [])
    (hrelative : relative source (ofSegments target) ≠ "") :
    follow directory (relative source (ofSegments target)) = target := by
  obtain ⟨common, hfirst, hsecond⟩ := exists_dropCommon directory target
  unfold follow
  unfold relative at hrelative ⊢
  rw [hsource, resolve_ofSegments htarget hne] at hrelative ⊢
  dsimp only at hrelative ⊢
  have hslash : ∀ other ∈ ((dropCommon directory target).1.map fun _ ↦ "..") ++
      (dropCommon directory target).2, '/' ∉ other.toList := by
    intro other hother
    rcases List.mem_append.1 hother with hother | hother
    · obtain ⟨-, -, rfl⟩ := List.mem_map.1 hother
      decide
    · refine (htarget other ?_).slash_not_mem
      rw [hsecond]
      exact List.mem_append_right _ hother
  have hnames : ((dropCommon directory target).1.map fun _ ↦ "..") ++
      (dropCommon directory target).2 ≠ [] := by
    intro hnil
    rw [hnil] at hrelative
    exact hrelative rfl
  rw [segments_ofSegments hnames hslash, List.foldl_append]
  have hclimb := foldl_push_climb common (dropCommon directory target).1 fun other hother ↦
    hdirectory other (by rw [hfirst]; exact List.mem_append_right _ hother)
  rw [← hfirst] at hclimb
  rw [hclimb, foldl_push _ fun other hother ↦ htarget other
    (by rw [hsecond]; exact List.mem_append_right _ hother), ← hsecond]

end WebLens.Lib.PosixPath
