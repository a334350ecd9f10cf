import Mathlib.Algebra.Order.Ring.Nat
import WebLens.SiteArchive.Shards
import WebLens.StaticClone.SafePaths

/-!
# The packing of a site archive

The write loop keeps an invariant: what was written is what the shards hold, the shards are numbered
from 1 and stay within the budget, and no stream but that of the current shard is open. A run that
ends normally has therefore written every path once, ignoring case, and a run that fails leaves no
stream open.
-/

set_option autoImplicit false
set_option relaxedAutoImplicit false

namespace WebLens.SiteArchive

open Lib Lib.PosixPath
open Lib.Utf8 (ByteString)
open StaticClone

/-! ### Streams -/

/-- No stream is open but that of the current shard. -/
def Writing.OnlyCurrent (s : Writing) : Prop :=
  ∀ i, s.streams[i]? = some .writing → ∃ shard, s.current = some shard ∧ shard.stream = i

/-- No stream is open. -/
def Writing.NoneOpen (s : Writing) : Prop :=
  ∀ stream ∈ s.streams, stream ≠ .writing

variable {s : Writing} {shard : OpenShard}

theorem getElem?_set_writing {streams : List Stream} {i j : ℕ} {stream : Stream}
    (hstream : stream ≠ .writing) (h : (streams.set j stream)[i]? = some .writing) :
    streams[i]? = some .writing ∧ i ≠ j := by
  by_cases heq : j = i
  · subst heq
    rw [List.getElem?_set_self'] at h
    obtain ⟨old, -, hold⟩ := Option.map_eq_some_iff.1 h
    exact absurd hold hstream
  · rw [List.getElem?_set_ne heq] at h
    exact ⟨h, fun h' ↦ heq h'.symm⟩

/-- Once the stream of the current shard is not open any more, no stream is. -/
theorem Writing.OnlyCurrent.noneOpen_set (h : s.OnlyCurrent) (hcurrent : s.current = some shard)
    {stream : Stream} (hstream : stream ≠ .writing) :
    ∀ other ∈ s.streams.set shard.stream stream, other ≠ .writing := by
  rintro other hother rfl
  obtain ⟨i, hi⟩ := List.mem_iff_getElem?.1 hother
  obtain ⟨hwriting, hne⟩ := getElem?_set_writing hstream hi
  obtain ⟨owner, howner, hindex⟩ := h i hwriting
  rw [hcurrent] at howner
  cases howner
  exact hne hindex.symm

theorem Writing.NoneOpen.onlyCurrent (h : s.NoneOpen) : s.OnlyCurrent := by
  intro i hi
  exact absurd rfl (h _ (List.mem_of_getElem? hi))

theorem Writing.OnlyCurrent.noneOpen_of_none (h : s.OnlyCurrent) (hcurrent : s.current = none) :
    s.NoneOpen := by
  rintro stream hstream rfl
  obtain ⟨i, hi⟩ := List.mem_iff_getElem?.1 hstream
  obtain ⟨owner, howner, -⟩ := h i hi
  rw [hcurrent] at howner
  cases howner

/-- The handler of a failure leaves no stream open. -/
theorem Writing.OnlyCurrent.noneOpen_abortShard (h : s.OnlyCurrent) :
    (abortShard s).NoneOpen := by
  unfold abortShard
  cases hcurrent : s.current with
  | none => exact h.noneOpen_of_none hcurrent
  | some shard =>
    dsimp only
    by_cases hwriting : s.streams[shard.stream]? = some .writing
    · rw [if_pos hwriting]
      exact h.noneOpen_set hcurrent (by decide)
    · rw [if_neg hwriting]
      rintro stream hstream rfl
      obtain ⟨i, hi⟩ := List.mem_iff_getElem?.1 hstream
      obtain ⟨owner, howner, hindex⟩ := h i hi
      rw [hcurrent] at howner
      cases howner
      rw [← hindex] at hi
      exact hwriting hi

/-! ### The invariant -/

/-- The shard has as many bytes as its entries are estimated to need, within the budget. -/
structure OpenShard.Fits (env : WriteEnv) (shard : OpenShard) : Prop where
  estimated : shard.inputBytes = (shard.entries.map ZipEntry.estimate).sum
  bounded : shard.inputBytes ≤ env.maxShardBytes

/-- The entries of the closed shards and of the current one. -/
def Writing.entries (s : Writing) : List ZipEntry :=
  s.parts.flatMap (fun part ↦ part.entries) ++ s.current.toList.flatMap OpenShard.entries

/-- What the map of written paths says about an entry. -/
def ZipEntry.record (env : WriteEnv) (entry : ZipEntry) : String × Digest :=
  (lowerCase entry.path, env.sha256 entry.body)

/-- What holds while files are written: `wanted` are the paths and hashes of the files that were
visited, and `pending` the entries that are counted but not yet in a shard. -/
structure Writing.Holds (env : WriteEnv) (wanted : List (String × Digest))
    (pending : List ZipEntry) (s : Writing) : Prop where
  numbers : s.parts.map (fun part ↦ part.shardNumber) = List.range' 1 s.parts.length
  parts : ∀ part ∈ s.parts, part.entries ≠ [] ∧ part.Fits env
  current : ∀ shard, s.current = some shard →
    shard.Fits env ∧ shard.shardNumber = s.parts.length + 1
  streams : s.OnlyCurrent
  written : s.written = (s.entries ++ pending).map (ZipEntry.record env)
  distinct : (s.written.map Prod.fst).Nodup
  wanted : ∀ record, record ∈ s.written ↔ record ∈ wanted
  total : s.totalArchiveInput = ((s.entries ++ pending).map fun entry ↦ entry.body.length).sum
  bounded : s.totalArchiveInput ≤ env.maxArchiveBytes

/-- The invariant between two files: the current shard has a file. -/
structure Writing.Good (env : WriteEnv) (wanted : List (String × Digest)) (s : Writing) : Prop
    extends s.Holds env wanted [] where
  filled : ∀ shard, s.current = some shard → shard.entries ≠ []

variable {env : WriteEnv} {wanted : List (String × Digest)} {pending : List ZipEntry}
  {entry : ZipEntry}

theorem Writing.Good.start : ({} : Writing).Good env [] where
  numbers := rfl
  parts part hpart := by cases hpart
  current shard hshard := by cases hshard
  streams i hi := by cases hi
  written := rfl
  distinct := List.nodup_nil
  wanted record := Iff.rfl
  total := rfl
  bounded := Nat.zero_le _
  filled shard hshard := by cases hshard

/-! ### Closing and opening a shard -/

/-- A current shard with files is closed: the new part has its entries, and no stream is open. -/
theorem closeShard_triple (hfilled : shard.entries ≠ []) :
    Triple (fun s ↦ s.Holds env wanted pending ∧ s.current = some shard) (closeShard env shard)
      (fun s ↦ ({ s with current := none } : Writing).Holds env wanted pending ∧ s.NoneOpen)
      Writing.OnlyCurrent := by
  rintro s ⟨h, hcurrent⟩
  unfold closeShard
  cases harchive : env.archive shard.stream shard.entries with
  | none =>
    refine ⟨fun s' heq ↦ (by cases heq), fun e s' heq ↦ ?_⟩
    cases heq
    exact Writing.NoneOpen.onlyCurrent (h.streams.noneOpen_set hcurrent (by decide))
  | some body =>
    dsimp only
    have hclosed : ∀ other ∈ s.streams.set shard.stream .finished, other ≠ .writing :=
      h.streams.noneOpen_set hcurrent (by decide)
    by_cases hsize : body.length = 0 ∨ env.maxShardBytes < body.length
    · rw [if_pos hsize]
      refine ⟨fun s' heq ↦ (by cases heq), fun e s' heq ↦ ?_⟩
      cases heq
      exact Writing.NoneOpen.onlyCurrent hclosed
    rw [if_neg hsize]
    refine ⟨fun s' heq ↦ ?_, fun e s' heq ↦ (by cases heq)⟩
    cases heq
    obtain ⟨hfits, hnumber⟩ := h.current shard hcurrent
    have hentries : s.entries =
        (s.parts ++ [partOf env shard body]).flatMap fun part ↦ part.entries := by
      unfold Writing.entries
      rw [hcurrent, List.flatMap_append]
      rfl
    refine ⟨⟨?_, ?_, ?_, ?_, ?_, h.distinct, h.wanted, ?_, h.bounded⟩, hclosed⟩
    · show (s.parts ++ [_]).map _ = List.range' 1 (s.parts ++ [_]).length
      rw [List.map_append, h.numbers, List.length_append, List.length_singleton,
        List.range'_concat, List.map_singleton]
      have hlast : (partOf env shard body).shardNumber = 1 + 1 * s.parts.length := by
        show shard.shardNumber = _
        omega
      rw [hlast]
    · intro part hpart
      rcases List.mem_append.1 hpart with hpart | hpart
      · exact h.parts part hpart
      · rw [List.mem_singleton.1 hpart]
        exact ⟨hfilled, hfits⟩
    · intro other hother
      cases hother
    · exact Writing.NoneOpen.onlyCurrent hclosed
    · rw [h.written, hentries]
      show _ = ((s.parts ++ [_]).flatMap _ ++ [] ++ pending).map _
      rw [List.append_nil]
    · rw [h.total, hentries]
      show _ = (((s.parts ++ [_]).flatMap _ ++ [] ++ pending).map _).sum
      rw [List.append_nil]

theorem entries_ne_nil_of_inputBytes (hfits : shard.Fits env) (h : 0 < shard.inputBytes) :
    shard.entries ≠ [] := by
  intro hnil
  rw [hfits.estimated, hnil] at h
  exact absurd h (by decide)

/-- Room for some bytes in the current shard, if there is one. -/
def Writing.HasRoom (env : WriteEnv) (nextBytes : ℕ) (s : Writing) : Prop :=
  ∀ shard, s.current = some shard → shard.inputBytes + nextBytes ≤ env.maxShardBytes

theorem closeFull_triple {nextBytes : ℕ} (hbytes : nextBytes ≤ env.maxShardBytes) :
    Triple (Writing.Holds env wanted pending) (closeFull env nextBytes)
      (fun s ↦ s.Holds env wanted pending ∧ s.HasRoom env nextBytes) Writing.OnlyCurrent := by
  intro s h
  unfold closeFull
  cases hcurrent : s.current with
  | none =>
    refine ⟨fun s' heq ↦ ?_, fun e s' heq ↦ (by cases heq)⟩
    cases heq
    refine ⟨h, fun shard hshard ↦ ?_⟩
    rw [hcurrent] at hshard
    cases hshard
  | some shard =>
    dsimp only
    by_cases hfull : 0 < shard.inputBytes ∧ env.maxShardBytes < shard.inputBytes + nextBytes
    · rw [if_pos hfull]
      have hfilled := entries_ne_nil_of_inputBytes (h.current shard hcurrent).1 hfull.1
      have hclear : Triple
          (fun s ↦ ({ s with current := none } : Writing).Holds env wanted pending ∧ s.NoneOpen)
          (fun s ↦ (.ok { s with current := none } : Except (ArchiveError × Writing) Writing))
          (fun s ↦ s.Holds env wanted pending ∧ s.HasRoom env nextBytes) Writing.OnlyCurrent :=
        Triple.of_ok (fun s : Writing ↦ { s with current := none }) fun s hs ↦ ⟨hs.1, fun shard hshard ↦ by cases hshard⟩
      exact ((closeShard_triple hfilled).bind hclear) s ⟨h, hcurrent⟩
    · rw [if_neg hfull]
      refine ⟨fun s' heq ↦ ?_, fun e s' heq ↦ (by cases heq)⟩
      cases heq
      refine ⟨h, fun other hother ↦ ?_⟩
      rw [hcurrent] at hother
      cases hother
      omega

/-- A shard that was just opened is empty. -/
theorem Writing.Holds.openShard (h : s.Holds env wanted pending) (hcurrent : s.current = none) :
    (openShard env s).Holds env wanted pending := by
  have hentries : (SiteArchive.openShard env s).entries = s.entries := by
    unfold Writing.entries SiteArchive.openShard
    rw [hcurrent]
    rfl
  have hstreams : (SiteArchive.openShard env s).OnlyCurrent := by
    intro i hi
    have hi' : (s.streams ++ [Stream.writing])[i]? = some .writing := hi
    by_cases hlast : i < s.streams.length
    · rw [List.getElem?_append_left hlast] at hi'
      exact absurd rfl (h.streams.noneOpen_of_none hcurrent _ (List.mem_of_getElem? hi'))
    · refine ⟨_, rfl, ?_⟩
      show s.streams.length = i
      have hlength := (List.getElem?_eq_some_iff.1 hi').1
      rw [List.length_append, List.length_singleton] at hlength
      omega
  refine ⟨h.numbers, h.parts, ?_, hstreams, ?_, h.distinct, h.wanted, ?_, h.bounded⟩
  · intro shard hshard
    cases hshard
    exact ⟨⟨rfl, Nat.zero_le _⟩, rfl⟩
  · rw [hentries]
    exact h.written
  · rw [hentries]
    exact h.total

theorem ensureShard_triple {nextBytes : ℕ} :
    Triple (Writing.Holds env wanted pending) (ensureShard env nextBytes)
      (fun s ↦ s.Holds env wanted pending ∧ s.HasRoom env nextBytes) Writing.OnlyCurrent := by
  refine Triple.ite (fun _ ↦ env.maxShardBytes < nextBytes)
    (Triple.of_error id fun s hs ↦ hs.1.streams) ?_
  rintro s ⟨hs, hbytes⟩
  refine (closeFull_triple (Nat.le_of_not_lt hbytes)).bind (Triple.of_ok (openMissing env) ?_) s hs
  rintro s ⟨h, hroom⟩
  unfold openMissing
  cases hcurrent : s.current with
  | none =>
    refine ⟨h.openShard hcurrent, fun shard hshard ↦ ?_⟩
    cases hshard
    show 0 + nextBytes ≤ _
    omega
  | some shard => exact ⟨h, hroom⟩

/-! ### Files -/

theorem addFile_triple :
    Triple (fun s ↦ s.Holds env wanted [entry] ∧ s.HasRoom env entry.estimate)
      (addFile env entry) (Writing.Good env wanted) Writing.OnlyCurrent := by
  rintro s ⟨h, hroom⟩
  unfold addFile
  cases hcurrent : s.current with
  | none =>
    refine ⟨fun s' heq ↦ (by cases heq), fun e s' heq ↦ ?_⟩
    cases heq
    exact h.streams
  | some shard =>
    dsimp only
    by_cases hrejects : env.rejectsEntry entry.path = true
    · rw [if_pos hrejects]
      refine ⟨fun s' heq ↦ (by cases heq), fun e s' heq ↦ ?_⟩
      cases heq
      exact h.streams
    rw [if_neg hrejects]
    refine ⟨fun s' heq ↦ ?_, fun e s' heq ↦ (by cases heq)⟩
    cases heq
    obtain ⟨hfits, hnumber⟩ := h.current shard hcurrent
    have hentries : s.parts.flatMap (fun part ↦ part.entries) ++ [{ shard with
        entries := shard.entries ++ [entry]
        inputBytes := shard.inputBytes + entry.estimate }].flatMap OpenShard.entries ++ [] =
          s.entries ++ [entry] := by
      unfold Writing.entries
      rw [hcurrent, List.append_nil]
      show _ ++ (shard.entries ++ [entry] ++ []) = _ ++ (shard.entries ++ []) ++ [entry]
      rw [List.append_nil, List.append_nil, List.append_assoc]
    refine ⟨⟨h.numbers, h.parts, ?_, ?_, ?_, h.distinct, h.wanted, ?_, h.bounded⟩, ?_⟩
    · intro other hother
      cases hother
      refine ⟨⟨?_, hroom shard hcurrent⟩, hnumber⟩
      show shard.inputBytes + entry.estimate = ((shard.entries ++ [entry]).map _).sum
      rw [List.map_append, List.sum_append, hfits.estimated, List.map_singleton,
        List.sum_singleton]
    · intro i hi
      obtain ⟨owner, howner, hindex⟩ := h.streams i hi
      rw [hcurrent] at howner
      cases howner
      exact ⟨_, rfl, hindex⟩
    · exact h.written.trans (congrArg (List.map (ZipEntry.record env)) hentries.symm)
    · exact h.total.trans (congrArg (fun entries ↦ (List.map
        (fun entry : ZipEntry ↦ entry.body.length) entries).sum) hentries.symm)
    · intro other hother
      cases hother
      exact List.append_ne_nil_of_right_ne_nil _ (List.cons_ne_nil _ _)

theorem writeEntry_triple :
    Triple (fun s ↦ s.Good env wanted ∧ s.written.lookup (lowerCase entry.path) = none)
      (writeEntry env entry) (Writing.Good env (wanted ++ [entry.record env]))
      Writing.OnlyCurrent := by
  rintro s ⟨h, hlookup⟩
  unfold writeEntry
  dsimp only
  by_cases hbudget : env.maxArchiveBytes < s.totalArchiveInput + entry.body.length
  · rw [if_pos hbudget]
    refine ⟨fun s' heq ↦ (by cases heq), fun e s' heq ↦ ?_⟩
    cases heq
    exact h.streams
  rw [if_neg hbudget]
  refine (ensureShard_triple.bind addFile_triple) _ ?_
  refine ⟨h.numbers, h.parts, h.current, h.streams, ?_, ?_, ?_, ?_, Nat.le_of_not_lt hbudget⟩
  · show s.written ++ [_] = (s.entries ++ [entry]).map _
    rw [h.written, List.append_nil, List.map_append]
    rfl
  · show ((s.written ++ [_]).map Prod.fst).Nodup
    rw [List.map_append]
    refine List.nodup_append.2 ⟨h.distinct, List.nodup_singleton _, ?_⟩
    rintro key hkey other hother rfl
    rw [List.map_singleton, List.mem_singleton] at hother
    obtain ⟨record, hrecord, hfst⟩ := List.mem_map.1 hkey
    rw [List.lookup_eq_none_iff] at hlookup
    have hne := hlookup record hrecord
    rw [hfst, hother, bne_self_eq_false] at hne
    cases hne
  · intro record
    show record ∈ s.written ++ [_] ↔ _
    rw [List.mem_append, List.mem_append, h.wanted]
    rfl
  · show s.totalArchiveInput + entry.body.length = ((s.entries ++ [entry]).map _).sum
    rw [h.total, List.append_nil, List.map_append, List.sum_append, List.map_singleton,
      List.sum_singleton]

/-- A file that was written before with the same bytes adds nothing. -/
theorem Writing.Good.concat_of_mem {record : String × Digest} (h : s.Good env wanted)
    (hrecord : record ∈ s.written) : s.Good env (wanted ++ [record]) := by
  refine { h with wanted := fun other ↦ ?_ }
  rw [List.mem_append, List.mem_singleton, ← h.wanted]
  exact (or_iff_left_of_imp fun heq ↦ heq ▸ hrecord).symm

theorem writeOnce_triple (entry : ZipEntry) :
    Triple (Writing.Good env wanted) (writeOnce env entry)
      (Writing.Good env (wanted ++ [entry.record env])) Writing.OnlyCurrent := by
  intro s h
  unfold writeOnce
  cases hlookup : s.written.lookup (lowerCase entry.path) with
  | none => exact writeEntry_triple s ⟨h, hlookup⟩
  | some existing =>
    dsimp only
    by_cases hcollision : existing ≠ env.sha256 entry.body
    · rw [if_pos hcollision]
      refine ⟨fun s' heq ↦ (by cases heq), fun e s' heq ↦ ?_⟩
      cases heq
      exact h.streams
    rw [if_neg hcollision]
    refine ⟨fun s' heq ↦ ?_, fun e s' heq ↦ (by cases heq)⟩
    cases heq
    refine h.concat_of_mem ?_
    unfold ZipEntry.record
    rw [← not_not.1 hcollision]
    obtain ⟨front, rest, heq, -⟩ := List.lookup_eq_some_iff.1 hlookup
    rw [heq]
    exact List.mem_append_right _ (List.mem_cons_self ..)

/-! ### The loops -/

/-- The path and the hash that a file is to be found under. -/
def wantedRecord (env : WriteEnv) (page : RepresentativePage) (file : SiteBundleFile) :
    Option (String × Digest) := do
  let path ← archivePath env page file
  if isAlias env file path = true then none
  else (rewriteFile env page file path).map fun body ↦ (lowerCase path, env.sha256 body)

/-- The paths and hashes that the files of a page are to be found under. -/
def wantedOfPage (env : WriteEnv) (page : RepresentativePage) : List (String × Digest) :=
  page.files.filterMap (wantedRecord env page)

theorem writeFile_triple (page : RepresentativePage) (file : SiteBundleFile) :
    Triple (Writing.Good env wanted) (writeFile env page file)
      (fun s ↦ s.Good env (wanted ++ (wantedRecord env page file).toList) ∧
        ∀ path, archivePath env page file = some path → isAlias env file path = false →
          rewriteFile env page file path ≠ none) Writing.OnlyCurrent := by
  intro s h
  have hreached : ({ s with visited := s.visited + 1 } : Writing).Good env wanted :=
    { h with }
  have herror : ∀ error : ArchiveError, Triple (Writing.Good env wanted)
      (fun s ↦ .error (error, s)) (fun s ↦ s.Good env (wanted ++
        (wantedRecord env page file).toList) ∧ ∀ path, archivePath env page file = some path →
          isAlias env file path = false → rewriteFile env page file path ≠ none)
      Writing.OnlyCurrent := fun error ↦ Triple.of_error id fun s hs ↦ hs.streams
  unfold writeFile
  dsimp only
  by_cases haborted : env.aborted s.visited = true
  · rw [if_pos haborted]
    exact herror .aborted _ hreached
  rw [if_neg haborted]
  cases hpath : archivePath env page file with
  | none =>
    rw [hpath] at herror
    exact herror .invalidPath _ hreached
  | some path =>
    dsimp only
    have hwanted : wantedRecord env page file = if isAlias env file path = true then none
        else (rewriteFile env page file path).map fun body ↦ (lowerCase path, env.sha256 body) := by
      unfold wantedRecord
      rw [hpath]
      rfl
    by_cases halias : isAlias env file path = true
    · rw [if_pos halias] at hwanted ⊢
      refine ⟨fun s' heq ↦ ?_, fun e s' heq ↦ (by cases heq)⟩
      cases heq
      rw [hwanted, Option.toList_none, List.append_nil]
      refine ⟨hreached, fun other hother hnot ↦ ?_⟩
      cases hother
      rw [halias] at hnot
      cases hnot
    rw [if_neg halias] at hwanted ⊢
    cases hbody : rewriteFile env page file path with
    | none =>
      rw [hpath] at herror
      exact herror .rewriteFailed _ hreached
    | some body =>
      rw [hbody, Option.map_some] at hwanted
      rw [hwanted]
      obtain ⟨hok, hfails⟩ := writeOnce_triple (entryOf env file path body) _ hreached
      refine ⟨fun s' heq ↦ ⟨hok s' heq, fun other hother hnot ↦ ?_⟩, hfails⟩
      cases hother
      rw [hbody]
      exact Option.some_ne_none _

/-- Every file that is no alias could be rewritten. -/
def Rewritten (env : WriteEnv) (page : RepresentativePage) (files : List SiteBundleFile) : Prop :=
  ∀ file ∈ files, ∀ path, archivePath env page file = some path →
    isAlias env file path = false → rewriteFile env page file path ≠ none

theorem writePage_triple (page : RepresentativePage) :
    Triple (Writing.Good env wanted) (writePage env page)
      (fun s ↦ s.Good env (wanted ++ wantedOfPage env page) ∧ Rewritten env page page.files)
      Writing.OnlyCurrent := by
  have hloop := Triple.foldlM (fun s file ↦ writeFile env page file s)
    (E := Writing.OnlyCurrent)
    (I := fun done s ↦ s.Good env (wanted ++ done.filterMap (wantedRecord env page)) ∧
      Rewritten env page done) page.files ?_
  · refine hloop.weaken (fun s h ↦ ⟨?_, fun file hfile ↦ (by cases hfile)⟩) (fun s h ↦ h)
      fun s h ↦ h
    rw [List.filterMap_nil, List.append_nil]
    exact h
  · rintro done file rest - s ⟨h, hdone⟩
    obtain ⟨hok, hfails⟩ := writeFile_triple page file s h
    refine ⟨fun s' heq ↦ ?_, hfails⟩
    obtain ⟨hgood, hrewritten⟩ := hok s' heq
    refine ⟨?_, fun other hother ↦ ?_⟩
    · rw [List.filterMap_append, ← List.append_assoc]
      have hlast : [file].filterMap (wantedRecord env page) =
          (wantedRecord env page file).toList := by
        rw [List.filterMap_cons]
        cases wantedRecord env page file <;> rfl
      rw [hlast]
      exact hgood
    · rcases List.mem_append.1 hother with hother | hother
      · exact hdone other hother
      · rw [List.mem_singleton.1 hother]
        exact hrewritten

theorem writePages_triple (pages : List RepresentativePage) :
    Triple (Writing.Good env []) (fun s ↦ pages.foldlM (fun s page ↦ writePage env page s) s)
      (fun s ↦ s.Good env (pages.flatMap (wantedOfPage env)) ∧
        ∀ page ∈ pages, Rewritten env page page.files) Writing.OnlyCurrent := by
  have hloop := Triple.foldlM (fun s page ↦ writePage env page s)
    (E := Writing.OnlyCurrent)
    (I := fun done s ↦ s.Good env (done.flatMap (wantedOfPage env)) ∧
      ∀ page ∈ done, Rewritten env page page.files) pages ?_
  · exact hloop.weaken (fun s h ↦ ⟨h, fun page hpage ↦ (by cases hpage)⟩) (fun s h ↦ h)
      fun s h ↦ h
  · rintro done page rest - s ⟨h, hdone⟩
    obtain ⟨hok, hfails⟩ := writePage_triple page s h
    refine ⟨fun s' heq ↦ ?_, hfails⟩
    obtain ⟨hgood, hrewritten⟩ := hok s' heq
    refine ⟨?_, fun other hother ↦ ?_⟩
    · rw [List.flatMap_append, List.flatMap_singleton]
      exact hgood
    · rcases List.mem_append.1 hother with hother | hother
      · exact hdone other hother
      · rw [List.mem_singleton.1 hother]
        exact hrewritten

/-! ### The whole loop -/

/-- The entries of the shards that were written. -/
def Writing.packed (s : Writing) : List ZipEntry :=
  s.parts.flatMap fun part ↦ part.entries

/-- What holds once the last shard is closed. -/
structure Writing.Closed (env : WriteEnv) (wanted : List (String × Digest)) (s : Writing) :
    Prop where
  numbers : s.parts.map (fun part ↦ part.shardNumber) = List.range' 1 s.parts.length
  parts : ∀ part ∈ s.parts, part.entries ≠ [] ∧ part.Fits env
  distinct : (s.packed.map fun entry ↦ lowerCase entry.path).Nodup
  wanted : ∀ record, record ∈ s.packed.map (ZipEntry.record env) ↔ record ∈ wanted
  bounded : (s.packed.map fun entry ↦ entry.body.length).sum ≤ env.maxArchiveBytes
  streams : s.NoneOpen

theorem Writing.Holds.closed (h : ({ s with current := none } : Writing).Holds env wanted [])
    (hstreams : s.NoneOpen) : s.Closed env wanted := by
  have hwritten : s.written = s.packed.map (ZipEntry.record env) := by
    have hwritten := h.written
    unfold Writing.entries at hwritten
    rw [List.append_nil] at hwritten
    exact hwritten.trans (congrArg _ (List.append_nil _))
  have htotal : s.totalArchiveInput = (s.packed.map fun entry ↦ entry.body.length).sum := by
    have htotal := h.total
    unfold Writing.entries at htotal
    rw [List.append_nil] at htotal
    exact htotal.trans (congrArg (fun entries ↦ (List.map
      (fun entry : ZipEntry ↦ entry.body.length) entries).sum) (List.append_nil _))
  refine ⟨h.numbers, h.parts, ?_, ?_, ?_, hstreams⟩
  · have hdistinct := h.distinct
    show (s.packed.map _).Nodup
    have hdistinct' : (s.written.map Prod.fst).Nodup := hdistinct
    rw [hwritten, List.map_map] at hdistinct'
    exact hdistinct'
  · intro record
    rw [← hwritten]
    exact h.wanted record
  · rw [← htotal]
    exact h.bounded

theorem closeLast_triple :
    Triple (Writing.Good env wanted) (closeLast env) (Writing.Closed env wanted)
      Writing.OnlyCurrent := by
  intro s h
  unfold closeLast
  cases hcurrent : s.current with
  | none =>
    refine ⟨fun s' heq ↦ ?_, fun e s' heq ↦ (by cases heq)⟩
    cases heq
    refine Writing.Holds.closed ?_ (h.streams.noneOpen_of_none hcurrent)
    have heta : ({ s with current := none } : Writing) = s := by rw [← hcurrent]
    rw [heta]
    exact h.toHolds
  | some shard =>
    obtain ⟨hok, hfails⟩ := closeShard_triple (h.filled shard hcurrent) s ⟨h.toHolds, hcurrent⟩
    refine ⟨fun s' heq ↦ ?_, hfails⟩
    exact Writing.Holds.closed (hok s' heq).1 (hok s' heq).2

theorem writeShards_triple (pages : List RepresentativePage) :
    Triple (Writing.Good env []) (writeShards env pages)
      (fun s ↦ s.Closed env (pages.flatMap (wantedOfPage env)) ∧
        ∀ page ∈ pages, Rewritten env page page.files) Writing.OnlyCurrent := by
  refine (writePages_triple pages).bind (Q := fun s ↦ s.Good env (pages.flatMap
    (wantedOfPage env)) ∧ ∀ page ∈ pages, Rewritten env page page.files) ?_
  rintro s ⟨h, hrewritten⟩
  have hrequire : Triple (Writing.Closed env (pages.flatMap (wantedOfPage env))) requireParts
      (Writing.Closed env (pages.flatMap (wantedOfPage env))) Writing.OnlyCurrent :=
    Triple.ite (fun s : Writing ↦ s.parts.length = 0)
      (Triple.of_error id fun s hs ↦ hs.1.streams.onlyCurrent) (Triple.of_ok id fun s hs ↦ hs.1)
  obtain ⟨hok, hfails⟩ := (closeLast_triple.bind hrequire) s h
  exact ⟨fun s' heq ↦ ⟨hok s' heq, hrewritten⟩, hfails⟩

/-- What a run that ends normally has packed: every path of a file that is no alias is in one shard,
once and with the bytes of the file, where `same` compares two paths. -/
structure Packing (env : WriteEnv) (same : String → String → Bool)
    (pages : List RepresentativePage) (s : Writing) : Prop where
  once : ∀ page ∈ pages, ∀ file ∈ page.files, ∀ path, archivePath env page file = some path →
    isAlias env file path = false →
      s.packed.countP (fun entry ↦ same entry.path path) = 1 ∧
        ∃ body, rewriteFile env page file path = some body ∧
          ∀ entry ∈ s.packed, same entry.path path = true →
            env.sha256 entry.body = env.sha256 body
  numbers : s.parts.map (fun part ↦ part.shardNumber) = List.range' 1 s.parts.length
  filled : ∀ part ∈ s.parts, part.entries ≠ []
  estimated : ∀ part ∈ s.parts, (part.entries.map ZipEntry.estimate).sum ≤ env.maxShardBytes
  bounded : (s.packed.map fun entry ↦ entry.body.length).sum ≤ env.maxArchiveBytes
  streams : s.NoneOpen

/-- Two paths are the same ignoring case. -/
def sameIgnoringCase (left right : String) : Bool :=
  decide (lowerCase left = lowerCase right)

theorem Writing.Closed.packing {pages : List RepresentativePage}
    (h : s.Closed env (pages.flatMap (wantedOfPage env)))
    (hrewritten : ∀ page ∈ pages, Rewritten env page page.files) :
    Packing env sameIgnoringCase pages s := by
  refine ⟨?_, h.numbers, fun part hpart ↦ (h.parts part hpart).1, fun part hpart ↦ ?_, h.bounded,
    h.streams⟩
  · intro page hpage file hfile path hpath halias
    cases hbody : rewriteFile env page file path with
    | none => exact absurd hbody (hrewritten page hpage file hfile path hpath halias)
    | some body =>
      have hrecord : wantedRecord env page file = some (lowerCase path, env.sha256 body) := by
        unfold wantedRecord
        rw [hpath]
        show (if isAlias env file path = true then none else _) = _
        rw [if_neg (Bool.eq_false_iff.1 halias), hbody]
        rfl
      have hmem : (lowerCase path, env.sha256 body) ∈ s.packed.map (ZipEntry.record env) :=
        (h.wanted _).2 (List.mem_flatMap.2 ⟨page, hpage, List.mem_filterMap.2
          ⟨file, hfile, hrecord⟩⟩)
      obtain ⟨entry, hentry, heq⟩ := List.mem_map.1 hmem
      have hpathEq : lowerCase entry.path = lowerCase path := congrArg Prod.fst heq
      have hhash : env.sha256 entry.body = env.sha256 body := congrArg Prod.snd heq
      have hunique : ∀ other ∈ s.packed, lowerCase other.path = lowerCase path →
          other = entry := fun other hother hsame ↦
        List.inj_on_of_nodup_map h.distinct hother hentry (hsame.trans hpathEq.symm)
      refine ⟨?_, body, rfl, fun other hother hsame ↦ ?_⟩
      · have hcount := List.count_eq_one_of_mem h.distinct (List.mem_map_of_mem hentry)
        rw [List.count_eq_countP, List.countP_map] at hcount
        rw [← hcount]
        refine List.countP_congr fun other hother ↦ ?_
        rw [Function.comp_apply, beq_iff_eq, hpathEq]
        exact decide_eq_true_iff
      · rw [hunique other hother (decide_eq_true_iff.1 hsame)]
        exact hhash
  · obtain ⟨-, hfits⟩ := h.parts part hpart
    rw [← hfits.estimated]
    exact hfits.bounded

theorem packing_of_buildShards (env : WriteEnv) (pages : List RepresentativePage) :
    (∀ s, buildShards env pages = .ok s → Packing env sameIgnoringCase pages s) ∧
      ∀ e s, buildShards env pages = .error (e, s) → s.NoneOpen := by
  obtain ⟨hok, hfails⟩ := writeShards_triple pages {} Writing.Good.start
  unfold buildShards
  cases hrun : writeShards env pages {} with
  | ok s =>
    refine ⟨fun s' heq ↦ ?_, fun e s' heq ↦ (by cases heq)⟩
    cases heq
    exact (hok s hrun).1.packing (hok s hrun).2
  | error failed =>
    refine ⟨fun s' heq ↦ (by cases heq), fun e s' heq ↦ ?_⟩
    cases heq
    exact (hfails failed.1 failed.2 hrun).noneOpen_abortShard

/-- A run that ends normally has packed every path once, ignoring case, into shards that are
numbered from 1 and stay within the budgets; a run that fails leaves no stream open. -/
theorem shards_pack (env : WriteEnv) (pages : List RepresentativePage) :
    (∀ s, buildShards env pages = .ok s → Packing env sameIgnoringCase pages s) ∧
      ∀ e s, buildShards env pages = .error (e, s) → s.NoneOpen :=
  packing_of_buildShards env pages

/-! ### Two paths that differ in case -/

/-- An environment in which nothing fails, with shards of 1000 bytes. -/
def WriteEnv.sample : WriteEnv where
  platform := Platform.sample
  sha256 bytes := ⟨Sha256.hex (Sha256.sum bytes), Sha256.hex_sum_ne_empty bytes⟩
  maxShardBytes := 1000
  maxArchiveBytes := 2000
  archiveLabel := "sample"
  resourceAliases := []
  aborted _ := false
  rewriteDocument _ _ body := some body
  rewriteStylesheet _ _ body := some body
  rejectsEntry _ := false
  archive _ entries := some (entries.flatMap ZipEntry.body)

/-- A page with a document and two images, whose paths are given. -/
def RepresentativePage.sample (first second : String) : RepresentativePage where
  localPath := "index.html"
  sourceFinalUrl := "https://example.com/"
  aliases := []
  files := [
    { kind := .document, localPath := "index.html", sourceUrl := "https://example.com/"
      contentType := "text/html", body := [0x3C] },
    { kind := .resource, localPath := first, sourceUrl := "https://example.com/first"
      contentType := "image/png", body := [0x50] },
    { kind := .resource, localPath := second, sourceUrl := "https://example.com/second"
      contentType := "image/png", body := [0x50] }]

/-- The paths that a run has packed. -/
def packedPaths (run : Except (ArchiveError × Writing) Writing) : Option (List String) :=
  run.toOption.map fun s ↦ s.packed.map ZipEntry.path

theorem shards_pack_images :
    ∃ s, buildShards WriteEnv.sample [.sample "assets/1.png" "assets/2.png"] = .ok s ∧
      Packing WriteEnv.sample sameIgnoringCase [.sample "assets/1.png" "assets/2.png"] s := by
  cases hrun : buildShards WriteEnv.sample [.sample "assets/1.png" "assets/2.png"] with
  | ok s => exact ⟨s, rfl, (shards_pack WriteEnv.sample _).1 s hrun⟩
  | error failed =>
    have hpaths : packedPaths (buildShards WriteEnv.sample
        [.sample "assets/1.png" "assets/2.png"]) =
          some ["index.html", "assets/1.png", "assets/2.png"] := by decide +kernel
    rw [hrun] at hpaths
    cases hpaths

/-- `assets/a.png` is not written after `assets/A.png` with the same bytes. -/
theorem case_variant_not_packed :
    ¬ ∀ (env : WriteEnv) (pages : List RepresentativePage) (s : Writing),
      buildShards env pages = .ok s →
        Packing env (fun left right ↦ decide (left = right)) pages s := by
  intro h
  have hpaths : packedPaths (buildShards WriteEnv.sample
      [.sample "assets/A.png" "assets/a.png"]) = some ["index.html", "assets/A.png"] := by
    decide +kernel
  obtain ⟨s, hok, hpacked⟩ := Option.map_eq_some_iff.1 hpaths
  cases hrun : buildShards WriteEnv.sample [.sample "assets/A.png" "assets/a.png"] with
  | error failed =>
    rw [hrun] at hok
    cases hok
  | ok other =>
    rw [hrun] at hok
    cases hok
    have honce := ((h _ _ _ hrun).once _ (List.mem_singleton_self _)
      { kind := .resource, localPath := "assets/a.png", sourceUrl := "https://example.com/second"
        contentType := "image/png", body := [0x50] }
      (List.mem_cons_of_mem _ (List.mem_cons_of_mem _ (List.mem_singleton_self _)))
      "assets/a.png" (by decide +kernel) rfl).1
    have hcount : s.packed.countP (fun entry ↦ decide (entry.path = "assets/a.png")) =
        (s.packed.map ZipEntry.path).countP (fun path ↦ decide (path = "assets/a.png")) :=
      (List.countP_map (p := fun path ↦ decide (path = "assets/a.png"))
        (f := ZipEntry.path)).symm
    rw [hcount, hpacked] at honce
    exact absurd honce (by decide)

end WebLens.SiteArchive
