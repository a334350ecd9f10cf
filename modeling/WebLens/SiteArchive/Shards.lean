import WebLens.Lib.Triple
import WebLens.SiteArchive.Files

/-!
# The shards of a site archive

The write loop of `buildSiteArchives`: the files of the selected pages go into ZIP shards one after
the other. A shard is opened when a file needs one and closed when the next file does not fit. What
the loop observes of the disk, of the streams and of the signal is a parameter, so a file may fail
at any point; a failure keeps the state in which it happened, and the shard that is open is aborted.
-/

set_option autoImplicit false
set_option relaxedAutoImplicit false

namespace WebLens.SiteArchive

open Lib Lib.PosixPath
open Lib.Utf8 (ByteString)
open StaticClone

/-! ### State -/

/-- A hexadecimal digest, which is not the empty text. -/
structure Digest where
  text : String
  nonempty : text ≠ ""
deriving DecidableEq

/-- A selected page: its path in the archive and its files, as they are on the disk. -/
structure RepresentativePage where
  localPath : String
  sourceFinalUrl : String
  aliases : List (String × String)
  files : List SiteBundleFile

/-- `zip.addFile(file.diskPath, path, { compress })`. -/
structure ZipEntry where
  path : String
  body : ByteString
  compress : Bool
deriving DecidableEq

/-- The stream that writes a shard. -/
inductive Stream
  | writing
  | finished
  | destroyed
deriving DecidableEq

/-- `OpenShard`; its stream is numbered in the order of opening. -/
structure OpenShard where
  shardNumber : ℕ
  logicalFilename : String
  stream : ℕ
  entries : List ZipEntry := []
  inputBytes : ℕ := 0
deriving DecidableEq

/-- `SiteArchivePart`, with the shard that it was. -/
structure SiteArchivePart extends OpenShard where
  bytes : ℕ
  sha256Hex : Digest
deriving DecidableEq

/-- The variables of the write loop, and the streams that were opened. -/
structure Writing where
  visited : ℕ := 0
  written : List (String × Digest) := []
  parts : List SiteArchivePart := []
  totalArchiveInput : ℕ := 0
  current : Option OpenShard := none
  streams : List Stream := []

inductive ArchiveError
  | aborted
  | invalidPath
  | rewriteFailed
  | pathCollision
  | archiveBudgetExceeded
  | fileExceedsShardBudget
  | entryRejected
  | streamFailed
  | shardSizeOutOfBounds
  | archiveEmpty
deriving DecidableEq

/-- What the write loop is given, and what it observes. -/
structure WriteEnv where
  platform : Platform
  sha256 : ByteString → Digest
  maxShardBytes : ℕ
  maxArchiveBytes : ℕ
  archiveLabel : String
  resourceAliases : List (String × String)
  /-- Whether the signal is aborted when a file is reached. -/
  aborted : ℕ → Bool
  /-- The document of a page, read from the disk, rewritten for its path and stored. -/
  rewriteDocument : RepresentativePage → String → ByteString → Option ByteString
  /-- A stylesheet, read from the disk, rewritten for its path and stored. -/
  rewriteStylesheet : String → String → ByteString → Option ByteString
  /-- Whether the ZIP writer throws for a path. -/
  rejectsEntry : String → Bool
  /-- The bytes of a shard on the disk once its stream has finished. -/
  archive : ℕ → List ZipEntry → Option ByteString

/-- A part of the loop. -/
abbrev WriteProgram := Program Writing ArchiveError

/-! ### Shards -/

/-- `String(value).padStart(4, '0')`. -/
def padFour (value : ℕ) : String :=
  String.ofList (List.replicate (4 - (toString value).length) '0') ++ toString value

/-- `abortShard`. -/
def abortShard (s : Writing) : Writing :=
  match s.current with
  | none => s
  | some shard =>
    if s.streams[shard.stream]? = some .writing then
      { s with streams := s.streams.set shard.stream .destroyed }
    else s

/-- `openShard`. -/
def openShard (env : WriteEnv) (s : Writing) : Writing :=
  let shardNumber := s.parts.length + 1
  { s with
    current := some {
      shardNumber := shardNumber
      logicalFilename :=
        "weblens-site-clone-" ++ env.archiveLabel ++ ".part-" ++ padFour shardNumber ++ ".zip"
      stream := s.streams.length }
    streams := s.streams ++ [.writing] }

/-- What `closeShard` returns for a shard whose bytes on the disk are those. -/
def partOf (env : WriteEnv) (shard : OpenShard) (body : ByteString) : SiteArchivePart where
  toOpenShard := shard
  bytes := body.length
  sha256Hex := env.sha256 body

/-- `parts.push(await closeShard(shard, maxShardBytes))`. -/
def closeShard (env : WriteEnv) (shard : OpenShard) : WriteProgram := fun s ↦
  match env.archive shard.stream shard.entries with
  | none => .error (.streamFailed, { s with streams := s.streams.set shard.stream .destroyed })
  | some body =>
    let finished := { s with streams := s.streams.set shard.stream .finished }
    if body.length = 0 ∨ env.maxShardBytes < body.length then
      .error (.shardSizeOutOfBounds, finished)
    else .ok { finished with parts := s.parts ++ [partOf env shard body] }

/-- Closes the current shard if some bytes do not fit. -/
def closeFull (env : WriteEnv) (nextBytes : ℕ) : WriteProgram := fun s ↦
  match s.current with
  | none => .ok s
  | some shard =>
    if 0 < shard.inputBytes ∧ env.maxShardBytes < shard.inputBytes + nextBytes then
      closeShard env shard s >>= fun s ↦ .ok { s with current := none }
    else .ok s

/-- Opens a shard if there is none. -/
def openMissing (env : WriteEnv) (s : Writing) : Writing :=
  match s.current with
  | none => openShard env s
  | some _ => s

/-- `ensureShard`. -/
def ensureShard (env : WriteEnv) (nextBytes : ℕ) : WriteProgram := fun s ↦
  if env.maxShardBytes < nextBytes then .error (.fileExceedsShardBudget, s)
  else closeFull env nextBytes s >>= fun s ↦ .ok (openMissing env s)

/-! ### Files -/

/-- The path of a file of a page. -/
def archivePath (env : WriteEnv) (page : RepresentativePage) (file : SiteBundleFile) :
    Option String :=
  safeArchivePath env.platform (if file.kind = .document then page.localPath else file.localPath)

/-- Whether a resource is an alias of another one. -/
def isAlias (env : WriteEnv) (file : SiteBundleFile) (path : String) : Bool :=
  decide (file.kind = .resource) && (env.resourceAliases.lookup (lowerCase path)).isSome

/-- What a file is on the disk once its references are rewritten. -/
def rewriteFile (env : WriteEnv) (page : RepresentativePage) (file : SiteBundleFile)
    (path : String) : Option ByteString :=
  if file.kind = .document then env.rewriteDocument page path file.body
  else if isStylesheet env.platform file.contentType file.localPath = true then
    env.rewriteStylesheet file.contentType path file.body
  else some file.body

/-- The entry of a file. -/
def entryOf (env : WriteEnv) (file : SiteBundleFile) (path : String) (body : ByteString) :
    ZipEntry where
  path := path
  body := body
  compress := shouldCompress env.platform file.contentType path

/-- The bytes that an entry is estimated to need. -/
def ZipEntry.estimate (entry : ZipEntry) : ℕ :=
  entry.body.length + zipEntryOverhead entry.path

/-- `shard.zip.addFile(…)` and `shard.inputBytes += estimatedBytes`. -/
def addFile (env : WriteEnv) (entry : ZipEntry) : WriteProgram := fun s ↦
  match s.current with
  | none => .error (.entryRejected, s)
  | some shard =>
    if env.rejectsEntry entry.path = true then .error (.entryRejected, s)
    else .ok { s with current := some { shard with
      entries := shard.entries ++ [entry]
      inputBytes := shard.inputBytes + entry.estimate } }

/-- Writes an entry whose path was not written before. -/
def writeEntry (env : WriteEnv) (entry : ZipEntry) : WriteProgram := fun s ↦
  let counted := { s with
    written := s.written ++ [(lowerCase entry.path, env.sha256 entry.body)]
    totalArchiveInput := s.totalArchiveInput + entry.body.length }
  if env.maxArchiveBytes < counted.totalArchiveInput then
    .error (.archiveBudgetExceeded, counted)
  else ensureShard env entry.estimate counted >>= addFile env entry

/-- Writes an entry unless a file with the same path and the same bytes was written. -/
def writeOnce (env : WriteEnv) (entry : ZipEntry) : WriteProgram := fun s ↦
  match s.written.lookup (lowerCase entry.path) with
  | some existing =>
    if existing ≠ env.sha256 entry.body then .error (.pathCollision, s) else .ok s
  | none => writeEntry env entry s

/-- One round of the loop over the files of a page. -/
def writeFile (env : WriteEnv) (page : RepresentativePage) (file : SiteBundleFile) :
    WriteProgram := fun s ↦
  let reached := { s with visited := s.visited + 1 }
  if env.aborted s.visited = true then .error (.aborted, reached)
  else match archivePath env page file with
  | none => .error (.invalidPath, reached)
  | some path =>
    if isAlias env file path = true then .ok reached
    else match rewriteFile env page file path with
    | none => .error (.rewriteFailed, reached)
    | some body => writeOnce env (entryOf env file path body) reached

/-- The loop over the files of a page. -/
def writePage (env : WriteEnv) (page : RepresentativePage) : WriteProgram := fun s ↦
  page.files.foldlM (fun s file ↦ writeFile env page file s) s

/-- Closes the last shard. -/
def closeLast (env : WriteEnv) : WriteProgram := fun s ↦
  match s.current with
  | none => .ok s
  | some shard => closeShard env shard s

/-- An archive has a shard. -/
def requireParts : WriteProgram := fun s ↦
  if s.parts.length = 0 then .error (.archiveEmpty, s) else .ok s

/-- The two loops, and what follows them up to the manifest. -/
def writeShards (env : WriteEnv) (pages : List RepresentativePage) : WriteProgram := fun s ↦
  pages.foldlM (fun s page ↦ writePage env page s) s >>= fun s ↦
    closeLast env s >>= requireParts

/-- The write loop of `buildSiteArchives`, with the handler that aborts the shard that is open. -/
def buildShards (env : WriteEnv) (pages : List RepresentativePage) :
    Except (ArchiveError × Writing) Writing :=
  match writeShards env pages {} with
  | .ok s => .ok s
  | .error (e, s) => .error (e, abortShard s)

end WebLens.SiteArchive
