import Janus.Concurrency.Triple
import Janus.Runner.Execution

/-! The directory of the artifacts on disk: `artifacts.rs`. An upload writes two files, a start
removes the directories that uploads have left incomplete, and a clean-up those that have expired. -/

namespace Janus.Runner

open Janus.Concurrency Janus.Data Janus.Server

structure ArtifactRecord where
  artifactId : String
  sha256 : String
  size : ℕ
  expiresAt : String
  deriving DecidableEq

structure ArtifactCodec where
  toVecPretty : ArtifactRecord → Bytes
  fromSlice : Bytes → Except String ArtifactRecord
  parseFromRfc3339 : String → Except String ℤ

abbrev ArtifactFiles := BTreeMap Bytes

inductive ArtifactEntry
  | file
  | dir (files : ArtifactFiles)

abbrev ArtifactRoot := BTreeMap ArtifactEntry

def ArtifactRoot.dir? (root : ArtifactRoot) (name : String) : Option ArtifactFiles :=
  match root.get name with
  | some (.dir files) => some files
  | _ => none

def ArtifactRoot.read (root : ArtifactRoot) (name file : String) : Option Bytes :=
  (root.dir? name).bind fun files => files.get file

abbrev Lists (root : ArtifactRoot) (listing : List String) : Prop := listing.Perm root.keys

lemma Lists.nodup {root : ArtifactRoot} {listing : List String} (h : Lists root listing) :
    listing.Nodup :=
  (List.Perm.nodup_iff h).mpr OrderedMap.keys_nodup

lemma Lists.mem {root : ArtifactRoot} {listing : List String} (h : Lists root listing)
    {name : String} : name ∈ listing ↔ root.containsKey name = true := by
  rw [List.Perm.mem_iff h]
  simp [OrderedMap.keys, OrderedMap.containsKey]

def artifactPath (rt : Runtime) (artifactId file : String) : String :=
  rt.config.rootDir ++ "/artifacts/" ++ artifactId ++ "/" ++ file

def tempFile (file : String) : String := "." ++ file ++ ".tmp"

inductive ArtifactCall
  | createDirAll (artifactId : String) (writing : Option String)
  | writeTemp (artifactId file : String) (bytes : Bytes)
  | rename (artifactId file : String)

abbrev ArtifactCall.Result : ArtifactCall → Type := fun _ => Unit

structure DiskOutcome where
  fails : Option String := none
  applied : Bool := false
  written : ℕ := 0

abbrev ArtifactTask := Program ArtifactCall ArtifactCall.Result ArtifactError

namespace ArtifactCall

variable (rt : Runtime)

def error : ArtifactCall → String → ArtifactError
  | .createDirAll artifactId none, source =>
    .createDir (rt.config.rootDir ++ "/artifacts/" ++ artifactId) source
  | .createDirAll artifactId (some file), source => .writeFile (artifactPath rt artifactId file) source
  | .writeTemp artifactId file _, source => .writeFile (artifactPath rt artifactId file) source
  | .rename artifactId file, source => .writeFile (artifactPath rt artifactId file) source

def effect : ArtifactCall → ArtifactRoot → Option ArtifactRoot
  | .createDirAll artifactId _, root =>
    match root.get artifactId with
    | some .file => none
    | some (.dir _) => some root
    | none => some (root.insert artifactId (.dir .empty))
  | .writeTemp artifactId file bytes, root =>
    (root.dir? artifactId).map fun files =>
      root.insert artifactId (.dir (files.insert (tempFile file) bytes))
  | .rename artifactId file, root =>
    (root.dir? artifactId).bind fun files => (files.get (tempFile file)).map fun bytes =>
      root.insert artifactId (.dir ((files.remove (tempFile file)).insert file bytes))

def partly : ArtifactCall → ℕ → ArtifactCall
  | .writeTemp artifactId file bytes, written => .writeTemp artifactId file (bytes.take written)
  | c, _ => c

def exec (c : ArtifactCall) (o : DiskOutcome) (root : ArtifactRoot) :
    Except ArtifactError c.Result × ArtifactRoot :=
  match o.fails, c.effect root with
  | none, some root' => (.ok (), root')
  | none, none => (.error (c.error rt "not found"), root)
  | some source, _ =>
    (.error (c.error rt source), match c with
      | .rename _ _ => root
      | c => if o.applied then ((c.partly o.written).effect root).getD root else root)

end ArtifactCall

section

variable (rt : Runtime) (codec : ArtifactCodec)

def atomicWrite (artifactId file : String) (bytes : Bytes) : ArtifactTask Unit := do
  Program.request (.createDirAll artifactId (some file))
  Program.request (.writeTemp artifactId file bytes)
  Program.request (.rename artifactId file)

def storeArtifactBytes (bytes : Bytes) (checksum : Option String) (artifactId : String)
    (expiresAt : Except ArtifactError String) : ArtifactTask ArtifactRecord := do
  Program.done (checkUpload rt bytes checksum)
  let expiresAt ← Program.done expiresAt
  let metadata : ArtifactRecord := ⟨artifactId, rt.sha256Hex bytes, bytes.length, expiresAt⟩
  Program.request (.createDirAll artifactId none)
  atomicWrite artifactId "blob" bytes
  atomicWrite artifactId "metadata.json" (codec.toVecPretty metadata)
  pure metadata

def loadArtifactRecord (root : ArtifactRoot) (artifactId : String) :
    Except ArtifactError ArtifactRecord :=
  match validateArtifactId artifactId with
  | .error error => .error error
  | .ok () =>
    match root.read artifactId "metadata.json" with
    | none => .error (.notFound artifactId)
    | some raw => (codec.fromSlice raw).mapError fun source =>
        .parseMetadata (artifactPath rt artifactId "metadata.json") source

def ArtifactRecord.isExpired (metadata : ArtifactRecord) (now : ℤ) : Except ArtifactError Bool :=
  match codec.parseFromRfc3339 metadata.expiresAt with
  | .error source => .error (.parseExpiry metadata.expiresAt source)
  | .ok expiresAt => .ok (decide (expiresAt ≤ now))

def loadStoredArtifact (root : ArtifactRoot) (artifactId : String) (now : ℤ) :
    Except ArtifactError (ArtifactRecord × Bytes) := do
  let metadata ← loadArtifactRecord rt codec root artifactId
  if ← metadata.isExpired codec now then throw (.notFound artifactId)
  match root.read artifactId "blob" with
  | none => throw (.notFound artifactId)
  | some bytes => pure (metadata, bytes)

def artifactDirIsRecoverable (files : ArtifactFiles) (artifactId : String) : Bool :=
  match files.get "metadata.json" with
  | none => true
  | some raw =>
    match codec.fromSlice raw with
    | .error _ => true
    | .ok metadata =>
      if metadata.artifactId ≠ artifactId then true
      else match files.get "blob" with
        | none => true
        | some blob => decide (metadata.size ≠ blob.length ∨ metadata.sha256 ≠ rt.sha256Hex blob)

def recoverIncompleteArtifacts : ArtifactRoot → List String → ℕ × ArtifactRoot
  | root, [] => (0, root)
  | root, name :: names =>
    match root.dir? name with
    | none => recoverIncompleteArtifacts root names
    | some files =>
      if artifactDirIsRecoverable rt codec files name then
        let recovered := recoverIncompleteArtifacts (root.remove name) names
        (recovered.1 + 1, recovered.2)
      else recoverIncompleteArtifacts root names

def cleanupExpiredArtifacts (now : String → ℤ) :
    ArtifactRoot → List String → Except ArtifactError ℕ × ArtifactRoot
  | root, [] => (.ok 0, root)
  | root, name :: names =>
    match root.dir? name with
    | none => cleanupExpiredArtifacts now root names
    | some _ =>
      match loadArtifactRecord rt codec root name with
      | .error (.notFound _) => cleanupExpiredArtifacts now root names
      | .error error => (.error error, root)
      | .ok metadata =>
        match metadata.isExpired codec (now name) with
        | .error error => (.error error, root)
        | .ok false => cleanupExpiredArtifacts now root names
        | .ok true =>
          let cleaned := cleanupExpiredArtifacts now (root.remove name) names
          (cleaned.1.map fun removed => removed + 1, cleaned.2)

end

end Janus.Runner
