import Rsolve.Lib.Journal
import Rsolve.Lib.Ordered
import Rsolve.Repository.Packages

/-!
# The files of a materialized repository

A project keeps its repository, the committed state and the files of a running transaction in one
directory. Names in that directory are fixed or have a fixed beginning and a nonce. The records of a
state say what the repository holds; a repository is validated against them.
-/
open Keyed Checked Ordered Journal

namespace Rsolve

/-- A file or a directory. -/
inductive Node
  | file (bytes : List UInt8)
  | directory (entries : List (String × Node))

namespace Node

/-- `is_regular_file`. -/
def isFile : Node → Bool
  | .file _ => true
  | .directory _ => false

/-- `is_directory`. -/
def isDirectory : Node → Bool
  | .file _ => false
  | .directory _ => true

/-- The entries of a directory. -/
def entries : Node → List (String × Node)
  | .file _ => []
  | .directory entries => entries

/-- `directory_names`. -/
def names (node : Node) : List String :=
  node.entries.map Prod.fst

/-- The node at a path. -/
def at? : List String → Node → Option Node
  | [], node => some node
  | name :: rest, node => (node.entries.lookup name).bind (at? rest)

/-- Replace the entry of a name, or add one. -/
def setEntry (name : String) (node : Node) : List (String × Node) → List (String × Node)
  | [] => [(name, node)]
  | entry :: rest =>
    if entry.1 = name then (name, node) :: rest else entry :: setEntry name node rest

/-- Put a node at a path, with the directories on the way. -/
def put (new : Node) : List String → Node → Node
  | [], _ => new
  | name :: rest, node =>
    .directory (setEntry name (put new rest ((node.entries.lookup name).getD (.directory [])))
      node.entries)

end Node

/-- The directory `.rsolve` of a project. -/
abbrev Project := OrderedMap String Node

/-- The changes of a project that take effect as a whole. -/
inductive Operation
  /-- Create or replace a node below an entry. -/
  | put (name : String) (path : List String) (node : Node)
  /-- `fs::rename`. -/
  | rename (source target : String)
  /-- `fs::remove_file` and `fs::remove_dir_all`. -/
  | remove (name : String)

/-- The project after a change. -/
def Operation.apply (operation : Operation) (project : Project) : Project :=
  match operation with
  | .put name path node =>
    project.insert name (node.put path ((project.get? name).getD (.directory [])))
  | .rename source target =>
    match project.get? source with
    | none => project
    | some node => (project.erase source).insert target node
  | .remove name => project.erase name

instance : Operates Project Operation := ⟨Operation.apply⟩

/-- `MaterializationMethod`. -/
inductive MaterializationMethod
  | clone
  | copy
deriving DecidableEq

/-- `MaterializationRecord`. -/
structure MaterializationRecord where
  /-- The key of the identity. -/
  identity : String
  /-- The package. -/
  package : String
  /-- The version. -/
  version : String
  /-- The digest of the archive. -/
  artifactSha256 : String
  /-- The length of the archive. -/
  size : Nat
  /-- Where the archive is. -/
  destination : String
  /-- How it came there. -/
  method : MaterializationMethod
deriving DecidableEq

/-- `MaterializationState`. -/
structure MaterializationState where
  /-- The schema. -/
  schemaVersion : Nat
  /-- The digest of the index. -/
  indexSha256 : String
  /-- The records. -/
  records : List MaterializationRecord
deriving DecidableEq

/-- `MaterializationTransaction`. -/
structure MaterializationTransaction where
  /-- The schema. -/
  schemaVersion : Nat
  /-- The digest of the index. -/
  indexSha256 : String
  /-- The name of the state temporary. -/
  stateTemp : String
  /-- The name of the staging directory. -/
  stagingDir : String
  /-- The records. -/
  records : List MaterializationRecord
deriving DecidableEq

/-- `MaterializationError`. Paths are given from `.rsolve`. -/
inductive MaterializationError
  | io (operation : String) (path : List String) (source : String)
  | invalidInput (reason : String)
  | duplicatePackage (package : String)
  | provenanceVersionMismatch (package selected provenance : String)
  | duplicateDestination (path : List String)
  | existingConflict (path : List String)
  | invalidState (path : List String) (reason : String)
  | transactionConflict (path : List String) (reason : String)
  | invalidCacheObject (path reason : String)
  | packages (source : PackagesError)
deriving DecidableEq

/-- The display of a path. -/
def displayPath (path : List String) : String :=
  "/".intercalate (".rsolve" :: path)

/-- The display of the errors that reading a state can have. -/
def MaterializationError.message : MaterializationError → String
  | .io operation path source =>
    "failed to " ++ operation ++ " " ++ displayPath path ++ ": " ++ source
  | .invalidState path reason =>
    "materialization state is invalid at " ++ displayPath path ++ ": " ++ reason
  | _ => ""

/-- How states and transactions are written and read. -/
structure StateFormat where
  /-- `toml::to_string_pretty` of a state. -/
  writeState : MaterializationState → Except String (List UInt8)
  /-- `toml::from_str` of a state. -/
  readState : List UInt8 → Except String MaterializationState
  /-- `toml::to_string_pretty` of a transaction. -/
  writeTransaction : MaterializationTransaction → Except String (List UInt8)
  /-- `toml::from_str` of a transaction. -/
  readTransaction : List UInt8 → Except String MaterializationTransaction

/-- `STATE_NAME`. -/
def stateName : String := "materialization.toml"

/-- `TRANSACTION_NAME`. -/
def transactionName : String := ".materialization.transaction.toml"

/-- `LOCK_NAME`. -/
def lockName : String := "materialization.lock"

/-- `REPOSITORY_NAME`. -/
def repositoryName : String := "repository"

/-- `GITIGNORE_NAME`. -/
def gitignoreName : String := ".gitignore"

/-- `STAGING_PREFIX`. -/
def stagingStart : String := ".repository.partial."

/-- The beginning of the name of a state temporary. -/
def stateTempStart : String := ".materialization.toml.partial."

/-- The beginning of the name of a marker temporary. -/
def markerTempStart : String := ".materialization.transaction.toml.partial."

/-- A text starts with another one. -/
def startsWith (start text : String) : Bool :=
  start.toList.isPrefixOf text.toList

/-- `str::strip_prefix`. -/
def stripStart (start text : String) : Option String :=
  if startsWith start text then some (String.ofList (text.toList.drop start.toList.length)) else none

/-- `partial_paths` — the names with a beginning, in order. -/
def partialPaths (project : Project) (start : String) : List String :=
  project.keys.filter (startsWith start)

/-- `safe_temp_name`. -/
def safeTempName (name start : String) : Bool :=
  !name.isEmpty && !name.toList.contains '/' && !name.toList.contains '\\' &&
    startsWith start name && name != "." && name != ".."

/-- `identity_key`. -/
def Materialization.identityKey (identity : ReleaseIdentity) : String :=
  let name := identity.name.text
  match identity.provenance with
  | .rBasePackage rVersion => "r-base:" ++ name ++ "@" ++ rVersion.raw
  | .registryRelease nspace version =>
    "registry:" ++ nspace.text ++ "::" ++ name ++ "@" ++ version.raw
  | .gitCommit repository commit subdirectory =>
    "git:" ++ repository.text ++ "@" ++ commit.hex ++ ":" ++
      (subdirectory.map RepositorySubdir.text).getD "" ++ "::" ++ name
  | .bioconductorRelease nspace release version =>
    "bioconductor:" ++ nspace.text ++ ":" ++ release.text ++ "::" ++ name ++ "@" ++ version.raw
  | .immutableSource scheme digest =>
    "immutable:" ++ scheme.text ++ ":" ++ digest.text ++ "::" ++ name

/-- `destination_name`. -/
def destinationName (selected : MaterializationArtifact) : String :=
  selected.package.text ++ "_" ++ selected.version.raw ++ ".tar.gz"

/-- The beginning of a destination. -/
def destinationStart : String := "repository/src/contrib/"

/-- `record_for`. -/
def recordFor (selected : MaterializationArtifact) (method : MaterializationMethod) :
    MaterializationRecord where
  identity := Materialization.identityKey selected.identity
  package := selected.package.text
  version := selected.version.raw
  artifactSha256 := selected.artifact.sha256.text
  size := selected.artifact.size
  destination := destinationStart ++ destinationName selected
  method := method

/-- The order of `canonical_artifacts`. -/
def compareArtifacts : MaterializationArtifact → MaterializationArtifact → Ordering :=
  compareLex (compareOn MaterializationArtifact.package)
    (compareLex (compareOn destinationName)
      (compareOn (fun selected => Materialization.identityKey selected.identity)))

/-- `canonical_artifacts`. -/
def canonicalArtifacts (artifacts : List MaterializationArtifact) : List MaterializationArtifact :=
  Sorting.sortBy compareArtifacts artifacts

/-- A record has what an artifact is recorded with, whatever the method. -/
def MaterializationRecord.describes (record : MaterializationRecord)
    (selected : MaterializationArtifact) : Bool :=
  record.identity == Materialization.identityKey selected.identity &&
    record.package == selected.package.text &&
    record.version == selected.version.raw &&
    record.artifactSha256 == selected.artifact.sha256.text &&
    record.size == selected.artifact.size &&
    record.destination == destinationStart ++ destinationName selected

/-- `records_match_requested`. -/
def recordsMatchRequested (records : List MaterializationRecord)
    (requested : List MaterializationArtifact) : Bool :=
  records.length == (canonicalArtifacts requested).length &&
    ((canonicalArtifacts requested).zip records).all (fun pair => pair.2.describes pair.1)

/-- Two lists of names are one set. -/
def SameNames (left right : List String) : Prop :=
  (∀ name ∈ left, name ∈ right) ∧ ∀ name ∈ right, name ∈ left

instance (left right : List String) : Decidable (SameNames left right) :=
  inferInstanceAs (Decidable (_ ∧ _))

section Validation

variable (sha256 : List UInt8 → Sha256Digest)

/-- The check of one record of `validate_repository_contents`. -/
def validateRecord (contribPath : List String) (contrib : Node) (record : MaterializationRecord) :
    Except MaterializationError Unit :=
  match stripStart destinationStart record.destination with
  | none => .error (.transactionConflict contribPath "destination escapes src/contrib")
  | some name =>
    match contrib.at? [name] with
    | some (.file bytes) =>
      ensure (bytes.length = record.size ∧ (sha256 bytes).text = record.artifactSha256)
        (.transactionConflict (contribPath ++ [name]) "artifact digest or size differs")
    | _ => .error (.transactionConflict (contribPath ++ [name]) "destination is not a regular file")

/-- The check of the index of `validate_repository_contents`. -/
def validateIndex (contribPath : List String) (contrib : Node) (indexSha256 : String) :
    Except MaterializationError Unit :=
  match contrib.at? ["PACKAGES"] with
  | some (.file bytes) => ensure ((sha256 bytes).text = indexSha256)
      (.transactionConflict (contribPath ++ ["PACKAGES"]) "PACKAGES digest differs")
  | _ => .error (.transactionConflict (contribPath ++ ["PACKAGES"]) "PACKAGES digest differs")

/-- `validate_repository_contents`. -/
def validateRepositoryContents (path : List String) (repository : Node)
    (records : List MaterializationRecord) (indexSha256 : String) :
    Except MaterializationError Unit :=
  match repository.at? ["src"], repository.at? ["src", "contrib"] with
  | some (.directory src), some (.directory files) => do
    ensure (SameNames repository.names ["src"] ∧ SameNames (Node.directory src).names ["contrib"])
      (.transactionConflict path "repository contains unexpected entries")
    let contribPath := path ++ ["src", "contrib"]
    let contrib := Node.directory files
    let expected := "PACKAGES" ::
      records.filterMap (fun record => stripStart destinationStart record.destination)
    ensure (SameNames contrib.names expected)
      (.transactionConflict contribPath "repository destinations do not match transaction")
    records.forM (validateRecord sha256 contribPath contrib)
    validateIndex sha256 contribPath contrib indexSha256
  | _, _ => .error (.transactionConflict path "repository layout is not src/contrib")

end Validation

end Rsolve
