import Mathlib.Data.Rat.Floor
import Rsolve.Core.Version
import Rsolve.Lib.Checked
import Rsolve.Lib.Segments
import Rsolve.Lib.Splitting
import Rsolve.Resolver.DebugTexts

/-!
# The archive history

The index of CRAN's archive lists source archives by path. A path names its package twice, by a
directory and by the file, and is kept relative to the archive directory. Rows of one package are
stored together and are checked again when they are read back. An R object that an external library
reads is given by what the history asks of it.
-/
open Checked Segments Splitting

namespace Rsolve

/-- `f64`, as far as sizes and times are asked: a number, an infinity or neither. -/
inductive Real64
  | notANumber
  | infinite
  | finite (value : ℚ)
deriving DecidableEq, Repr

/-- `RStr::as_str` — a text, unless it is missing or cannot be decoded. -/
abbrev RStr := Option String

/-- `RValue`, over the objects in its lists. -/
inductive RValue (object : Type)
  | list (items : List object)
  | character (values : List RStr)
  | integer (values : List (Option Int))
  | real (values : List (Option Real64))
  | other

/-- `RObject` — a value with the attributes that the history asks for. -/
inductive RObject
  | mk (value : RValue RObject) (names classes : Option (List RStr)) (rowNames : Option RObject)

/-- `RObject::value`. -/
def RObject.value : RObject → RValue RObject
  | mk value _ _ _ => value

/-- `RObject::names`. -/
def RObject.names : RObject → Option (List RStr)
  | mk _ names _ _ => names

/-- `RObject::class`. -/
def RObject.classes : RObject → Option (List RStr)
  | mk _ _ classes _ => classes

/-- The attribute `row.names`. -/
def RObject.rowNames : RObject → Option RObject
  | mk _ _ _ rowNames => rowNames

/-- `ArchiveEntry` — one source archive. -/
structure ArchiveEntry where
  package : PackageName
  version : RPackageVersion
  sourceArchiveRelativePath : String
  size : Nat
  mtime : Int
deriving DecidableEq

/-- `ArchiveHistoryRejection` — a row of a package that gives no candidate. -/
structure ArchiveHistoryRejection where
  packageHint : PackageName
  rawPath : String
  row : Nat
  version : Option RPackageVersion
  reason : String
deriving DecidableEq

/-- `ArchiveHistoryProjection`. -/
structure ArchiveHistoryProjection where
  entries : List ArchiveEntry
  rejections : List ArchiveHistoryRejection
deriving DecidableEq

/-- `ArchivePackagePayload` — what is stored for one package. -/
structure ArchivePackagePayload where
  entries : List ArchiveEntry
  rejections : List ArchiveHistoryRejection
deriving DecidableEq

/-- `CranHistoryError`, as far as a frame raises it. -/
inductive CranHistoryError
  | rootType (expected : String)
  | missingNames
  | notDataFrame
  | invalidColumns
  | missingRowNames
  | rowNameLength
  | invalidString (field : String) (row : Nat)
  | invalidColumnType (field : String)
  | invalidPackage (value : String)
  | invalidArchivePath (value : String)
  | invalidSize (row : Nat)
  | invalidMtime (row : Nat)
deriving DecidableEq, Repr

variable (unprintable : Char → Bool)

/-- `CranHistoryError::fmt`. -/
def CranHistoryError.message : CranHistoryError → String
  | rootType expected => "archive history RDS root is not " ++ expected
  | missingNames => "archive history RDS list has no names"
  | notDataFrame => "archive history item is not a data.frame"
  | invalidColumns => "archive history data.frame has invalid columns"
  | missingRowNames => "archive history data.frame has no row.names"
  | rowNameLength => "archive history row.names have the wrong length"
  | invalidString field row =>
    "archive history " ++ field ++ " value at row " ++ toString row ++ " is not a string"
  | invalidColumnType field => "archive history " ++ field ++ " column has an unsupported type"
  | invalidPackage value => "invalid archive package name " ++ debugText unprintable value
  | invalidArchivePath value => "invalid archive path " ++ debugText unprintable value
  | invalidSize row => "invalid archive size at row " ++ toString row
  | invalidMtime row => "invalid archive mtime at row " ++ toString row

/-- The errors that a rejection of a row may stand for. -/
def CranHistoryError.concernsPath : CranHistoryError → Bool
  | invalidArchivePath _ | invalidPackage _ => true
  | rootType _ | missingNames | notDataFrame | invalidColumns | missingRowNames | rowNameLength
  | invalidString _ _ | invalidColumnType _ | invalidSize _ | invalidMtime _ => false

/-- The directory that archive paths are relative to. -/
def archiveRoot : List String := ["src", "contrib", "Archive"]

/-- No segment of an archive path is empty, a dot segment or one with a mark of a URL. -/
def plainSegments (segments : List String) : Bool :=
  segments.all fun segment =>
    segment ≠ "" && segment ≠ "." && segment ≠ ".." && !segment.toList.any fun character =>
      character == '\\' || character == '?' || character == '#' || character == '%'

/-- The segments behind the archive directory, when the path begins with it. -/
def relativeSegments (segments : List String) : List String :=
  if archiveRoot <+: segments then segments.drop 3 else segments

/-- The first and the last of at least two segments, and whether there are others between them. -/
def packageAndFile : List String → Option (String × Bool × String)
  | first :: second :: rest =>
    some (first, !rest.isEmpty, (second :: rest).getLast (List.cons_ne_nil _ _))
  | [_] => none
  | [] => none

/-- The package segment and the file of a path. A path of at least five segments in the archive
directory is read behind it; shorter ones are read from their first segment. -/
def archiveLayout (segments : List String) : Option (String × Bool × String) :=
  if archiveRoot <+: segments ∧ 5 ≤ segments.length then packageAndFile (segments.drop 3)
  else packageAndFile segments

/-- `str::strip_suffix`. -/
def stripSuffix (suffix text : List Char) : Option (List Char) :=
  if suffix <:+ text then some (text.take (text.length - suffix.length)) else none

/-- The package and the version text of the file of a source archive. -/
def archiveFile (filename : String) : Option (String × String) := do
  let stem ← stripSuffix ".tar.gz".toList filename.toList
  let (package, version) ← splitOnce ['_'] stem
  return (String.ofList package, String.ofList version)

/-- `parse_archive_path`. -/
def parseArchivePath (path : String) :
    Except CranHistoryError (PackageName × RPackageVersion × String) := do
  let invalid := CranHistoryError.invalidArchivePath path
  let segments := segments '/' path
  ensure (plainSegments segments) invalid
  let (packageSegment, _, filename) ← (archiveLayout segments).elim (.error invalid) .ok
  let package ← (PackageName.new packageSegment).mapError fun _ => invalid
  let (filePackage, versionText) ← (archiveFile filename).elim (.error invalid) .ok
  ensure (filePackage = package.text) invalid
  let version ← (RPackageVersion.parse versionText).mapError fun _ => invalid
  return (package, version, join '/' (relativeSegments segments))

/-- `package_local_rejection`. -/
def packageLocalRejection (providerMode : Bool) (packageHint : Option PackageName) (path : String)
    (row : Nat) (error : CranHistoryError) : Option ArchiveHistoryRejection := do
  guard providerMode
  let segments := segments '/' path
  guard (plainSegments segments)
  let (pathPackage, nested, filename) ← archiveLayout segments
  let (filePackage, versionText) ← archiveFile filename
  guard ((PackageName.new pathPackage).isOk ∧ (PackageName.new filePackage).isOk)
  let hint ← packageHint <|> (PackageName.new pathPackage).toOption
  let foreignNested := nested ∧ pathPackage ≠ filePackage ∧ pathPackage = hint.text
  let invalidVersion := pathPackage = hint.text ∧ filePackage = hint.text ∧
    (RPackageVersion.parse versionText).isOk = false
  guard (foreignNested ∨ invalidVersion)
  guard error.concernsPath
  return ⟨hint, path, row, (RPackageVersion.parse versionText).toOption,
    error.message unprintable⟩

/-- `is_data_frame`. -/
def isDataFrame (object : RObject) : Bool :=
  object.classes.any fun classes => classes.any fun name => name == some "data.frame"

/-- The index of the first text that is missing. -/
def stringColumn (object : RObject) (field : String) : Except CranHistoryError (List String) :=
  match object.value with
  | .character values => values.zipIdx.mapM fun (value, row) =>
    value.elim (.error (.invalidString field row)) .ok
  | .list _ => .error (.invalidColumnType field)
  | .integer _ => .error (.invalidColumnType field)
  | .real _ => .error (.invalidColumnType field)
  | .other => .error (.invalidColumnType field)

/-- `numeric_column`. -/
def numericColumn (object : RObject) (field : String) :
    Except CranHistoryError (List (Option Real64)) :=
  match object.value with
  | .integer values => .ok (values.map fun value => value.map fun number => .finite number)
  | .real values => .ok values
  | .character _ => .error (.invalidColumnType field)
  | .list _ => .error (.invalidColumnType field)
  | .other => .error (.invalidColumnType field)

/-- The size of a row: a whole number that is not negative, saturating at 64 bits. -/
def archiveSize (row : Nat) : Option Real64 → Except CranHistoryError Nat
  | some (.finite value) =>
    if value < 0 ∨ value ≠ value.floor then .error (.invalidSize row)
    else .ok (min value.floor.toNat 18446744073709551615)
  | some .notANumber => .error (.invalidSize row)
  | some .infinite => .error (.invalidSize row)
  | none => .error (.invalidSize row)

/-- The time of a row: a number that is not negative, cut to seconds and saturating at 64 bits. -/
def archiveMtime (row : Nat) : Option Real64 → Except CranHistoryError Int
  | some (.finite value) =>
    if value < 0 then .error (.invalidMtime row) else .ok (min value.floor 9223372036854775807)
  | some .notANumber => .error (.invalidMtime row)
  | some .infinite => .error (.invalidMtime row)
  | none => .error (.invalidMtime row)

/-- What the loop of `enumerate_frame` makes of one row. -/
def enumerateRow (packageHint : Option PackageName) (quarantine : Bool) (row : Nat) (path : String)
    (size mtime : Option Real64) :
    Except CranHistoryError (ArchiveEntry ⊕ ArchiveHistoryRejection) :=
  let refuse (error : CranHistoryError) :=
    (packageLocalRejection unprintable quarantine packageHint path row error).elim (.error error)
      fun rejection => .ok (.inr rejection)
  match parseArchivePath path with
  | .error error => refuse error
  | .ok (pathPackage, version, relative) =>
    if packageHint.any fun package => package ≠ pathPackage then refuse (.invalidPackage path)
    else do
      let size ← archiveSize row size
      let mtime ← archiveMtime row mtime
      return .inl ⟨packageHint.getD pathPackage, version, relative, size, mtime⟩

/-- The loop of `enumerate_frame` from some row on. -/
def enumerateRows (packageHint : Option PackageName) (quarantine : Bool) (row : Nat) :
    List (String × Option Real64 × Option Real64) →
      Except CranHistoryError (List (ArchiveEntry ⊕ ArchiveHistoryRejection))
  | [] => .ok []
  | (path, size, mtime) :: rest => do
    let outcome ← enumerateRow unprintable packageHint quarantine row path size mtime
    let later ← enumerateRows packageHint quarantine (row + 1) rest
    return outcome :: later

/-- The columns of `file.info`. -/
def fileInfoColumns : List String :=
  ["size", "isdir", "mode", "mtime", "ctime", "atime", "uid", "gid", "uname", "grname"]

/-- The columns of a frame are those of `file.info`, up to the case of ASCII letters. -/
def namesFileInfo (names : List RStr) : Bool :=
  names.map (Option.map toAsciiLowercase) == fileInfoColumns.map some

/-- The paths, the sizes and the times of the rows of a frame. -/
def frameRows (object : RObject) :
    Except CranHistoryError (List (String × Option Real64 × Option Real64)) := do
  ensure (isDataFrame object) .notDataFrame
  let columns ← match object.value with
    | .list columns => .ok columns
    | .character _ => .error (CranHistoryError.rootType "a file.info data.frame")
    | .integer _ => .error (CranHistoryError.rootType "a file.info data.frame")
    | .real _ => .error (CranHistoryError.rootType "a file.info data.frame")
    | .other => .error (CranHistoryError.rootType "a file.info data.frame")
  let names ← object.names.elim (.error .missingNames) .ok
  ensure (namesFileInfo names) .invalidColumns
  match columns with
  | [sizes, _, _, mtimes, _, _, _, _, _, _] =>
    let files ← object.rowNames.elim (.error .missingRowNames) .ok
    let files ← stringColumn files "row.names"
    let sizes ← numericColumn sizes "Size"
    let mtimes ← numericColumn mtimes "mtime"
    ensure (files.length = sizes.length) .rowNameLength
    ensure (files.length = mtimes.length) .rowNameLength
    return files.zip (sizes.zip mtimes)
  | _ => throw .invalidColumns

/-- `enumerate_frame`. -/
def enumerateFrame (object : RObject) (packageHint : Option PackageName) (quarantine : Bool) :
    Except CranHistoryError ArchiveHistoryProjection := do
  let rows ← frameRows object
  let outcomes ← enumerateRows unprintable packageHint quarantine 0 rows
  return ⟨outcomes.filterMap Sum.getLeft?, outcomes.filterMap Sum.getRight?⟩

/-- What `build_archive_projection` stores for a package: its entries and its rejections. -/
def ArchiveHistoryProjection.payload (projection : ArchiveHistoryProjection)
    (package : PackageName) : ArchivePackagePayload where
  entries := projection.entries.filter fun entry => entry.package = package
  rejections := projection.rejections.filter fun rejection => rejection.packageHint = package

/-- `ArchiveEntryWire`. -/
structure ArchiveEntryWire where
  package : String
  version : String
  sourceArchiveRelativePath : String
  size : Nat
  mtime : Int
deriving DecidableEq, Repr

/-- `ArchiveHistoryRejectionWire`. -/
structure ArchiveHistoryRejectionWire where
  packageHint : String
  rawPath : String
  row : Nat
  version : Option String
  reason : String
deriving DecidableEq, Repr

/-- `ArchivePackagePayloadWire` — what the cache holds of a payload. -/
structure ArchivePackagePayloadWire where
  entries : List ArchiveEntryWire
  rejections : List ArchiveHistoryRejectionWire
deriving DecidableEq, Repr

/-- `ArchivePackagePayload::serialize`. -/
def ArchivePackagePayload.serialize (payload : ArchivePackagePayload) :
    ArchivePackagePayloadWire where
  entries := payload.entries.map fun entry =>
    ⟨entry.package.text, entry.version.raw, entry.sourceArchiveRelativePath, entry.size,
      entry.mtime⟩
  rejections := payload.rejections.map fun rejection =>
    ⟨rejection.packageHint.text, rejection.rawPath, rejection.row,
      rejection.version.map RPackageVersion.raw, rejection.reason⟩

/-- The reading of one entry. -/
def ArchiveEntryWire.read (wire : ArchiveEntryWire) : Except String ArchiveEntry := do
  let package ← (PackageName.new wire.package).mapError PackageNameError.message
  let version ← (RPackageVersion.parse wire.version).mapError RPackageVersionError.message
  return ⟨package, version, wire.sourceArchiveRelativePath, wire.size, wire.mtime⟩

/-- The reading of one rejection. -/
def ArchiveHistoryRejectionWire.read (wire : ArchiveHistoryRejectionWire) :
    Except String ArchiveHistoryRejection := do
  let packageHint ← (PackageName.new wire.packageHint).mapError PackageNameError.message
  let version ← match wire.version with
    | some text => ((RPackageVersion.parse text).mapError RPackageVersionError.message).map some
    | none => .ok none
  return ⟨packageHint, wire.rawPath, wire.row, version, wire.reason⟩

/-- `ArchivePackagePayload::deserialize`. -/
def ArchivePackagePayloadWire.deserialize (wire : ArchivePackagePayloadWire) :
    Except String ArchivePackagePayload := do
  let entries ← wire.entries.mapM ArchiveEntryWire.read
  let rejections ← wire.rejections.mapM ArchiveHistoryRejectionWire.read
  return ⟨entries, rejections⟩

/-- The check of one entry in `ArchivePackagePayload::validate_for_package`. -/
def ArchiveEntry.validateForPackage (entry : ArchiveEntry) (package : PackageName) :
    Except String Unit := do
  ensure (entry.package = package)
    ("archive projection package binding mismatch for " ++ package.text)
  ensure (0 ≤ entry.mtime) "archive projection entry has a negative mtime"
  let (pathPackage, pathVersion, normalizedPath) ←
    (parseArchivePath entry.sourceArchiveRelativePath).mapError fun error =>
      "invalid archive projection entry: " ++ error.message unprintable
  ensure (pathPackage = entry.package ∧ pathVersion.cmp entry.version = .eq ∧
      normalizedPath = entry.sourceArchiveRelativePath)
    ("archive projection entry does not match its package, version, or path: " ++
      entry.sourceArchiveRelativePath)

/-- `ArchivePackagePayload::validate_for_package`. -/
def ArchivePackagePayload.validateForPackage (payload : ArchivePackagePayload)
    (package : PackageName) : Except String ArchivePackagePayload := do
  payload.entries.forM fun entry => entry.validateForPackage unprintable package
  ensure (∀ rejection ∈ payload.rejections, rejection.packageHint = package)
    ("archive projection package binding mismatch for " ++ package.text)
  return payload

section Paths

variable {path : String} {package : PackageName} {version : RPackageVersion} {relative : String}

/-- What stands between a path and its parts. -/
structure ArchivePath (segments : List String) (package : PackageName) (version : RPackageVersion) :
    Prop where
  plain : plainSegments segments = true
  named : ∃ nested filename versionText, archiveLayout segments = some (package.text, nested, filename) ∧
    archiveFile filename = some (package.text, versionText) ∧
      RPackageVersion.parse versionText = .ok version

/-- An alternative that is there. -/
theorem elim_eq_ok {ε α : Type} {found : Option α} {cause : ε} {value : α} :
    (found.elim (.error cause) .ok : Except ε α) = .ok value ↔ found = some value := by
  cases found <;> simp

/-- The paths that are read, and what they are read as. -/
theorem parseArchivePath_eq_ok : parseArchivePath path = .ok (package, version, relative) ↔
    ArchivePath (segments '/' path) package version ∧
      relative = join '/' (relativeSegments (segments '/' path)) := by
  simp only [parseArchivePath, bind_eq_ok, ensure_eq_ok, elim_eq_ok, mapError_eq_ok, pure,
    Except.pure, Except.ok.injEq, Prod.mk.injEq]
  constructor
  · rintro ⟨_, plain, ⟨segment, nested, filename⟩, layout, found, named, ⟨file, versionText⟩, stem,
      _, same, read, parsed, rfl, rfl, rfl⟩
    rw [PackageName.new_eq_ok] at named
    refine ⟨⟨plain, nested, filename, versionText, ?_, ?_, parsed⟩, rfl⟩
    · rw [layout, named]
    · exact stem.trans (congrArg (fun text => some (text, versionText)) same)
  · rintro ⟨⟨plain, nested, filename, versionText, layout, stem, parsed⟩, rfl⟩
    exact ⟨(), plain, _, layout, package, PackageName.new_eq_ok.mpr rfl, _, stem, (), rfl, version,
      parsed, rfl, rfl, rfl⟩

/-- What is left of a path behind the archive directory is a path of its own: it names a directory
and a file, and it does not begin with the archive directory again. -/
def SettledPath (path : String) : Prop :=
  2 ≤ (relativeSegments (segments '/' path)).length ∧
    ¬ archiveRoot <+: relativeSegments (segments '/' path)

instance (path : String) : Decidable (SettledPath path) :=
  inferInstanceAs (Decidable (_ ∧ _))

/-- The segments behind the archive directory are segments of the path. -/
theorem mem_relativeSegments {segments : List String} {segment : String}
    (member : segment ∈ relativeSegments segments) : segment ∈ segments := by
  unfold relativeSegments at member
  split at member
  · exact List.mem_of_mem_drop member
  · exact member

/-- A normalized path is cut into the segments it was put together from. -/
theorem segments_relative (nonempty : relativeSegments (segments '/' path) ≠ []) :
    segments '/' (join '/' (relativeSegments (segments '/' path))) =
      relativeSegments (segments '/' path) :=
  segments_join nonempty fun _ member => notMem_of_mem_segments (mem_relativeSegments member)

/-- A layout needs two segments. -/
theorem two_le_of_packageAndFile {segments : List String} {layout : String × Bool × String}
    (found : packageAndFile segments = some layout) : 2 ≤ segments.length := by
  cases segments with
  | nil => cases found
  | cons first rest =>
    cases rest with
    | nil => cases found
    | cons second rest =>
      simp only [List.length_cons]
      omega

/-- A path of segments that does not begin with the archive directory is read from its first segment. -/
theorem archiveLayout_of_not {segments : List String} (outside : ¬ archiveRoot <+: segments) :
    archiveLayout segments = packageAndFile segments :=
  if_neg fun inside => outside inside.1

/-- A settled path has the layout of what is left of it. -/
theorem archiveLayout_settled (settled : SettledPath path) :
    archiveLayout (relativeSegments (segments '/' path)) = archiveLayout (segments '/' path) := by
  obtain ⟨long, outside⟩ := settled
  rw [archiveLayout_of_not outside]
  unfold archiveLayout
  by_cases inside : archiveRoot <+: segments '/' path
  · have relative : relativeSegments (segments '/' path) = (segments '/' path).drop 3 :=
      if_pos inside
    rw [relative, List.length_drop] at long
    rw [relative, if_pos ⟨inside, by omega⟩]
  · have relative : relativeSegments (segments '/' path) = segments '/' path := if_neg inside
    rw [relative, if_neg fun both => inside both.1]

/-- A path whose normalized form is read, and is normalized already, is settled. -/
theorem settledPath_of_parseArchivePath {other : PackageName} {otherVersion : RPackageVersion}
    (parsed : parseArchivePath path = .ok (package, version, relative))
    (again : parseArchivePath relative = .ok (other, otherVersion, relative)) : SettledPath path := by
  obtain ⟨-, rfl⟩ := parseArchivePath_eq_ok.mp parsed
  obtain ⟨⟨plain, _, _, _, layout, -⟩, same⟩ := parseArchivePath_eq_ok.mp again
  -- An empty rest would be a path of one empty segment, which is not plain.
  have nonempty : relativeSegments (segments '/' path) ≠ [] := by
    intro nothing
    rw [nothing] at plain
    exact absurd plain (by decide)
  rw [segments_relative nonempty] at layout same
  have outside : ¬ archiveRoot <+: relativeSegments (segments '/' path) := by
    intro inside
    have twice : relativeSegments (relativeSegments (segments '/' path)) =
        (relativeSegments (segments '/' path)).drop 3 := if_pos inside
    have shorter := congrArg List.length (congrArg (segments '/') same)
    rw [segments_relative nonempty, twice] at shorter
    have long := inside.length_le
    simp only [archiveRoot, List.length_cons, List.length_nil] at long
    by_cases rest : (relativeSegments (segments '/' path)).drop 3 = []
    · have single : (segments '/' (join '/' [])).length = 1 := by decide
      rw [rest, single] at shorter
      omega
    · rw [segments_join rest fun segment member => notMem_of_mem_segments
        (mem_relativeSegments (List.mem_of_mem_drop member)), List.length_drop] at shorter
      omega
  refine ⟨?_, outside⟩
  rw [archiveLayout_of_not outside] at layout
  exact two_le_of_packageAndFile layout

/-- The normalized form of a settled path is read as the path is. -/
theorem parseArchivePath_relative (settled : SettledPath path)
    (parsed : parseArchivePath path = .ok (package, version, relative)) :
    parseArchivePath relative = .ok (package, version, relative) := by
  obtain ⟨⟨plain, nested, filename, versionText, layout, file, read⟩, rfl⟩ :=
    parseArchivePath_eq_ok.mp parsed
  have nonempty : relativeSegments (segments '/' path) ≠ [] := by
    intro nothing
    have long := settled.1
    rw [nothing] at long
    simp at long
  refine parseArchivePath_eq_ok.mpr ⟨⟨?_, nested, filename, versionText, ?_, file, read⟩, ?_⟩
  · rw [segments_relative nonempty]
    exact List.all_eq_true.mpr fun segment member =>
      List.all_eq_true.mp plain segment (mem_relativeSegments member)
  · rw [segments_relative nonempty, archiveLayout_settled settled, layout]
  · have stays : relativeSegments (relativeSegments (segments '/' path)) =
        relativeSegments (segments '/' path) := if_neg settled.2
    rw [segments_relative nonempty, stays]

end Paths

section Storing

variable {unprintable : Char → Bool} {hint : Option PackageName} {quarantine : Bool}

/-- A version that was read keeps the text it was read from. -/
theorem RPackageVersion.raw_of_parse {text : String} {version : RPackageVersion}
    (parsed : RPackageVersion.parse text = .ok version) : version.raw = text := by
  unfold RPackageVersion.parse RPackageVersion.parseWithMinimum at parsed
  split at parsed
  · cases parsed
  · split at parsed
    · cases parsed
    · rw [← Except.ok.inj parsed]

/-- A version that was read is read from its own text. -/
theorem RPackageVersion.parse_raw {text : String} {version : RPackageVersion}
    (parsed : RPackageVersion.parse text = .ok version) :
    RPackageVersion.parse version.raw = .ok version := by
  rw [RPackageVersion.raw_of_parse parsed, parsed]

/-- What is known of a row that became an entry or a rejection. -/
def Recorded (hint : Option PackageName) (path : String) :
    ArchiveEntry ⊕ ArchiveHistoryRejection → Prop
  | .inl entry =>
    parseArchivePath path = .ok (entry.package, entry.version, entry.sourceArchiveRelativePath) ∧
      (∀ package ∈ hint, package = entry.package) ∧ 0 ≤ entry.mtime
  | .inr rejection =>
    (∀ version ∈ rejection.version, RPackageVersion.parse version.raw = .ok version) ∧
      ∀ package version relative, parseArchivePath path = .ok (package, version, relative) →
        ∃ other ∈ hint, other ≠ package

/-- A rejection keeps a version that was read. -/
theorem packageLocalRejection_version {path : String} {row : Nat} {error : CranHistoryError}
    {rejection : ArchiveHistoryRejection}
    (rejected : packageLocalRejection unprintable quarantine hint path row error = some rejection) :
    ∀ version ∈ rejection.version, RPackageVersion.parse version.raw = .ok version := by
  simp only [packageLocalRejection, Option.bind_eq_bind, Option.bind_eq_some_iff, Option.guard_eq_some',
    Option.pure_def, Option.some.injEq] at rejected
  obtain ⟨-, -, -, -, -, -, ⟨file, text⟩, -, -, -, other, -, -, -, -, -, rfl⟩ := rejected
  intro version member
  change (RPackageVersion.parse text).toOption = some version at member
  cases parsed : RPackageVersion.parse text with
  | error cause => rw [parsed] at member; cases member
  | ok found =>
    rw [parsed] at member
    obtain rfl := Option.some.inj member
    exact RPackageVersion.parse_raw parsed

/-- A time that is accepted is not negative. -/
theorem archiveMtime_nonneg {row : Nat} {mtime : Option Real64} {seconds : Int}
    (accepted : archiveMtime row mtime = .ok seconds) : 0 ≤ seconds := by
  unfold archiveMtime at accepted
  split at accepted
  · next value =>
    split at accepted
    · cases accepted
    · next positive =>
      obtain rfl := Except.ok.inj accepted
      have floor : 0 ≤ value.floor := Rat.le_floor_iff.mpr (not_lt.mp positive)
      omega
  all_goals cases accepted

/-- What is made of a row is recorded of its path. -/
theorem recorded_of_enumerateRow {row : Nat} {path : String} {size mtime : Option Real64}
    {outcome : ArchiveEntry ⊕ ArchiveHistoryRejection}
    (made : enumerateRow unprintable hint quarantine row path size mtime = .ok outcome) :
    Recorded hint path outcome := by
  have refused : ∀ error, (packageLocalRejection unprintable quarantine hint path row error).elim
      (.error error) (fun rejection => .ok (.inr rejection)) = Except.ok outcome →
      ∃ rejection, outcome = .inr rejection ∧
        ∀ version ∈ rejection.version, RPackageVersion.parse version.raw = .ok version := by
    intro error kept
    cases rejected : packageLocalRejection unprintable quarantine hint path row error with
    | none => rw [rejected] at kept; cases kept
    | some rejection =>
      rw [rejected] at kept
      exact ⟨rejection, (Except.ok.inj kept).symm, packageLocalRejection_version rejected⟩
  unfold enumerateRow at made
  cases parsed : parseArchivePath path with
  | error cause =>
    rw [parsed] at made
    obtain ⟨rejection, rfl, versions⟩ := refused _ made
    refine ⟨versions, fun package version relative read => ?_⟩
    rw [parsed] at read
    cases read
  | ok parts =>
    obtain ⟨package, version, relative⟩ := parts
    rw [parsed] at made
    simp only at made
    split at made
    · next foreign =>
      obtain ⟨rejection, rfl, versions⟩ := refused _ made
      refine ⟨versions, fun other _ _ read => ?_⟩
      rw [parsed] at read
      obtain rfl := congrArg Prod.fst (Except.ok.inj read)
      obtain ⟨found, inside, differs⟩ := (Option.any_eq_true _ _).mp foreign
      exact ⟨found, inside, of_decide_eq_true differs⟩
    · next own =>
      simp only [bind_eq_ok, pure, Except.pure, Except.ok.injEq] at made
      obtain ⟨size, -, mtime, timed, rfl⟩ := made
      have same : ∀ other ∈ hint, other = package := by
        intro other inside
        by_contra differs
        exact own ((Option.any_eq_true _ _).mpr ⟨other, inside, decide_eq_true differs⟩)
      have named : hint.getD package = package := by
        cases hint with
        | none => rfl
        | some other => exact same other rfl
      refine ⟨?_, ?_, archiveMtime_nonneg timed⟩
      · rw [named]
        exact parsed
      · rw [named]
        exact same

/-- What the loop makes of its rows is recorded of their paths. -/
theorem recorded_of_enumerateRows {row : Nat} {rows : List (String × Option Real64 × Option Real64)}
    {outcomes : List (ArchiveEntry ⊕ ArchiveHistoryRejection)}
    (made : enumerateRows unprintable hint quarantine row rows = .ok outcomes) :
    List.Forall₂ (fun row outcome => Recorded hint row.1 outcome) rows outcomes := by
  induction rows generalizing row outcomes with
  | nil =>
    obtain rfl := Except.ok.inj made
    exact .nil
  | cons first rest ih =>
    obtain ⟨path, size, mtime⟩ := first
    simp only [enumerateRows, bind_eq_ok, pure, Except.pure, Except.ok.injEq] at made
    obtain ⟨outcome, made, later, rest, rfl⟩ := made
    exact .cons (recorded_of_enumerateRow made) (ih rest)

/-- An entry is read back as it was. -/
theorem read_entry {entry : ArchiveEntry}
    (parsed : RPackageVersion.parse entry.version.raw = .ok entry.version) :
    ArchiveEntryWire.read ⟨entry.package.text, entry.version.raw, entry.sourceArchiveRelativePath,
      entry.size, entry.mtime⟩ = .ok entry := by
  have named : PackageName.new entry.package.text = .ok entry.package :=
    PackageName.new_eq_ok.mpr rfl
  simp only [ArchiveEntryWire.read, named, parsed, Except.mapError, ok_bind]
  rfl

/-- A rejection is read back as it was. -/
theorem read_rejection {rejection : ArchiveHistoryRejection}
    (parsed : ∀ version ∈ rejection.version, RPackageVersion.parse version.raw = .ok version) :
    ArchiveHistoryRejectionWire.read ⟨rejection.packageHint.text, rejection.rawPath, rejection.row,
      rejection.version.map RPackageVersion.raw, rejection.reason⟩ = .ok rejection := by
  have named : PackageName.new rejection.packageHint.text = .ok rejection.packageHint :=
    PackageName.new_eq_ok.mpr rfl
  obtain ⟨hint, path, row, version, reason⟩ := rejection
  cases version with
  | none =>
    simp only [ArchiveHistoryRejectionWire.read, named, Except.mapError, ok_bind]
    rfl
  | some version =>
    simp only [ArchiveHistoryRejectionWire.read, named, Except.mapError, ok_bind, Option.map_some,
      parsed version rfl]
    rfl

/-- A payload of versions that were read is read back from the cache as it was. -/
theorem deserialize_serialize {payload : ArchivePackagePayload}
    (entries : ∀ entry ∈ payload.entries,
      RPackageVersion.parse entry.version.raw = .ok entry.version)
    (rejections : ∀ rejection ∈ payload.rejections, ∀ version ∈ rejection.version,
      RPackageVersion.parse version.raw = .ok version) :
    payload.serialize.deserialize = .ok payload := by
  have readEntries : payload.serialize.entries.mapM ArchiveEntryWire.read = .ok payload.entries := by
    refine mapM_eq_ok.mpr (List.forall₂_map_left_iff.mpr (List.forall₂_same.mpr ?_))
    exact fun entry member => read_entry (entries entry member)
  have readRejections : payload.serialize.rejections.mapM ArchiveHistoryRejectionWire.read =
      .ok payload.rejections := by
    refine mapM_eq_ok.mpr (List.forall₂_map_left_iff.mpr (List.forall₂_same.mpr ?_))
    exact fun rejection member => read_rejection (rejections rejection member)
  simp only [ArchivePackagePayloadWire.deserialize, readEntries, readRejections, ok_bind]
  rfl

/-- An entry that was read from a path is valid for its package exactly when its own path is read as
the entry. -/
theorem validateForPackage_entry_iff {entry : ArchiveEntry} {path : String}
    (recorded : Recorded hint path (.inl entry)) :
    entry.validateForPackage unprintable entry.package = .ok () ↔ SettledPath path := by
  obtain ⟨parsed, -, timed⟩ := recorded
  simp only [ArchiveEntry.validateForPackage, bind_eq_ok, ensure_eq_ok, mapError_eq_ok,
    exists_const, true_and, timed]
  constructor
  · rintro ⟨⟨package, version, relative⟩, again, -, -, rfl⟩
    exact settledPath_of_parseArchivePath parsed again
  · intro settled
    exact ⟨_, parseArchivePath_relative settled parsed, rfl, Std.ReflCmp.compare_self, rfl⟩

/-- Every left element of a pointwise relation is related to some right element. -/
theorem exists_right {α β : Type} {related : α → β → Prop} {lefts : List α} {rights : List β}
    (pointwise : List.Forall₂ related lefts rights) {left : α} (member : left ∈ lefts) :
    ∃ right ∈ rights, related left right := by
  induction pointwise with
  | nil => cases member
  | cons head _ ih =>
    rcases List.mem_cons.mp member with rfl | later
    · exact ⟨_, List.mem_cons_self, head⟩
    · obtain ⟨right, inside, found⟩ := ih later
      exact ⟨right, List.mem_cons_of_mem _ inside, found⟩

/-- What a frame is enumerated as, and what is recorded of its rows. -/
theorem recorded_of_enumerateFrame {object : RObject} {projection : ArchiveHistoryProjection}
    {rows : List (String × Option Real64 × Option Real64)} (framed : frameRows object = .ok rows)
    (enumerated : enumerateFrame unprintable object hint quarantine = .ok projection) :
    ∃ outcomes : List (ArchiveEntry ⊕ ArchiveHistoryRejection),
      List.Forall₂ (fun row outcome => Recorded hint row.1 outcome) rows outcomes ∧
        (∀ entry, entry ∈ projection.entries ↔ .inl entry ∈ outcomes) ∧
          ∀ rejection, rejection ∈ projection.rejections ↔ .inr rejection ∈ outcomes := by
  simp only [enumerateFrame, bind_eq_ok, framed, Except.ok.injEq, exists_eq_left', pure,
    Except.pure] at enumerated
  obtain ⟨outcomes, made, rfl⟩ := enumerated
  refine ⟨outcomes, recorded_of_enumerateRows made, fun entry => ?_, fun rejection => ?_⟩
  · simp only [List.mem_filterMap, Sum.getLeft?_eq_some_iff, exists_eq_right]
  · simp only [List.mem_filterMap, Sum.getRight?_eq_some_iff, exists_eq_right]

/-- What the rows of one package leave is accepted when it is read back, exactly when the paths of
these rows are settled. -/
theorem validateForPackage_payload_iff {object : RObject} {projection : ArchiveHistoryProjection}
    {rows : List (String × Option Real64 × Option Real64)} (framed : frameRows object = .ok rows)
    (enumerated : enumerateFrame unprintable object hint quarantine = .ok projection)
    (package : PackageName) :
    ((projection.payload package).serialize.deserialize >>= fun payload =>
      payload.validateForPackage unprintable package) = .ok (projection.payload package) ↔
    ∀ row ∈ rows, ∀ version relative,
      parseArchivePath row.1 = .ok (package, version, relative) →
        (∀ other ∈ hint, other = package) → SettledPath row.1 := by
  obtain ⟨outcomes, recorded, entries, rejections⟩ :=
    recorded_of_enumerateFrame framed enumerated
  have back := List.Forall₂.flip recorded
  have isRead : (projection.payload package).serialize.deserialize =
      .ok (projection.payload package) := by
    refine deserialize_serialize (fun entry member => ?_) fun rejection member => ?_
    · obtain ⟨row, -, parsed, -⟩ :=
        exists_right back ((entries entry).mp (List.mem_filter.mp member).1)
      obtain ⟨⟨-, _, _, _, -, -, read⟩, -⟩ := parseArchivePath_eq_ok.mp parsed
      exact RPackageVersion.parse_raw read
    · obtain ⟨row, -, versions, -⟩ :=
        exists_right back ((rejections rejection).mp (List.mem_filter.mp member).1)
      exact versions
  have bound : ∀ rejection ∈ (projection.payload package).rejections,
      rejection.packageHint = package :=
    fun rejection member => of_decide_eq_true (List.mem_filter.mp member).2
  simp only [isRead, ok_bind, ArchivePackagePayload.validateForPackage, bind_eq_ok, forM_eq_ok,
    ensure_of bound, pure, Except.pure]
  constructor
  · rintro ⟨_, valid, -⟩ row inside version relative parsed own
    obtain ⟨outcome, made, recorded⟩ := exists_right recorded inside
    cases outcome with
    | inl entry =>
      have same := Except.ok.inj (parsed.symm.trans recorded.1)
      obtain rfl := congrArg Prod.fst same
      have kept : entry ∈ (projection.payload entry.package).entries :=
        List.mem_filter.mpr ⟨(entries entry).mpr made, decide_eq_true rfl⟩
      exact (validateForPackage_entry_iff recorded).mp (valid entry kept)
    | inr rejection =>
      obtain ⟨other, hinted, differs⟩ := recorded.2 _ _ _ parsed
      exact absurd (own other hinted) differs
  · intro settled
    refine ⟨(), fun entry member => ?_, trivial⟩
    obtain ⟨made, same⟩ := List.mem_filter.mp member
    obtain rfl : entry.package = package := of_decide_eq_true same
    obtain ⟨row, inside, recorded⟩ := exists_right back ((entries entry).mp made)
    exact (validateForPackage_entry_iff recorded).mpr
      (settled row inside _ _ recorded.1 recorded.2.1)

end Storing

/-- A path is normalized to a fixed point exactly when it is settled, and the entries of a package are
accepted when they are read back exactly when the paths of its rows are settled. -/
theorem parseArchivePath_fixed_iff (unprintable : Char → Bool) :
    (∀ path package version relative, parseArchivePath path = .ok (package, version, relative) →
      (parseArchivePath relative = .ok (package, version, relative) ↔ SettledPath path)) ∧
    ∀ object hint quarantine rows projection, frameRows object = .ok rows →
      enumerateFrame unprintable object hint quarantine = .ok projection → ∀ package,
        (((projection.payload package).serialize.deserialize >>= fun payload =>
          payload.validateForPackage unprintable package) = .ok (projection.payload package) ↔
        ∀ row ∈ rows, ∀ version relative,
          parseArchivePath row.1 = .ok (package, version, relative) →
            (∀ other ∈ hint, other = package) → SettledPath row.1) :=
  ⟨fun _ _ _ _ parsed => ⟨settledPath_of_parseArchivePath parsed,
      fun settled => parseArchivePath_relative settled parsed⟩,
    fun _ _ _ _ _ framed enumerated package =>
      validateForPackage_payload_iff framed enumerated package⟩

namespace Small

/-- A column of `file.info` that the history does not read. -/
def otherColumn : RObject := .mk .other none none none

/-- A frame of `file.info` with one row. -/
def archiveFrame (path : String) : RObject :=
  .mk (.list [.mk (.real [some (.finite 802048)]) none none none, otherColumn, otherColumn,
      .mk (.real [some (.finite 1590750000)]) none none none, otherColumn, otherColumn, otherColumn,
      otherColumn, otherColumn, otherColumn])
    (some (fileInfoColumns.map some)) (some [some "data.frame"])
    (some (.mk (.character [some path]) none none none))

/-- The name of a package with archived releases passes its check. -/
theorem dplyr_checked : PackageName.check "dplyr" = .ok () := by decide

/-- A package with archived releases. -/
def dplyrName : PackageName := ⟨"dplyr", dplyr_checked⟩

/-- A package that is named like the first directory of the archive. -/
def srcName : PackageName := ⟨"src", by decide⟩

/-- The spelling of an archived version reads as its components. -/
theorem archivedVersion_spelled :
    parseComponents "1.0.0" = .ok (Components.fromVec [1, 0, 0]).toList := by
  decide

/-- An archived version. -/
def archivedVersion : RPackageVersion := ⟨"1.0.0", .fromVec [1, 0, 0], archivedVersion_spelled⟩

/-- What is enumerated of a frame with one settled path. -/
def dplyrProjection : ArchiveHistoryProjection :=
  ⟨[⟨dplyrName, archivedVersion, "dplyr/dplyr_1.0.0.tar.gz", 802048, 1590750000⟩], []⟩

/-- The frame of the settled path has one row. -/
theorem frameRows_dplyr : frameRows (archiveFrame "src/contrib/Archive/dplyr/dplyr_1.0.0.tar.gz") =
    .ok [("src/contrib/Archive/dplyr/dplyr_1.0.0.tar.gz", some (.finite 802048),
      some (.finite 1590750000))] := by
  decide +kernel

/-- The frame of the settled path has one entry. -/
theorem enumerateFrame_dplyr : enumerateFrame (fun _ => false)
    (archiveFrame "src/contrib/Archive/dplyr/dplyr_1.0.0.tar.gz") none true =
      .ok dplyrProjection := by
  decide +kernel

/-- The path of the frame is settled. -/
theorem settled_dplyr : SettledPath "src/contrib/Archive/dplyr/dplyr_1.0.0.tar.gz" := by
  decide +kernel

end Small

/-- An archived release of a package is accepted when it is read back. -/
theorem parseArchivePath_fixed_dplyr :
    parseArchivePath "dplyr/dplyr_1.0.0.tar.gz" =
        .ok (Small.dplyrName, Small.archivedVersion, "dplyr/dplyr_1.0.0.tar.gz") ∧
      ((Small.dplyrProjection.payload Small.dplyrName).serialize.deserialize >>= fun payload =>
        payload.validateForPackage (fun _ => false) Small.dplyrName) =
          .ok (Small.dplyrProjection.payload Small.dplyrName) := by
  obtain ⟨paths, frames⟩ := parseArchivePath_fixed_iff fun _ => false
  constructor
  · exact (paths "src/contrib/Archive/dplyr/dplyr_1.0.0.tar.gz" _ _ _ (by decide +kernel)).mpr
      Small.settled_dplyr
  · refine (frames _ none true _ _ Small.frameRows_dplyr Small.enumerateFrame_dplyr
      Small.dplyrName).mpr fun row member _ _ _ _ => ?_
    rw [List.mem_singleton.mp member]
    exact Small.settled_dplyr

/-- A release of a package `src` that lies in the archive directory itself is normalized to a path
that is not read. -/
theorem not_parseArchivePath_fixed :
    parseArchivePath "src/contrib/Archive/src_1.0.0.tar.gz" =
        .ok (Small.srcName, Small.archivedVersion, "src_1.0.0.tar.gz") ∧
      parseArchivePath "src_1.0.0.tar.gz" = .error (.invalidArchivePath "src_1.0.0.tar.gz") := by
  decide +kernel

end Rsolve
