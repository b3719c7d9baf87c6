import Rsolve.Artifact.Input
import Rsolve.Core.UrlForms
import Rsolve.Lib.Segments
import Rsolve.Manifest.Compose

/-!
# The DESCRIPTION of a source archive

A source archive holds the DESCRIPTION of its package, a text of named fields of which the check reads
five. A field goes on in the lines after it that begin with white space. What was read must be what
is expected of the artifact: its package, its version, and the commit it was made from or none.
-/
open Checked Ordered Splitting

namespace Rsolve

/-- `GitProvenanceExpectation`. -/
structure GitProvenanceExpectation where
  repository : NormalizedGitUrl
  commit : GitCommitId
  subdirectory : Option RepositorySubdir
deriving DecidableEq

/-- `ArtifactValidationExpectation` — what an artifact is expected to be. -/
structure ArtifactValidationExpectation where
  package : PackageName
  version : RPackageVersion
  gitProvenance : Option GitProvenanceExpectation
deriving DecidableEq

/-- `DescriptionFields`. -/
structure DescriptionFields where
  package : String
  version : String
  remoteUrl : Option String
  remoteSha : Option String
  remoteSubdir : Option String
deriving DecidableEq, Repr

/-- A line without the carriage return before its end. -/
def stripReturn (line : List Char) : List Char :=
  if line.getLast? = some '\r' then line.dropLast else line

/-- `str::lines`. -/
def textLines (text : List Char) : List (List Char) :=
  let pieces := text.splitOn '\n'
  pieces.dropLast.map stripReturn ++ pieces.getLast?.toList.filter (· ≠ [])

/-- The fields that the check reads. -/
def descriptionKeys : List String :=
  ["package", "version", "remoteurl", "remotesha", "remotesubdir"]

/-- What the loop of `parse_description` keeps: the fields so far, the field that a continuation
belongs to when it is one of these, and whether there was a field at all. -/
structure DescriptionState where
  values : OrderedMap String String
  current : Option String
  haveField : Bool

/-- A line that goes on with a field. -/
def continueField (state : DescriptionState) (line : List Char) :
    Except CacheError DescriptionState := do
  ensure (state.haveField = true) (.malformedDescription "continuation has no preceding field")
  match state.current with
  | none => return state
  | some field =>
    -- The current field was inserted, so there is always a value to go on with.
    let value := (state.values.get? field).getD ""
    return { state with
      values := state.values.insert field (value ++ " " ++ String.ofList (trim line)) }

/-- A line that begins a field. -/
def beginField (state : DescriptionState) (line : List Char) :
    Except CacheError DescriptionState := do
  let (name, value) ← (splitOnce [':'] line).elim
    (.error (.malformedDescription "field is missing a colon")) .ok
  let key := toAsciiLowercase (String.ofList (trim name))
  ensure (key ≠ "" ∧ name.all (fun character => !isWhitespace character) = true)
    (.malformedDescription "field name is malformed")
  if key ∉ descriptionKeys then return { state with current := none, haveField := true }
  else
    ensure (state.values.get? key = none) (.duplicateDescriptionField key)
    return ⟨state.values.insert key (String.ofList (trim value)), some key, true⟩

/-- What the loop of `parse_description` does with one line. -/
def readLine (state : DescriptionState) (line : List Char) : Except CacheError DescriptionState :=
  if line.head? = some '#' ∨ trim line = [] then .ok state
  else if line.head?.any isWhitespace then continueField state line
  else beginField state line

/-- A field that must be there and not be empty. -/
def requiredField (values : OrderedMap String String) (field : String) :
    Except CacheError String :=
  match values.get? field with
  | some value =>
    if value = "" then
      .error (.malformedDescription ("required field " ++ field ++ " is missing or empty"))
    else .ok value
  | none => .error (.malformedDescription ("required field " ++ field ++ " is missing or empty"))

/-- `parse_description`, from the text on. -/
def parseDescriptionText (text : String) : Except CacheError DescriptionFields := do
  let state ← (textLines text.toList).foldlM readLine ⟨.empty, none, false⟩
  let package ← requiredField state.values "package"
  let version ← requiredField state.values "version"
  return ⟨package, version, state.values.get? "remoteurl", state.values.get? "remotesha",
    state.values.get? "remotesubdir"⟩

/-- `parse_description`. What the standard library says of bytes that are no text is a parameter. -/
def parseDescription (utf8Error : List UInt8 → String) (bytes : List UInt8) :
    Except CacheError DescriptionFields :=
  match String.fromUTF8? bytes.toByteArray with
  | some text => parseDescriptionText text
  | none => .error (.malformedDescription ("DESCRIPTION is not valid UTF-8: " ++ utf8Error bytes))

/-- A field that does not match. -/
def mismatch {α : Type} (field expected actual : String) : Except CacheError α :=
  .error (.descriptionFieldMismatch field expected actual)

/-- The check of a field that names a coordinate: it must be there, be readable and be the expected
coordinate. -/
def matchField {α ε : Type} [DecidableEq α] (field : String) (expected : α) (text : α → String)
    (message : ε → String) (read : String → Except ε α) (found : Option String) :
    Except CacheError Unit :=
  match found with
  | none => mismatch field (text expected) "<missing>"
  | some actual =>
    match read actual with
    | .error error =>
      mismatch field (text expected) (actual ++ " (" ++ message error ++ ")")
    | .ok parsed => if parsed ≠ expected then mismatch field (text expected) (text parsed) else .ok ()

/-- The check of a field that must not be there. -/
def absentField (field : String) (found : Option String) : Except CacheError Unit :=
  match found with
  | some value => mismatch field "<absent>" value
  | none => .ok ()

/-- `validate_description`. -/
def validateDescription (ip : IpAddrs) (fields : DescriptionFields)
    (expected : ArtifactValidationExpectation) : Except CacheError Unit := do
  ensure (fields.package = expected.package.text)
    (.descriptionFieldMismatch "Package" expected.package.text fields.package)
  let version ← (RPackageVersion.parse fields.version).mapError fun error =>
    .malformedDescription ("Version is invalid: " ++ error.message)
  ensure (version.cmp expected.version = .eq)
    (.descriptionFieldMismatch "Version" expected.version.raw fields.version)
  match expected.gitProvenance with
  | some git =>
    matchField "RemoteUrl" git.repository NormalizedGitUrl.text NormalizedGitUrlError.message
      (NormalizedGitUrl.new ip) fields.remoteUrl
    matchField "RemoteSha" git.commit GitCommitId.hex GitCommitIdError.message GitCommitId.new
      fields.remoteSha
    match git.subdirectory with
    | some subdirectory =>
      matchField "RemoteSubdir" subdirectory RepositorySubdir.text RepositorySubdirError.message
        RepositorySubdir.new fields.remoteSubdir
    | none => absentField "RemoteSubdir" fields.remoteSubdir
  | none =>
    absentField "RemoteUrl" fields.remoteUrl
    absentField "RemoteSha" fields.remoteSha
    absentField "RemoteSubdir" fields.remoteSubdir

/-- A field is there and reads as a coordinate. -/
def Reads {α ε : Type} (read : String → Except ε α) (found : Option String) (expected : α) : Prop :=
  ∃ text, found = some text ∧ read text = .ok expected

/-- The fields of a DESCRIPTION are what is expected of the artifact. -/
structure DescriptionFields.Match (ip : IpAddrs) (fields : DescriptionFields)
    (expected : ArtifactValidationExpectation) : Prop where
  package : fields.package = expected.package.text
  version : ∃ version, RPackageVersion.parse fields.version = .ok version ∧
    version.cmp expected.version = .eq
  git : ∀ git, expected.gitProvenance = some git →
    Reads (NormalizedGitUrl.new ip) fields.remoteUrl git.repository ∧
      Reads GitCommitId.new fields.remoteSha git.commit ∧
        (∀ subdirectory, git.subdirectory = some subdirectory →
          Reads RepositorySubdir.new fields.remoteSubdir subdirectory) ∧
        (git.subdirectory = none → fields.remoteSubdir = none)
  registry : expected.gitProvenance = none →
    fields.remoteUrl = none ∧ fields.remoteSha = none ∧ fields.remoteSubdir = none

section Matching

variable {ip : IpAddrs} {fields : DescriptionFields} {expected : ArtifactValidationExpectation}

/-- A field matches exactly when it reads as the coordinate. -/
theorem matchField_eq_ok {α ε : Type} [DecidableEq α] {field : String} {coordinate : α}
    {text : α → String} {message : ε → String} {read : String → Except ε α} {found : Option String}
    {value : Unit} :
    matchField field coordinate text message read found = .ok value ↔
      Reads read found coordinate := by
  unfold matchField Reads
  cases found with
  | none => simp [mismatch]
  | some actual =>
    cases parsed : read actual with
    | error cause => simp [mismatch, parsed]
    | ok other =>
      by_cases same : other = coordinate
      · simp [same, parsed]
      · simp [mismatch, same, parsed]

/-- A field is absent exactly when it is not there. -/
theorem absentField_eq_ok {field : String} {found : Option String} {value : Unit} :
    absentField field found = .ok value ↔ found = none := by
  cases found <;> simp [absentField, mismatch]

/-- The check of a DESCRIPTION accepts exactly the fields that match. -/
theorem validateDescription_eq_ok :
    validateDescription ip fields expected = .ok () ↔ fields.Match ip expected := by
  simp only [validateDescription, bind_eq_ok, ensure_eq_ok, mapError_eq_ok]
  constructor
  · rintro ⟨_, package, version, parsed, _, same, remote⟩
    refine ⟨package, ⟨version, parsed, same⟩, fun git provenance => ?_, fun provenance => ?_⟩
    · simp only [provenance, bind_eq_ok, matchField_eq_ok] at remote
      obtain ⟨_, url, _, sha, subdir⟩ := remote
      refine ⟨url, sha, fun subdirectory some => ?_, fun none => ?_⟩
      · rw [some] at subdir
        exact matchField_eq_ok.mp subdir
      · rw [none] at subdir
        exact absentField_eq_ok.mp subdir
    · simp only [provenance, bind_eq_ok, absentField_eq_ok] at remote
      obtain ⟨_, url, _, sha, subdir⟩ := remote
      exact ⟨url, sha, subdir⟩
  · rintro ⟨package, ⟨version, parsed, same⟩, git, registry⟩
    refine ⟨(), package, version, parsed, (), same, ?_⟩
    cases provenance : expected.gitProvenance with
    | some expectation =>
      obtain ⟨url, sha, subdir, none⟩ := git expectation provenance
      simp only [bind_eq_ok, matchField_eq_ok]
      refine ⟨(), url, (), sha, ?_⟩
      cases found : expectation.subdirectory with
      | some subdirectory => exact matchField_eq_ok.mpr (subdir subdirectory found)
      | none => exact absentField_eq_ok.mpr (none found)
    | none =>
      obtain ⟨url, sha, subdir⟩ := registry provenance
      simp only [bind_eq_ok, absentField_eq_ok]
      exact ⟨(), url, (), sha, subdir⟩

end Matching

end Rsolve
