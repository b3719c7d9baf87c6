import Rsolve.Core.Release
import Rsolve.Lib.Framing

/-!
# The package index of a repository

The index of a materialized repository is a text with one paragraph for every artifact, in package
order. A paragraph has the package and its version, its dependencies by kind, and its other metadata
under canonical field names.
-/
open Keyed Checked

namespace Rsolve

/-- `CachedArtifact` — a cached source archive. The content of the object file stands in for its
path; it is absent when the path is no regular file. -/
structure CachedArtifact where
  /-- The path of the object, for messages. -/
  objectPath : String
  /-- The content of the object file. -/
  content : Option (List UInt8)
  /-- The digest of the archive. -/
  sha256 : Sha256Digest
  /-- The length of the archive. -/
  size : Nat

/-- `MaterializationArtifact` — one selected source artifact. -/
structure MaterializationArtifact where
  /-- The identity of the release. -/
  identity : ReleaseIdentity
  /-- Its version. -/
  version : RPackageVersion
  /-- The cached archive. -/
  artifact : CachedArtifact
  /-- The other metadata. -/
  metadata : ReleaseMetadata
  /-- The publication date, if one is known. -/
  publication : Option ReleasePublication
  /-- The declared dependencies. -/
  dependencies : List DeclaredDependency

/-- `MaterializationArtifact::package`. -/
def MaterializationArtifact.package (selected : MaterializationArtifact) : PackageName :=
  selected.identity.name

/-- `PackagesError`. -/
inductive PackagesError
  | invalidFieldName (field : String)
  | duplicateField (field : String)
  | invalidFieldValue (field reason : String)
  | duplicateDependency (field name : String)
  | unsupportedConstraint (field : String)
deriving DecidableEq

/-- `DEPENDENCY_FIELDS`. -/
def dependencyFields : List (DependencyKind × String) :=
  [(.depends, "Depends"), (.imports, "Imports"), (.linkingTo, "LinkingTo"), (.suggests, "Suggests"),
    (.enhances, "Enhances")]

/-- The spelling of a relation in a dependency field. -/
def RelationOp.spelling : RelationOp → String
  | .lt => "<"
  | .le => "<="
  | .eq => "=="
  | .ne => "!="
  | .ge => ">="
  | .gt => ">"

/-- `render_dependency`. -/
def renderDependency (dependency : DeclaredDependency) (field : String) :
    Except PackagesError String := do
  ensure (dependency.package.source = .any) (.unsupportedConstraint field)
  let clauses := dependency.package.constraint.clauses
  ensure (clauses.length ≤ 1 ∧ ∀ clause ∈ clauses, clause.op ≠ .ne) (.unsupportedConstraint field)
  if clauses.isEmpty then return dependency.package.name.text
  return dependency.package.name.text ++ " (" ++ ", ".intercalate
    (clauses.map (fun clause => clause.op.spelling ++ " " ++ clause.version.raw)) ++ ")"

/-- The loop over the dependencies of one kind: every name once. -/
def renderDependencies (field : String) : List String → List DeclaredDependency →
    Except PackagesError (List String)
  | _, [] => .ok []
  | seen, dependency :: rest => do
    let name := dependency.package.name.text
    ensure (name ∉ seen) (.duplicateDependency field name)
    let rendered ← renderDependency dependency field
    return rendered :: (← renderDependencies field (name :: seen) rest)

/-- The field of one kind of dependencies, if there are any. -/
def dependencyField (dependencies : List DeclaredDependency) (kind : DependencyKind)
    (field : String) : Except PackagesError (List (String × String)) := do
  let ofKind := dependencies.filter (fun dependency => dependency.kind == kind)
  if ofKind.isEmpty then return []
  let rendered ← renderDependencies field [] ofKind
  return [(field, ", ".intercalate (Sorting.sortBy compare rendered))]

/-- `field_rank`. -/
def fieldRank (name : String) : Nat :=
  match toAsciiLowercase name with
  | "package" => 0
  | "version" => 1
  | "priority" => 2
  | "depends" => 3
  | "imports" => 4
  | "linkingto" => 5
  | "suggests" => 6
  | "enhances" => 7
  | "license" => 8
  | "license_is_foss" => 9
  | "license_restricts_use" => 10
  | "os_type" => 11
  | "archs" => 12
  | "md5sum" => 13
  | "sha256" | "sha256sum" => 14
  | "needscompilation" => 15
  | "built" => 16
  | "path" => 17
  | "file" => 18
  | "published" => 19
  | _ => 20

/-- `canonical_field_name`. -/
def canonicalFieldName (name : String) : String :=
  match toAsciiLowercase name with
  | "package" => "Package"
  | "version" => "Version"
  | "priority" => "Priority"
  | "depends" => "Depends"
  | "imports" => "Imports"
  | "linkingto" => "LinkingTo"
  | "suggests" => "Suggests"
  | "enhances" => "Enhances"
  | "license" => "License"
  | "license_is_foss" => "License_is_FOSS"
  | "license_restricts_use" => "License_restricts_use"
  | "os_type" => "OS_type"
  | "archs" => "Archs"
  | "md5sum" => "MD5sum"
  | "sha256" | "sha256sum" => "SHA256"
  | "needscompilation" => "NeedsCompilation"
  | "built" => "Built"
  | "path" => "Path"
  | "file" => "File"
  | "published" => "Published"
  | _ => name

/-- The characters of a field name. -/
def isFieldCharacter (character : Char) : Bool :=
  character.isAlphanum || character == '.' || character == '_' || character == '-' ||
    character == '/'

/-- `validate_field_name`. -/
def validateFieldName (name : String) : Except PackagesError Unit :=
  ensure (name.toList.head?.any Char.isAlpha = true ∧ name.toList.all isFieldCharacter = true)
    (.invalidFieldName name)

/-- `validate_value`. -/
def validateValue (field value : String) : Except PackagesError Unit := do
  ensure ('\r' ∉ value.toList) (.invalidFieldValue field "carriage return is not allowed")
  ensure (value.toList.all fun character =>
      !isControl character || character == '\n' || character == '\t')
    (.invalidFieldValue field "control character is not allowed")

/-- The loop over the other metadata: every canonical field once. -/
def metadataFields : List String → List (String × String) →
    Except PackagesError (List (String × String))
  | _, [] => .ok []
  | reserved, (name, value) :: rest => do
    validateFieldName name
    let canonical := canonicalFieldName name
    ensure (toAsciiLowercase canonical ∉ reserved) (.duplicateField name)
    return (canonical, value) :: (← metadataFields (toAsciiLowercase canonical :: reserved) rest)

/-- The order of fields in a paragraph. -/
def compareFields : String × String → String × String → Ordering :=
  compareLex (compareOn (fun field => fieldRank field.1)) (compareOn Prod.fst)

/-- The lines of one field. -/
def fieldLines (field : String × String) : Except PackagesError String := do
  validateValue field.1 field.2
  return field.1 ++ ": " ++ "\n ".intercalate ((field.2.toList.splitOn '\n').map String.ofList)

/-- `write_record` — the paragraph of one artifact. -/
def writeRecord (artifact : MaterializationArtifact) : Except PackagesError String := do
  let named := [("Package", artifact.package.text), ("Version", artifact.version.raw)]
  let published := (artifact.publication.map (fun publication =>
    ("Published", publication.date.text))).toList
  let dependencies ← dependencyFields.mapM (fun entry =>
    dependencyField artifact.dependencies entry.1 entry.2)
  let fields := named ++ published ++ dependencies.flatten
  let reserved := fields.map (fun field => toAsciiLowercase (canonicalFieldName field.1))
  let others ← metadataFields reserved artifact.metadata.fields
  let lines ← (Sorting.sortBy compareFields (fields ++ others)).mapM fieldLines
  return "\n".intercalate lines

/-- The order of paragraphs. -/
def compareRows : MaterializationArtifact → MaterializationArtifact → Ordering :=
  compareLex (compareOn MaterializationArtifact.package)
    (fun left right => left.version.cmp right.version)

/-- `write_packages` — the index. -/
def writePackages (artifacts : List MaterializationArtifact) :
    Except PackagesError (List UInt8) := do
  let paragraphs ← (Sorting.sortBy compareRows artifacts).mapM writeRecord
  return Framing.textBytes ("\n\n".intercalate paragraphs ++ "\n")

end Rsolve
