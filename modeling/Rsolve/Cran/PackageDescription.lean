import Rsolve.Core.Observation
import Rsolve.Lib.Splitting
import Rsolve.Manifest.Compose
import Rsolve.Resolver.DebugTexts

/-!
# Package descriptions

The fields of a package description give its name and version, a publication date, its dependencies
and its other metadata. Field names are compared without regard to case, and no name may stand twice.
-/
open Checked Ordered Splitting

namespace Rsolve

/-- What the readers of package records use of libraries: the digest, the table of characters that
`{:?}` escapes, and the date library. -/
structure CatalogBasis where
  /-- `Sha256::digest`. -/
  sha256 : List UInt8 → Vector UInt8 32
  /-- The characters that are not printable. -/
  unprintable : Char → Bool
  /-- `jiff::civil::Date::strptime` with the format `%Y-%m-%d`. -/
  date : String → Except String PublicationDate
  /-- `jiff::civil::DateTime::strptime` with a format: the text that the format gives for the result,
  and its date. -/
  dateTime : String → String → Except String (String × PublicationDate)

/-- `PublicationDateError`. -/
inductive PublicationDateError
  | invalid (input diagnostic : String)
  | nonCanonical (input : String)
deriving DecidableEq

/-- `PublicationDateError::fmt` — the error text. -/
def PublicationDateError.message (unprintable : Char → Bool) : PublicationDateError → String
  | .invalid input diagnostic =>
    "invalid publication date " ++ debugText unprintable input ++ ": " ++ diagnostic
  | .nonCanonical input =>
    "publication date " ++ debugText unprintable input ++ " is not YYYY-MM-DD"

/-- `PublicationDate::parse`. -/
def PublicationDate.parse (basis : CatalogBasis) (input : String) :
    Except PublicationDateError PublicationDate :=
  match basis.date input with
  | .error diagnostic => .error (.invalid input diagnostic)
  | .ok date => if date.text ≠ input then .error (.nonCanonical input) else .ok date

/-- `DependencyParseError`. -/
inductive DependencyParseError
  | emptyEntry
  | invalidPackageName (error : PackageNameError)
  | invalidConstraintSyntax
  | missingConstraintVersion
  | invalidVersion (error : RPackageVersionError)
deriving DecidableEq

/-- `DescriptionError`. -/
inductive DescriptionError
  | missingField (field : String)
  | duplicateField (field : String)
  | invalidPackageName (error : PackageNameError)
  | invalidVersion (error : RPackageVersionError)
  | invalidMetadata (error : ReleaseMetadataError)
  | invalidPublicationDate (value diagnostic : String)
  | invalidDependency (message : String)
  | dependency (field entry : String) (source : DependencyParseError)
deriving DecidableEq

/-- `ParsedDescription`. -/
structure ParsedDescription where
  package : PackageName
  version : RPackageVersion
  metadata : ReleaseMetadata
  publication : Option ReleasePublication
  dependencies : List DeclaredDependency

/-- The fields of a record, names and values. -/
abbrev RecordFields := List (String × String)

namespace PackageDescription

/-- `str::eq_ignore_ascii_case`. -/
def eqIgnoreAsciiCase (left right : String) : Bool :=
  toAsciiLowercase left == toAsciiLowercase right

/-- `field` — the value of the first field of a name. -/
def field (fields : RecordFields) (name : String) : Option String :=
  (fields.find? (fun entry => eqIgnoreAsciiCase entry.1 name)).map Prod.snd

/-- `required_field`. -/
def requiredField (fields : RecordFields) (name : String) : Except DescriptionError String :=
  match field fields name with
  | some value => .ok value
  | none => .error (.missingField name)

/-- `reject_duplicate_fields`, with the names so far. -/
def rejectDuplicateFields : List String → RecordFields → Except DescriptionError Unit
  | _, [] => .ok ()
  | names, (name, _) :: rest => do
    ensure (toAsciiLowercase name ∉ names) (.duplicateField name)
    rejectDuplicateFields (toAsciiLowercase name :: names) rest

/-- The names that `is_reserved_field` knows. -/
def reservedNames : List String :=
  ["package", "version", "depends", "imports", "linkingto", "suggests", "enhances", "md5sum",
    "published"]

/-- `is_reserved_field`. -/
def isReservedField (name : String) : Bool := toAsciiLowercase name ∈ reservedNames

/-- `str::trim`. -/
def trimText (text : String) : String := String.ofList (trim text.toList)

/-- The operators of `parse_constraint`, in the order in which they are tried. -/
def constraintOperators : List (List Char × RelationOp) :=
  [(['>', '='], .ge), (['<', '='], .le), (['=', '='], .eq), (['!', '='], .ne), (['>'], .gt),
    (['<'], .lt)]

/-- `parse_constraint`. -/
def parseConstraint (input : List Char) : Except DependencyParseError VersionConstraint :=
  match constraintOperators.find? (fun operator => operator.1.isPrefixOf input) with
  | none => .error .invalidConstraintSyntax
  | some (operator, op) =>
    let versionText := trim (input.drop operator.length)
    if versionText = [] then .error .missingConstraintVersion
    else do
      let version ← (RPackageVersion.parse (String.ofList versionText)).mapError .invalidVersion
      return ⟨[⟨op, version⟩]⟩

/-- `parse_dependency_entry`. -/
def parseDependencyEntry (input : List Char) :
    Except DependencyParseError (PackageName × VersionConstraint) :=
  let input := trim input
  if input = [] then .error .emptyEntry
  else
    match splitOnce ['('] input with
    | some (nameText, after) =>
      if after.getLast? ≠ some ')' then .error .invalidConstraintSyntax
      else
        let expression := after.dropLast
        if '(' ∈ expression ∨ ')' ∈ expression then .error .invalidConstraintSyntax
        else do
          let constraint ← parseConstraint expression
          let name ← (PackageName.new (String.ofList (trim nameText))).mapError .invalidPackageName
          return (name, constraint)
    | none =>
      if ')' ∈ input then .error .invalidConstraintSyntax
      else do
        let name ← (PackageName.new (String.ofList input)).mapError .invalidPackageName
        return (name, .unconstrained)

/-- `str::split_terminator` at a character. -/
def splitTerminator (separator : Char) (text : List Char) : List (List Char) :=
  let pieces := text.splitOn separator
  if pieces.getLast? = some [] then pieces.dropLast else pieces

/-- The fields of `parse_description_fields` that declare dependencies. -/
def dependencyKinds : List (String × DependencyKind) :=
  [("Depends", .depends), ("Imports", .imports), ("LinkingTo", .linkingTo), ("Suggests", .suggests),
    ("Enhances", .enhances)]

/-- One entry of a dependency field. -/
def parseDependency (fieldName : String) (kind : DependencyKind) (entry : List Char) :
    Except DescriptionError DeclaredDependency := do
  let (name, constraint) ← (parseDependencyEntry entry).mapError
    (.dependency fieldName (String.ofList (trim entry)))
  let package ← (PackageRequirement.new name .any constraint).mapError
    (fun error => .invalidDependency error.message)
  return ⟨kind, package⟩

/-- The dependencies that one field declares. -/
def fieldDependencies (fields : RecordFields) (fieldName : String) (kind : DependencyKind) :
    Except DescriptionError (List DeclaredDependency) :=
  match field fields fieldName with
  | some value => (splitTerminator ',' value.toList).mapM (parseDependency fieldName kind)
  | none => .ok []

/-- `parse_publication_date`. -/
def parsePublicationDate (basis : CatalogBasis) (value : String) :
    Except DescriptionError ReleasePublication := do
  let value := trimText value
  let parse := fun input => (PublicationDate.parse basis input).mapError fun error =>
    DescriptionError.invalidPublicationDate value (error.message basis.unprintable)
  if byteLength value = 10 then
    let date ← parse value
    return ⟨date⟩
  else
    let (format, hasUtcSuffix) ← match byteLength value with
      | 19 => .ok ("%Y-%m-%d %H:%M:%S", false)
      | 23 => .ok ("%Y-%m-%d %H:%M:%S UTC", true)
      | _ => .error (DescriptionError.invalidPublicationDate value
          "Published datetime must use an accepted full-string spelling")
    ensure (hasUtcSuffix = true → [' ', 'U', 'T', 'C'] <:+ value.toList)
      (.invalidPublicationDate value "Published datetime must end with uppercase UTC")
    let (canonical, date) ← (basis.dateTime format value).mapError (.invalidPublicationDate value)
    ensure (canonical = value)
      (.invalidPublicationDate value "Published datetime is not canonical")
    let date ← parse date.text
    return ⟨date⟩

/-- The metadata of a record: its fields without a home of their own, by name. -/
def metadataOf (fields : RecordFields) : OrderedMap String String :=
  (fields.filter (fun entry => !isReservedField entry.1)).foldl
    (fun map entry => map.insert entry.1 entry.2) .empty

/-- The publication date of a record. -/
def publicationOf (basis : CatalogBasis) (fields : RecordFields) :
    Except DescriptionError (Option ReleasePublication) :=
  match field fields "Published" with
  | some value => (parsePublicationDate basis value).map some
  | none => .ok none

/-- `parse_description_fields`. -/
def parseDescriptionFields (basis : CatalogBasis) (fields : RecordFields) :
    Except DescriptionError ParsedDescription := do
  rejectDuplicateFields [] fields
  let version ← (RPackageVersion.parse (trimText (← requiredField fields "Version"))).mapError
    .invalidVersion
  let package ← (PackageName.new (trimText (← requiredField fields "Package"))).mapError
    .invalidPackageName
  let publication ← publicationOf basis fields
  let dependencies ← dependencyKinds.mapM (fun entry => fieldDependencies fields entry.1 entry.2)
  let metadata ← (ReleaseMetadata.new (metadataOf fields)).mapError .invalidMetadata
  return ⟨package, version, metadata, publication, dependencies.flatten⟩

end PackageDescription

end Rsolve
