import Rsolve.Core.Request
import Rsolve.Lib.Checked

/-!
# Configured repositories

A manifest lists repositories by id, registry, endpoint and an optional allowlist of packages. A
repository specification is built by one constructor; what that constructor checks is kept as fields
of the specification.
-/
open Keyed Checked

namespace Rsolve

/-- `ManifestError` — the errors of the modelled part of the manifest. -/
inductive ManifestError
  | rIsNotAPackageRequirement
  | duplicateRequirement (name : PackageName)
  | invalidDependency (reason : String)
  | unknownSchema (schema : Int)
  | missingField (field : String)
  | invalidField (field reason : String)
  | unknownField (field : String)
  | wrongType (field expected : String)
  | unknownRegistryKind (kind : String)
  | invalidRegistry (reason : String)
  | invalidRepository (reason : String)
  | duplicateRepository (id : RepositoryId)
  | emptyRepositoryPackageAllowlist (id : RepositoryId)
  | invalidRepositoryPackage (repository : RepositoryId) (value reason : String)
  | duplicateRepositoryPackage (repository : RepositoryId) (package : PackageName)
  | repositoryPackageNotAllowed (repository : RepositoryId) (package : PackageName)
  | unknownRepositoryReference (id : RepositoryId) (field : String)
  | unknownEnvironmentGroup (environment group : String)
  | duplicateEnvironmentGroup (environment group : String)
  | unknownEnvironment (id : String)
  | invalidVersionConstraint (field reason : String)
  | targetOutsideRConstraint (target constraint : String)
  | directSourceRequiresAcquisition (name : PackageName)
  | invalidIdentifier (kind value : String)
  | invalidEndpoint (value reason : String)
  | sourceConflict (field : String)
  | invalidDependencyField (name reason : String)
deriving DecidableEq

/-- `Endpoint` — the serialization of an absolute URL. The URL library writes the scheme before the
first colon, and only the two HTTP schemes are accepted. -/
@[ext]
structure Endpoint where
  /-- The URL. -/
  text : String
  /-- The URL is an HTTP URL with an authority. -/
  absolute : "http://".toList <+: text.toList ∨ "https://".toList <+: text.toList
deriving DecidableEq

/-- `RegistrySpec` — the kind of a registry. -/
inductive RegistrySpec
  | cran
  | cranLike (nspace : PackageNamespace)
  | rUniverse
deriving DecidableEq

namespace RegistrySpec

/-- `RegistrySpec::tag`. -/
def tag : RegistrySpec → String
  | .cran => "cran"
  | .cranLike _ => "cran-like"
  | .rUniverse => "r-universe"

/-- No CRAN-like registry uses the reserved namespace. -/
def Unreserved (registry : RegistrySpec) : Prop :=
  ∀ nspace, registry = .cranLike nspace → nspace.text ≠ "cran"

/-- The reserved namespace is a text. -/
instance (registry : RegistrySpec) : Decidable registry.Unreserved :=
  match registry with
  | .cran => .isTrue (by rintro _ ⟨⟩)
  | .cranLike nspace =>
    decidable_of_iff (nspace.text ≠ "cran")
      ⟨fun differs => by rintro _ ⟨⟩; exact differs, fun unreserved => unreserved nspace rfl⟩
  | .rUniverse => .isTrue (by rintro _ ⟨⟩)

/-- The error of a reserved namespace. -/
def reserved : ManifestError :=
  .invalidRegistry "cran-like cannot use reserved namespace `cran`"

/-- `RegistrySpec::cran_like`. -/
def new (nspace : PackageNamespace) : Except ManifestError RegistrySpec := do
  ensure (nspace.text ≠ "cran") reserved
  return .cranLike nspace

end RegistrySpec

/-- The characters of a named id. -/
def isNamedIdCharacter (character : Char) : Bool :=
  character.isLower || character.isDigit || character == '_' || character == '-'

/-- A named id: a lower-case letter, then lower-case letters, digits, `_` and `-`, at most 64 bytes
in all. -/
def NamedId (value : String) : Prop :=
  byteLength value ≤ 64 ∧ value.toList.head?.any Char.isLower = true ∧
    value.toList.all isNamedIdCharacter = true

/-- Named ids are decided by their characters. -/
instance (value : String) : Decidable (NamedId value) :=
  inferInstanceAs (Decidable (_ ∧ _ ∧ _))

/-- `validate_named_id`. -/
def validateNamedId (value kind : String) : Except ManifestError Unit :=
  ensure (NamedId value) (.invalidIdentifier kind value)

/-- `validate_repository_id`. -/
def validateRepositoryId (id : RepositoryId) : Except ManifestError Unit :=
  validateNamedId id.text "repository"

/-- An allowlist that names packages in order, each once. -/
def Allowlist (packages : List PackageName) : Prop :=
  packages ≠ [] ∧ packages.Pairwise (fun left right => compare left right = .lt)

/-- Allowlists are decided by their names. -/
instance (packages : List PackageName) : Decidable (Allowlist packages) :=
  inferInstanceAs (Decidable (_ ∧ _))

/-- `RepositorySpec` — one configured repository. -/
structure RepositorySpec where
  /-- The id of the repository. -/
  id : RepositoryId
  /-- The kind of its registry. -/
  registry : RegistrySpec
  /-- Where it is. -/
  manifestEndpoint : Endpoint
  /-- The packages it may be asked for, or all of them. -/
  packages : Option (List PackageName)
  /-- The id is a named id. -/
  named : NamedId id.text
  /-- The namespace is not the reserved one. -/
  unreserved : registry.Unreserved
  /-- The allowlist is in order. -/
  listed : ∀ names, packages = some names → Allowlist names
deriving DecidableEq

namespace RepositorySpec

/-- Specifications that agree on what they configure are equal. -/
theorem ext_of {left right : RepositorySpec} (id : left.id = right.id)
    (registry : left.registry = right.registry)
    (endpoint : left.manifestEndpoint = right.manifestEndpoint)
    (packages : left.packages = right.packages) : left = right := by
  obtain ⟨_, _, _, _, _, _, _⟩ := left
  obtain ⟨_, _, _, _, _, _, _⟩ := right
  cases id
  cases registry
  cases endpoint
  cases packages
  rfl

/-- The first package that a sorted list repeats. -/
def repeated : List PackageName → Option PackageName
  | first :: second :: rest => if first = second then some first else repeated (second :: rest)
  | _ => none

/-- A sorted list that repeats nothing increases strictly. -/
theorem strict_of_repeated {packages : List PackageName}
    (sorted : packages.Pairwise (fun left right => (compare left right).isLE))
    (distinct : repeated packages = none) :
    packages.Pairwise (fun left right => compare left right = .lt) := by
  induction packages with
  | nil => exact List.Pairwise.nil
  | cons first rest ih =>
    obtain ⟨below, sorted⟩ := List.pairwise_cons.mp sorted
    cases rest with
    | nil => exact List.pairwise_singleton _ _
    | cons second rest =>
      simp only [repeated] at distinct
      split at distinct
      · simp at distinct
      · next differs =>
        have strict := ih sorted distinct
        have step : compare first second = .lt := by
          cases relation : compare first second with
          | lt => rfl
          | eq => exact absurd (PackageName.eq_of_compare_eq relation) differs
          | gt =>
            have contradiction := below second List.mem_cons_self
            rw [relation] at contradiction
            simp at contradiction
        refine List.pairwise_cons.mpr ⟨fun other member => ?_, strict⟩
        rcases List.mem_cons.mp member with rfl | later
        · exact step
        · exact Std.TransCmp.lt_trans step ((List.pairwise_cons.mp strict).1 other later)

/-- The allowlist part of `RepositorySpec::new_with_packages`: sort the names and reject an empty
list and a repeated name. -/
def canonicalPackages (id : RepositoryId) :
    Option (List PackageName) →
      Except ManifestError {packages : Option (List PackageName) //
        ∀ names, packages = some names → Allowlist names}
  | none => .ok ⟨none, by rintro _ ⟨⟩⟩
  | some [] => .error (.emptyRepositoryPackageAllowlist id)
  | some (first :: rest) =>
    match distinct : repeated (Sorting.sortBy compare (first :: rest)) with
    | some package => .error (.duplicateRepositoryPackage id package)
    | none => .ok ⟨some (Sorting.sortBy compare (first :: rest)), by
        rintro _ ⟨⟩
        refine ⟨fun empty => ?_, strict_of_repeated (Sorting.sortBy_pairwise compare _) distinct⟩
        have lengths := (Sorting.sortBy_perm compare (first :: rest)).length_eq
        simp [empty] at lengths⟩

/-- `RepositorySpec::new_with_packages`. -/
def newWithPackages (id : RepositoryId) (registry : RegistrySpec) (manifestEndpoint : Endpoint)
    (packages : Option (List PackageName)) : Except ManifestError RepositorySpec :=
  if named : NamedId id.text then
    if unreserved : registry.Unreserved then do
      let canonical ← canonicalPackages id packages
      return ⟨id, registry, manifestEndpoint, canonical.val, named, unreserved, canonical.property⟩
    else .error RegistrySpec.reserved
  else .error (.invalidIdentifier "repository" id.text)

/-- `RepositorySpec::package_allowed`. -/
def packageAllowed (repository : RepositorySpec) (package : PackageName) : Bool :=
  match repository.packages with
  | none => true
  | some packages => packages.contains package

end RepositorySpec

end Rsolve
