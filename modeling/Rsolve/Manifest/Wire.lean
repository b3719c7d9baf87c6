import Rsolve.Manifest.Repository

/-!
# Reading the repositories of a manifest

The manifest is a TOML document; its text is read by a library into a tree of values. The
repository section of the tree becomes the list of configured repositories. Reading a URL is the
work of a library too, and enters as a parameter.
-/
open Keyed Checked

namespace Rsolve

/-- `toml::Value` — a tree of TOML values. Tables are in key order. -/
inductive TomlValue
  | string (value : String)
  | integer (value : Int)
  | boolean (value : Bool)
  | array (items : List TomlValue)
  | table (entries : List (String × TomlValue))
  /-- A number with a fraction or a point in time, which no field of a manifest accepts. -/
  | other

/-- A TOML table. -/
abbrev TomlTable := List (String × TomlValue)

/-- `Map::get`. -/
def TomlTable.get (table : TomlTable) (key : String) : Option TomlValue :=
  (table.find? (fun entry => entry.1 == key)).map Prod.snd

/-- `reject_unknown`. -/
def rejectUnknown (table : TomlTable) (allowed : List String) (context : String) :
    Except ManifestError Unit :=
  match table.find? (fun entry => !allowed.contains entry.1) with
  | some entry => .error (.unknownField (context ++ "." ++ entry.1))
  | none => .ok ()

/-- `string`. -/
def tomlString (table : TomlTable) (key : String) : Except ManifestError (Option String) :=
  match table.get key with
  | none => .ok none
  | some (.string value) => .ok (some value)
  | some _ => .error (.wrongType key "string")

/-- `required_string`. -/
def requiredString (table : TomlTable) (key : String) : Except ManifestError String := do
  match ← tomlString table key with
  | some value => return value
  | none => .error (.missingField key)

/-- `parse_registry` — the kind and the namespace of a registry value. -/
def registryFields : TomlValue → Except ManifestError (String × Option String)
  | .string kind => .ok (kind, none)
  | .table table => do
    rejectUnknown table ["kind", "namespace"] "repositories[].registry"
    let kind ← requiredString table "kind"
    let nspace ← tomlString table "namespace"
    return (kind, nspace)
  | _ => .error (.wrongType "repositories[].registry" "string or table")

/-- `parse_registry` — the registry of a kind and a namespace. -/
def registryOf (kind : String) (nspace : Option String) : Except ManifestError RegistrySpec :=
  if kind = "cran" then
    match nspace with
    | some _ => .error (.invalidRegistry "cran does not accept namespace")
    | none => .ok .cran
  else if kind = "cran-like" then
    match nspace with
    | none => .error (.invalidRegistry "cran-like requires namespace")
    | some text => do
      ensure (text ≠ "cran") RegistrySpec.reserved
      let nspace ← (Identifier.new .packageNamespace text).mapError
        (fun cause => .invalidRegistry cause.message)
      RegistrySpec.new nspace
  else if kind = "r-universe" then
    match nspace with
    | some _ => .error (.invalidRegistry "r-universe is parameterless")
    | none => .ok .rUniverse
  else .error (.unknownRegistryKind kind)

/-- `parse_registry`. -/
def parseRegistry : Option TomlValue → Except ManifestError RegistrySpec
  | none => .error (.missingField "repositories[].registry")
  | some value => do
    let fields ← registryFields value
    registryOf fields.1 fields.2

/-- One entry of `parse_repository_packages`. -/
def parseRepositoryPackage (repository : RepositoryId) : TomlValue →
    Except ManifestError PackageName
  | .string value => (PackageName.new value).mapError
      (fun cause => .invalidRepositoryPackage repository value cause.message)
  | _ => .error (.wrongType ("repositories[" ++ repository.text ++ "].packages[]")
      "package name string")

/-- `parse_repository_packages`. -/
def parseRepositoryPackages (repository : RepositoryId) : Option TomlValue →
    Except ManifestError (Option (List PackageName))
  | none => .ok none
  | some (.array entries) => do
    let packages ← entries.mapM (parseRepositoryPackage repository)
    return some packages
  | some _ => .error (.wrongType ("repositories[" ++ repository.text ++ "].packages")
      "array of package names")

section Repositories

variable (parseEndpoint : String → Except ManifestError Endpoint)

/-- One pass of the loop of `parse_repositories`; `ids` are the ids read so far. -/
def parseRepository (ids : List RepositoryId) : TomlValue → Except ManifestError RepositorySpec
  | .table table => do
    rejectUnknown table ["id", "url", "registry", "packages"] "repositories[]"
    let text ← requiredString table "id"
    let id ← (Identifier.new .repositoryId text).mapError
      (fun cause => .invalidRepository cause.message)
    validateRepositoryId id
    ensure (id ∉ ids) (.duplicateRepository id)
    let url ← requiredString table "url"
    let endpoint ← parseEndpoint url
    let registry ← parseRegistry (TomlTable.get table "registry")
    let packages ← parseRepositoryPackages id (TomlTable.get table "packages")
    RepositorySpec.newWithPackages id registry endpoint packages
  | _ => .error (.wrongType "repositories[]" "table")

/-- The loop of `parse_repositories`. -/
def parseRepositoriesFrom (ids : List RepositoryId) : List TomlValue →
    Except ManifestError (List RepositorySpec)
  | [] => .ok []
  | entry :: rest => do
    let repository ← parseRepository parseEndpoint ids entry
    let repositories ← parseRepositoriesFrom (repository.id :: ids) rest
    return repository :: repositories

/-- `parse_repositories`. -/
def parseRepositories : Option TomlValue → Except ManifestError (List RepositorySpec)
  | none => .ok []
  | some (.array entries) => parseRepositoriesFrom parseEndpoint [] entries
  | some _ => .error (.wrongType "repositories" "array of tables")

end Repositories

end Rsolve
