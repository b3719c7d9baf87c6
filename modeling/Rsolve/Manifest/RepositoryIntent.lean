import Rsolve.Lib.Framing
import Rsolve.Manifest.Wire

/-!
# The digest of the configured repositories

The digest hashes the fields of every repository in turn, each behind its length. A repository is
its id, the tag of its registry, a namespace when the registry has one, its endpoint and its
allowlist. Nothing marks the end of an allowlist, so the fields of two lists of repositories can be
the same; this module says exactly when.
-/
open Keyed Checked Framing

namespace Rsolve

/-- The fields of a registry in `repository_intent_digest`. -/
def RegistrySpec.intentFields (registry : RegistrySpec) : List String :=
  match registry with
  | .cranLike nspace => [registry.tag, nspace.text]
  | _ => [registry.tag]

/-- The fields of an allowlist in `repository_intent_digest`. -/
def packagesIntentFields : Option (List PackageName) → List String
  | none => ["all"]
  | some packages => "allowlist" :: packages.map PackageName.text

/-- The fields of one repository in `repository_intent_digest`. -/
def RepositorySpec.intentFields (repository : RepositorySpec) : List String :=
  repository.id.text :: (repository.registry.intentFields ++
    (repository.manifestEndpoint.text :: packagesIntentFields repository.packages))

/-- The fields that `repository_intent_digest` hashes. -/
def repositoryIntentFields (repositories : List RepositorySpec) : List (List UInt8) :=
  (repositories.flatMap RepositorySpec.intentFields).map textBytes

/-- The bytes that `digest_fields` hashes. -/
def digestFieldsPreimage (fields : List (List UInt8)) : List UInt8 :=
  textBytes "rsolve.manifest.v1\x00" ++ fields.flatMap lengthPrefixed

/-- Package names are letters, digits and periods. -/
theorem PackageName.mem_text (name : PackageName) {character : Char}
    (member : character ∈ name.text.toList) : character.isAlphanum = true ∨ character = '.' := by
  have valid := name.valid
  unfold PackageName.check at valid
  cases spelled : name.text.toList with
  | nil => simp [spelled] at member
  | cons first rest =>
    rw [spelled] at valid member
    simp only at valid
    split at valid
    · cases valid
    · split at valid
      · cases valid
      · next passed =>
        have all := List.findIdx?_eq_none_iff.mp passed character member
        simpa [or_iff_not_imp_left] using all

/-- A text with another character is not a package name. -/
theorem PackageName.text_ne (name : PackageName) {text : String} (character : Char)
    (member : character ∈ text.toList)
    (foreign : character.isAlphanum = false ∧ character ≠ '.') : name.text ≠ text := by
  rintro rfl
  rcases name.mem_text member with alphanumeric | period
  · rw [foreign.1] at alphanumeric
    cases alphanumeric
  · exact foreign.2 period

/-- An endpoint holds a colon. -/
theorem Endpoint.colon_mem (endpoint : Endpoint) : ':' ∈ endpoint.text.toList := by
  rcases endpoint.absolute with initial | initial
  · exact initial.subset (by decide)
  · exact initial.subset (by decide)

/-- No package name is an endpoint. -/
theorem PackageName.text_ne_endpoint (name : PackageName) (endpoint : Endpoint) :
    name.text ≠ endpoint.text :=
  name.text_ne ':' endpoint.colon_mem (by decide)

/-- No text without a colon is an endpoint. -/
theorem Endpoint.text_ne (endpoint : Endpoint) {text : String} (plain : ':' ∉ text.toList) :
    endpoint.text ≠ text := by
  rintro rfl
  exact plain endpoint.colon_mem

/-- No id of a repository is an endpoint. -/
theorem RepositorySpec.id_ne_endpoint (repository : RepositorySpec) (endpoint : Endpoint) :
    endpoint.text ≠ repository.id.text := by
  refine endpoint.text_ne fun member => ?_
  have allowed := List.all_eq_true.mp repository.named.2.2 ':' member
  exact absurd allowed (by decide)

/-- No tag is an endpoint. -/
theorem Endpoint.text_ne_tag (endpoint : Endpoint) (registry : RegistrySpec) :
    endpoint.text ≠ registry.tag := by
  refine endpoint.text_ne ?_
  cases registry <;> simp only [RegistrySpec.tag] <;> decide

/-- The namespace that is spelled like the tag of a registry. -/
def universeNamespace : PackageNamespace := ⟨"r-universe", by decide⟩

/-- An R-universe repository whose id is spelled like the tag of a registry. -/
def RepositorySpec.Misnamed (repository : RepositorySpec) : Prop :=
  repository.id.text = "cran-like" ∧ repository.registry = .rUniverse

/-- Misnamed repositories are recognized by their id and registry. -/
instance (repository : RepositorySpec) : Decidable repository.Misnamed :=
  inferInstanceAs (Decidable (_ ∧ _))

/-- A repository without the last package of its allowlist, and that package as an id. -/
structure Shortened where
  /-- The repository with one package less. -/
  repository : RepositorySpec
  /-- The last package, read as an id. -/
  id : RepositoryId
  /-- It is a named id. -/
  named : NamedId id.text

/-- Take the last package from an allowlist of two or more, when it can be read as an id. -/
def RepositorySpec.shorten (repository : RepositorySpec) : Option Shortened :=
  match repository.packages with
  | none => none
  | some names =>
    if listed : Allowlist names.dropLast then
      match names.getLast? with
      | none => none
      | some last =>
        match Identifier.new .repositoryId last.text with
        | .error _ => none
        | .ok id =>
          if named : NamedId id.text then
            some ⟨{ repository with
              packages := some names.dropLast
              listed := by rintro _ ⟨⟩; exact listed }, id, named⟩
          else none
    else none

/-- Read a repository as a CRAN-like repository with an id. -/
def RepositorySpec.renamed (repository : RepositorySpec) (id : RepositoryId)
    (named : NamedId id.text) : RepositorySpec :=
  { repository with
    id
    registry := .cranLike universeNamespace
    named
    unreserved := by rintro _ ⟨⟩; decide }

/-- The repositories of a list with every misnamed repository after an allowlist read as a CRAN-like
repository that takes its id from the allowlist. -/
def plainReadingFrom (current : RepositorySpec) : List RepositorySpec → List RepositorySpec
  | [] => [current]
  | next :: rest =>
    match if next.Misnamed then current.shorten else none with
    | some shorter => shorter.repository :: plainReadingFrom (next.renamed shorter.id shorter.named) rest
    | none => current :: plainReadingFrom next rest

/-- The plain reading of a list of repositories. -/
def plainReading : List RepositorySpec → List RepositorySpec
  | [] => []
  | first :: rest => plainReadingFrom first rest

/-- What the shortening of a repository is. -/
theorem RepositorySpec.shorten_eq_some {repository : RepositorySpec} {shorter : Shortened}
    (shortened : repository.shorten = some shorter) :
    ∃ names last, repository.packages = some (names ++ [last]) ∧
      shorter.repository.packages = some names ∧ shorter.id.text = last.text ∧
      shorter.repository.id = repository.id ∧
      shorter.repository.registry = repository.registry ∧
      shorter.repository.manifestEndpoint = repository.manifestEndpoint := by
  unfold shorten at shortened
  split at shortened
  · cases shortened
  · next names packages =>
    split at shortened
    · split at shortened
      · cases shortened
      · next last final =>
        split at shortened
        · cases shortened
        · next id read =>
          split at shortened
          · cases shortened
            refine ⟨names.dropLast, last, ?_, rfl, Identifier.new_eq_ok.mp read, rfl, rfl, rfl⟩
            rw [packages, List.dropLast_append_getLast? last final]
          · cases shortened
    · cases shortened

/-- A repository is shortened to the one that lacks its last package. -/
theorem RepositorySpec.shorten_of {repository shorter : RepositorySpec} {names : List PackageName}
    {last : PackageName} {id : RepositoryId} (named : NamedId id.text)
    (packages : repository.packages = some (names ++ [last]))
    (remaining : shorter.packages = some names) (spelled : id.text = last.text)
    (ids : shorter.id = repository.id) (registries : shorter.registry = repository.registry)
    (endpoints : shorter.manifestEndpoint = repository.manifestEndpoint) :
    repository.shorten = some ⟨shorter, id, named⟩ := by
  have listed : Allowlist names := shorter.listed names remaining
  have read : Identifier.new .repositoryId last.text = .ok id := Identifier.new_eq_ok.mpr spelled
  unfold shorten
  split
  · next missing => simp [packages] at missing
  · next found present =>
    obtain rfl : names ++ [last] = found := Option.some.inj (packages.symm.trans present)
    have final : (names ++ [last]).getLast? = some last := by simp
    have rest : Allowlist (names ++ [last]).dropLast := by simpa using listed
    rw [dif_pos rest, final]
    simp only [read, dif_pos named]
    congr 2
    exact ext_of ids.symm registries.symm endpoints.symm (by simp [remaining])

/-- The fields of a list of repositories. -/
def fieldTexts (repositories : List RepositorySpec) : List String :=
  repositories.flatMap RepositorySpec.intentFields

/-- The fields that follow the endpoint of a repository. -/
def followingTexts (packages : Option (List PackageName)) (rest : List RepositorySpec) :
    List String :=
  packagesIntentFields packages ++ fieldTexts rest

/-- Two repositories that differ in their allowlists at most. -/
structure RepositorySpec.SameHead (left right : RepositorySpec) : Prop where
  /-- They have one id. -/
  id : left.id = right.id
  /-- They have one registry. -/
  registry : left.registry = right.registry
  /-- They have one endpoint. -/
  endpoint : left.manifestEndpoint = right.manifestEndpoint

/-- The fields of a nonempty list. -/
theorem fieldTexts_cons (repository : RepositorySpec) (rest : List RepositorySpec) :
    fieldTexts (repository :: rest) = repository.id.text :: (repository.registry.intentFields ++
      (repository.manifestEndpoint.text :: followingTexts repository.packages rest)) := by
  simp [fieldTexts, followingTexts, RepositorySpec.intentFields]

/-- A registry can be read from the front. -/
theorem RegistrySpec.intentFields_append_inj {left right : RegistrySpec}
    {leftRest rightRest : List String}
    (equal : left.intentFields ++ leftRest = right.intentFields ++ rightRest) :
    left = right ∧ leftRest = rightRest := by
  cases left <;> cases right <;> simp [intentFields, tag] at equal ⊢
  case cranLike.cranLike => exact ⟨Identifier.ext equal.1, equal.2⟩
  all_goals exact equal

/-- A repository can be read from the front up to its endpoint. -/
theorem sameHead_of_fieldTexts {left right : RepositorySpec} {leftRest rightRest : List RepositorySpec}
    (equal : fieldTexts (left :: leftRest) = fieldTexts (right :: rightRest)) :
    left.SameHead right ∧
      followingTexts left.packages leftRest = followingTexts right.packages rightRest := by
  rw [fieldTexts_cons, fieldTexts_cons, List.cons.injEq] at equal
  obtain ⟨ids, equal⟩ := equal
  obtain ⟨registries, equal⟩ := RegistrySpec.intentFields_append_inj equal
  rw [List.cons.injEq] at equal
  exact ⟨⟨Identifier.ext ids, registries, Endpoint.ext equal.1⟩, equal.2⟩

/-- No endpoint begins what follows an endpoint. -/
theorem followingTexts_ne_cons (packages : Option (List PackageName)) (rest : List RepositorySpec)
    (endpoint : Endpoint) (others : List String) :
    followingTexts packages rest ≠ endpoint.text :: others := by
  intro equal
  cases packages with
  | none =>
    simp only [followingTexts, packagesIntentFields, List.cons_append, List.cons.injEq] at equal
    exact endpoint.text_ne (by decide) equal.1.symm
  | some names =>
    simp only [followingTexts, packagesIntentFields, List.cons_append, List.cons.injEq] at equal
    exact endpoint.text_ne (by decide) equal.1.symm

/-- No endpoint is read as package names or as the id of a repository. -/
theorem endpoint_cons_ne (endpoint : Endpoint) (others : List String) (names : List PackageName)
    (rest : List RepositorySpec) :
    endpoint.text :: others ≠ names.map PackageName.text ++ fieldTexts rest := by
  intro equal
  cases names with
  | cons name names =>
    simp only [List.map_cons, List.cons_append, List.cons.injEq] at equal
    exact name.text_ne_endpoint endpoint equal.1.symm
  | nil =>
    cases rest with
    | nil => simp [fieldTexts] at equal
    | cons next rest =>
      rw [fieldTexts_cons] at equal
      simp only [List.map_nil, List.nil_append, List.cons.injEq] at equal
      exact next.id_ne_endpoint endpoint equal.1

/-- No endpoint is read as a registry. -/
theorem RegistrySpec.endpoint_cons_ne_intentFields (registry : RegistrySpec) (endpoint : Endpoint)
    (others rest : List String) : endpoint.text :: others ≠ registry.intentFields ++ rest := by
  intro equal
  have tags : endpoint.text = registry.tag := by
    cases registry <;>
      simp only [intentFields, List.cons_append, List.cons.injEq] at equal <;> exact equal.1
  exact endpoint.text_ne_tag registry tags

/-- A repository whose id is read as one more package is a CRAN-like repository with the namespace
that is spelled like a tag, and the other reading continues with a misnamed repository. -/
theorem absorbed_of_fieldTexts {extra : PackageName} {more : List PackageName}
    {leftRest rightRest : List RepositorySpec}
    (equal : fieldTexts leftRest =
      (extra :: more).map PackageName.text ++ fieldTexts rightRest) :
    more = [] ∧ ∃ left leftTail right rightTail, leftRest = left :: leftTail ∧
      rightRest = right :: rightTail ∧ left.id.text = extra.text ∧
      left.registry = .cranLike universeNamespace ∧ right.Misnamed ∧
      left.manifestEndpoint = right.manifestEndpoint ∧
      followingTexts left.packages leftTail = followingTexts right.packages rightTail := by
  cases leftRest with
  | nil => simp [fieldTexts] at equal
  | cons left leftTail =>
    rw [fieldTexts_cons] at equal
    simp only [List.map_cons, List.cons_append, List.cons.injEq] at equal
    obtain ⟨id, equal⟩ := equal
    cases more with
    | cons second more =>
      -- the tag would be a package name, which leaves only `cran`, and then the endpoint one too
      simp only [List.map_cons, List.cons_append] at equal
      cases registry : left.registry with
      | cran =>
        simp only [registry, RegistrySpec.intentFields, List.cons_append, List.nil_append,
          List.cons.injEq] at equal
        exact absurd equal.2 (endpoint_cons_ne _ _ more rightRest)
      | cranLike nspace =>
        simp only [registry, RegistrySpec.intentFields, RegistrySpec.tag, List.cons_append,
          List.cons.injEq] at equal
        exact absurd equal.1.symm (second.text_ne '-' (by decide) (by decide))
      | rUniverse =>
        simp only [registry, RegistrySpec.intentFields, RegistrySpec.tag, List.cons_append,
          List.cons.injEq] at equal
        exact absurd equal.1.symm (second.text_ne '-' (by decide) (by decide))
    | nil =>
      refine ⟨rfl, ?_⟩
      cases rightRest with
      | nil =>
        cases registry : left.registry <;>
          simp [registry, RegistrySpec.intentFields, fieldTexts] at equal
      | cons right rightTail =>
        rw [fieldTexts_cons] at equal
        simp only [List.map_nil, List.nil_append] at equal
        cases registry : left.registry with
        | cran =>
          simp only [registry, RegistrySpec.intentFields, List.cons_append, List.nil_append,
            List.cons.injEq] at equal
          exact absurd equal.2 (right.registry.endpoint_cons_ne_intentFields _ _ _)
        | rUniverse =>
          simp only [registry, RegistrySpec.intentFields, List.cons_append, List.nil_append,
            List.cons.injEq] at equal
          exact absurd equal.2 (right.registry.endpoint_cons_ne_intentFields _ _ _)
        | cranLike nspace =>
          simp only [registry, RegistrySpec.intentFields, RegistrySpec.tag, List.cons_append,
            List.nil_append, List.cons.injEq] at equal
          obtain ⟨misnamed, equal⟩ := equal
          cases kind : right.registry with
          | cran =>
            simp only [kind, List.cons_append, List.cons.injEq] at equal
            exact absurd equal.1 (left.unreserved nspace registry)
          | cranLike other =>
            simp only [kind, List.cons_append, List.cons.injEq,
              List.nil_append] at equal
            exact absurd equal.2.2 (followingTexts_ne_cons _ _ _ _)
          | rUniverse =>
            simp only [kind, List.cons_append, List.cons.injEq,
              List.nil_append] at equal
            obtain ⟨spelled, endpoints, following⟩ := equal
            have nspaces : nspace = universeNamespace := Identifier.ext spelled
            exact ⟨left, leftTail, right, rightTail, rfl, rfl, id, by rw [registry, nspaces],
              ⟨misnamed.symm, kind⟩, Endpoint.ext endpoints, following⟩

/-- Repositories with the same head are misnamed together. -/
theorem RepositorySpec.SameHead.misnamed_iff {left right : RepositorySpec}
    (same : left.SameHead right) : left.Misnamed ↔ right.Misnamed := by
  rw [Misnamed, Misnamed, same.id, same.registry]

/-- A repository of a CRAN-like registry is not misnamed. -/
theorem RepositorySpec.not_misnamed {repository : RepositorySpec} {nspace : PackageNamespace}
    (registry : repository.registry = .cranLike nspace) : ¬ repository.Misnamed := by
  intro misnamed
  have kinds := registry.symm.trans misnamed.2
  cases kinds

/-- Allowlists before equal fields: one allowlist and one continuation, or one allowlist is longer
and takes names from the continuation of the other. -/
theorem packages_append_cases {leftPackages rightPackages : Option (List PackageName)}
    {leftRest rightRest : List String}
    (equal : packagesIntentFields leftPackages ++ leftRest =
      packagesIntentFields rightPackages ++ rightRest) :
    (leftPackages = rightPackages ∧ leftRest = rightRest) ∨
    (∃ names extra more, leftPackages = some names ∧
      rightPackages = some (names ++ extra :: more) ∧
      leftRest = (extra :: more).map PackageName.text ++ rightRest) ∨
    ∃ names extra more, rightPackages = some names ∧
      leftPackages = some (names ++ extra :: more) ∧
      rightRest = (extra :: more).map PackageName.text ++ leftRest := by
  cases leftPackages with
  | none =>
    cases rightPackages with
    | none =>
      simp only [packagesIntentFields, List.cons_append, List.nil_append, List.cons.injEq,
        true_and] at equal
      exact Or.inl ⟨rfl, equal⟩
    | some names => simp [packagesIntentFields] at equal
  | some leftNames =>
    cases rightPackages with
    | none => simp [packagesIntentFields] at equal
    | some rightNames =>
      simp only [packagesIntentFields, List.cons_append, List.cons.injEq, true_and] at equal
      have texts : Function.Injective PackageName.text := fun _ _ => PackageName.ext
      rcases List.append_eq_append_iff.mp equal with ⟨extra, longer, rest⟩ | ⟨extra, longer, rest⟩
      · obtain ⟨shared, more, rfl, sharedTexts, rfl⟩ := List.map_eq_append_iff.mp longer
        obtain rfl := texts.list_map sharedTexts
        cases more with
        | nil => exact Or.inl ⟨by simp, by simpa using rest⟩
        | cons first more => exact Or.inr (Or.inl ⟨shared, first, more, rfl, rfl, rest⟩)
      · obtain ⟨shared, more, rfl, sharedTexts, rfl⟩ := List.map_eq_append_iff.mp longer
        obtain rfl := texts.list_map sharedTexts
        cases more with
        | nil => exact Or.inl ⟨by simp, by simpa using rest.symm⟩
        | cons first more => exact Or.inr (Or.inr ⟨shared, first, more, rfl, rfl, rest⟩)

/-- One step of the plain reading at a misnamed repository. -/
theorem plainReadingFrom_misnamed {current next : RepositorySpec} {rest : List RepositorySpec}
    {shorter : Shortened} (misnamed : next.Misnamed) (shortened : current.shorten = some shorter) :
    plainReadingFrom current (next :: rest) =
      shorter.repository :: plainReadingFrom (next.renamed shorter.id shorter.named) rest := by
  simp only [plainReadingFrom, if_pos misnamed, shortened]

/-- One step of the plain reading at another repository. -/
theorem plainReadingFrom_kept {current next : RepositorySpec} {rest : List RepositorySpec}
    (kept : next.Misnamed → current.shorten = none) :
    plainReadingFrom current (next :: rest) = current :: plainReadingFrom next rest := by
  by_cases misnamed : next.Misnamed
  · simp only [plainReadingFrom, if_pos misnamed, kept misnamed]
  · simp only [plainReadingFrom, if_neg misnamed]

/-- Repositories that continue with the same fields have one plain reading. -/
theorem plainReadingFrom_eq_of_following {left right : RepositorySpec}
    {leftRest rightRest : List RepositorySpec} (same : left.SameHead right)
    (equal : followingTexts left.packages leftRest = followingTexts right.packages rightRest) :
    plainReadingFrom left leftRest = plainReadingFrom right rightRest := by
  induction leftRest generalizing left right rightRest with
  | nil =>
    rcases packages_append_cases equal with ⟨packages, rest⟩ | ⟨_, _, _, _, _, rest⟩ |
      ⟨names, extra, more, shorter, longer, rest⟩
    · obtain rfl := RepositorySpec.ext_of same.id same.registry same.endpoint packages
      cases rightRest with
      | nil => rfl
      | cons next rightTail =>
        rw [fieldTexts_cons] at rest
        simp [fieldTexts] at rest
    · simp [fieldTexts] at rest
    · obtain ⟨-, _, _, _, _, -, missing, -⟩ := absorbed_of_fieldTexts rest
      cases missing
  | cons next leftTail ih =>
    rcases packages_append_cases equal with ⟨packages, rest⟩ |
      ⟨names, extra, more, shorter, longer, rest⟩ | ⟨names, extra, more, shorter, longer, rest⟩
    · obtain rfl := RepositorySpec.ext_of same.id same.registry same.endpoint packages
      cases rightRest with
      | nil =>
        rw [fieldTexts_cons] at rest
        simp [fieldTexts] at rest
      | cons other rightTail =>
        obtain ⟨heads, following⟩ := sameHead_of_fieldTexts rest
        cases shortened : left.shorten with
        | none =>
          rw [plainReadingFrom_kept fun _ => shortened, plainReadingFrom_kept fun _ => shortened,
            ih heads following]
        | some shorter =>
          by_cases misnamed : next.Misnamed
          · rw [plainReadingFrom_misnamed misnamed shortened,
              plainReadingFrom_misnamed (heads.misnamed_iff.mp misnamed) shortened]
            exact congrArg (shorter.repository :: ·) (ih ⟨rfl, rfl, heads.endpoint⟩ following)
          · rw [plainReadingFrom_kept (absurd · misnamed),
              plainReadingFrom_kept (absurd · (mt heads.misnamed_iff.mpr misnamed)),
              ih heads following]
    · obtain ⟨rfl, _, _, other, rightTail, ⟨⟩, rfl, id, registry, misnamed, endpoint, following⟩ :=
        absorbed_of_fieldTexts rest
      have shortened := RepositorySpec.shorten_of next.named longer shorter id same.id
        same.registry same.endpoint
      rw [plainReadingFrom_kept (absurd · (RepositorySpec.not_misnamed registry)),
        plainReadingFrom_misnamed misnamed shortened]
      exact congrArg (left :: ·) (ih ⟨rfl, registry, endpoint⟩ following)
    · obtain ⟨rfl, other, rightTail, _, _, rfl, ⟨⟩, id, registry, misnamed, endpoint, following⟩ :=
        absorbed_of_fieldTexts rest
      have shortened := RepositorySpec.shorten_of other.named longer shorter id same.id.symm
        same.registry.symm same.endpoint.symm
      rw [plainReadingFrom_misnamed misnamed shortened,
        plainReadingFrom_kept (absurd · (RepositorySpec.not_misnamed registry))]
      exact congrArg (right :: ·) (ih ⟨rfl, registry.symm, endpoint.symm⟩ following.symm)

/-- The plain reading has the fields of the list it reads. -/
theorem fieldTexts_plainReadingFrom (current : RepositorySpec) (rest : List RepositorySpec) :
    fieldTexts (plainReadingFrom current rest) = fieldTexts (current :: rest) := by
  induction rest generalizing current with
  | nil => rfl
  | cons next rest ih =>
    by_cases misnamed : next.Misnamed
    · cases shortened : current.shorten with
      | none =>
        rw [plainReadingFrom_kept fun _ => shortened, fieldTexts_cons, fieldTexts_cons,
          followingTexts, followingTexts, ih]
      | some shorter =>
        obtain ⟨names, last, packages, remaining, spelled, ids, registries, endpoints⟩ :=
          RepositorySpec.shorten_eq_some shortened
        rw [plainReadingFrom_misnamed misnamed shortened, fieldTexts_cons, fieldTexts_cons,
          followingTexts, followingTexts, ih, fieldTexts_cons, fieldTexts_cons, ids, registries,
          endpoints, packages, remaining]
        simp only [RepositorySpec.renamed, RegistrySpec.intentFields, RegistrySpec.tag, spelled,
          misnamed.1, misnamed.2, universeNamespace, packagesIntentFields, List.map_append,
          List.map_cons, List.map_nil, List.cons_append, List.nil_append, List.append_assoc]
    · rw [plainReadingFrom_kept (absurd · misnamed), fieldTexts_cons, fieldTexts_cons,
        followingTexts, followingTexts, ih]

/-- Lists of repositories have the same fields exactly when they have one plain reading. -/
theorem repositoryIntentFields_eq_iff (left right : List RepositorySpec) :
    repositoryIntentFields left = repositoryIntentFields right ↔
      plainReading left = plainReading right := by
  have encoded : repositoryIntentFields left = repositoryIntentFields right ↔
      fieldTexts left = fieldTexts right :=
    (Function.Injective.list_map fun _ _ => textBytes_injective).eq_iff
  have kept : ∀ repositories, fieldTexts (plainReading repositories) = fieldTexts repositories := by
    intro repositories
    cases repositories with
    | nil => rfl
    | cons first rest => exact fieldTexts_plainReadingFrom first rest
  rw [encoded]
  constructor
  · intro equal
    cases left with
    | nil =>
      cases right with
      | nil => rfl
      | cons second right =>
        rw [fieldTexts_cons] at equal
        simp [fieldTexts] at equal
    | cons first left =>
      cases right with
      | nil =>
        rw [fieldTexts_cons] at equal
        simp [fieldTexts] at equal
      | cons second right =>
        obtain ⟨heads, following⟩ := sameHead_of_fieldTexts equal
        exact plainReadingFrom_eq_of_following heads following
  · intro equal
    rw [← kept left, ← kept right, equal]

/-- The hashed fields determine two lists of repositories exactly when the lists are equal or have
different plain readings. -/
theorem repositoryIntentFields_inj_iff (left right : List RepositorySpec) :
    (repositoryIntentFields left = repositoryIntentFields right → left = right) ↔
      (left = right ∨ plainReading left ≠ plainReading right) := by
  rw [repositoryIntentFields_eq_iff, or_comm, ne_eq, ← imp_iff_not_or]

namespace Small

/-- Absolute URLs are read as they are spelled. -/
def parseEndpoint (text : String) : Except ManifestError Endpoint :=
  if absolute : "http://".toList <+: text.toList ∨ "https://".toList <+: text.toList then
    .ok ⟨text, absolute⟩
  else .error (.invalidEndpoint text "relative URL without a base")

/-- A repository that is asked for one package, before a CRAN-like repository. -/
def shortAllowlist : TomlValue :=
  .array [
    .table [("id", .string "main"), ("packages", .array [.string "abind"]),
      ("registry", .string "cran"), ("url", .string "https://cran.example.org/")],
    .table [("id", .string "zoo"),
      ("registry", .table [("kind", .string "cran-like"), ("namespace", .string "r-universe")]),
      ("url", .string "https://other.example.org/")]]

/-- A repository that is asked for two packages, before an R-universe repository. -/
def longAllowlist : TomlValue :=
  .array [
    .table [("id", .string "main"), ("packages", .array [.string "abind", .string "zoo"]),
      ("registry", .string "cran"), ("url", .string "https://cran.example.org/")],
    .table [("id", .string "cran-like"), ("registry", .string "r-universe"),
      ("url", .string "https://other.example.org/")]]

end Small

/-- Two manifests with different repositories have the same hashed fields. -/
theorem repositoryIntentFields_collision :
    ∃ left right, parseRepositories Small.parseEndpoint (some Small.shortAllowlist) = .ok left ∧
      parseRepositories Small.parseEndpoint (some Small.longAllowlist) = .ok right ∧
      repositoryIntentFields left = repositoryIntentFields right ∧ left ≠ right := by
  obtain ⟨left, leftRead⟩ := exists_of_isOk (show
    (parseRepositories Small.parseEndpoint (some Small.shortAllowlist)).isOk = true by
      decide +kernel)
  obtain ⟨right, rightRead⟩ := exists_of_isOk (show
    (parseRepositories Small.parseEndpoint (some Small.longAllowlist)).isOk = true by
      decide +kernel)
  have fields : (parseRepositories Small.parseEndpoint (some Small.shortAllowlist)).toOption.map
      repositoryIntentFields = (parseRepositories Small.parseEndpoint
        (some Small.longAllowlist)).toOption.map repositoryIntentFields := by
    decide +kernel
  have ids : (parseRepositories Small.parseEndpoint (some Small.shortAllowlist)).toOption.map
      (List.map RepositorySpec.id) ≠ (parseRepositories Small.parseEndpoint
        (some Small.longAllowlist)).toOption.map (List.map RepositorySpec.id) := by
    decide +kernel
  rw [leftRead, rightRead] at fields ids
  refine ⟨left, right, leftRead, rightRead, Option.some.inj fields, ?_⟩
  rintro rfl
  exact ids rfl

end Rsolve
