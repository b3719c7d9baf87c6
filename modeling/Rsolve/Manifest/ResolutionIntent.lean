import Rsolve.Manifest.Compose
import Rsolve.Manifest.RepositoryIntent

/-!
# The digest of a composed environment

The digest hashes the fields of an environment in one payload, each behind its length. Lists carry
no counts and end where the next literal tag stands, and some tags are legal package names. The
names of an allowlist increase, which leaves one way to read every payload that composition makes.
-/
open Keyed Checked Ordered Framing

namespace Rsolve

/-- `relation_tag`. -/
def relationTag : RelationOp → String
  | .lt => "<"
  | .le => "<="
  | .eq => "="
  | .ne => "!="
  | .ge => ">="
  | .gt => ">"

/-- The version text in `append_constraint`: the components without trailing zeros, or zero. -/
def canonicalVersionText (version : RPackageVersion) : String :=
  if (joinComponents version.key).isEmpty then "0" else joinComponents version.key

/-- The fields of a clause in `append_constraint`. -/
def clauseFields (clause : VersionClause) : List String :=
  [relationTag clause.op, canonicalVersionText clause.version]

/-- `append_constraint`. -/
def constraintFields (constraint : VersionConstraint) : List String :=
  "constraint" :: (canonicalClauses constraint.clauses).flatMap clauseFields

/-- `append_registry`. -/
def registryFieldTexts (registry : RegistrySpec) : List String :=
  "registry" :: registry.intentFields

/-- `append_source` for a selector. -/
def selectorFields : GitSelector → List String
  | .defaultBranch => ["default-branch"]
  | .branch value => ["branch", value]
  | .tag value => ["tag", value]
  | .rev value => ["rev", value]

/-- `append_source`. -/
def sourceFields : ManifestSource → List String
  | .registry repository => ["registry-source", (repository.map Identifier.text).getD ""]
  | .git url selector subdirectory =>
    "git" :: url.text :: (selectorFields selector ++ [subdirectory.getD ""])
  | .url url sha256 => ["url", url.text, (sha256.map Sha256Digest.text).getD ""]
  | .path path sha256 => ["path", path, (sha256.map Sha256Digest.text).getD ""]

/-- The field of an expansion. -/
def expansionField : RootExpansionPolicy → String
  | .hardOnly => "hard-only"
  | .directSuggests => "direct-suggests"

/-- The fields of a repository in `resolution_intent_digest`. -/
def repositoryFields (repository : RepositorySpec) : List String :=
  "repository" :: repository.id.text :: (registryFieldTexts repository.registry ++
    (repository.manifestEndpoint.text :: "packages" :: packagesIntentFields repository.packages))

/-- The fields of a root in `resolution_intent_digest`. -/
def rootFields (root : ComposedRootIntent) : List String :=
  "root" :: root.name.text :: (constraintFields root.constraint ++
    (sourceFields root.source ++ [expansionField root.expansion]))

namespace ComposedEnvironment

/-- The fields that `resolution_intent_digest` appends to the payload. -/
def intentFields (environment : ComposedEnvironment) : List String :=
  "schema" :: "1" :: "environment" :: environment.environment.text :: "r" ::
    (constraintFields environment.rRequirement ++ ("published-before" ::
      (environment.publishedBefore.map PublicationDate.text).getD "" ::
        (environment.repositories.flatMap repositoryFields ++
          environment.roots.flatMap rootFields)))

/-- The payload that `resolution_intent_digest` hashes. -/
def intentPayload (environment : ComposedEnvironment) : List UInt8 :=
  (environment.intentFields.map textBytes).flatMap lengthPrefixed

end ComposedEnvironment

/-- The version text is that of the shortest spelling. -/
theorem canonicalVersionText_eq (version : RPackageVersion) :
    canonicalVersionText version = joinComponents version.keySpelling := by
  unfold canonicalVersionText RPackageVersion.keySpelling
  by_cases empty : version.key = []
  · rw [empty, if_pos rfl]
    decide
  · have printed : (joinComponents version.key).isEmpty = false := by
      have bounds := version.keySpelling_bounds
      rw [RPackageVersion.keySpelling, if_neg empty] at bounds
      have read := parseComponents_joinComponents bounds.1 bounds.2
      by_contra blank
      rw [Bool.not_eq_false] at blank
      rw [parseComponents, if_pos blank] at read
      cases read
    rw [printed, if_neg (by simp), if_neg empty]

/-- The version text determines the version up to its spelling. -/
theorem canonicalVersionText_eq_iff {left right : RPackageVersion} :
    canonicalVersionText left = canonicalVersionText right ↔ Same left right := by
  rw [canonicalVersionText_eq, canonicalVersionText_eq]
  constructor
  · intro equal
    have read := parseComponents_joinComponents left.keySpelling_bounds.1 left.keySpelling_bounds.2
    rw [equal, parseComponents_joinComponents right.keySpelling_bounds.1
      right.keySpelling_bounds.2] at read
    have spellings : right.keySpelling = left.keySpelling := Except.ok.inj read
    rw [RPackageVersion.same_iff, ← RPackageVersion.trimZeros_keySpelling left, ← spellings,
      RPackageVersion.trimZeros_keySpelling]
  · intro same
    have spellings : left.keySpelling = right.keySpelling := by
      rw [RPackageVersion.keySpelling, RPackageVersion.keySpelling,
        RPackageVersion.same_iff.mp same]
    rw [spellings]

/-- Relations have distinct tags. -/
theorem relationTag_injective {left right : RelationOp} (equal : relationTag left = relationTag right) :
    left = right := by
  cases left <;> cases right <;> first | rfl | exact absurd equal (by decide)

/-- The fields of a clause are its relation and its version up to spelling. -/
theorem clauseFields_eq_iff {left right : VersionClause} :
    clauseFields left = clauseFields right ↔ Same left right := by
  rw [VersionClause.same_iff, clauseFields, clauseFields, List.cons.injEq, List.cons.injEq,
    canonicalVersionText_eq_iff]
  exact ⟨fun equal => ⟨relationTag_injective equal.1, equal.2.1⟩,
    fun same => ⟨congrArg relationTag same.1, same.2, rfl⟩⟩

/-- No clause begins what follows a constraint. -/
def EndsClauses (rest : List String) : Prop :=
  ∀ op others, rest ≠ relationTag op :: others

/-- A list of clauses can be read from the front, up to the spelling of versions. -/
theorem clauses_append_inj {left right : List VersionClause} {leftRest rightRest : List String}
    (leftEnds : EndsClauses leftRest) (rightEnds : EndsClauses rightRest)
    (equal : left.flatMap clauseFields ++ leftRest = right.flatMap clauseFields ++ rightRest) :
    List.Forall₂ Same left right ∧ leftRest = rightRest := by
  induction left generalizing right with
  | nil =>
    cases right with
    | nil => exact ⟨List.Forall₂.nil, equal⟩
    | cons second right => exact absurd equal (leftEnds second.op _)
  | cons first left ih =>
    cases right with
    | nil => exact absurd equal.symm (rightEnds first.op _)
    | cons second right =>
      simp only [List.flatMap_cons, List.append_assoc] at equal
      obtain ⟨heads, equal⟩ := List.append_inj equal rfl
      obtain ⟨tails, rest⟩ := ih equal
      exact ⟨List.Forall₂.cons (clauseFields_eq_iff.mp heads) tails, rest⟩

/-- A constraint can be read from the front, as a set of clauses. -/
theorem constraintFields_append_inj {left right : VersionConstraint}
    {leftRest rightRest : List String} (leftEnds : EndsClauses leftRest)
    (rightEnds : EndsClauses rightRest)
    (equal : constraintFields left ++ leftRest = constraintFields right ++ rightRest) :
    Sorting.Matches Same left.clauses right.clauses ∧ leftRest = rightRest := by
  simp only [constraintFields, List.cons_append, List.cons.injEq, true_and] at equal
  obtain ⟨clauses, rest⟩ := clauses_append_inj leftEnds rightEnds equal
  exact ⟨canonicalClauses_forall₂_iff.mp clauses, rest⟩

/-- The same clauses have the same fields. -/
theorem clauses_congr {left right : List VersionClause} (same : List.Forall₂ Same left right) :
    left.flatMap clauseFields = right.flatMap clauseFields := by
  induction same with
  | nil => rfl
  | cons head _ ih => rw [List.flatMap_cons, List.flatMap_cons, clauseFields_eq_iff.mpr head, ih]

/-- The same set of clauses has the same fields. -/
theorem constraintFields_congr {left right : VersionConstraint}
    (same : Sorting.Matches Same left.clauses right.clauses) :
    constraintFields left = constraintFields right := by
  rw [constraintFields, constraintFields, clauses_congr (canonicalClauses_forall₂_iff.mpr same)]

/-- An optional text that is never empty is determined by its field. -/
theorem getD_map_injective {α : Type} {text : α → String} (injective : Function.Injective text)
    (nonempty : ∀ value, text value ≠ "") {left right : Option α}
    (equal : (left.map text).getD "" = (right.map text).getD "") : left = right := by
  cases left <;> cases right
  case none.none => rfl
  case none.some value => exact absurd equal.symm (nonempty value)
  case some.none value => exact absurd equal (nonempty value)
  case some.some left right => exact congrArg some (injective equal)

/-- An identifier is not the empty text. -/
theorem Identifier.text_ne_empty {kind : IdentifierKind} (identifier : Identifier kind) :
    identifier.text ≠ "" := by
  intro empty
  have valid := identifier.valid
  rw [empty] at valid
  cases valid

/-- A digest is not the empty text. -/
theorem Sha256Digest.text_ne_empty (digest : Sha256Digest) : digest.text ≠ "" := by
  intro empty
  have valid := digest.valid
  rw [empty] at valid
  cases valid

/-- A source whose subdirectory is not the empty text. -/
def ManifestSource.Normal (source : ManifestSource) : Prop :=
  ∀ url selector subdirectory, source = .git url selector (some subdirectory) → subdirectory ≠ ""

/-- A selector can be read from the front. -/
theorem selectorFields_append_inj {left right : GitSelector} {leftRest rightRest : List String}
    (equal : selectorFields left ++ leftRest = selectorFields right ++ rightRest) :
    left = right ∧ leftRest = rightRest := by
  cases left <;> cases right <;>
    simp only [selectorFields, List.cons_append, List.nil_append, List.cons.injEq] at equal <;>
    obtain ⟨tags, equal⟩ := equal
  case defaultBranch.defaultBranch => exact ⟨rfl, equal⟩
  case branch.branch => exact ⟨by rw [equal.1], equal.2⟩
  case tag.tag => exact ⟨by rw [equal.1], equal.2⟩
  case rev.rev => exact ⟨by rw [equal.1], equal.2⟩
  all_goals exact absurd tags (by decide)

/-- A source can be read from the front. -/
theorem sourceFields_append_inj {left right : ManifestSource} {leftRest rightRest : List String}
    (leftNormal : left.Normal) (rightNormal : right.Normal)
    (equal : sourceFields left ++ leftRest = sourceFields right ++ rightRest) :
    left = right ∧ leftRest = rightRest := by
  cases left <;> cases right <;>
    simp only [sourceFields, List.cons_append, List.nil_append, List.cons.injEq,
      List.append_assoc] at equal <;>
    obtain ⟨tags, equal⟩ := equal
  case registry.registry =>
    have repositories := getD_map_injective (fun _ _ => Identifier.ext)
      Identifier.text_ne_empty equal.1
    exact ⟨congrArg ManifestSource.registry repositories, equal.2⟩
  case git.git leftUrl leftSelector leftSubdirectory rightUrl rightSelector rightSubdirectory =>
    obtain ⟨url, equal⟩ := equal
    obtain ⟨selector, equal⟩ := selectorFields_append_inj equal
    obtain ⟨subdirectory, rest⟩ := List.cons.inj equal
    clear equal
    obtain rfl := NormalizedGitUrl.ext url
    obtain rfl := selector
    have subdirectories : leftSubdirectory = rightSubdirectory := by
      cases leftSubdirectory <;> cases rightSubdirectory
      case none.none => rfl
      case none.some right => exact absurd subdirectory.symm (rightNormal _ _ right rfl)
      case some.none left => exact absurd subdirectory (leftNormal _ _ left rfl)
      case some.some left right => exact congrArg some subdirectory
    exact ⟨by rw [subdirectories], rest⟩
  case url.url =>
    have digests := getD_map_injective (fun _ _ => Sha256Digest.ext)
      Sha256Digest.text_ne_empty equal.2.1
    exact ⟨by rw [DirectUrl.ext equal.1, digests], equal.2.2⟩
  case path.path =>
    have digests := getD_map_injective (fun _ _ => Sha256Digest.ext)
      Sha256Digest.text_ne_empty equal.2.1
    exact ⟨by rw [equal.1, digests], equal.2.2⟩
  all_goals exact absurd tags (by decide)

/-- A source ends a list of clauses. -/
theorem endsClauses_sourceFields (source : ManifestSource) (rest : List String) :
    EndsClauses (sourceFields source ++ rest) := by
  intro op others equal
  cases source <;> simp only [sourceFields, List.cons_append, List.cons.injEq] at equal <;>
    cases op <;> exact absurd equal.1 (by decide)

/-- Two roots of one intent. -/
structure ComposedRootIntent.SameRoot (left right : ComposedRootIntent) : Prop where
  /-- They name one package. -/
  name : left.name = right.name
  /-- They have the same set of clauses. -/
  clauses : Sorting.Matches Same left.constraint.clauses right.constraint.clauses
  /-- They have one source. -/
  source : left.source = right.source
  /-- They have one expansion. -/
  expansion : left.expansion = right.expansion

/-- Roots can be read from the front. -/
theorem roots_injective {left right : List ComposedRootIntent}
    (leftNormal : ∀ root ∈ left, root.source.Normal)
    (rightNormal : ∀ root ∈ right, root.source.Normal)
    (equal : left.flatMap rootFields = right.flatMap rootFields) :
    List.Forall₂ ComposedRootIntent.SameRoot left right := by
  induction left generalizing right with
  | nil =>
    cases right with
    | nil => exact List.Forall₂.nil
    | cons second right => simp [rootFields] at equal
  | cons first left ih =>
    cases right with
    | nil => simp [rootFields] at equal
    | cons second right =>
      simp only [List.flatMap_cons, rootFields, List.cons_append, List.append_assoc,
        List.nil_append, List.cons.injEq, true_and] at equal
      obtain ⟨name, equal⟩ := equal
      obtain ⟨clauses, equal⟩ := constraintFields_append_inj (endsClauses_sourceFields _ _)
        (endsClauses_sourceFields _ _) equal
      obtain ⟨source, equal⟩ := sourceFields_append_inj (leftNormal first List.mem_cons_self)
        (rightNormal second List.mem_cons_self) equal
      obtain ⟨expansion, equal⟩ := List.cons.inj equal
      have expansions : first.expansion = second.expansion := by
        revert expansion
        cases first.expansion <;> cases second.expansion <;> simp [expansionField]
      exact List.Forall₂.cons ⟨PackageName.ext name, clauses, source, expansions⟩
        (ih (fun root member => leftNormal root (List.mem_cons_of_mem _ member))
          (fun root member => rightNormal root (List.mem_cons_of_mem _ member)) equal)

/-- The fields of roots of one intent. -/
theorem roots_congr {left right : List ComposedRootIntent}
    (same : List.Forall₂ ComposedRootIntent.SameRoot left right) :
    left.flatMap rootFields = right.flatMap rootFields := by
  induction same with
  | nil => rfl
  | cons head _ ih =>
    rw [List.flatMap_cons, List.flatMap_cons, ih, rootFields, rootFields, head.name,
      constraintFields_congr head.clauses, head.source, head.expansion]

/-- The fields of repositories and roots. -/
def tailFields (repositories : List RepositorySpec) (roots : List ComposedRootIntent) :
    List String :=
  repositories.flatMap repositoryFields ++ roots.flatMap rootFields

/-- How the fields of repositories and roots begin. -/
inductive TailShape : List String → Prop
  /-- Nothing is left. -/
  | done : TailShape []
  /-- A repository begins. -/
  | repository (id : RepositoryId) (registry : RegistrySpec) (others : List String) :
    TailShape ("repository" :: id.text :: "registry" :: registry.tag :: others)
  /-- A root begins; its constraint is followed by a relation or a source. -/
  | root (name : PackageName) (next : String) (others : List String)
    (apart : next ≠ "registry" ∧ next ≠ "constraint") :
    TailShape ("root" :: name.text :: "constraint" :: next :: others)

/-- The fields of repositories and roots have such a beginning. -/
theorem tailShape (repositories : List RepositorySpec) (roots : List ComposedRootIntent) :
    TailShape (tailFields repositories roots) := by
  cases repositories with
  | cons repository repositories =>
    have begins : ∃ others, tailFields (repository :: repositories) roots =
        "repository" :: repository.id.text :: "registry" :: repository.registry.tag :: others := by
      simp only [tailFields, List.flatMap_cons, repositoryFields, registryFieldTexts,
        List.cons_append, List.append_assoc]
      cases repository.registry <;> exact ⟨_, rfl⟩
    obtain ⟨others, begins⟩ := begins
    rw [begins]
    exact .repository _ _ _
  | nil =>
    cases roots with
    | nil => exact .done
    | cons root roots =>
      simp only [tailFields, List.flatMap_nil, List.nil_append, List.flatMap_cons, rootFields,
        constraintFields, List.cons_append, List.append_assoc]
      cases canonicalClauses root.constraint.clauses with
      | nil =>
        cases root.source <;>
          exact .root _ _ _ (by constructor <;> decide)
      | cons clause clauses =>
        refine .root _ _ _ ?_
        cases clause.op <;> constructor <;> decide

/-- No tag of a registry is one of the literals that follow an id or a name. -/
theorem RegistrySpec.tag_apart (registry : RegistrySpec) :
    registry.tag ≠ "registry" ∧ registry.tag ≠ "constraint" := by
  cases registry <;> constructor <;> simp only [tag] <;> decide

/-- Names in order are not read from the beginning of a repository or a root. -/
theorem names_append_ne_tail {extra : PackageName} {more : List PackageName}
    (sorted : (extra :: more).Pairwise (fun left right => compare left right = .lt))
    {left right : List String} (leftShape : TailShape left) (rightShape : TailShape right) :
    left ≠ (extra :: more).map PackageName.text ++ right := by
  intro equal
  rcases more with _ | ⟨second, _ | ⟨third, rest⟩⟩ <;>
    simp only [List.map_cons, List.map_nil, List.cons_append, List.nil_append] at equal
  · -- one name: it is the literal, and what follows it is read one place too early
    cases leftShape with
    | done => cases equal
    | repository id registry others =>
      cases rightShape with
      | done => simp at equal
      | repository =>
        simp only [List.cons.injEq] at equal
        exact registry.tag_apart.1 equal.2.2.2.1
      | root =>
        simp only [List.cons.injEq] at equal
        exact registry.tag_apart.2 equal.2.2.2.1
    | root name next others apart =>
      cases rightShape with
      | done => simp at equal
      | repository =>
        simp only [List.cons.injEq] at equal
        exact apart.1 equal.2.2.2.1
      | root =>
        simp only [List.cons.injEq] at equal
        exact apart.2 equal.2.2.2.1
  · -- two names: the second literal is read as the first one
    cases leftShape with
    | done => cases equal
    | repository id registry others => cases rightShape <;> simp at equal
    | root name next others apart => cases rightShape <;> simp at equal
  · -- three names: the two literals are out of order
    have increasing : compare extra.text third.text = .lt :=
      (List.pairwise_cons.mp sorted).1 third (by simp)
    cases leftShape with
    | done => cases equal
    | repository id registry others =>
      simp only [List.cons.injEq] at equal
      rw [← equal.1, ← equal.2.2.1] at increasing
      exact absurd increasing (by decide)
    | root name next others apart =>
      simp only [List.cons.injEq] at equal
      rw [← equal.1, ← equal.2.2.1] at increasing
      exact absurd increasing (by decide)

/-- Repositories and roots can be told apart. -/
theorem tailFields_injective {leftRepositories rightRepositories : List RepositorySpec}
    {leftRoots rightRoots : List ComposedRootIntent}
    (equal : tailFields leftRepositories leftRoots = tailFields rightRepositories rightRoots) :
    leftRepositories = rightRepositories ∧
      leftRoots.flatMap rootFields = rightRoots.flatMap rootFields := by
  induction leftRepositories generalizing rightRepositories with
  | nil =>
    cases rightRepositories with
    | nil => exact ⟨rfl, equal⟩
    | cons right rightRepositories =>
      cases leftRoots <;> simp [tailFields, repositoryFields, rootFields] at equal
  | cons left leftRepositories ih =>
    cases rightRepositories with
    | nil => cases rightRoots <;> simp [tailFields, repositoryFields, rootFields] at equal
    | cons right rightRepositories =>
      have parts : left.SameHead right ∧
          packagesIntentFields left.packages ++ tailFields leftRepositories leftRoots =
            packagesIntentFields right.packages ++ tailFields rightRepositories rightRoots := by
        simp only [tailFields, List.flatMap_cons, repositoryFields, registryFieldTexts,
          List.cons_append, List.append_assoc, List.cons.injEq, true_and] at equal
        obtain ⟨ids, equal⟩ := equal
        obtain ⟨registries, equal⟩ := RegistrySpec.intentFields_append_inj equal
        simp only [List.cons.injEq, true_and] at equal
        exact ⟨⟨Identifier.ext ids, registries, Endpoint.ext equal.1⟩, equal.2⟩
      obtain ⟨head, equal⟩ := parts
      have added : ∀ {repository : RepositorySpec} {names : List PackageName}
          {extra : PackageName} {more : List PackageName},
          repository.packages = some (names ++ extra :: more) →
            (extra :: more).Pairwise (fun left right => compare left right = .lt) := by
        intro repository names extra more packages
        exact (List.pairwise_append.mp (repository.listed _ packages).2).2.1
      rcases packages_append_cases equal with ⟨packages, rest⟩ |
        ⟨names, extra, more, -, longer, rest⟩ | ⟨names, extra, more, -, longer, rest⟩
      · obtain rfl := RepositorySpec.ext_of head.id head.registry head.endpoint packages
        obtain ⟨repositories, roots⟩ := ih rest
        exact ⟨by rw [repositories], roots⟩
      · exact absurd rest (names_append_ne_tail (added longer) (tailShape _ _) (tailShape _ _))
      · exact absurd rest (names_append_ne_tail (added longer) (tailShape _ _) (tailShape _ _))

/-- Two environments of one resolution intent. -/
structure ComposedEnvironment.SameIntent (left right : ComposedEnvironment) : Prop where
  /-- They have one id. -/
  environment : left.environment = right.environment
  /-- They have the same set of clauses on R. -/
  rRequirement : Sorting.Matches Same left.rRequirement.clauses right.rRequirement.clauses
  /-- They have one publication cutoff. -/
  publishedBefore : left.publishedBefore = right.publishedBefore
  /-- They have one list of repositories. -/
  repositories : left.repositories = right.repositories
  /-- Their roots agree one by one. -/
  roots : List.Forall₂ ComposedRootIntent.SameRoot left.roots right.roots

/-- Environments of one intent have one list of fields. -/
theorem ComposedEnvironment.SameIntent.intentFields_eq {left right : ComposedEnvironment}
    (same : left.SameIntent right) : left.intentFields = right.intentFields := by
  rw [intentFields, intentFields, same.environment, constraintFields_congr same.rRequirement,
    same.publishedBefore, same.repositories, roots_congr same.roots]

/-- A date is not the empty text. -/
theorem PublicationDate.text_ne_empty (date : PublicationDate) : date.text ≠ "" := by
  intro empty
  have characters := congrArg String.toList empty
  simp [text] at characters

/-- The fields of environments with normal sources determine the intent. -/
theorem ComposedEnvironment.sameIntent_of_intentFields {left right : ComposedEnvironment}
    (leftNormal : ∀ root ∈ left.roots, root.source.Normal)
    (rightNormal : ∀ root ∈ right.roots, root.source.Normal)
    (equal : left.intentFields = right.intentFields) : left.SameIntent right := by
  have ends : ∀ others, EndsClauses ("published-before" :: others) := by
    intro others op rest equal
    cases op <;> simp [relationTag] at equal
  simp only [intentFields, List.cons.injEq, true_and] at equal
  obtain ⟨environment, equal⟩ := equal
  obtain ⟨rRequirement, equal⟩ := constraintFields_append_inj (ends _) (ends _) equal
  simp only [List.cons.injEq, true_and] at equal
  obtain ⟨published, equal⟩ := equal
  have publishedBefore := getD_map_injective (fun _ _ => PublicationDate.text_injective)
    PublicationDate.text_ne_empty published
  obtain ⟨repositories, roots⟩ := tailFields_injective equal
  exact ⟨EnvironmentId.ext environment, rRequirement, publishedBefore, repositories,
    roots_injective leftNormal rightNormal roots⟩

/-- The components of a normalized subdirectory are not empty. -/
theorem subdirectoryParts_nonempty {parts components result : List (List Char)}
    (nonempty : ∀ part ∈ parts, part ≠ [])
    (accepted : subdirectoryParts parts components = .ok result) : ∀ part ∈ result, part ≠ [] := by
  induction components generalizing parts with
  | nil =>
    obtain rfl : parts.reverse = result := Except.ok.inj accepted
    intro part member
    exact nonempty part (List.mem_reverse.mp member)
  | cons component components ih =>
    simp only [subdirectoryParts] at accepted
    split at accepted
    · exact ih nonempty accepted
    · next named =>
      split at accepted
      · cases parts with
        | nil => cases accepted
        | cons _ parts =>
          exact ih (fun part member => nonempty part (List.mem_cons_of_mem _ member)) accepted
      · refine ih (fun part member => ?_) accepted
        rcases List.mem_cons.mp member with rfl | member
        · exact fun empty => named (Or.inl empty)
        · exact nonempty part member

/-- A normalized subdirectory is not the empty text. -/
theorem normalizeRelativeSubdirectory_ne_empty {value result : String}
    (accepted : normalizeRelativeSubdirectory value = .ok result) : result ≠ "" := by
  obtain ⟨_, -, accepted⟩ := bind_eq_ok.mp accepted
  obtain ⟨_, -, accepted⟩ := bind_eq_ok.mp accepted
  obtain ⟨parts, split, accepted⟩ := bind_eq_ok.mp accepted
  obtain ⟨_, present, accepted⟩ := bind_eq_ok.mp accepted
  obtain rfl := Except.ok.inj accepted
  have nonempty := subdirectoryParts_nonempty (by simp) split
  intro empty
  have characters := congrArg String.toList empty
  cases parts with
  | nil => exact ensure_eq_ok.mp present rfl
  | cons first rest =>
    have firstNonempty := nonempty first List.mem_cons_self
    cases rest <;>
      simp [joinPath, String.toList_intercalate, List.intercalate, firstNonempty] at characters

/-- A normalized source is normal. -/
theorem normalizeSource_normal {name : PackageName} {source result : ManifestSource}
    (accepted : normalizeSource name source = .ok result) : result.Normal := by
  rintro url selector subdirectory rfl
  unfold normalizeSource at accepted
  split at accepted
  · obtain ⟨normalized, normalizes, accepted⟩ := bind_eq_ok.mp accepted
    obtain ⟨⟩ := Except.ok.inj accepted
    exact normalizeRelativeSubdirectory_ne_empty (mapError_eq_ok.mp normalizes)
  · obtain ⟨normalized, -, accepted⟩ := bind_eq_ok.mp accepted
    cases Except.ok.inj accepted
  · next other _ =>
    obtain rfl := Except.ok.inj accepted
    exact absurd rfl (other _ _ _)

/-- A merged source is one of the merged sources. -/
theorem mergeSources_eq_ok {name : PackageName} {left right result : ManifestSource}
    (accepted : mergeSources name left right = .ok result) : result = left ∨ result = right := by
  unfold mergeSources at accepted
  split at accepted
  · exact Or.inl (Except.ok.inj accepted).symm
  · split at accepted
    · exact Or.inr (Except.ok.inj accepted).symm
    · exact Or.inl (Except.ok.inj accepted).symm
    · cases accepted

/-- Every root collected so far has a normal source. -/
def NormalRoots (roots : RootTable) : Prop :=
  ∀ entry ∈ roots.entries, entry.2.source.Normal

/-- Appending a dependency keeps the sources normal. -/
theorem appendDependency_normal {roots result : RootTable}
    {entry : PackageName × ManifestDependencySpec}
    (accepted : appendDependency roots entry = .ok result) (normal : NormalRoots roots) :
    NormalRoots result := by
  obtain ⟨candidate, read, accepted⟩ := bind_eq_ok.mp accepted
  have candidateNormal : candidate.source.Normal := by
    obtain ⟨_, -, read⟩ := bind_eq_ok.mp read
    obtain ⟨_, -, read⟩ := bind_eq_ok.mp read
    obtain ⟨source, normalized, read⟩ := bind_eq_ok.mp read
    obtain rfl := Except.ok.inj read
    exact normalizeSource_normal normalized
  have inserted : ∀ root : ComposedRootIntent, root.source.Normal →
      NormalRoots (roots.insert entry.1 root) := by
    intro root rootNormal other member
    rcases OrderedMap.mem_insert.mp member with rfl | ⟨member, -⟩
    · exact rootNormal
    · exact normal other member
  cases found : roots.get? entry.1 with
  | none =>
    rw [found] at accepted
    obtain rfl := Except.ok.inj accepted
    exact inserted candidate candidateNormal
  | some existing =>
    rw [found] at accepted
    obtain ⟨merged, merges, accepted⟩ := bind_eq_ok.mp accepted
    obtain rfl := Except.ok.inj accepted
    refine inserted merged ?_
    obtain ⟨source, sources, merges⟩ := bind_eq_ok.mp merges
    obtain rfl := Except.ok.inj merges
    rcases mergeSources_eq_ok sources with rfl | rfl
    · exact normal _ (OrderedMap.get?_eq_some_iff.mp found)
    · exact candidateNormal

/-- Appending dependencies keeps the sources normal. -/
theorem appendDependencies_normal {roots result : RootTable} {dependencies : DependencyTable}
    (accepted : appendDependencies roots dependencies = .ok result) (normal : NormalRoots roots) :
    NormalRoots result :=
  foldlM_invariant (fun _ _ _ _ => appendDependency_normal) normal accepted

/-- The roots of a composed environment have normal sources. -/
theorem composeEnvironment_normal {document : ManifestDocument} {input : String}
    {target : ResolutionTarget} {locked : LockedIdentities} {environment : ComposedEnvironment}
    (composed : composeEnvironmentWithLocked document input target locked = .ok environment) :
    ∀ root ∈ environment.roots, root.source.Normal := by
  obtain ⟨_, -, composed⟩ := bind_eq_ok.mp composed
  obtain ⟨_, -, composed⟩ := bind_eq_ok.mp composed
  obtain ⟨groups, -, composed⟩ := bind_eq_ok.mp composed
  obtain ⟨_, -, composed⟩ := bind_eq_ok.mp composed
  obtain ⟨_, -, composed⟩ := bind_eq_ok.mp composed
  obtain ⟨base, appended, composed⟩ := bind_eq_ok.mp composed
  obtain ⟨roots, grouped, composed⟩ := bind_eq_ok.mp composed
  obtain ⟨_, -, composed⟩ := bind_eq_ok.mp composed
  obtain rfl := Except.ok.inj composed
  have baseNormal := appendDependencies_normal appended (by simp [NormalRoots, OrderedMap.empty])
  have normal : NormalRoots roots := by
    refine foldlM_invariant (fun state group next _ stepped kept => ?_) baseNormal grouped
    unfold appendGroup at stepped
    split at stepped
    · exact appendDependencies_normal stepped kept
    · cases stepped
  intro root member
  obtain ⟨entry, entryIn, rfl⟩ := List.mem_map.mp member
  exact normal entry entryIn

/-- An environment made by composition, whose payload is built in memory. -/
structure HashedEnvironment where
  /-- The environment. -/
  environment : ComposedEnvironment
  /-- Composition made the environment. -/
  composed : ∃ document input target locked,
    composeEnvironmentWithLocked document input target locked = .ok environment
  /-- The payload fits into memory. -/
  fits : environment.intentPayload.length < lengthBound

/-- The payload of a composed environment is its resolution intent. -/
theorem intentPayload_eq_iff (left right : HashedEnvironment) :
    left.environment.intentPayload = right.environment.intentPayload ↔
      left.environment.SameIntent right.environment := by
  constructor
  · intro equal
    obtain ⟨_, _, _, _, leftComposed⟩ := left.composed
    obtain ⟨_, _, _, _, rightComposed⟩ := right.composed
    have bytes := flatMap_lengthPrefixed_injective left.fits right.fits equal
    have fields := (Function.Injective.list_map fun _ _ => textBytes_injective) bytes
    exact ComposedEnvironment.sameIntent_of_intentFields (composeEnvironment_normal leftComposed)
      (composeEnvironment_normal rightComposed) fields
  · intro same
    rw [ComposedEnvironment.intentPayload, ComposedEnvironment.intentPayload, same.intentFields_eq]

end Rsolve
