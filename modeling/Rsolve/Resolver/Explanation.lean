import Rsolve.Resolver.Expansion

/-!
# The explanation of a resolution

A resolution can be returned with a comparison: for R and for every resolved package, what was
assigned, on which basis, and how every alternative differs. The comparison is made after the solve,
from the releases the loader lists for the subject of a package.
-/
open Keyed Checked Growth Intervals

namespace Rsolve

/-- `DecisionCandidate` — something that is assigned to a subject. -/
inductive DecisionCandidate
  | release (identity : ReleaseIdentity) (version : RPackageVersion)
  | r (version : RPackageVersion)
  | installedName (name : PackageName) (occupiedBy : ReleaseIdentity)
deriving DecidableEq

/-- `DecisionSubject` — something that is decided. -/
inductive DecisionSubject
  | package (name : PackageName)
  | r
  | installedName (name : PackageName)
deriving DecidableEq

/-- `AssignmentBasis` — why a candidate was assigned. -/
inductive AssignmentBasis
  | lockedPreference (identity : ReleaseIdentity)
  | repositoryCurrent
  | highestCompatible
  | onlyStaticallyCompatible
  | exactRootRequirement
  | fixedRTarget
  | installedNameReservation
deriving DecidableEq

/-- `AssignmentDifference` — how an alternative differs from what was assigned. -/
inductive AssignmentDifference
  | rootRequirementMismatch (requirement : VersionConstraint)
  | constraintViolatedByAssignment (against : DecisionSubject) (requirement : VersionConstraint)
      (assigned : DecisionCandidate)
  | requiredLockMismatch (required : ReleaseIdentity)
  | installedNameConflict (name : PackageName) (assignedTo : ReleaseIdentity)
  | lowerPreference (assigned : DecisionCandidate)
  | publicationCooldown (cutoff : PublicationDate)
  | publicationUnknown
deriving DecidableEq

/-- `AlternativeComparison`. -/
structure AlternativeComparison where
  /-- The alternative. -/
  candidate : DecisionCandidate
  /-- How it differs. -/
  differsBy : AssignmentDifference
deriving DecidableEq

/-- `SubjectAssignment`. -/
structure SubjectAssignment where
  /-- What is decided. -/
  subject : DecisionSubject
  /-- What is assigned. -/
  assigned : DecisionCandidate
  /-- Why it is assigned. -/
  basis : AssignmentBasis
  /-- The alternatives. -/
  alternatives : List AlternativeComparison
deriving DecidableEq

/-- `AssignmentComparison`. -/
structure AssignmentComparison where
  /-- The assignments. -/
  assignments : List SubjectAssignment
deriving DecidableEq

/-- `ComparedResolution`. -/
structure ComparedResolution where
  /-- The resolution. -/
  resolution : Resolution
  /-- The comparison. -/
  comparison : AssignmentComparison

/-- `release_candidate`. -/
def releaseCandidate (release : PackageRelease) : DecisionCandidate :=
  .release release.identity release.version

/-- `candidate_for_subject`. -/
def candidateForSubject (subject : SolverKey) (release : PackageRelease) : DecisionCandidate :=
  match subject with
  | .installedName name => .installedName name release.identity
  | .registry _ _ => releaseCandidate release
  | .bioconductor _ _ _ => releaseCandidate release
  | .repository _ _ => releaseCandidate release
  | .exact _ => releaseCandidate release
  | .r => releaseCandidate release

/-- `subject_to_decision_subject`. -/
def subjectToDecisionSubject : SolverKey → DecisionSubject
  | .installedName name => .installedName name
  | .r => .r
  | .registry _ name => .package name
  | .bioconductor _ _ name => .package name
  | .repository _ name => .package name
  | .exact identity => .package identity.name

/-- `dependency_key` — the subject of a requirement, unless it is Git-sourced. -/
def dependencyKey (request : ResolutionRequest) (name : PackageName) :
    DependencySourceConstraint → Option SolverKey
  | .git _ => none
  | .any =>
    if name.text = "R" then some .r
    else match request.exactRootIdentity name with
      | some identity => some (.exact identity)
      | none => some (.installedName name)
  | .registry nspace => if name.text = "R" then some .r else some (.registry nspace name)
  | .repository repository =>
    if name.text = "R" then some .r else some (.repository repository name)
  | .bioconductor nspace release =>
    if name.text = "R" then some .r else some (.bioconductor nspace release name)
  | .exact identity => if name.text = "R" then some .r else some (.exact identity)

/-- Whether a requirement is about a subject. -/
def isAbout (request : ResolutionRequest) (subject : SolverKey) (package : PackageRequirement) :
    Bool :=
  (dependencyKey request package.name package.source).any (fun key => decide (Same key subject))

/-- Whether a release is compatible with the version of R. -/
def isStaticallyCompatible (rVersion : RPackageVersion) (expansion : RootExpansionPolicy)
    (release : PackageRelease) : Bool :=
  (projectDependencyEdges release expansion).all (fun dependency =>
    dependency.package.name.text != "R" || dependency.package.constraint.satisfies rVersion)

/-- The basis of an assignment that no lock and no reservation explains. -/
def openBasis (request : ResolutionRequest) (subject : SolverKey) (rVersion : RPackageVersion)
    (expansion : RootExpansionPolicy) (selected : ResolvedPackage)
    (candidates : List PreparedCandidate) : AssignmentBasis :=
  if candidates.any (fun candidate => decide (Same candidate.identity selected.identity) &&
      (candidate.applicableOccurrences subject).any
        (fun occurrence => occurrence.currentness == .current)) then .repositoryCurrent
  else if candidates.countP (fun candidate =>
      isStaticallyCompatible rVersion expansion candidate.release) = 1 then
    .onlyStaticallyCompatible
  else if request.roots.any (fun requirement => isAbout request subject requirement.package &&
      requirement.package.constraint.clauses.any (fun clause =>
        clause.op == .eq && decide (Same clause.version selected.version))) then
    .exactRootRequirement
  else .highestCompatible

/-- Whether a subject is an installed name. -/
def SolverKey.isInstalledName : SolverKey → Bool
  | .installedName _ => true
  | .registry _ _ => false
  | .bioconductor _ _ _ => false
  | .repository _ _ => false
  | .exact _ => false
  | .r => false

/-- `assignment_basis`. -/
def assignmentBasis (request : ResolutionRequest) (subject : SolverKey) (rVersion : RPackageVersion)
    (expansion : RootExpansionPolicy) (decision : LockDecision) (selected : ResolvedPackage)
    (candidates : List PreparedCandidate) : AssignmentBasis :=
  if subject.isInstalledName then .installedNameReservation
  else match decision.locked with
    | some identity =>
      if Same identity selected.identity then .lockedPreference identity
      else openBasis request subject rVersion expansion selected candidates
    | none => openBasis request subject rVersion expansion selected candidates

/-- `DifferenceContext` — what an alternative is compared with. -/
structure DifferenceContext where
  /-- The selected release. -/
  selected : PackageRelease
  /-- The selected candidate as the loader lists it. -/
  selectedCandidate : PreparedCandidate
  /-- The version of R. -/
  rVersion : RPackageVersion
  /-- The lock decision. -/
  decision : LockDecision
  /-- The subject. -/
  subject : SolverKey
  /-- The resolved packages. -/
  selectedPackages : List ResolvedPackage
  /-- The request. -/
  request : ResolutionRequest
  /-- The expansion of the package. -/
  expansion : RootExpansionPolicy

namespace DifferenceContext

variable (context : DifferenceContext) (candidate : PreparedCandidate)

/-- A required lock refuses the candidate. -/
def lockDifference : Option AssignmentDifference :=
  context.decision.required.bind (fun required =>
    if Same candidate.identity required then none else some (.requiredLockMismatch required))

/-- The cutoff refuses the candidate. -/
def cutoffDifference : Option AssignmentDifference :=
  context.request.publicationCutoff.bind (fun cutoff =>
    if candidate.release.isRBasePackage || decide (Same context.decision.locked
        (some candidate.identity)) then none
    else match candidate.release.publication with
      | some publication =>
        if publication.date.cmp cutoff.date = .gt then some (.publicationCooldown cutoff.date)
        else none
      | none => some .publicationUnknown)

/-- Another resolved package has the name of the candidate. -/
def nameDifference : Option AssignmentDifference :=
  (context.selectedPackages.find? (fun other => !decide (Same other.subject context.subject) &&
    other.name == candidate.identity.name &&
      !decide (Same other.identity candidate.identity))).map
    (fun other => .installedNameConflict candidate.identity.name other.identity)

/-- A root requirement refuses the candidate. -/
def rootDifference : Option AssignmentDifference :=
  (context.request.roots.find? (fun requirement =>
    isAbout context.request context.subject requirement.package &&
      !requirement.package.constraint.satisfies candidate.release.version)).map
    (fun requirement => .rootRequirementMismatch requirement.package.constraint)

/-- The candidate refuses the version of R. -/
def runtimeDifference : Option AssignmentDifference :=
  ((projectDependencyEdges candidate.release context.expansion).find? (fun dependency =>
    dependency.package.name.text == "R" &&
      !dependency.package.constraint.satisfies context.rVersion)).map
    (fun dependency => .constraintViolatedByAssignment .r dependency.package.constraint
      (.r context.rVersion))

/-- The resolved package that a dependency refuses. -/
def refusedBy (dependency : ResolvedDependencyEdge) : Option ResolvedPackage :=
  if dependency.package.name.text = "R" then none
  else
    (dependencyKey context.request dependency.package.name dependency.package.source).bind
      (fun key => (context.selectedPackages.find? (fun package =>
        decide (Same package.subject key))).bind (fun assigned =>
          if dependency.package.constraint.satisfies assigned.release.version then none
          else some assigned))

/-- The candidate refuses a resolved package. -/
def dependencyDifference : Option AssignmentDifference :=
  (projectDependencyEdges candidate.release context.expansion).findSome? (fun dependency =>
    (context.refusedBy dependency).map (fun assigned =>
      .constraintViolatedByAssignment (subjectToDecisionSubject assigned.subject)
        dependency.package.constraint (releaseCandidate assigned.release)))

/-- The candidate is preferred less than the selected one. -/
def preferenceDifference (order : PreparedCandidate → PreparedCandidate → Ordering) :
    Option AssignmentDifference :=
  if context.decision.locked.any (fun locked => !decide (Same candidate.identity locked)) ||
      order context.selectedCandidate candidate == .gt then
    some (.lowerPreference (candidateForSubject context.subject context.selected))
  else none

/-- `difference_for_candidate` — the first difference there is. -/
def differenceForCandidate (order : PreparedCandidate → PreparedCandidate → Ordering) :
    Option AssignmentDifference :=
  context.lockDifference candidate <|> context.cutoffDifference candidate <|>
    context.nameDifference candidate <|> context.rootDifference candidate <|>
    context.runtimeDifference candidate <|> context.dependencyDifference candidate <|>
    context.preferenceDifference candidate order

end DifferenceContext

/-- `CandidateLoader::releases` — the releases a loader lists for a subject. -/
abbrev ReleaseLister := SolverKey → Except CandidateLoadError (List PreparedCandidate)

namespace Provider

variable (provider : Provider) (releases : ReleaseLister)

/-- `load_candidates`. -/
def loadCandidates (subject : SolverKey) : Except ResolutionFailure (List PreparedCandidate) :=
  (releases subject).mapError (.candidateLoad subject)

/-- The order of the resolved packages in a comparison. -/
def comparePackages : ResolvedPackage → ResolvedPackage → Ordering :=
  compareLex (compareOn ResolvedPackage.name)
    (compareOn (fun package => provider.debug.identitySortKey package.identity))

/-- The order of the alternatives in a comparison. -/
def compareAlternatives : PreparedCandidate → PreparedCandidate → Ordering :=
  compareLex (fun left right => left.release.version.cmp right.release.version)
    (compareOn (fun candidate => provider.debug.identitySortKey candidate.identity))

/-- What the alternatives to a resolved package are compared with. -/
def differenceContext (resolution : Resolution) (selected : List ResolvedPackage)
    (package : ResolvedPackage) (selectedCandidate : PreparedCandidate) : DifferenceContext where
  selected := package.release
  selectedCandidate := selectedCandidate
  rVersion := resolution.target.rVersion
  decision := provider.lockDecision package.subject
  subject := package.subject
  selectedPackages := selected
  request := provider.request
  expansion := rootExpansionForPackage provider.request package.name

/-- The alternatives to a resolved package among the listed candidates. -/
def alternativesFor (context : DifferenceContext) (package : ResolvedPackage)
    (candidates : List PreparedCandidate) : List AlternativeComparison :=
  let order := comparePreparedCandidates provider.debug provider.preference package.subject
    ⟨context.decision.locked⟩
  let others := candidates.filter (fun candidate =>
    !decide (Same candidate.identity package.identity))
  let keyed := others.filterMap (fun candidate =>
    (context.differenceForCandidate candidate order).map (fun differsBy => (candidate, differsBy)))
  (Sorting.sortBy (fun left right : PreparedCandidate × AssignmentDifference =>
    provider.compareAlternatives left.1 right.1) keyed).map (fun entry =>
      ⟨candidateForSubject package.subject entry.1.release, entry.2⟩)

/-- The assignment of a resolved package. -/
def assignmentFor (resolution : Resolution) (selected : List ResolvedPackage)
    (package : ResolvedPackage) : Except ResolutionFailure SubjectAssignment := do
  let candidates ← loadCandidates releases package.subject
  match candidates.find? (fun candidate => Same candidate.identity package.identity) with
  | none => .error (.candidateLoad package.subject
      (metadataInvalid "selected release is absent from its prepared subject view"))
  | some selectedCandidate =>
    let context := provider.differenceContext resolution selected package selectedCandidate
    return ⟨subjectToDecisionSubject package.subject,
      candidateForSubject package.subject package.release,
      assignmentBasis provider.request package.subject resolution.target.rVersion context.expansion
        context.decision package candidates,
      provider.alternativesFor context package candidates⟩

/-- `reconstruct_comparison`. -/
def reconstructComparison (resolution : Resolution) :
    Except ResolutionFailure AssignmentComparison := do
  let selected := Sorting.sortBy provider.comparePackages resolution.packages
  let assignments ← selected.mapM (provider.assignmentFor releases resolution selected)
  return ⟨⟨.r, .r resolution.target.rVersion, .fixedRTarget, []⟩ :: assignments⟩

/-- `resolve_with_assignment_comparison` with a number of solver steps. -/
def resolveWithAssignmentComparison (pubgrub : PubGrub) (fuel : Nat) :
    Option (Except ResolutionFailure ComparedResolution) :=
  (provider.solve pubgrub fuel).map (fun outcome => do
    let resolution ← outcome
    let comparison ← provider.reconstructComparison releases resolution
    return ⟨resolution, comparison⟩)

end Provider

end Rsolve
