import Rsolve.Resolver.Provider

/-!
# Solving a request

The version solver is an external library. It is modelled as a strategy: from the questions it has
asked and the answers it was given it decides the next question, a solution, or that there is none.
The provider answers each question and keeps what it loaded. A solution is then projected to a
resolution: the selected subjects of one package name become one resolved package.
-/
open Keyed Checked Growth Intervals

namespace Rsolve

/-- A question to the provider. -/
inductive Call
  | prioritize (package : PackageId) (range : VersionRange)
  | chooseVersion (package : PackageId) (range : VersionRange)
  | getDependencies (package : PackageId) (version : SolverVersion)

/-- An answer of the provider. -/
inductive Reply
  | priority (count : Nat) (text : String)
  | chosen (version : Option SolverVersion)
  | dependencies (dependencies : Dependencies)

/-- `DerivationTree` — the solver's proof that there is no solution. -/
inductive DerivationTree
  | notRoot (package : PackageId) (version : SolverVersion)
  | noVersions (package : PackageId) (range : VersionRange)
  | fromDependencyOf (package : PackageId) (range : VersionRange) (dependency : PackageId)
      (dependencyRange : VersionRange)
  | custom (package : PackageId) (range : VersionRange) (message : ProviderMessage)
  | derived (cause1 cause2 : DerivationTree)

/-- What the solver does next. -/
inductive Move
  | ask (call : Call)
  | solved (selected : List (PackageId × SolverVersion))
  | noSolution (tree : DerivationTree)

/-- The questions asked so far with their answers, oldest first. -/
abbrev Transcript := List (Call × Reply)

/-- `pubgrub::resolve` for the root package, as a strategy. -/
structure PubGrub where
  /-- The next step after a transcript. -/
  next : Transcript → Move
  /-- `{:?}` of a derivation tree. -/
  debugTree : DerivationTree → String

/-- How a run of the solver ends. -/
inductive Verdict
  | solved (selected : List (PackageId × SolverVersion))
  | noSolution (tree : DerivationTree)
  | failed (cause : AdapterError)

/-- `PublicationPolicyDiagnostic` — the cutoff rejections in a proof. -/
structure PublicationPolicyDiagnostic where
  /-- The cutoff. -/
  cutoff : PublicationCutoff
  /-- The rejections. -/
  rejections : List PublicationRejection

/-- `ResolutionDiagnostic`. -/
structure ResolutionDiagnostic where
  /-- The proof as text. -/
  summary : String
  /-- The cutoff rejections in the proof. -/
  publicationPolicy : Option PublicationPolicyDiagnostic

/-- `ResolutionFailure` — why a request has no resolution. -/
inductive ResolutionFailure
  | candidateLoad (package : SolverKey) (source : CandidateLoadError)
  | noSolution (diagnostic : ResolutionDiagnostic)
  | installedNameConflict (name : PackageName) (firstIdentity secondIdentity : ReleaseIdentity)

/-- `map_adapter_error`. -/
def mapAdapterError (cause : AdapterError) : ResolutionFailure :=
  .candidateLoad cause.package cause.source

/-- `collect_publication_leaves`. -/
def collectPublicationLeaves : DerivationTree → List PublicationRejection
  | .custom _ _ (.publication rejections) => rejections
  | .derived cause1 cause2 => collectPublicationLeaves cause1 ++ collectPublicationLeaves cause2
  | _ => []

/-- `publication_rejection_cmp`. -/
def publicationRejectionCmp (debug : DebugText) (left right : PublicationRejection) : Ordering :=
  (compare (debug.identitySortKey left.identity) (debug.identitySortKey right.identity)).then
    (match left, right with
      | .publicationCooldown _ left, .publicationCooldown _ right => left.cmp right
      | .publicationCooldown _ _, .publicationUnknown _ => .lt
      | .publicationUnknown _, .publicationCooldown _ _ => .gt
      | .publicationUnknown _, .publicationUnknown _ => .eq)

/-- `PartialEq` of rejections. -/
def PublicationRejection.same : PublicationRejection → PublicationRejection → Bool
  | .publicationCooldown left leftDate, .publicationCooldown right rightDate =>
    decide (Same left right) && leftDate == rightDate
  | .publicationUnknown left, .publicationUnknown right => decide (Same left right)
  | _, _ => false

/-- `publication_policy_diagnostic`. -/
def publicationPolicyDiagnostic (debug : DebugText) (tree : DerivationTree)
    (cutoff : Option PublicationCutoff) : Option PublicationPolicyDiagnostic :=
  cutoff.bind (fun cutoff =>
    let rejections := collectPublicationLeaves tree
    if rejections.isEmpty then none
    else some ⟨cutoff, Sorting.dedupBy PublicationRejection.same
      (Sorting.sortBy (publicationRejectionCmp debug) rejections)⟩)

/-- `subject_rank`. -/
def subjectRank : SolverKey → Nat
  | .installedName _ => 0
  | .registry _ _ => 1
  | .bioconductor _ _ _ => 2
  | .repository _ _ => 3
  | .exact _ => 4
  | .r => 5

/-- `canonical_subject_cmp`. -/
def canonicalSubjectCmp (debug : DebugText) : SolverKey → SolverKey → Ordering :=
  compareLex (compareOn subjectRank) (compareOn debug.subject)

/-- The selection of one package name: a representing subject, the candidate, and every subject
that selected it. -/
structure SelectedPackage where
  /-- The representing subject. -/
  subject : SolverKey
  /-- The candidate. -/
  candidate : PreparedCandidate
  /-- The subjects. -/
  subjects : List SolverKey

/-- The selections by package name. -/
abbrev SelectedPackages := KeyedMap PackageName SelectedPackage

namespace Provider

variable (provider : Provider)

/-- Answer one question. -/
def answer : Call → ProviderM Reply
  | .prioritize package range => do
    let priority ← provider.prioritize package range
    return .priority priority.1 priority.2
  | .chooseVersion package range => do
    let version ← provider.chooseVersion package range
    return .chosen version
  | .getDependencies package version => do
    let dependencies ← provider.getDependencies package version
    return .dependencies dependencies

/-- Drive a solver against the provider for a number of steps. A provider error ends the run. -/
def drive (pubgrub : PubGrub) :
    Nat → Transcript → ProviderState → Option (Verdict × Transcript × ProviderState)
  | 0, _, _ => none
  | fuel + 1, transcript, state =>
    match pubgrub.next transcript with
    | .ask call =>
      match provider.answer call state with
      | (.ok reply, reached) => drive pubgrub fuel (transcript ++ [(call, reply)]) reached
      | (.error cause, reached) => some (.failed cause, transcript, reached)
    | .solved selected => some (.solved selected, transcript, state)
    | .noSolution tree => some (.noSolution tree, transcript, state)

/-- `map_error` on a proof that there is no solution. -/
def noSolutionFailure (pubgrub : PubGrub) (tree : DerivationTree) : ResolutionFailure :=
  .noSolution ⟨pubgrub.debugTree tree,
    publicationPolicyDiagnostic provider.debug tree provider.request.publicationCutoff⟩

/-- Add a selected subject to the selection of its package name. -/
def joinSelected (packages : SelectedPackages) (subject : SolverKey)
    (candidate : PreparedCandidate) : Except ResolutionFailure SelectedPackages :=
  let name := candidate.identity.name
  match packages.get? name with
  | none => .ok (packages.insert name ⟨subject, candidate, [subject]⟩)
  | some existing =>
    if Same existing.candidate.identity candidate.identity then
      match existing.candidate.merge candidate with
      | .ok merged => .ok (packages.insert name
          ⟨if canonicalSubjectCmp provider.debug subject existing.subject = .lt then subject
            else existing.subject, merged, existing.subjects ++ [subject]⟩)
      | .error cause => .error (.candidateLoad subject
          (metadataInvalid ("inconsistent prepared candidate: " ++ cause.message)))
    else
      let existingKey := provider.debug.identitySortKey existing.candidate.identity
      let candidateKey := provider.debug.identitySortKey candidate.identity
      if (compare existingKey candidateKey).isLE then
        .error (.installedNameConflict name existing.candidate.identity candidate.identity)
      else .error (.installedNameConflict name candidate.identity existing.candidate.identity)

/-- Use a provider computation where failures are resolution failures. -/
def withFailure {α : Type} (first : ProviderM α) :
    Attempt ProviderState ResolutionFailure α := fun state =>
  ((first state).1.mapError mapAdapterError, (first state).2)

/-- The selection loop of `solve` on one selected package version. -/
def selectPackage (packages : SelectedPackages) (selected : PackageId × SolverVersion) :
    Attempt ProviderState ResolutionFailure SelectedPackages :=
  match selected with
  | (.subject .r, _) => return packages
  | (.subject subject, .candidate id) => do
    let candidate ← withFailure (provider.candidateForId subject id)
    if candidate.release.isRBasePackage then return packages
    else Attempt.ofExcept (provider.joinSelected packages subject candidate)
  | _ => return packages

/-- The repositories a selection is visible in, by rank. -/
def visibleRepositories (selection : SelectedPackage) : List RepositoryId :=
  let visible := selection.subjects.flatMap selection.candidate.applicableOccurrences
  let ranked := visible.map (fun occurrence => (occurrence.rank, occurrence.repository))
  (Sorting.dedupBy (fun left right => left.2 == right.2)
    (Sorting.sortBy (compareLex (compareOn Prod.fst) (compareOn Prod.snd)) ranked)).map Prod.snd

/-- The projection loop of `solve` on one selection. -/
def projectPackage (selection : SelectedPackage) : Except AdapterError ResolvedPackage := do
  let expansion ← provider.expansionForSubjects selection.subjects
  return ⟨selection.subject, selection.candidate.release,
    projectDependencyEdges selection.candidate.release expansion,
    visibleRepositories selection⟩

/-- The part of `solve` after the solver: group the selected subjects by package name, then project
every selection in name order. -/
def projectSelection (selected : List (PackageId × SolverVersion)) :
    Attempt ProviderState ResolutionFailure Resolution := do
  let packages ← selected.foldlM provider.selectPackage .empty
  let selections := (Sorting.sortBy (compareOn Prod.fst) packages.entries).map Prod.snd
  let projected ← Attempt.ofExcept
    ((selections.mapM provider.projectPackage).mapError mapAdapterError)
  return .new provider.request.target
    (Sorting.sortBy (compareOn ResolvedPackage.name) projected)

/-- `solve` — resolve the request with a number of solver steps; no result means that the steps did
not suffice. -/
def solve (pubgrub : PubGrub) (fuel : Nat) : Option (Except ResolutionFailure Resolution) :=
  match provider.drive pubgrub fuel [] .initial with
  | none => none
  | some (.failed cause, _, _) => some (.error (mapAdapterError cause))
  | some (.noSolution tree, _, _) => some (.error (provider.noSolutionFailure pubgrub tree))
  | some (.solved selected, _, state) => some (provider.projectSelection selected state).1

end Provider

end Rsolve
