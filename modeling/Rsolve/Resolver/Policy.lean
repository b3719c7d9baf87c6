import Rsolve.Core.Resolution

/-!
# Resolver policies

The projection of declared dependencies, the trial order of candidates and the treatment of a
previous lock. Orderings only decide which candidate is tried first. Provenances enter the trial
order through their debug text, whose form is not specified and is left open here.
-/
open Keyed Checked

namespace Rsolve

/-- The effective kind of a declaration under an expansion policy. -/
def projectedKind (expansion : RootExpansionPolicy) : DependencyKind → Option EffectiveDependencyKind
  | .suggests => if expansion = .directSuggests then some .promotedSuggests else none
  | .enhances => none
  | kind => kind.effective

/-- `project_dependency_edges` — the dependencies of a release that take part in a resolution. -/
def projectDependencyEdges (release : PackageRelease) (expansion : RootExpansionPolicy) :
    List ResolvedDependencyEdge :=
  release.declaredDependencies.filterMap (fun dependency =>
    (projectedKind expansion dependency.kind).map (fun kind => ⟨kind, dependency.package⟩))

/-- Direct expansion keeps every hard edge. -/
theorem projectDependencyEdges_directSuggests {release : PackageRelease}
    {expansion : RootExpansionPolicy} {edge : ResolvedDependencyEdge}
    (member : edge ∈ projectDependencyEdges release expansion) :
    edge ∈ projectDependencyEdges release .directSuggests := by
  obtain ⟨dependency, declared, projected⟩ := List.mem_filterMap.mp member
  refine List.mem_filterMap.mpr ⟨dependency, declared, ?_⟩
  cases kind : dependency.kind <;> cases expansion <;>
    simp_all [projectedKind, DependencyKind.effective]

/-- `R_BASE_PACKAGE_NAMES`. -/
def rBasePackageNames : List String :=
  ["base", "compiler", "datasets", "graphics", "grDevices", "grid", "methods", "parallel",
    "splines", "stats", "stats4", "tcltk", "tools", "utils"]

/-- `is_r_base_package_name`. -/
def isRBasePackageName (name : PackageName) : Bool :=
  rBasePackageNames.contains name.text

/-- Debug texts, which only break ties between candidates. -/
structure DebugText where
  /-- `{:?}` of a provenance. -/
  provenance : Provenance → String
  /-- `{:?}` of a subject. -/
  subject : SolverKey → String

/-- `identity_sort_key`. -/
def DebugText.identitySortKey (debug : DebugText) (identity : ReleaseIdentity) : String :=
  identity.name.text ++ ":" ++ debug.provenance identity.provenance

/-- `PreferenceContext` — what a trial order knows about one solve. -/
structure PreferenceContext where
  /-- The identity of the previous lock. -/
  locked : Option ReleaseIdentity

/-- `CandidatePreference` — a trial order of the candidates of a subject. -/
abbrev CandidatePreference :=
  SolverKey → PreferenceContext → PreparedCandidate → PreparedCandidate → Ordering

/-- `compare_prepared_candidates` — a preference with its tie breaks. -/
def comparePreparedCandidates (debug : DebugText) (preference : CandidatePreference)
    (package : SolverKey) (context : PreferenceContext) :
    PreparedCandidate → PreparedCandidate → Ordering :=
  compareLex (preference package context)
    (compareLex (fun left right => left.release.version.cmp right.release.version)
      (compareOn (fun candidate => debug.identitySortKey candidate.identity)))

/-- `preference_rank` — locked, then current, then historical. -/
def preferenceRank (package : SolverKey) (context : PreferenceContext)
    (candidate : PreparedCandidate) : Nat :=
  if Same context.locked (some candidate.identity) then 3
  else if (candidate.applicableOccurrences package).any
      (fun occurrence => occurrence.currentness == .current) then 2
  else 1

/-- `Option<RepositoryRank>::cmp` — an absent rank is least. -/
def compareRanks : Option RepositoryRank → Option RepositoryRank → Ordering
  | none, none => .eq
  | none, some _ => .lt
  | some _, none => .gt
  | some left, some right => compare left right

/-- `DefaultCandidatePreference` — locked, applicable currentness, version, repository rank. -/
def defaultCandidatePreference (debug : DebugText) : CandidatePreference :=
  fun package context =>
    compareLex (compareOn (preferenceRank package context))
      (compareLex (fun left right => left.release.version.cmp right.release.version)
        (compareLex (fun left right => compareRanks (right.repositoryRankFor package)
            (left.repositoryRankFor package))
          (compareOn (fun candidate => debug.identitySortKey candidate.identity))))

/-- `LockDecision` — the decision of an update policy about a subject. -/
inductive LockDecision
  | unlocked
  | prefer (identity : ReleaseIdentity)
  | require (identity : ReleaseIdentity)
deriving DecidableEq

/-- The identity a decision names, softly or hard. -/
def LockDecision.locked : LockDecision → Option ReleaseIdentity
  | .unlocked => none
  | .prefer identity => some identity
  | .require identity => some identity

/-- The identity a decision requires. -/
def LockDecision.required : LockDecision → Option ReleaseIdentity
  | .require identity => some identity
  | _ => none

/-- `LockUpdatePolicy` — whether a previous identity is a preference or a pin. -/
abbrev LockUpdatePolicy := SolverKey → Option ReleaseIdentity → LockDecision

/-- `PreferLocked` — a previous identity is preferred. -/
def preferLocked : LockUpdatePolicy := fun _ previous =>
  previous.elim .unlocked .prefer

/-- `RequireLocked` — a previous identity is required. -/
def requireLocked : LockUpdatePolicy := fun _ previous =>
  previous.elim .unlocked .require

/-- `Unlocked` — previous identities are ignored. -/
def unlocked : LockUpdatePolicy := fun _ _ => .unlocked

/-- A required identity is a locked one. -/
theorem LockDecision.locked_of_required {decision : LockDecision} {identity : ReleaseIdentity}
    (required : decision.required = some identity) : decision.locked = some identity := by
  cases decision <;> simp_all [LockDecision.required, LockDecision.locked]

end Rsolve
