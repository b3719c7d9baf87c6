import Mathlib.Logic.Basic

/-!
# The stored form of a package history

A snapshot stores one history for each package: the observations that were made of it, the
decisions taken on them, and the releases that these leave eligible. The stored form is made of
plain records over texts, numbers and digests.
-/
namespace Rsolve

/-- `HISTORY_LIMIT` — the bytes a stored history may take. -/
def historyLimit : Nat := 64 * 1024 * 1024

/-- `OBSERVATION_LIMIT`. -/
def observationLimit : Nat := 1000000

/-- `DECISION_LIMIT`. -/
def decisionLimit : Nat := 1000000

/-- `ELIGIBLE_RELEASE_LIMIT`. -/
def eligibleReleaseLimit : Nat := 100000

/-- `MEMBER_LIMIT`. -/
def memberLimit : Nat := 65536

/-- `STRING_LIMIT`. -/
def stringLimit : Nat := 16 * 1024 * 1024

/-- `HISTORY_MAGIC` — the bytes every stored history starts with. -/
def historyMagic : List UInt8 := [82, 83, 76, 86, 72, 83, 84, 52]

/-- `HISTORY_PREFIX_LEN` — the bytes in front of the payload of a stored history. -/
def historyPrefixLen : Nat := 48

/-- `SnapshotError`. The errors of the database are told apart by their texts only. -/
inductive SnapshotError
  | io (cause : String)
  | database (cause : String)
  | json (cause : String)
  | postcard (cause : String)
  | invalid (cause : String)
deriving DecidableEq, Repr

/-- `SnapshotError` as a text. -/
def SnapshotError.text : SnapshotError → String
  | .io cause => "snapshot I/O error: " ++ cause
  | .database cause => "snapshot database error: " ++ cause
  | .json cause => "snapshot JSON error: " ++ cause
  | .postcard cause => "snapshot history encoding error: " ++ cause
  | .invalid cause => cause

/-- `FieldV1`. -/
structure FieldV1 where
  name : String
  value : String
deriving DecidableEq, Repr

/-- `ChecksumV1`. -/
structure ChecksumV1 where
  algorithm : String
  value : String
deriving DecidableEq, Repr

/-- `OccurrenceArtifactV1`. -/
structure OccurrenceArtifactV1 where
  locator : String
  checksums : List ChecksumV1
  size : Option UInt64
deriving DecidableEq, Repr

/-- `ParseStateV1`. -/
inductive ParseStateV1
  | valid
  | recordInvalid
deriving DecidableEq, Repr

/-- `NamespaceStateV1`. -/
inductive NamespaceStateV1
  | established
  | rejected
  | unresolved
deriving DecidableEq, Repr

/-- `OccurrenceStateV1`. -/
inductive OccurrenceStateV1
  | artifactBound
  | observationOnly
  | unreachable
  | conflicting
deriving DecidableEq, Repr

/-- `SemanticsStateV1`. -/
inductive SemanticsStateV1
  | complete
  | verifiedEmpty
  | incomplete
  | invalid
deriving DecidableEq, Repr

/-- `PublicationStateV1`. -/
inductive PublicationStateV1
  | dated
  | unknown
  | conflicting
deriving DecidableEq, Repr

/-- `FreshnessStateV1`. -/
inductive FreshnessStateV1
  | currentGeneration
  | bulkGeneration
  | stale
deriving DecidableEq, Repr

/-- `EvidenceAxesV1` — what is known about one observation. -/
structure EvidenceAxesV1 where
  parse : ParseStateV1
  nspace : NamespaceStateV1
  occurrence : OccurrenceStateV1
  semantics : SemanticsStateV1
  publication : PublicationStateV1
  freshness : FreshnessStateV1
deriving DecidableEq, Repr

/-- `RawObservationV1` — one record of one source. -/
structure RawObservationV1 where
  id : UInt32
  sourceIndex : UInt32
  recordIndex : UInt64
  fields : List FieldV1
  artifact : Option OccurrenceArtifactV1
  axes : EvidenceAxesV1
deriving DecidableEq, Repr

/-- `DecisionCodeV1`. -/
inductive DecisionCodeV1
  | equivalentMerge
  | currentOnly
  | semanticConflict
  | unresolvedNamespace
  | unreachableOccurrence
  | incompleteSemantics
  | recommendedOverlaySuppressed
  | quarantinedRelease
deriving DecidableEq, Repr

/-- `DecisionV1` — a decision taken on some observations. -/
structure DecisionV1 where
  code : DecisionCodeV1
  observationIds : List UInt32
  detail : String
deriving DecidableEq, Repr

/-- `LookupStateV1` — whether a stored history is whole. -/
inductive LookupStateV1
  | present
  | incomplete
deriving DecidableEq, Repr

/-- `DependencyKindV1`. -/
inductive DependencyKindV1
  | depends
  | imports
  | linkingTo
  | suggests
  | enhances
deriving DecidableEq, Repr

/-- `RelationOpV1`. -/
inductive RelationOpV1
  | lt
  | le
  | eq
  | ne
  | ge
  | gt
deriving DecidableEq, Repr

/-- `ClauseV1`. -/
structure ClauseV1 where
  op : RelationOpV1
  version : String
deriving DecidableEq, Repr

/-- `DependencyV1`. -/
structure DependencyV1 where
  kind : DependencyKindV1
  package : String
  clauses : List ClauseV1
deriving DecidableEq, Repr

/-- `ArtifactV1`. -/
structure ArtifactV1 where
  locator : String
  upstreamChecksums : List ChecksumV1
  size : Option UInt64
deriving DecidableEq, Repr

/-- `DistributionV1`. -/
structure DistributionV1 where
  registry : String
  channel : String
  snapshot : Option String
  artifacts : List ArtifactV1
  metadata : List FieldV1
deriving DecidableEq, Repr

/-- `CandidateCurrentnessV1`. -/
inductive CandidateCurrentnessV1
  | current
  | historical
deriving DecidableEq, Repr

/-- `EvidenceRoleV1`. -/
inductive EvidenceRoleV1
  | artifact
  | identity
  | publication
  | semantics
deriving DecidableEq, Repr

/-- `EvidenceReferenceV1` — what an observation contributes to a release. -/
structure EvidenceReferenceV1 where
  observationId : UInt32
  roles : List EvidenceRoleV1
deriving DecidableEq, Repr

/-- `GitProvenanceV1`. -/
structure GitProvenanceV1 where
  repository : String
  commit : String
  subdirectory : Option String
deriving DecidableEq, Repr

/-- `EligibleReleaseV1` — one release of the package. -/
structure EligibleReleaseV1 where
  package : String
  version : String
  nspace : String
  gitProvenance : Option GitProvenanceV1
  currentness : CandidateCurrentnessV1
  metadata : List FieldV1
  publication : Option String
  dependencies : List DependencyV1
  distributions : List DistributionV1
  metadataSha256 : Vector UInt8 32
  evidence : List EvidenceReferenceV1
deriving DecidableEq, Repr

/-- `PackageHistoryV1` — what a snapshot stores about one package. -/
structure PackageHistoryV1 where
  package : String
  state : LookupStateV1
  observations : List RawObservationV1
  decisions : List DecisionV1
  eligibleReleases : List EligibleReleaseV1
deriving DecidableEq, Repr

end Rsolve
