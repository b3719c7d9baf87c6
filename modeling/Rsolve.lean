import Rsolve.Lib.Sorting
import Rsolve.Lib.Keyed
import Rsolve.Lib.Decimal
import Rsolve.Lib.Divergence
import Rsolve.Lib.Framing
import Rsolve.Core.Version
import Rsolve.Core.Names
import Rsolve.Core.Coordinates
import Rsolve.Core.GitUrl
import Rsolve.Core.Identity
import Rsolve.Core.Constraints
import Rsolve.Core.Request
import Rsolve.Lib.Checked
import Rsolve.Core.Release
import Rsolve.Core.Hex
import Rsolve.Core.Observation
import Rsolve.Core.Candidates
import Rsolve.Core.Resolution
import Rsolve.Resolver.Policy
import Rsolve.Lib.Growth
import Rsolve.Lib.Ranges
import Rsolve.Resolver.Provider
import Rsolve.Resolver.Solve
import Rsolve.Resolver.Invariants
import Rsolve.Resolver.Answers
import Rsolve.Resolver.Selection
import Rsolve.Resolver.Projection
import Rsolve.Resolver.Soundness
import Rsolve.Resolver.Cutoff
import Rsolve.Resolver.Edges
import Rsolve.Resolver.Health
import Rsolve.Resolver.Plans
import Rsolve.Resolver.Completeness
import Rsolve.Resolver.DebugTexts
import Rsolve.Resolver.Observations
import Rsolve.Resolver.Choice
import Rsolve.Resolver.Expansion
import Rsolve.Resolver.Explanation
import Rsolve.Resolver.Explained
import Rsolve.Core.Digest
import Rsolve.Orchestration.Views
import Rsolve.Manifest.RepositoryIntent
import Rsolve.Manifest.ResolutionIntent
import Rsolve.Lib.Traversal
import Rsolve.Lock.Order
import Rsolve.Lock.Consume
import Rsolve.Lock.Reachability
import Rsolve.Lock.Canonical
import Rsolve.Lock.Wire
import Rsolve.Lock.Determinism
import Rsolve.Lock.Build
import Rsolve.Lock.Applicability
import Rsolve.Lib.Worklist
import Rsolve.Orchestration.Demand
import Rsolve.Orchestration.DemandPlan
import Rsolve.Lib.Journal
import Rsolve.Repository.Packages
import Rsolve.Repository.Files
import Rsolve.Repository.Materialize
import Rsolve.Repository.Layout
import Rsolve.Repository.Records
import Rsolve.Repository.Contents
import Rsolve.Repository.Phases
import Rsolve.Repository.Publishing
import Rsolve.Repository.Texts
import Rsolve.Repository.Crashes
import Rsolve.Repository.Identities
import Rsolve.Repository.Reuse
import Rsolve.Acquisition.Closure
import Rsolve.Acquisition.Coverage
import Rsolve.Acquisition.Providers
import Rsolve.Acquisition.Fixpoint
import Rsolve.Lib.Panics
import Rsolve.Snapshot.Wire
import Rsolve.Snapshot.Codec
import Rsolve.Lib.Faults
import Rsolve.Snapshot.Header
import Rsolve.Snapshot.Generation
import Rsolve.Snapshot.Heads
import Rsolve.Snapshot.Reading
import Rsolve.Snapshot.Store
import Rsolve.Snapshot.Integrity
import Rsolve.Snapshot.Keeping
import Rsolve.Snapshot.Publication
import Rsolve.Snapshot.Retention
import Rsolve.Snapshot.Working
import Rsolve.Snapshot.Runs
import Rsolve.Snapshot.Repair
import Rsolve.Snapshot.Isolation
import Rsolve.Snapshot.Revisions
import Rsolve.Snapshot.Naming
import Rsolve.Lib.Streams
import Rsolve.Artifact.Input
import Rsolve.Lib.Segments
import Rsolve.Lib.Paragraphs
import Rsolve.Cran.History
import Rsolve.Cran.PackageDescription
import Rsolve.Cran.Catalog
import Rsolve.Cran.Import
import Rsolve.Cran.Quarantine
import Rsolve.Cran.VersionFilter
import Rsolve.Cran.AllPackages
import Rsolve.Cran.ProbeDeadline
import Rsolve.Cran.SnapshotCache
import Rsolve.Cran.Coalescing
import Rsolve.Cran.AcquisitionRuns
import Rsolve.Cran.RawCacheCrashes
import Rsolve.Repository.IndexText
import Rsolve.Repository.DependencyTexts
import Rsolve.Repository.IndexReading
import Rsolve.Lib.Walks
import Rsolve.Manifest.Paths
import Rsolve.Lib.Neighbours
import Rsolve.SourceControl.Tree
import Rsolve.SourceControl.Views
import Rsolve.Lib.Utf8
import Rsolve.SourceControl.Backend
import Rsolve.SourceControl.Selectors
import Rsolve.SourceControl.Marker
import Rsolve.Artifact.Description
import Rsolve.Artifact.Archive
import Rsolve.Artifact.CacheRuns
import Rsolve.Core.VersionOrder
import Rsolve.Lib.Joins
import Rsolve.Core.Roots
import Rsolve.Lock.ConstraintText
import Rsolve.Lib.Splitting
import Rsolve.Core.UrlText
import Rsolve.Core.UrlForms
import Rsolve.Manifest.Composition
import Rsolve.Lock.Rewriting
