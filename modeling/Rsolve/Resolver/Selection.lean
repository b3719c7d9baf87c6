import Rsolve.Resolver.Answers

/-!
# Selections and their projection

What is assumed of the solver is stated on the transcript of its run: a solution selects the root,
selects every package once, at a version it was given, and meets every entry of the dependency
answers it was given. The entry that a candidate makes for its installed name then forces all
subjects of one package onto one identity, so a solution always projects to a resolution.
-/
open Keyed Checked Growth Intervals

namespace Rsolve

/-- Whether a record chose a version for a package. The solver asks about a package and a version
with the values it was given. -/
def recordsChoice (package : PackageId) (version : SolverVersion) : Call × Reply → Bool
  | (.chooseVersion asked _, .chosen (some chosen)) => asked == package && chosen == version
  | _ => false

/-- The dependencies a record gave for a package version. -/
def recordedDependencies (package : PackageId) (version : SolverVersion) :
    Call × Reply → Option (KeyedMap PackageId VersionRange)
  | (.getDependencies asked found, .dependencies (.available constraints)) =>
    if asked = package ∧ found = version then some constraints else none
  | _ => none

/-- A record of the dependencies of a package version is the answer to the question for them. -/
theorem recordedDependencies_eq_some {package : PackageId} {version : SolverVersion}
    {record : Call × Reply} {constraints : KeyedMap PackageId VersionRange}
    (given : recordedDependencies package version record = some constraints) :
    record = (.getDependencies package version, .dependencies (.available constraints)) := by
  unfold recordedDependencies at given
  split at given
  · split at given
    · next equal => rw [equal.1, equal.2, Option.some.inj given]
    · simp at given
  · simp at given

/-- A selection meets every entry of a dependency answer. -/
def Meets (selected : List (PackageId × SolverVersion))
    (constraints : KeyedMap PackageId VersionRange) : Prop :=
  ∀ entry ∈ constraints.entries, ∃ other ∈ selected,
    Same other.1 entry.1 ∧ VersionRange.has entry.2 other.2 = true

/-- Meeting a dependency answer is checked entry by entry. -/
instance (selected : List (PackageId × SolverVersion))
    (constraints : KeyedMap PackageId VersionRange) : Decidable (Meets selected constraints) :=
  inferInstanceAs (Decidable (∀ entry ∈ constraints.entries, ∃ other ∈ selected,
    Same other.1 entry.1 ∧ VersionRange.has entry.2 other.2 = true))

/-- A selection is a solution of the recorded answers. -/
structure SelectionSound (transcript : Transcript)
    (selected : List (PackageId × SolverVersion)) : Prop where
  /-- The root is selected. -/
  root : (PackageId.root, SolverVersion.root) ∈ selected
  /-- Every package is selected once. -/
  distinct : selected.Pairwise (fun left right => ¬ Same left.1 right.1)
  /-- Every selected version was chosen by the provider. -/
  chosen : ∀ item ∈ selected, item.1 ≠ .root →
    ∃ record ∈ transcript, recordsChoice item.1 item.2 record = true
  /-- Every selected version has recorded dependencies, all met by the selection. -/
  satisfied : ∀ item ∈ selected, ∃ record ∈ transcript,
    ∃ constraints ∈ recordedDependencies item.1 item.2 record, Meets selected constraints

/-- The solver only reports solutions of the recorded answers. -/
def PubGrub.SoundFor (pubgrub : PubGrub) (provider : Provider) : Prop :=
  ∀ transcript state selected, provider.Reaches pubgrub transcript state →
    pubgrub.next transcript = .solved selected → SelectionSound transcript selected

/-- Being a solution of the recorded answers can be checked. -/
instance (transcript : Transcript) (selected : List (PackageId × SolverVersion)) :
    Decidable (SelectionSound transcript selected) :=
  decidable_of_iff
    ((PackageId.root, SolverVersion.root) ∈ selected ∧
      selected.Pairwise (fun left right => ¬ Same left.1 right.1) ∧
      (∀ item ∈ selected, item.1 ≠ .root →
        ∃ record ∈ transcript, recordsChoice item.1 item.2 record = true) ∧
      (∀ item ∈ selected, ∃ record ∈ transcript,
        ∃ constraints ∈ (recordedDependencies item.1 item.2 record).toList,
          Meets selected constraints))
    ⟨fun ⟨root, distinct, chosen, satisfied⟩ => ⟨root, distinct, chosen, by simpa using satisfied⟩,
      fun sound => ⟨sound.root, sound.distinct, sound.chosen, by simpa using sound.satisfied⟩⟩

namespace Provider

variable (provider : Provider)

/-! ### One run -/

/-- A run passes through every point it reaches. -/
theorem drive_of_reaches {pubgrub : PubGrub} {transcript : Transcript} {state : ProviderState}
    (reached : provider.Reaches pubgrub transcript state) (fuel : Nat) :
    provider.drive pubgrub (transcript.length + fuel) [] .initial =
      provider.drive pubgrub fuel transcript state := by
  induction reached generalizing fuel with
  | start => simp
  | @step transcript state reached call reply before asked answered ih =>
    have continued := ih (fuel + 1)
    rw [List.length_append, List.length_singleton, Nat.add_assoc, Nat.add_comm 1, continued]
    simp only [drive, asked, answered]

/-- More steps do not change how a run ends. -/
theorem drive_add {pubgrub : PubGrub} {fuel : Nat} {transcript : Transcript}
    {state : ProviderState} {outcome : Verdict × Transcript × ProviderState}
    (driven : provider.drive pubgrub fuel transcript state = some outcome) (more : Nat) :
    provider.drive pubgrub (fuel + more) transcript state = some outcome := by
  induction fuel generalizing transcript state with
  | zero => simp [drive] at driven
  | succ fuel ih =>
    rw [Nat.add_right_comm]
    simp only [drive] at driven ⊢
    cases moved : pubgrub.next transcript with
    | ask call =>
      rw [moved] at driven
      cases answered : provider.answer call state with
      | mk result reached =>
        simp only [answered] at driven ⊢
        cases result with
        | ok reply => exact ih driven
        | error cause => exact driven
    | solved selected => simpa only [moved] using driven
    | noSolution tree => simpa only [moved] using driven

/-- A run ends in one way. -/
theorem drive_unique {pubgrub : PubGrub} {fuel other : Nat}
    {left right : Verdict × Transcript × ProviderState}
    (leftDriven : provider.drive pubgrub fuel [] .initial = some left)
    (rightDriven : provider.drive pubgrub other [] .initial = some right) : left = right := by
  have leftLonger := provider.drive_add leftDriven other
  rw [Nat.add_comm, provider.drive_add rightDriven fuel] at leftLonger
  exact (Option.some.inj leftLonger).symm

/-- A solver whose run ends in a solution of the recorded answers is sound for the provider. -/
theorem soundFor_of_drive {pubgrub : PubGrub} {fuel : Nat} {transcript : Transcript}
    {state : ProviderState} {selected : List (PackageId × SolverVersion)}
    (driven : provider.drive pubgrub fuel [] .initial = some (.solved selected, transcript, state))
    (sound : SelectionSound transcript selected) : pubgrub.SoundFor provider := by
  intro other otherState otherSelected reached ended
  have passed : provider.drive pubgrub (other.length + 1) [] .initial =
      some (.solved otherSelected, other, otherState) := by
    rw [provider.drive_of_reaches reached 1]
    simp only [drive, ended]
  have equal := provider.drive_unique driven passed
  simp only [Prod.mk.injEq, Verdict.solved.injEq] at equal
  obtain ⟨rfl, rfl, rfl⟩ := equal
  exact sound

/-! ### Lookups in a reached state -/

/-- A loaded subject is not loaded again. -/
theorem loaded_of_view {state : ProviderState} {subject : SolverKey} {loaded : LoadedSubject}
    (view : state.View subject loaded) :
    provider.loaded subject state = (.ok loaded, state) := by
  unfold Provider.loaded
  rw [show state.cache.get? subject = some (.ok loaded) from view]
  rfl

/-- A visible candidate is found under its id. -/
theorem candidateForId_of_visible {state : ProviderState}
    (wellFormed : provider.WellFormed state) {subject : SolverKey} {id : CandidateId}
    {candidate : PreparedCandidate} (visible : state.Visible subject id candidate) :
    provider.candidateForId subject id state = (.ok candidate, state) := by
  obtain ⟨loaded, view, member⟩ := visible
  simp only [candidateForId, Bind.bind, provider.loaded_of_view view, Attempt.ofExcept,
    visibleCandidate, (findCandidate_eq_some wellFormed view).mpr member]

/-- The expansion of a subject does not depend on its spelling. -/
theorem expansionForSubject_congr {left right : SolverKey} (same : Same left right) :
    provider.expansionForSubject left = provider.expansionForSubject right := by
  have general : ∀ roots, provider.expansionAmong left roots = provider.expansionAmong right roots := by
    intro roots
    induction roots with
    | nil => rfl
    | cons root rest ih =>
      simp only [expansionAmong, ih]
      congr 1
      funext key
      simp only [same.congr_right key]
  exact general provider.request.roots

/-- Every root requirement is about some subject. -/
def RootsKeyed : Prop :=
  ∀ root ∈ provider.request.roots, ∃ subject, provider.subjectForPackage root.package = .ok subject

/-- With keyed roots, every subject has an expansion, and it expands directly exactly when some
direct root is about it. -/
theorem expansionForSubject_of_keyed (keyed : provider.RootsKeyed) (subject : SolverKey) :
    ∃ expansion, provider.expansionForSubject subject = .ok expansion := by
  have general : ∀ roots, (∀ root ∈ roots, ∃ key, provider.subjectForPackage root.package = .ok key) →
      ∃ expansion, provider.expansionAmong subject roots = .ok expansion := by
    intro roots
    induction roots with
    | nil => exact fun _ => ⟨_, rfl⟩
    | cons root rest ih =>
      intro keyed
      obtain ⟨key, found⟩ := keyed root List.mem_cons_self
      simp only [expansionAmong, found, ok_bind]
      split
      · exact ⟨_, rfl⟩
      · exact ih fun other member => keyed other (List.mem_cons_of_mem _ member)
  exact general provider.request.roots keyed

/-! ### Selected subjects -/

/-- The candidates left by the cutoff are among those it was given. -/
theorem mem_of_mem_withinCutoff {locked : Option ReleaseIdentity}
    {eligible : List (CandidateId × PreparedCandidate)} {entry : CandidateId × PreparedCandidate}
    (member : entry ∈ provider.withinCutoff locked eligible) : entry ∈ eligible := by
  unfold withinCutoff at member
  dsimp only at member
  split at member
  · split at member
    · exact member
    · exact (List.mem_filter.mp member).1
  · exact member

/-- The preferred candidate of a range is one of those left by the cutoff. -/
theorem preferredCandidate_eq_some {subject : SolverKey} {range : VersionRange}
    {loaded : LoadedSubject} {id : CandidateId}
    (preferred : provider.preferredCandidate subject range loaded = some id) :
    ∃ candidate, (id, candidate) ∈ provider.withinCutoff (provider.lockDecision subject).locked
      (provider.selectableCandidates subject range loaded) := by
  obtain ⟨entry, last, rfl⟩ := Option.map_eq_some_iff.mp preferred
  exact ⟨entry.2, Sorting.mem_sortBy.mp (List.mem_of_getLast? last)⟩

/-- A selected candidate with the answers behind it: the subject it was chosen for, its expansion
and its entries, all of which the selection meets. -/
structure Supported (state : ProviderState) (selected : List (PackageId × SolverVersion))
    (subject : SolverKey) (id : CandidateId) (candidate : PreparedCandidate) : Prop where
  /-- The subject is not R. -/
  differs : subject ≠ .r
  /-- The subject is selected at the candidate. -/
  member : (PackageId.subject subject, SolverVersion.candidate id) ∈ selected
  /-- The lock decision admits the candidate. -/
  required : meetsRequired (provider.lockDecision subject) candidate = true
  /-- The candidate is visible to the subject. -/
  visible : state.Visible subject id candidate
  /-- The cutoff admits the candidate. -/
  admitted : provider.candidateRejections subject id candidate = []
  /-- The name and the edges of the candidate are met. -/
  met : ∃ expansion entries, provider.expansionForSubject subject = .ok expansion ∧
    provider.EntriesOf ((projectDependencyEdges candidate.release expansion).map
      ResolvedDependencyEdge.package) entries state ∧
    Meets selected (.ofList
      ((.occupancy candidate.identity.name, .singleton (.candidate id)) :: entries))

/-- A solver package that is the same as a subject is a subject. -/
theorem eq_subject_of_same {package : PackageId} {subject : SolverKey}
    (same : Same package (.subject subject)) :
    ∃ key, package = .subject key ∧ Same key subject := by
  cases package with
  | subject key => exact ⟨key, rfl, PackageId.subject.inj same⟩
  | _ => simp [Same, representative] at same

/-- A subject that is the same as R is R. -/
theorem eq_r_of_same {subject : SolverKey} (same : Same subject .r) : subject = .r := by
  cases subject <;> simp_all [Same, representative]

section Run

variable {provider} {pubgrub : PubGrub} {transcript : Transcript} {state : ProviderState}
  {selected : List (PackageId × SolverVersion)} (reached : provider.Reaches pubgrub transcript state)
  (sound : SelectionSound transcript selected)
include reached sound

/-- Every selected package version has a true dependency answer that the selection meets. -/
theorem selected_answer {item : PackageId × SolverVersion} (member : item ∈ selected) :
    ∃ constraints, provider.DependencyAnswer state item.1 item.2 (.available constraints) ∧
      Meets selected constraints := by
  obtain ⟨record, recorded, constraints, given, met⟩ := sound.satisfied item member
  have answered := reached.answered.2 record recorded
  rw [recordedDependencies_eq_some given] at answered
  exact ⟨constraints, answered, met⟩

/-- A selected candidate was chosen for its subject, so the lock decision admits it. -/
theorem selected_required {subject : SolverKey} {id : CandidateId} {candidate : PreparedCandidate}
    (member : (PackageId.subject subject, SolverVersion.candidate id) ∈ selected)
    (visible : state.Visible subject id candidate) :
    meetsRequired (provider.lockDecision subject) candidate = true := by
  obtain ⟨record, recorded, chosen⟩ := sound.chosen _ member (by simp)
  have answered := reached.answered.2 record recorded
  unfold recordsChoice at chosen
  split at chosen
  · next asked range version =>
    simp only [Bool.and_eq_true, beq_iff_eq] at chosen
    obtain ⟨rfl, rfl⟩ := chosen
    change provider.ChoiceAnswer state _ _ _ at answered
    generalize returned : some (SolverVersion.candidate id) = version at answered
    cases answered with
    | r range => split at returned <;> simp at returned
    | subject _ range loaded _ view =>
      obtain ⟨found, preferred, equal⟩ := Option.map_eq_some_iff.mp returned.symm
      obtain rfl : found = id := by simpa using equal
      obtain ⟨other, kept⟩ := provider.preferredCandidate_eq_some preferred
      obtain ⟨loadedIn, admitted⟩ := List.mem_filter.mp (provider.mem_of_mem_withinCutoff kept)
      rw [provider.visible_unique reached.answered.1 visible ⟨loaded, view, loadedIn⟩]
      simp only [Bool.and_eq_true] at admitted
      exact admitted.1
  · simp at chosen

/-- Every selected subject other than R is selected at a visible candidate whose dependencies the
selection meets. -/
theorem selected_supported {subject : SolverKey} {version : SolverVersion}
    (member : (PackageId.subject subject, version) ∈ selected) (differs : subject ≠ .r) :
    ∃ id candidate, version = .candidate id ∧
      provider.Supported state selected subject id candidate := by
  obtain ⟨constraints, answered, met⟩ := selected_answer reached sound member
  generalize package : PackageId.subject subject = asked at answered
  cases answered with
  | root => simp at package
  | r version => exact absurd (PackageId.subject.inj package) differs
  | admitted _ id candidate expansion entries _ visible passes expanded entered =>
    obtain rfl := PackageId.subject.inj package
    exact ⟨id, candidate, rfl, differs, member, selected_required reached sound member visible,
      visible, passes, expansion, entries, expanded, entered, met⟩
  | occupancy => simp at package

/-- The root's requirements are met by the selection. -/
theorem selected_root : ∃ entries,
    provider.EntriesOf (provider.request.roots.map RootRequirement.package) entries state ∧
    Meets selected (.ofList
      ((.subject .r, provider.rRange provider.request.rRequirement) :: entries)) := by
  obtain ⟨constraints, answered, met⟩ := selected_answer reached sound sound.root
  cases answered with
  | root entries entered => exact ⟨entries, entered, met⟩

/-- The root requirements of a solved request are about subjects. -/
theorem selected_rootsKeyed : provider.RootsKeyed := by
  obtain ⟨entries, entered, -⟩ := selected_root reached sound
  intro root member
  have related := List.forall₂_map_left_iff.mp entered
  clear entered
  generalize provider.request.roots = roots at member related
  induction related with
  | nil => simp at member
  | cons head _ ih =>
    rcases List.mem_cons.mp member with rfl | member
    · obtain ⟨subject, named, -⟩ := head
      exact ⟨subject, named⟩
    · exact ih member

omit reached in
/-- A selected package is selected at one version. -/
theorem selected_unique {left right : PackageId × SolverVersion} (leftIn : left ∈ selected)
    (rightIn : right ∈ selected) (same : Same left.1 right.1) : left = right := by
  have symmetric : Std.Symm (fun first second : PackageId × SolverVersion =>
      ¬ Same first.1 second.1) := ⟨fun _ _ differs same => differs same.symm⟩
  by_contra differs
  exact sound.distinct.forall leftIn rightIn differs same

omit reached sound in
/-- Entries of requirements concern subjects. -/
theorem EntriesOf.subject {packages : List PackageRequirement}
    {entries : List (PackageId × VersionRange)} (entered : provider.EntriesOf packages entries state)
    {entry : PackageId × VersionRange} (member : entry ∈ entries) :
    ∃ package ∈ packages, provider.EntryOf package entry state := by
  induction entered with
  | nil => simp at member
  | cons head _ ih =>
    rcases List.mem_cons.mp member with rfl | member
    · exact ⟨_, List.mem_cons_self, head⟩
    · obtain ⟨package, packageIn, held⟩ := ih member
      exact ⟨package, List.mem_cons_of_mem _ packageIn, held⟩

omit reached sound in
/-- The installed name of a supported candidate is occupied by its id. -/
theorem Supported.occupied {subject : SolverKey} {id : CandidateId} {candidate : PreparedCandidate}
    (supported : provider.Supported state selected subject id candidate) :
    (PackageId.occupancy candidate.identity.name, SolverVersion.candidate id) ∈ selected := by
  obtain ⟨expansion, entries, -, entered, met⟩ := supported.met
  have apart : ∀ entry ∈ entries, ¬ Same entry.1 (.occupancy candidate.identity.name) := by
    intro entry member same
    obtain ⟨package, -, key, -, keyed, -⟩ := entered.subject member
    rw [keyed] at same
    simp [Same, representative] at same
  have stored : (KeyedMap.ofList ((PackageId.occupancy candidate.identity.name,
      (Ranges.singleton (SolverVersion.candidate id) : VersionRange)) :: entries)).get?
        (.occupancy candidate.identity.name) = some (.singleton (.candidate id)) := by
    have absent : entries.reverse.find? (fun entry =>
        decide (Same entry.1 (.occupancy candidate.identity.name))) = none := by
      rw [List.find?_eq_none]
      intro entry member
      simpa using apart entry (List.mem_reverse.mp member)
    rw [KeyedMap.get?_ofList, List.reverse_cons, List.find?_append, absent]
    simp
  obtain ⟨entry, entryIn, same, ranged⟩ := (KeyedMap.get?_eq_some_iff _ _ _).mp stored
  obtain ⟨other, otherIn, sameOther, within⟩ := met entry entryIn
  rw [ranged, VersionRange.has_singleton] at within
  have version := SolverVersion.eq_candidate_of_same within
  have package : other.1 = .occupancy candidate.identity.name := by
    have agree := sameOther.trans same
    cases key : other.1 <;> rw [key] at agree <;> simp_all [Same, representative]
  rw [← package, ← version]
  exact otherIn

omit reached in
/-- Supported candidates of one package name have one id. -/
theorem supported_id_eq {left right : SolverKey} {leftId rightId : CandidateId}
    {leftCandidate rightCandidate : PreparedCandidate}
    (leftSupported : provider.Supported state selected left leftId leftCandidate)
    (rightSupported : provider.Supported state selected right rightId rightCandidate)
    (named : leftCandidate.identity.name = rightCandidate.identity.name) : leftId = rightId := by
  have equal := selected_unique sound leftSupported.occupied rightSupported.occupied
    (by rw [named]; rfl)
  simpa using congrArg Prod.snd equal

/-- Supported candidates of one package name have the same facts. -/
theorem supported_sameFacts {left right : SolverKey} {leftId rightId : CandidateId}
    {leftCandidate rightCandidate : PreparedCandidate}
    (leftSupported : provider.Supported state selected left leftId leftCandidate)
    (rightSupported : provider.Supported state selected right rightId rightCandidate)
    (named : leftCandidate.identity.name = rightCandidate.identity.name) :
    leftCandidate.SameFacts rightCandidate := by
  have wellFormed := reached.answered.1
  obtain rfl := supported_id_eq sound leftSupported rightSupported named
  obtain ⟨leftLoaded, leftView, leftIn⟩ := leftSupported.visible
  obtain ⟨rightLoaded, rightView, rightIn⟩ := rightSupported.visible
  exact (view_interned wellFormed leftView leftIn).sameFacts
    (view_interned wellFormed rightView rightIn)

end Run

end Provider

end Rsolve
