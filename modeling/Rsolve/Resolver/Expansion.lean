import Rsolve.Resolver.Completeness

/-!
# The expansion of a package

The solver expands a candidate as the roots about one of its subjects say; the explanation of a
resolution expands a package as the roots of its name say. A solution selects the subject of every
root, and all subjects of one name select one package, so both expand every package alike.
-/
open Keyed Checked Growth Intervals

namespace Rsolve

/-- `root_expansion_for_package`. -/
def rootExpansionForPackage (request : ResolutionRequest) (name : PackageName) :
    RootExpansionPolicy :=
  (((request.roots.filter (fun requirement => requirement.package.name == name)).map
    RootRequirement.expansion).find? (fun expansion => expansion == .directSuggests)).getD .hardOnly

/-- A package expands directly when a root of its name does. -/
theorem rootExpansionForPackage_eq_direct {request : ResolutionRequest} {name : PackageName} :
    rootExpansionForPackage request name = .directSuggests ↔
      ∃ root ∈ request.roots, root.package.name = name ∧ root.expansion = .directSuggests := by
  unfold rootExpansionForPackage
  constructor
  · intro direct
    cases found : ((request.roots.filter (fun requirement => requirement.package.name == name)).map
        RootRequirement.expansion).find? (fun expansion => expansion == .directSuggests) with
    | none => simp [found] at direct
    | some expansion =>
      obtain ⟨root, rootIn, rfl⟩ := List.mem_map.mp (List.mem_of_find?_eq_some found)
      obtain ⟨rootIn, named⟩ := List.mem_filter.mp rootIn
      exact ⟨root, rootIn, by simpa using named, by simpa using List.find?_some found⟩
  · rintro ⟨root, rootIn, named, direct⟩
    have listed : RootExpansionPolicy.directSuggests ∈ (request.roots.filter
        (fun requirement => requirement.package.name == name)).map RootRequirement.expansion :=
      List.mem_map.mpr ⟨root, List.mem_filter.mpr ⟨rootIn, by simpa using named⟩, direct⟩
    cases found : ((request.roots.filter (fun requirement => requirement.package.name == name)).map
        RootRequirement.expansion).find? (fun expansion => expansion == .directSuggests) with
    | none => simpa using List.find?_eq_none.mp found _ listed
    | some expansion => simpa using List.find?_some found

/-- Expansions are equal when they are direct alike. -/
theorem RootExpansionPolicy.eq_of_direct {left right : RootExpansionPolicy}
    (direct : left = .directSuggests ↔ right = .directSuggests) : left = right := by
  cases left <;> cases right <;> simp_all

namespace Provider

variable (provider : Provider)

/-- With keyed roots, a subject of a direct root expands directly. -/
theorem expansionForSubject_direct (keyed : provider.RootsKeyed) {root : RootRequirement}
    (member : root ∈ provider.request.roots) (direct : root.expansion = .directSuggests)
    {key subject : SolverKey} (about : provider.subjectForPackage root.package = .ok key)
    (same : Same key subject) : provider.expansionForSubject subject = .ok .directSuggests := by
  have general : ∀ roots, (∀ other ∈ roots, ∃ found,
      provider.subjectForPackage other.package = .ok found) → root ∈ roots →
      provider.expansionAmong subject roots = .ok .directSuggests := by
    intro roots
    induction roots with
    | nil => simp
    | cons head rest ih =>
      intro keyed listed
      obtain ⟨found, foundIs⟩ := keyed head List.mem_cons_self
      simp only [expansionAmong, foundIs, ok_bind]
      rcases List.mem_cons.mp listed with rfl | inRest
      · obtain rfl := Except.ok.inj (foundIs.symm.trans about)
        rw [if_pos ⟨same, direct⟩]
        rfl
      · split
        · rfl
        · exact ih (fun other inside => keyed other (List.mem_cons_of_mem _ inside)) inRest
  exact general provider.request.roots keyed member

/-- With keyed roots, subjects expand directly when one of them does. -/
theorem expansionForSubjects_direct (keyed : provider.RootsKeyed) {subjects : List SolverKey}
    {subject : SolverKey} (member : subject ∈ subjects)
    (direct : provider.expansionForSubject subject = .ok .directSuggests) :
    provider.expansionForSubjects subjects = .ok .directSuggests := by
  induction subjects with
  | nil => simp at member
  | cons head rest ih =>
    obtain ⟨expansion, expanded⟩ := provider.expansionForSubject_of_keyed keyed head
    simp only [expansionForSubjects, expanded, ok_bind]
    rcases List.mem_cons.mp member with rfl | inRest
    · obtain rfl := Except.ok.inj (expanded.symm.trans direct)
      rfl
    · split
      · rfl
      · exact ih inRest

/-- A subject was selected at a candidate of a name. -/
def SelectedAs (state : ProviderState) (selected : List (PackageId × SolverVersion))
    (name : PackageName) (subject : SolverKey) : Prop :=
  subject ≠ .r ∧ ∃ id candidate, (PackageId.subject subject, SolverVersion.candidate id) ∈ selected ∧
    provider.candidateForId subject id state = (.ok candidate, state) ∧
    candidate.identity.name = name

section Run

variable {provider} {pubgrub : PubGrub} {transcript : Transcript} {state : ProviderState}
  {selected : List (PackageId × SolverVersion)} (reached : provider.Reaches pubgrub transcript state)

include reached in
/-- What a recorded answer requires is about R or about a package that is not R. -/
theorem mentioned_ordinary {subject : SolverKey} (mentioned : Mentioned transcript (.subject subject))
    (differs : subject ≠ .r) {name : PackageName} (named : subject.subjectName = some name) :
    name.text ≠ "R" := by
  obtain ⟨asked, version, constraints, recorded, entry, entryIn, same⟩ := mentioned
  have answered : provider.DependencyAnswer state asked version (.available constraints) :=
    reached.answered.2 _ recorded
  have required : ∀ {packages : List PackageRequirement} {entries : List (PackageId × VersionRange)}
      {item : PackageId × VersionRange}, provider.EntriesOf packages entries state →
      item ∈ entries → Same item.1 (.subject subject) → name.text ≠ "R" := by
    intro packages entries item entered listed about
    obtain ⟨package, -, key, keyed, itemIs, -⟩ := entered.subject listed
    rw [itemIs] at about
    have sameKey : Same key subject := PackageId.subject.inj about
    have meant := provider.subjectForPackage_eq_ok keyed
    split at meant
    · rw [meant] at sameKey
      exact absurd (eq_r_of_same sameKey.symm) differs
    · next ordinary =>
      rw [SolverKey.subjectName_congr sameKey, named] at meant
      rw [Option.some.inj meant.2]
      exact ordinary
  cases answered with
  | r version => simp [KeyedMap.empty] at entryIn
  | occupancy name version => simp [KeyedMap.empty] at entryIn
  | root entries entered =>
    obtain ⟨source, sourceIn, sameSource, -⟩ := KeyedMap.mem_ofList entryIn
    rcases List.mem_cons.mp sourceIn with rfl | listed
    · obtain ⟨key, isSubject, sameKey⟩ := eq_subject_of_same (sameSource.trans same).symm
      obtain rfl := PackageId.subject.inj isSubject
      exact absurd (eq_r_of_same sameKey) differs
    · exact required entered listed (sameSource.trans same)
  | admitted asked id candidate expansion entries _ visible passes expanded entered =>
    obtain ⟨source, sourceIn, sameSource, -⟩ := KeyedMap.mem_ofList entryIn
    rcases List.mem_cons.mp sourceIn with rfl | listed
    · have impossible := sameSource.trans same
      simp [Same, representative] at impossible
    · exact required entered listed (sameSource.trans same)

variable (sound : SelectionSound transcript selected)
include reached sound

/-- A disciplined run selects subjects of R or of packages that are not R. -/
theorem selected_ordinary (disciplined : pubgrub.DisciplinedFor provider) {subject : SolverKey}
    {version : SolverVersion} (member : (PackageId.subject subject, version) ∈ selected)
    (differs : subject ≠ .r) {name : PackageName} (named : subject.subjectName = some name) :
    name.text ≠ "R" := by
  obtain ⟨record, recorded, chosen⟩ := sound.chosen _ member (by simp)
  obtain ⟨before, earlier, -, reachedBefore, asked, -⟩ := reached.exists_of_mem recorded
  unfold recordsChoice at chosen
  split at chosen
  · next package range found =>
    simp only [Bool.and_eq_true, beq_iff_eq] at chosen
    obtain ⟨rfl, -⟩ := chosen
    rcases disciplined.packages _ _ _ _ reachedBefore asked with isRoot | mentioned
    · simp at isRoot
    · exact mentioned_ordinary reachedBefore mentioned differs named
  · simp at chosen

/-- The subject of every root is selected. -/
theorem selected_of_root {root : RootRequirement} (member : root ∈ provider.request.roots)
    {key : SolverKey} (about : provider.subjectForPackage root.package = .ok key) :
    ∃ subject version, Same subject key ∧ (PackageId.subject subject, version) ∈ selected := by
  obtain ⟨entries, entered, met⟩ := selected_root reached sound
  have listed : ∃ range, (PackageId.subject key, range) ∈ entries := by
    have related := List.forall₂_map_left_iff.mp entered
    clear entered met
    generalize provider.request.roots = roots at member related
    induction related with
    | nil => simp at member
    | @cons head entry rest others first _ ih =>
      rcases List.mem_cons.mp member with rfl | inRest
      · obtain ⟨found, foundIs, keyed, -⟩ := first
        obtain rfl := Except.ok.inj (foundIs.symm.trans about)
        exact ⟨entry.2, by rw [← keyed]; exact List.mem_cons_self⟩
      · obtain ⟨range, listed⟩ := ih inRest
        exact ⟨range, List.mem_cons_of_mem _ listed⟩
  obtain ⟨range, listed⟩ := listed
  obtain ⟨stored, found⟩ := KeyedMap.exists_get?_ofList
    (List.mem_cons_of_mem (PackageId.subject .r, provider.rRange provider.request.rRequirement) listed)
  obtain ⟨entry, entryIn, same, -⟩ := (KeyedMap.get?_eq_some_iff _ _ _).mp found
  obtain ⟨item, itemIn, sameItem, -⟩ := met entry entryIn
  obtain ⟨subject, isSubject, sameKey⟩ := eq_subject_of_same (sameItem.trans same)
  exact ⟨subject, item.2, sameKey, by rw [← isSubject]; exact itemIn⟩

/-- The gathered subjects are those that were selected at a candidate of the name. -/
theorem mem_gathered_subjects {packages : SelectedPackages}
    (gathers : provider.GathersAll state selected selected packages) {name : PackageName}
    {selection : SelectedPackage} (stored : packages.get? name = some selection)
    (subject : SolverKey) :
    subject ∈ selection.subjects ↔ provider.SelectedAs state selected name subject := by
  have gathered := gathers.sound name selection stored
  constructor
  · intro member
    obtain ⟨id, candidate, supported, facts⟩ := gathered.gathered subject member
    refine ⟨supported.differs, id, candidate, supported.member,
      provider.candidateForId_of_visible reached.answered.1 supported.visible, ?_⟩
    rw [← gathered.named]
    exact (ReleaseIdentity.same_iff.mp facts.identity).1.symm
  · rintro ⟨differs, id, candidate, member, looked, named⟩
    obtain ⟨found, other, isCandidate, supported⟩ := selected_supported reached sound member differs
    obtain rfl := SolverVersion.candidate.inj isCandidate
    rw [provider.candidateForId_of_visible reached.answered.1 supported.visible] at looked
    obtain rfl : other = candidate := by simpa using looked
    obtain ⟨origin, -, originId, originSupported⟩ := gathered.origin
    have facts := supported_sameFacts reached sound originSupported supported
      (gathered.named.trans named.symm)
    have installable : other.release.isRBasePackage = false := by
      rw [← gathered.installable]
      exact (Provenance.isRBasePackage_congr (ReleaseIdentity.same_iff.mp facts.identity).2).symm
    obtain ⟨known, knownIs, listed⟩ := gathers.complete subject id other member supported installable
    rw [named, stored] at knownIs
    rw [Option.some.inj knownIs]
    exact listed

/-- The subjects of a package expand as the roots of its name. -/
theorem expansionForSubjects_gathered (disciplined : pubgrub.DisciplinedFor provider)
    {packages : SelectedPackages} (gathers : provider.GathersAll state selected selected packages)
    {name : PackageName} {selection : SelectedPackage}
    (stored : packages.get? name = some selection) :
    provider.expansionForSubjects selection.subjects =
      .ok (rootExpansionForPackage provider.request name) := by
  have keyed := selected_rootsKeyed reached sound
  obtain ⟨expansion, expanded⟩ := provider.expansionForSubjects_of_keyed keyed selection.subjects
  rw [expanded]
  refine congrArg Except.ok (RootExpansionPolicy.eq_of_direct ?_)
  have members := mem_gathered_subjects reached sound gathers stored
  -- A gathered subject is about the name, which is not that of R.
  have about : ∀ subject ∈ selection.subjects, subject.subjectName = some name ∧
      name.text ≠ "R" := by
    intro subject member
    obtain ⟨id, candidate, supported, facts⟩ :=
      (gathers.sound name selection stored).gathered subject member
    have named : subject.subjectName = some name := by
      obtain ⟨loaded, view, listed⟩ := supported.visible
      rw [view_name reached.answered.1 view listed, ← (gathers.sound name selection stored).named,
        (ReleaseIdentity.same_iff.mp facts.identity).1]
    exact ⟨named, selected_ordinary reached sound disciplined supported.member supported.differs
      named⟩
  rw [rootExpansionForPackage_eq_direct]
  constructor
  · rintro rfl
    rcases provider.expansionForSubjects_eq_ok expanded with hard | ⟨subject, member, direct⟩
    · simp at hard
    · obtain ⟨root, rootIn, expands, key, keyIs, same⟩ := provider.exists_root_of_direct direct
      refine ⟨root, rootIn, ?_, expands⟩
      have meant := provider.subjectForPackage_eq_ok keyIs
      have named := (about subject member).1
      rw [← SolverKey.subjectName_congr same] at named
      split at meant
      · rw [meant] at named
        simp [SolverKey.subjectName] at named
      · rw [named] at meant
        exact (Option.some.inj meant.2).symm
  · rintro ⟨root, rootIn, named, direct⟩
    obtain ⟨key, keyIs⟩ := keyed root rootIn
    obtain ⟨subject, version, same, selectedIn⟩ := selected_of_root reached sound rootIn keyIs
    have ordinary : root.package.name.text ≠ "R" := by
      obtain ⟨origin, originIn, -⟩ := (gathers.sound name selection stored).origin
      rw [named]
      exact (about origin originIn).2
    have meant := provider.subjectForPackage_eq_ok keyIs
    rw [if_neg ordinary, named] at meant
    have differs : subject ≠ .r := by
      rintro rfl
      exact meant.1 (eq_r_of_same same.symm)
    obtain ⟨id, candidate, rfl, supported⟩ := selected_supported reached sound selectedIn differs
    have looked := provider.candidateForId_of_visible reached.answered.1 supported.visible
    obtain ⟨loaded, view, listed⟩ := supported.visible
    have candidateNamed : candidate.identity.name = name := by
      have subjectNamed := view_name reached.answered.1 view listed
      rw [SolverKey.subjectName_congr same, meant.2] at subjectNamed
      exact (Option.some.inj subjectNamed).symm
    have member := (members subject).mpr ⟨differs, id, candidate, selectedIn, looked, candidateNamed⟩
    have known := provider.expansionForSubjects_direct keyed member
      (provider.expansionForSubject_direct keyed rootIn direct keyIs same.symm)
    exact Except.ok.inj (expanded.symm.trans known)

end Run

end Provider

namespace Small

/-- A suggestion of any version. -/
def suggestsAny : DeclaredDependency := ⟨.suggests, requirement rcpp .unconstrained⟩

/-- A package with a suggestion, required from any source with its hard dependencies and from the
repository with its suggestions. -/
def suggesting : Provider :=
  let plain := provider [candidate alpha newer [suggestsAny], candidate rcpp newer []] [] none
  { plain with request := { plain.request with roots :=
      [⟨requirement alpha .unconstrained, .hardOnly⟩,
        ⟨⟨alpha, .repository repository, .unconstrained, namesPackage_repository repository alpha⟩,
          .directSuggests⟩] } }

/-- The selection of the package and its suggestion. -/
def suggestingSelection : List (PackageId × SolverVersion) :=
  [(.root, .root), (.subject .r, .r newer), (.subject (.installedName alpha), first),
    (.subject (.repository repository alpha), first), (.subject (.installedName rcpp), second),
    (.occupancy alpha, first), (.occupancy rcpp, second)]

end Small

namespace Provider

end Provider

end Rsolve
