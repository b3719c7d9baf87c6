import Rsolve.Resolver.Selection

/-!
# Projecting a solution

The projection loop gathers the selected subjects of each package name. Along a sound run it never
meets two identities of one name and never fails to merge, so every solution becomes a resolution
whose packages have distinct names.
-/
open Keyed Checked Growth Intervals

namespace Rsolve

namespace Provider

variable (provider : Provider)

/-- The selection of a package name gathers supported subjects of that name. -/
structure Gathers (state : ProviderState) (selected : List (PackageId × SolverVersion))
    (name : PackageName) (selection : SelectedPackage) : Prop where
  /-- The candidate has the name. -/
  named : selection.candidate.identity.name = name
  /-- The candidate is not provided by the runtime. -/
  installable : selection.candidate.release.isRBasePackage = false
  /-- The representing subject is one of the gathered subjects. -/
  represented : selection.subject ∈ selection.subjects
  /-- Every gathered subject is selected at a candidate with the gathered facts. -/
  gathered : ∀ subject ∈ selection.subjects, ∃ id candidate,
    provider.Supported state selected subject id candidate ∧
    selection.candidate.SameFacts candidate
  /-- The candidate is the one some gathered subject sees. -/
  origin : ∃ subject ∈ selection.subjects, ∃ id,
    provider.Supported state selected subject id selection.candidate

/-- The selections gather exactly the supported subjects seen so far. -/
structure GathersAll (state : ProviderState) (selected seen : List (PackageId × SolverVersion))
    (packages : SelectedPackages) : Prop where
  /-- Every selection gathers supported subjects of its name. -/
  sound : ∀ name selection, packages.get? name = some selection →
    provider.Gathers state selected name selection
  /-- Every supported subject seen so far is gathered. -/
  complete : ∀ subject id candidate,
    (PackageId.subject subject, SolverVersion.candidate id) ∈ seen →
    provider.Supported state selected subject id candidate →
    candidate.release.isRBasePackage = false →
    ∃ selection, packages.get? candidate.identity.name = some selection ∧
      subject ∈ selection.subjects

/-- With keyed roots, every list of subjects has an expansion. -/
theorem expansionForSubjects_of_keyed (keyed : provider.RootsKeyed) (subjects : List SolverKey) :
    ∃ expansion, provider.expansionForSubjects subjects = .ok expansion := by
  induction subjects with
  | nil => exact ⟨_, rfl⟩
  | cons subject rest ih =>
    obtain ⟨expansion, expanded⟩ := provider.expansionForSubject_of_keyed keyed subject
    simp only [expansionForSubjects, expanded, ok_bind]
    split
    · exact ⟨_, rfl⟩
    · exact ih

/-- Subjects expand as one of them does, or to hard dependencies when there is none. -/
theorem expansionForSubjects_eq_ok {subjects : List SolverKey} {expansion : RootExpansionPolicy}
    (expanded : provider.expansionForSubjects subjects = .ok expansion) :
    expansion = .hardOnly ∨ ∃ subject ∈ subjects,
      provider.expansionForSubject subject = .ok expansion := by
  induction subjects with
  | nil => exact Or.inl (Except.ok.inj expanded).symm
  | cons subject rest ih =>
    obtain ⟨found, looked, expanded⟩ := bind_eq_ok.mp expanded
    split at expanded
    · next direct =>
      obtain rfl := Except.ok.inj expanded
      exact Or.inr ⟨subject, List.mem_cons_self, by rw [looked, direct]⟩
    · rcases ih expanded with hard | ⟨other, member, held⟩
      · exact Or.inl hard
      · exact Or.inr ⟨other, List.mem_cons_of_mem _ member, held⟩

/-- The resolution of gathered selections: one package for every selection. -/
structure Projects (packages : SelectedPackages) (resolution : Resolution) : Prop where
  /-- The target is the requested one. -/
  target : resolution.target = provider.request.target
  /-- Package names are distinct. -/
  distinct : (resolution.packages.map ResolvedPackage.name).Nodup
  /-- The packages are the projected selections. -/
  projected : ∀ package, package ∈ resolution.packages ↔
    ∃ name selection, packages.get? name = some selection ∧
      provider.projectPackage selection = .ok package

section Run

variable {provider} {pubgrub : PubGrub} {transcript : Transcript} {state : ProviderState}
  {selected : List (PackageId × SolverVersion)} (reached : provider.Reaches pubgrub transcript state)
  (sound : SelectionSound transcript selected)
include reached sound

/-- Joining a supported subject succeeds and gathers it. -/
theorem joinSelected_gathers {seen : List (PackageId × SolverVersion)} {packages : SelectedPackages}
    (gathers : provider.GathersAll state selected seen packages) {subject : SolverKey}
    {id : CandidateId} {candidate : PreparedCandidate}
    (supported : provider.Supported state selected subject id candidate)
    (installable : candidate.release.isRBasePackage = false) :
    ∃ joined, provider.joinSelected packages subject candidate = .ok joined ∧
      provider.GathersAll state selected
        (seen ++ [(PackageId.subject subject, SolverVersion.candidate id)]) joined := by
  have inserted : ∀ selection : SelectedPackage,
      provider.Gathers state selected candidate.identity.name selection →
      subject ∈ selection.subjects →
      (∀ old, packages.get? candidate.identity.name = some old →
        ∀ other ∈ old.subjects, other ∈ selection.subjects) →
      provider.GathersAll state selected
        (seen ++ [(PackageId.subject subject, SolverVersion.candidate id)])
        (packages.insert candidate.identity.name selection) := by
    intro selection gathered subjectIn kept
    constructor
    · intro name found stored
      rw [KeyedMap.get?_insert] at stored
      split at stored
      · next same =>
        obtain rfl : candidate.identity.name = name := same
        obtain rfl := Option.some.inj stored
        exact gathered
      · exact gathers.sound name found stored
    · intro other otherId otherCandidate seenIn otherSupported otherInstallable
      rcases List.mem_append.mp seenIn with old | new
      · obtain ⟨found, stored, otherIn⟩ := gathers.complete other otherId otherCandidate old
          otherSupported otherInstallable
        by_cases same : candidate.identity.name = otherCandidate.identity.name
        · refine ⟨selection, ?_, kept found (same ▸ stored) other otherIn⟩
          exact KeyedMap.get?_insert_same _ _ same
        · refine ⟨found, ?_, otherIn⟩
          rw [KeyedMap.get?_insert_other _ _ same]
          exact stored
      · simp only [List.mem_singleton, Prod.mk.injEq, PackageId.subject.injEq,
          SolverVersion.candidate.injEq] at new
        obtain ⟨rfl, rfl⟩ := new
        obtain rfl := provider.visible_unique reached.answered.1 supported.visible
          otherSupported.visible
        exact ⟨selection, KeyedMap.get?_insert_same _ _ (Same.refl _), subjectIn⟩
  cases known : packages.get? candidate.identity.name with
  | none =>
    refine ⟨packages.insert candidate.identity.name ⟨subject, candidate, [subject]⟩,
      by simp only [joinSelected, known], inserted _ ?_ (by simp)
        (fun old stored => by simp [known] at stored)⟩
    refine ⟨rfl, installable, by simp, ?_, ⟨subject, by simp, id, supported⟩⟩
    intro other otherIn
    obtain rfl : other = subject := by simpa using otherIn
    exact ⟨id, candidate, supported, PreparedCandidate.SameFacts.refl candidate⟩
  | some existing =>
    have gathered := gathers.sound _ _ known
    obtain ⟨origin, originIn, originId, originSupported⟩ := gathered.origin
    have facts : existing.candidate.SameFacts candidate :=
      supported_sameFacts reached sound originSupported supported gathered.named
    refine ⟨packages.insert candidate.identity.name
      ⟨if canonicalSubjectCmp provider.debug subject existing.subject = .lt then subject
        else existing.subject, existing.candidate, existing.subjects ++ [subject]⟩,
      by simp only [joinSelected, known, if_pos facts.identity,
        PreparedCandidate.merge_of_sameFacts facts], inserted _ ?_ (by simp) ?_⟩
    · refine ⟨gathered.named, gathered.installable, ?_, ?_, ⟨origin, by simp [originIn], originId,
        originSupported⟩⟩
      · dsimp only
        split
        · simp
        · simp [gathered.represented]
      · intro other otherIn
        rcases List.mem_append.mp otherIn with old | new
        · exact gathered.gathered other old
        · obtain rfl := List.mem_singleton.mp new
          exact ⟨id, candidate, supported, facts⟩
    · intro old stored other otherIn
      rw [known] at stored
      obtain rfl := Option.some.inj stored
      simp [otherIn]

/-- One step of the projection loop succeeds and gathers its item. -/
theorem selectPackage_gathers {seen : List (PackageId × SolverVersion)} {packages : SelectedPackages}
    (gathers : provider.GathersAll state selected seen packages)
    {item : PackageId × SolverVersion} (member : item ∈ selected) :
    ∃ joined, provider.selectPackage packages item state = (.ok joined, state) ∧
      provider.GathersAll state selected (seen ++ [item]) joined := by
  -- An item that is not a supported installable subject adds nothing to gather.
  have skipped : (∀ subject id candidate, item = (.subject subject, .candidate id) →
      provider.Supported state selected subject id candidate →
      candidate.release.isRBasePackage = true) →
      provider.GathersAll state selected (seen ++ [item]) packages := by
    intro nothing
    refine ⟨gathers.sound, ?_⟩
    intro subject id candidate seenIn supported installable
    rcases List.mem_append.mp seenIn with old | new
    · exact gathers.complete subject id candidate old supported installable
    · have runtime := nothing subject id candidate (List.mem_singleton.mp new).symm supported
      simp [runtime] at installable
  obtain ⟨package, version⟩ := item
  cases package with
  | root => exact ⟨packages, rfl, skipped (by simp)⟩
  | occupancy name => exact ⟨packages, rfl, skipped (by simp)⟩
  | subject subject =>
    by_cases differs : subject = .r
    · subst differs
      exact ⟨packages, rfl, skipped (by rintro _ _ _ ⟨⟩ supported; exact absurd rfl supported.differs)⟩
    · obtain ⟨id, candidate, rfl, supported⟩ := selected_supported reached sound member differs
      have found := provider.candidateForId_of_visible reached.answered.1 supported.visible
      have stepped : provider.selectPackage packages (.subject subject, .candidate id) state =
          if candidate.release.isRBasePackage = true then (.ok packages, state)
          else (provider.joinSelected packages subject candidate, state) := by
        have unfolded : provider.selectPackage packages (.subject subject, .candidate id) =
            (withFailure (provider.candidateForId subject id) >>= fun candidate =>
              if candidate.release.isRBasePackage then pure packages
              else Attempt.ofExcept (provider.joinSelected packages subject candidate)) := by
          cases subject with
          | r => exact absurd rfl differs
          | _ => rfl
        simp only [unfolded, Bind.bind, withFailure, found, Except.mapError]
        split <;> rfl
      rw [stepped]
      by_cases runtime : candidate.release.isRBasePackage = true
      · rw [if_pos runtime]
        refine ⟨packages, rfl, skipped ?_⟩
        rintro other otherId otherCandidate ⟨⟩ otherSupported
        rw [← provider.visible_unique reached.answered.1 supported.visible otherSupported.visible]
        exact runtime
      · rw [if_neg runtime]
        obtain ⟨joined, accepted, gathered⟩ := joinSelected_gathers reached sound gathers
          supported (by simpa using runtime)
        exact ⟨joined, by rw [accepted], gathered⟩

/-- The projection loop succeeds and gathers every supported subject. -/
theorem select_gathers : ∃ packages,
    selected.foldlM provider.selectPackage KeyedMap.empty state = (.ok packages, state) ∧
      provider.GathersAll state selected selected packages := by
  have general : ∀ (rest seen : List (PackageId × SolverVersion)) (packages : SelectedPackages),
      (∀ item ∈ rest, item ∈ selected) → provider.GathersAll state selected seen packages →
      ∃ joined, rest.foldlM provider.selectPackage packages state = (.ok joined, state) ∧
        provider.GathersAll state selected (seen ++ rest) joined := by
    intro rest
    induction rest with
    | nil =>
      intro seen packages _ gathers
      exact ⟨packages, rfl, by simpa using gathers⟩
    | cons item rest ih =>
      intro seen packages within gathers
      obtain ⟨joined, stepped, gathered⟩ := selectPackage_gathers reached sound gathers
        (within item List.mem_cons_self)
      obtain ⟨final, continued, complete⟩ := ih (seen ++ [item]) joined
        (fun other member => within other (List.mem_cons_of_mem _ member)) gathered
      refine ⟨final, ?_, by simpa using complete⟩
      rw [List.foldlM_cons]
      simp only [Bind.bind, stepped]
      exact continued
  have start : provider.GathersAll state selected [] KeyedMap.empty :=
    ⟨fun _ _ stored => by simp at stored, fun _ _ _ seenIn => by simp at seenIn⟩
  simpa using general selected [] KeyedMap.empty (fun _ member => member) start

/-- A solution projects to a resolution. -/
theorem projectSelection_projects : ∃ packages resolution,
    provider.projectSelection selected state = (.ok resolution, state) ∧
      selected.foldlM provider.selectPackage KeyedMap.empty state = (.ok packages, state) ∧
      provider.GathersAll state selected selected packages ∧
      provider.Projects packages resolution := by
  obtain ⟨packages, folded, gathers⟩ := select_gathers reached sound
  have keyed := selected_rootsKeyed reached sound
  have named : ∀ entry ∈ packages.entries, entry.2.candidate.identity.name = entry.1 ∧
      entry.2.candidate.release.isRBasePackage = false := by
    intro entry member
    have stored : packages.get? entry.1 = some entry.2 :=
      (KeyedMap.get?_eq_some_iff _ _ _).mpr ⟨entry, member, Same.refl _, rfl⟩
    exact ⟨(gathers.sound _ _ stored).named, (gathers.sound _ _ stored).installable⟩
  set sorted := Sorting.sortBy (compareOn Prod.fst) packages.entries with sortedIs
  obtain ⟨projected, mapped⟩ : ∃ projected, (sorted.map Prod.snd).mapM provider.projectPackage =
      .ok projected := by
    refine exists_mapM_eq_ok fun selection _ => ?_
    obtain ⟨expansion, expanded⟩ :=
      provider.expansionForSubjects_of_keyed keyed selection.subjects
    exact ⟨_, by simp only [projectPackage, expanded, ok_bind]; rfl⟩
  have release : ∀ selection package, provider.projectPackage selection = .ok package →
      package.release = selection.candidate.release := by
    intro selection package accepted
    obtain ⟨expansion, -, finished⟩ := bind_eq_ok.mp accepted
    rw [← Except.ok.inj finished]
  refine ⟨packages, .new provider.request.target
    (Sorting.sortBy (compareOn ResolvedPackage.name) projected), ?_, folded, gathers, rfl, ?_, ?_⟩
  · simp only [projectSelection, Bind.bind, folded, ← sortedIs, Attempt.ofExcept, mapped,
      Except.mapError]
    rfl
  · -- The names are the keys of the gathered selections.
    have names : projected.map ResolvedPackage.name = sorted.map Prod.fst := by
      have related := List.forall₂_map_left_iff.mp (mapM_eq_ok.mp mapped)
      have within : ∀ entry ∈ sorted, entry ∈ packages.entries := fun _ => Sorting.mem_sortBy.mp
      clear_value sorted
      clear mapped sortedIs
      induction related with
      | nil => rfl
      | @cons entry package rest others accepted _ ih =>
        rw [List.map_cons, List.map_cons, ih fun other member =>
          within other (List.mem_cons_of_mem _ member), ResolvedPackage.name,
          release _ _ accepted]
        congr 1
        exact (named entry (within entry List.mem_cons_self)).1
    have keys : (sorted.map Prod.fst).Nodup := by
      rw [((Sorting.sortBy_perm _ packages.entries).map Prod.fst).nodup_iff, List.Nodup,
        List.pairwise_map]
      exact packages.distinct.imp fun differs equal => differs (Same.of_eq equal)
    rw [Resolution.new, ((Sorting.sortBy_perm _ _).map ResolvedPackage.name).nodup_iff]
    refine List.Nodup.sublist (List.Sublist.map _ List.filter_sublist) ?_
    rw [((Sorting.sortBy_perm _ _).map ResolvedPackage.name).nodup_iff, names]
    exact keys
  · intro package
    simp only [Resolution.new, Sorting.mem_sortBy, List.mem_filter, mem_of_mapM_eq_ok mapped,
      List.mem_map]
    constructor
    · rintro ⟨⟨selection, ⟨entry, member, rfl⟩, accepted⟩, -⟩
      exact ⟨entry.1, entry.2, (KeyedMap.get?_eq_some_iff _ _ _).mpr
        ⟨entry, Sorting.mem_sortBy.mp member, Same.refl _, rfl⟩, accepted⟩
    · rintro ⟨name, selection, stored, accepted⟩
      obtain ⟨entry, member, -, rfl⟩ := (KeyedMap.get?_eq_some_iff _ _ _).mp stored
      refine ⟨⟨entry.2, ⟨entry, Sorting.mem_sortBy.mpr member, rfl⟩, accepted⟩, ?_⟩
      rw [release _ _ accepted, (named entry member).2]
      rfl

end Run

end Provider

end Rsolve
