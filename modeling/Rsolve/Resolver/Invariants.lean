import Rsolve.Resolver.Solve

/-!
# Invariants of the provider state

Interned ids and identities correspond one to one, and every id keeps the facts of the candidate it
was made for. Every cached subject holds exactly the visible candidates of some spelling of its key,
each under the id of its identity. Both facts hold in every state a provider can reach.
-/
open Keyed Checked Growth Intervals

namespace Rsolve

/-! ### Candidates under subjects -/

/-- Subjects that are the same identify the same exact identities. -/
theorem PreparedCandidate.outsideExact_congr (candidate : PreparedCandidate)
    {left right : SolverKey} (same : Same left right) :
    candidate.outsideExact left = candidate.outsideExact right := by
  cases left <;> cases right <;> simp_all [Same, representative, PreparedCandidate.outsideExact]

/-- Subjects that are the same scope provenances alike. -/
theorem provenanceMatches_congr (provenance : Provenance) {left right : SolverKey}
    (same : Same left right) :
    provenanceMatches provenance left = provenanceMatches provenance right := by
  cases left <;> cases right <;> simp_all [Same, representative, provenanceMatches]

/-- Subjects that are the same scope repositories alike. -/
theorem PreparedCandidate.withinRepository_congr {left right : SolverKey}
    (same : Same left right) :
    PreparedCandidate.withinRepository left = PreparedCandidate.withinRepository right := by
  cases left <;> cases right <;> simp_all [Same, representative]
  all_goals rfl

/-- Subjects that are the same see the same occurrences. -/
theorem PreparedCandidate.applicableOccurrences_congr (candidate : PreparedCandidate)
    {left right : SolverKey} (same : Same left right) :
    candidate.applicableOccurrences left = candidate.applicableOccurrences right := by
  unfold PreparedCandidate.applicableOccurrences
  rw [SolverKey.subjectName_congr same, candidate.outsideExact_congr same,
    provenanceMatches_congr _ same, PreparedCandidate.withinRepository_congr same]

/-- Subjects that are the same may select the same candidates. -/
theorem PreparedCandidate.isEligibleFor_congr (candidate : PreparedCandidate)
    {left right : SolverKey} (same : Same left right) :
    candidate.isEligibleFor left = candidate.isEligibleFor right := by
  unfold PreparedCandidate.isEligibleFor
  rw [SolverKey.subjectName_congr same]
  have occurrences := candidate.applicableOccurrences_congr same
  cases left <;> cases right <;> simp_all [Same, representative]

/-- A subject only selects candidates of its package. -/
theorem PreparedCandidate.name_of_isEligibleFor {candidate : PreparedCandidate}
    {subject : SolverKey} (eligible : candidate.isEligibleFor subject = true) :
    subject.subjectName = some candidate.identity.name := by
  unfold PreparedCandidate.isEligibleFor at eligible
  split at eligible
  · simp at eligible
  · next name found =>
    split at eligible
    · simp at eligible
    · next named => rw [found, not_not.mp named]

/-- Provenances that are the same are within the same scopes. -/
theorem provenanceMatches_congr_provenance {left right : Provenance} (same : Same left right)
    (subject : SolverKey) : provenanceMatches left subject = provenanceMatches right subject := by
  cases subject <;> cases left <;> cases right <;>
    simp_all [Same, representative, provenanceMatches]

/-- Candidates with the same facts are offered through the same occurrences. -/
theorem PreparedCandidate.SameFacts.applicableOccurrences {left right : PreparedCandidate}
    (same : left.SameFacts right) (subject : SolverKey) :
    left.applicableOccurrences subject = right.applicableOccurrences subject := by
  obtain ⟨name, provenance⟩ := ReleaseIdentity.same_iff.mp same.identity
  have outside : left.outsideExact subject = right.outsideExact subject := by
    cases subject <;> simp [PreparedCandidate.outsideExact]
    exact same.identity.congr_left _
  unfold PreparedCandidate.applicableOccurrences PreparedCandidate.availableOccurrences
  rw [name, outside, provenanceMatches_congr_provenance provenance, same.occurrences]

/-- Candidates with the same facts may be selected by the same subjects. -/
theorem PreparedCandidate.SameFacts.isEligibleFor {left right : PreparedCandidate}
    (same : left.SameFacts right) (subject : SolverKey) :
    left.isEligibleFor subject = right.isEligibleFor subject := by
  obtain ⟨name, -⟩ := ReleaseIdentity.same_iff.mp same.identity
  have occurrences := same.applicableOccurrences subject
  unfold PreparedCandidate.isEligibleFor
  rw [name, same.exposure]
  cases subject <;> simp_all [PreparedCandidate.availableOccurrences, same.occurrences,
    same.identity.congr_left]

/-! ### Merging within a subject -/

/-- A validated candidate holds the validated release. -/
theorem PreparedCandidate.normalizeAndValidate_release {release : PackageRelease}
    {exposure : NonRepositoryExposure} {occurrences : List RepositoryOccurrence}
    {candidate : PreparedCandidate}
    (accepted : PreparedCandidate.normalizeAndValidate release exposure occurrences =
      .ok candidate) : candidate.release = release := by
  unfold PreparedCandidate.normalizeAndValidate at accepted
  split at accepted
  · split at accepted
    · simp at accepted
    · split at accepted
      · split at accepted
        · simp at accepted
        · split at accepted
          · rw [← Except.ok.inj accepted]
          · simp at accepted
      · simp at accepted
  · simp at accepted

/-- A merged release keeps its identity. -/
theorem PackageRelease.mergeConsistent_identity {release incoming merged : PackageRelease}
    (accepted : release.mergeConsistent incoming = .ok merged) :
    merged.identity = release.identity := by
  unfold PackageRelease.mergeConsistent at accepted
  obtain ⟨_, -, accepted⟩ := bind_eq_ok.mp accepted
  obtain ⟨_, -, accepted⟩ := bind_eq_ok.mp accepted
  obtain ⟨publication, -, accepted⟩ := bind_eq_ok.mp accepted
  obtain ⟨_, -, accepted⟩ := bind_eq_ok.mp accepted
  rw [← Except.ok.inj accepted]

/-- A merged candidate keeps its identity. -/
theorem PreparedCandidate.merge_identity {candidate incoming merged : PreparedCandidate}
    (accepted : candidate.merge incoming = .ok merged) :
    merged.identity = candidate.identity := by
  unfold PreparedCandidate.merge at accepted
  obtain ⟨_, -, accepted⟩ := bind_eq_ok.mp accepted
  obtain ⟨release, joined, accepted⟩ := bind_eq_ok.mp accepted
  have kept := PreparedCandidate.normalizeAndValidate_release accepted
  rw [PreparedCandidate.identity, kept,
    PackageRelease.mergeConsistent_identity (mapError_eq_ok.mp joined)]
  rfl

/-- No two candidates of a list have one identity. -/
def DistinctIdentities (candidates : List PreparedCandidate) : Prop :=
  candidates.Pairwise (fun left right => ¬ Same left.identity right.identity)

/-- Observing a candidate keeps identities distinct. -/
theorem observeCandidate_distinct {unique joined : List PreparedCandidate}
    {release : PreparedCandidate} (distinct : DistinctIdentities unique)
    (observed : observeCandidate unique release = .ok joined) : DistinctIdentities joined := by
  unfold observeCandidate at observed
  split at observed
  · next existing found =>
    split at observed
    · next merged accepted =>
      obtain rfl := Except.ok.inj observed
      have sameIdentity : Same existing.identity release.identity := by
        simpa using List.find?_some found
      refine List.pairwise_append.mpr
        ⟨distinct.sublist List.eraseP_sublist, List.pairwise_singleton _ _, ?_⟩
      intro candidate kept other single
      obtain rfl := List.mem_singleton.mp single
      rw [PreparedCandidate.merge_identity accepted]
      intro agrees
      obtain ⟨erased, before, after, -, matched, split, remaining⟩ :=
        List.exists_of_eraseP (List.mem_of_find?_eq_some found) (List.find?_some found)
      have erasedSame : Same erased.identity candidate.identity :=
        (of_decide_eq_true matched).trans (sameIdentity.symm.trans agrees.symm)
      rw [split, DistinctIdentities, List.pairwise_middle (fun differs same => differs same.symm),
        List.pairwise_cons] at distinct
      rw [remaining] at kept
      exact distinct.1 candidate kept erasedSame
    · simp at observed
  · next absent =>
    obtain rfl := Except.ok.inj observed
    refine List.pairwise_append.mpr ⟨distinct, List.pairwise_singleton _ _, ?_⟩
    intro candidate kept other single
    obtain rfl := List.mem_singleton.mp single
    simpa using List.find?_eq_none.mp absent candidate kept

/-- The candidates of a subject have distinct identities. -/
theorem uniqueCandidates_distinct {releases unique : List PreparedCandidate}
    (accepted : uniqueCandidates releases = .ok unique) : DistinctIdentities unique := by
  have general : ∀ (releases start unique : List PreparedCandidate), DistinctIdentities start →
      releases.foldlM observeCandidate start = .ok unique → DistinctIdentities unique := by
    intro releases
    induction releases with
    | nil =>
      intro start unique distinct accepted
      rwa [← Except.ok.inj accepted]
    | cons release rest ih =>
      intro start unique distinct accepted
      rw [List.foldlM_cons] at accepted
      obtain ⟨joined, observed, continued⟩ := bind_eq_ok.mp accepted
      exact ih joined unique (observeCandidate_distinct distinct observed) continued
  exact general releases [] unique List.Pairwise.nil accepted

/-- The visible candidates of a subject have distinct identities. -/
theorem Provider.visibleCandidates_distinct {provider : Provider} {subject : SolverKey}
    {releases visible : List PreparedCandidate}
    (accepted : provider.visibleCandidates subject releases = .ok visible) :
    DistinctIdentities visible := by
  obtain ⟨unique, collected, finished⟩ := bind_eq_ok.mp accepted
  rw [← Except.ok.inj finished]
  refine List.Pairwise.filter _ ?_
  exact ((Sorting.sortBy_perm _ unique).pairwise_iff
    (fun differs same => differs same.symm)).mpr (uniqueCandidates_distinct collected)

/-- The visible candidates of a subject may be selected by it. -/
theorem Provider.visibleCandidates_eligible {provider : Provider} {subject : SolverKey}
    {releases visible : List PreparedCandidate}
    (accepted : provider.visibleCandidates subject releases = .ok visible)
    {candidate : PreparedCandidate} (member : candidate ∈ visible) :
    candidate.isEligibleFor subject = true := by
  obtain ⟨unique, -, finished⟩ := bind_eq_ok.mp accepted
  rw [← Except.ok.inj finished] at member
  exact (List.mem_filter.mp member).2

/-! ### The interner -/

namespace CandidateInterner

/-- An interner grows by adding identities and candidates. -/
instance : Preorder CandidateInterner where
  le earlier later :=
    (∀ identity id, earlier.byIdentity.get? identity = some id →
      later.byIdentity.get? identity = some id) ∧
    (∀ id candidate, earlier.candidates.get? id = some candidate →
      later.candidates.get? id = some candidate)
  le_refl _ := ⟨fun _ _ held => held, fun _ _ held => held⟩
  le_trans _ _ _ first second :=
    ⟨fun identity id held => second.1 identity id (first.1 identity id held),
      fun id candidate held => second.2 id candidate (first.2 id candidate held)⟩

/-- Ids and identities correspond. -/
structure WellFormed (interner : CandidateInterner) : Prop where
  /-- Ids are below the next one. -/
  fresh : ∀ id candidate, interner.candidates.get? id = some candidate →
    id.ordinal < interner.next
  /-- The candidate of an id has that id's identity. -/
  indexed : ∀ id candidate, interner.candidates.get? id = some candidate →
    interner.byIdentity.get? candidate.identity = some id
  /-- The id of an identity has a candidate of that identity. -/
  named : ∀ identity id, interner.byIdentity.get? identity = some id →
    ∃ candidate, interner.candidates.get? id = some candidate ∧ Same candidate.identity identity

/-- An id is the id of a candidate's identity and keeps its facts. -/
def Interned (id : CandidateId) (candidate : PreparedCandidate) (interner : CandidateInterner) :
    Prop :=
  interner.byIdentity.get? candidate.identity = some id ∧
    ∃ existing, interner.candidates.get? id = some existing ∧ existing.SameFacts candidate

/-- Interned candidates stay interned. -/
theorem interned_monotone (id : CandidateId) (candidate : PreparedCandidate) :
    Monotone (Interned id candidate) := by
  rintro earlier later grown ⟨indexed, existing, stored, same⟩
  exact ⟨grown.1 _ _ indexed, existing, grown.2 _ _ stored, same⟩

/-- The empty interner is well formed. -/
theorem initial_wellFormed : initial.WellFormed :=
  ⟨fun _ _ held => by simp [initial] at held, fun _ _ held => by simp [initial] at held,
    fun _ _ held => by simp [initial] at held⟩

/-- Interned candidates with one id have the same facts. -/
theorem Interned.sameFacts {id : CandidateId} {left right : PreparedCandidate}
    {interner : CandidateInterner} (leftInterned : Interned id left interner)
    (rightInterned : Interned id right interner) : left.SameFacts right := by
  obtain ⟨-, existing, stored, same⟩ := leftInterned
  obtain ⟨-, other, storedOther, sameOther⟩ := rightInterned
  obtain rfl : existing = other := Option.some.inj (stored.symm.trans storedOther)
  exact same.symm.trans sameOther

/-- Interned candidates with one identity have one id. -/
theorem Interned.id_eq {left right : CandidateId} {first second : PreparedCandidate}
    {interner : CandidateInterner} (leftInterned : Interned left first interner)
    (rightInterned : Interned right second interner)
    (same : Same first.identity second.identity) : left = right := by
  have indexed := leftInterned.1
  rw [interner.byIdentity.get?_congr same] at indexed
  exact Option.some.inj (indexed.symm.trans rightInterned.1)

/-- Adding a new identity keeps the interner well formed. -/
theorem WellFormed.insert {interner : CandidateInterner} (wellFormed : interner.WellFormed)
    {candidate : PreparedCandidate} (absent : interner.byIdentity.get? candidate.identity = none) :
    let id : CandidateId := ⟨interner.next⟩
    let grown : CandidateInterner := ⟨interner.next + 1,
      interner.byIdentity.insert candidate.identity id, interner.candidates.insert id candidate⟩
    interner ≤ grown ∧ grown.WellFormed ∧ Interned id candidate grown := by
  intro id grown
  have unused : ∀ other stored, interner.candidates.get? other = some stored →
      ¬ Same id other := by
    intro other stored held equal
    have bound := wellFormed.fresh other stored held
    obtain rfl : id = other := equal
    exact Nat.lt_irrefl _ bound
  have unnamed : ∀ identity other, interner.byIdentity.get? identity = some other →
      ¬ Same candidate.identity identity := by
    intro identity other held same
    rw [interner.byIdentity.get?_congr same, held] at absent
    simp at absent
  have storedOld : ∀ other stored, interner.candidates.get? other = some stored →
      grown.candidates.get? other = some stored := by
    intro other stored held
    rw [KeyedMap.get?_insert_other _ _ (unused other stored held), held]
  have namedOld : ∀ identity other, interner.byIdentity.get? identity = some other →
      grown.byIdentity.get? identity = some other := by
    intro identity other held
    rw [KeyedMap.get?_insert_other _ _ (unnamed identity other held), held]
  have storedNew : grown.candidates.get? id = some candidate :=
    KeyedMap.get?_insert_same _ _ (Same.refl id)
  have namedNew : grown.byIdentity.get? candidate.identity = some id :=
    KeyedMap.get?_insert_same _ _ (Same.refl _)
  refine ⟨⟨namedOld, storedOld⟩, ⟨?_, ?_, ?_⟩, namedNew, candidate, storedNew,
    PreparedCandidate.SameFacts.refl candidate⟩
  · intro other stored held
    rw [KeyedMap.get?_insert] at held
    split at held
    · next equal =>
      obtain rfl : id = other := equal
      exact Nat.lt_succ_self _
    · exact Nat.lt_succ_of_lt (wellFormed.fresh other stored held)
  · intro other stored held
    rw [KeyedMap.get?_insert] at held
    split at held
    · next equal =>
      obtain rfl : id = other := equal
      obtain rfl := Option.some.inj held
      exact namedNew
    · exact namedOld _ _ (wellFormed.indexed other stored held)
  · intro identity other held
    rw [KeyedMap.get?_insert] at held
    split at held
    · next same =>
      obtain rfl := Option.some.inj held
      exact ⟨candidate, storedNew, same⟩
    · obtain ⟨stored, found, same⟩ := wellFormed.named identity other held
      exact ⟨stored, storedOld _ _ found, same⟩

/-- Interning a candidate gives the id of its identity. -/
theorem intern_ensures (candidate : PreparedCandidate) :
    Ensures WellFormed (intern candidate) (fun id => Interned id candidate) := by
  intro interner wellFormed
  unfold intern
  cases known : interner.byIdentity.get? candidate.identity with
  | none =>
    obtain ⟨grown, kept, interned⟩ := wellFormed.insert known
    exact ⟨grown, kept, fun id returned => by rw [← Except.ok.inj returned]; exact interned⟩
  | some id =>
    obtain ⟨existing, stored, -⟩ := wellFormed.named candidate.identity id known
    simp only [stored]
    split
    · next same =>
      refine ⟨le_refl _, wellFormed, fun found returned => ?_⟩
      obtain rfl := Except.ok.inj returned
      exact ⟨known, existing, stored, same⟩
    · exact ⟨le_refl _, wellFormed, fun found returned => by simp at returned⟩

/-- Interning a list of candidates pairs every candidate with the id of its identity. -/
theorem internCandidates_ensures (candidates : List PreparedCandidate) :
    Ensures WellFormed (Provider.internCandidates candidates) (fun entries interner =>
      List.Forall₂ (fun candidate entry => entry.2 = candidate ∧
        Interned entry.1 candidate interner) candidates entries) := by
  refine Ensures.mapM ?_ ?_ candidates
  · rintro candidate entry earlier later grown ⟨paired, interned⟩
    exact ⟨paired, interned_monotone _ _ grown interned⟩
  · intro candidate
    refine (Ensures.bind (fun id => interned_monotone id candidate) (intern_ensures candidate)
      fun id => Ensures.pure (id, candidate)).weaken ?_
    rintro _ interner - ⟨id, interned, rfl⟩
    exact ⟨rfl, interned⟩

end CandidateInterner

/-! ### Loaded subjects -/

namespace Provider

variable (provider : Provider)

/-- A loaded subject holds the visible candidates of a key with the ids of their identities. -/
structure Loads (subject : SolverKey) (loaded : LoadedSubject) (interner : CandidateInterner) :
    Prop where
  /-- The loader's answer and the candidates visible in it. -/
  prepared : ∃ result visible, provider.loader subject = .ok result ∧
    provider.visibleCandidates subject result.candidates = .ok visible ∧
    loaded.candidates.map Prod.snd = visible ∧ loaded.quarantined = result.quarantined
  /-- Every candidate has the id of its identity. -/
  interned : ∀ entry ∈ loaded.candidates, interner.Interned entry.1 entry.2

/-- A loaded subject stays loaded when the interner grows. -/
theorem loads_monotone (subject : SolverKey) (loaded : LoadedSubject) :
    Monotone (provider.Loads subject loaded) := by
  rintro earlier later grown ⟨prepared, interned⟩
  exact ⟨prepared, fun entry member =>
    CandidateInterner.interned_monotone _ _ grown (interned entry member)⟩

/-- Loading a subject gives its visible candidates. -/
theorem loadSubject_ensures (subject : SolverKey) :
    Ensures CandidateInterner.WellFormed (provider.loadSubject subject)
      (provider.Loads subject) := by
  refine (Ensures.bind (fun _ _ _ _ held => held) (Ensures.ofExcept _) fun result =>
    Ensures.bind (fun _ _ _ _ held => held) (Ensures.ofExcept _) fun visible =>
      Ensures.bind ?_ (CandidateInterner.internCandidates_ensures visible) fun entries =>
        Ensures.pure _).weaken ?_
  · rintro entries earlier later grown paired
    refine paired.imp ?_
    rintro candidate entry ⟨equal, interned⟩
    exact ⟨equal, CandidateInterner.interned_monotone _ _ grown interned⟩
  · rintro _ interner - ⟨result, offered, visible, shown, entries, paired, rfl⟩
    refine ⟨⟨result, visible, offered, shown, ?_, rfl⟩, ?_⟩
    · clear shown
      induction paired with
      | nil => rfl
      | cons head _ ih => rw [List.map_cons, head.1, ih]
    · intro entry member
      clear shown
      induction paired with
      | nil => simp at member
      | cons head _ ih =>
        rcases List.mem_cons.mp member with rfl | member
        · rw [head.1]
          exact head.2
        · exact ih member

end Provider

/-- A provider state grows by adding cache entries and interned candidates. -/
instance : Preorder ProviderState where
  le earlier later :=
    (∀ subject outcome, earlier.cache.get? subject = some outcome →
      later.cache.get? subject = some outcome) ∧ earlier.interner ≤ later.interner
  le_refl _ := ⟨fun _ _ held => held, le_refl _⟩
  le_trans _ _ _ first second :=
    ⟨fun subject outcome held => second.1 subject outcome (first.1 subject outcome held),
      le_trans first.2 second.2⟩

/-- A subject is loaded in a state. -/
def ProviderState.View (subject : SolverKey) (loaded : LoadedSubject) (state : ProviderState) :
    Prop :=
  state.cache.get? subject = some (.ok loaded)

/-- A loaded subject stays loaded. -/
theorem ProviderState.view_monotone (subject : SolverKey) (loaded : LoadedSubject) :
    Monotone (ProviderState.View subject loaded) :=
  fun _ _ grown held => grown.1 _ _ held

/-- A subject is loaded in one way. -/
theorem ProviderState.View.unique {subject other : SolverKey} {left right : LoadedSubject}
    {state : ProviderState} (leftView : state.View subject left)
    (rightView : state.View other right) (same : Same subject other) : left = right := by
  unfold ProviderState.View at leftView rightView
  rw [state.cache.get?_congr same, rightView] at leftView
  simpa using leftView.symm

namespace Provider

variable (provider : Provider)

/-- The cache of a state holds what the loader offers. -/
structure WellFormed (state : ProviderState) : Prop where
  /-- Ids and identities correspond. -/
  interner : state.interner.WellFormed
  /-- A cached subject holds the visible candidates of its key. -/
  cached : ∀ subject loaded, state.View subject loaded →
    ∃ key, Same key subject ∧ provider.Loads key loaded state.interner

/-- The initial state is well formed. -/
theorem initial_wellFormed : provider.WellFormed .initial :=
  ⟨CandidateInterner.initial_wellFormed, fun _ _ view => by
    simp [ProviderState.View, ProviderState.initial] at view⟩

/-- Loading a subject makes it loaded. -/
theorem loaded_ensures (subject : SolverKey) :
    Ensures provider.WellFormed (provider.loaded subject) (fun loaded =>
      ProviderState.View subject loaded) := by
  intro state wellFormed
  unfold loaded
  cases known : state.cache.get? subject with
  | some outcome =>
    refine ⟨le_refl _, wellFormed, fun loaded returned => ?_⟩
    rw [mapError_eq_ok.mp returned] at known
    exact known
  | none =>
    obtain ⟨grown, kept, established⟩ :=
      provider.loadSubject_ensures subject state.interner wellFormed.interner
    generalize provider.loadSubject subject state.interner = outcome at grown kept established
    obtain ⟨result, interner⟩ := outcome
    have inserted : ∀ query, (state.cache.insert subject result).get? query =
        if Same subject query then some result else state.cache.get? query :=
      fun query => KeyedMap.get?_insert _ _ _ _
    refine ⟨⟨fun query outcome held => ?_, grown⟩, ⟨kept, fun query loaded view => ?_⟩,
      fun loaded returned => ?_⟩
    · change (state.cache.insert subject result).get? query = some outcome
      rw [inserted, if_neg]
      · exact held
      · intro same
        rw [state.cache.get?_congr same, held] at known
        simp at known
    · change (state.cache.insert subject result).get? query = some (.ok loaded) at view
      rw [inserted] at view
      split at view
      · next same =>
        exact ⟨subject, same, established loaded (Option.some.inj view)⟩
      · obtain ⟨key, same, loads⟩ := wellFormed.cached query loaded view
        exact ⟨key, same, provider.loads_monotone key loaded grown loads⟩
    · change (state.cache.insert subject result).get? subject = some (.ok loaded)
      rw [inserted, if_pos (Same.refl subject), mapError_eq_ok.mp returned]

section Views

variable {provider} {state : ProviderState} (wellFormed : provider.WellFormed state)
  {subject : SolverKey} {loaded : LoadedSubject} (view : state.View subject loaded)
include wellFormed view

/-- The candidates of a loaded subject have the ids of their identities. -/
theorem view_interned {entry : CandidateId × PreparedCandidate}
    (member : entry ∈ loaded.candidates) : state.interner.Interned entry.1 entry.2 := by
  obtain ⟨key, -, loads⟩ := wellFormed.cached subject loaded view
  exact loads.interned entry member

/-- The candidates of a loaded subject may be selected by it. -/
theorem view_eligible {entry : CandidateId × PreparedCandidate}
    (member : entry ∈ loaded.candidates) : entry.2.isEligibleFor subject = true := by
  obtain ⟨key, same, loads⟩ := wellFormed.cached subject loaded view
  obtain ⟨result, visible, -, shown, listed, -⟩ := loads.prepared
  rw [← entry.2.isEligibleFor_congr same]
  refine visibleCandidates_eligible shown ?_
  rw [← listed]
  exact List.mem_map_of_mem member

/-- The candidates of a loaded subject are candidates of its package. -/
theorem view_name {entry : CandidateId × PreparedCandidate}
    (member : entry ∈ loaded.candidates) :
    subject.subjectName = some entry.2.identity.name :=
  PreparedCandidate.name_of_isEligibleFor (view_eligible wellFormed view member)

/-- In a loaded subject, an identity belongs to one entry. -/
theorem view_entry_eq {left right : CandidateId × PreparedCandidate}
    (leftIn : left ∈ loaded.candidates) (rightIn : right ∈ loaded.candidates)
    (same : Same left.2.identity right.2.identity) : left = right := by
  obtain ⟨key, -, loads⟩ := wellFormed.cached subject loaded view
  obtain ⟨result, visible, -, shown, listed, -⟩ := loads.prepared
  have distinct : loaded.candidates.Pairwise
      (fun first second => ¬ Same first.2.identity second.2.identity) := by
    have pairwise := visibleCandidates_distinct shown
    rw [← listed, DistinctIdentities, List.pairwise_map] at pairwise
    exact pairwise
  have symmetric : Std.Symm (fun first second : CandidateId × PreparedCandidate =>
      ¬ Same first.2.identity second.2.identity) := ⟨fun _ _ differs same => differs same.symm⟩
  by_contra differs
  exact distinct.forall leftIn rightIn differs same

/-- In a loaded subject, an id belongs to one entry. -/
theorem view_id_eq {left right : CandidateId × PreparedCandidate}
    (leftIn : left ∈ loaded.candidates) (rightIn : right ∈ loaded.candidates)
    (same : left.1 = right.1) : left = right := by
  have leftInterned := view_interned wellFormed view leftIn
  have rightInterned := view_interned wellFormed view rightIn
  rw [← same] at rightInterned
  exact view_entry_eq wellFormed view leftIn rightIn
    (leftInterned.sameFacts rightInterned).identity

/-- Looking an id up in a loaded subject finds exactly the entry of that id. -/
theorem findCandidate_eq_some {id : CandidateId} {candidate : PreparedCandidate} :
    findCandidate loaded id = some candidate ↔ (id, candidate) ∈ loaded.candidates := by
  unfold findCandidate
  constructor
  · intro found
    obtain ⟨entry, first, rfl⟩ := Option.map_eq_some_iff.mp found
    obtain rfl : entry.1 = id := by simpa using List.find?_some first
    exact List.mem_of_find?_eq_some first
  · intro member
    cases first : loaded.candidates.find? (fun entry => entry.1 == id) with
    | none => simpa using List.find?_eq_none.mp first (id, candidate) member
    | some entry =>
      have equal : entry.1 = id := by simpa using List.find?_some first
      rw [view_id_eq wellFormed view (List.mem_of_find?_eq_some first) member equal]
      rfl

end Views

end Provider

end Rsolve
