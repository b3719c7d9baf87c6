import Rsolve.Resolver.Cutoff
import Rsolve.Resolver.DebugTexts
import Rsolve.Resolver.Observations

/-!
# The choice of a candidate

The ids of candidates follow the order in which they were loaded, merged candidates keep the spelling
that arrived first, and ties are broken on texts that show the spelling. None of this reaches the
identity that is chosen: it is the greatest of the admissible candidates, whatever the order of the
loader.
-/
open Keyed Checked Growth Intervals Divergence

namespace Rsolve

/-! ### Comparing candidates -/

/-- Values are ordered by what an order says of their images. -/
theorem transCmp_image {α β : Type*} (cmp : β → β → Ordering) [Std.TransCmp cmp] (image : α → β) :
    Std.TransCmp (fun left right => cmp (image left) (image right)) where
  eq_swap := Std.OrientedCmp.eq_swap
  isLE_trans := Std.TransCmp.isLE_trans

/-- Values are ordered by the reverse of an order. -/
theorem transCmp_reverse {α : Type*} (cmp : α → α → Ordering) [Std.TransCmp cmp] :
    Std.TransCmp (fun left right => cmp right left) where
  eq_swap := Std.OrientedCmp.eq_swap
  isLE_trans := fun first second => Std.TransCmp.isLE_trans second first

/-- Ranks are ordered, an absent one first. -/
instance : Std.TransCmp compareRanks where
  eq_swap := by
    rintro (_ | left) (_ | right)
    · rfl
    · rfl
    · rfl
    · exact @Std.OrientedCmp.eq_swap RepositoryRank compare _ left right
  isLE_trans := by
    rintro (_ | first) (_ | second) (_ | third) left right
    · rfl
    · rfl
    · rfl
    · rfl
    · exact left
    · simp [compareRanks] at left
    · simp [compareRanks] at right
    · exact @Std.TransCmp.isLE_trans RepositoryRank compare _ first second third left right

/-- The default preference orders candidates. -/
instance (debug : DebugText) (package : SolverKey) (context : PreferenceContext) :
    Std.TransCmp (defaultCandidatePreference debug package context) := by
  have versions := transCmp_image RPackageVersion.cmp
    (fun candidate : PreparedCandidate => candidate.release.version)
  have forward := transCmp_image compareRanks
    (fun candidate : PreparedCandidate => candidate.repositoryRankFor package)
  have ranks := transCmp_reverse (fun left right : PreparedCandidate =>
    compareRanks (left.repositoryRankFor package) (right.repositoryRankFor package))
  unfold defaultCandidatePreference
  infer_instance

/-- The default preference with its tie breaks orders candidates. -/
instance (debug : DebugText) (package : SolverKey) (context : PreferenceContext) :
    Std.TransCmp (comparePreparedCandidates debug (defaultCandidatePreference debug) package
      context) := by
  have versions := transCmp_image RPackageVersion.cmp
    (fun candidate : PreparedCandidate => candidate.release.version)
  unfold comparePreparedCandidates
  infer_instance

/-- Candidates with the same facts have one rank of preference. -/
theorem preferenceRank_congr {left right : PreparedCandidate} (same : left.SameFacts right)
    (package : SolverKey) (context : PreferenceContext) :
    preferenceRank package context left = preferenceRank package context right := by
  have locked := (same_some.mpr same.identity).congr_right context.locked
  unfold preferenceRank
  rw [same.applicableOccurrences]
  simp only [locked]

/-- Candidates with the same facts have one repository rank. -/
theorem repositoryRankFor_congr {left right : PreparedCandidate} (same : left.SameFacts right)
    (package : SolverKey) : left.repositoryRankFor package = right.repositoryRankFor package := by
  unfold PreparedCandidate.repositoryRankFor
  rw [same.applicableOccurrences]

section Keys

variable {debug : DebugText} {unprintable : Char → Bool}
  (shown : debug.provenance = Provenance.debug unprintable)
include shown

/-- The sort key of an identity starts with its name and what its provenance shows before the
version. -/
theorem identitySortKey_eq (identity : ReleaseIdentity) :
    debug.identitySortKey identity =
      (identity.name.text ++ ":" ++ identity.provenance.debugLead unprintable) ++
        (identity.provenance.fixedVersion.elim ""
          (fun version => version.debug unprintable ++ " \x7d")) := by
  rw [DebugText.identitySortKey, shown, Provenance.debug, String.append_assoc, String.append_assoc,
    String.append_assoc]

/-- The sort keys of candidates of one name and one version are compared independently of spellings,
and tell different identities apart. -/
theorem compareKeys_congr {left right leftTwin rightTwin : PreparedCandidate}
    (leftSame : left.SameFacts leftTwin) (rightSame : right.SameFacts rightTwin)
    (named : left.identity.name = right.identity.name)
    (versions : left.release.version.cmp right.release.version = .eq)
    (differs : ¬ Same left.identity right.identity) :
    compare (debug.identitySortKey left.identity) (debug.identitySortKey right.identity) =
        compare (debug.identitySortKey leftTwin.identity)
          (debug.identitySortKey rightTwin.identity) ∧
      compare (debug.identitySortKey left.identity) (debug.identitySortKey right.identity) ≠
        .eq := by
  obtain ⟨leftName, leftProvenance⟩ := ReleaseIdentity.same_iff.mp leftSame.identity
  obtain ⟨rightName, rightProvenance⟩ := ReleaseIdentity.same_iff.mp rightSame.identity
  have provenances : ¬ Same left.identity.provenance right.identity.provenance := fun same =>
    differs (ReleaseIdentity.same_iff.mpr ⟨named, same⟩)
  have fixed : ∀ version other, left.identity.provenance.fixedVersion = some version →
      right.identity.provenance.fixedVersion = some other → Same version other := by
    intro version other leftFixed rightFixed
    exact (left.release.versioned version leftFixed).trans
      ((RPackageVersion.cmp_eq_iff_same.mp versions).trans
        (right.release.versioned other rightFixed).symm)
  have diverge : Diverge
      (left.identity.name.text ++ ":" ++ left.identity.provenance.debugLead unprintable).toList
      (right.identity.name.text ++ ":" ++ right.identity.provenance.debugLead unprintable).toList := by
    have split : ∀ common lead : String, (common ++ lead).toList = common.toList ++ lead.toList :=
      fun _ _ => String.toList_append
    rw [named, split _ (left.identity.provenance.debugLead _),
      split _ (right.identity.provenance.debugLead _), diverge_append_left]
    exact Provenance.debugLead_diverge provenances fixed
  have compared := diverge.compare_append
  rw [identitySortKey_eq shown, identitySortKey_eq shown, identitySortKey_eq shown,
    identitySortKey_eq shown, ← leftName, ← rightName,
    ← Provenance.debugLead_congr leftProvenance, ← Provenance.debugLead_congr rightProvenance,
    (compared _ _).1, (compared _ _).1]
  exact ⟨rfl, (compared "" "").2⟩

/-- Different identities of one name are compared independently of spellings, and never as equal. -/
theorem comparePreparedCandidates_congr {left right leftTwin rightTwin : PreparedCandidate}
    (package : SolverKey) (context : PreferenceContext)
    (leftSame : left.SameFacts leftTwin) (rightSame : right.SameFacts rightTwin)
    (named : left.identity.name = right.identity.name)
    (differs : ¬ Same left.identity right.identity) :
    comparePreparedCandidates debug (defaultCandidatePreference debug) package context left right =
        comparePreparedCandidates debug (defaultCandidatePreference debug) package context leftTwin
          rightTwin ∧
      comparePreparedCandidates debug (defaultCandidatePreference debug) package context left right ≠
        .eq := by
  have ranks : ∀ {candidate twin : PreparedCandidate}, candidate.SameFacts twin →
      preferenceRank package context candidate = preferenceRank package context twin :=
    fun same => preferenceRank_congr same package context
  have repositories : ∀ {candidate twin : PreparedCandidate}, candidate.SameFacts twin →
      candidate.repositoryRankFor package = twin.repositoryRankFor package :=
    fun same => repositoryRankFor_congr same package
  have versions : left.release.version.cmp right.release.version =
      leftTwin.release.version.cmp rightTwin.release.version := by
    rw [RPackageVersion.cmp_congr_left _ leftSame.version,
      RPackageVersion.cmp_congr_right _ rightSame.version]
  simp only [comparePreparedCandidates, defaultCandidatePreference, compareLex, compareOn,
    ← ranks leftSame, ← ranks rightSame, ← repositories leftSame, ← repositories rightSame,
    ← versions]
  cases compared : left.release.version.cmp right.release.version with
  | eq =>
    obtain ⟨keys, apart⟩ := compareKeys_congr shown leftSame rightSame named compared differs
    rw [← keys]
    simp only [ne_eq, Ordering.then_eq_eq, apart, and_false, not_false_eq_true, and_self]
  | lt => simp
  | gt => simp

end Keys

/-! ### Admissible candidates -/

/-- The candidate that a version of a package stands for. -/
def SolverVersion.candidateId : SolverVersion → Option CandidateId
  | .root => none
  | .r _ => none
  | .candidate id => some id

/-- The identity of an id. -/
def CandidateInterner.identityOf (interner : CandidateInterner) (id : CandidateId) :
    Option ReleaseIdentity :=
  (interner.candidates.get? id).map PreparedCandidate.identity

namespace Provider

variable (provider : Provider)

/-- The identity that a fresh provider chooses for a subject. -/
def chosenIdentity (subject : SolverKey) (range : VersionRange) :
    Except AdapterError (Option ReleaseIdentity) :=
  let (outcome, state) := provider.chooseVersion (.subject subject) range .initial
  outcome.map (fun version => (version.bind SolverVersion.candidateId).bind
    state.interner.identityOf)

/-- A range of a fresh provider admits an identity. -/
def Admits (subject : SolverKey) (range : VersionRange) (identity : ReleaseIdentity) : Prop :=
  ∃ id, (provider.loaded subject .initial).2.interner.byIdentity.get? identity = some id ∧
    range.has (.candidate id) = true

/-- A candidate of a loaded subject is within a range and meets the lock decision. -/
structure Contends (subject : SolverKey) (range : VersionRange) (loaded : LoadedSubject)
    (entry : CandidateId × PreparedCandidate) : Prop where
  /-- The candidate is visible to the subject. -/
  visible : entry ∈ loaded.candidates
  /-- The range holds the candidate. -/
  within : range.has (.candidate entry.1) = true
  /-- The lock decision admits the candidate. -/
  required : meetsRequired (provider.lockDecision subject) entry.2 = true

/-- A selectable candidate that passes the cutoff, unless none does. -/
structure Admissible (subject : SolverKey) (range : VersionRange) (loaded : LoadedSubject)
    (entry : CandidateId × PreparedCandidate) : Prop
    extends provider.Contends subject range loaded entry where
  /-- The cutoff passes the candidate, or no selectable one. -/
  timely : provider.PassesCutoff subject entry.2 ∨
    ∀ other, provider.Contends subject range loaded other →
      ¬ provider.PassesCutoff subject other.2

/-- A fresh provider may choose a candidate for a subject. -/
def MayChoose (subject : SolverKey) (range : VersionRange)
    (entry : CandidateId × PreparedCandidate) : Prop :=
  ∃ loaded, (provider.loaded subject .initial).1 = .ok loaded ∧
    provider.Admissible subject range loaded entry

/-- `compare_prepared_candidates` as the request has it. -/
def compareFor (subject : SolverKey) : PreparedCandidate → PreparedCandidate → Ordering :=
  comparePreparedCandidates provider.debug provider.preference subject
    ⟨(provider.lockDecision subject).locked⟩

/-- An identity is that of the greatest candidate a fresh provider may choose, and there is no
identity only where there is no such candidate. -/
def Greatest (subject : SolverKey) (range : VersionRange) : Option ReleaseIdentity → Prop
  | none => ∀ entry, ¬ provider.MayChoose subject range entry
  | some identity => ∃ entry, provider.MayChoose subject range entry ∧
      Same entry.2.identity identity ∧ ∀ other, provider.MayChoose subject range other →
        other = entry ∨ provider.compareFor subject other.2 entry.2 = .lt

/-- The selectable candidates are those within the range that meet the lock decision. -/
theorem mem_selectableCandidates {subject : SolverKey} {range : VersionRange}
    {loaded : LoadedSubject} {entry : CandidateId × PreparedCandidate} :
    entry ∈ provider.selectableCandidates subject range loaded ↔
      provider.Contends subject range loaded entry := by
  rw [selectableCandidates, List.mem_filter, Bool.and_eq_true]
  constructor
  · rintro ⟨visible, required, within⟩
    exact ⟨visible, within, required⟩
  · rintro ⟨visible, within, required⟩
    exact ⟨visible, required, within⟩

/-- The candidates left by the cutoff are the admissible ones. -/
theorem mem_withinCutoff {state : ProviderState} (wellFormed : provider.WellFormed state)
    {subject : SolverKey} {loaded : LoadedSubject} (view : state.View subject loaded)
    {range : VersionRange} {entry : CandidateId × PreparedCandidate} :
    entry ∈ provider.withinCutoff (provider.lockDecision subject).locked
        (provider.selectableCandidates subject range loaded) ↔
      provider.Admissible subject range loaded entry := by
  have listed : provider.Admissible subject range loaded entry ↔
      entry ∈ provider.selectableCandidates subject range loaded ∧
        (provider.PassesCutoff subject entry.2 ∨
          ∀ other ∈ provider.selectableCandidates subject range loaded,
            ¬ provider.PassesCutoff subject other.2) := by
    simp only [mem_selectableCandidates]
    constructor
    · rintro ⟨selectable, timely⟩
      exact ⟨selectable, timely⟩
    · rintro ⟨selectable, timely⟩
      exact ⟨selectable, timely⟩
  rw [listed]
  have visible : ∀ other ∈ provider.selectableCandidates subject range loaded,
      other ∈ loaded.candidates := fun other member => (List.mem_filter.mp member).1
  generalize provider.selectableCandidates subject range loaded = eligible at visible
  cases given : provider.request.publicationCutoff with
  | none =>
    have passes : provider.PassesCutoff subject entry.2 := by
      intro cutoff found
      rw [given] at found
      simp at found
    simp [withinCutoff, given, passes]
  | some cutoff =>
    have passes : ∀ other : CandidateId × PreparedCandidate,
        provider.PassesCutoff subject other.2 ↔
          rejection cutoff.date (provider.lockDecision subject).locked other.2 = none := by
      intro other
      rw [rejection_eq_none]
      refine ⟨fun passed => passed cutoff given, fun admitted found same => ?_⟩
      obtain rfl := Option.some.inj (given.symm.trans same)
      exact admitted
    -- A candidate is named by a rejection exactly when it is rejected itself.
    have kept : ∀ other ∈ eligible,
        (!(provider.publicationRejections eligible (provider.lockDecision subject).locked).any
          (fun found => decide (Same other.2.identity found.identity))) = true ↔
        provider.PassesCutoff subject other.2 := by
      intro other member
      rw [passes, Bool.not_eq_true', List.any_eq_false]
      simp only [decide_eq_true_eq]
      constructor
      · intro unnamed
        by_contra rejected
        obtain ⟨found, rejected⟩ := Option.ne_none_iff_exists'.mp rejected
        refine unnamed found ((provider.mem_publicationRejections given).mpr
          ⟨other, member, rejected⟩) ?_
        exact Same.of_eq (rejection_identity rejected).symm
      · intro accepted found foundIn same
        obtain ⟨refused, refusedIn, refusal⟩ := (provider.mem_publicationRejections given).mp foundIn
        rw [rejection_identity refusal] at same
        obtain rfl := view_entry_eq wellFormed view (visible other member)
          (visible refused refusedIn) same
        rw [accepted] at refusal
        simp at refusal
    unfold withinCutoff
    dsimp only
    split
    · split
      · next none =>
        have rejected : ∀ other ∈ eligible, ¬ provider.PassesCutoff subject other.2 := by
          rw [List.isEmpty_iff, List.filter_eq_nil_iff] at none
          exact fun other member passed => none other member ((kept other member).mpr passed)
        exact ⟨fun member => ⟨member, Or.inr rejected⟩, And.left⟩
      · next some =>
        obtain ⟨survivor, survives⟩ := List.exists_mem_of_ne_nil _
          (fun empty => some (List.isEmpty_iff.mpr empty))
        obtain ⟨survivorIn, tested⟩ := List.mem_filter.mp survives
        rw [List.mem_filter]
        constructor
        · rintro ⟨member, tested⟩
          exact ⟨member, Or.inl ((kept entry member).mp tested)⟩
        · rintro ⟨member, passed | rejected⟩
          · exact ⟨member, (kept entry member).mpr passed⟩
          · exact absurd ((kept survivor survivorIn).mp tested) (rejected survivor survivorIn)
    · next clean =>
      have nothing : provider.publicationRejections eligible
          (provider.lockDecision subject).locked = [] := by
        by_contra some
        exact clean ⟨by simp [given], some⟩
      refine ⟨fun member => ⟨member, Or.inl ((kept entry member).mp ?_)⟩, And.left⟩
      rw [nothing]
      rfl

/-! ### One fresh provider -/

/-- A fresh provider loads a subject from the loader. -/
theorem loads_of_loaded {subject : SolverKey} {loaded : LoadedSubject}
    (fresh : (provider.loaded subject .initial).1 = .ok loaded) :
    provider.Loads subject loaded (provider.loaded subject .initial).2.interner := by
  obtain ⟨-, -, established⟩ := provider.loadSubject_ensures subject .initial
    CandidateInterner.initial_wellFormed
  exact established loaded (mapError_eq_ok.mp fresh)

/-- A fresh provider loads a subject exactly when its observations are coherent. -/
theorem loaded_isOk {subject : SolverKey} {result : CandidateLoadResult}
    (offered : provider.loader subject = .ok result) :
    (∃ loaded, (provider.loaded subject .initial).1 = .ok loaded) ↔
      CoherentObservations result.candidates := by
  constructor
  · rintro ⟨loaded, fresh⟩
    obtain ⟨other, visible, offeredOther, shown, -⟩ := (provider.loads_of_loaded fresh).prepared
    obtain rfl := Except.ok.inj (offered.symm.trans offeredOther)
    exact provider.visibleCandidates_isOk.mp ⟨visible, shown⟩
  · intro coherent
    obtain ⟨loaded, state, fresh, -⟩ := loaded_succeeds (provider.loadable_single offered coherent)
      rfl .initial (provider.initial_healthy _)
    exact ⟨loaded, by rw [fresh]⟩

/-- Two candidates that a fresh provider may choose have different identities. -/
theorem MayChoose.unique {subject : SolverKey} {range : VersionRange}
    {left right : CandidateId × PreparedCandidate}
    (leftMay : provider.MayChoose subject range left)
    (rightMay : provider.MayChoose subject range right)
    (same : Same left.2.identity right.2.identity) : left = right := by
  obtain ⟨loaded, fresh, leftAdmissible⟩ := leftMay
  obtain ⟨other, freshOther, rightAdmissible⟩ := rightMay
  obtain rfl := Except.ok.inj (fresh.symm.trans freshOther)
  obtain ⟨-, wellFormed, established⟩ :=
    provider.loaded_ensures subject .initial provider.initial_wellFormed
  exact view_entry_eq wellFormed (established loaded fresh) leftAdmissible.visible
    rightAdmissible.visible same

/-- The candidates a fresh provider may choose for a subject are of its package. -/
theorem MayChoose.name {subject : SolverKey} {range : VersionRange}
    {entry : CandidateId × PreparedCandidate} (may : provider.MayChoose subject range entry) :
    subject.subjectName = some entry.2.identity.name := by
  obtain ⟨loaded, fresh, admissible⟩ := may
  obtain ⟨-, wellFormed, established⟩ :=
    provider.loaded_ensures subject .initial provider.initial_wellFormed
  exact view_name wellFormed (established loaded fresh) admissible.visible

/-- Choosing for a subject that is not R takes the preferred one of its loaded candidates. -/
theorem chooseForSubject_of_ne {subject : SolverKey} (differs : subject ≠ .r)
    (range : VersionRange) :
    provider.chooseForSubject subject range = (do
      let loaded ← provider.loaded subject
      return (provider.preferredCandidate subject range loaded).map .candidate) := by
  cases subject with
  | r => exact absurd rfl differs
  | _ => rfl

section Default

variable {unprintable : Char → Bool} {provider}
  (shown : provider.debug.provenance = Provenance.debug unprintable)
  (default : provider.preference = defaultCandidatePreference provider.debug)
include shown default

/-- Candidates of different identities of one name are never compared as equal. -/
theorem compareFor_ne_eq {subject : SolverKey} {name : Option PackageName}
    {left right : PreparedCandidate} (leftNamed : name = some left.identity.name)
    (rightNamed : name = some right.identity.name)
    (differs : ¬ Same left.identity right.identity) :
    provider.compareFor subject left right ≠ .eq := by
  unfold compareFor
  rw [default]
  exact (comparePreparedCandidates_congr shown subject _ (PreparedCandidate.SameFacts.refl left)
    (PreparedCandidate.SameFacts.refl right)
    (Option.some.inj (leftNamed.symm.trans rightNamed)) differs).2

omit shown in
/-- Candidates are ordered for a subject. -/
theorem compareFor_ordered (subject : SolverKey) :
    Std.TransCmp (provider.compareFor subject) := by
  unfold compareFor
  rw [default]
  infer_instance

/-- What a fresh provider prefers is the greatest admissible candidate. -/
theorem preferredCandidate_greatest {subject : SolverKey} {range : VersionRange}
    {loaded : LoadedSubject} (fresh : (provider.loaded subject .initial).1 = .ok loaded) :
    provider.Greatest subject range ((provider.preferredCandidate subject range loaded).bind
      (provider.loaded subject .initial).2.interner.identityOf) := by
  obtain ⟨-, wellFormed, established⟩ :=
    provider.loaded_ensures subject .initial provider.initial_wellFormed
  have view := established loaded fresh
  have may : ∀ entry, provider.MayChoose subject range entry ↔
      entry ∈ provider.withinCutoff (provider.lockDecision subject).locked
        (provider.selectableCandidates subject range loaded) := by
    intro entry
    rw [provider.mem_withinCutoff wellFormed view]
    refine ⟨?_, fun admissible => ⟨loaded, fresh, admissible⟩⟩
    rintro ⟨other, freshOther, admissible⟩
    obtain rfl := Except.ok.inj (fresh.symm.trans freshOther)
    exact admissible
  cases left : provider.withinCutoff (provider.lockDecision subject).locked
      (provider.selectableCandidates subject range loaded) with
  | nil =>
    have none : provider.preferredCandidate subject range loaded = none := by
      rw [preferredCandidate_eq_none, ← provider.withinCutoff_eq_nil, left]
    rw [none]
    intro entry chosen
    rw [may, left] at chosen
    exact absurd chosen List.not_mem_nil
  | cons first rest =>
    have firstIn := left ▸ @List.mem_cons_self _ first rest
    have forward := compareFor_ordered default subject
    have ordered := transCmp_image (provider.compareFor subject)
      (fun entry : CandidateId × PreparedCandidate => entry.2)
    obtain ⟨last, lastIn, ends, above⟩ := Sorting.exists_last_sortBy
      (fun left right : CandidateId × PreparedCandidate =>
        provider.compareFor subject left.2 right.2) firstIn
    have preferred : provider.preferredCandidate subject range loaded = some last.1 :=
      Option.map_eq_some_iff.mpr ⟨last, ends, rfl⟩
    have chosen := (may last).mpr lastIn
    obtain ⟨-, existing, stored, same⟩ := (provider.loads_of_loaded fresh).interned last
      ((provider.mem_withinCutoff wellFormed view).mp lastIn).visible
    rw [preferred, Option.bind_some, CandidateInterner.identityOf, stored]
    refine ⟨last, chosen, same.identity.symm, fun other otherMay => ?_⟩
    by_cases equal : other = last
    · exact Or.inl equal
    · refine Or.inr ?_
      have below := above other ((may other).mp otherMay)
      have apart := @compareFor_ne_eq _ _ shown default subject _ _ _ (MayChoose.name provider otherMay)
        (MayChoose.name provider chosen)
        fun agrees => equal (MayChoose.unique provider otherMay chosen agrees)
      rcases Ordering.isLE_iff_eq_lt_or_eq_eq.mp below with less | same
      · exact less
      · exact absurd same apart

/-- A fresh provider fails to choose exactly when the observations of the subject disagree; otherwise
it chooses the greatest admissible candidate. -/
theorem chosenIdentity_spec {subject : SolverKey} {result : CandidateLoadResult}
    (offered : provider.loader subject = .ok result) (range : VersionRange) :
    ((∃ cause, provider.chosenIdentity subject range = .error cause) ∧ subject ≠ .r ∧
        ¬ CoherentObservations result.candidates) ∨
      ∃ chosen, provider.chosenIdentity subject range = .ok chosen ∧
        (subject = .r ∨ CoherentObservations result.candidates) ∧
        provider.Greatest subject range chosen := by
  by_cases differs : subject = .r
  · subst differs
    refine Or.inr ⟨none, ?_, Or.inl rfl, ?_⟩
    · simp only [chosenIdentity, chooseVersion, chooseForSubject]
      cases range.has (.r provider.rVersion) <;> rfl
    · intro entry may
      simpa [SolverKey.subjectName] using MayChoose.name provider may
  · have run : provider.chosenIdentity subject range =
        (provider.loaded subject .initial).1.map (fun loaded =>
          (provider.preferredCandidate subject range loaded).bind
            (provider.loaded subject .initial).2.interner.identityOf) := by
      simp only [chosenIdentity, chooseVersion, provider.chooseForSubject_of_ne differs, Bind.bind]
      cases provider.loaded subject .initial with
      | mk outcome state =>
        cases outcome with
        | error cause => rfl
        | ok loaded =>
          change Except.ok ((((provider.preferredCandidate subject range loaded).map
            SolverVersion.candidate).bind SolverVersion.candidateId).bind
              state.interner.identityOf) = Except.ok ((provider.preferredCandidate subject range
                loaded).bind state.interner.identityOf)
          cases provider.preferredCandidate subject range loaded <;> rfl
    cases fresh : (provider.loaded subject .initial).1 with
    | error cause =>
      refine Or.inl ⟨⟨cause, by rw [run, fresh]; rfl⟩, differs, fun coherent => ?_⟩
      obtain ⟨loaded, succeeded⟩ := (provider.loaded_isOk offered).mpr coherent
      rw [fresh] at succeeded
      simp at succeeded
    | ok loaded =>
      exact Or.inr ⟨_, by rw [run, fresh]; rfl, Or.inr ((provider.loaded_isOk offered).mp ⟨loaded, fresh⟩),
        preferredCandidate_greatest shown default fresh⟩

end Default

/-! ### Two fresh providers -/

/-- Two providers differ in the order in which the loader lists the candidates of a subject, and two
ranges admit the same identities. -/
structure Reordered (left right : Provider) (subject : SolverKey) (range other : VersionRange) :
    Prop where
  /-- The trial order is the same. -/
  preference : left.preference = right.preference
  /-- The lock policy is the same. -/
  lockPolicy : left.lockPolicy = right.lockPolicy
  /-- The request is the same. -/
  request : left.request = right.request
  /-- The debug texts are the same. -/
  debug : left.debug = right.debug
  /-- The loader lists the same candidates. -/
  listed : ∃ result shuffled, left.loader subject = .ok result ∧
    right.loader subject = .ok shuffled ∧ result.candidates.Perm shuffled.candidates
  /-- The ranges admit the same identities. -/
  admits : ∀ identity, left.Admits subject range identity ↔ right.Admits subject other identity

section Reordering

variable {left right : Provider} {subject : SolverKey} {range other : VersionRange}

/-- Reordering is symmetric. -/
theorem Reordered.symm (reordered : left.Reordered right subject range other) :
    right.Reordered left subject other range where
  preference := reordered.preference.symm
  lockPolicy := reordered.lockPolicy.symm
  request := reordered.request.symm
  debug := reordered.debug.symm
  listed := by
    obtain ⟨result, shuffled, offered, offeredOther, perm⟩ := reordered.listed
    exact ⟨shuffled, result, offeredOther, offered, perm.symm⟩
  admits := fun identity => (reordered.admits identity).symm

/-- Reordered providers decide alike about a subject. -/
theorem Reordered.lockDecision (reordered : left.Reordered right subject range other) :
    left.lockDecision subject = right.lockDecision subject := by
  unfold Provider.lockDecision
  rw [reordered.lockPolicy, reordered.request]

/-- Reordered providers compare alike. -/
theorem Reordered.compareFor (reordered : left.Reordered right subject range other) :
    left.compareFor subject = right.compareFor subject := by
  unfold Provider.compareFor
  rw [reordered.debug, reordered.preference, reordered.lockDecision]

/-- Candidates with the same facts pass the cutoff of reordered providers alike. -/
theorem Reordered.passesCutoff (reordered : left.Reordered right subject range other)
    {candidate twin : PreparedCandidate} (facts : candidate.SameFacts twin) :
    left.PassesCutoff subject candidate ↔ right.PassesCutoff subject twin := by
  have base : candidate.release.isRBasePackage = twin.release.isRBasePackage :=
    Provenance.isRBasePackage_congr (ReleaseIdentity.same_iff.mp facts.identity).2
  unfold PassesCutoff AdmittedBy
  rw [reordered.request, reordered.lockDecision, base, facts.publication,
    (same_some.mpr facts.identity).congr_right]

/-- A range admits a loaded candidate as it admits its identity. -/
theorem has_iff_admits {provider : Provider} {loaded : LoadedSubject}
    (fresh : (provider.loaded subject .initial).1 = .ok loaded)
    {entry : CandidateId × PreparedCandidate} (member : entry ∈ loaded.candidates) :
    range.has (.candidate entry.1) = true ↔ provider.Admits subject range entry.2.identity := by
  have known := ((provider.loads_of_loaded fresh).interned entry member).1
  constructor
  · exact fun within => ⟨entry.1, known, within⟩
  · rintro ⟨id, found, within⟩
    rw [known] at found
    rw [Option.some.inj found]
    exact within

/-- A range admits identities that are the same alike. -/
theorem Admits.congr {provider : Provider} {one two : ReleaseIdentity} (same : Same one two) :
    provider.Admits subject range one ↔ provider.Admits subject range two := by
  unfold Admits
  rw [KeyedMap.get?_congr _ same]

/-- A selectable candidate has a selectable twin at a reordered provider. -/
theorem Reordered.selectable (reordered : left.Reordered right subject range other)
    {loaded loadedOther : LoadedSubject} (fresh : (left.loaded subject .initial).1 = .ok loaded)
    (freshOther : (right.loaded subject .initial).1 = .ok loadedOther)
    {entry : CandidateId × PreparedCandidate}
    (selectable : left.Contends subject range loaded entry) :
    ∃ twin, right.Contends subject other loadedOther twin ∧ entry.2.SameFacts twin.2 := by
  obtain ⟨result, shuffled, offered, offeredOther, perm⟩ := reordered.listed
  obtain ⟨found, visible, foundIs, shown, paired, -⟩ := (left.loads_of_loaded fresh).prepared
  obtain ⟨foundOther, visibleOther, foundOtherIs, shownOther, pairedOther, -⟩ :=
    (right.loads_of_loaded freshOther).prepared
  obtain rfl := Except.ok.inj (offered.symm.trans foundIs)
  obtain rfl := Except.ok.inj (offeredOther.symm.trans foundOtherIs)
  obtain ⟨candidate, candidateIn, facts⟩ := left.visibleCandidates_perm perm shown shownOther
    (paired ▸ List.mem_map_of_mem selectable.visible)
  rw [← pairedOther] at candidateIn
  obtain ⟨twin, twinIn, rfl⟩ := List.mem_map.mp candidateIn
  refine ⟨twin, ⟨twinIn, ?_, ?_⟩, facts⟩
  · rw [has_iff_admits freshOther twinIn, ← reordered.admits, ← Admits.congr facts.identity,
      ← has_iff_admits fresh selectable.visible]
    exact selectable.within
  · have required := selectable.required
    unfold meetsRequired at required ⊢
    rw [← reordered.lockDecision]
    split at required
    · simpa only [facts.identity.congr_left] using required
    · rfl

/-- A candidate that may be chosen has a twin that a reordered provider may choose. -/
theorem Reordered.mayChoose (reordered : left.Reordered right subject range other)
    {loadedOther : LoadedSubject} (freshOther : (right.loaded subject .initial).1 = .ok loadedOther)
    {entry : CandidateId × PreparedCandidate} (may : left.MayChoose subject range entry) :
    ∃ twin, right.MayChoose subject other twin ∧ entry.2.SameFacts twin.2 := by
  obtain ⟨loaded, fresh, admissible⟩ := may
  obtain ⟨twin, selectable, facts⟩ :=
    reordered.selectable fresh freshOther admissible.toContends
  refine ⟨twin, ⟨loadedOther, freshOther, selectable, ?_⟩, facts⟩
  rcases admissible.timely with passes | none
  · exact Or.inl ((reordered.passesCutoff facts).mp passes)
  · refine Or.inr fun rival rivalSelectable passes => ?_
    obtain ⟨twinRival, twinSelectable, twinFacts⟩ :=
      reordered.symm.selectable freshOther fresh rivalSelectable
    exact none twinRival twinSelectable ((reordered.symm.passesCutoff twinFacts).mp passes)

/-- Where one of two reordered providers may choose a candidate, both loaded the subject. -/
theorem Reordered.loaded (reordered : left.Reordered right subject range other)
    {entry : CandidateId × PreparedCandidate} (may : left.MayChoose subject range entry) :
    ∃ loadedOther, (right.loaded subject .initial).1 = .ok loadedOther := by
  obtain ⟨result, shuffled, offered, offeredOther, perm⟩ := reordered.listed
  obtain ⟨loaded, fresh, -⟩ := may
  have coherent := (left.loaded_isOk offered).mp ⟨loaded, fresh⟩
  refine (right.loaded_isOk offeredOther).mpr fun one oneIn two twoIn => ?_
  exact coherent one (perm.mem_iff.mpr oneIn) two (perm.mem_iff.mpr twoIn)

/-- The greatest candidates of reordered providers are of one identity. -/
theorem Reordered.greatest_same {unprintable : Char → Bool}
    (reordered : left.Reordered right subject range other)
    (shown : left.debug.provenance = Provenance.debug unprintable)
    (default : left.preference = defaultCandidatePreference left.debug)
    {chosen chosenOther : Option ReleaseIdentity} (greatest : left.Greatest subject range chosen)
    (greatestOther : right.Greatest subject other chosenOther) : Same chosen chosenOther := by
  cases chosen with
  | none =>
    cases chosenOther with
    | none => exact Same.refl _
    | some identity =>
      obtain ⟨entry, may, -⟩ := greatestOther
      obtain ⟨loaded, fresh⟩ := reordered.symm.loaded may
      obtain ⟨twin, mayTwin, -⟩ := reordered.symm.mayChoose fresh may
      exact absurd mayTwin (greatest twin)
  | some identity =>
    obtain ⟨entry, may, named, above⟩ := greatest
    obtain ⟨loadedOther, freshOther⟩ := reordered.loaded may
    obtain ⟨twin, mayTwin, facts⟩ := reordered.mayChoose freshOther may
    cases chosenOther with
    | none => exact absurd mayTwin (greatestOther twin)
    | some identityOther =>
      obtain ⟨rival, mayRival, rivalNamed, rivalAbove⟩ := greatestOther
      obtain ⟨loaded, fresh⟩ := reordered.symm.loaded mayRival
      obtain ⟨echo, mayEcho, echoFacts⟩ := reordered.symm.mayChoose fresh mayRival
      rcases rivalAbove twin mayTwin with rfl | below
      · exact same_some.mpr (named.symm.trans (facts.identity.trans rivalNamed))
      · -- Otherwise each of the two is below the other.
        have differs : ¬ Same entry.2.identity echo.2.identity := by
          intro same
          have agrees := MayChoose.unique right mayTwin mayRival
            (facts.identity.symm.trans (same.trans echoFacts.identity.symm))
          rw [agrees, reordered.symm.compareFor] at below
          have ordered := compareFor_ordered default subject
          have equal : left.compareFor subject rival.2 rival.2 = .eq := Std.ReflCmp.compare_self
          rw [equal] at below
          simp at below
        rcases above echo mayEcho with rfl | echoBelow
        · exact absurd (Same.refl _) differs
        · have named := (MayChoose.name left may).symm.trans (MayChoose.name left mayEcho)
          have compared := (comparePreparedCandidates_congr shown subject
            ⟨(left.lockDecision subject).locked⟩ facts echoFacts.symm (Option.some.inj named)
            differs).1
          rw [← default] at compared
          have ordered := compareFor_ordered default subject
          have swapped : left.compareFor subject entry.2 echo.2 = .gt :=
            Std.OrientedCmp.gt_of_lt echoBelow
          rw [reordered.symm.compareFor, Provider.compareFor, ← compared] at below
          rw [Provider.compareFor, below] at swapped
          simp at swapped

end Reordering

/-- The choice for a subject does not depend on the order of the loader: either the subject loads in
no order, or every order chooses the same identity, that of the greatest admissible candidate. -/
theorem chooseVersion_reordered (unprintable : Char → Bool) (left right : Provider)
    (subject : SolverKey) (range other : VersionRange)
    (shown : left.debug.provenance = Provenance.debug unprintable)
    (default : left.preference = defaultCandidatePreference left.debug)
    (reordered : left.Reordered right subject range other) :
    ((∃ cause, left.chosenIdentity subject range = .error cause) ∧
        ∃ cause, right.chosenIdentity subject other = .error cause) ∨
      ∃ chosen chosenOther, left.chosenIdentity subject range = .ok chosen ∧
        right.chosenIdentity subject other = .ok chosenOther ∧ Same chosen chosenOther ∧
        left.Greatest subject range chosen ∧ right.Greatest subject other chosenOther := by
  obtain ⟨result, shuffled, offered, offeredOther, perm⟩ := reordered.listed
  have shownOther : right.debug.provenance = Provenance.debug unprintable := by
    rw [← reordered.debug, shown]
  have defaultOther : right.preference = defaultCandidatePreference right.debug := by
    rw [← reordered.debug, ← reordered.preference, default]
  have coherent : CoherentObservations result.candidates ↔
      CoherentObservations shuffled.candidates := by
    simp only [CoherentObservations, perm.mem_iff]
  rcases chosenIdentity_spec shown default offered range with
    ⟨fails, differs, incoherent⟩ | ⟨chosen, succeeds, loads, greatest⟩
  · rcases chosenIdentity_spec shownOther defaultOther offeredOther other with
      ⟨failsOther, -, -⟩ | ⟨-, -, same | coherentOther, -⟩
    · exact Or.inl ⟨fails, failsOther⟩
    · exact absurd same differs
    · exact absurd (coherent.mpr coherentOther) incoherent
  · rcases chosenIdentity_spec shownOther defaultOther offeredOther other with
      ⟨-, differs, incoherent⟩ | ⟨chosenOther, succeedsOther, -, greatestOther⟩
    · rcases loads with same | loads
      · exact absurd same differs
      · exact absurd (coherent.mp loads) incoherent
    · exact Or.inr ⟨chosen, chosenOther, succeeds, succeedsOther,
        reordered.greatest_same shown default greatest greatestOther, greatest, greatestOther⟩

end Provider

namespace Small

/-- A provider of candidates with the debug texts and the preference of the resolver. -/
def observing (offered : List PreparedCandidate) : Provider :=
  { provider offered [] none with
    preference := defaultCandidatePreference ⟨Provenance.debug (fun _ => false), fun _ => ""⟩
    debug := ⟨Provenance.debug (fun _ => false), fun _ => ""⟩ }

/-- An older release and two observations of a newer one. -/
def observations : List PreparedCandidate :=
  candidateIn repository 0 alpha older :: mirrored

/-- The range of the first two candidates. -/
def firstTwo : VersionRange := (Ranges.singleton first).union (.singleton second)

end Small

namespace Provider

/-- Observations that arrive in another order lead to the same choice. -/
theorem chooseVersion_reordered_mirrored :
    let forward := Small.observing Small.observations
    let backward := Small.observing Small.observations.reverse
    ∃ chosen chosenOther,
      forward.chosenIdentity (.installedName Small.alpha) Small.firstTwo = .ok chosen ∧
      backward.chosenIdentity (.installedName Small.alpha) Small.firstTwo = .ok chosenOther ∧
      Same chosen chosenOther ∧ chosen.isSome = true := by
  intro forward backward
  have indexed : (forward.loaded (.installedName Small.alpha) .initial).2.interner.byIdentity.entries =
      (backward.loaded (.installedName Small.alpha)
        .initial).2.interner.byIdentity.entries := by
    decide +kernel
  have reordered : forward.Reordered backward (.installedName Small.alpha) Small.firstTwo
      Small.firstTwo := by
    refine ⟨rfl, rfl, rfl, rfl, ⟨_, _, rfl, rfl, (List.reverse_perm _).symm.filter _⟩, fun _ => ?_⟩
    simp only [Admits, KeyedMap.get?, indexed]
  have chooses : (forward.chosenIdentity (.installedName Small.alpha) Small.firstTwo).toOption.any
      Option.isSome = true := by
    decide +kernel
  rcases chooseVersion_reordered (fun _ => false) forward backward (.installedName Small.alpha)
      Small.firstTwo Small.firstTwo rfl rfl reordered with
    ⟨⟨cause, fails⟩, -⟩ | ⟨chosen, chosenOther, succeeds, succeedsOther, same, -, -⟩
  · rw [fails] at chooses
    simp [Except.toOption] at chooses
  · refine ⟨chosen, chosenOther, succeeds, succeedsOther, same, ?_⟩
    rw [succeeds] at chooses
    simpa [Except.toOption] using chooses

end Provider

end Rsolve
