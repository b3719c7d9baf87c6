import Rsolve.Snapshot.Integrity

/-!
# What a publish leaves of any files

A publish may find the files of a store in any state: heads that cannot be read, generations that are
damaged or gone. It keeps every valid generation, it installs valid ones only, and it changes no head
but the one that it commits, by one operation, with a sequence number above those of the views that it
can read.
-/
open Checked Framing Ordered Sorting Faults

namespace Rsolve

/-- Only the staging directory and the drafts differ. -/
structure Aside (files reached : StoreFiles) : Prop where
  views : reached.views = files.views
  generations : reached.generations = files.generations
  committed : reached.committed = files.committed

section Relations

variable (store : SnapshotStore)

/-- Every valid generation is still there, and one that was not there before is valid. -/
structure Endures (files reached : StoreFiles) : Prop where
  kept : ∀ name file header, files.generations.get? name = some file →
    validateGeneration store.basis file store.registryId = .ok header →
    reached.generations.get? name = some file
  added : ∀ name file, reached.generations.get? name = some file →
    files.generations.get? name = some file ∨ ∃ header,
      validateGeneration store.basis file store.registryId = .ok header ∧ header.generation = name

/-- No head differs, and the generations endure. -/
structure Keeps (files reached : StoreFiles) : Prop where
  views : reached.views = files.views
  committed : reached.committed = files.committed
  generations : Endures store files reached

/-- A head pins the header of a valid generation. -/
def ViewHeadV1.Pins (files : StoreFiles) (head : ViewHeadV1) : Prop :=
  ∃ file header bytes, files.generations.get? head.generation = some file ∧
    validateGeneration store.basis file store.registryId = .ok header ∧
    header.generation = head.generation ∧ encodeHeader store.basis header = .ok bytes ∧
    head.Agrees store header bytes

/-- One head of a kind was committed on a generation that it pins, and the generations endure. -/
structure Places (kind : ViewHeadV1 → Prop) (head : ViewHeadV1) (files reached : StoreFiles) :
    Prop where
  fits : kind head
  pins : head.Pins store reached
  views : ∃ content, head.Stored store content ∧
    reached.views = files.views.insert head.viewKey content
  committed : reached.committed = head :: files.committed
  generations : Endures store files reached

/-- What a publish does to any files: it keeps the heads, or it commits one of a kind. -/
def Placing (kind : ViewHeadV1 → Prop) (files reached : StoreFiles) : Prop :=
  Keeps store files reached ∨ ∃ head, Places store kind head files reached

/-- A view is read, and its generation is valid. -/
def StoreFiles.Displays (files : StoreFiles) (view : View) : Prop :=
  readViewOptionalLocked store files view.1.viewKey = .ok (some view) ∧
    ∃ file header, files.generations.get? view.1.generation = some file ∧
      validateGeneration store.basis file store.registryId = .ok header

variable {store} {files between reached : StoreFiles} {kind : ViewHeadV1 → Prop}
  {head : ViewHeadV1}

/-- Nothing differs from itself. -/
theorem Aside.refl (files : StoreFiles) : Aside files files := ⟨rfl, rfl, rfl⟩

instance : Std.Refl Aside := ⟨Aside.refl⟩

instance : IsTrans StoreFiles Aside where
  trans _ _ _ first second := ⟨second.views.trans first.views,
    second.generations.trans first.generations, second.committed.trans first.committed⟩

/-- Generations that are the same endure. -/
theorem endures_of_eq (same : reached.generations = files.generations) :
    Endures store files reached where
  kept := fun _ _ _ present _ => same ▸ present
  added := fun _ _ present => .inl (same ▸ present)

/-- Enduring is transitive. -/
theorem Endures.trans (first : Endures store files between) (second : Endures store between reached) :
    Endures store files reached where
  kept := fun name file header present valid =>
    second.kept name file header (first.kept name file header present valid) valid
  added := fun name file present => (second.added name file present).elim (first.added name file) .inr

/-- Where only the staging directory and the drafts differ, everything is kept. -/
theorem Aside.keeps (aside : Aside files reached) : Keeps store files reached where
  views := aside.views
  committed := aside.committed
  generations := endures_of_eq aside.generations

instance : Std.Refl (Keeps store) := ⟨fun files => (Aside.refl files).keeps⟩

/-- Keeping is transitive. -/
theorem Keeps.trans (first : Keeps store files between) (second : Keeps store between reached) :
    Keeps store files reached where
  views := second.views.trans first.views
  committed := second.committed.trans first.committed
  generations := first.generations.trans second.generations

instance : IsTrans StoreFiles (Keeps store) := ⟨fun _ _ _ => Keeps.trans⟩

/-- A head pins a header as long as the generations endure. -/
theorem ViewHeadV1.Pins.endures (pins : head.Pins store files) (endures : Endures store files reached) :
    head.Pins store reached := by
  obtain ⟨file, header, bytes, present, valid, rest⟩ := pins
  exact ⟨file, header, bytes, endures.kept _ _ _ present valid, valid, rest⟩

/-- A publish may start with what keeps the heads. -/
theorem Keeps.placing (first : Keeps store files between) (second : Placing store kind between reached) :
    Placing store kind files reached := by
  rcases second with second | ⟨head, second⟩
  · exact .inl (first.trans second)
  · refine .inr ⟨head, second.fits, second.pins, ?_, ?_, first.generations.trans second.generations⟩
    · rw [← first.views]
      exact second.views
    · rw [second.committed, first.committed]

/-- A publish may end with what keeps the heads. -/
theorem Placing.keeps (first : Placing store kind files between) (second : Keeps store between reached) :
    Placing store kind files reached := by
  rcases first with first | ⟨head, first⟩
  · exact .inl (first.trans second)
  · refine .inr ⟨head, first.fits, first.pins.endures second.generations, ?_, ?_,
      first.generations.trans second.generations⟩
    · rw [second.views]
      exact first.views
    · rw [second.committed, first.committed]

/-- A view is displayed as long as its head is stored and the generations endure. -/
theorem StoreFiles.Displays.endures {view : View} (displays : files.Displays store view)
    (same : reached.views.get? view.1.viewKey = files.views.get? view.1.viewKey)
    (endures : Endures store files reached) : reached.Displays store view := by
  obtain ⟨read, file, header, present, valid⟩ := displays
  obtain ⟨reads, opens, agrees⟩ := readView_eq_ok.mp read
  have there := endures.kept _ _ _ present valid
  refine ⟨readView_eq_ok.mpr ⟨(readHead_congr same).trans reads, ?_, agrees⟩, file, header, there,
    valid⟩
  rw [openGeneration_congr (there.trans present.symm), opens]

/-- What keeps the heads keeps the views that are displayed. -/
theorem StoreFiles.Displays.keeps {view : View} (displays : files.Displays store view)
    (keeps : Keeps store files reached) : reached.Displays store view :=
  displays.endures (by rw [keeps.views]) keeps.generations

end Relations

variable {store : SnapshotStore}

section Staging

variable {pre : StoreFiles → Prop} {ε α : Type}

/-- An operation that changes nothing keeps what holds. -/
theorem traces_touch {inv : StoreFiles → Prop} {related : StoreFiles → StoreFiles → Prop}
    [Std.Refl related] {broken : ε} :
    Traces inv pre (touch broken : StoreProgram ε Unit) related (fun _ => pre) := by
  refine Traces.operate fun files value reached kept held worked => ?_
  obtain ⟨-, rfl⟩ := Prod.mk.inj (Except.ok.inj worked)
  exact ⟨kept, Std.Refl.refl files, held⟩

/-- A check that a condition holds. -/
theorem traces_ensure {inv : StoreFiles → Prop} {related : StoreFiles → StoreFiles → Prop}
    [Std.Refl related] {condition : Prop} [Decidable condition] {cause : ε} :
    Traces inv pre (Faulty.check (ensure condition cause)) related
      (fun _ state => condition ∧ pre state) :=
  (Traces.check _).weaken (fun _ _ held => held) fun _ _ _ held =>
    ⟨ensure_eq_ok.mp held.1, held.2⟩

/-- An operation aside. -/
theorem traces_operate_aside {broken : ε} {effect : StoreFiles → Except ε (α × StoreFiles)}
    (aside : ∀ files value reached, effect files = .ok (value, reached) → Aside files reached) :
    Traces (fun _ => True) pre (Faulty.operate broken effect) Aside (fun _ _ => True) :=
  Traces.operate fun _ _ _ _ _ worked => ⟨trivial, aside _ _ _ worked, trivial⟩

/-- Removing a staged file is an operation aside. -/
theorem traces_eraseStaged (path : String) :
    Traces (fun _ => True) pre
      (Faulty.endeavor fun files => { files with staged := files.staged.erase path } :
        StoreProgram ε PUnit) Aside (fun _ _ => True) :=
  Traces.endeavor (fun _ _ _ => trivial) fun _ _ _ => ⟨trivial, ⟨rfl, rfl, rfl⟩, trivial⟩

/-- Finding a staging path changes nothing. -/
theorem traces_uniqueStagingPath (process : ProcessEnvironment) (time sequence attempts : Nat) :
    Traces (fun _ => True) pre (uniqueStagingPath process time sequence attempts) Aside
      (fun _ _ => True) := by
  induction attempts generalizing sequence with
  | zero => exact (Traces.check _).weaken (fun _ _ held => held) fun _ _ _ _ => trivial
  | succ attempts ih =>
    refine Traces.ask.bind fun taken => ?_
    split
    · exact ih (sequence + 1)
    · exact (Traces.pure _).weaken (fun _ _ held => held) fun _ _ _ _ => trivial

/-- A temporary generation is made aside. -/
theorem traces_createTemporaryGeneration (process : ProcessEnvironment)
    (time sequence attempts : Nat) :
    Traces (fun _ => True) pre (createTemporaryGeneration process time sequence attempts)
      Aside (fun _ _ => True) := by
  induction attempts generalizing pre sequence with
  | zero => exact (Traces.check _).weaken (fun _ _ held => held) fun _ _ _ _ => trivial
  | succ attempts ih =>
    refine (traces_operate_aside fun files value reached worked => ?_).bind fun created => ?_
    · split at worked <;> obtain ⟨-, rfl⟩ := Prod.mk.inj (Except.ok.inj worked) <;>
        exact ⟨rfl, rfl, rfl⟩
    · split
      · exact (Traces.pure _).weaken (fun _ _ held => held) fun _ _ _ _ => trivial
      · exact ih (sequence + 1)

/-- A temporary generation is written aside. -/
theorem traces_writeGeneration (path : String) (header : List UInt8)
    (histories : OrderedMap String (List UInt8)) :
    Traces (fun _ => True) pre (writeGenerationUnvalidated path header histories) Aside
      (fun _ _ => True) := by
  refine traces_touch.bind fun _ => ?_
  refine (traces_operate_aside fun files value reached worked => ?_).bind fun _ => ?_
  · obtain ⟨-, rfl⟩ := Prod.mk.inj (Except.ok.inj worked)
    exact ⟨rfl, rfl, rfl⟩
  · exact traces_touch.bind fun _ => traces_touch

/-- Renaming a staged file is an operation aside. -/
theorem renameStaged_aside {source destination : String} {files reached : StoreFiles} {value : Unit}
    (worked : renameStaged source destination files = .ok (value, reached)) :
    Aside files reached := by
  unfold renameStaged at worked
  split at worked
  · cases worked
  · obtain ⟨-, rfl⟩ := Prod.mk.inj (Except.ok.inj worked)
    exact ⟨rfl, rfl, rfl⟩

/-- A generation is prepared aside, from its input. -/
theorem traces_prepareStaged (input : SnapshotBuildInput) (process : ProcessEnvironment)
    (destination : String) :
    Traces (fun _ => True) pre (prepareStaged store input process destination) Aside
      (fun generation _ => ∃ bytes histories,
        prepared store.basis input = .ok (generation.header, bytes, histories)) := by
  refine (Traces.check _).bind fun made => Traces.assuming fun making => ?_
  obtain ⟨header, headerBytes, histories⟩ := made
  refine traces_touch.bind fun _ => (Traces.check _).bind fun time => ?_
  refine (traces_createTemporaryGeneration _ _ _ _).bind fun path => ?_
  refine Traces.ensuring ?_ (traces_eraseStaged path)
    (fun _ _ _ first second => Trans.trans first second) fun _ _ _ _ held => held
  refine (traces_writeGeneration _ _ _).bind fun _ => ?_
  refine (traces_operate_aside fun files value reached worked => ?_).bind fun _ => ?_
  · split at worked
    · cases worked
    · obtain ⟨-, rfl⟩ := Prod.mk.inj (Except.ok.inj worked)
      exact ⟨rfl, rfl, rfl⟩
  have replaced : Traces (fun _ => True) (fun _ => True)
      (Faulty.trial (.io ioFailure) (renameStaged path destination)) Aside (fun _ _ => True) :=
    Traces.trial (fun _ _ _ _ => trivial) fun _ _ _ _ _ worked =>
      ⟨trivial, renameStaged_aside worked, trivial⟩
  refine replaced.bind fun outcome => ?_
  split
  · refine (traces_eraseStaged destination).bind fun _ => ?_
    refine (Traces.check _).weaken (fun _ _ held => held) ?_
    rintro _ _ - ⟨failed, -⟩
    cases failed
  · refine traces_touch.bind fun _ => traces_touch.bind fun _ => ?_
    refine (Traces.pure _).weaken (fun _ _ held => held) ?_
    rintro _ _ - ⟨rfl, -⟩
    exact ⟨_, _, making⟩

end Staging

section Settling

variable {pre : StoreFiles → Prop} {path : String} {header : SnapshotHeaderV1}
  {headerBytes : List UInt8}

/-- A staged file is a valid generation, and its header has a text. -/
structure StagedAs (store : SnapshotStore) (path : String) (header : SnapshotHeaderV1)
    (headerBytes : List UInt8) (files : StoreFiles) : Prop where
  present : ∃ file, files.staged.get? path = some file ∧
    validateGeneration store.basis file store.registryId = .ok header
  decoded : decodeHeader store.basis headerBytes = .ok header

/-- The generation of a header is there with a header that means the same, of some text. -/
def Settled (store : SnapshotStore) (header : SnapshotHeaderV1) (finalHeader : List UInt8)
    (files : StoreFiles) : Prop :=
  ∃ file found, files.generations.get? header.generation = some file ∧
    validateGeneration store.basis file store.registryId = .ok found ∧
    found.generation = header.generation ∧ encodeHeader store.basis found = .ok finalHeader ∧
    found.coverage = header.coverage ∧ found.compatibilityProfile = header.compatibilityProfile ∧
    found.parserSchema = header.parserSchema ∧
    found.normalizationPolicy = header.normalizationPolicy

/-- A generation stays settled while the generations endure. -/
theorem Settled.endures {finalHeader : List UInt8} {files reached : StoreFiles}
    (settled : Settled store header finalHeader files) (endures : Endures store files reached) :
    Settled store header finalHeader reached := by
  obtain ⟨file, found, present, valid, rest⟩ := settled
  exact ⟨file, found, endures.kept _ _ _ present valid, valid, rest⟩

/-- The head of a settled generation pins its header. -/
theorem Settled.pins {finalHeader : List UInt8} {files : StoreFiles}
    (settled : Settled store header finalHeader files) (endpoint : String) (sequence : Nat) :
    (viewHead store header finalHeader endpoint sequence).Pins store files := by
  obtain ⟨file, found, present, valid, named, encoded, coverage, compatibility, parser,
    normalization⟩ := settled
  exact ⟨file, found, finalHeader, present, valid, named, encoded, rfl,
    congrArg CoverageV1.state coverage, congrArg CoverageV1.scope coverage,
    congrArg CoverageV1.freshness coverage, compatibility, parser, normalization⟩

/-- A staged generation is validated as it is. -/
theorem traces_validateStaged (path generation : String) (headerBytes : List UInt8)
    (label : String) :
    Traces (fun _ => True) pre
      (validateStagedGeneration store path generation headerBytes label) Aside
      (fun header files => StagedAs store path header headerBytes files ∧
        header.registryId = store.registryId.text ∧ header.generation = generation) := by
  have regular : Traces (fun _ => True) pre
      (isRegularStaged path : StoreProgram SnapshotStoreError Bool) Aside
      (fun value files => value = true → (files.staged.get? path).isSome = true) := by
    intro files fates calm kept held
    unfold isRegularStaged Faulty.ask
    cases fates.operations.headD .works with
    | works => exact .returned calm.operated kept (Aside.refl files) fun same => same
    | fails => exact .returned calm.operated kept (Aside.refl files) fun same => by cases same
    | stops => exact .stopped calm.operated kept (Aside.refl files)
  refine regular.bind fun found => traces_ensure.bind fun _ => Traces.assuming fun isThere => ?_
  refine (Traces.check _).bind fun header => Traces.assuming fun decoding => ?_
  have decoded := mapError_eq_ok.mp decoding
  refine traces_ensure.bind fun _ => Traces.assuming fun named => ?_
  have read : Traces (fun _ => True)
      (fun files => found = true → (files.staged.get? path).isSome = true)
      (Faulty.operate (.invalid ioFailure) fun files =>
        ((validateGeneration store.basis ((files.staged.get? path).getD none)
          store.registryId).mapError fun cause => SnapshotStoreError.invalid cause.text).map
          fun header => (header, files)) Aside
      (fun source files => ∃ file, files.staged.get? path = some file ∧
        validateGeneration store.basis file store.registryId = .ok source) := by
    refine Traces.operate fun files source reached _ there worked => ?_
    obtain ⟨file, staged⟩ := Option.isSome_iff_exists.mp (there isThere)
    rw [staged] at worked
    cases valid : validateGeneration store.basis file store.registryId with
    | error cause =>
      rw [Option.getD_some, valid] at worked
      cases worked
    | ok header =>
      rw [Option.getD_some, valid] at worked
      obtain ⟨rfl, rfl⟩ := Prod.mk.inj (Except.ok.inj worked)
      exact ⟨trivial, Aside.refl _, file, staged, valid⟩
  refine read.bind fun source => traces_ensure.bind fun _ => Traces.assuming fun same => ?_
  subst same
  refine (Traces.pure _).weaken (fun _ _ held => held) ?_
  rintro _ files - ⟨rfl, present⟩
  exact ⟨⟨present, decoded⟩, named⟩

/-- A valid generation is looked up as what it is. -/
theorem existing_of_valid {files : StoreFiles} {generation : String} {file : GenerationFile}
    {found : SnapshotHeaderV1} (present : files.generations.get? generation = some file)
    (valid : validateGeneration store.basis file store.registryId = .ok found) :
    existingHeader store generation files = some found ∧
      isValidGeneration store generation files = true := by
  obtain ⟨database, bytes, -, -, decoded, -, read, -⟩ := validateGeneration_eq_ok valid
  constructor
  · rw [existingHeader, present, Option.getD_some, read]
    change (decodeHeader store.basis bytes).toOption = some found
    rw [decoded]
    rfl
  · rw [isValidGeneration, present, Option.getD_some, valid]
    rfl

/-- A generation that is looked up as valid is there and valid. -/
theorem exists_of_isValidGeneration {files : StoreFiles} {generation : String}
    (isValid : isValidGeneration store generation files = true) :
    ∃ file found, files.generations.get? generation = some file ∧
      validateGeneration store.basis file store.registryId = .ok found := by
  unfold isValidGeneration at isValid
  cases present : files.generations.get? generation with
  | none =>
    rw [present] at isValid
    cases isValid
  | some file =>
    rw [present, Option.getD_some] at isValid
    cases valid : validateGeneration store.basis file store.registryId with
    | ok found => exact ⟨file, found, rfl, valid⟩
    | error cause =>
      rw [valid] at isValid
      cases isValid

/-- Generations that mean the same agree in what a view says of them. -/
theorem sameSemanticGeneration_agrees {existing expected : SnapshotHeaderV1}
    (same : sameSemanticGeneration existing expected = true) :
    existing.coverage = expected.coverage ∧
      existing.compatibilityProfile = expected.compatibilityProfile ∧
      existing.parserSchema = expected.parserSchema ∧
      existing.normalizationPolicy = expected.normalizationPolicy := by
  simp only [sameSemanticGeneration, Bool.and_eq_true, beq_iff_eq] at same
  tauto

/-- Generations that mean the same have one name. -/
theorem sameSemanticGeneration_generation {existing expected : SnapshotHeaderV1}
    (same : sameSemanticGeneration existing expected = true) :
    existing.generation = expected.generation := by
  simp only [sameSemanticGeneration, Bool.and_eq_true, beq_iff_eq] at same
  tauto

/-- There is no valid generation under a name. -/
def Invalid (store : SnapshotStore) (name : String) (files : StoreFiles) : Prop :=
  ∀ file found, files.generations.get? name = some file →
    validateGeneration store.basis file store.registryId ≠ .ok found

/-- Where no valid generation is there, the staged file is installed. -/
theorem traces_replaceGeneration :
    Traces (fun _ => True)
      (fun files => Invalid store header.generation files ∧
        StagedAs store path header headerBytes files)
      (replaceGeneration path header.generation headerBytes) (Keeps store)
      (fun result files => Settled store header result.1 files) := by
  have installs : Traces (fun _ => True)
      (fun files => Invalid store header.generation files ∧
        StagedAs store path header headerBytes files)
      (Faulty.operate (.io ioFailure) (installStaged path header.generation)) (Keeps store)
      (fun _ files => Settled store header headerBytes files) := by
    refine Traces.operate fun files value reached _ held worked => ?_
    obtain ⟨invalid, ⟨file, staged, valid⟩, decoded⟩ := held
    unfold installStaged at worked
    rw [staged] at worked
    obtain ⟨-, rfl⟩ := Prod.mk.inj (Except.ok.inj worked)
    have endures : Endures store files { files with
        staged := files.staged.erase path
        generations := files.generations.insert header.generation file } := by
      refine ⟨fun name found other present whole => ?_, fun name found present => ?_⟩
      · rw [OrderedMap.get?_insert, if_neg, present]
        rintro rfl
        exact invalid found other present whole
      · rw [OrderedMap.get?_insert] at present
        split at present
        · next same =>
          obtain rfl := Option.some.inj present
          exact .inr ⟨header, valid, same.symm⟩
        · exact .inl present
    refine ⟨trivial, ⟨rfl, rfl, endures⟩, file, header, ?_, valid, rfl,
      (decodeHeader_eq_ok decoded).1, rfl, rfl, rfl, rfl⟩
    rw [OrderedMap.get?_insert, if_pos rfl]
  refine installs.bind fun _ => traces_touch.bind fun _ => ?_
  refine (Traces.pure _).weaken (fun _ _ held => held) ?_
  rintro _ files - ⟨rfl, settled⟩
  exact settled

/-- A generation is settled: kept where it is there and valid, and installed where it is not. -/
theorem traces_settleGeneration :
    Traces (fun _ => True) (StagedAs store path header headerBytes)
      (settleGeneration store path header headerBytes) (Keeps store)
      (fun result files => Settled store header result.1 files) := by
  have asked : Traces (fun _ => True) (StagedAs store path header headerBytes)
      (Faulty.operate (.io ioFailure) fun files =>
        .ok ((files.generations.get? header.generation).isSome, files) :
        StoreProgram SnapshotStoreError Bool) (Keeps store)
      (fun present files => present = (files.generations.get? header.generation).isSome ∧
        StagedAs store path header headerBytes files) := by
    refine Traces.operate fun files present reached _ staged worked => ?_
    obtain ⟨rfl, rfl⟩ := Prod.mk.inj (Except.ok.inj worked)
    exact ⟨trivial, Std.Refl.refl _, rfl, staged⟩
  refine asked.bind fun present => ?_
  split
  · refine Traces.look.bind fun existing => ?_
    cases existing with
    | none =>
      refine traces_replaceGeneration.weaken (fun files _ held => ⟨?_, held.2.2⟩)
        fun _ _ _ held => held
      intro file found there valid
      have looked := held.1.trans (existing_of_valid there valid).1
      cases looked
    | some existing =>
      refine traces_ensure.bind fun _ => Traces.assuming fun same => ?_
      refine Traces.look.bind fun isValid => ?_
      split
      · next isTrue =>
        refine (Traces.check _).bind fun bytes => Traces.assuming fun encoding => ?_
        refine (Traces.pure _).weaken (fun _ _ held => held) ?_
        rintro _ files - ⟨rfl, looked, seen, -, -⟩
        obtain ⟨file, found, there, valid⟩ := exists_of_isValidGeneration (looked.symm.trans isTrue)
        obtain rfl := Option.some.inj (seen.trans (existing_of_valid there valid).1)
        obtain ⟨coverage, compatibility, parser, normalization⟩ := sameSemanticGeneration_agrees same
        exact ⟨file, existing, there, valid, sameSemanticGeneration_generation same,
          mapError_eq_ok.mp encoding, coverage, compatibility, parser, normalization⟩
      · next isFalse =>
        refine traces_replaceGeneration.weaken (fun files _ held => ⟨?_, held.2.2.2⟩)
          fun _ _ _ held => held
        intro file found there valid
        exact isFalse (held.1.trans (existing_of_valid there valid).2)
  · next missing =>
    refine traces_replaceGeneration.weaken (fun files _ held => ⟨?_, held.2⟩) fun _ _ _ held => held
    intro file found there _
    have isSome := held.1
    rw [there] at isSome
    exact missing isSome

end Settling

section Sequencing

variable {header : SnapshotHeaderV1} {finalHeader : List UInt8} {earlier : View → Prop}

/-- Some views are displayed. -/
def Displaying (store : SnapshotStore) (earlier : View → Prop) (files : StoreFiles) : Prop :=
  ∀ view, earlier view → files.Displays store view

/-- What keeps the heads keeps what is displayed. -/
theorem Displaying.keeps {files reached : StoreFiles} (keeps : Keeps store files reached)
    (displaying : Displaying store earlier files) : Displaying store earlier reached :=
  fun view member => (displaying view member).keeps keeps

/-- What happens aside keeps what is displayed. -/
theorem traces_displaying {ε α : Type} {program : StoreProgram ε α} {post : α → StoreFiles → Prop}
    (traces : Traces (fun _ => True) (fun _ => True) program Aside post) :
    Traces (fun _ => True) (Displaying store earlier) program (Keeps store)
      (fun value files => post value files ∧ Displaying store earlier files) :=
  ((traces.relate fun _ _ _ _ aside => aside.keeps).carry fun _ _ => Displaying.keeps).weaken
    (fun _ _ held => ⟨trivial, held⟩) fun _ _ _ held => held

/-- What is read of a view depends on the views and the generations. -/
theorem readView_congr {files reached : StoreFiles} (views : reached.views = files.views)
    (generations : reached.generations = files.generations) (viewKey : String) :
    readViewOptionalLocked store reached viewKey = readViewOptionalLocked store files viewKey := by
  simp only [readViewOptionalLocked, openGenerationLocked, views, generations]

/-- The sequence number that a publish follows is not below that of a view that is displayed. -/
theorem traces_readLatestSequence (order : Enumeration) :
    Traces (fun _ => True) (Displaying store earlier) (readLatestSequence store order) (Keeps store)
      (fun previous _ => ∀ view, earlier view →
        ∃ sequence, previous = some sequence ∧ view.1.validation.refreshSequence ≤ sequence) := by
  have listed : Traces (fun _ => True) (Displaying store earlier)
      (Faulty.operate
        (.invalid (storeCandidateError ("unable to read snapshot views: " ++ ioFailure)).text)
        fun files => .ok (order.list files.views.keys, files) :
        StoreProgram SnapshotStoreError (List String)) (Keeps store)
      (fun keys files => keys = order.list files.views.keys ∧ Displaying store earlier files) := by
    refine Traces.operate fun files keys reached _ displaying worked => ?_
    obtain ⟨rfl, rfl⟩ := Prod.mk.inj (Except.ok.inj worked)
    exact ⟨trivial, Std.Refl.refl _, rfl, displaying⟩
  refine listed.bind fun keys => ?_
  have read : Traces (fun _ => True)
      (fun files => keys = order.list files.views.keys ∧ Displaying store earlier files)
      (keys.mapM fun viewKey => do
        touch (.invalid
          (storeCandidateError ("unable to enumerate snapshot views: " ++ ioFailure)).text)
        lookView store viewKey : StoreProgram SnapshotStoreError _) Aside
      (fun outcomes files =>
        List.Forall₂ (fun viewKey outcome => outcome = readViewOptionalLocked store files viewKey)
          keys outcomes ∧ keys = order.list files.views.keys ∧ Displaying store earlier files) := by
    refine Traces.mapM (fun viewKey outcome files reached aside same => ?_) fun viewKey _ =>
      traces_touch.bind fun _ => Traces.look
    rw [readView_congr aside.views aside.generations, same]
  refine (read.relate fun _ _ _ _ aside => aside.keeps).bind fun outcomes => ?_
  refine (Traces.check _).bind fun latest => Traces.assuming fun found => ?_
  refine (Traces.pure _).weaken (fun _ _ held => held) ?_
  rintro _ files - ⟨rfl, same, listing, displaying⟩ view member
  have mapped : outcomes = keys.map (readViewOptionalLocked store files) := by
    clear listing read found
    induction same with
    | nil => rfl
    | cons head _ ih => exact List.cons_eq_cons.mpr ⟨head, ih⟩
  have inside : view ∈ readViews outcomes := by
    rw [mapped, listing]
    exact mem_readViews.mpr ⟨_, (displaying view member).1⟩
  obtain ⟨last, rfl, above⟩ := exists_latest_of_latestOf (mapError_eq_ok.mp found) inside
  exact ⟨_, rfl, above⟩

/-- The next sequence number is above the one it follows, and not zero. -/
theorem nextRefreshSequence_above {previous : Option Nat} {sequence : Nat}
    (next : nextRefreshSequence previous = .ok sequence) :
    sequence ≠ 0 ∧ ∀ number ∈ previous, number < sequence := by
  cases previous with
  | none =>
    obtain rfl := Except.ok.inj next
    exact ⟨Nat.one_ne_zero, fun _ member => nomatch member⟩
  | some number =>
    simp only [nextRefreshSequence] at next
    split at next
    · obtain rfl := Except.ok.inj next
      refine ⟨Nat.succ_ne_zero _, ?_⟩
      rintro _ ⟨⟩
      exact Nat.lt_succ_self _
    · cases next

end Sequencing

section Publishing

variable {path : String} {header : SnapshotHeaderV1} {headerBytes : List UInt8}
  {earlier : View → Prop}

/-- The head of a header for an endpoint, after some views. -/
structure ViewHeadV1.Follows (store : SnapshotStore) (header : SnapshotHeaderV1) (endpoint : String)
    (earlier : View → Prop) (head : ViewHeadV1) : Prop where
  made : ∃ finalHeader sequence, sequence ≠ 0 ∧
    head = viewHead store header finalHeader endpoint sequence
  viewable : header.Viewable store.basis
  above : ∀ view, earlier view →
    view.1.validation.refreshSequence < head.validation.refreshSequence

/-- The head of a staged generation is made, and it pins the generation that is there. -/
theorem traces_settleStaged (endpoint : String) (order : Enumeration) :
    Traces (fun _ => True)
      (fun files => StagedAs store path header headerBytes files ∧ Displaying store earlier files)
      (settleStagedGeneration store path header headerBytes (some endpoint) order) (Keeps store)
      (fun head files => head.Follows store header endpoint earlier ∧ head.Pins store files) := by
  refine Traces.ask.bind fun regular => traces_ensure.bind fun _ => Traces.assuming fun _ => ?_
  refine traces_touch.bind fun _ => ?_
  have settles : Traces (fun _ => True)
      (fun files => StagedAs store path header headerBytes files ∧ Displaying store earlier files)
      (settleGeneration store path header headerBytes) (Keeps store)
      (fun result files => header.Viewable store.basis ∧
        Settled store header result.1 files ∧ Displaying store earlier files) := by
    intro files fates calm kept held
    have viewable := viewable_of_validateHeader (decodeHeader_eq_ok held.1.decoded).2
    obtain ⟨ended, settled⟩ := (traces_settleGeneration.carry fun _ _ => Displaying.keeps) files fates
      calm kept held
    exact ⟨ended, fun result returned => ⟨viewable, settled result returned⟩⟩
  refine settles.bind fun result => Traces.assuming fun viewable => ?_
  obtain ⟨finalHeader, reused⟩ := result
  have rest : ∀ choice : Except SnapshotStoreError String, choice = .ok endpoint →
      Traces (fun _ => True)
      (fun files => Settled store header finalHeader files ∧ Displaying store earlier files)
      (do
        touch (.io ioFailure)
        let endpoint ← Faulty.check choice
        let previous ← readLatestSequence store order
        let sequence ← Faulty.check (nextRefreshSequence previous)
        return viewHead store header finalHeader endpoint sequence :
        StoreProgram SnapshotStoreError ViewHeadV1) (Keeps store)
      (fun head files => head.Follows store header endpoint earlier ∧ head.Pins store files) := by
    intro choice chooses
    refine traces_touch.bind fun _ => (Traces.check _).bind fun chosen => ?_
    refine Traces.assuming fun chosen_eq => ?_
    obtain rfl := Except.ok.inj (chooses.symm.trans chosen_eq)
    refine (((traces_readLatestSequence order).carry fun _ _ keeps settled =>
      Settled.endures settled keeps.generations).weaken (fun _ _ held => held.symm)
        fun _ _ _ held => held).bind fun previous => ?_
    refine (Traces.check _).bind fun next => Traces.assuming fun follows => ?_
    refine (Traces.pure _).weaken (fun _ _ held => held) ?_
    rintro _ files - ⟨rfl, after, settled⟩
    obtain ⟨numbered, above⟩ := nextRefreshSequence_above follows
    refine ⟨⟨⟨finalHeader, next, numbered, rfl⟩, viewable, fun view member => ?_⟩, settled.pins _ _⟩
    obtain ⟨number, rfl, le⟩ := after view member
    exact lt_of_le_of_lt le (above number rfl)
  -- A staged file that was not needed is removed.
  cases reused with
  | false => exact rest _ rfl
  | true =>
    have removes : Traces (fun _ => True)
        (fun files => Settled store header finalHeader files ∧ Displaying store earlier files)
        (Faulty.operate (.io ioFailure) fun files =>
          .ok ((), { files with staged := files.staged.erase path }) :
          StoreProgram SnapshotStoreError Unit) (Keeps store)
        (fun _ files =>
          Settled store header finalHeader files ∧ Displaying store earlier files) := by
      refine Traces.operate fun files value reached _ held worked => ?_
      obtain ⟨-, rfl⟩ := Prod.mk.inj (Except.ok.inj worked)
      have keeps : Keeps store files { files with staged := files.staged.erase path } :=
        Aside.keeps ⟨rfl, rfl, rfl⟩
      exact ⟨trivial, keeps, held.1.endures keeps.generations, held.2.keeps keeps⟩
    exact removes.bind fun _ => rest _ rfl

/-- A head that pins its generation is committed by one operation. -/
theorem traces_publishViewHead (process : ProcessEnvironment) (head : ViewHeadV1)
    (kind : ViewHeadV1 → Prop) (fits : kind head) :
    Traces (fun _ => True) (head.Pins store) (publishViewHead store process head)
      (Placing store kind) (fun _ _ => True) := by
  have early : ∀ files reached, Keeps store files reached → Placing store kind files reached :=
    fun _ _ keeps => .inl keeps
  have onward : ∀ files between reached, Keeps store files between →
      Placing store kind between reached → Placing store kind files reached :=
    fun _ _ _ keeps placing => keeps.placing placing
  refine Traces.bind_related (Traces.check _) (fun bytes => ?_) onward early
  refine Traces.assuming fun written => ?_
  refine Traces.bind_related traces_ensure (fun _ => ?_) onward early
  refine Traces.assuming fun short => ?_
  refine Traces.bind_related traces_touch (fun _ => ?_) onward early
  refine Traces.bind_related (Traces.check _) (fun nonce => ?_) onward early
  refine Traces.assuming fun _ => ?_
  have cleans : Traces (fun _ => True) (fun _ => True)
      (Faulty.endeavor fun files => { files with drafts := files.drafts.erase nonce } :
        StoreProgram SnapshotStoreError PUnit) (Keeps store) (fun _ _ => True) :=
    Traces.endeavor (fun _ _ _ => trivial) fun _ _ _ =>
      ⟨trivial, Aside.keeps ⟨rfl, rfl, rfl⟩, trivial⟩
  refine Traces.ensuring ?_ cleans (fun _ _ _ placing keeps => placing.keeps keeps)
    fun _ _ _ _ held => held
  have drafts : ∀ (files : StoreFiles) (drafts : OrderedMap Nat (List UInt8)),
      Keeps store files { files with drafts } := fun _ _ => Aside.keeps ⟨rfl, rfl, rfl⟩
  have creates : Traces (fun _ => True) (head.Pins store)
      (Faulty.operate (.io ioFailure) fun files =>
        if (files.drafts.get? nonce).isSome then .error (.io "File exists (os error 17)")
        else .ok ((), { files with drafts := files.drafts.insert nonce [] }) :
        StoreProgram SnapshotStoreError Unit) (Keeps store) (fun _ => head.Pins store) := by
    refine Traces.operate fun files value reached _ pins worked => ?_
    split at worked
    · cases worked
    · obtain ⟨-, rfl⟩ := Prod.mk.inj (Except.ok.inj worked)
      exact ⟨trivial, drafts files _, pins.endures (drafts files _).generations⟩
  refine Traces.bind_related creates (fun _ => ?_) onward early
  have writes : Traces (fun _ => True) (head.Pins store)
      (Faulty.operate (.io ioFailure) fun files =>
        .ok ((), { files with drafts := files.drafts.insert nonce bytes }) :
        StoreProgram SnapshotStoreError Unit) (Keeps store)
      (fun _ files => files.drafts.get? nonce = some bytes ∧ head.Pins store files) := by
    refine Traces.operate fun files value reached _ pins worked => ?_
    obtain ⟨-, rfl⟩ := Prod.mk.inj (Except.ok.inj worked)
    refine ⟨trivial, drafts files _, ?_, pins.endures (drafts files _).generations⟩
    rw [OrderedMap.get?_insert, if_pos rfl]
  refine Traces.bind_related writes (fun _ => ?_) onward early
  refine Traces.bind_related traces_touch (fun _ => ?_) onward early
  refine Traces.bind_related traces_touch (fun _ => ?_) onward early
  have commits : Traces (fun _ => True)
      (fun files => files.drafts.get? nonce = some bytes ∧ head.Pins store files)
      (Faulty.operate (.io ioFailure) (commitHead nonce head)) (Placing store kind)
      (fun _ _ => True) := by
    have : Std.Refl (Placing store kind) := ⟨fun files => .inl (Std.Refl.refl files)⟩
    refine Traces.operate fun files value reached _ held worked => ?_
    obtain ⟨drafted, pins⟩ := held
    unfold commitHead at worked
    rw [drafted] at worked
    obtain ⟨-, rfl⟩ := Prod.mk.inj (Except.ok.inj worked)
    exact ⟨trivial, .inr ⟨head, fits, pins, ⟨bytes, ⟨mapError_eq_ok.mp written, short⟩, rfl⟩, rfl,
      endures_of_eq rfl⟩, trivial⟩
  exact Traces.bind_related commits (fun _ => traces_touch)
    (fun _ _ _ placing keeps => placing.keeps keeps) fun _ _ placing => placing

/-- The head of the generation of an input for an endpoint, after some views. -/
def ViewHeadV1.FollowsInput (store : SnapshotStore) (input : SnapshotBuildInput) (endpoint : String)
    (earlier : View → Prop) (head : ViewHeadV1) : Prop :=
  ∃ header bytes histories, prepared store.basis input = .ok (header, bytes, histories) ∧
    head.Follows store header endpoint earlier

/-- A prepared generation is published with its head. -/
theorem traces_publishPrepared {input : SnapshotBuildInput} {generation : PreparedGeneration}
    (made : ∃ bytes histories,
      prepared store.basis input = .ok (generation.header, bytes, histories))
    (endpoint : String) (process : ProcessEnvironment) (order : Enumeration) :
    Traces (fun _ => True) (Displaying store earlier)
      (publishPreparedGeneration store generation (some endpoint) process order)
      (Placing store (ViewHeadV1.FollowsInput store input endpoint earlier)) (fun _ _ => True) := by
  obtain ⟨bytes, histories, making⟩ := made
  have early : ∀ files reached, Keeps store files reached →
      Placing store (ViewHeadV1.FollowsInput store input endpoint earlier) files reached :=
    fun _ _ keeps => .inl keeps
  have onward : ∀ files between reached, Keeps store files between →
      Placing store (ViewHeadV1.FollowsInput store input endpoint earlier) between reached →
      Placing store (ViewHeadV1.FollowsInput store input endpoint earlier) files reached :=
    fun _ _ _ keeps placing => keeps.placing placing
  refine Traces.bind_related (traces_displaying (traces_validateStaged _ _ _ _)) (fun header => ?_)
    onward early
  refine Traces.bind_related traces_ensure (fun _ => ?_) onward early
  refine Traces.assuming fun same => ?_
  subst same
  refine Traces.bind_related ((traces_settleStaged endpoint order).weaken
    (fun _ _ held => ⟨held.1.1, held.2⟩) fun _ _ _ held => held) (fun head => ?_) onward early
  exact Traces.assuming fun follows => traces_publishViewHead process head _
    ⟨generation.header, bytes, histories, making, follows⟩

/-- Whatever files it finds, a publish keeps the heads or commits one: that of its input for its
endpoint, after the views that are displayed. -/
theorem placing_buildAndPublish (input : SnapshotBuildInput) (endpoint : Option String)
    (process : ProcessEnvironment) (order : Enumeration) :
    Traces (fun _ => True) (Displaying store earlier)
      (buildAndPublish store input endpoint process order)
      (Placing store (ViewHeadV1.FollowsInput store input
        (endpoint.getD (effectiveEndpoint input)) earlier)) (fun _ _ => True) := by
  have early : ∀ files reached, Keeps store files reached →
      Placing store (ViewHeadV1.FollowsInput store input
        (endpoint.getD (effectiveEndpoint input)) earlier) files reached :=
    fun _ _ keeps => .inl keeps
  have onward : ∀ files between reached, Keeps store files between →
      Placing store (ViewHeadV1.FollowsInput store input
        (endpoint.getD (effectiveEndpoint input)) earlier) between reached →
      Placing store (ViewHeadV1.FollowsInput store input
        (endpoint.getD (effectiveEndpoint input)) earlier) files reached :=
    fun _ _ _ keeps placing => keeps.placing placing
  refine Traces.bind_related traces_touch (fun _ => ?_) onward early
  have finds : ∀ clock : Except SnapshotStoreError Nat, Traces (fun _ => True) (fun _ => True)
      (Faulty.mapErrors
        (do
          let time ← Faulty.check clock
          uniqueStagingPath process time process.stagingCounter 128) SnapshotPublishError.store)
      Aside (fun _ _ => True) := fun _ =>
    ((Traces.check _).bind fun _ => traces_uniqueStagingPath _ _ _ _).mapErrors
  refine Traces.bind_related (traces_displaying (finds _)) (fun staging => ?_) onward early
  refine Traces.assuming fun _ => ?_
  refine Traces.ensuring ?_ ((traces_eraseStaged staging).relate fun _ _ _ _ aside => aside.keeps)
    (fun _ _ _ placing keeps => placing.keeps keeps) fun _ _ _ _ held => held
  refine Traces.bind_related (traces_displaying (traces_prepareStaged input process staging).mapErrors)
    (fun generation => ?_) onward early
  refine Traces.assuming fun made => ?_
  refine Traces.bind_related (traces_publishPrepared made _ process order).mapErrors (fun _ => ?_)
    (fun _ _ _ placing keeps => placing.keeps keeps) fun _ _ placing => placing
  refine Traces.operate fun files loader reached _ _ worked => ?_
  cases opened : openGenerationLocked store files generation.generation with
  | error cause =>
    rw [opened] at worked
    cases worked
  | ok found =>
    rw [opened] at worked
    obtain ⟨-, rfl⟩ := Prod.mk.inj (Except.ok.inj worked)
    exact ⟨trivial, Std.Refl.refl _, trivial⟩

end Publishing

end Rsolve
