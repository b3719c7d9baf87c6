import Rsolve.Snapshot.Reading
import Rsolve.Snapshot.Store

/-!
# What holds of the files of a store

The files of a store are sound: every generation is valid and has its name, every head is the text of
a committed one and stands on a generation whose header it pins, and the last committed head is the
one with the highest sequence number. In sound files every view is read, and the latest view is the
last committed one, in whatever order the heads are enumerated.
-/
open Checked Framing Ordered Sorting Faults

namespace Rsolve

variable (store : SnapshotStore)

/-- A head stands on a generation of the files: the generation is valid, and its header is the one
that the head pins. -/
structure ViewHeadV1.Stands (files : StoreFiles) (head : ViewHeadV1) : Prop where
  canonical : head.Canonical store
  identified : ∀ source ∈ head.validation.sources, source.Identified
  keyed : viewKeyForParts store head.coverage.state head.coverage.scope head.coverage.freshness
    head.validation.effectiveEndpoint = head.viewKey
  pinned : ∃ file header bytes, files.generations.get? head.generation = some file ∧
    validateGeneration store.basis file store.registryId = .ok header ∧
    header.generation = head.generation ∧ encodeHeader store.basis header = .ok bytes ∧
    head.Agrees store header bytes

/-- A head of a view, as it is stored. -/
structure ViewHeadV1.Stored (head : ViewHeadV1) (content : List UInt8) : Prop where
  written : store.headJson.toVec head = .ok content
  short : content.length ≤ viewHeadLimit

/-- The files of a store are sound. -/
structure StoreFiles.Sound (files : StoreFiles) : Prop where
  generations : ∀ name file, files.generations.get? name = some file →
    ∃ header, validateGeneration store.basis file store.registryId = .ok header ∧
      header.generation = name
  heads : ∀ viewKey content, files.views.get? viewKey = some content →
    ∃ head ∈ files.committed, head.viewKey = viewKey ∧ head.Stored store content ∧
      head.Stands store files
  latest : ∀ head ∈ files.committed.head?, ∃ content,
    files.views.get? head.viewKey = some content ∧ head.Stored store content
  sequences : files.committed.Pairwise fun later earlier =>
    earlier.validation.refreshSequence < later.validation.refreshSequence

variable {store}

/-- The files of a new store are sound. -/
theorem StoreFiles.Sound.empty : StoreFiles.empty.Sound store where
  generations := fun _ _ present => by cases present
  heads := fun _ _ present => by cases present
  latest := fun _ member => by cases member
  sequences := List.Pairwise.nil

section Reading

variable {files : StoreFiles} {head : ViewHeadV1} {content : List UInt8}

/-- A stored head is read. -/
theorem decodeViewHead_stored (readsBack : store.headJson.ReadsBack) (stored : head.Stored store content)
    (stands : head.Stands store files) : decodeViewHead store content = .ok head := by
  have registry : Identifier.new .registryId head.registryId = .ok store.registryId :=
    Identifier.new_eq_ok.mpr stands.canonical.registry.symm
  simp only [decodeViewHead, ensure_of stored.short, readsBack _ _ stored.written, stored.written,
    Except.mapError, registry, ensure_of stands.canonical, ensure_of stands.identified, ok_bind]
  rfl

/-- A head is stored as one text. -/
theorem ViewHeadV1.Stored.unique (readsBack : store.headJson.ReadsBack) {other : ViewHeadV1}
    (first : head.Stored store content) (second : other.Stored store content) : head = other :=
  Except.ok.inj ((readsBack _ _ first.written).symm.trans (readsBack _ _ second.written))

/-- A generation that is there under its own name is opened. -/
theorem openGenerationLocked_of {generation : String} {file : GenerationFile}
    {loader : GenerationLoader} (present : files.generations.get? generation = some file)
    (opened : GenerationLoader.open' store.basis file store.registryId = .ok loader)
    (registered : loader.header.registryId = store.registryId.text)
    (named : loader.header.generation = generation) :
    openGenerationLocked store files generation = .ok loader := by
  simp only [openGenerationLocked, present, opened, Except.mapError, ok_bind,
    ensure_of (And.intro registered named)]
  rfl

/-- The generation that a head stands on is opened with the header that the head pins. -/
theorem exists_loader_of_stands (stands : head.Stands store files) :
    ∃ loader bytes file, openGenerationLocked store files head.generation = .ok loader ∧
      encodeHeader store.basis loader.header = .ok bytes ∧ head.Agrees store loader.header bytes ∧
      loader.header.generation = head.generation ∧
      files.generations.get? head.generation = some file ∧
      validateGeneration store.basis file store.registryId = .ok loader.header := by
  obtain ⟨file, header, bytes, present, valid, named, encoded, agrees⟩ := stands.pinned
  obtain ⟨database, _, rfl, -, -, registered, -, opened⟩ := validateGeneration_eq_ok valid
  exact ⟨⟨database, header⟩, bytes, _, openGenerationLocked_of present opened registered named,
    encoded, agrees, named, present, valid⟩

/-- The part of reading a view that opens the generation of its head. -/
def readPinned (store : SnapshotStore) (files : StoreFiles) (head : ViewHeadV1) :
    Except CandidateLoadError (Option View) := do
  let loader ← openGenerationLocked store files head.generation
  let bytes ← (encodeHeader store.basis loader.header).mapError fun cause =>
    storeCandidateError ("unable to encode generation header: " ++ cause.text)
  ensure (head.Agrees store loader.header bytes)
    (storeCandidateError "snapshot view validation does not match generation")
  return some (head, loader)

/-- Reading the view of a stored head that stands in some files comes to opening its generation. -/
theorem readView_stored_eq (readsBack : store.headJson.ReadsBack) {reached : StoreFiles}
    (present : reached.views.get? head.viewKey = some content) (stored : head.Stored store content)
    (stands : head.Stands store files) :
    readViewOptionalLocked store reached head.viewKey = readPinned store reached head := by
  have whole : content.take (viewHeadLimit + 1) = content :=
    List.take_of_length_le (Nat.le_succ_of_le stored.short)
  simp only [readViewOptionalLocked, ensure_of stands.canonical.viewKey, present, whole,
    decodeViewHead_stored readsBack stored stands, ensure_of stands.keyed, ok_bind]
  rfl

/-- The view of a stored head that stands is read. -/
theorem readView_stored (readsBack : store.headJson.ReadsBack)
    (present : files.views.get? head.viewKey = some content) (stored : head.Stored store content)
    (stands : head.Stands store files) :
    ∃ loader file, readViewOptionalLocked store files head.viewKey = .ok (some (head, loader)) ∧
      openGenerationLocked store files head.generation = .ok loader ∧
      loader.header.generation = head.generation ∧
      files.generations.get? head.generation = some file ∧
      validateGeneration store.basis file store.registryId = .ok loader.header := by
  obtain ⟨loader, bytes, file, opened, encoded, agrees, named, there, valid⟩ :=
    exists_loader_of_stands stands
  refine ⟨loader, file, ?_, opened, named, there, valid⟩
  rw [readView_stored_eq readsBack present stored stands]
  simp only [readPinned, opened, encoded, Except.mapError, ensure_of agrees, ok_bind]
  rfl

/-- The view of a stored head that stands on a known generation is read with that generation. -/
theorem readView_stored_of (readsBack : store.headJson.ReadsBack)
    (present : files.views.get? head.viewKey = some content) (stored : head.Stored store content)
    (stands : head.Stands store files) {database : SnapshotDatabase} {header : SnapshotHeaderV1}
    (there : files.generations.get? head.generation = some (some database))
    (valid : validateGeneration store.basis (some database) store.registryId = .ok header) :
    readViewOptionalLocked store files head.viewKey = .ok (some (head, ⟨database, header⟩)) := by
  obtain ⟨loader, file, read, opens, named, found, whole⟩ :=
    readView_stored readsBack present stored stands
  obtain rfl := Option.some.inj (there.symm.trans found)
  obtain ⟨_, _, isSome, -, -, registered, -, opened⟩ := validateGeneration_eq_ok valid
  obtain rfl := Option.some.inj isSome
  obtain rfl := Except.ok.inj (valid.symm.trans whole)
  have known := openGenerationLocked_of there opened registered named
  rw [read, Except.ok.inj (known.symm.trans opens)]

/-- In sound files the head under a key is read. -/
theorem StoreFiles.Sound.readView (sound : files.Sound store) (readsBack : store.headJson.ReadsBack)
    {viewKey : String} (present : files.views.get? viewKey = some content) :
    ∃ head ∈ files.committed, head.viewKey = viewKey ∧ head.Stored store content ∧
      ∃ loader file, readViewOptionalLocked store files viewKey = .ok (some (head, loader)) ∧
        openGenerationLocked store files head.generation = .ok loader ∧
        loader.header.generation = head.generation ∧
        files.generations.get? head.generation = some file ∧
        validateGeneration store.basis file store.registryId = .ok loader.header := by
  obtain ⟨head, member, rfl, stored, stands⟩ := sound.heads viewKey content present
  exact ⟨head, member, rfl, stored, readView_stored readsBack present stored stands⟩

/-- In sound files, what is read of the views is a view for each key. -/
theorem StoreFiles.Sound.outcomes (sound : files.Sound store) (readsBack : store.headJson.ReadsBack)
    (order : Enumeration) {outcome : Except CandidateLoadError (Option View)}
    (member : outcome ∈ (order.list files.views.keys).map (readViewOptionalLocked store files)) :
    ∃ view : View, outcome = .ok (some view) ∧ view.1 ∈ files.committed ∧
      openGenerationLocked store files view.1.generation = .ok view.2 := by
  obtain ⟨viewKey, listed, rfl⟩ := List.mem_map.mp member
  obtain ⟨content, present⟩ := mem_enumerated_views.mp listed
  obtain ⟨head, committed, -, -, loader, -, read, opened, -⟩ := sound.readView readsBack present
  exact ⟨(head, loader), read, committed, opened⟩

/-- In sound files the latest view is the last committed one. -/
theorem StoreFiles.Sound.latestView (sound : files.Sound store)
    (readsBack : store.headJson.ReadsBack) (order : Enumeration) :
    (files.committed = [] → readLatestViewHead store order files = .ok none) ∧
    ∀ head ∈ files.committed.head?, ∃ loader,
      readLatestViewHead store order files = .ok (some (head, loader)) ∧
      openGenerationLocked store files head.generation = .ok loader := by
  have fine : ((order.list files.views.keys).map (readViewOptionalLocked store files)).any
      (fun outcome => !outcome.isOk) = false := by
    rw [List.any_eq_false]
    intro outcome member
    obtain ⟨view, rfl, -⟩ := sound.outcomes readsBack order member
    simp [Except.isOk, Except.toBool]
  have latest : readLatestViewHead store order files = .ok (sortBy compareViews (readViews
      ((order.list files.views.keys).map (readViewOptionalLocked store files)))).getLast? := by
    rw [readLatestViewHead, latestOf, fine]
    exact if_neg fun condition => Bool.false_ne_true condition.2
  have mem_views : ∀ view, view ∈ readViews ((order.list files.views.keys).map
      (readViewOptionalLocked store files)) → view.1 ∈ files.committed ∧
        openGenerationLocked store files view.1.generation = .ok view.2 := by
    intro view member
    obtain ⟨outcome, listed, same⟩ := List.mem_filterMap.mp member
    obtain ⟨found, rfl, committed, opened⟩ := sound.outcomes readsBack order listed
    obtain rfl := Option.some.inj same
    exact ⟨committed, opened⟩
  rw [latest]
  constructor
  · intro none
    have nothing : readViews ((order.list files.views.keys).map
        (readViewOptionalLocked store files)) = [] := by
      refine List.eq_nil_iff_forall_not_mem.mpr fun view member => ?_
      have committed := (mem_views view member).1
      rw [none] at committed
      cases committed
    rw [nothing]
    rfl
  · intro head first
    obtain ⟨content, present, stored⟩ := sound.latest head first
    obtain ⟨found, -, -, storedFound, loader, -, read, opened, -⟩ := sound.readView readsBack present
    obtain rfl := stored.unique readsBack storedFound
    have listedIn : (head, loader) ∈ readViews ((order.list files.views.keys).map
        (readViewOptionalLocked store files)) :=
      List.mem_filterMap.mpr ⟨_, List.mem_map.mpr ⟨head.viewKey,
        mem_enumerated_views.mpr ⟨content, present⟩, read⟩, rfl⟩
    obtain ⟨last, lastIn, found, above⟩ := exists_last_sortBy compareViews listedIn
    obtain ⟨committed, lastOpened⟩ := mem_views last lastIn
    -- Only the head itself has a sequence number that is not below that of the head.
    have same : last.1 = head := by
      obtain ⟨rest, listed⟩ := List.head?_eq_some_iff.mp first
      have ordered := sound.sequences
      rw [listed] at ordered committed
      rcases List.mem_cons.mp committed with same | earlier
      · exact same
      · have below := (List.pairwise_cons.mp ordered).1 last.1 earlier
        have order : compare head.validation.refreshSequence
            last.1.validation.refreshSequence = .gt := Nat.compare_eq_gt.mpr below
        have gt : compareViews (head, loader) last = .gt := by
          simp only [compareViews, compareLex, compareOn, order, Ordering.then]
        have le := above _ listedIn
        rw [gt] at le
        cases le
    obtain ⟨lastHead, lastLoader⟩ := last
    obtain rfl : lastHead = head := same
    exact ⟨lastLoader, congrArg Except.ok found, lastOpened⟩

end Reading

end Rsolve
