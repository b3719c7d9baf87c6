import Rsolve.Snapshot.Publication

/-!
# What a cleanup does to the files of a store

Where no lookup fails, a cleanup finds the generations that the heads refer to and removes none of
them. It leaves the heads alone.
-/
open Checked Ordered Faults

namespace Rsolve

variable {store : SnapshotStore}

/-- A head of the views refers to a generation. -/
def StoreFiles.Refers (store : SnapshotStore) (files : StoreFiles) (generation : String) : Prop :=
  ∃ (viewKey : String) (content : List UInt8) (head : ViewHeadV1),
    files.views.get? viewKey = some content ∧ head.Stored store content ∧
    head.viewKey = viewKey ∧ head.generation = generation

/-- No head differs, and only generations are gone that no head refers to. -/
structure Retains (store : SnapshotStore) (files reached : StoreFiles) : Prop where
  views : reached.views = files.views
  committed : reached.committed = files.committed
  older : ∀ name file, reached.generations.get? name = some file →
    files.generations.get? name = some file
  referred : ∀ name, files.Refers store name →
    reached.generations.get? name = files.generations.get? name

section Relations

variable {files reached : StoreFiles}

/-- What the heads refer to depends on the views. -/
theorem StoreFiles.refers_congr (views : reached.views = files.views) {generation : String} :
    reached.Refers store generation ↔ files.Refers store generation := by
  unfold StoreFiles.Refers
  rw [views]

instance : Std.Refl (Retains store) :=
  ⟨fun _ => ⟨rfl, rfl, fun _ _ present => present, fun _ _ => rfl⟩⟩

instance : IsTrans StoreFiles (Retains store) where
  trans files between reached first second :=
    { views := second.views.trans first.views
      committed := second.committed.trans first.committed
      older := fun name file present => first.older _ _ (second.older _ _ present)
      referred := fun name refers => by
        rw [second.referred name ((StoreFiles.refers_congr first.views).mpr refers),
          first.referred name refers] }

/-- A head that is stored under its key stands as long as its generation is there. -/
theorem StoreFiles.Sound.retains (sound : files.Sound store) (retains : Retains store files reached) :
    reached.Sound store where
  generations := fun name file present => sound.generations name file (retains.older _ _ present)
  heads := by
    rw [retains.views, retains.committed]
    intro viewKey content present
    obtain ⟨head, member, keyed, stored, stands⟩ := sound.heads viewKey content present
    refine ⟨head, member, keyed, stored, stands.canonical, stands.identified, stands.keyed, ?_⟩
    rw [retains.referred _ ⟨viewKey, content, head, present, stored, keyed, rfl⟩]
    exact stands.pinned
  latest := by
    rw [retains.views, retains.committed]
    exact sound.latest
  sequences := by
    rw [retains.committed]
    exact sound.sequences

/-- Where only the staging directory and the drafts differ, everything is retained. -/
theorem Aside.retains (aside : Aside files reached) : Retains store files reached where
  views := aside.views
  committed := aside.committed
  older := fun name file present => aside.generations ▸ present
  referred := fun name _ => by rw [aside.generations]

end Relations

section Steps

variable {pre : StoreFiles → Prop}

/-- The generation that is found for a view: that of the head stored there. -/
def Found (store : SnapshotStore) (viewKey : String) (found : Option String) (files : StoreFiles) :
    Prop :=
  ∀ (content : List UInt8) (head : ViewHeadV1), files.views.get? viewKey = some content →
    head.Stored store content → found = some head.generation

/-- A cleanup finds the generation that a head refers to. -/
theorem traces_lookGeneration (readsBack : store.headJson.ReadsBack) (viewKey : String) :
    Traces (StoreFiles.Sound store) pre (lookGeneration store viewKey) Aside
      (fun found files => Found store viewKey found files ∧ pre files) := by
  unfold lookGeneration
  refine Traces.look.bind fun listed => ?_
  split
  · refine Traces.look.bind fun outcome => ?_
    -- What is stored under the key is read.
    have known : ∀ files : StoreFiles, files.Sound store →
        outcome = readViewOptionalLocked store files viewKey →
        ∀ (content : List UInt8) (head : ViewHeadV1), files.views.get? viewKey = some content →
          head.Stored store content → ∃ loader, outcome = .ok (some (head, loader)) := by
      intro files sound read content head present stored
      obtain ⟨found, -, -, storedFound, loader, -, reading, -⟩ := sound.readView readsBack present
      obtain rfl := stored.unique readsBack storedFound
      exact ⟨loader, read.trans reading⟩
    split
    · refine (Traces.pure _).weaken (fun _ _ held => held) ?_
      rintro _ files sound ⟨rfl, read, -, held⟩
      refine ⟨fun content head present stored => ?_, held⟩
      obtain ⟨loader, same⟩ := known files sound read content head present stored
      cases same
      rfl
    · refine (Traces.pure _).weaken (fun _ _ held => held) ?_
      rintro _ files sound ⟨rfl, read, -, held⟩
      refine ⟨fun content head present stored => ?_, held⟩
      obtain ⟨loader, same⟩ := known files sound read content head present stored
      cases same
    · refine (Traces.pure _).weaken (fun _ _ held => held) ?_
      rintro _ files sound ⟨rfl, read, -, held⟩
      refine ⟨fun content head present stored => ?_, held⟩
      obtain ⟨loader, same⟩ := known files sound read content head present stored
      cases same
  · next unlisted => exact Traces.unreachable fun files _ held => unlisted held.1

/-- The generations that are retained contain those that the heads refer to. -/
def Covering (store : SnapshotStore) (retained : List String) (files : StoreFiles) : Prop :=
  ∀ generation, files.Refers store generation → generation ∈ retained

/-- What covers the heads covers them as long as they do not change. -/
theorem Covering.retains {retained : List String} {files reached : StoreFiles}
    (covering : Covering store retained files) (retains : Retains store files reached) :
    Covering store retained reached := fun generation refers =>
  covering generation ((StoreFiles.refers_congr retains.views).mp refers)

/-- A staged file is removed aside. -/
theorem traces_removeStaged (path : String) :
    Traces (StoreFiles.Sound store) pre (removeStaged path) Aside (fun _ _ => True) := by
  refine traces_touch.bind fun _ => Traces.ask.bind fun regular => ?_
  split
  · exact (traces_eraseStaged path).under fun _ _ aside sound => sound.aside aside
  · exact (Traces.pure _).weaken (fun _ _ held => held) fun _ _ _ _ => trivial

/-- A generation is removed only when no head refers to it. -/
theorem traces_removeGeneration (retained : List String) (generation : String) :
    Traces (StoreFiles.Sound store) (Covering store retained) (removeGeneration retained generation)
      (Retains store) (fun _ => Covering store retained) := by
  unfold removeGeneration
  refine traces_touch.bind fun _ => ?_
  split
  · exact (Traces.pure _).weaken (fun _ _ held => held) fun _ _ _ held => held.2
  · next condition =>
    have unretained : generation ∉ retained := fun member => condition (.inl member)
    have removes : Traces (StoreFiles.Sound store) (Covering store retained)
        (Faulty.endeavor fun files =>
          { files with generations := files.generations.erase generation } :
          StoreProgram SnapshotStoreError PUnit) (Retains store)
        (fun _ => Covering store retained) := by
      refine Traces.endeavor (fun _ _ held => held) fun files sound covering => ?_
      have retains : Retains store files
          { files with generations := files.generations.erase generation } := by
        refine ⟨rfl, rfl, fun name file present => ?_, fun name refers => ?_⟩
        · rw [OrderedMap.get?_erase] at present
          split at present
          · cases present
          · exact present
        · rw [OrderedMap.get?_erase, if_neg]
          rintro rfl
          exact unretained (covering _ refers)
      exact ⟨sound.retains retains, retains, covering.retains retains⟩
    have asks : Traces (StoreFiles.Sound store) (Covering store retained)
        (isRegularGeneration generation : StoreProgram SnapshotStoreError Bool) (Retains store)
        (fun _ => Covering store retained) := Traces.ask
    have last : ∀ still : Bool, Traces (StoreFiles.Sound store) (Covering store retained)
        (if still then Faulty.endeavor fun files =>
            { files with generations := files.generations.erase generation }
          else return () : StoreProgram SnapshotStoreError Unit) (Retains store)
        (fun _ => Covering store retained) := by
      intro still
      split
      · exact removes
      · exact (Traces.pure _).weaken (fun _ _ held => held) fun _ _ _ held => held.2
    refine asks.bind fun regular => ?_
    cases regular with
    | false => exact last false
    | true => exact asks.bind last

/-- A cleanup keeps the files sound and retains what the heads refer to. -/
theorem traces_cleanup (readsBack : store.headJson.ReadsBack) (retain : List String)
    (orders : CleanupOrders) :
    Traces (StoreFiles.Sound store) pre (cleanup store retain orders) (Retains store)
      (fun _ _ => True) := by
  refine traces_touch.bind fun _ => Traces.look.bind fun keys => ?_
  have finds : Traces (StoreFiles.Sound store)
      (fun files => keys = orders.views.list files.views.keys ∧ pre files)
      (keys.mapM (lookGeneration store)) Aside
      (fun referenced files =>
        List.Forall₂ (fun viewKey found => Found store viewKey found files) keys referenced ∧
          keys = orders.views.list files.views.keys ∧ pre files) := by
    refine Traces.mapM (fun viewKey found files reached aside known content head present => ?_)
      fun viewKey _ => traces_lookGeneration readsBack viewKey
    exact known content head (aside.views ▸ present)
  have covers : Traces (StoreFiles.Sound store)
      (fun files => keys = orders.views.list files.views.keys ∧ pre files)
      (keys.mapM (lookGeneration store)) (Retains store)
      (fun referenced => Covering store (retain ++ referenced.filterMap id)) := by
    refine (finds.relate fun _ _ _ _ aside => aside.retains).weaken (fun _ _ held => held) ?_
    rintro referenced files sound ⟨known, keys_eq, -⟩ generation
      ⟨viewKey, content, head, present, stored, -, rfl⟩
    have listed : viewKey ∈ keys := keys_eq ▸ mem_enumerated_views.mpr ⟨content, present⟩
    obtain ⟨found, member, finds⟩ := (Sorting.matches_of_forall₂ known).1 viewKey listed
    rw [finds content head present stored] at member
    exact List.mem_append_right _ (List.mem_filterMap.mpr ⟨_, member, rfl⟩)
  refine covers.bind fun referenced => ?_
  have lists : ∀ (names : StoreFiles → List String),
      Traces (StoreFiles.Sound store) (Covering store (retain ++ referenced.filterMap id))
        (Faulty.operate (.io ioFailure) fun files => .ok (names files, files) :
          StoreProgram SnapshotStoreError (List String)) (Retains store)
        (fun _ => Covering store (retain ++ referenced.filterMap id)) := by
    intro names
    refine Traces.operate fun files listed reached sound covering worked => ?_
    obtain ⟨-, rfl⟩ := Prod.mk.inj (Except.ok.inj worked)
    exact ⟨sound, Std.Refl.refl _, covering⟩
  refine (lists _).bind fun staged => ?_
  have clears : ∀ path, Traces (StoreFiles.Sound store)
      (Covering store (retain ++ referenced.filterMap id)) (removeStaged path) (Retains store)
      (fun _ => Covering store (retain ++ referenced.filterMap id)) := by
    intro path
    have removed : Traces (StoreFiles.Sound store) (fun _ => True) (removeStaged path)
        (Retains store) (fun _ _ => True) :=
      (traces_removeStaged path).relate fun _ _ _ _ aside => aside.retains
    exact (removed.carry fun _ _ retains covering => covering.retains retains).weaken
      (fun _ _ held => ⟨trivial, held⟩) fun _ _ _ held => held.2
  refine (Traces.forM fun path _ => clears path).bind fun _ => (lists _).bind fun generations => ?_
  exact (Traces.forM fun generation _ => traces_removeGeneration _ generation).weaken
    (fun _ _ held => held) fun _ _ _ _ => trivial

end Steps

end Rsolve
