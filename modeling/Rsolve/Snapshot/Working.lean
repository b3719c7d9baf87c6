import Rsolve.Snapshot.Publication

/-!
# Calls in which the operations work

On a store that was just opened, a publish in which every operation works installs the generation of
its input and commits the head. A cleanup in which the operations work but the enumeration of the
heads fails takes the failure for an answer: it removes every generation it is not told to retain.
-/
open Checked Framing Ordered Sorting Faults

namespace Rsolve

variable {store : SnapshotStore} {files : StoreFiles} {lookups : List Fate}

/-- A file operation that changes nothing works. -/
theorem works_touch {ε : Type} (broken : ε) :
    Works (touch broken : StoreProgram ε Unit) files lookups () files lookups :=
  .operate rfl

section Publish

/-- The first name of a staged file. -/
def stagedPath (process : ProcessEnvironment) (time : Nat) : String :=
  ".rsolve-staged-" ++ toString process.pid ++ "-" ++ toString time ++ "-" ++
    toString process.stagingCounter ++ ".redb"

/-- The first name of a temporary generation. -/
def temporaryPath (process : ProcessEnvironment) (time : Nat) : String :=
  ".rsolve-generation-" ++ toString process.pid ++ "-" ++ toString time ++ "-" ++
    toString process.generationCounter ++ ".tmp"

/-- Texts differ when they start with texts that differ at some position. -/
theorem append_ne_append {first second : String} (position : Nat)
    (within : position < first.toList.length ∧ position < second.toList.length)
    (differ : first.toList[position]? ≠ second.toList[position]?) (left right : String) :
    first ++ left ≠ second ++ right := by
  intro same
  have characters := congrArg String.toList same
  rw [String.toList_append, String.toList_append] at characters
  have there := congrArg (fun characters => characters[position]?) characters
  simp only [List.getElem?_append_left within.1, List.getElem?_append_left within.2] at there
  exact differ there

/-- These names differ. -/
theorem stagedPath_ne_temporaryPath (process : ProcessEnvironment) (time later : Nat) :
    stagedPath process time ≠ temporaryPath process later := by
  have apart := @append_ne_append ".rsolve-staged-" ".rsolve-generation-" 8 (by decide)
    (by decide)
  unfold stagedPath temporaryPath
  iterate 10 rw [String.append_assoc]
  exact apart _ _

/-- The first name is taken when there is no file of that name. -/
theorem works_uniqueStagingPath {process : ProcessEnvironment} {time : Nat}
    (absent : files.staged.get? (stagedPath process time) = none) :
    Works (uniqueStagingPath process time process.stagingCounter 128) files lookups
      (stagedPath process time) files lookups := by
  unfold stagedPath at absent ⊢
  refine Works.ask.bind ?_
  rw [absent]
  exact .pure

/-- A temporary generation of the first name is created when there is no file of that name. -/
theorem works_createTemporaryGeneration {process : ProcessEnvironment} {time : Nat}
    (absent : files.staged.get? (temporaryPath process time) = none) :
    Works (createTemporaryGeneration process time process.generationCounter 128) files lookups
      (temporaryPath process time)
      { files with staged := files.staged.insert (temporaryPath process time) none } lookups := by
  have created : (if (files.staged.get? (temporaryPath process time)).isSome then
      Except.ok (false, files)
    else .ok (true, { files with
      staged := files.staged.insert (temporaryPath process time) none })) =
        (.ok (true, { files with
          staged := files.staged.insert (temporaryPath process time) none }) :
          Except SnapshotError (Bool × StoreFiles)) := by
    rw [absent]
    rfl
  exact (Works.operate created).bind .pure

/-- The tables of a generation are written. -/
theorem works_writeGenerationUnvalidated {path : String} {header : List UInt8}
    {histories : OrderedMap String (List UInt8)} :
    Works (writeGenerationUnvalidated path header histories) files lookups ()
      { files with staged := files.staged.insert path (some ⟨some header, histories⟩) } lookups :=
  (works_touch _).bind <| (Works.operate rfl).bind <| (works_touch _).bind (works_touch _)

/-- What is staged after a generation was. -/
def stagedAfter (staged : OrderedMap String GenerationFile) (temporary destination : String)
    (file : GenerationFile) : OrderedMap String GenerationFile :=
  (((((staged.insert temporary none).insert temporary file).insert destination none).erase
    temporary).insert destination file).erase temporary

/-- The generation is there. -/
theorem get?_stagedAfter {staged : OrderedMap String GenerationFile}
    {temporary destination : String} {file : GenerationFile} (apart : destination ≠ temporary) :
    (stagedAfter staged temporary destination file).get? destination = some file := by
  rw [stagedAfter, OrderedMap.get?_erase, if_neg apart, OrderedMap.get?_insert, if_pos rfl]

/-- A generation is staged. -/
theorem works_prepareStaged {input : SnapshotBuildInput} {process : ProcessEnvironment}
    {destination : String} {header : SnapshotHeaderV1} {headerBytes : List UInt8}
    {histories : OrderedMap String (List UInt8)} {time : Nat}
    (made : prepared store.basis input = .ok (header, headerBytes, histories))
    (clock : process.generationTime = some time)
    (apart : destination ≠ temporaryPath process time)
    (absent : files.staged.get? destination = none)
    (temporary : files.staged.get? (temporaryPath process time) = none) :
    Works (prepareStaged store input process destination) files lookups
      ⟨destination, header.generation, header, headerBytes⟩
      { files with
        staged := stagedAfter files.staged (temporaryPath process time) destination
          (some ⟨some headerBytes, histories⟩) } lookups := by
  refine (Works.check made).bind ((works_touch _).bind ?_)
  refine (Works.check (by rw [clock])).bind ((works_createTemporaryGeneration temporary).bind ?_)
  have free : ¬ (((files.staged.insert (temporaryPath process time) none).insert
      (temporaryPath process time) (some ⟨some headerBytes, histories⟩)).get?
        destination).isSome = true := by
    simp only [OrderedMap.get?_insert, apart, absent, if_false]
    decide
  apply Works.ensuring
  · apply Works.bind
    · exact works_writeGenerationUnvalidated
    apply Works.bind
    · exact .operate (if_neg free)
    apply Works.bind
    · apply Works.trial
      rw [renameStaged, OrderedMap.get?_insert, if_neg (Ne.symm apart), OrderedMap.get?_insert,
        if_pos rfl]
    exact (works_touch _).bind ((works_touch _).bind .pure)
  · exact .endeavor

/-- A staged generation that is valid is found valid. -/
theorem works_validateStagedGeneration {path label : String} {header : SnapshotHeaderV1}
    {headerBytes : List UInt8} {file : GenerationFile}
    (staged : files.staged.get? path = some file)
    (decoded : decodeHeader store.basis headerBytes = .ok header)
    (valid : validateGeneration store.basis file store.registryId = .ok header) :
    Works (validateStagedGeneration store path header.generation headerBytes label) files lookups
      header files lookups := by
  have named : header.registryId = store.registryId.text := by
    obtain ⟨_, _, -, -, -, named, -⟩ := validateGeneration_eq_ok valid
    exact named
  have regular : (files.staged.get? path).isSome = true := by rw [staged]; rfl
  apply Works.bind
  · exact .ask
  apply Works.bind
  · exact .check (ensure_of regular)
  apply Works.bind
  · exact .check (by rw [decoded]; rfl)
  apply Works.bind
  · exact .check (ensure_of ⟨named, rfl⟩)
  apply Works.bind
  · apply Works.operate
    rw [staged, Option.getD_some, valid]
    rfl
  exact (Works.check (ensure_of rfl)).bind .pure

/-- A publish puts the staged file in the place of a generation that is not there, has no header to
read, or says the same and is not valid. -/
def StoreFiles.Replaceable (store : SnapshotStore) (files : StoreFiles) (header : SnapshotHeaderV1) :
    Prop :=
  files.generations.get? header.generation = none ∨
    existingHeader store header.generation files = none ∨
    ∃ existing, existingHeader store header.generation files = some existing ∧
      sameSemanticGeneration existing header = true ∧
      isValidGeneration store header.generation files = false

/-- The files after a staged file was put in the place of a generation. -/
def StoreFiles.replaced (files : StoreFiles) (path generation : String) (file : GenerationFile) :
    StoreFiles :=
  { files with
    staged := files.staged.erase path
    generations := files.generations.insert generation file }

/-- The staged file is put in the place of a generation. -/
theorem works_replaceGeneration {path generation : String} {headerBytes : List UInt8}
    {file : GenerationFile} (staged : files.staged.get? path = some file) :
    Works (replaceGeneration path generation headerBytes) files lookups (headerBytes, false)
      (files.replaced path generation file) lookups := by
  apply Works.bind
  · apply Works.operate
    rw [installStaged, staged]
  exact (works_touch _).bind .pure

/-- A replaceable generation is replaced. -/
theorem works_settleGeneration {path : String} {header : SnapshotHeaderV1}
    {headerBytes : List UInt8} {file : GenerationFile}
    (staged : files.staged.get? path = some file) (replaceable : files.Replaceable store header) :
    Works (settleGeneration store path header headerBytes) files [] (headerBytes, false)
      (files.replaced path header.generation file) [] := by
  apply Works.bind
  · exact .operate rfl
  cases present : (files.generations.get? header.generation).isSome with
  | false => exact works_replaceGeneration staged
  | true =>
    rcases replaceable with absent | unread | ⟨existing, read, same, invalid⟩
    · rw [absent] at present
      cases present
    · apply Works.bind
      · exact .look
      rw [unread]
      exact works_replaceGeneration staged
    · apply Works.bind
      · exact .look
      rw [read]
      apply Works.bind
      · exact .check (ensure_of same)
      apply Works.bind
      · exact .look
      rw [invalid]
      exact works_replaceGeneration staged

/-- The heads are read one by one. -/
theorem works_lookViews {keys : List String} {broken : SnapshotStoreError} :
    Works (keys.mapM fun viewKey => do
      touch broken
      lookView store viewKey : StoreProgram SnapshotStoreError _) files []
      (keys.map (readViewOptionalLocked store files)) files [] := by
  induction keys with
  | nil =>
    rw [List.mapM_nil]
    exact .pure
  | cons first rest ih =>
    rw [List.mapM_cons]
    apply Works.bind
    · exact (works_touch _).bind .look
    exact ih.bind .pure

/-- The sequence number of the latest view is read. -/
theorem works_readLatestSequence {order : Enumeration} {view : Option View}
    (read : readLatestViewHead store order files = .ok view) :
    Works (readLatestSequence store order) files [] (view.map fun view =>
      view.1.validation.refreshSequence) files [] := by
  apply Works.bind
  · exact .operate rfl
  apply Works.bind
  · exact works_lookViews
  apply Works.bind
  · apply Works.check
    rw [← readLatestViewHead, read]
    rfl
  exact .pure

/-- The files after a head was committed. -/
def StoreFiles.headed (files : StoreFiles) (nonce : Nat) (head : ViewHeadV1) (content : List UInt8) :
    StoreFiles :=
  { files with
    drafts := ((((files.drafts.insert nonce []).insert nonce content).erase nonce).erase nonce)
    views := files.views.insert head.viewKey content
    committed := head :: files.committed }

/-- A head is committed. -/
theorem works_publishViewHead {process : ProcessEnvironment} {head : ViewHeadV1} {nonce : Nat}
    {content : List UInt8} (written : store.headJson.toVec head = .ok content)
    (short : content.length ≤ viewHeadLimit) (clock : process.viewTime = some nonce)
    (free : files.drafts.get? nonce = none) :
    Works (publishViewHead store process head) files lookups () (files.headed nonce head content)
      lookups := by
  apply Works.bind
  · exact .check (by rw [written]; rfl)
  apply Works.bind
  · exact .check (ensure_of short)
  apply Works.bind
  · exact works_touch _
  apply Works.bind
  · exact .check (by rw [clock])
  apply Works.ensuring
  · apply Works.bind
    · apply Works.operate
      rw [free]
      rfl
    apply Works.bind
    · exact .operate rfl
    apply Works.bind
    · exact works_touch _
    apply Works.bind
    · exact works_touch _
    apply Works.bind
    · apply Works.operate
      rw [commitHead, OrderedMap.get?_insert, if_pos rfl]
    exact works_touch _
  · exact .endeavor

/-- What a process needs of its environment for a publish: a clock, and names that are free. -/
structure ProcessEnvironment.Serves (process : ProcessEnvironment) (files : StoreFiles)
    (staging generation view : Nat) : Prop where
  stagingTime : process.stagingTime = some staging
  generationTime : process.generationTime = some generation
  viewTime : process.viewTime = some view
  staged : files.staged.get? (stagedPath process staging) = none
  temporary : files.staged.get? (temporaryPath process generation) = none
  draft : files.drafts.get? view = none

/-- The files after a publish that replaced the generation of its header. -/
def StoreFiles.published (files : StoreFiles) (process : ProcessEnvironment)
    (staging generation view : Nat) (head : ViewHeadV1) (content : List UInt8)
    (file : GenerationFile) : StoreFiles :=
  let reached := ({ files with
    staged := stagedAfter files.staged (temporaryPath process generation)
      (stagedPath process staging) file }.replaced (stagedPath process staging) head.generation
        file).headed view head content
  { reached with staged := reached.staged.erase (stagedPath process staging) }

/-- A publish in which every operation works replaces a replaceable generation and commits its head,
when the heads can be read where it reads them. -/
theorem works_buildAndPublish {input : SnapshotBuildInput} {endpoint : Option String}
    {process : ProcessEnvironment} {order : Enumeration} {header : SnapshotHeaderV1}
    {headerBytes content : List UInt8} {histories : OrderedMap String (List UInt8)}
    {staging generation view sequence : Nat} {latest : Option View}
    (made : prepared store.basis input = .ok (header, headerBytes, histories))
    (valid : validateGeneration store.basis (some ⟨some headerBytes, histories⟩) store.registryId =
      .ok header)
    (serves : process.Serves files staging generation view)
    (replaceable : files.Replaceable store header)
    (read : ∀ staged, readLatestViewHead store order { files with
      staged, generations := files.generations.insert header.generation
        (some ⟨some headerBytes, histories⟩) } = .ok latest)
    (next : nextRefreshSequence (latest.map fun view => view.1.validation.refreshSequence) =
      .ok sequence)
    (written : store.headJson.toVec (viewHead store header headerBytes
      (endpoint.getD (effectiveEndpoint input)) sequence) = .ok content)
    (short : content.length ≤ viewHeadLimit) :
    Works (buildAndPublish store input endpoint process order) files []
      ⟨⟨some headerBytes, histories⟩, header⟩
      (files.published process staging generation view (viewHead store header headerBytes
        (endpoint.getD (effectiveEndpoint input)) sequence) content
        (some ⟨some headerBytes, histories⟩)) [] := by
  obtain ⟨database, bytes, same, stored, decoded, named, -, opened⟩ :=
    validateGeneration_eq_ok valid
  obtain rfl := Option.some.inj same
  obtain rfl := Option.some.inj stored
  have apart := stagedPath_ne_temporaryPath process staging generation
  have there := @get?_stagedAfter files.staged _ _ (some ⟨some headerBytes, histories⟩) apart
  apply Works.bind
  · exact works_touch _
  apply Works.bind
  · apply Works.mapErrors
    apply Works.bind
    · exact .check (by rw [serves.stagingTime])
    · exact works_uniqueStagingPath serves.staged
  apply Works.ensuring
  · apply Works.bind
    · exact (works_prepareStaged made serves.generationTime apart serves.staged
        serves.temporary).mapErrors
    apply Works.bind
    · apply Works.mapErrors
      apply Works.bind
      · exact works_validateStagedGeneration there decoded valid
      apply Works.bind
      · exact .check (ensure_of rfl)
      apply Works.bind
      · apply Works.bind
        · exact .ask
        apply Works.bind
        · exact .check (ensure_of (by rw [there]; rfl))
        apply Works.bind
        · exact works_touch _
        apply Works.bind
        · exact works_settleGeneration there replaceable
        apply Works.bind
        · exact works_touch _
        apply Works.bind
        · exact .check rfl
        apply Works.bind
        · exact works_readLatestSequence (read _)
        apply Works.bind
        · exact .check next
        exact .pure
      exact works_publishViewHead written short serves.viewTime serves.draft
    apply Works.operate
    have present := OrderedMap.get?_insert files.generations header.generation header.generation
      (some ⟨some headerBytes, histories⟩)
    rw [if_pos rfl] at present
    rw [openGenerationLocked_of present opened named rfl]
    rfl
  · exact .endeavor

/-- The files after a first publish in which every operation works are those that it reaches. -/
theorem runCalls_of_works {input : SnapshotBuildInput} {endpoint : Option String}
    {process : ProcessEnvironment} {order : Enumeration} {loader : GenerationLoader}
    {reached : StoreFiles}
    (works : Works (buildAndPublish store input endpoint process order) .empty [] loader reached []) :
    runCalls store [(.publish input endpoint process order, ⟨[], []⟩)] = reached := by
  have ran : buildAndPublish store input endpoint process order .empty ⟨[], []⟩ =
      (.returned loader, reached, ⟨[], []⟩) := works
  simp only [runCalls, List.foldl_cons, List.foldl_nil, StoreCall.after, ran]

end Publish

section Cleanup

/-- The files without a staged one. -/
def StoreFiles.withoutStaged (files : StoreFiles) (path : String) : StoreFiles :=
  if (files.staged.get? path).isSome then { files with staged := files.staged.erase path } else files

/-- A staged file is removed. -/
theorem works_removeStaged (path : String) (files : StoreFiles) :
    Works (removeStaged path) files lookups () (files.withoutStaged path) lookups := by
  apply Works.bind
  · exact works_touch _
  apply Works.bind
  · exact .ask
  unfold StoreFiles.withoutStaged
  cases (files.staged.get? path).isSome with
  | true => exact .endeavor
  | false => exact .pure

/-- The files without a generation, unless it is retained or has another name than a generation. -/
def StoreFiles.withoutGeneration (retained : List String) (files : StoreFiles)
    (generation : String) : StoreFiles :=
  if generation ∈ retained ∨ (parseHex32 generation).isOk = false then files
  else if (files.generations.get? generation).isSome then
    { files with generations := files.generations.erase generation }
  else files

/-- A generation is removed, unless it is retained or has another name than a generation. -/
theorem works_removeGeneration (retained : List String) (generation : String) (files : StoreFiles) :
    Works (removeGeneration retained generation) files lookups ()
      (files.withoutGeneration retained generation) lookups := by
  apply Works.bind
  · exact works_touch _
  unfold StoreFiles.withoutGeneration
  by_cases kept : generation ∈ retained ∨ (parseHex32 generation).isOk = false
  · rw [if_pos kept, if_pos kept]
    exact .pure
  · rw [if_neg kept, if_neg kept]
    apply Works.bind
    · exact .ask
    cases present : (files.generations.get? generation).isSome with
    | true =>
      apply Works.bind
      · exact .ask
      rw [present]
      exact .endeavor
    | false =>
      apply Works.bind
      · exact .pure
      exact .pure

/-- Removing staged files removes nothing else. -/
theorem foldl_withoutStaged (paths : List String) (files : StoreFiles) :
    let reached := paths.foldl StoreFiles.withoutStaged files
    reached.generations = files.generations ∧ reached.views = files.views ∧
      reached.committed = files.committed := by
  induction paths generalizing files with
  | nil => exact ⟨rfl, rfl, rfl⟩
  | cons first rest ih =>
    obtain ⟨generations, views, committed⟩ := ih (files.withoutStaged first)
    have same : (files.withoutStaged first).generations = files.generations ∧
        (files.withoutStaged first).views = files.views ∧
        (files.withoutStaged first).committed = files.committed := by
      unfold StoreFiles.withoutStaged
      split <;> exact ⟨rfl, rfl, rfl⟩
    exact ⟨generations.trans same.1, views.trans same.2.1, committed.trans same.2.2⟩

/-- Removing generations removes nothing else, and of the generations those that are listed, not
retained and named as generations are. -/
theorem foldl_withoutGeneration (retained names : List String) (files : StoreFiles) :
    let reached := names.foldl (StoreFiles.withoutGeneration retained) files
    reached.views = files.views ∧ reached.committed = files.committed ∧
      ∀ generation, reached.generations.get? generation =
        if generation ∈ names ∧ generation ∉ retained ∧ (parseHex32 generation).isOk = true then none
        else files.generations.get? generation := by
  induction names generalizing files with
  | nil => exact ⟨rfl, rfl, fun generation => by simp⟩
  | cons first rest ih =>
    obtain ⟨views, committed, generations⟩ := ih (files.withoutGeneration retained first)
    have step : (files.withoutGeneration retained first).views = files.views ∧
        (files.withoutGeneration retained first).committed = files.committed ∧
        ∀ generation, (files.withoutGeneration retained first).generations.get? generation =
          if generation = first ∧ generation ∉ retained ∧ (parseHex32 generation).isOk = true then
            none
          else files.generations.get? generation := by
      unfold StoreFiles.withoutGeneration
      split
      · next kept =>
        refine ⟨rfl, rfl, fun generation => (if_neg ?_).symm⟩
        rintro ⟨rfl, apart, named⟩
        rcases kept with kept | kept
        · exact apart kept
        · rw [named] at kept
          cases kept
      · next removable =>
        obtain ⟨apart, named⟩ := not_or.mp removable
        rw [Bool.not_eq_false] at named
        split
        · refine ⟨rfl, rfl, fun generation => ?_⟩
          rw [OrderedMap.get?_erase]
          by_cases same : generation = first
          · subst same
            rw [if_pos rfl, if_pos ⟨rfl, apart, named⟩]
          · rw [if_neg same, if_neg fun condition => same condition.1]
        · next absent =>
          refine ⟨rfl, rfl, fun generation => ?_⟩
          split
          · next condition =>
            rw [condition.1]
            exact Option.not_isSome_iff_eq_none.mp absent
          · rfl
    refine ⟨views.trans step.1, committed.trans step.2.1, fun generation => ?_⟩
    rw [List.foldl_cons, generations, step.2.2]
    by_cases removable : generation ∉ retained ∧ (parseHex32 generation).isOk = true
    · by_cases same : generation = first
      · have listed : generation ∈ first :: rest := List.mem_cons.mpr (.inl same)
        rw [if_pos (And.intro same removable), ite_self, if_pos (And.intro listed removable)]
      · rw [if_neg (fun condition : generation = first ∧ _ => same condition.1)]
        by_cases later : generation ∈ rest
        · rw [if_pos (And.intro later removable),
            if_pos (And.intro (List.mem_cons_of_mem first later) removable)]
        · have unlisted : generation ∉ first :: rest := fun member =>
            (List.mem_cons.mp member).elim same later
          rw [if_neg fun condition => later condition.1,
            if_neg fun condition => unlisted condition.1]
    · rw [if_neg fun condition => removable condition.2,
        if_neg fun condition => removable condition.2,
        if_neg fun condition => removable condition.2]

/-- A cleanup in which every operation works, but for the enumeration of the heads, returns and
removes every generation that it is not told to retain, whatever the heads refer to. -/
theorem cleanup_of_missed_views (retain : List String) (orders : CleanupOrders)
    (files : StoreFiles) :
    let outcome := cleanup store retain orders files ⟨[], [.fails]⟩
    outcome.1 = .returned () ∧ outcome.2.1.views = files.views ∧
      outcome.2.1.committed = files.committed ∧
      ∀ generation, (parseHex32 generation).isOk = true → generation ∉ retain →
        outcome.2.1.generations.get? generation = none := by
  have works : Works (cleanup store retain orders) files [.fails] ()
      ((orders.generations.list ((orders.staged.list files.staged.keys).foldl
        StoreFiles.withoutStaged files).generations.keys).foldl
          (StoreFiles.withoutGeneration (retain ++ [])) ((orders.staged.list files.staged.keys).foldl
            StoreFiles.withoutStaged files)) [] := by
    apply Works.bind
    · exact works_touch _
    apply Works.bind
    · exact .missed
    apply Works.bind
    · rw [List.mapM_nil]
      exact .pure
    apply Works.bind
    · exact .operate rfl
    apply Works.bind
    · exact .forM works_removeStaged
    apply Works.bind
    · exact .operate rfl
    exact .forM (works_removeGeneration _)
  intro outcome
  have ended : outcome = _ := works
  have staged := foldl_withoutStaged (orders.staged.list files.staged.keys) files
  generalize (orders.staged.list files.staged.keys).foldl StoreFiles.withoutStaged files = between
    at ended staged
  obtain ⟨views, committed, generations⟩ := foldl_withoutGeneration (retain ++ [])
    (orders.generations.list between.generations.keys) between
  rw [ended]
  refine ⟨rfl, views.trans staged.2.1, committed.trans staged.2.2, fun generation named apart => ?_⟩
  dsimp only
  rw [generations]
  cases present : between.generations.get? generation with
  | none => exact ite_self none
  | some file =>
    refine if_pos ⟨?_, ?_, named⟩
    · exact (orders.generations.perm _).mem_iff.mpr (OrderedMap.mem_keys.mpr ⟨file, present⟩)
    · rw [List.append_nil]
      exact apart

/-- A head whose generation is gone is not read. -/
theorem readView_of_absent (readsBack : store.headJson.ReadsBack) (sound : files.Sound store)
    {reached : StoreFiles} {viewKey : String} {content : List UInt8}
    (present : files.views.get? viewKey = some content) (views : reached.views = files.views)
    (absent : ∀ head : ViewHeadV1, head.Canonical store →
      reached.generations.get? head.generation = none) :
    readViewOptionalLocked store reached viewKey =
      .error (storeCandidateError "I/O error: No such file or directory (os error 2)") := by
  obtain ⟨head, -, rfl, stored, stands⟩ := sound.heads viewKey content present
  rw [← views] at present
  rw [readView_stored_eq readsBack present stored stands, readPinned, openGenerationLocked,
    absent head stands.canonical]
  rfl

/-- Where no head is read, no view is the latest one. -/
theorem readLatestViewHead_of_unread {viewKey : String} {content : List UInt8}
    (present : files.views.get? viewKey = some content) (order : Enumeration)
    (unread : ∀ viewKey content, files.views.get? viewKey = some content →
      ∃ cause, readViewOptionalLocked store files viewKey = .error cause) :
    readLatestViewHead store order files =
      .error (storeCandidateError "all snapshot view heads are invalid") := by
  have none : readViews ((order.list files.views.keys).map (readViewOptionalLocked store files)) =
      [] := by
    rw [readViews, List.filterMap_map, List.filterMap_eq_nil_iff]
    intro viewKey listed
    obtain ⟨content, present⟩ := mem_enumerated_views.mp listed
    obtain ⟨cause, failed⟩ := unread viewKey content present
    rw [Function.comp_apply, failed]
  have some : ((order.list files.views.keys).map (readViewOptionalLocked store files)).any
      (fun outcome => !outcome.isOk) = true := by
    obtain ⟨cause, failed⟩ := unread viewKey content present
    rw [List.any_eq_true]
    refine ⟨_, List.mem_map_of_mem (mem_enumerated_views.mpr ⟨content, present⟩), ?_⟩
    rw [failed]
    rfl
  rw [readLatestViewHead, latestOf, if_pos ⟨none, some⟩]

/-- A cleanup that cannot enumerate the heads and is told to retain nothing leaves no head readable. -/
theorem cleanup_of_missed_views_unread (readsBack : store.headJson.ReadsBack)
    (sound : files.Sound store) (orders : CleanupOrders) {viewKey : String} {content : List UInt8}
    (present : files.views.get? viewKey = some content) :
    let reached := (cleanup store [] orders files ⟨[], [.fails]⟩).2.1
    readViewOptionalLocked store reached viewKey =
        .error (storeCandidateError "I/O error: No such file or directory (os error 2)") ∧
      ∀ order, readLatestView store order reached =
        .error (storeCandidateError "all snapshot view heads are invalid") := by
  obtain ⟨-, views, -, removed⟩ := @cleanup_of_missed_views store [] orders files
  have absent : ∀ head : ViewHeadV1, head.Canonical store →
      (cleanup store [] orders files ⟨[], [.fails]⟩).2.1.generations.get? head.generation = none :=
    fun head canonical => removed head.generation
      ((Bool.and_eq_true_iff.mp canonical.generation).2) List.not_mem_nil
  refine ⟨readView_of_absent readsBack sound present views absent, fun order => ?_⟩
  have unread := readLatestViewHead_of_unread (views ▸ present) order fun viewKey content there =>
    ⟨_, readView_of_absent readsBack sound (views ▸ there) views absent⟩
  rw [readLatestView, readLatestViewOptional, unread]
  rfl

end Cleanup

end Rsolve
