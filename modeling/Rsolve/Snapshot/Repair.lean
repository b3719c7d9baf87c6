import Rsolve.Snapshot.Runs

/-!
# Repairing a generation

A publish that finds its generation gone or damaged puts its own file in the place. That file says the
same, but the text of its header may differ, and a head pins the text of the header that it was
published with. The repair reaches the heads whose text comes back, and the publish itself fails where
no head can be read any more.
-/
open Checked Framing Ordered Sorting Faults

namespace Rsolve

variable (store : SnapshotStore)

/-! ### Damage and repair -/

/-- A generation is deleted, or its histories are damaged while its header is still there. -/
inductive StoreFiles.Damages (generation : String) (files : StoreFiles) : StoreFiles → Prop
  | deleted : Damages generation files
      { files with generations := files.generations.erase generation }
  | corrupted (database : SnapshotDatabase) (histories : OrderedMap String (List UInt8))
      (present : files.generations.get? generation = some (some database))
      (invalid : (validateGeneration store.basis (some { database with histories })
        store.registryId).isOk = false) :
      Damages generation files { files with
        generations := files.generations.insert generation (some { database with histories }) }

/-- The key of the view that a publish commits. -/
def publishedKey (header : SnapshotHeaderV1) (input : SnapshotBuildInput)
    (endpoint : Option String) : String :=
  viewKeyForParts store header.coverage.state header.coverage.scope header.coverage.freshness
    (endpoint.getD (effectiveEndpoint input))

/-- The files with another file in the place of a generation. -/
def StoreFiles.installed (files : StoreFiles) (generation : String) (file : GenerationFile) :
    StoreFiles :=
  { files with generations := files.generations.insert generation file }

/-- A publish of some content over some files that nothing but the heads of the store refuses. -/
structure Republish (files : StoreFiles) (input : SnapshotBuildInput) (endpoint : Option String)
    (process : ProcessEnvironment) (order : Enumeration) (header : SnapshotHeaderV1)
    (headerBytes : List UInt8) (histories : OrderedMap String (List UInt8)) : Prop where
  /-- The input is made into a generation. -/
  made : prepared store.basis input = .ok (header, headerBytes, histories)
  /-- The generation is valid. -/
  valid : validateGeneration store.basis (some ⟨some headerBytes, histories⟩) store.registryId =
    .ok header
  /-- The publish is told of its endpoints. -/
  admissible : input.Admissible endpoint
  /-- The process has a clock and free names. -/
  serves : ∃ staging generation view, process.Serves files staging generation view
  /-- There is a next sequence number, and the head with that number is short enough. -/
  writable : ∀ latest, readLatestViewHead store order (files.installed header.generation
      (some ⟨some headerBytes, histories⟩)) = .ok latest →
    ∃ sequence content,
      nextRefreshSequence (latest.map fun view => view.1.validation.refreshSequence) =
        .ok sequence ∧
      store.headJson.toVec (viewHead store header headerBytes
        (endpoint.getD (effectiveEndpoint input)) sequence) = .ok content ∧
      content.length ≤ viewHeadLimit

/-- A publish over damaged files repairs them: it returns, the latest view is then a valid generation
that says what the generation said before, and every other head that referred to the generation is
read again. -/
def Repairs (files damaged : StoreFiles) (existing : SnapshotHeaderV1) (input : SnapshotBuildInput)
    (endpoint : Option String) (process : ProcessEnvironment) (order : Enumeration)
    (header : SnapshotHeaderV1) (histories : OrderedMap String (List UInt8)) : Prop :=
  ∃ loader reached left, buildAndPublish store input endpoint process order damaged ⟨[], []⟩ =
      (.returned loader, reached, left) ∧
    (∀ order, ∃ found file, readLatestView store order reached = .ok found ∧
      reached.generations.get? existing.generation = some file ∧
      validateGeneration store.basis file store.registryId = .ok found.header ∧
      sameSemanticGeneration existing found.header = true ∧
      found.database.histories = histories) ∧
    ∀ viewKey head loader, readViewOptionalLocked store files viewKey = .ok (some (head, loader)) →
      head.generation = existing.generation → viewKey ≠ publishedKey store header input endpoint →
      ∃ found, readViewOptionalLocked store reached viewKey = .ok (some (head, found))

/-! ### What a republish needs -/

/-- A republish can follow the heads of the store, and it brings back the text that the other heads
of the generation pin. -/
structure Repairable (files : StoreFiles) (input : SnapshotBuildInput) (endpoint : Option String)
    (header : SnapshotHeaderV1) (headerBytes : List UInt8) : Prop where
  /-- Every head of the generation under another key pins the text of the republished header. -/
  pinned : ∀ viewKey head loader,
    readViewOptionalLocked store files viewKey = .ok (some (head, loader)) →
    head.generation = header.generation → viewKey ≠ publishedKey store header input endpoint →
    store.basis.hexDigest headerBytes = head.headerSha256
  /-- There is no head at all, or there is one of another generation that is read, or one of the
  generation that agrees with the republished header. -/
  followed : files.views.keys = [] ∨ ∃ viewKey head, readHead store files viewKey = .ok (some head) ∧
    (head.generation ≠ header.generation ∧
        (∃ loader, readViewOptionalLocked store files viewKey = .ok (some (head, loader))) ∨
      head.generation = header.generation ∧ head.Agrees store header headerBytes)

variable {store}

/-! ### What damage leaves -/

section Damage

variable {files damaged : StoreFiles} {generation : String} {file : GenerationFile}
  {existing header : SnapshotHeaderV1} {headerBytes : List UInt8}
  {histories : OrderedMap String (List UInt8)}

/-- Damage to a generation changes nothing else. -/
theorem StoreFiles.Damages.unchanged (damages : files.Damages store generation damaged) :
    damaged.views = files.views ∧ damaged.staged = files.staged ∧ damaged.drafts = files.drafts ∧
      ∀ name ≠ generation, damaged.generations.get? name = files.generations.get? name := by
  cases damages with
  | deleted =>
    refine ⟨rfl, rfl, rfl, fun name differs => ?_⟩
    rw [OrderedMap.get?_erase, if_neg differs]
  | corrupted =>
    refine ⟨rfl, rfl, rfl, fun name differs => ?_⟩
    rw [OrderedMap.get?_insert, if_neg differs]

/-- A damaged generation is replaced by one that says the same. -/
theorem StoreFiles.Damages.replaceable (damages : files.Damages store header.generation damaged)
    (present : files.generations.get? header.generation = some file)
    (whole : validateGeneration store.basis file store.registryId = .ok existing)
    (same : sameSemanticGeneration existing header = true) : damaged.Replaceable store header := by
  cases damages with
  | deleted =>
    refine .inl ?_
    rw [OrderedMap.get?_erase, if_pos rfl]
  | corrupted database histories there invalid =>
    obtain rfl : file = some database := Option.some.inj (present.symm.trans there)
    obtain ⟨_, bytes, isSome, stored, decoded, -⟩ := validateGeneration_eq_ok whole
    obtain rfl := Option.some.inj isSome
    obtain ⟨written, -⟩ := decodeHeader_eq_ok decoded
    have short : bytes.length ≤ headerLimit := by
      simp only [encodeHeader, bind_eq_ok, ensure_eq_ok, pure, Except.pure,
        Except.ok.injEq] at written
      obtain ⟨_, -, _, short, rfl⟩ := written
      exact short
    refine .inr (.inr ⟨existing, ?_, same, ?_⟩)
    · simp only [existingHeader, OrderedMap.get?_insert, if_true, Option.getD_some,
        readGenerationHeader, openDatabase, SnapshotDatabase.headerBytes, stored, ok_bind,
        ensure_of short]
      change (decodeHeader store.basis bytes).toOption = some existing
      rw [decoded]
      rfl
    · simpa only [isValidGeneration, OrderedMap.get?_insert, if_true, Option.getD_some] using invalid

/-- A head that agrees with a header agrees with another that means the same when it pins its
text. -/
theorem ViewHeadV1.Agrees.same {head : ViewHeadV1} {bytes : List UInt8}
    (agrees : head.Agrees store existing bytes)
    (same : sameSemanticGeneration existing header = true) :
    head.Agrees store header headerBytes ↔
      store.basis.hexDigest headerBytes = head.headerSha256 := by
  obtain ⟨coverage, compatibility, parser, normalization⟩ := sameSemanticGeneration_agrees same
  obtain ⟨-, states, scopes, freshnesses, compatibilities, parsers, normalizations⟩ := agrees
  refine ⟨And.left, fun pins => ⟨pins, ?_, ?_, ?_, ?_, ?_, ?_⟩⟩
  · rw [← coverage, states]
  · rw [← coverage, scopes]
  · rw [← coverage, freshnesses]
  · rw [← compatibility, compatibilities]
  · rw [← parser, parsers]
  · rw [← normalization, normalizations]

/-- After a repair a head is read when it is one of another generation that was read, or one of the
generation that agrees with its header. -/
theorem readView_repaired {reached : StoreFiles} {viewKey : String} {head : ViewHeadV1}
    (damages : files.Damages store header.generation damaged)
    (valid : validateGeneration store.basis (some ⟨some headerBytes, histories⟩) store.registryId =
      .ok header)
    (views : reached.views.get? viewKey = files.views.get? viewKey)
    (generations : reached.generations = damaged.generations.insert header.generation
      (some ⟨some headerBytes, histories⟩)) :
    (∃ loader, readViewOptionalLocked store reached viewKey = .ok (some (head, loader))) ↔
      readHead store files viewKey = .ok (some head) ∧
      (head.generation ≠ header.generation ∧
          (∃ loader, readViewOptionalLocked store files viewKey = .ok (some (head, loader))) ∨
        head.generation = header.generation ∧ head.Agrees store header headerBytes) := by
  simp only [readView_eq_ok, readHead_congr views]
  by_cases same : head.generation = header.generation
  · obtain ⟨database, bytes, isSome, stored, decoded, named, -, opened⟩ :=
      validateGeneration_eq_ok valid
    obtain rfl := Option.some.inj isSome
    obtain rfl := Option.some.inj stored
    have present : reached.generations.get? header.generation =
        some (some ⟨some headerBytes, histories⟩) := by
      rw [generations, OrderedMap.get?_insert, if_pos rfl]
    have opens := openGenerationLocked_of present opened named rfl
    have encoded := (decodeHeader_eq_ok decoded).1
    simp only [opens, Except.ok.injEq, same, ne_eq, not_true_eq_false, false_and, true_and, false_or]
    constructor
    · rintro ⟨loader, reads, rfl, found, written, agrees⟩
      obtain rfl := Except.ok.inj (encoded.symm.trans written)
      exact ⟨reads, agrees⟩
    · rintro ⟨reads, agrees⟩
      exact ⟨_, reads, rfl, headerBytes, encoded, agrees⟩
  · have untouched : reached.generations.get? head.generation =
        files.generations.get? head.generation := by
      rw [generations, OrderedMap.get?_insert, if_neg same, damages.unchanged.2.2.2 _ same]
    simp only [openGeneration_congr untouched, same, ne_eq, not_false_eq_true, true_and, false_and,
      or_false]
    tauto

/-- In the repaired files the same heads are read. -/
theorem readView_installed {viewKey : String} {head : ViewHeadV1}
    (valid : validateGeneration store.basis (some ⟨some headerBytes, histories⟩) store.registryId =
      .ok header) :
    (∃ loader, readViewOptionalLocked store (files.installed header.generation
        (some ⟨some headerBytes, histories⟩)) viewKey = .ok (some (head, loader))) ↔
      readHead store files viewKey = .ok (some head) ∧
      (head.generation ≠ header.generation ∧
          (∃ loader, readViewOptionalLocked store files viewKey = .ok (some (head, loader))) ∨
        head.generation = header.generation ∧ head.Agrees store header headerBytes) := by
  have erased : files.Damages store header.generation
      { files with generations := files.generations.erase header.generation } := .deleted
  exact readView_repaired erased valid rfl (OrderedMap.insert_erase _ _ _).symm

end Damage

/-! ### The republish -/

section Republish

variable {files damaged : StoreFiles} {file : GenerationFile} {existing header : SnapshotHeaderV1}
  {input : SnapshotBuildInput} {endpoint : Option String} {process : ProcessEnvironment}
  {order : Enumeration} {headerBytes : List UInt8} {histories : OrderedMap String (List UInt8)}

/-- Where a publish reads the heads, it reads them as in the repaired files. -/
theorem readLatest_repaired (damages : files.Damages store header.generation damaged)
    (file : GenerationFile) (staged : OrderedMap String GenerationFile) :
    readLatestViewHead store order { damaged with
        staged, generations := damaged.generations.insert header.generation file } =
      readLatestViewHead store order (files.installed header.generation file) := by
  obtain ⟨views, -, -, others⟩ := damages.unchanged
  have generations : ∀ name, (damaged.generations.insert header.generation file).get? name =
      (files.generations.insert header.generation file).get? name := by
    intro name
    rw [OrderedMap.get?_insert, OrderedMap.get?_insert]
    split
    · rfl
    · next differs => exact others name differs
  have read : ∀ viewKey, readViewOptionalLocked store { damaged with
        staged, generations := damaged.generations.insert header.generation file } viewKey =
      readViewOptionalLocked store (files.installed header.generation file) viewKey := by
    intro viewKey
    simp only [readViewOptionalLocked, openGenerationLocked, StoreFiles.installed, views,
      generations]
  unfold readLatestViewHead
  rw [List.map_congr_left fun viewKey _ => read viewKey, views]
  rfl

/-- The republish follows the heads of the store when some head is read in the repaired files, or
there is none. -/
theorem followed_iff
    (valid : validateGeneration store.basis (some ⟨some headerBytes, histories⟩) store.registryId =
      .ok header) :
    (∃ latest, readLatestViewHead store order (files.installed header.generation
        (some ⟨some headerBytes, histories⟩)) = .ok latest) ↔
      files.views.keys = [] ∨ ∃ viewKey head, readHead store files viewKey = .ok (some head) ∧
        (head.generation ≠ header.generation ∧
            (∃ loader, readViewOptionalLocked store files viewKey = .ok (some (head, loader))) ∨
          head.generation = header.generation ∧ head.Agrees store header headerBytes) := by
  unfold readLatestViewHead
  rw [latestOf_isOk]
  simp only [← readView_installed valid]
  constructor
  · rintro (fine | ⟨⟨head, loader⟩, member⟩)
    · by_cases none : files.views.keys = []
      · exact .inl none
      · obtain ⟨viewKey, member⟩ := List.exists_mem_of_ne_nil _ none
        have listed : viewKey ∈ order.list files.views.keys := (order.perm _).mem_iff.mpr member
        obtain ⟨content, present⟩ := mem_enumerated_views.mp listed
        have read := fine _ (List.mem_map_of_mem listed)
        obtain ⟨view, found⟩ := exists_of_isOk read
        cases view with
        | none => exact absurd found (readView_ne_none present)
        | some view => exact .inr ⟨viewKey, view.1, view.2, found⟩
    · obtain ⟨viewKey, read⟩ := mem_readViews.mp member
      exact .inr ⟨viewKey, head, loader, read⟩
  · rintro (none | ⟨viewKey, head, loader, read⟩)
    · refine .inl fun outcome member => ?_
      obtain ⟨viewKey, listed, -⟩ := List.mem_map.mp member
      have inside := (order.perm _).mem_iff.mp listed
      change viewKey ∈ files.views.keys at inside
      rw [none] at inside
      cases inside
    · exact .inr ⟨(head, loader), mem_readViews.mpr ⟨viewKey, read⟩⟩

/-- The sequence number of the latest view is not read where no head can be read. -/
theorem raises_readLatestSequence {cause : CandidateLoadError}
    (unread : readLatestViewHead store order files = .error cause) :
    Raises (readLatestSequence store order) files [] (.invalid cause.text) files [] := by
  refine (Works.operate rfl).bind_raises (works_lookViews.bind_raises (Raises.bind (.check ?_)))
  rw [← readLatestViewHead, unread]
  rfl

/-- A publish in which every operation works fails where no head can be read. -/
theorem raises_buildAndPublish (endpoint : Option String) {staging generation view : Nat} {cause : CandidateLoadError}
    (made : prepared store.basis input = .ok (header, headerBytes, histories))
    (valid : validateGeneration store.basis (some ⟨some headerBytes, histories⟩) store.registryId =
      .ok header)
    (serves : process.Serves files staging generation view)
    (replaceable : files.Replaceable store header)
    (unread : ∀ staged, readLatestViewHead store order { files with
      staged, generations := files.generations.insert header.generation
        (some ⟨some headerBytes, histories⟩) } = .error cause) :
    ∃ reached, Raises (buildAndPublish store input endpoint process order) files []
      (.store (.invalid cause.text)) reached [] := by
  obtain ⟨database, bytes, same, stored, decoded, named, -⟩ := validateGeneration_eq_ok valid
  obtain rfl := Option.some.inj same
  obtain rfl := Option.some.inj stored
  have apart := stagedPath_ne_temporaryPath process staging generation
  have there := @get?_stagedAfter files.staged _ _ (some ⟨some headerBytes, histories⟩) apart
  constructor
  apply Works.bind_raises
  · exact works_touch _
  apply Works.bind_raises
  · apply Works.mapErrors
    apply Works.bind
    · exact .check (by rw [serves.stagingTime])
    · exact works_uniqueStagingPath serves.staged
  apply Raises.ensuring
  · apply Works.bind_raises
    · exact (works_prepareStaged made serves.generationTime apart serves.staged
        serves.temporary).mapErrors
    apply Raises.bind
    apply Raises.mapErrors
    apply Works.bind_raises
    · exact works_validateStagedGeneration there decoded valid
    apply Works.bind_raises
    · exact .check (ensure_of rfl)
    apply Raises.bind
    apply Works.bind_raises
    · exact .ask
    apply Works.bind_raises
    · exact .check (ensure_of (by rw [there]; rfl))
    apply Works.bind_raises
    · exact works_touch _
    apply Works.bind_raises
    · exact works_settleGeneration there replaceable
    apply Works.bind_raises
    · exact works_touch _
    apply Works.bind_raises
    · exact .check rfl
    apply Raises.bind
    exact raises_readLatestSequence (unread _)
  · exact .endeavor

/-- The next sequence number is not zero, and it is above that of the latest view. -/
theorem nextRefreshSequence_follows {latest : Option View} {sequence : Nat}
    (next : nextRefreshSequence (latest.map fun view => view.1.validation.refreshSequence) =
      .ok sequence) :
    sequence ≠ 0 ∧ ∀ last, latest = some last → last.1.validation.refreshSequence < sequence := by
  obtain ⟨numbered, above⟩ := nextRefreshSequence_above next
  exact ⟨numbered, fun last given => above _ (by rw [given]; rfl)⟩

/-- A published head. -/
structure Installed (store : SnapshotStore) (files damaged reached : StoreFiles)
    (header : SnapshotHeaderV1) (headerBytes : List UInt8)
    (histories : OrderedMap String (List UInt8)) (head : ViewHeadV1) (content : List UInt8) :
    Prop where
  views : reached.views = files.views.insert head.viewKey content
  generations : reached.generations = damaged.generations.insert header.generation
    (some ⟨some headerBytes, histories⟩)
  stored : head.Stored store content
  stands : head.Stands store reached
  named : head.generation = header.generation

/-- Names are free where the same files are staged. -/
theorem ProcessEnvironment.Serves.congr {staging generation view : Nat}
    (serves : process.Serves files staging generation view) (staged : damaged.staged = files.staged)
    (drafts : damaged.drafts = files.drafts) : process.Serves damaged staging generation view :=
  { serves with
    staged := staged ▸ serves.staged
    temporary := staged ▸ serves.temporary
    draft := drafts ▸ serves.draft }

/-- A republish that can follow the heads returns and installs its generation and its head. -/
theorem Republish.installs
    (republish : Republish store files input endpoint process order header headerBytes histories)
    (damages : files.Damages store header.generation damaged)
    (present : files.generations.get? header.generation = some file)
    (whole : validateGeneration store.basis file store.registryId = .ok existing)
    (same : sameSemanticGeneration existing header = true) {latest : Option View}
    (read : readLatestViewHead store order (files.installed header.generation
      (some ⟨some headerBytes, histories⟩)) = .ok latest) :
    ∃ loader reached left sequence content,
      buildAndPublish store input endpoint process order damaged ⟨[], []⟩ =
        (.returned loader, reached, left) ∧
      nextRefreshSequence (latest.map fun view => view.1.validation.refreshSequence) =
        .ok sequence ∧
      Installed store files damaged reached header headerBytes histories (viewHead store header
        headerBytes (endpoint.getD (effectiveEndpoint input)) sequence) content := by
  obtain ⟨staging, generation, view, serves⟩ := republish.serves
  obtain ⟨sequence, content, next, written, short⟩ := republish.writable latest read
  obtain ⟨views, staged, drafts, -⟩ := damages.unchanged
  have works := works_buildAndPublish republish.made republish.valid (serves.congr staged drafts)
    (damages.replaceable present whole same)
    (fun staged => (readLatest_repaired damages _ staged).trans read) next written short
  refine ⟨_, _, _, sequence, content, works, next, congrArg (OrderedMap.insert · _ _) views, rfl,
    ⟨written, short⟩, ?_, rfl⟩
  obtain ⟨_, bytes, isSome, stored, decoded, -⟩ := validateGeneration_eq_ok republish.valid
  obtain rfl := Option.some.inj isSome
  obtain rfl := Option.some.inj stored
  obtain ⟨encoded, checked⟩ := decodeHeader_eq_ok decoded
  refine viewHead_stands
    (Settled.pins ⟨_, header, ?_, republish.valid, rfl, encoded, rfl, rfl, rfl, rfl⟩ _ _)
    (viewable_of_validateHeader checked)
    (prepared_sources republish.made republish.admissible.sources) republish.admissible.filled
    (nextRefreshSequence_follows next).1
  exact (OrderedMap.get?_insert _ _ _ _).trans (if_pos rfl)

section Installed

variable {reached : StoreFiles} {head : ViewHeadV1} {content : List UInt8}

/-- Under another key than that of the published head, the same heads are read as in the repaired
files. -/
theorem Installed.others
    (installed : Installed store files damaged reached header headerBytes histories head content)
    (damages : files.Damages store header.generation damaged)
    (valid : validateGeneration store.basis (some ⟨some headerBytes, histories⟩) store.registryId =
      .ok header) {viewKey : String} (differs : viewKey ≠ head.viewKey) (other : ViewHeadV1) :
    (∃ loader, readViewOptionalLocked store reached viewKey = .ok (some (other, loader))) ↔
      readHead store files viewKey = .ok (some other) ∧
      (other.generation ≠ header.generation ∧
          (∃ loader, readViewOptionalLocked store files viewKey = .ok (some (other, loader))) ∨
        other.generation = header.generation ∧ other.Agrees store header headerBytes) := by
  refine readView_repaired damages valid ?_ installed.generations
  rw [installed.views, OrderedMap.get?_insert, if_neg differs]

/-- The latest view is that of the published head. -/
theorem Installed.latest (readsBack : store.headJson.ReadsBack)
    (installed : Installed store files damaged reached header headerBytes histories head content)
    (damages : files.Damages store header.generation damaged)
    (valid : validateGeneration store.basis (some ⟨some headerBytes, histories⟩) store.registryId =
      .ok header) {latest : Option View}
    (read : readLatestViewHead store order (files.installed header.generation
      (some ⟨some headerBytes, histories⟩)) = .ok latest)
    (above : ∀ last, latest = some last →
      last.1.validation.refreshSequence < head.validation.refreshSequence) (order : Enumeration) :
    readLatestViewHead store order reached =
      .ok (some (head, ⟨⟨some headerBytes, histories⟩, header⟩)) := by
  have present : reached.views.get? head.viewKey = some content := by
    rw [installed.views, OrderedMap.get?_insert, if_pos rfl]
  obtain ⟨loader, file, own, -, -, there, whole⟩ :=
    readView_stored readsBack present installed.stored installed.stands
  have filed : reached.generations.get? header.generation =
      some (some ⟨some headerBytes, histories⟩) := by
    rw [installed.generations, OrderedMap.get?_insert, if_pos rfl]
  obtain ⟨-, opens, -⟩ := readView_eq_ok.mp own
  obtain ⟨database, _, isSome, -, -, registered, -, opened⟩ := validateGeneration_eq_ok valid
  obtain rfl := Option.some.inj isSome
  rw [installed.named, openGenerationLocked_of filed opened registered rfl] at opens
  obtain rfl := Except.ok.inj opens
  refine latestOf_eq_of_highest (mem_readViews.mpr ⟨_, own⟩) ?_
  rintro ⟨other, found⟩ member
  obtain ⟨viewKey, readOther⟩ := mem_readViews.mp member
  by_cases same : viewKey = head.viewKey
  · rw [same, own] at readOther
    exact .inl (Option.some.inj (Except.ok.inj readOther)).symm
  · -- The other head is read in the repaired files too, where the publish looked for the latest one.
    obtain ⟨before, readBefore⟩ := (readView_installed valid).mpr
      ((installed.others damages valid same other).mp ⟨found, readOther⟩)
    obtain ⟨last, known, below⟩ := exists_latest_of_latestOf read
      (mem_readViews.mpr ⟨viewKey, readBefore⟩)
    exact .inr (Nat.lt_of_le_of_lt below (above last known))

end Installed

end Republish

/-- A republish repairs a damaged generation exactly when the other heads of the generation pin the
text of the republished header, and there is a head to follow or no head at all. -/
theorem repairs_iff (store : SnapshotStore) (readsBack : store.headJson.ReadsBack)
    (files damaged : StoreFiles) (file : GenerationFile) (existing header : SnapshotHeaderV1)
    (input : SnapshotBuildInput) (endpoint : Option String) (process : ProcessEnvironment)
    (order : Enumeration) (headerBytes : List UInt8) (histories : OrderedMap String (List UInt8))
    (present : files.generations.get? existing.generation = some file)
    (whole : validateGeneration store.basis file store.registryId = .ok existing)
    (damages : files.Damages store existing.generation damaged)
    (republish : Republish store files input endpoint process order header headerBytes histories)
    (same : sameSemanticGeneration existing header = true) :
    Repairs store files damaged existing input endpoint process order header histories ↔
      Repairable store files input endpoint header headerBytes := by
  have named := sameSemanticGeneration_generation same
  rw [named] at present damages
  constructor
  · rintro ⟨loader, reached, left, returned, -, again⟩
    have followed : ∃ latest, readLatestViewHead store order (files.installed header.generation
        (some ⟨some headerBytes, histories⟩)) = .ok latest := by
      cases read : readLatestViewHead store order (files.installed header.generation
          (some ⟨some headerBytes, histories⟩)) with
      | ok latest => exact ⟨latest, rfl⟩
      | error cause =>
        obtain ⟨_, _, _, serves⟩ := republish.serves
        obtain ⟨views, staged, drafts, -⟩ := damages.unchanged
        obtain ⟨_, raises⟩ := raises_buildAndPublish endpoint republish.made
          republish.valid (serves.congr staged drafts)
          (damages.replaceable present whole same)
          fun staged => (readLatest_repaired damages _ staged).trans read
        have ending := congrArg Prod.fst (returned.symm.trans raises)
        cases ending
    refine ⟨fun viewKey head found read refers differs => ?_,
      (followed_iff republish.valid).mp followed⟩
    obtain ⟨latest, read⟩ := followed
    obtain ⟨_, other, _, _, _, returnedOther, -, installed⟩ :=
      republish.installs damages present whole same read
    obtain rfl : other = reached :=
      congrArg (fun outcome => outcome.2.1) (returnedOther.symm.trans returned)
    obtain ⟨-, ⟨apart, -⟩ | ⟨-, agrees⟩⟩ := (installed.others damages republish.valid differs
      head).mp (again viewKey head found ‹_› (refers.trans named.symm) differs)
    · exact absurd refers apart
    · exact agrees.1
  · intro repairable
    obtain ⟨latest, read⟩ := (followed_iff republish.valid).mpr repairable.followed
    obtain ⟨loader, reached, left, sequence, content, returned, next, installed⟩ :=
      republish.installs damages present whole same read
    refine ⟨loader, reached, left, returned, fun order => ?_, ?_⟩
    · have last := installed.latest readsBack damages republish.valid read
        (nextRefreshSequence_follows next).2 order
      refine ⟨⟨⟨some headerBytes, histories⟩, header⟩, some ⟨some headerBytes, histories⟩, ?_, ?_,
        republish.valid, same, rfl⟩
      · rw [readLatestView, readLatestViewOptional, last]
        rfl
      · rw [installed.generations, named, OrderedMap.get?_insert, if_pos rfl]
    · intro viewKey head found read refers differs
      refine (installed.others damages republish.valid differs head).mpr ?_
      obtain ⟨reads, opens, bytes, encoded, agrees⟩ := readView_eq_ok.mp read
      refine ⟨reads, .inr ⟨refers.trans named, ?_⟩⟩
      obtain ⟨database, _, isSome, -, -, registered, -, opened⟩ := validateGeneration_eq_ok whole
      subst isSome
      rw [refers, named, openGenerationLocked_of present opened registered named] at opens
      obtain rfl := Except.ok.inj opens
      exact (agrees.same same).mpr
        (repairable.pinned viewKey head _ read (refers.trans named) differs)

namespace Small

/-- The head of a second publish of the first snapshot. -/
def repairedHead : ViewHeadV1 :=
  { snapshotHead with validation := { snapshotHead.validation with refreshSequence := 2 } }

/-- A store of the registry that writes the heads of two publishes. -/
def repairStore : SnapshotStore :=
  { snapshotStore with
    headJson := formatOf [(snapshotHead, headText snapshotHead),
      (repairedHead, headText repairedHead)] }

/-- The files of the first publish without their generation. -/
def deletedFiles : StoreFiles :=
  { snapshotFiles with generations := snapshotFiles.generations.erase generationDigest }

/-- The only head of these files. -/
theorem views_snapshotFiles {viewKey : String} {content : List UInt8}
    (present : snapshotFiles.views.get? viewKey = some content) :
    viewKey = viewDigest ∧ content = headText snapshotHead := by
  change (OrderedMap.empty.insert viewDigest (headText snapshotHead)).get? viewKey = _ at present
  rw [OrderedMap.get?_insert] at present
  split at present
  · next same => exact ⟨same, (Option.some.inj present).symm⟩
  · cases present

/-- The text of the header of the later publish is short. -/
theorem headerText_later_short : (headerText (snapshotHeader laterTime)).length ≤ headerLimit := by
  simp only [headerText, snapshotHeader, sourceText, object_length, array_length, member_length,
    quoted_length, number_length, List.map_cons, List.map_nil]
  decide

/-- The texts of the headers of both publishes differ. -/
theorem headerTexts_apart :
    headerText (snapshotHeader publishTime) ≠ headerText (snapshotHeader laterTime) := by
  simp only [headerText, snapshotHeader, object, member, quoted, number, textBytes_eq]
  decide +kernel

/-- The digest of the header of the later publish. -/
theorem snapshotDigest_later :
    snapshotDigest (headerText (snapshotHeader laterTime)) = digestOf laterHeaderDigest := by
  rw [snapshotDigest, if_neg (headerText_ne_parts _ (by decide)),
    if_neg (headerText_ne_parts _ (by decide)),
    if_neg (headerText_ne_parts _ (by decide)), if_neg headerTexts_apart.symm, if_pos rfl]

/-- The library of the store writes the header of the later publish. -/
theorem headerJson_later : snapshotStore.basis.headerJson.toVec (snapshotHeader laterTime) =
      .ok (headerText (snapshotHeader laterTime)) ∧
    snapshotStore.basis.headerJson.fromSlice (headerText (snapshotHeader laterTime)) =
      .ok (snapshotHeader laterTime) := by
  have apart : snapshotHeader publishTime ≠ snapshotHeader laterTime := fun same =>
    headerTexts_apart (congrArg headerText same)
  simp only [snapshotStore]
  exact formatOf_second apart headerTexts_apart []

/-- What is made of the later snapshot. -/
theorem prepared_later : prepared snapshotStore.basis (snapshotInput laterTime) =
    .ok (snapshotHeader laterTime, headerText (snapshotHeader laterTime), .empty) := by
  refine prepared_of_parts ?_ (generationId_snapshot laterTime) headerJson_later.1
    headerText_later_short
  rw [prepare_snapshot]
  rfl

/-- The header of the later snapshot is valid. -/
theorem validateHeader_later :
    validateHeader snapshotStore.basis (snapshotHeader laterTime) = .ok () :=
  validateHeader_at validateHeader_snapshot (by decide) (by decide)

/-- The generation of the later snapshot is valid. -/
theorem validateGeneration_later : validateGeneration snapshotStore.basis
    (some ⟨some (headerText (snapshotHeader laterTime)), .empty⟩) snapshotStore.registryId =
      .ok (snapshotHeader laterTime) :=
  validateGeneration_of
    (decodeHeader_of headerJson_later.2 headerJson_later.1 headerText_later_short
      validateHeader_later)
    rfl ⟨rfl, rfl, rfl, rfl⟩ historyManifest_snapshot.symm (generationId_snapshot laterTime).symm

/-- The head of the first publish stands. -/
theorem snapshotHead_stands : snapshotHead.Stands snapshotStore snapshotFiles := by
  obtain ⟨present, stored⟩ := snapshotHead_stored
  obtain ⟨head, -, -, storedHead, stands⟩ := snapshotFiles_sound.heads _ _ present
  obtain rfl := stored.unique snapshotStore_readsBack storedHead
  exact stands

/-- The process can publish again. -/
theorem process_serves : process.Serves snapshotFiles 1 2 3 where
  stagingTime := rfl
  generationTime := rfl
  viewTime := rfl
  staged := (OrderedMap.get?_erase _ _ _).trans (if_pos rfl)
  temporary := by
    have apart := stagedPath_ne_temporaryPath process 1 2
    change (((stagedAfter .empty (temporaryPath process 2) (stagedPath process 1) _).erase
      (stagedPath process 1)).erase (stagedPath process 1)).get? (temporaryPath process 2) = none
    rw [OrderedMap.get?_erase, if_neg apart.symm, OrderedMap.get?_erase, if_neg apart.symm,
      stagedAfter, OrderedMap.get?_erase, if_pos rfl]
  draft := (OrderedMap.get?_erase _ _ _).trans (if_pos rfl)

/-- The generation of the first publish is there. -/
theorem snapshotFiles_present : snapshotFiles.generations.get? generationDigest =
    some (some ⟨some (headerText (snapshotHeader publishTime)), .empty⟩) :=
  (OrderedMap.get?_insert .empty _ _ _).trans (if_pos rfl)

/-- Both snapshots mean the same. -/
theorem sameSemantic_later :
    sameSemanticGeneration (snapshotHeader publishTime) (snapshotHeader laterTime) = true := by
  decide

/-- The first snapshot means what it means. -/
theorem sameSemantic_again :
    sameSemanticGeneration (snapshotHeader publishTime) (snapshotHeader publishTime) = true := by
  decide

/-- No head is read once the later snapshot is in the place of the first one. -/
theorem readLatest_later (order : Enumeration) (latest : Option View) :
    readLatestViewHead snapshotStore order (snapshotFiles.installed generationDigest
      (some ⟨some (headerText (snapshotHeader laterTime)), .empty⟩)) ≠ .ok latest := by
  intro read
  have spelled : hex (digestOf laterHeaderDigest).toList = laterHeaderDigest := by
    decide
  have hashed : snapshotStore.basis.sha256 (headerText (snapshotHeader laterTime)) =
      digestOf laterHeaderDigest := by
    simp only [snapshotStore, snapshotDigest_later]
  have pins : snapshotStore.basis.hexDigest (headerText (snapshotHeader laterTime)) ≠
      headerDigest := by
    rw [hexDigest_of hashed spelled]
    decide
  rcases (followed_iff validateGeneration_later).mp ⟨latest, read⟩ with
    none | ⟨viewKey, head, reads, other⟩
  · cases none
  · have stored : ∃ content, snapshotFiles.views.get? viewKey = some content := by
      cases present : snapshotFiles.views.get? viewKey with
      | some content => exact ⟨content, rfl⟩
      | none => simp [readHead, present, bind_eq_ok, pure, Except.pure] at reads
    obtain ⟨content, present⟩ := stored
    obtain ⟨rfl, rfl⟩ := views_snapshotFiles present
    simp only [readHead, present, bind_eq_ok, ensure_eq_ok, pure, Except.pure, Except.ok.injEq,
      Option.some.injEq] at reads
    obtain ⟨_, -, found, decoded, _, -, _, -, rfl⟩ := reads
    rw [List.take_of_length_le (Nat.le_succ_of_le snapshotHead_stored.2.short),
      decodeViewHead_stored snapshotStore_readsBack snapshotHead_stored.2
        snapshotHead_stands] at decoded
    obtain rfl := Except.ok.inj decoded
    rcases other with ⟨apart, -⟩ | ⟨-, agrees⟩
    · exact apart rfl
    · exact pins agrees.1

/-- The later snapshot can be published over the deleted first one. -/
theorem republish_later : Republish snapshotStore snapshotFiles (snapshotInput laterTime) none process
    byName (snapshotHeader laterTime) (headerText (snapshotHeader laterTime)) .empty where
  made := prepared_later
  valid := validateGeneration_later
  admissible := snapshotInput_admissible laterTime
  serves := ⟨1, 2, 3, process_serves⟩
  writable latest read := absurd read (readLatest_later byName latest)

/-- The library of the store of two publishes reads what it writes. -/
theorem repairStore_readsBack : repairStore.headJson.ReadsBack := by
  refine formatOf_readsBack ?_
  simp only [List.map_cons, List.map_nil, headText, snapshotHead, repairedHead, object, member, quoted,
    number, textBytes_eq]
  decide +kernel

/-- The files with the generation of the first publish put back. -/
def restoredFiles : StoreFiles :=
  snapshotFiles.installed generationDigest
    (some ⟨some (headerText (snapshotHeader publishTime)), .empty⟩)

/-- The header of the first publish is decoded. -/
theorem decodeHeader_snapshot :
    decodeHeader snapshotStore.basis (headerText (snapshotHeader publishTime)) =
      .ok (snapshotHeader publishTime) := by
  obtain ⟨_, bytes, isSome, stored, decoded, -⟩ := validateGeneration_eq_ok validateGeneration_snapshot
  obtain rfl := Option.some.inj isSome
  obtain rfl := Option.some.inj stored
  exact decoded

/-- The head of the first publish stands once its generation was put back. -/
theorem snapshotHead_restored : snapshotHead.Stands repairStore restoredFiles := by
  obtain ⟨encoded, checked⟩ := decodeHeader_eq_ok decodeHeader_snapshot
  have settled : Settled repairStore (snapshotHeader publishTime)
      (headerText (snapshotHeader publishTime)) restoredFiles :=
    ⟨_, _, (OrderedMap.get?_insert _ _ _ _).trans (if_pos rfl), validateGeneration_snapshot, rfl,
      encoded, rfl, rfl, rfl, rfl⟩
  have head : viewHead repairStore (snapshotHeader publishTime)
      (headerText (snapshotHeader publishTime))
      ((none : Option String).getD (effectiveEndpoint (snapshotInput publishTime))) 1 =
        snapshotHead := viewHead_snapshot
  rw [← head]
  exact viewHead_stands (settled.pins _ _) (viewable_of_validateHeader checked)
    (List.cons_ne_nil _ _) (effectiveEndpoint_ne_empty (snapshotInput_admissible publishTime).sources
      (snapshotInput_admissible publishTime).endpoints) Nat.one_ne_zero

/-- The head of the first publish is read once its generation was put back. -/
theorem readView_again : readViewOptionalLocked repairStore restoredFiles viewDigest =
    .ok (some (snapshotHead, ⟨⟨some (headerText (snapshotHeader publishTime)), .empty⟩,
      snapshotHeader publishTime⟩)) := by
  have filed : restoredFiles.views.get? snapshotHead.viewKey = some (headText snapshotHead) :=
    snapshotHead_stored.1
  have stored : snapshotHead.Stored repairStore (headText snapshotHead) :=
    ⟨formatOf_toVec _ _ _, snapshotHead_stored.2.short⟩
  exact readView_stored_of repairStore_readsBack filed stored snapshotHead_restored
    ((OrderedMap.get?_insert _ _ _ _).trans (if_pos rfl)) validateGeneration_snapshot

/-- That head is the latest one. -/
theorem readLatest_again (order : Enumeration) :
    readLatestViewHead repairStore order restoredFiles =
      .ok (some (snapshotHead, ⟨⟨some (headerText (snapshotHeader publishTime)), .empty⟩,
        snapshotHeader publishTime⟩)) := by
  refine latestOf_eq_of_highest (mem_readViews.mpr ⟨_, readView_again⟩) fun other member => .inl ?_
  obtain ⟨viewKey, read⟩ := mem_readViews.mp member
  obtain ⟨content, present⟩ :=
    mem_enumerated_views.mp (mem_views_of_readView order read)
  obtain ⟨rfl, -⟩ := views_snapshotFiles present
  exact Option.some.inj (Except.ok.inj (read.symm.trans readView_again))

/-- The key of the view of the first snapshot. -/
theorem publishedKey_snapshot : publishedKey snapshotStore (snapshotHeader publishTime)
    (snapshotInput publishTime) none = viewDigest := by
  have keyed := congrArg ViewHeadV1.viewKey viewHead_snapshot
  exact keyed

/-- The first snapshot can be published over itself. -/
theorem republish_again : Republish repairStore snapshotFiles (snapshotInput publishTime) none process
    byName (snapshotHeader publishTime) (headerText (snapshotHeader publishTime)) .empty where
  made := prepared_snapshot
  valid := validateGeneration_snapshot
  admissible := snapshotInput_admissible publishTime
  serves := ⟨1, 2, 3, process_serves⟩
  writable latest read := by
    obtain rfl := Except.ok.inj ((readLatest_again byName).symm.trans read)
    have head : viewHead repairStore (snapshotHeader publishTime)
        (headerText (snapshotHeader publishTime))
        ((none : Option String).getD (effectiveEndpoint (snapshotInput publishTime))) 2 =
          repairedHead := by
      rw [repairedHead, ← viewHead_snapshot]
      rfl
    refine ⟨2, headText repairedHead, rfl, ?_, ?_⟩
    · have differs : snapshotHead ≠ repairedHead := fun same =>
        absurd (congrArg (fun head => head.validation.refreshSequence) same) (by decide)
      rw [head]
      simp only [repairStore, formatOf, List.find?_cons, differs, decide_false, decide_true]
    · simp only [headText, repairedHead, snapshotHead, object_length, array_length, member_length,
        quoted_length, number_length, List.map_cons, List.map_nil]
      decide

end Small

/-- A publish of the first snapshot puts its deleted generation back. -/
theorem repairs_deleted : Repairs Small.repairStore Small.snapshotFiles Small.deletedFiles
    (Small.snapshotHeader Small.publishTime) (Small.snapshotInput Small.publishTime) none
    Small.process Small.byName (Small.snapshotHeader Small.publishTime) .empty := by
  refine (repairs_iff Small.repairStore Small.repairStore_readsBack Small.snapshotFiles
    Small.deletedFiles _ (Small.snapshotHeader Small.publishTime) _ _ _ _ _ _ _
    Small.snapshotFiles_present Small.validateGeneration_snapshot .deleted Small.republish_again
    Small.sameSemantic_again).mpr ?_
  have keyed : publishedKey Small.repairStore (Small.snapshotHeader Small.publishTime)
      (Small.snapshotInput Small.publishTime) none = Small.viewDigest :=
    Small.publishedKey_snapshot
  refine ⟨fun viewKey head loader read _ differs => ?_, .inr ⟨Small.viewDigest,
    Small.snapshotHead, ?_⟩⟩
  · obtain ⟨content, present⟩ :=
      mem_enumerated_views.mp (mem_views_of_readView Small.byName read)
    exact absurd ((Small.views_snapshotFiles present).1.trans keyed.symm) differs
  · obtain ⟨reads, opens, bytes, encoded, agrees⟩ := readView_eq_ok.mp Small.readView_again
    obtain rfl := Except.ok.inj
      ((decodeHeader_eq_ok Small.decodeHeader_snapshot).1.symm.trans encoded)
    exact ⟨reads, .inr ⟨rfl, agrees⟩⟩

/-- A publish of the later snapshot over the deleted first one fails. -/
theorem not_repairs_later :
    Republish Small.snapshotStore (runCalls Small.snapshotStore [(Small.snapshotPublish, ⟨[], []⟩)])
        (Small.snapshotInput Small.laterTime) none Small.process Small.byName
        (Small.snapshotHeader Small.laterTime)
        (Small.headerText (Small.snapshotHeader Small.laterTime)) .empty ∧
      sameSemanticGeneration (Small.snapshotHeader Small.publishTime)
        (Small.snapshotHeader Small.laterTime) = true ∧
      ¬ Repairs Small.snapshotStore
        (runCalls Small.snapshotStore [(Small.snapshotPublish, ⟨[], []⟩)]) Small.deletedFiles
        (Small.snapshotHeader Small.publishTime) (Small.snapshotInput Small.laterTime) none
        Small.process Small.byName (Small.snapshotHeader Small.laterTime) .empty := by
  rw [Small.runCalls_snapshotPublish]
  refine ⟨Small.republish_later, Small.sameSemantic_later, ?_⟩
  rintro ⟨loader, reached, left, returned, -⟩
  have damages : Small.snapshotFiles.Damages Small.snapshotStore Small.generationDigest
      Small.deletedFiles := .deleted
  cases read : readLatestViewHead Small.snapshotStore Small.byName (Small.snapshotFiles.installed
      Small.generationDigest
      (some ⟨some (Small.headerText (Small.snapshotHeader Small.laterTime)), .empty⟩)) with
  | ok latest => exact Small.readLatest_later _ latest read
  | error cause =>
    have serves : Small.process.Serves Small.deletedFiles 1 2 3 :=
      Small.process_serves.congr rfl rfl
    obtain ⟨_, raises⟩ := raises_buildAndPublish none Small.prepared_later
      Small.validateGeneration_later serves
      (damages.replaceable Small.snapshotFiles_present Small.validateGeneration_snapshot
        Small.sameSemantic_later) fun staged => (readLatest_repaired damages _ staged).trans read
    have ending := congrArg Prod.fst (returned.symm.trans raises)
    cases ending

end Rsolve
