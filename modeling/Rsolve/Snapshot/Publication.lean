import Rsolve.Snapshot.Keeping

/-!
# What a publish does to the sound files of a store

Until its head is committed, a publish to sound files only adds: it stages files, and it installs a
generation where there was none. Where the generation is already there it is kept, header and all, and
the new head pins the header that is there. Then one operation replaces the head of the view, with the
sequence number after that of the latest view.
-/
open Checked Framing Ordered Sorting Faults

namespace Rsolve

/-- No head differs, and no generation is gone. -/
structure Grows (files reached : StoreFiles) : Prop where
  views : reached.views = files.views
  committed : reached.committed = files.committed
  generations : ∀ name file, files.generations.get? name = some file →
    reached.generations.get? name = some file

/-- One head was committed, and no generation is gone. -/
structure Commits (head : ViewHeadV1) (files reached : StoreFiles) : Prop where
  views : ∃ content, reached.views = files.views.insert head.viewKey content
  committed : reached.committed = head :: files.committed
  generations : ∀ name file, files.generations.get? name = some file →
    reached.generations.get? name = some file

/-- What a publish does: it adds, and it commits at most one head, of a kind. -/
def Publishes (kind : ViewHeadV1 → Prop) (files reached : StoreFiles) : Prop :=
  Grows files reached ∨ ∃ head, kind head ∧ Commits head files reached

/-- Where only the staging directory and the drafts differ, nothing is gone. -/
theorem Aside.grows {files reached : StoreFiles} (aside : Aside files reached) :
    Grows files reached where
  views := aside.views
  committed := aside.committed
  generations := fun _ _ present => by rw [aside.generations]; exact present

variable {store : SnapshotStore}

section Soundness

variable {files reached : StoreFiles} {head : ViewHeadV1}

/-- A head stands as long as no generation is gone. -/
theorem ViewHeadV1.Stands.grows (stands : head.Stands store files)
    (kept : ∀ name file, files.generations.get? name = some file →
      reached.generations.get? name = some file) : head.Stands store reached where
  canonical := stands.canonical
  identified := stands.identified
  keyed := stands.keyed
  pinned := by
    obtain ⟨file, header, bytes, present, rest⟩ := stands.pinned
    exact ⟨file, header, bytes, kept _ _ present, rest⟩

/-- Files stay sound while valid generations are added under their names. -/
theorem StoreFiles.Sound.grows (sound : files.Sound store) (grows : Grows files reached)
    (valid : ∀ name file, reached.generations.get? name = some file →
      ∃ header, validateGeneration store.basis file store.registryId = .ok header ∧
        header.generation = name) : reached.Sound store where
  generations := valid
  heads := by
    rw [grows.views, grows.committed]
    intro viewKey content present
    obtain ⟨head, member, keyed, stored, stands⟩ := sound.heads viewKey content present
    exact ⟨head, member, keyed, stored, stands.grows grows.generations⟩
  latest := by
    rw [grows.views, grows.committed]
    exact sound.latest
  sequences := by
    rw [grows.committed]
    exact sound.sequences

/-- Files stay sound when only the staging directory and the drafts change. -/
theorem StoreFiles.Sound.aside (sound : files.Sound store) (aside : Aside files reached) :
    reached.Sound store :=
  sound.grows aside.grows fun name file present =>
    sound.generations name file (aside.generations ▸ present)

/-- Files stay sound when a head that stands is committed after the others and valid generations are
added under their names. -/
theorem StoreFiles.Sound.commit {content : List UInt8} (sound : files.Sound store)
    (stands : head.Stands store reached)
    (next : ∀ earlier ∈ files.committed,
      earlier.validation.refreshSequence < head.validation.refreshSequence)
    (stored : head.Stored store content)
    (views : reached.views = files.views.insert head.viewKey content)
    (kept : ∀ name file, files.generations.get? name = some file →
      reached.generations.get? name = some file)
    (valid : ∀ name file, reached.generations.get? name = some file →
      ∃ header, validateGeneration store.basis file store.registryId = .ok header ∧
        header.generation = name)
    (committed : reached.committed = head :: files.committed) : reached.Sound store where
  generations := valid
  heads := by
    intro viewKey found present
    rw [views, OrderedMap.get?_insert] at present
    split at present
    · next same =>
      obtain rfl := Option.some.inj present
      exact ⟨head, committed ▸ List.mem_cons_self, same.symm, stored, stands⟩
    · obtain ⟨earlier, member, keyed, storedEarlier, standing⟩ := sound.heads viewKey found present
      exact ⟨earlier, committed ▸ List.mem_cons_of_mem _ member, keyed, storedEarlier,
        standing.grows kept⟩
  latest := by
    rw [committed]
    rintro first ⟨⟩
    refine ⟨content, ?_, stored⟩
    rw [views, OrderedMap.get?_insert, if_pos rfl]
  sequences := by
    rw [committed]
    exact List.pairwise_cons.mpr ⟨next, sound.sequences⟩

/-- The head of a generation that it pins stands on it. -/
theorem viewHead_stands {header : SnapshotHeaderV1} {finalHeader : List UInt8} {endpoint : String}
    {sequence : Nat} (pins : (viewHead store header finalHeader endpoint sequence).Pins store files)
    (viewable : header.Viewable store.basis) (sources : header.sources ≠ []) (filled : endpoint ≠ "")
    (numbered : sequence ≠ 0) :
    (viewHead store header finalHeader endpoint sequence).Stands store files where
  canonical :=
    { format := rfl
      version := rfl
      registry := rfl
      viewKey := isHex32_hexDigest _ _
      generation := viewable.generation
      headerSha256 := isHex32_hexDigest _ _
      state := viewable.state
      scope := viewable.scope
      freshness := viewable.freshness
      compatibilityProfile := viewable.compatibilityProfile
      parserSchema := viewable.parserSchema
      normalizationPolicy := viewable.normalizationPolicy
      refreshSequence := numbered
      validatedAt := viewable.createdAt
      effectiveEndpoint := filled
      sources := fun none => sources (List.map_eq_nil_iff.mp none)
      increasing := by
        have ids : (header.sources.map fun source => (⟨source.id, source.contentSha256,
            source.endpoint⟩ : ViewValidationSourceV1)).map ViewValidationSourceV1.id =
            header.sources.map SourceObservationV1.id := by
          rw [List.map_map]
          rfl
        exact ids ▸ viewable.increasing }
  identified := by
    intro source member
    obtain ⟨observed, inside, rfl⟩ := List.mem_map.mp member
    exact viewable.sources observed inside
  keyed := rfl
  pinned := pins

/-- The header of an input with sources has sources. -/
theorem prepared_sources {basis : SnapshotBasis} {header : SnapshotHeaderV1} {input : SnapshotBuildInput}
    {bytes : List UInt8} {histories : OrderedMap String (List UInt8)}
    (made : prepared basis input = .ok (header, bytes, histories)) (sources : input.sources ≠ []) :
    header.sources ≠ [] := by
  simp only [prepared, prepare, bind_eq_ok, ensure_eq_ok, pure, Except.pure,
    Except.ok.injEq] at made
  obtain ⟨⟨found, encoded⟩, ⟨_, -, _, -, _, -, folded, -, _, -, same⟩, _, -, rest⟩ := made
  obtain ⟨rfl, -⟩ := Prod.mk.inj same
  obtain ⟨rfl, -⟩ := Prod.mk.inj rest
  simp only [ne_eq, List.map_eq_nil_iff]
  intro none
  have sized := (sortBy_perm (fun left right : Nat × SourceObservationV1 =>
    compare left.2.id right.2.id)
    ((input.sources.map (sourceObservation basis)).zipIdx.map Prod.swap)).length_eq
  change (sortedSources basis input).length = _ at sized
  rw [none, List.length_map, List.length_zipIdx, List.length_map] at sized
  exact sources (List.eq_nil_of_length_eq_zero sized.symm)

/-- Sources with endpoints have an effective endpoint. -/
theorem effectiveEndpoint_ne_empty {input : SnapshotBuildInput} (sources : input.sources ≠ [])
    (filled : ∀ source ∈ input.sources, source.endpoint ≠ "") : effectiveEndpoint input ≠ "" := by
  obtain ⟨source, member⟩ := List.exists_mem_of_ne_nil _ sources
  have listed : source.endpoint ∈ sortDedup (input.sources.map SourceInput.endpoint) :=
    mem_sortDedup.mpr (List.mem_map_of_mem member)
  have all : ∀ endpoint ∈ sortDedup (input.sources.map SourceInput.endpoint), endpoint ≠ "" := by
    intro endpoint inside
    obtain ⟨source, member, rfl⟩ := List.mem_map.mp (mem_sortDedup.mp inside)
    exact filled source member
  unfold effectiveEndpoint
  cases endpoints : sortDedup (input.sources.map SourceInput.endpoint) with
  | nil => rw [endpoints] at listed; cases listed
  | cons first rest =>
    rw [endpoints] at all
    have head := all first List.mem_cons_self
    cases rest with
    | nil => rwa [String.intercalate_singleton]
    | cons second rest =>
      rw [String.intercalate_cons_cons]
      simp [head]

/-- What a publish is told of its endpoints: there is a source, every source has an endpoint, and so
has the view when one is given. -/
structure SnapshotBuildInput.Admissible (input : SnapshotBuildInput) (endpoint : Option String) :
    Prop where
  sources : input.sources ≠ []
  endpoints : ∀ source ∈ input.sources, source.endpoint ≠ ""
  given : ∀ text ∈ endpoint, text ≠ ""

/-- The endpoint of a view, given or taken from its sources, is there. -/
theorem SnapshotBuildInput.Admissible.filled {input : SnapshotBuildInput} {endpoint : Option String}
    (admissible : input.Admissible endpoint) : endpoint.getD (effectiveEndpoint input) ≠ "" := by
  cases chosen : endpoint with
  | none => exact effectiveEndpoint_ne_empty admissible.sources admissible.endpoints
  | some text => exact admissible.given text chosen

/-- A head is that of the generation of an input. -/
def ViewHeadV1.IsOf (store : SnapshotStore) (input : SnapshotBuildInput) (head : ViewHeadV1) : Prop :=
  ∃ header bytes histories, prepared store.basis input = .ok (header, bytes, histories) ∧
    head.generation = header.generation

/-- In sound files the latest committed head is displayed. -/
theorem StoreFiles.Sound.displays (sound : files.Sound store) (readsBack : store.headJson.ReadsBack)
    (first : files.committed.head? = some head) :
    ∃ loader, files.Displays store (head, loader) := by
  obtain ⟨content, present, stored⟩ := sound.latest head first
  obtain ⟨found, -, -, storedFound, loader, file, read, -, -, there, valid⟩ :=
    sound.readView readsBack present
  obtain rfl := stored.unique readsBack storedFound
  exact ⟨loader, read, file, _, there, valid⟩

/-- What endures of sound files is all of their generations, and only valid ones are added. -/
theorem StoreFiles.Sound.endures (sound : files.Sound store) (endures : Endures store files reached) :
    (∀ name file, files.generations.get? name = some file →
      reached.generations.get? name = some file) ∧
    ∀ name file, reached.generations.get? name = some file →
      ∃ header, validateGeneration store.basis file store.registryId = .ok header ∧
        header.generation = name := by
  constructor
  · intro name file present
    obtain ⟨header, valid, -⟩ := sound.generations name file present
    exact endures.kept _ _ _ present valid
  · intro name file present
    exact (endures.added name file present).elim (sound.generations name file) id

/-- A head that follows the displayed views of sound files is ready where it pins its generation. -/
theorem StoreFiles.Sound.ready (sound : files.Sound store) (readsBack : store.headJson.ReadsBack)
    {header : SnapshotHeaderV1} {endpoint : String} (sources : header.sources ≠ [])
    (filled : endpoint ≠ "")
    (follows : head.Follows store header endpoint (files.Displays store))
    (pins : head.Pins store reached) :
    head.Stands store reached ∧ ∀ earlier ∈ files.committed,
      earlier.validation.refreshSequence < head.validation.refreshSequence := by
  obtain ⟨⟨finalHeader, sequence, numbered, rfl⟩, viewable, above⟩ := follows
  refine ⟨viewHead_stands pins viewable sources filled numbered, fun earlier member => ?_⟩
  cases listed : files.committed with
  | nil =>
    rw [listed] at member
    cases member
  | cons latest rest =>
    have first : files.committed.head? = some latest := by rw [listed]; rfl
    obtain ⟨loader, displays⟩ := sound.displays readsBack first
    have below := above _ displays
    have ordered := sound.sequences
    rw [listed] at ordered member
    rcases List.mem_cons.mp member with rfl | older
    · exact below
    · exact ((List.pairwise_cons.mp ordered).1 earlier older).trans below

/-- A publish keeps the files sound and commits at most the head of its input. -/
theorem traces_buildAndPublish (readsBack : store.headJson.ReadsBack) {pre : StoreFiles → Prop}
    {input : SnapshotBuildInput} {endpoint : Option String} (admissible : input.Admissible endpoint)
    (process : ProcessEnvironment) (order : Enumeration) :
    Traces (StoreFiles.Sound store) pre (buildAndPublish store input endpoint process order)
      (Publishes (ViewHeadV1.IsOf store input)) (fun _ _ => True) := by
  intro files fates calm sound _
  have placed : Traces (fun _ => True) (Displaying store (files.Displays store))
      (buildAndPublish store input endpoint process order)
      (Placing store (ViewHeadV1.FollowsInput store input (endpoint.getD (effectiveEndpoint input))
        (files.Displays store))) (fun _ _ => True) :=
    placing_buildAndPublish input endpoint process order
  obtain ⟨⟨calmer, -, placing⟩, -⟩ := placed files fates calm trivial fun _ displays => displays
  have outcome : ∀ reached, Placing store (ViewHeadV1.FollowsInput store input
      (endpoint.getD (effectiveEndpoint input)) (files.Displays store)) files reached →
      reached.Sound store ∧ Publishes (ViewHeadV1.IsOf store input) files reached := by
    rintro reached (keeps | ⟨head, places⟩)
    · obtain ⟨kept, valid⟩ := sound.endures keeps.generations
      have grows : Grows files reached := ⟨keeps.views, keeps.committed, kept⟩
      exact ⟨sound.grows grows valid, .inl grows⟩
    · obtain ⟨kept, valid⟩ := sound.endures places.generations
      obtain ⟨content, stored, views⟩ := places.views
      obtain ⟨header, bytes, histories, made, follows⟩ := places.fits
      obtain ⟨stands, next⟩ := sound.ready readsBack (prepared_sources made admissible.sources)
        admissible.filled follows places.pins
      obtain ⟨⟨_, _, -, same⟩, -, -⟩ := follows
      refine ⟨sound.commit stands next stored views kept valid places.committed, .inr ⟨head,
        ⟨header, bytes, histories, made, ?_⟩, ⟨content, views⟩, places.committed, kept⟩⟩
      rw [same]
      rfl
  obtain ⟨later, publishes⟩ := outcome _ placing
  exact ⟨⟨calmer, later, publishes⟩, fun _ _ => trivial⟩

end Soundness

end Rsolve
