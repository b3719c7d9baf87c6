import Rsolve.Snapshot.Runs

/-!
# What the name of a generation determines

The name of a generation is the digest of a row of parts: fixed texts of the header, then the
missing evidence, then the ids of the sources, then the digest of the histories. The two lists stand
one behind the other without their counts, so the parts say what both hold together, and where one
ends and the other begins only when no text can move from one list to the other.
-/
open Checked Framing

namespace Rsolve

/-- The parts of a name that every header has. -/
def SnapshotHeaderV1.fixedParts (header : SnapshotHeaderV1) : List (List UInt8) :=
  [textBytes "rsolve.metadata-generation\x00v1", textBytes header.registryId,
    textBytes (toString header.version.toNat), textBytes (toString header.historyEncoding.toNat),
    textBytes (toString header.normalizationPolicy.toNat),
    textBytes (toString header.compatibilityProfile.toNat),
    textBytes (toString header.parserSchema.toNat), textBytes header.coverage.state,
    textBytes header.coverage.scope, textBytes header.coverage.freshness]

/-- The missing evidence and the source ids in a row. -/
def SnapshotHeaderV1.listed (header : SnapshotHeaderV1) : List String :=
  header.coverage.missingEvidence ++ header.sources.map SourceObservationV1.id

/-- The bytes that `generation_id_from_header` hashes. -/
def SnapshotHeaderV1.generationBytes (header : SnapshotHeaderV1) : List UInt8 :=
  appendParts (header.fixedParts ++ header.listed.map textBytes ++
    [textBytes header.historyManifestSha256])

/-- The name of a generation is the digest of these bytes. -/
theorem generationIdFromHeader_eq (basis : SnapshotBasis) (header : SnapshotHeaderV1) :
    generationIdFromHeader basis header = basis.hexDigest header.generationBytes := by
  simp only [generationIdFromHeader, generationId, SnapshotHeaderV1.generationBytes,
    SnapshotHeaderV1.fixedParts, SnapshotHeaderV1.listed, List.map_append, List.map_map,
    Function.comp_def, List.append_assoc]

/-- What the name of a generation is to identify. -/
structure SnapshotHeaderV1.Agrees (left right : SnapshotHeaderV1) : Prop where
  registryId : left.registryId = right.registryId
  version : left.version = right.version
  historyEncoding : left.historyEncoding = right.historyEncoding
  normalizationPolicy : left.normalizationPolicy = right.normalizationPolicy
  compatibilityProfile : left.compatibilityProfile = right.compatibilityProfile
  parserSchema : left.parserSchema = right.parserSchema
  state : left.coverage.state = right.coverage.state
  scope : left.coverage.scope = right.coverage.scope
  freshness : left.coverage.freshness = right.coverage.freshness
  missingEvidence : left.coverage.missingEvidence = right.coverage.missingEvidence
  sourceIds : left.sources.map SourceObservationV1.id = right.sources.map SourceObservationV1.id
  historyManifest : left.historyManifestSha256 = right.historyManifestSha256

/-- The id of the first source can be read as the last missing evidence. -/
def SnapshotHeaderV1.FirstSourceMoves (header : SnapshotHeaderV1) : Prop :=
  ∃ first ∈ header.sources.head?, ∀ evidence ∈ header.coverage.missingEvidence,
    compare evidence first.id = .lt

/-- The last missing evidence can be read as the id of a first source. -/
def SnapshotHeaderV1.LastEvidenceMoves (basis : SnapshotBasis) (header : SnapshotHeaderV1) : Prop :=
  ∃ last ∈ header.coverage.missingEvidence.getLast?,
    (∃ source, SourceObservationV1.validate basis source = .ok () ∧ source.id = last) ∧
      (∀ other ∈ header.sources, compare last other.id = .lt) ∧
        header.sources.length < headerSourceLimit

section Parts

/-- The bytes of a text are as many as its length says. -/
theorem textBytes_length (text : String) : (textBytes text).length = byteLength text := by
  unfold textBytes byteLength
  induction text.toList with
  | nil => rfl
  | cons character rest ih =>
    rw [List.flatMap_cons, List.length_append, ih, String.length_utf8EncodeChar, List.foldr_cons]

/-- A text within the limit of a snapshot. -/
theorem byteLength_le_of_validateString {value label : String} {required : Bool}
    (valid : validateString value required label = .ok ()) : byteLength value ≤ stringLimit := by
  rw [validateString, ensure_eq_ok] at valid
  exact Nat.le_of_not_lt fun long => valid (.inr long)

/-- The check of a text does not depend on its label. -/
theorem validateString_relabel {value label : String} {required : Bool} (other : String)
    (valid : validateString value required label = .ok ()) :
    validateString value required other = .ok () := by
  rw [validateString, ensure_eq_ok] at valid ⊢
  exact valid

/-- Neighbours that increase make every earlier text smaller than every later one. -/
theorem Increasing.pairwise {items : List String} (increasing : Increasing items) :
    items.Pairwise (fun left right => compare left right = .lt) :=
  have : IsTrans String fun left right => compare left right = .lt :=
    ⟨fun _ _ _ => Std.TransCmp.lt_trans⟩
  List.isChain_iff_pairwise.mp increasing

/-- Texts of which every earlier one is smaller than every later one increase. -/
theorem increasing_of_pairwise {items : List String}
    (ordered : items.Pairwise (fun left right => compare left right = .lt)) : Increasing items :=
  ordered.isChain

end Parts

section Accepted

variable {basis : SnapshotBasis} {header other : SnapshotHeaderV1}

/-- What an accepted header says of the parts of its name. -/
structure SnapshotHeaderV1.Parted (basis : SnapshotBasis) (header : SnapshotHeaderV1) : Prop where
  version : header.version = 1
  historyEncoding : header.historyEncoding = Rsolve.historyEncoding
  normalizationPolicy : header.normalizationPolicy = 2
  compatibilityProfile : header.compatibilityProfile = 1
  parserSchema : header.parserSchema = 1 ∨ header.parserSchema = 2 ∨ header.parserSchema = 3
  state : header.coverage.state = "complete" ∨ header.coverage.state = "partial"
  short : ∀ text ∈ [header.registryId, header.coverage.scope, header.coverage.freshness],
    byteLength text ≤ stringLimit
  limited : header.sources.length ≤ headerSourceLimit
  sources : ∀ source ∈ header.sources, SourceObservationV1.validate basis source = .ok ()
  sourceIds : Increasing (header.sources.map SourceObservationV1.id)
  missingEvidence : Increasing header.coverage.missingEvidence
  evidence : ∀ evidence ∈ header.coverage.missingEvidence,
    validateString evidence true "coverage missing evidence" = .ok ()
  historyManifest : byteLength header.historyManifestSha256 = 64

/-- A digest takes 64 bytes. -/
theorem byteLength_of_parseHex32 {text : String} {content : List UInt8}
    (parsed : parseHex32 text = .ok content) : byteLength text = 64 := by
  simp only [parseHex32, bind_eq_ok, ensure_eq_ok] at parsed
  exact parsed.choose_spec.1.1

/-- The id of an accepted source is a text that a header may hold. -/
theorem SourceObservationV1.validateString_id {source : SourceObservationV1}
    (valid : source.validate basis = .ok ()) :
    validateString source.id true "source string" = .ok () := by
  simp only [SourceObservationV1.validate, bind_eq_ok] at valid
  obtain ⟨_, texts, -⟩ := valid
  exact forM_eq_ok.mp texts source.id (by simp)

/-- An accepted header has the parts of a name. -/
theorem parted_of_validateHeader (accepted : validateHeader basis header = .ok ()) :
    header.Parted basis := by
  simp only [validateHeader, bind_eq_ok, ensure_eq_ok] at accepted
  obtain ⟨_, ⟨-, version, encoding, policy, profile, schema⟩, _, state, _, texts, _, -, _, -, _, -,
    _, -, _, limited, _, sources, _, sourceIds, _, ⟨-, missingEvidence⟩, _, -, _, -, _, evidence, _,
    -, _, manifest, -⟩ := accepted
  have short : ∀ text ∈ [header.registryId, header.coverage.scope, header.coverage.freshness],
      byteLength text ≤ stringLimit := by
    intro text member
    refine byteLength_le_of_validateString (forM_eq_ok.mp texts text ?_)
    simp only [List.mem_cons, List.not_mem_nil, or_false] at member ⊢
    tauto
  exact ⟨version, encoding, policy, profile, schema, state, short, limited,
    forM_eq_ok.mp sources, sourceIds, missingEvidence, forM_eq_ok.mp evidence,
    byteLength_of_parseHex32 manifest⟩

/-- The parts of a name are short enough for their lengths. -/
theorem SnapshotHeaderV1.Parted.fits (parted : header.Parted basis) :
    ∀ part ∈ header.fixedParts ++ header.listed.map textBytes ++
      [textBytes header.historyManifestSha256], part.length + 8 < lengthBound := by
  have limit : stringLimit + 8 < lengthBound := by decide
  have bounded : ∀ text, byteLength text ≤ stringLimit →
      (textBytes text).length + 8 < lengthBound := by
    intro text short
    rw [textBytes_length]
    omega
  have schema : byteLength (toString header.parserSchema.toNat) ≤ stringLimit := by
    rcases parted.parserSchema with schema | schema | schema <;> rw [schema] <;> decide
  have state : byteLength header.coverage.state ≤ stringLimit := by
    rcases parted.state with state | state <;> rw [state] <;> decide
  have manifest : byteLength header.historyManifestSha256 ≤ stringLimit := by
    rw [parted.historyManifest]
    decide
  intro part member
  simp only [SnapshotHeaderV1.fixedParts, SnapshotHeaderV1.listed, parted.version,
    parted.historyEncoding, parted.normalizationPolicy, parted.compatibilityProfile,
    List.map_append, List.mem_append, List.mem_cons, List.mem_map, List.not_mem_nil,
    or_false] at member
  rcases member with (fixed | ⟨evidence, inside, rfl⟩ | ⟨id, ⟨source, inside, rfl⟩, rfl⟩) | rfl
  · rcases fixed with rfl | rfl | rfl | rfl | rfl | rfl | rfl | rfl | rfl | rfl
    · decide
    · exact bounded _ (parted.short _ (by simp))
    · decide
    · decide
    · decide
    · decide
    · exact bounded _ schema
    · exact bounded _ state
    · exact bounded _ (parted.short _ (by simp))
    · exact bounded _ (parted.short _ (by simp))
  · exact bounded _ (byteLength_le_of_validateString (parted.evidence _ inside))
  · exact bounded _ (byteLength_le_of_validateString
      (SourceObservationV1.validateString_id (parted.sources _ inside)))
  · exact bounded _ manifest

/-- Accepted headers with the same bytes agree on every part but the border of the two lists. -/
theorem SnapshotHeaderV1.Parted.listed_eq (left : header.Parted basis) (right : other.Parted basis)
    (equal : header.generationBytes = other.generationBytes) :
    header.listed = other.listed ∧ (header.coverage.missingEvidence =
      other.coverage.missingEvidence → header.Agrees other) := by
  have parts := flatMap_lePrefixed_injective left.fits right.fits equal
  simp only [List.append_assoc] at parts
  obtain ⟨fixed, lists⟩ := List.append_inj parts rfl
  obtain ⟨texts, manifest⟩ := List.append_inj' lists rfl
  have listed := List.map_injective_iff.mpr (fun _ _ => textBytes_injective) texts
  simp only [SnapshotHeaderV1.fixedParts, List.cons.injEq] at fixed
  obtain ⟨-, registry, -, -, -, -, schema, state, scope, freshness, -⟩ := fixed
  refine ⟨listed, fun evidence => ?_⟩
  have sourceIds : header.sources.map SourceObservationV1.id =
      other.sources.map SourceObservationV1.id := by
    simp only [SnapshotHeaderV1.listed, evidence] at listed
    exact List.append_cancel_left listed
  have schemas : header.parserSchema = other.parserSchema := by
    rcases left.parserSchema with left | left | left <;>
      rcases right.parserSchema with right | right | right <;>
        rw [left, right] at schema ⊢ <;> exact absurd schema (by decide)
  exact ⟨textBytes_injective registry, left.version.trans right.version.symm,
    left.historyEncoding.trans right.historyEncoding.symm,
    left.normalizationPolicy.trans right.normalizationPolicy.symm,
    left.compatibilityProfile.trans right.compatibilityProfile.symm, schemas,
    textBytes_injective state, textBytes_injective scope, textBytes_injective freshness, evidence,
    sourceIds, textBytes_injective (List.head_eq_of_cons_eq manifest)⟩

/-- A header with the border of the two lists elsewhere. -/
def SnapshotHeaderV1.relisted (header : SnapshotHeaderV1) (evidence : List String)
    (sources : List SourceObservationV1) : SnapshotHeaderV1 :=
  { header with
    coverage := { header.coverage with
      sourceIds := sources.map SourceObservationV1.id
      missingEvidence := evidence }
    sources := sources }

/-- Moving the border leaves the bytes of the name as they are. -/
theorem SnapshotHeaderV1.generationBytes_relisted {evidence : List String}
    {sources : List SourceObservationV1}
    (listed : (header.relisted evidence sources).listed = header.listed) :
    (header.relisted evidence sources).generationBytes = header.generationBytes := by
  simp only [SnapshotHeaderV1.generationBytes, listed]
  rfl

/-- A header with the border elsewhere is accepted when its two lists are. -/
theorem validateHeader_relisted (accepted : validateHeader basis header = .ok ())
    {evidence : List String} {sources : List SourceObservationV1}
    (listed : (header.relisted evidence sources).listed = header.listed)
    (limited : sources.length ≤ headerSourceLimit)
    (valid : ∀ source ∈ sources, SourceObservationV1.validate basis source = .ok ())
    (texts : ∀ text ∈ evidence, validateString text true "coverage missing evidence" = .ok ())
    (sourceIds : Increasing (sources.map SourceObservationV1.id))
    (missingEvidence : Increasing evidence) :
    validateHeader basis (header.relisted evidence sources) = .ok () := by
  have named : generationIdFromHeader basis (header.relisted evidence sources) =
      generationIdFromHeader basis header := by
    rw [generationIdFromHeader_eq, SnapshotHeaderV1.generationBytes_relisted listed,
      ← generationIdFromHeader_eq]
  simp only [validateHeader, bind_eq_ok, ensure_eq_ok] at accepted ⊢
  obtain ⟨_, format, _, state, _, required, registry, named', _, digest, _, generation, _, created,
    _, -, _, -, _, -, _, -, _, -, _, -, _, -, _, -, _, manifest, -⟩ := accepted
  refine ⟨(), format, (), state, (), required, registry, named', _, digest, (),
    generation.trans named.symm, (), created, (), limited, (), forM_eq_ok.mpr valid, (), sourceIds,
    (), ⟨sourceIds, missingEvidence⟩, (), rfl, (), forM_eq_ok.mpr ?_, (), forM_eq_ok.mpr texts, (),
    fun _ member => member, _, manifest, rfl⟩
  intro id member
  obtain ⟨source, inside, rfl⟩ := List.mem_map.mp member
  exact validateString_relabel _ (SourceObservationV1.validateString_id (valid source inside))

/-- Where the border of one header lies behind that of another, the first source of the other can be
read as evidence. -/
theorem SnapshotHeaderV1.FirstSourceMoves.of_listed {moved : List String} (nonempty : moved ≠ [])
    (increasing : Increasing other.coverage.missingEvidence)
    (evidence : other.coverage.missingEvidence = header.coverage.missingEvidence ++ moved)
    (sourceIds : header.sources.map SourceObservationV1.id =
      moved ++ other.sources.map SourceObservationV1.id) : header.FirstSourceMoves := by
  obtain ⟨head, rest, rfl⟩ := List.exists_cons_of_ne_nil nonempty
  obtain ⟨first, sources, split, rfl, -⟩ := List.map_eq_cons_iff.mp sourceIds
  rw [evidence] at increasing
  refine ⟨first, by rw [split]; rfl, fun text member => ?_⟩
  exact (List.pairwise_append.mp increasing.pairwise).2.2 text member _ (List.mem_cons_self ..)

/-- Where the border of one header lies before that of another, the last evidence of the other can be
read as a source. -/
theorem SnapshotHeaderV1.LastEvidenceMoves.of_listed {moved : List String} (nonempty : moved ≠ [])
    (parted : other.Parted basis)
    (evidence : header.coverage.missingEvidence = other.coverage.missingEvidence ++ moved)
    (sourceIds : other.sources.map SourceObservationV1.id =
      moved ++ header.sources.map SourceObservationV1.id) : header.LastEvidenceMoves basis := by
  obtain ⟨front, last, rfl⟩ := (List.eq_nil_or_concat' moved).resolve_left nonempty
  have last_mem : last ∈ other.sources.map SourceObservationV1.id := by
    rw [sourceIds]
    simp
  obtain ⟨source, inside, named⟩ := List.mem_map.mp last_mem
  have increasing := parted.sourceIds.pairwise
  rw [sourceIds] at increasing
  have count := congrArg List.length sourceIds
  simp only [List.length_map, List.length_append, List.length_cons, List.length_nil] at count
  have limited := parted.limited
  refine ⟨last, ?_, ⟨source, parted.sources source inside, named⟩, fun next member => ?_, by omega⟩
  · rw [evidence, ← List.append_assoc, List.getLast?_concat]
    rfl
  · exact (List.pairwise_append.mp increasing).2.2 last (by simp) _ (List.mem_map_of_mem member)

/-- A first source that can be read as evidence is evidence in another accepted header. -/
theorem SnapshotHeaderV1.FirstSourceMoves.exists_relisted
    (accepted : validateHeader basis header = .ok ()) (moves : header.FirstSourceMoves) :
    ∃ evidence sources, (header.relisted evidence sources).listed = header.listed ∧
      validateHeader basis (header.relisted evidence sources) = .ok () ∧
        evidence ≠ header.coverage.missingEvidence := by
  have parted := parted_of_validateHeader accepted
  obtain ⟨first, atHead, below⟩ := moves
  obtain ⟨rest, split⟩ := List.head?_eq_some_iff.mp atHead
  have listed : (header.relisted (header.coverage.missingEvidence ++ [first.id]) rest).listed =
      header.listed := by
    simp only [SnapshotHeaderV1.listed, SnapshotHeaderV1.relisted, split, List.map_cons,
      List.append_assoc, List.cons_append, List.nil_append]
  have limited := parted.limited
  have sources := parted.sources
  have sourceIds := parted.sourceIds
  rw [split] at limited sources sourceIds
  refine ⟨_, rest, listed, validateHeader_relisted accepted listed ?_ ?_ ?_ ?_ ?_, by simp⟩
  · exact Nat.le_of_succ_le limited
  · exact fun source member => sources source (List.mem_cons_of_mem _ member)
  · intro text member
    rcases List.mem_append.mp member with old | moved
    · exact parted.evidence text old
    · obtain rfl := List.mem_singleton.mp moved
      exact validateString_relabel _
        (SourceObservationV1.validateString_id (sources first (List.mem_cons_self ..)))
  · exact increasing_of_pairwise (List.Pairwise.of_cons sourceIds.pairwise)
  · refine increasing_of_pairwise (List.pairwise_append.mpr ⟨parted.missingEvidence.pairwise,
      List.pairwise_singleton .., fun text member last single => ?_⟩)
    rw [List.mem_singleton.mp single]
    exact below text member

/-- A last evidence that can be read as a source is a source in another accepted header. -/
theorem SnapshotHeaderV1.LastEvidenceMoves.exists_relisted
    (accepted : validateHeader basis header = .ok ()) (moves : header.LastEvidenceMoves basis) :
    ∃ evidence sources, (header.relisted evidence sources).listed = header.listed ∧
      validateHeader basis (header.relisted evidence sources) = .ok () ∧
        evidence ≠ header.coverage.missingEvidence := by
  have parted := parted_of_validateHeader accepted
  obtain ⟨last, atEnd, ⟨source, valid, rfl⟩, below, room⟩ := moves
  obtain ⟨front, split⟩ := List.getLast?_eq_some_iff.mp atEnd
  have listed : (header.relisted front (source :: header.sources)).listed = header.listed := by
    simp only [SnapshotHeaderV1.listed, SnapshotHeaderV1.relisted, split, List.map_cons,
      List.append_assoc, List.cons_append, List.nil_append]
  have evidence := parted.evidence
  have increasing := parted.missingEvidence.pairwise
  rw [split] at evidence increasing
  refine ⟨front, _, listed, validateHeader_relisted accepted listed ?_ ?_ ?_ ?_ ?_, ?_⟩
  · exact room
  · intro other member
    rcases List.mem_cons.mp member with rfl | old
    · exact valid
    · exact parted.sources other old
  · exact fun text member => evidence text (List.mem_append_left _ member)
  · refine increasing_of_pairwise (List.pairwise_cons.mpr ⟨fun id member => ?_,
      parted.sourceIds.pairwise⟩)
    obtain ⟨other, inside, rfl⟩ := List.mem_map.mp member
    exact below other inside
  · exact increasing_of_pairwise (List.pairwise_append.mp increasing).1
  · rw [split]
    simp

/-- The bytes of the name of an accepted header identify what it means exactly when neither its first
source can be read as missing evidence nor its last missing evidence as a source. -/
theorem generationBytes_identify_iff (basis : SnapshotBasis) (header : SnapshotHeaderV1)
    (accepted : validateHeader basis header = .ok ()) :
    (∀ other, validateHeader basis other = .ok () →
      other.generationBytes = header.generationBytes → header.Agrees other) ↔
    ¬ header.FirstSourceMoves ∧ ¬ header.LastEvidenceMoves basis := by
  constructor
  · intro identifies
    have stays : ¬ ∃ evidence sources, (header.relisted evidence sources).listed = header.listed ∧
        validateHeader basis (header.relisted evidence sources) = .ok () ∧
          evidence ≠ header.coverage.missingEvidence := by
      rintro ⟨evidence, sources, listed, valid, differs⟩
      have agrees := identifies _ valid (SnapshotHeaderV1.generationBytes_relisted listed)
      exact differs agrees.missingEvidence.symm
    exact ⟨fun moves => stays (moves.exists_relisted accepted),
      fun moves => stays (moves.exists_relisted accepted)⟩
  · rintro ⟨noSource, noEvidence⟩ other valid equal
    have parted := parted_of_validateHeader accepted
    have otherParted := parted_of_validateHeader valid
    obtain ⟨listed, agrees⟩ := parted.listed_eq otherParted equal.symm
    -- One list of evidence begins with the other; what it has more are sources of the other header.
    rcases List.append_eq_append_iff.mp listed with ⟨moved, evidence, sourceIds⟩ |
      ⟨moved, evidence, sourceIds⟩
    · by_cases nothing : moved = []
      · exact agrees (by rw [evidence, nothing, List.append_nil])
      · exact absurd (SnapshotHeaderV1.FirstSourceMoves.of_listed nothing
          otherParted.missingEvidence evidence sourceIds) noSource
    · by_cases nothing : moved = []
      · exact agrees (by rw [evidence, nothing, List.append_nil])
      · exact absurd (SnapshotHeaderV1.LastEvidenceMoves.of_listed nothing otherParted evidence
          sourceIds) noEvidence

end Accepted

namespace Small

/-- The header of the first publish with its source as missing evidence. -/
def evidenceHeader : SnapshotHeaderV1 :=
  (snapshotHeader publishTime).relisted [sourceDigest] []

/-- The header of the first publish with some missing evidence that no digest follows. -/
def archivelessHeader : SnapshotHeaderV1 :=
  { (snapshotHeader publishTime).relisted ["archived releases"] (snapshotHeader publishTime).sources with
    generation := "2ab675716e75b961557d7c3f0e0e037e331f0b719c4fa566c5264045cb83bff2" }

/-- A basis that has the digest of the name of that header as well. -/
def archivelessBasis : SnapshotBasis :=
  { snapshotStore.basis with
    sha256 := fun bytes =>
      if bytes = archivelessHeader.generationBytes then digestOf archivelessHeader.generation
      else snapshotDigest bytes }

/-- The header of the first publish is accepted, and so is the one with its source as evidence. -/
theorem validateHeader_evidence :
    validateHeader snapshotStore.basis (snapshotHeader publishTime) = .ok () ∧
      validateHeader snapshotStore.basis evidenceHeader = .ok () := by
  refine ⟨validateHeader_snapshot, validateHeader_relisted validateHeader_snapshot rfl (Nat.zero_le _)
    (List.forall_mem_nil _) ?_ List.isChain_nil (List.isChain_singleton _)⟩
  exact List.forall_mem_singleton.mpr (validateString_relabel _
    (forM_eq_ok.mp texts_valid.2.2 sourceDigest (List.mem_singleton_self _)))

/-- The digest of the name of that header is the text of its bytes. -/
theorem spelled_archiveless :
    hex (digestOf archivelessHeader.generation).toList = archivelessHeader.generation := by
  decide

/-- The id of the source does not depend on that name. -/
theorem sourceId_archiveless :
    sourceId archivelessBasis "current-packages" "gzip-dcf" contentDigest = sourceDigest := by
  have digest : ∀ bytes, archivelessBasis.sha256 bytes =
      if bytes = archivelessHeader.generationBytes then digestOf archivelessHeader.generation
      else snapshotDigest bytes := fun _ => rfl
  simp only [sourceId, SnapshotBasis.hexDigest, digest, snapshotDigest, textBytes_eq]
  decide

/-- The header with some missing evidence is accepted. -/
theorem validateHeader_archiveless :
    validateHeader archivelessBasis archivelessHeader = .ok () := by
  have spelled := spelled_archiveless
  have named : generationIdFromHeader archivelessBasis archivelessHeader =
      archivelessHeader.generation := by
    have hashed : archivelessBasis.sha256 archivelessHeader.generationBytes =
        digestOf archivelessHeader.generation := by
      simp only [archivelessBasis, if_true]
    rw [generationIdFromHeader_eq, hexDigest_of hashed spelled]
  have texts : [archivelessHeader.generation].forM
        (validateString · true "required header string") = .ok () ∧
      ["archived releases"].forM (validateString · true "coverage missing evidence") = .ok () := by
    decide
  have timed : isRfc3339Seconds archivelessBasis publishTime = true := by decide
  have observed := validate_source sourceId_archiveless timed filled_snapshot
  have accepted := validateHeader_snapshot
  simp only [validateHeader, bind_eq_ok, ensure_eq_ok, forM_eq_ok, List.forall_mem_cons]
    at accepted texts ⊢
  obtain ⟨_, format, _, state, _, ⟨registryId, -, required⟩, registry, read, _, -, _, -, _, -, _,
    limited, _, -, _, increasing, _, -, _, enumerated, _, ids, _, -, _, known, _, manifest, -⟩ :=
    accepted
  exact ⟨(), format, (), state, (), ⟨registryId, texts.1.1, required⟩, registry, read, _,
    parseHex32_digestOf spelled, (), named.symm, (), timed, (), limited, (),
    List.forall_mem_singleton.mpr observed, (), increasing, (),
    ⟨increasing, List.isChain_singleton _⟩, (), enumerated, (), ids, (),
    List.forall_mem_singleton.mpr texts.2.1, (), known, _, manifest, rfl⟩

end Small

/-- The name of a header whose missing evidence sorts behind its sources identifies it. -/
theorem generationBytes_identify_archiveless :
    validateHeader Small.archivelessBasis Small.archivelessHeader = .ok () ∧
      ∀ other, validateHeader Small.archivelessBasis other = .ok () →
        other.generationBytes = Small.archivelessHeader.generationBytes →
          Small.archivelessHeader.Agrees other := by
  refine ⟨Small.validateHeader_archiveless, (generationBytes_identify_iff Small.archivelessBasis
    Small.archivelessHeader Small.validateHeader_archiveless).mpr ⟨?_, ?_⟩⟩
  · rintro ⟨first, atHead, below⟩
    obtain rfl := Option.some.inj atHead
    exact absurd (below _ (List.mem_singleton_self _)) (by decide)
  · rintro ⟨last, atEnd, -, below, -⟩
    obtain rfl := Option.some.inj atEnd
    exact absurd (below _ (List.mem_singleton_self _)) (by decide)

/-- A source and a missing evidence that spells its id give two accepted headers with the same bytes
that differ in both lists. -/
theorem not_generationBytes_identify :
    validateHeader Small.snapshotStore.basis (Small.snapshotHeader Small.publishTime) = .ok () ∧
      validateHeader Small.snapshotStore.basis Small.evidenceHeader = .ok () ∧
        Small.evidenceHeader.generationBytes =
          (Small.snapshotHeader Small.publishTime).generationBytes ∧
          ¬ (Small.snapshotHeader Small.publishTime).Agrees Small.evidenceHeader := by
  refine ⟨Small.validateHeader_evidence.1, Small.validateHeader_evidence.2,
    SnapshotHeaderV1.generationBytes_relisted rfl, fun agrees => ?_⟩
  exact absurd agrees.missingEvidence (by decide)

end Rsolve
