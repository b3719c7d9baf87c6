import Rsolve.Lib.Splitting
import Rsolve.Repository.Materialize

/-!
# What a request is recorded as

The inputs of a request name every package and every destination once, so its canonical order and
its index do not depend on the order of the request. A state records a request when its records,
methods aside, are those of the canonical artifacts; a validated no-op accepts exactly such a
request.
-/
open Keyed Checked Ordered

namespace Rsolve

/-- What the check of one input asks of the artifact alone. -/
structure AcceptableInput (selected : MaterializationArtifact) : Prop where
  /-- The package and the version are safe in a file name. -/
  safe : validFilenameComponent selected.package.text = true ∧
    validFilenameComponent selected.version.raw = true
  /-- The version is the one the provenance fixes. -/
  versioned : ∀ version, selected.identity.provenance.fixedVersion = some version →
    Same version selected.version
  /-- The archive is not empty. -/
  nonempty : selected.artifact.size ≠ 0

/-- The package of an artifact, as a text. -/
def packageText (selected : MaterializationArtifact) : String := selected.package.text

/-- Inputs that pass their checks. -/
structure ValidInputs (artifacts : List MaterializationArtifact) : Prop where
  /-- Every input passes its own checks. -/
  acceptable : ∀ selected ∈ artifacts, AcceptableInput selected
  /-- Destinations are distinct. -/
  destinations : (artifacts.map destinationName).Nodup
  /-- Packages are distinct. -/
  packages : (artifacts.map packageText).Nodup

/-- One input passes when it is acceptable and new. -/
theorem validateInput_eq_ok {destinations packages : List String}
    {selected : MaterializationArtifact} :
    validateInput destinations packages selected = .ok () ↔
      AcceptableInput selected ∧ destinationName selected ∉ destinations ∧
        packageText selected ∉ packages := by
  unfold validateInput
  cases fixed : selected.identity.provenance.fixedVersion with
  | none =>
    simp only [bind_eq_ok, ensure_eq_ok]
    constructor
    · rintro ⟨_, safe, _, newDestination, _, newPackage, nonempty⟩
      exact ⟨⟨safe, by simp [fixed], nonempty⟩, newDestination, newPackage⟩
    · rintro ⟨acceptable, newDestination, newPackage⟩
      exact ⟨(), acceptable.safe, (), newDestination, (), newPackage, acceptable.nonempty⟩
  | some version =>
    simp only [bind_eq_ok, ensure_eq_ok]
    constructor
    · rintro ⟨_, safe, _, versioned, _, newDestination, _, newPackage, nonempty⟩
      refine ⟨⟨safe, fun other found => ?_, nonempty⟩, newDestination, newPackage⟩
      rw [fixed, Option.some.injEq] at found
      exact found ▸ versioned
    · rintro ⟨acceptable, newDestination, newPackage⟩
      exact ⟨(), acceptable.safe, (), acceptable.versioned version fixed, (), newDestination, (),
        newPackage, acceptable.nonempty⟩

/-- The inputs pass when each is acceptable and no package or destination comes twice. -/
theorem validateInputsFrom_eq_ok {destinations packages : List String}
    {artifacts : List MaterializationArtifact} :
    validateInputsFrom destinations packages artifacts = .ok () ↔
      ValidInputs artifacts ∧
        (∀ selected ∈ artifacts, destinationName selected ∉ destinations) ∧
        ∀ selected ∈ artifacts, packageText selected ∉ packages := by
  induction artifacts generalizing destinations packages with
  | nil =>
    simp only [validateInputsFrom, List.not_mem_nil, false_implies, implies_true, and_true, true_iff]
    exact ⟨by simp, List.nodup_nil, List.nodup_nil⟩
  | cons selected rest ih =>
    rw [validateInputsFrom, bind_eq_ok]
    simp only [List.forall_mem_cons]
    constructor
    · rintro ⟨_, first, later⟩
      obtain ⟨acceptable, newDestination, newPackage⟩ := validateInput_eq_ok.mp first
      obtain ⟨valid, others, otherPackages⟩ := ih.mp later
      refine ⟨⟨?_, ?_, ?_⟩, ⟨newDestination, fun other member => ?_⟩, newPackage,
        fun other member => ?_⟩
      · exact List.forall_mem_cons.mpr ⟨acceptable, valid.acceptable⟩
      · rw [List.map_cons, List.nodup_cons]
        refine ⟨fun member => ?_, valid.destinations⟩
        obtain ⟨other, inside, equal⟩ := List.mem_map.mp member
        exact others other inside (equal ▸ List.mem_cons_self)
      · rw [List.map_cons, List.nodup_cons]
        refine ⟨fun member => ?_, valid.packages⟩
        obtain ⟨other, inside, equal⟩ := List.mem_map.mp member
        exact otherPackages other inside (equal ▸ List.mem_cons_self)
      · exact fun inside => others other member (List.mem_cons_of_mem _ inside)
      · exact fun inside => otherPackages other member (List.mem_cons_of_mem _ inside)
    · rintro ⟨valid, ⟨newDestination, others⟩, newPackage, otherPackages⟩
      obtain ⟨acceptable, restAcceptable⟩ := List.forall_mem_cons.mp valid.acceptable
      obtain ⟨apart, distinct⟩ := List.nodup_cons.mp valid.destinations
      obtain ⟨apartPackage, distinctPackages⟩ := List.nodup_cons.mp valid.packages
      refine ⟨(), validateInput_eq_ok.mpr ⟨acceptable, newDestination, newPackage⟩,
        ih.mpr ⟨⟨restAcceptable, distinct, distinctPackages⟩, fun other member inside => ?_,
          fun other member inside => ?_⟩⟩
      · rcases List.mem_cons.mp inside with equal | inside
        · exact apart (equal ▸ List.mem_map_of_mem member)
        · exact others other member inside
      · rcases List.mem_cons.mp inside with equal | inside
        · have equal : packageText other = packageText selected := equal
          exact apartPackage (equal ▸ List.mem_map_of_mem member)
        · exact otherPackages other member inside

/-- The check of the inputs. -/
theorem validateInputs_eq_ok {artifacts : List MaterializationArtifact} :
    validateInputs artifacts = .ok () ↔ ValidInputs artifacts := by
  rw [validateInputs, validateInputsFrom_eq_ok]
  simp

/-- The order of the inputs does not matter. -/
theorem ValidInputs.perm {left right : List MaterializationArtifact} (valid : ValidInputs left)
    (order : left.Perm right) : ValidInputs right where
  acceptable selected member := valid.acceptable selected (order.mem_iff.mpr member)
  destinations := (order.map _).nodup_iff.mp valid.destinations
  packages := (order.map _).nodup_iff.mp valid.packages

instance : Std.TransCmp compareArtifacts :=
  inferInstanceAs (Std.TransCmp (compareLex (compareOn MaterializationArtifact.package)
    (compareLex (compareOn destinationName)
      (compareOn (fun selected => Materialization.identityKey selected.identity)))))

instance : Std.TransCmp compareRows :=
  have : Std.TransCmp (fun left right : MaterializationArtifact => left.version.cmp right.version) :=
    inferInstanceAs (Std.TransCmp (compareOn (fun selected : MaterializationArtifact =>
      selected.version.key)))
  inferInstanceAs (Std.TransCmp (compareLex (compareOn MaterializationArtifact.package)
    (fun left right : MaterializationArtifact => left.version.cmp right.version)))

/-- Artifacts of one package among valid inputs are one artifact. -/
theorem ValidInputs.eq_of_package {artifacts : List MaterializationArtifact}
    (valid : ValidInputs artifacts) {left right : MaterializationArtifact} (leftIn : left ∈ artifacts)
    (rightIn : right ∈ artifacts) (equal : left.package = right.package) : left = right :=
  List.inj_on_of_nodup_map valid.packages leftIn rightIn (congrArg PackageName.text equal)

/-- The canonical order does not depend on the order of the inputs. -/
theorem canonicalArtifacts_perm {left right : List MaterializationArtifact}
    (valid : ValidInputs left) (order : left.Perm right) :
    canonicalArtifacts left = canonicalArtifacts right := by
  refine Sorting.sortBy_eq_of_perm compareArtifacts order fun first firstIn second secondIn equal => ?_
  have packages : compare first.package second.package = .eq := by
    simp only [compareArtifacts, compareLex, Ordering.then_eq_eq] at equal
    exact equal.1
  exact valid.eq_of_package firstIn secondIn (PackageName.eq_of_compare_eq packages)

/-- The index does not depend on the order of the inputs. -/
theorem writePackages_perm {left right : List MaterializationArtifact}
    (valid : ValidInputs left) (order : left.Perm right) :
    writePackages left = writePackages right := by
  unfold writePackages
  rw [Sorting.sortBy_eq_of_perm compareRows order fun first firstIn second secondIn equal => ?_]
  have packages : compare first.package second.package = .eq := by
    simp only [compareRows, compareLex, Ordering.then_eq_eq] at equal
    exact equal.1
  exact valid.eq_of_package firstIn secondIn (PackageName.eq_of_compare_eq packages)

/-- The characters of a version are digits, periods and hyphens. -/
theorem RPackageVersion.mem_raw {version : RPackageVersion} {character : Char}
    (member : character ∈ version.raw.toList) :
    character.isDigit = true ∨ isSeparator character = true := by
  have spelled := version.spelled
  unfold parseComponents at spelled
  split at spelled
  · cases spelled
  rcases Splitting.mem_splitOnP member with separator | ⟨part, inside, found⟩
  · exact .inr separator
  · have read := (readComponents_ok_iff _ _ _).mp spelled
    obtain ⟨value, -, read⟩ := exists_part read.flip inside
    exact .inl (((Decimal.readDigits_ok_iff componentBound part 0 value (by decide)).mp read).1
      character found)

/-- The characters of a package name are letters, digits and periods. -/
theorem PackageName.text_characters {name : PackageName} {character : Char}
    (member : character ∈ name.text.toList) :
    (character.isAlphanum || character == '.') = true := by
  have valid := name.valid
  unfold PackageName.check at valid
  split at valid
  · cases valid
  · next first rest spelled =>
    split at valid
    · cases valid
    · split at valid
      · cases valid
      · next none =>
        rw [firstFailing, List.findIdx?_eq_none_iff] at none
        have passes := none character (spelled ▸ member)
        rw [Bool.not_eq_false'] at passes
        exact passes

/-- The package name at the end of the key of an identity. -/
def nameOfKey (key : List Char) : List Char :=
  (key.reverse.takeWhile (fun character => character != ':')).reverse.takeWhile
    (fun character => character != '@')

/-- The name is what stands between the last colon and the at sign after it. -/
theorem nameOfKey_eq {before name after : List Char}
    (bare : ∀ character ∈ name ++ after, (character != ':') = true)
    (named : ∀ character ∈ name, (character != '@') = true)
    (ends : after.takeWhile (fun character => character != '@') = []) :
    nameOfKey (before ++ ':' :: (name ++ after)) = name := by
  have segment : ((before ++ ':' :: (name ++ after)).reverse.takeWhile
      (fun character => character != ':')) = (name ++ after).reverse := by
    rw [List.reverse_append, List.reverse_cons, List.append_assoc, List.takeWhile_append_of_pos]
    · simp
    · exact fun character member => bare character (List.mem_reverse.mp member)
  rw [nameOfKey, segment, List.reverse_reverse, List.takeWhile_append_of_pos named, ends,
    List.append_nil]

/-- No character of a package name is a colon or an at sign. -/
theorem PackageName.text_bare {name : PackageName} {character : Char}
    (member : character ∈ name.text.toList) :
    (character != ':') = true ∧ (character != '@') = true := by
  have allowed := PackageName.text_characters member
  constructor
  all_goals
    rw [bne_iff_ne]
    rintro rfl
    exact absurd allowed (by decide)

/-- No character of a version is a colon. -/
theorem RPackageVersion.raw_bare {version : RPackageVersion} {character : Char}
    (member : character ∈ version.raw.toList) : (character != ':') = true := by
  rw [bne_iff_ne]
  rintro rfl
  exact absurd (RPackageVersion.mem_raw member) (by decide)

/-- The key of an identity ends with the name of its package, and a version in some cases. -/
theorem nameOfKey_identityKey (identity : ReleaseIdentity) :
    nameOfKey (Materialization.identityKey identity).toList = identity.name.text.toList := by
  obtain ⟨name, provenance⟩ := identity
  have named : ∀ character ∈ name.text.toList, (character != '@') = true := fun _ member =>
    (PackageName.text_bare member).2
  have plain : ∀ before : List Char,
      nameOfKey (before ++ ':' :: (name.text.toList ++ [])) = name.text.toList := fun before =>
    nameOfKey_eq (fun character member => (PackageName.text_bare (by simpa using member)).1) named
      rfl
  have versioned : ∀ (before : List Char) (version : RPackageVersion),
      nameOfKey (before ++ ':' :: (name.text.toList ++ '@' :: version.raw.toList)) =
        name.text.toList := by
    refine fun before version => nameOfKey_eq (fun character member => ?_) named (by simp)
    rcases List.mem_append.mp member with inside | inside
    · exact (PackageName.text_bare inside).1
    · rcases List.mem_cons.mp inside with rfl | inside
      · decide
      · exact RPackageVersion.raw_bare inside
  cases provenance with
  | rBasePackage rVersion =>
    have key := versioned "r-base".toList rVersion
    simpa [Materialization.identityKey] using key
  | registryRelease nspace version =>
    have key := versioned ("registry:" ++ nspace.text ++ ":").toList version
    simpa [Materialization.identityKey] using key
  | gitCommit repository commit subdirectory =>
    have key := plain ("git:" ++ repository.text ++ "@" ++ commit.hex ++ ":" ++
      (subdirectory.map RepositorySubdir.text).getD "" ++ ":").toList
    simpa [Materialization.identityKey] using key
  | bioconductorRelease nspace release version =>
    have key := versioned ("bioconductor:" ++ nspace.text ++ ":" ++ release.text ++ ":").toList version
    simpa [Materialization.identityKey] using key
  | immutableSource scheme digest =>
    have key := plain ("immutable:" ++ scheme.text ++ ":" ++ digest.text ++ ":").toList
    simpa [Materialization.identityKey] using key

/-- Identities with one key belong to one package. -/
theorem name_eq_of_identityKey {left right : ReleaseIdentity}
    (equal : Materialization.identityKey left = Materialization.identityKey right) :
    left.name = right.name := by
  have texts := congrArg (fun key : String => nameOfKey key.toList) equal
  simp only [nameOfKey_identityKey] at texts
  exact PackageName.ext (String.toList_inj.mp texts)

/-- The canonical artifacts are the inputs. -/
theorem canonicalArtifacts_perm_self (artifacts : List MaterializationArtifact) :
    (canonicalArtifacts artifacts).Perm artifacts :=
  Sorting.sortBy_perm ..

/-- What an artifact is recorded as, the method aside. -/
def recorded (selected : MaterializationArtifact) : MaterializationRecord :=
  recordFor selected .copy

/-- A record, the method aside. -/
def MaterializationRecord.plain (record : MaterializationRecord) : MaterializationRecord :=
  { record with method := .copy }

/-- The records of a request, methods aside. -/
def requestRecords (requested : List MaterializationArtifact) : List MaterializationRecord :=
  (canonicalArtifacts requested).map recorded

/-- A record describes an artifact when it is recorded so. -/
theorem describes_iff {record : MaterializationRecord} {selected : MaterializationArtifact} :
    record.describes selected = true ↔ record.plain = recorded selected := by
  obtain ⟨_, _, _, _, _, _, _⟩ := record
  simp [MaterializationRecord.describes, MaterializationRecord.plain, recorded, recordFor, and_assoc]

/-- Records match a request when they are its records, methods aside. -/
theorem recordsMatchRequested_iff {records : List MaterializationRecord}
    {requested : List MaterializationArtifact} :
    recordsMatchRequested records requested = true ↔
      records.map MaterializationRecord.plain = requestRecords requested := by
  have pairs : recordsMatchRequested records requested = true ↔
      List.Forall₂ (fun selected record => record.describes selected = true)
        (canonicalArtifacts requested) records := by
    rw [List.forall₂_iff_zip]
    simp only [recordsMatchRequested, Bool.and_eq_true, beq_iff_eq, List.all_eq_true, Prod.forall]
    exact and_congr_left fun _ => eq_comm
  have related : (fun (selected : MaterializationArtifact) (record : MaterializationRecord) =>
      record.describes selected = true) = fun selected record =>
        recorded selected = record.plain := by
    funext selected record
    exact propext (describes_iff.trans eq_comm)
  rw [pairs, requestRecords, eq_comm, ← List.forall₂_eq_eq_eq, List.forall₂_map_left_iff,
    List.forall₂_map_right_iff, related]

/-- Two requests that are recorded alike and have one index. -/
structure SameRequest (sha256 : List UInt8 → Sha256Digest)
    (left right : List MaterializationArtifact) : Prop where
  /-- The records agree. -/
  records : requestRecords left = requestRecords right
  /-- The digests of the indexes agree. -/
  index : requestedIndexSha256 sha256 left = requestedIndexSha256 sha256 right

/-- The order of valid inputs is no difference. -/
theorem SameRequest.of_perm (sha256 : List UInt8 → Sha256Digest)
    {left right : List MaterializationArtifact} (valid : ValidInputs left)
    (order : left.Perm right) : SameRequest sha256 left right where
  records := by rw [requestRecords, requestRecords, canonicalArtifacts_perm valid order]
  index := by
    rw [requestedIndexSha256, requestedIndexSha256, requestedPackages, requestedPackages,
      writePackages_perm valid order]

/-- The records of valid inputs increase by package. -/
theorem ValidInputs.strict {artifacts : List MaterializationArtifact}
    (valid : ValidInputs artifacts) : (requestRecords artifacts).Pairwise
      (fun left right => compareOn MaterializationRecord.package left right = .lt) := by
  have canonical := valid.perm (canonicalArtifacts_perm_self artifacts).symm
  have apart : (canonicalArtifacts artifacts).Pairwise
      (fun left right => packageText left ≠ packageText right) :=
    List.pairwise_map.mp canonical.packages
  have ordered := Sorting.sortBy_pairwise compareArtifacts artifacts
  refine List.pairwise_map.mpr ((ordered.and apart).imp fun {left right} both => ?_)
  have below : (compare left.package right.package).isLE = true := by
    have first := both.1
    simp only [compareArtifacts, compareLex, compareOn] at first
    cases smaller : compare left.package right.package with
    | gt => simp [smaller] at first
    | _ => rfl
  cases smaller : compare left.package right.package with
  | lt => exact smaller
  | eq => exact absurd (congrArg PackageName.text (PackageName.eq_of_compare_eq smaller)) both.2
  | gt => simp [smaller] at below

/-- Distinct packages give distinct records. -/
theorem ValidInputs.recorded_nodup {artifacts : List MaterializationArtifact}
    (valid : ValidInputs artifacts) : (artifacts.map recorded).Nodup := by
  have packages := valid.packages
  have texts : artifacts.map packageText =
      (artifacts.map recorded).map MaterializationRecord.package := by
    rw [List.map_map]
    rfl
  rw [texts] at packages
  exact packages.of_map

section Existing

variable {sha256 : List UInt8 → Sha256Digest} {project : Project} {state : MaterializationState}

/-- What the check of one artifact against a committed state finds. -/
structure ExistingArtifact (sha256 : List UInt8 → Sha256Digest) (project : Project)
    (state : MaterializationState) (selected : MaterializationArtifact)
    (record : MaterializationRecord) : Prop where
  /-- The record is the first with the identity and the digest of the artifact. -/
  found : state.records.find? (fun record =>
    record.identity == Materialization.identityKey selected.identity &&
      record.artifactSha256 == selected.artifact.sha256.text) = some record
  /-- The other fields agree. -/
  fields : record.destination = destinationStart ++ destinationName selected ∧
    record.package = selected.package.text ∧ record.version = selected.version.raw ∧
    record.size = selected.artifact.size
  /-- The cached archive is as recorded. -/
  cached : verifyCacheObject sha256 selected.artifact = .ok ()
  /-- The archive in the repository has the digest. -/
  published : ∃ bytes, (project.get? repositoryName).bind (Node.at? (artifactPath selected)) =
    some (.file bytes) ∧ (sha256 bytes).text = selected.artifact.sha256.text

/-- The check of one artifact against a committed state. -/
theorem validateExistingArtifact_eq_ok {selected : MaterializationArtifact} :
    validateExistingArtifact sha256 project state selected = .ok () ↔
      ∃ record, ExistingArtifact sha256 project state selected record := by
  unfold validateExistingArtifact
  cases found : state.records.find? (fun record =>
      record.identity == Materialization.identityKey selected.identity &&
        record.artifactSha256 == selected.artifact.sha256.text) with
  | none =>
    simp only [reduceCtorEq, false_iff, not_exists]
    intro record existing
    rw [existing.found] at found
    cases found
  | some record =>
    simp only [bind_eq_ok, ensure_eq_ok]
    constructor
    · rintro ⟨_, fields, _, cached, published⟩
      refine ⟨record, found, fields, cached, ?_⟩
      split at published
      · next bytes inside => exact ⟨bytes, inside, ensure_eq_ok.mp published⟩
      · cases published
    · rintro ⟨other, existing⟩
      obtain rfl : record = other := Option.some.inj (found.symm.trans existing.found)
      obtain ⟨bytes, inside, digest⟩ := existing.published
      refine ⟨(), existing.fields, (), existing.cached, ?_⟩
      rw [inside]
      exact ensure_of digest

/-- The record found for an artifact describes it. -/
theorem ExistingArtifact.describes {selected : MaterializationArtifact}
    {record : MaterializationRecord}
    (existing : ExistingArtifact sha256 project state selected record) :
    record ∈ state.records ∧ record.plain = recorded selected := by
  have tested := List.find?_some existing.found
  simp only [Bool.and_eq_true, beq_iff_eq] at tested
  refine ⟨List.mem_of_find?_eq_some existing.found, describes_iff.mp ?_⟩
  simp [MaterializationRecord.describes, tested, existing.fields]

/-- A committed state that a valid request passes records the request. -/
theorem records_of_existing {left right : List MaterializationArtifact} (validLeft : ValidInputs left)
    (validRight : ValidInputs right)
    (records : state.records.map MaterializationRecord.plain = requestRecords left)
    (accepted : validateExistingState sha256 project state right = .ok ()) :
    state.records.map MaterializationRecord.plain = requestRecords right := by
  simp only [validateExistingState, bind_eq_ok, ensure_eq_ok] at accepted
  obtain ⟨_, ⟨-, lengths⟩, each⟩ := accepted
  have inside : right.map recorded ⊆ requestRecords left := by
    intro record member
    obtain ⟨selected, isRight, rfl⟩ := List.mem_map.mp member
    obtain ⟨found, existing⟩ :=
      validateExistingArtifact_eq_ok.mp (forM_eq_ok.mp each selected isRight)
    rw [← existing.describes.2, ← records]
    exact List.mem_map_of_mem existing.describes.1
  have count : (requestRecords left).length ≤ (right.map recorded).length := by
    rw [← records, List.length_map, List.length_map, lengths]
  have order : (right.map recorded).Perm (requestRecords left) :=
    (List.subperm_of_subset validRight.recorded_nodup inside).perm_of_length_le count
  have canonical : (requestRecords right).Perm (requestRecords left) :=
    ((canonicalArtifacts_perm_self right).map recorded).trans order
  rw [records]
  exact Sorting.strict_ext validLeft.strict validRight.strict fun record =>
    canonical.symm.mem_iff

end Existing

end Rsolve
