import Rsolve.Repository.Records

/-!
# What a repository holds

A repository passes its validation exactly when it has the layout, the names, the archives and the
index of its records. The directory that a run builds passes, and a repository that passes lets the
request of its records pass as a validated no-op.
-/
open Keyed Checked Ordered

namespace Rsolve

variable {sha256 : List UInt8 → Sha256Digest}

/-- A path is followed part by part. -/
theorem Node.at?_append (first second : List String) (node : Node) :
    node.at? (first ++ second) = (node.at? first).bind (Node.at? second) := by
  induction first generalizing node with
  | nil => rfl
  | cons name rest ih =>
    simp only [List.cons_append, Node.at?]
    cases node.entries.lookup name with
    | none => rfl
    | some child => exact ih child

/-- A validated repository has the layout, the names, the archives and the index of its records. -/
structure ValidRepository (sha256 : List UInt8 → Sha256Digest) (repository : Node)
    (records : List MaterializationRecord) (indexSha256 : String) (files : List (String × Node)) :
    Prop where
  /-- The archives are in `src/contrib`. -/
  contrib : repository.at? ["src", "contrib"] = some (.directory files)
  /-- Every directory has the names it should have. -/
  names : ∃ src, repository.at? ["src"] = some (.directory src) ∧
    SameNames repository.names ["src"] ∧ SameNames (Node.directory src).names ["contrib"] ∧
    SameNames (Node.directory files).names ("PACKAGES" ::
      records.filterMap (fun record => stripStart destinationStart record.destination))
  /-- Every record has its archive. -/
  archives : ∀ record ∈ records, ∃ name bytes,
    stripStart destinationStart record.destination = some name ∧
      (Node.directory files).at? [name] = some (.file bytes) ∧
      bytes.length = record.size ∧ (sha256 bytes).text = record.artifactSha256
  /-- The index has its digest. -/
  index : ∃ bytes, (Node.directory files).at? ["PACKAGES"] = some (.file bytes) ∧
    (sha256 bytes).text = indexSha256

/-- One record passes when its archive is there with its length and digest. -/
theorem validateRecord_eq_ok {path : List String} {contrib : Node} {record : MaterializationRecord} :
    validateRecord sha256 path contrib record = .ok () ↔ ∃ name bytes,
      stripStart destinationStart record.destination = some name ∧
        contrib.at? [name] = some (.file bytes) ∧ bytes.length = record.size ∧
        (sha256 bytes).text = record.artifactSha256 := by
  unfold validateRecord
  split
  · next none => simp [none]
  · next name stripped =>
    split
    · next bytes inside =>
      rw [ensure_eq_ok]
      constructor
      · exact fun checked => ⟨name, bytes, stripped, inside, checked⟩
      · rintro ⟨other, others, found, node, checked⟩
        obtain rfl := Option.some.inj (stripped.symm.trans found)
        rw [inside] at node
        cases node
        exact checked
    · next different =>
      simp only [reduceCtorEq, false_iff, not_exists]
      rintro other bytes ⟨found, node, -⟩
      obtain rfl := Option.some.inj (stripped.symm.trans found)
      exact different bytes node

/-- The index passes when it has its digest. -/
theorem validateIndex_eq_ok {path : List String} {contrib : Node} {indexSha256 : String} :
    validateIndex sha256 path contrib indexSha256 = .ok () ↔ ∃ bytes,
      contrib.at? ["PACKAGES"] = some (.file bytes) ∧ (sha256 bytes).text = indexSha256 := by
  unfold validateIndex
  split
  · next bytes inside =>
    rw [ensure_eq_ok]
    constructor
    · exact fun digest => ⟨bytes, inside, digest⟩
    · rintro ⟨others, node, digest⟩
      rw [inside] at node
      cases node
      exact digest
  · next different =>
    simp only [reduceCtorEq, false_iff, not_exists]
    rintro bytes ⟨node, -⟩
    exact different bytes node

/-- The check of a repository. -/
theorem validateRepositoryContents_eq_ok {path : List String} {repository : Node}
    {records : List MaterializationRecord} {indexSha256 : String} :
    validateRepositoryContents sha256 path repository records indexSha256 = .ok () ↔
      ∃ files, ValidRepository sha256 repository records indexSha256 files := by
  unfold validateRepositoryContents
  split
  · next src files isSrc isContrib =>
    simp only [bind_eq_ok, ensure_eq_ok, validateIndex_eq_ok]
    constructor
    · rintro ⟨_, ⟨top, middle⟩, _, bottom, _, archives, index⟩
      refine ⟨files, isContrib, ⟨src, isSrc, top, middle, bottom⟩, fun record member => ?_, index⟩
      exact validateRecord_eq_ok.mp (forM_eq_ok.mp archives record member)
    · rintro ⟨others, valid⟩
      obtain ⟨first, found, top, middle, bottom⟩ := valid.names
      obtain rfl : files = others :=
        Node.directory.inj (Option.some.inj (isContrib.symm.trans valid.contrib))
      obtain rfl : src = first := Node.directory.inj (Option.some.inj (isSrc.symm.trans found))
      exact ⟨(), ⟨top, middle⟩, (), bottom, (),
        forM_eq_ok.mpr fun record member => validateRecord_eq_ok.mpr (valid.archives record member),
        valid.index⟩
  · next different =>
    simp only [reduceCtorEq, false_iff, not_exists]
    intro files valid
    obtain ⟨src, found, -⟩ := valid.names
    exact different src files found valid.contrib

/-- What stands after a beginning. -/
theorem stripStart_append (start text : String) : stripStart start (start ++ text) = some text := by
  have begins : startsWith start (start ++ text) = true := by
    rw [startsWith, List.isPrefixOf_iff_prefix, String.toList_append]
    exact List.prefix_append ..
  rw [stripStart, if_pos begins, String.toList_append, List.drop_left, String.ofList_toList]

/-- A request passes against the committed state that records it. -/
theorem validateExistingState_of_records {project : Project} {state : MaterializationState}
    {left right : List MaterializationArtifact} {repository : Node} {files : List (String × Node)}
    (valid : ValidInputs left) (order : right.Perm left) (schema : state.schemaVersion = 2)
    (records : state.records.map MaterializationRecord.plain = requestRecords left)
    (published : project.get? repositoryName = some repository)
    (holds : ValidRepository sha256 repository state.records state.indexSha256 files)
    (cached : ∀ selected ∈ right, verifyCacheObject sha256 selected.artifact = .ok ()) :
    validateExistingState sha256 project state right = .ok () := by
  have plainOf : ∀ record ∈ state.records, ∃ selected ∈ left, record.plain = recorded selected := by
    intro record member
    have inside : record.plain ∈ requestRecords left := records ▸ List.mem_map_of_mem member
    obtain ⟨selected, isLeft, equal⟩ := List.mem_map.mp inside
    exact ⟨selected, (canonicalArtifacts_perm_self left).mem_iff.mp isLeft, equal.symm⟩
  have lengths : state.records.length = right.length := by
    have counts := congrArg List.length records
    rw [List.length_map, requestRecords, List.length_map,
      (canonicalArtifacts_perm_self left).length_eq, ← order.length_eq] at counts
    exact counts
  rw [validateExistingState, ensure_of ⟨schema, lengths⟩, ok_bind, forM_eq_ok]
  intro selected member
  rw [validateExistingArtifact_eq_ok]
  have isLeft : selected ∈ left := order.mem_iff.mp member
  obtain ⟨own, ownIn, ownPlain⟩ : ∃ record ∈ state.records, record.plain = recorded selected := by
    have inside : recorded selected ∈ state.records.map MaterializationRecord.plain :=
      records ▸ List.mem_map_of_mem ((canonicalArtifacts_perm_self left).mem_iff.mpr isLeft)
    exact List.mem_map.mp inside
  have ownTested := describes_iff.mpr ownPlain
  simp only [MaterializationRecord.describes, Bool.and_eq_true, beq_iff_eq] at ownTested
  obtain ⟨record, found⟩ : ∃ record, state.records.find? (fun record =>
      record.identity == Materialization.identityKey selected.identity &&
        record.artifactSha256 == selected.artifact.sha256.text) = some record := by
    rw [← Option.isSome_iff_exists, List.find?_isSome]
    exact ⟨own, ownIn, by simp [ownTested]⟩
  -- the key of an identity names its package, so the record found is that of the artifact
  obtain ⟨other, otherIn, otherPlain⟩ := plainOf record (List.mem_of_find?_eq_some found)
  have fields := describes_iff.mpr otherPlain
  simp only [MaterializationRecord.describes, Bool.and_eq_true, beq_iff_eq] at fields
  have tested := List.find?_some found
  simp only [Bool.and_eq_true, beq_iff_eq] at tested
  obtain rfl : other = selected := valid.eq_of_package otherIn isLeft
    (name_eq_of_identityKey (fields.1.1.1.1.1.symm.trans tested.1))
  refine ⟨record, found, ⟨fields.2, fields.1.1.1.1.2, fields.1.1.1.2, fields.1.2⟩,
    cached other member, ?_⟩
  obtain ⟨name, bytes, stripped, archive, -, digest⟩ :=
    holds.archives record (List.mem_of_find?_eq_some found)
  rw [fields.2, stripStart_append, Option.some.injEq] at stripped
  refine ⟨bytes, ?_, digest.trans tested.2⟩
  have path : artifactPath other = ["src", "contrib"] ++ [name] := by rw [← stripped]; rfl
  rw [published, Option.bind_some, path, Node.at?_append, holds.contrib, Option.bind_some, archive]

/-- A directory with archives in `src/contrib`. -/
def contribTree (files : List (String × Node)) : Node :=
  .directory [("src", .directory [("contrib", .directory files)])]

/-- A new file is added after the others. -/
theorem setEntry_of_not_mem {name : String} {node : Node} {files : List (String × Node)}
    (fresh : name ∉ files.map Prod.fst) : Node.setEntry name node files = files ++ [(name, node)] := by
  induction files with
  | nil => rfl
  | cons entry rest ih =>
    rw [List.map_cons, List.mem_cons, not_or] at fresh
    rw [Node.setEntry, if_neg (Ne.symm fresh.1), ih fresh.2]
    rfl

/-- The files of `src/contrib`. -/
theorem at?_contribTree (files : List (String × Node)) (name : String) :
    (contribTree files).at? ["src", "contrib", name] = files.lookup name := by
  simp [contribTree, Node.at?, Node.entries]

/-- A new file is put into `src/contrib`. -/
theorem put_contribTree {files : List (String × Node)} {name : String} (node : Node)
    (fresh : name ∉ files.map Prod.fst) :
    node.put ["src", "contrib", name] (contribTree files) = contribTree (files ++ [(name, node)]) := by
  simp [contribTree, Node.put, Node.entries, Node.setEntry, setEntry_of_not_mem fresh]

/-- A name is looked up exactly when it is there. -/
theorem lookup_eq_none_iff {files : List (String × Node)} {name : String} :
    files.lookup name = none ↔ name ∉ files.map Prod.fst := by
  rw [List.lookup_eq_none_iff]
  constructor
  · intro others member
    obtain ⟨entry, inside, rfl⟩ := List.mem_map.mp member
    exact absurd (others entry inside) (by simp)
  · intro absent entry inside
    rw [bne_iff_ne]
    rintro rfl
    exact absent (List.mem_map_of_mem inside)

/-- An archive that was cloned or copied from its verified cache object. -/
def Archived (sha256 : List UInt8 → Sha256Digest) (selected : MaterializationArtifact)
    (entry : String × Node) : Prop :=
  ∃ bytes, bytes.length = selected.artifact.size ∧
    (sha256 bytes).text = selected.artifact.sha256.text ∧
    entry = (destinationName selected, .file bytes)

/-- The names of archives are the destinations. -/
theorem Archived.names {artifacts : List MaterializationArtifact} {archives : List (String × Node)}
    (archived : List.Forall₂ (Archived sha256) artifacts archives) :
    archives.map Prod.fst = artifacts.map destinationName := by
  induction archived with
  | nil => rfl
  | cons head _ ih =>
    obtain ⟨bytes, -, -, rfl⟩ := head
    rw [List.map_cons, List.map_cons, ih]

/-- No destination is the index. -/
theorem destinationName_ne_packages (selected : MaterializationArtifact) :
    destinationName selected ≠ "PACKAGES" := by
  intro equal
  have inside : '_' ∈ (destinationName selected).toList := by
    simp [destinationName]
  rw [equal] at inside
  exact absurd inside (by decide)

/-- A file of a list with distinct names is looked up under its name. -/
theorem lookup_of_mem {files : List (String × Node)} {name : String} {node : Node}
    (distinct : (files.map Prod.fst).Nodup) (member : (name, node) ∈ files) :
    files.lookup name = some node := by
  induction files with
  | nil => cases member
  | cons entry rest ih =>
    obtain ⟨apart, distinct⟩ := List.nodup_cons.mp distinct
    rcases List.mem_cons.mp member with rfl | member
    · simp
    · have differs : name ≠ entry.1 := by
        intro equal
        exact apart (equal ▸ List.mem_map_of_mem (f := Prod.fst) member)
      rw [List.lookup_cons, beq_eq_false_iff_ne.mpr differs]
      exact ih distinct member

/-- The records of what was built are those of the artifacts, methods aside. -/
theorem plain_zipWith {artifacts : List MaterializationArtifact}
    {methods : List MaterializationMethod} (lengths : methods.length = artifacts.length) :
    (List.zipWith recordFor artifacts methods).map MaterializationRecord.plain =
      artifacts.map recorded := by
  induction artifacts generalizing methods with
  | nil => rfl
  | cons selected rest ih =>
    cases methods with
    | nil => cases lengths
    | cons method methods =>
      rw [List.zipWith_cons_cons, List.map_cons, List.map_cons, ih (Nat.succ.inj lengths)]
      rfl

/-- A record of what was built is the record of an artifact. -/
theorem exists_of_mem_zipWith {artifacts : List MaterializationArtifact}
    {methods : List MaterializationMethod} {record : MaterializationRecord}
    (member : record ∈ List.zipWith recordFor artifacts methods) :
    ∃ selected ∈ artifacts, ∃ method, record = recordFor selected method := by
  induction artifacts generalizing methods with
  | nil => cases member
  | cons selected rest ih =>
    cases methods with
    | nil => cases member
    | cons method methods =>
      rcases List.mem_cons.mp member with rfl | member
      · exact ⟨selected, List.mem_cons_self, method, rfl⟩
      · obtain ⟨other, inside, found⟩ := ih member
        exact ⟨other, List.mem_cons_of_mem _ inside, found⟩

/-- The destinations of the records of what was built are those of the artifacts. -/
theorem destinations_zipWith {artifacts : List MaterializationArtifact}
    {methods : List MaterializationMethod} (lengths : methods.length = artifacts.length) :
    (List.zipWith recordFor artifacts methods).filterMap
        (fun record => stripStart destinationStart record.destination) =
      artifacts.map destinationName := by
  induction artifacts generalizing methods with
  | nil => rfl
  | cons selected rest ih =>
    cases methods with
    | nil => cases lengths
    | cons method methods =>
      rw [List.zipWith_cons_cons, List.filterMap_cons_some (b := destinationName selected),
        ih (Nat.succ.inj lengths), List.map_cons]
      exact stripStart_append ..

/-- A directory with the archives and the index of a request passes as its repository. -/
theorem validRepository_built {artifacts : List MaterializationArtifact}
    {archives : List (String × Node)} {methods : List MaterializationMethod} (packages : List UInt8)
    (archived : List.Forall₂ (Archived sha256) artifacts archives)
    (distinct : (artifacts.map destinationName).Nodup)
    (lengths : methods.length = artifacts.length) :
    ValidRepository sha256 (contribTree (archives ++ [("PACKAGES", .file packages)]))
      (List.zipWith recordFor artifacts methods) (sha256 packages).text
      (archives ++ [("PACKAGES", .file packages)]) := by
  have names : (archives ++ [("PACKAGES", Node.file packages)]).map Prod.fst =
      artifacts.map destinationName ++ ["PACKAGES"] := by
    rw [List.map_append, Archived.names archived]
    rfl
  have distinctNames : ((archives ++ [("PACKAGES", Node.file packages)]).map Prod.fst).Nodup := by
    rw [names, List.nodup_append]
    refine ⟨distinct, List.nodup_singleton _, fun name inside other member => ?_⟩
    obtain ⟨selected, -, rfl⟩ := List.mem_map.mp inside
    rw [List.mem_singleton.mp member]
    exact destinationName_ne_packages selected
  refine ⟨rfl, ⟨_, rfl, ⟨by simp [contribTree, Node.names, Node.entries],
    by simp [contribTree, Node.names, Node.entries]⟩, ⟨by simp [Node.names, Node.entries],
    by simp [Node.names, Node.entries]⟩, ?_⟩, fun record member => ?_, ⟨packages, ?_, rfl⟩⟩
  · rw [destinations_zipWith lengths]
    change SameNames ((archives ++ [("PACKAGES", Node.file packages)]).map Prod.fst) _
    rw [names]
    constructor
    all_goals
      intro name
      simp only [List.mem_append, List.mem_cons, List.not_mem_nil, or_false]
      exact Or.symm
  · obtain ⟨selected, inside, method, rfl⟩ := exists_of_mem_zipWith member
    obtain ⟨entry, isArchive, bytes, length, digest, rfl⟩ :
        ∃ entry ∈ archives, Archived sha256 selected entry := by
      obtain ⟨index, bound, rfl⟩ := List.getElem_of_mem inside
      have counts := archived.length_eq
      exact ⟨archives[index], List.getElem_mem _, archived.get bound (by omega)⟩
    refine ⟨destinationName selected, bytes, stripStart_append .., ?_, length, digest⟩
    have found := lookup_of_mem distinctNames (List.mem_append_left _ isArchive)
    simp only [Node.at?, Node.entries, found, Option.bind_some]
  · have found := lookup_of_mem distinctNames
      (List.mem_append_right archives (List.mem_singleton_self ("PACKAGES", Node.file packages)))
    simp only [Node.at?, Node.entries, found, Option.bind_some]

end Rsolve
