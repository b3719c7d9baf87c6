import Rsolve.Repository.DependencyTexts
import Rsolve.Repository.Texts

/-!
# Reading the package index

The index is cut into paragraphs at its blank lines, and the fields of each paragraph are parsed as a
package description. For artifacts that a package description can describe there is one paragraph for
each, in package order, and it says what the artifact says.
-/
open Keyed Checked Ordered Paragraphs

namespace Rsolve

open PackageDescription

/-- What the parsed fields of a record have of the artifact. -/
structure ReadBack (artifact : MaterializationArtifact) (parsed : ParsedDescription) : Prop where
  /-- The package. -/
  package : parsed.package = artifact.package
  /-- The version, as it is spelled. -/
  version : parsed.version.raw = artifact.version.raw
  /-- The publication date. -/
  publication : parsed.publication = artifact.publication
  /-- The dependencies, in some order, with versions as they are spelled. -/
  dependencies : ∃ order : List DeclaredDependency, order.Perm artifact.dependencies ∧
    List.Forall₂ DeclaredDependency.SpelledAlike order parsed.dependencies
  /-- The other metadata, under canonical names and without the blanks in front of value lines. -/
  metadata : parsed.metadata.fields.Perm (artifact.metadata.fields.map fun field =>
    (canonicalFieldName field.1, String.ofList (unfoldedValue field.2.toList)))

/-- The fields of a paragraph, as texts. -/
def readFields (paragraph : List (List Char)) : RecordFields :=
  (fieldsOf paragraph).map fun field => (String.ofList field.1, String.ofList field.2)

/-- The index of artifacts says what they are: it does not depend on any order, and cut at its blank
lines it has one paragraph for each, in package order, that is parsed as what the artifact says. -/
def IndexFaithful (basis : CatalogBasis) (artifacts : List MaterializationArtifact) : Prop :=
  ∀ bytes, writePackages artifacts = .ok bytes →
    (∀ other, Rearranges artifacts other → writePackages other = .ok bytes) ∧
    ∃ text : String, bytes = Framing.textBytes text ∧
      ∃ rows : List MaterializationArtifact, rows.Perm artifacts ∧
        rows.Pairwise (fun left right => compare left.package right.package = .lt) ∧
        List.Forall₂ (fun artifact paragraph => ∃ parsed,
          parseDescriptionFields basis (readFields paragraph) = .ok parsed ∧
            ReadBack artifact parsed) rows (paragraphs text.toList)

/-- The dependencies of an artifact have versions of at least two components. -/
def DependenciesVersioned (artifact : MaterializationArtifact) : Prop :=
  ∀ dependency ∈ artifact.dependencies, ∀ clause ∈ dependency.package.constraint.clauses,
    2 ≤ clause.version.values.length

/-- What a package description can say of an artifact, and what the index keeps of it. -/
structure Describable (artifact : MaterializationArtifact) : Prop where
  /-- The version of a package has at least two components. -/
  version : 2 ≤ artifact.version.values.length
  /-- The year of the publication has four digits. -/
  published : ∀ publication, artifact.publication = some publication → 0 ≤ publication.date.year
  /-- The checksum is not metadata. -/
  checksumFree : ∀ field ∈ artifact.metadata.fields, toAsciiLowercase field.1 ≠ "md5sum"
  /-- No line of a value but the first is blank. -/
  filled : ∀ field ∈ artifact.metadata.fields,
    ∀ line ∈ (field.2.toList.splitOn '\n').tail, isBlankLine line = false

/-! ### Dates -/

/-- A date is a word, of ten characters when the year has four digits. -/
theorem PublicationDate.text_word (date : PublicationDate) :
    (∀ character ∈ date.text.toList, isWordCharacter character = true) ∧
      (0 ≤ date.year → byteLength date.text = 10) := by
  have digit : ∀ number, isWordCharacter (Nat.digitChar (number % 10)) = true ∧
      (Nat.digitChar (number % 10)).utf8Size = 1 := fun number => by
    have bound : number % 10 < 10 := Nat.mod_lt _ (by decide)
    have all : ∀ small < 10, isWordCharacter (Nat.digitChar small) = true ∧
        (Nat.digitChar small).utf8Size = 1 := by decide
    exact all _ bound
  have digits : ∀ width number, ∀ character ∈ Decimal.fixedDigits width number,
      isWordCharacter character = true ∧ character.utf8Size = 1 := by
    intro width
    induction width with
    | zero => exact fun _ => List.forall_mem_nil _
    | succ width ih =>
      intro number character member
      rcases List.mem_append.mp member with earlier | last
      · exact ih _ character earlier
      · exact List.mem_singleton.mp last ▸ digit number
  have marks : isWordCharacter '-' = true ∧ '-'.utf8Size = 1 := by decide
  have all : ∀ character ∈ date.text.toList,
      isWordCharacter character = true ∧ character.utf8Size = 1 := by
    intro character member
    rw [PublicationDate.text, String.toList_ofList] at member
    simp only [List.mem_append, List.mem_cons] at member
    rcases member with ((sign | year) | rfl | month) | rfl | day
    · split at sign
      · exact List.mem_singleton.mp sign ▸ marks
      · cases sign
    · exact digits _ _ character year
    · exact marks
    · exact digits _ _ character month
    · exact marks
    · exact digits _ _ character day
  refine ⟨fun character member => (all character member).1, fun years => ?_⟩
  have short : ∀ characters : List Char, (∀ character ∈ characters, character.utf8Size = 1) →
      characters.foldr (fun character total => character.utf8Size + total) 0 =
        characters.length := by
    intro characters sizes
    induction characters with
    | nil => rfl
    | cons character rest ih =>
      rw [List.foldr_cons, sizes character List.mem_cons_self,
        ih fun other member => sizes other (List.mem_cons_of_mem _ member), List.length_cons]
      omega
  rw [byteLength, short _ fun character member => (all character member).2, PublicationDate.text,
    String.toList_ofList, if_neg (by omega)]
  simp

/-! ### The fields of a record -/

/-- The names of the fields that a record has of its artifact itself. -/
def generatedNames : List String :=
  ["Package", "Version", "Published", "Depends", "Imports", "LinkingTo", "Suggests", "Enhances"]

/-- The names of generated fields are canonical, reserved, and distinct in any case. -/
theorem generatedNames_known :
    (∀ name ∈ generatedNames, canonicalFieldName name = name ∧ isReservedField name = true ∧
      validateFieldName name = .ok ()) ∧ (generatedNames.map toAsciiLowercase).Nodup := by
  decide +kernel

/-- A canonical name is reserved only if the name is. -/
theorem canonicalFieldName_unreserved {name : String}
    (unreserved : toAsciiLowercase name ∉ reservedFields)
    (checksumFree : toAsciiLowercase name ≠ "md5sum") :
    isReservedField (canonicalFieldName name) = false := by
  have free : ∀ taken ∈ reservedFields, toAsciiLowercase name ≠ taken :=
    fun taken member equal => unreserved (equal ▸ member)
  unfold canonicalFieldName
  split <;> rename_i equal
  all_goals first
    | decide +kernel
    | exact absurd equal checksumFree
    | exact absurd equal (free _ (by decide))
    | skip
  have others : ∀ taken ∈ reservedNames, toAsciiLowercase name ≠ taken := by
    intro taken member same
    rcases eq_or_ne taken "md5sum" with rfl | differs
    · exact checksumFree same
    · refine free taken ?_ same
      simp only [reservedNames, reservedFields, List.mem_cons, List.not_mem_nil, or_false] at member ⊢
      tauto
  exact decide_eq_false fun member => others _ member rfl

/-- A canonical name is a field name. -/
theorem validateFieldName_canonical {name : String} (valid : validateFieldName name = .ok ()) :
    validateFieldName (canonicalFieldName name) = .ok () := by
  unfold canonicalFieldName
  split
  all_goals first
    | decide +kernel
    | exact valid

/-- A field name can be read again. -/
theorem readable_of_named {field : String × String} (valid : validateFieldName field.1 = .ok ())
    (filled : ∀ line ∈ (field.2.toList.splitOn '\n').tail, isBlankLine line = false) :
    Readable (field.1.toList, field.2.toList) := by
  obtain ⟨letter, characters⟩ := ensure_eq_ok.mp valid
  have clean : ∀ mark, isFieldCharacter mark = false → mark ∉ field.1.toList :=
    fun mark other member => by
      rw [List.all_eq_true.mp characters mark member] at other
      cases other
  refine ⟨?_, clean ':' (by decide), clean '\n' (by decide), filled⟩
  cases head : field.1.toList.head? with
  | none =>
    rw [head] at letter
    cases letter
  | some first =>
    rw [head] at letter
    have alpha : first.isAlpha = true := letter
    have word : isWordCharacter first = true := by simp [isWordCharacter, Char.isAlphanum, alpha]
    exact ⟨first, rfl, (solid_of_isWordCharacter word).2.1⟩

/-- What is known of the fields of a record. -/
structure WrittenRecord (artifact : MaterializationArtifact) (fields : List (String × String)) :
    Prop where
  /-- No name stands twice. -/
  distinct : (fields.map fun field => toAsciiLowercase field.1).Nodup
  /-- The names are field names. -/
  named : ∀ field ∈ fields, validateFieldName field.1 = .ok ()
  /-- The package is there. -/
  package : ("Package", artifact.package.text) ∈ fields
  /-- The version is there. -/
  version : ("Version", artifact.version.raw) ∈ fields
  /-- The publication date is there if it is known. -/
  published : ∀ publication, artifact.publication = some publication →
    ("Published", publication.date.text) ∈ fields
  /-- Otherwise it is not. -/
  unpublished : artifact.publication = none → ∀ field ∈ fields, field.1 ≠ "Published"
  /-- The dependencies of a kind are there if there are any. -/
  dependencies : ∀ entry ∈ dependencyFields,
    artifact.dependencies.filter (·.kind == entry.1) ≠ [] → ∃ rendered,
      List.Forall₂ (fun dependency text => renderDependency dependency entry.2 = .ok text)
        (artifact.dependencies.filter (·.kind == entry.1)) rendered ∧
      (entry.2, dependencyValue rendered) ∈ fields
  /-- Otherwise they are not. -/
  independent : ∀ entry ∈ dependencyFields,
    artifact.dependencies.filter (·.kind == entry.1) = [] → ∀ field ∈ fields, field.1 ≠ entry.2
  /-- The fields that are not reserved are the metadata. -/
  metadata : ∀ field, (field ∈ fields ∧ isReservedField field.1 = false) ↔
    ∃ other ∈ artifact.metadata.fields, field = (canonicalFieldName other.1, other.2)
  /-- The fields that are reserved have canonical names. -/
  generated : ∀ field ∈ fields, isReservedField field.1 = true → field.1 ∈ generatedNames
  /-- Their values have one line. -/
  oneLine : ∀ field ∈ fields, isReservedField field.1 = true → '\n' ∉ field.2.toList
  /-- No two fields of the metadata have one canonical name. -/
  canonical : (artifact.metadata.fields.map fun field => canonicalFieldName field.1).Nodup

/-- What is known of the fields of the artifact itself. -/
theorem mem_generatedFields {artifact : MaterializationArtifact} {fields : List (String × String)}
    (written : generatedFields artifact = .ok fields) {field : String × String} :
    field ∈ fields ↔ field = ("Package", artifact.package.text) ∨
      field = ("Version", artifact.version.raw) ∨
      (∃ publication, artifact.publication = some publication ∧
        field = ("Published", publication.date.text)) ∨
      ∃ entry ∈ dependencyFields, artifact.dependencies.filter (·.kind == entry.1) ≠ [] ∧
        ∃ rendered, renderDependencies entry.2 []
            (artifact.dependencies.filter (·.kind == entry.1)) = .ok rendered ∧
          field = (entry.2, dependencyValue rendered) := by
  obtain ⟨lists, mapped, finished⟩ := bind_eq_ok.mp written
  obtain rfl := Except.ok.inj finished
  simp only [List.cons_append, List.nil_append, List.mem_cons, List.mem_append, Option.mem_toList,
    Option.map_eq_some_iff, List.mem_flatten, mem_of_mapM_eq_ok mapped,
    dependencyField_eq_ok]
  refine or_congr Iff.rfl (or_congr Iff.rfl (or_congr ?_ ?_))
  · exact exists_congr fun publication => and_congr Iff.rfl eq_comm
  · constructor
    · rintro ⟨_, ⟨entry, entryIn, ⟨-, rfl⟩ | ⟨some, rendered, all, rfl⟩⟩, inside⟩
      · cases inside
      · exact ⟨entry, entryIn, some, rendered, all, List.mem_singleton.mp inside⟩
    · rintro ⟨entry, entryIn, some, rendered, all, rfl⟩
      exact ⟨_, ⟨entry, entryIn, .inr ⟨some, rendered, all, rfl⟩⟩, List.mem_singleton.mpr rfl⟩

/-- The values of the fields of the artifact itself have one line. -/
theorem generatedFields_oneLine {artifact : MaterializationArtifact}
    {fields : List (String × String)} (written : generatedFields artifact = .ok fields)
    {field : String × String} (member : field ∈ fields) : '\n' ∉ field.2.toList := by
  have line : isWordCharacter '\n' = false := by decide
  rcases (mem_generatedFields written).mp member with rfl | rfl | ⟨publication, -, rfl⟩ |
    ⟨entry, -, -, rendered, all, rfl⟩
  · exact fun inside => by simpa [line] using PackageName.text_word inside
  · exact fun inside => by simpa [line] using RPackageVersion.raw_word inside
  · exact fun inside => by simpa [line] using publication.date.text_word.1 _ inside
  · exact dependencyValue_oneLine (dependencyTexts_of_rendered
      (renderDependencies_eq_ok.mp all).2.2)

/-- The names of the fields of the artifact itself, in their order. -/
theorem generatedFields_names {artifact : MaterializationArtifact}
    {fields : List (String × String)} (written : generatedFields artifact = .ok fields) :
    (fields.map Prod.fst).Sublist generatedNames := by
  obtain ⟨lists, mapped, finished⟩ := bind_eq_ok.mp written
  obtain rfl := Except.ok.inj finished
  have flat : ∀ (entries : List (DependencyKind × String)) (lists : List (List (String × String))),
      List.Forall₂ (fun entry list =>
        dependencyField artifact.dependencies entry.1 entry.2 = .ok list) entries lists →
      (lists.flatten.map Prod.fst).Sublist (entries.map Prod.snd) := by
    intro entries lists related
    induction related with
    | nil => exact List.Sublist.slnil
    | @cons entry list entries lists made _ ih =>
      rw [List.flatten_cons, List.map_append, List.map_cons, ← List.singleton_append]
      refine List.Sublist.append ?_ ih
      rcases dependencyField_eq_ok.mp made with ⟨-, rfl⟩ | ⟨-, rendered, -, rfl⟩
      · exact List.nil_sublist _
      · exact List.Sublist.refl _
  have publication : ((artifact.publication.map fun publication =>
      ("Published", publication.date.text)).toList.map Prod.fst).Sublist ["Published"] := by
    cases artifact.publication with
    | none => exact List.nil_sublist _
    | some publication => exact List.Sublist.refl _
  have later := flat dependencyFields lists (mapM_eq_ok.mp mapped)
  simp only [List.map_append]
  exact ((List.Sublist.refl ["Package", "Version"]).append publication).append later

/-- The names of the dependency fields are generated and distinct, and no other generated field has
one. -/
theorem dependencyFields_known :
    (∀ entry ∈ dependencyFields, entry.2 ∈ generatedNames ∧ entry.2 ≠ "Package" ∧
      entry.2 ≠ "Version" ∧ entry.2 ≠ "Published") ∧
      (dependencyFields.map Prod.snd).Nodup := by
  decide +kernel

/-- The fields of a written record are those of its artifact. -/
theorem writtenRecord_of_eq_ok {artifact : MaterializationArtifact}
    (describable : Describable artifact) {fields : List (String × String)}
    (written : writtenFields artifact = .ok fields) : WrittenRecord artifact fields := by
  obtain ⟨generated, generatedOk, written⟩ := bind_eq_ok.mp written
  obtain ⟨others, othersOk, finished⟩ := bind_eq_ok.mp written
  obtain rfl := Except.ok.inj finished
  have names := generatedFields_names generatedOk
  have known := metadataWritten_of_eq_ok othersOk
  have order := Sorting.sortBy_perm compareFields (generated ++ others)
  have mem : ∀ {field : String × String}, field ∈ Sorting.sortBy compareFields (generated ++ others) ↔
      field ∈ generated ∨ field ∈ others := fun {field} => by
    rw [Sorting.mem_sortBy, List.mem_append]
  have own : ∀ field ∈ generated, field.1 ∈ generatedNames := fun field member =>
    names.subset (List.mem_map_of_mem member)
  have unreserved : ∀ field ∈ others, isReservedField field.1 = false := fun field member => by
    rw [known.canonical] at member
    obtain ⟨other, otherIn, rfl⟩ := List.mem_map.mp member
    exact canonicalFieldName_unreserved (artifact.metadata.unreserved other otherIn)
      (describable.checksumFree other otherIn)
  have reserved : ∀ field ∈ generated, isReservedField field.1 = true := fun field member =>
    (generatedNames_known.1 field.1 (own field member)).2.1
  have foreign : ∀ field ∈ others, field.1 ∉ generatedNames := fun field member taken => by
    have free := unreserved field member
    rw [(generatedNames_known.1 field.1 taken).2.1] at free
    cases free
  refine ⟨?_, fun field member => ?_, ?_, ?_, fun publication published => ?_,
    fun unpublished field member => ?_, fun entry entryIn some => ?_,
    fun entry entryIn none field member => ?_, fun field => ?_, fun field member taken => ?_,
    fun field member taken => ?_, ?_⟩
  · refine (order.map _).nodup_iff.mpr ?_
    rw [List.map_append]
    refine List.nodup_append.mpr ⟨?_, known.distinct, ?_⟩
    · have lowered := (names.map toAsciiLowercase).nodup generatedNames_known.2
      rwa [List.map_map] at lowered
    · rintro _ first _ second rfl
      obtain ⟨field, fieldIn, rfl⟩ := List.mem_map.mp first
      obtain ⟨other, otherIn, equal⟩ := List.mem_map.mp second
      refine known.apart other otherIn (List.mem_map.mpr ⟨field, fieldIn, ?_⟩)
      rw [(generatedNames_known.1 field.1 (own field fieldIn)).1, equal]
  · rcases mem.mp member with ofArtifact | ofMetadata
    · exact (generatedNames_known.1 field.1 (own field ofArtifact)).2.2
    · rw [known.canonical] at ofMetadata
      obtain ⟨other, otherIn, rfl⟩ := List.mem_map.mp ofMetadata
      exact validateFieldName_canonical (known.named other otherIn)
  · exact mem.mpr (.inl ((mem_generatedFields generatedOk).mpr (.inl rfl)))
  · exact mem.mpr (.inl ((mem_generatedFields generatedOk).mpr (.inr (.inl rfl))))
  · exact mem.mpr (.inl ((mem_generatedFields generatedOk).mpr
      (.inr (.inr (.inl ⟨publication, published, rfl⟩)))))
  · rintro named
    rcases mem.mp member with ofArtifact | ofMetadata
    · rcases (mem_generatedFields generatedOk).mp ofArtifact with rfl | rfl |
        ⟨publication, published, -⟩ | ⟨entry, entryIn, -, rendered, -, rfl⟩
      · exact absurd (show "Package" = "Published" from named) (by decide)
      · exact absurd (show "Version" = "Published" from named) (by decide)
      · rw [unpublished] at published
        cases published
      · exact (dependencyFields_known.1 entry entryIn).2.2.2 named
    · exact foreign field ofMetadata (named ▸ by decide)
  · obtain ⟨lists, mapped, -⟩ := bind_eq_ok.mp generatedOk
    obtain ⟨list, -, made⟩ := exists_mem_of_mapM_eq_ok mapped entryIn
    rcases dependencyField_eq_ok.mp made with ⟨none, -⟩ | ⟨-, rendered, all, -⟩
    · exact absurd none some
    · exact ⟨rendered, (renderDependencies_eq_ok.mp all).2.2, mem.mpr (.inl
        ((mem_generatedFields generatedOk).mpr
          (.inr (.inr (.inr ⟨entry, entryIn, some, rendered, all, rfl⟩)))))⟩
  · rintro named
    obtain ⟨entryNamed, notPackage, notVersion, notPublished⟩ :=
      dependencyFields_known.1 entry entryIn
    rcases mem.mp member with ofArtifact | ofMetadata
    · rcases (mem_generatedFields generatedOk).mp ofArtifact with rfl | rfl |
        ⟨publication, -, rfl⟩ | ⟨other, otherIn, some, rendered, -, rfl⟩
      · exact notPackage named.symm
      · exact notVersion named.symm
      · exact notPublished named.symm
      · obtain rfl := List.inj_on_of_nodup_map dependencyFields_known.2 otherIn entryIn named
        exact some none
    · exact foreign field ofMetadata (named ▸ entryNamed)
  · constructor
    · rintro ⟨member, free⟩
      rcases mem.mp member with ofArtifact | ofMetadata
      · rw [reserved field ofArtifact] at free
        cases free
      · rw [known.canonical] at ofMetadata
        obtain ⟨other, otherIn, rfl⟩ := List.mem_map.mp ofMetadata
        exact ⟨other, otherIn, rfl⟩
    · rintro ⟨other, otherIn, rfl⟩
      have ofMetadata : (canonicalFieldName other.1, other.2) ∈ others := by
        rw [known.canonical]
        exact List.mem_map.mpr ⟨other, otherIn, rfl⟩
      exact ⟨mem.mpr (.inr ofMetadata), unreserved _ ofMetadata⟩
  · rcases mem.mp member with ofArtifact | ofMetadata
    · exact own field ofArtifact
    · rw [unreserved field ofMetadata] at taken
      cases taken
  · rcases mem.mp member with ofArtifact | ofMetadata
    · exact generatedFields_oneLine generatedOk ofArtifact
    · rw [unreserved field ofMetadata] at taken
      cases taken
  · have distinct := known.distinct
    rw [known.canonical, List.map_map] at distinct
    have composed : (fun other : String × String => toAsciiLowercase other.1) ∘
        (fun field : String × String => (canonicalFieldName field.1, field.2)) =
        toAsciiLowercase ∘ fun field => canonicalFieldName field.1 := rfl
    rw [composed, ← List.map_map] at distinct
    exact List.Nodup.of_map _ distinct

/-! ### Lookups -/

/-- The fields of a record as they are read. -/
def unfoldedFields (fields : List (String × String)) : RecordFields :=
  fields.map fun field => (field.1, String.ofList (unfoldedValue field.2.toList))

variable {artifact : MaterializationArtifact} {fields : List (String × String)}

/-- Reading keeps the names. -/
theorem unfoldedFields_names :
    ((unfoldedFields fields).map fun field => toAsciiLowercase field.1) =
      fields.map fun field => toAsciiLowercase field.1 := by
  rw [unfoldedFields, List.map_map]
  rfl

/-- A field of a record is found under its name. -/
theorem WrittenRecord.field_eq_some (record : WrittenRecord artifact fields) {name value : String}
    (member : (name, value) ∈ fields) :
    field (unfoldedFields fields) name = some (String.ofList (unfoldedValue value.toList)) := by
  have inside : (name, String.ofList (unfoldedValue value.toList)) ∈ unfoldedFields fields :=
    List.mem_map.mpr ⟨_, member, rfl⟩
  have passes : eqIgnoreAsciiCase name name = true := beq_self_eq_true _
  have found : ((unfoldedFields fields).find? fun entry => eqIgnoreAsciiCase entry.1 name) =
      some (name, String.ofList (unfoldedValue value.toList)) := by
    cases search : (unfoldedFields fields).find? fun entry => eqIgnoreAsciiCase entry.1 name with
    | none => exact absurd passes (List.find?_eq_none.mp search _ inside)
    | some other =>
      have distinct := record.distinct
      rw [← unfoldedFields_names] at distinct
      have same : toAsciiLowercase other.1 = toAsciiLowercase name := by
        simpa [eqIgnoreAsciiCase] using List.find?_some search
      rw [List.inj_on_of_nodup_map distinct (List.mem_of_find?_eq_some search) inside same]
  rw [field, found]
  rfl

/-- A generated name that no field has is not found. -/
theorem WrittenRecord.field_eq_none (record : WrittenRecord artifact fields) {name : String}
    (generated : name ∈ generatedNames) (absent : ∀ field ∈ fields, field.1 ≠ name) :
    field (unfoldedFields fields) name = none := by
  have missed : ((unfoldedFields fields).find? fun entry => eqIgnoreAsciiCase entry.1 name) =
      none := by
    refine List.find?_eq_none.mpr fun entry member same => ?_
    obtain ⟨other, otherIn, rfl⟩ := List.mem_map.mp member
    have lowered : toAsciiLowercase other.1 = toAsciiLowercase name := by
      simpa [eqIgnoreAsciiCase] using same
    have taken : isReservedField other.1 = true := by
      rw [isReservedField, lowered]
      exact (generatedNames_known.1 name generated).2.1
    exact absent other otherIn (List.inj_on_of_nodup_map generatedNames_known.2
      (record.generated other otherIn taken) generated lowered)
  rw [field, missed]
  rfl

/-- A word is read as it is. -/
theorem unfoldedValue_word {text : String}
    (word : ∀ character ∈ text.toList, isWordCharacter character = true) :
    String.ofList (unfoldedValue text.toList) = text ∧ trimText text = text := by
  have oneLine : '\n' ∉ text.toList := fun member => absurd (word _ member) (by decide)
  have starts : ∀ first, text.toList.head? = some first → isBlank first = false :=
    fun first head => (solid_of_isWordCharacter (word first (List.mem_of_head? head))).2.1
  refine ⟨by rw [unfoldedValue_eq oneLine starts, String.ofList_toList], ?_⟩
  rw [trimText, trim_of_solid fun character member => (solid_of_isWordCharacter (word _ member)).1,
    String.ofList_toList]

/-- The items of each of some keys are the items of these keys. -/
theorem flatMap_filter_perm {α κ : Type*} [DecidableEq κ] (key : α → κ) {keys : List κ}
    (distinct : keys.Nodup) (items : List α) :
    (keys.flatMap fun wanted => items.filter (key · == wanted)).Perm
      (items.filter (key · ∈ keys)) := by
  induction keys with
  | nil => simp
  | cons wanted keys ih =>
    obtain ⟨fresh, distinct⟩ := List.nodup_cons.mp distinct
    rw [List.flatMap_cons]
    refine ((ih distinct).append_left _).trans ?_
    clear ih
    induction items with
    | nil => exact List.Perm.nil
    | cons item items ih =>
      by_cases equal : key item = wanted
      · have apart : key item ∉ keys := equal ▸ fresh
        simpa [equal, fresh] using ih
      · by_cases later : key item ∈ keys
        · simp only [List.filter_cons, List.mem_cons, equal, later, beq_iff_eq, or_true, decide_true,
            if_true, if_false]
          refine List.perm_middle.trans (List.Perm.cons item ?_)
          simpa only [List.mem_cons] using ih
        · simpa [equal, later] using ih

/-! ### Parsing -/

variable {basis : CatalogBasis}

/-- The publication date is read back. -/
theorem WrittenRecord.publicationOf_eq (record : WrittenRecord artifact fields)
    (describable : Describable artifact)
    (dates : ∀ date : PublicationDate, 0 ≤ date.year → basis.date date.text = .ok date) :
    publicationOf basis (unfoldedFields fields) = .ok artifact.publication := by
  unfold publicationOf
  cases published : artifact.publication with
  | none =>
    rw [record.field_eq_none (by decide) (record.unpublished published)]
  | some publication =>
    have years := describable.published publication published
    obtain ⟨word, ten⟩ := publication.date.text_word
    obtain ⟨unfolded, trimmed⟩ := unfoldedValue_word word
    have read : PublicationDate.parse basis publication.date.text = .ok publication.date := by
      rw [PublicationDate.parse, dates publication.date years]
      exact if_neg fun differs => differs rfl
    have parsed : parsePublicationDate basis publication.date.text = .ok publication := by
      unfold parsePublicationDate
      rw [trimmed]
      simp only [if_pos (ten years), read]
      rfl
    rw [record.field_eq_some (record.published publication published), unfolded]
    simp only [parsed]
    rfl

/-- The dependencies of one kind are read back. -/
theorem WrittenRecord.exists_fieldDependencies (record : WrittenRecord artifact fields)
    (versioned : DependenciesVersioned artifact) {entry : DependencyKind × String}
    (entryIn : entry ∈ dependencyFields) : ∃ order parsed,
      order.Perm (artifact.dependencies.filter (·.kind == entry.1)) ∧
      List.Forall₂ DeclaredDependency.SpelledAlike order parsed ∧
      fieldDependencies (unfoldedFields fields) entry.2 entry.1 = .ok parsed := by
  unfold fieldDependencies
  by_cases none : artifact.dependencies.filter (·.kind == entry.1) = []
  · refine ⟨[], [], none ▸ List.Perm.nil, List.Forall₂.nil, ?_⟩
    rw [record.field_eq_none (dependencyFields_known.1 entry entryIn).1
      (record.independent entry entryIn none)]
  · obtain ⟨rendered, all, member⟩ := record.dependencies entry entryIn none
    have many : ∀ dependency ∈ artifact.dependencies.filter (·.kind == entry.1),
        dependency.kind = entry.1 ∧ ∀ clause ∈ dependency.package.constraint.clauses,
          2 ≤ clause.version.values.length := fun dependency inside => by
      obtain ⟨declared, kind⟩ := List.mem_filter.mp inside
      exact ⟨beq_iff_eq.mp kind, versioned dependency declared⟩
    obtain ⟨unfolded, order, parsed, same, alike, read⟩ :=
      parse_dependencyValue all many none entry.2
    refine ⟨order, parsed, same, alike, ?_⟩
    rw [record.field_eq_some member, unfolded]
    simpa only [String.ofList_toList] using read

/-- The dependencies are read back. -/
theorem WrittenRecord.exists_dependencies (record : WrittenRecord artifact fields)
    (versioned : DependenciesVersioned artifact) : ∃ order lists,
      order.Perm artifact.dependencies ∧
      List.Forall₂ DeclaredDependency.SpelledAlike order lists.flatten ∧
      dependencyKinds.mapM (fun entry =>
        fieldDependencies (unfoldedFields fields) entry.1 entry.2) = .ok lists := by
  have each : ∀ entries : List (DependencyKind × String), entries ⊆ dependencyFields →
      ∃ order lists,
        order.Perm ((entries.map Prod.fst).flatMap fun kind =>
          artifact.dependencies.filter (·.kind == kind)) ∧
        List.Forall₂ DeclaredDependency.SpelledAlike order lists.flatten ∧
        List.Forall₂ (fun entry list => fieldDependencies (unfoldedFields fields) entry.2 entry.1 =
          .ok list) entries lists := by
    intro entries known
    induction entries with
    | nil => exact ⟨[], [], List.Perm.nil, List.Forall₂.nil, List.Forall₂.nil⟩
    | cons entry entries ih =>
      obtain ⟨order, lists, same, alike, read⟩ := ih fun other member =>
        known (List.mem_cons_of_mem _ member)
      obtain ⟨first, list, firstSame, firstAlike, firstRead⟩ :=
        record.exists_fieldDependencies versioned (known List.mem_cons_self)
      exact ⟨first ++ order, list :: lists, firstSame.append same,
        List.rel_append firstAlike alike, List.Forall₂.cons firstRead read⟩
  obtain ⟨order, lists, same, alike, read⟩ := each dependencyFields (List.Subset.refl _)
  have kinds : ∀ kind : DependencyKind, kind ∈ dependencyFields.map Prod.fst := by
    intro kind
    cases kind <;> decide
  have whole := @flatMap_filter_perm _ _ _ DeclaredDependency.kind (dependencyFields.map Prod.fst)
    (by decide) artifact.dependencies
  rw [List.filter_eq_self.mpr fun dependency _ => decide_eq_true (kinds dependency.kind)] at whole
  refine ⟨order, lists, same.trans whole, alike, ?_⟩
  have swapped : dependencyKinds = dependencyFields.map Prod.swap := rfl
  rw [swapped]
  exact mapM_eq_ok.mpr (List.forall₂_map_left_iff.mpr read)

/-- The other metadata is read back under its canonical names. -/
theorem WrittenRecord.metadata_perm (record : WrittenRecord artifact fields) :
    (metadataOf (unfoldedFields fields)).entries.Perm (artifact.metadata.fields.map fun field =>
      (canonicalFieldName field.1, String.ofList (unfoldedValue field.2.toList))) := by
  have distinct := record.distinct
  rw [← unfoldedFields_names] at distinct
  have left : (metadataOf (unfoldedFields fields)).entries.Nodup := by
    refine (metadataOf (unfoldedFields fields)).ordered.imp fun ordered equal => ?_
    rw [equal, Std.compare_self] at ordered
    cases ordered
  have right : (artifact.metadata.fields.map fun field =>
      (canonicalFieldName field.1, String.ofList (unfoldedValue field.2.toList))).Nodup := by
    refine List.Nodup.of_map Prod.fst ?_
    rw [List.map_map]
    exact record.canonical
  refine (List.perm_ext_iff_of_nodup left right).mpr fun entry => ?_
  rw [mem_metadataOf distinct, List.mem_map, unfoldedFields, List.mem_map]
  constructor
  · rintro ⟨⟨field, member, rfl⟩, free⟩
    obtain ⟨other, otherIn, rfl⟩ := (record.metadata field).mp ⟨member, free⟩
    exact ⟨other, otherIn, rfl⟩
  · rintro ⟨other, otherIn, rfl⟩
    obtain ⟨member, free⟩ := (record.metadata _).mpr ⟨other, otherIn, rfl⟩
    exact ⟨⟨_, member, rfl⟩, free⟩

/-- The fields of a record are parsed as what the artifact says. -/
theorem WrittenRecord.exists_parsed (record : WrittenRecord artifact fields)
    (describable : Describable artifact) (versioned : DependenciesVersioned artifact)
    (dates : ∀ date : PublicationDate, 0 ≤ date.year → basis.date date.text = .ok date) :
    ∃ parsed, parseDescriptionFields basis (unfoldedFields fields) = .ok parsed ∧
      ReadBack artifact parsed := by
  have distinct := record.distinct
  rw [← unfoldedFields_names] at distinct
  obtain ⟨version, versionRead, raw⟩ := RPackageVersion.exists_parse_spelling describable.version
  obtain ⟨order, lists, same, alike, dependencies⟩ := record.exists_dependencies versioned
  obtain ⟨metadata, metadataRead, metadataFields⟩ := exists_new_metadataOf distinct
  obtain ⟨versionUnfolded, versionTrimmed⟩ := unfoldedValue_word fun character =>
    @RPackageVersion.raw_word artifact.version character
  obtain ⟨packageUnfolded, packageTrimmed⟩ := unfoldedValue_word fun character =>
    @PackageName.text_word artifact.package character
  refine ⟨⟨artifact.package, version, metadata, artifact.publication, lists.flatten⟩, ?_,
    ⟨rfl, raw, rfl, ⟨order, same, alike⟩, metadataFields ▸ record.metadata_perm⟩⟩
  unfold parseDescriptionFields
  refine bind_eq_ok.mpr ⟨(), rejectDuplicateFields_eq_ok.mpr
    ⟨distinct, fun _ _ => List.not_mem_nil⟩, ?_⟩
  refine bind_eq_ok.mpr ⟨artifact.version.raw, requiredField_eq_ok.mpr ?_, ?_⟩
  · rw [record.field_eq_some record.version, versionUnfolded]
  refine bind_eq_ok.mpr ⟨version, mapError_eq_ok.mpr (versionTrimmed.symm ▸ versionRead), ?_⟩
  refine bind_eq_ok.mpr ⟨artifact.package.text, requiredField_eq_ok.mpr ?_, ?_⟩
  · rw [record.field_eq_some record.package, packageUnfolded]
  refine bind_eq_ok.mpr ⟨artifact.package, mapError_eq_ok.mpr
    (packageTrimmed.symm ▸ PackageName.new_eq_ok.mpr rfl), ?_⟩
  refine bind_eq_ok.mpr ⟨artifact.publication, record.publicationOf_eq describable dates, ?_⟩
  refine bind_eq_ok.mpr ⟨lists, dependencies, ?_⟩
  exact bind_eq_ok.mpr ⟨metadata, mapError_eq_ok.mpr metadataRead, rfl⟩

/-! ### The text of the index -/

/-- The characters of a field. -/
def fieldCharacters (field : String × String) : List Char × List Char :=
  (field.1.toList, field.2.toList)

/-- The fields of a record can be read again. -/
theorem WrittenRecord.readable (record : WrittenRecord artifact fields)
    (describable : Describable artifact) : ∀ field ∈ fields, Readable (fieldCharacters field) := by
  intro field member
  refine readable_of_named (record.named field member) ?_
  cases free : isReservedField field.1 with
  | true =>
    rw [List.splitOn_eq_singleton (record.oneLine field member free)]
    exact List.forall_mem_nil _
  | false =>
    obtain ⟨other, otherIn, rfl⟩ := (record.metadata field).mp ⟨member, free⟩
    exact describable.filled other otherIn

/-- The text of a field has the lines of the field. -/
theorem fieldLines_eq_ok {field : String × String} {text : String}
    (written : fieldLines field = .ok text) :
    text.toList = ['\n'].intercalate (linesOf (fieldCharacters field)) := by
  obtain ⟨_, -, finished⟩ := bind_eq_ok.mp written
  obtain rfl := Except.ok.inj finished
  unfold linesOf fieldCharacters
  cases pieces : field.2.toList.splitOn '\n' with
  | nil => exact absurd pieces (List.splitOn_ne_nil _ _)
  | cons first more =>
    have restored : (((first :: more).map String.ofList).map String.toList) = first :: more := by
      simp [Function.comp_def]
    rw [String.toList_append, String.toList_append, String.toList_intercalate, restored]
    change field.1.toList ++ [':', ' '] ++ ['\n', ' '].intercalate (first :: more) = _
    rw [intercalate_pair, append_intercalate]
    simp

/-- The texts of fields have the lines of the fields. -/
theorem map_toList_of_fieldLines {texts : List String}
    (written : List.Forall₂ (fun field text => fieldLines field = .ok text) fields texts) :
    texts.map String.toList =
      (fields.map fieldCharacters).map fun field => ['\n'].intercalate (linesOf field) := by
  induction written with
  | nil => rfl
  | cons line _ ih => rw [List.map_cons, fieldLines_eq_ok line, ih]; rfl

/-- The text of a record has the lines of its fields. -/
theorem writeRecord_eq_ok {text : String} (written : writeRecord artifact = .ok text) :
    ∃ fields, writtenFields artifact = .ok fields ∧
      text.toList = paragraphText (fields.map fieldCharacters) := by
  rw [writeRecord_eq] at written
  obtain ⟨fields, fieldsWritten, written⟩ := bind_eq_ok.mp written
  obtain ⟨lines, all, finished⟩ := bind_eq_ok.mp written
  obtain rfl := Except.ok.inj finished
  refine ⟨fields, fieldsWritten, ?_⟩
  rw [String.toList_intercalate, map_toList_of_fieldLines (mapM_eq_ok.mp all)]
  rfl

/-- The fields of a record are there. -/
theorem WrittenRecord.ne_nil (record : WrittenRecord artifact fields) : fields ≠ [] := fun empty => by
  have member := record.package
  rw [empty] at member
  cases member

/-- The text of the index has a paragraph for each row, with the fields of the row. -/
theorem writePackages_eq_ok {artifacts : List MaterializationArtifact} {bytes : List UInt8}
    (written : writePackages artifacts = .ok bytes) :
    ∃ (text : String) (records : List (List (String × String))),
      bytes = Framing.textBytes text ∧
      List.Forall₂ (fun artifact fields => writtenFields artifact = .ok fields)
        (indexRows artifacts) records ∧
      text.toList = documentText (records.map (·.map fieldCharacters)) := by
  obtain ⟨texts, all, finished⟩ := bind_eq_ok.mp written
  obtain rfl := Except.ok.inj finished
  have each : ∀ rows : List MaterializationArtifact, ∀ texts : List String,
      List.Forall₂ (fun artifact text => writeRecord artifact = .ok text) rows texts →
      ∃ records, List.Forall₂ (fun artifact fields => writtenFields artifact = .ok fields)
          rows records ∧
        texts.map String.toList =
          (records.map (·.map fieldCharacters)).map paragraphText := by
    intro rows texts related
    induction related with
    | nil => exact ⟨[], List.Forall₂.nil, rfl⟩
    | cons recordWritten _ ih =>
      obtain ⟨records, fields, same⟩ := ih
      obtain ⟨first, firstWritten, firstSame⟩ := writeRecord_eq_ok recordWritten
      exact ⟨first :: records, List.Forall₂.cons firstWritten fields, by
        rw [List.map_cons, same, firstSame]; rfl⟩
  obtain ⟨records, fields, same⟩ := each _ _ (mapM_eq_ok.mp all)
  refine ⟨_, records, rfl, fields, ?_⟩
  rw [String.toList_append, String.toList_intercalate, same]
  rfl

/-- The index of artifacts with distinct packages that a package description can describe is
faithful, when the date library reads the spelling of a date as the date. -/
theorem indexFaithful (basis : CatalogBasis)
    (dates : ∀ date : PublicationDate, 0 ≤ date.year → basis.date date.text = .ok date)
    (artifacts : List MaterializationArtifact)
    (distinct : (artifacts.map MaterializationArtifact.package).Nodup)
    (versioned : ∀ artifact ∈ artifacts, DependenciesVersioned artifact)
    (describable : ∀ artifact ∈ artifacts, Describable artifact) :
    IndexFaithful basis artifacts := by
  intro bytes written
  refine ⟨fun other rearranged => writePackages_of_rearranges distinct rearranged written, ?_⟩
  obtain ⟨text, records, encoded, fields, same⟩ := writePackages_eq_ok written
  have order := Sorting.sortBy_perm compareRows artifacts
  have known : List.Forall₂ (fun artifact fields => (DependenciesVersioned artifact ∧
      Describable artifact) ∧ WrittenRecord artifact fields) (indexRows artifacts) records := by
    refine ((List.forall₂_and_left _ _).mpr ⟨fun artifact member => ?_, fields⟩).imp
      fun artifact fields both => ⟨both.1, writtenRecord_of_eq_ok both.1.2 both.2⟩
    have inside := order.mem_iff.mp member
    exact ⟨versioned artifact inside, describable artifact inside⟩
  have each : ∀ record ∈ records.map (·.map fieldCharacters), record ≠ [] ∧
      ∀ field ∈ record, Readable field := by
    intro record member
    obtain ⟨fields, fieldsIn, rfl⟩ := List.mem_map.mp member
    obtain ⟨artifact, ⟨-, described⟩, written⟩ := exists_part known fieldsIn
    refine ⟨by simpa using written.ne_nil, fun field inside => ?_⟩
    obtain ⟨field, fieldIn, rfl⟩ := List.mem_map.mp inside
    exact written.readable described field fieldIn
  have cut := map_fieldsOf_paragraphs (fun record member => (each record member).1)
    fun record member => (each record member).2
  rw [← same] at cut
  refine ⟨text, encoded, indexRows artifacts, order, indexRows_pairwise distinct, ?_⟩
  have parsed : List.Forall₂ (fun artifact fields => ∃ parsed,
      parseDescriptionFields basis (fields.map fun field : List Char × List Char =>
        (String.ofList field.1, String.ofList field.2)) = .ok parsed ∧ ReadBack artifact parsed)
      (indexRows artifacts) ((paragraphs text.toList).map fieldsOf) := by
    rw [cut, List.map_map]
    refine List.forall₂_map_right_iff.mpr (known.imp fun artifact fields both => ?_)
    obtain ⟨parsed, read, same⟩ := both.2.exists_parsed both.1.2 both.1.1 dates
    refine ⟨parsed, ?_, same⟩
    rw [← read]
    congr 1
    simp [unfoldedFields, fieldCharacters, Function.comp_def]
  exact List.forall₂_map_right_iff.mp parsed

namespace Small

/-- The days of the years below a bound. -/
def daysBelow (bound : Nat) : List PublicationDate :=
  (List.range bound).flatMap fun (year : Nat) => (List.range 13).flatMap fun (month : Nat) =>
    (List.range 32).filterMap fun (day : Nat) =>
      if valid : (-9999 ≤ (year : Int) ∧ (year : Int) ≤ 9999) ∧ (1 ≤ month ∧ month ≤ 12) ∧
          (1 ≤ day ∧ day ≤ daysInMonth year month) then
        some ⟨year, month, day, valid⟩
      else none

/-- The day among some that a text spells. -/
def dayOf (days : List PublicationDate) (text : String) : Except String PublicationDate :=
  match days.find? fun date => date.text == text with
  | some date => .ok date
  | none => .error "no date"

/-- A date library that knows some days by their spelling. -/
def calendarBasis (days : List PublicationDate) : CatalogBasis where
  sha256 _ := Vector.replicate 32 0
  unprintable _ := false
  date := dayOf days
  dateTime _ _ := .error "no date"

/-- A day of a year below a bound is among the days. -/
theorem mem_daysBelow {bound : Nat} (date : PublicationDate) (years : 0 ≤ date.year)
    (below : date.year < bound) : date ∈ daysBelow bound := by
  obtain ⟨year, month, day, valid⟩ := date
  obtain ⟨number, rfl⟩ := Int.eq_ofNat_of_zero_le years
  have days : daysInMonth number month ≤ 31 := by
    unfold daysInMonth
    split_ifs <;> omega
  have inside : number < bound := Int.ofNat_lt.mp below
  refine List.mem_flatMap.mpr ⟨number, List.mem_range.mpr inside, List.mem_flatMap.mpr
    ⟨month, List.mem_range.mpr (by omega), List.mem_filterMap.mpr
      ⟨day, List.mem_range.mpr (by omega), ?_⟩⟩⟩
  exact dif_pos valid

/-- A day among some is the one that its text spells. -/
theorem dayOf_text {days : List PublicationDate} {date : PublicationDate} (member : date ∈ days) :
    dayOf days date.text = .ok date := by
  unfold dayOf
  cases search : days.find? fun other => other.text == date.text with
  | none => exact absurd (beq_self_eq_true _) (List.find?_eq_none.mp search date member)
  | some other =>
    have same := List.find?_some search
    exact congrArg Except.ok (PublicationDate.text_injective (by simpa using same))

/-- A library that knows the days of all years with four digits reads their spelling. -/
theorem calendarBasis_date {bound : Nat} (reaches : 9999 < bound) (date : PublicationDate)
    (years : 0 ≤ date.year) : (calendarBasis (daysBelow bound)).date date.text = .ok date := by
  have last : date.year ≤ 9999 := date.valid.1.2
  exact dayOf_text (mem_daysBelow date years (by omega))

/-- An artifact with a title of two lines, the second with blanks in front, and a dependency. -/
def described : MaterializationArtifact :=
  { archive alpha newer with
    metadata := ⟨[("Title", "A package\n  of two lines")], by simp, by decide +kernel⟩
    publication := some ⟨published⟩
    dependencies := [⟨.imports, ⟨rcpp, .any, ⟨[⟨.ge, newer⟩]⟩, namesPackage_any _⟩⟩] }

end Small

/-- The index of an artifact with a title of two lines and a dependency is faithful. -/
theorem indexFaithful_described :
    (writePackages [Small.described]).isOk = true ∧
      IndexFaithful (Small.calendarBasis (Small.daysBelow 10000)) [Small.described] := by
  refine ⟨by decide +kernel, indexFaithful _ (Small.calendarBasis_date (Nat.lt_succ_self 9999))
    [Small.described] (List.nodup_singleton _) (List.forall_mem_singleton.mpr ?_)
    (List.forall_mem_singleton.mpr ⟨by decide +kernel, ?_, by decide +kernel, by decide +kernel⟩)⟩
  · unfold DependenciesVersioned
    decide +kernel
  · rintro _ ⟨⟩
    decide

namespace Small

/-- The date library of the counterexamples. -/
def dates : CatalogBasis := calendarBasis (daysBelow 10000)

/-- A title with a blank line. -/
def blankLined : MaterializationArtifact :=
  { archive alpha newer with
    metadata := ⟨[("Title", "A package\n\nof two parts")], by simp, by decide +kernel⟩ }

/-- A checksum among the metadata. -/
def checksummed : MaterializationArtifact :=
  { archive alpha newer with metadata := ⟨[("MD5sum", "0")], by simp, by decide +kernel⟩ }

/-- A version of one component. -/
def bare : MaterializationArtifact := archive alpha ⟨"1", .fromVec [1], by decide⟩

/-- A publication before the year zero. -/
def ancient : MaterializationArtifact :=
  { archive alpha newer with publication := some ⟨⟨-1, 5, 1, by decide⟩⟩ }

end Small

/-- An index of one artifact with another number of paragraphs, or with one that is not parsed as the
artifact, is not faithful. -/
theorem not_indexFaithful_of {basis : CatalogBasis} {artifact : MaterializationArtifact}
    {text : String} (written : writePackages [artifact] = .ok (Framing.textBytes text))
    (fails : ∀ paragraph, paragraphs text.toList = [paragraph] → ∀ parsed,
      parseDescriptionFields basis (readFields paragraph) = .ok parsed → ¬ ReadBack artifact parsed) :
    ¬ IndexFaithful basis [artifact] := by
  intro faithful
  obtain ⟨-, other, encoded, rows, order, -, each⟩ := faithful _ written
  obtain rfl : text = other := by
    have decoded := congrArg decodeText encoded
    rw [decodeText_textBytes, decodeText_textBytes] at decoded
    exact Option.some.inj decoded
  rw [List.perm_singleton.mp order] at each
  obtain ⟨paragraph, rest, ⟨parsed, read, same⟩, none, cut⟩ := List.forall₂_cons_left_iff.mp each
  rw [List.forall₂_nil_left_iff.mp none] at cut
  exact fails paragraph cut parsed read same

/-- A blank line in a value cuts the paragraph of its artifact. The checksum is dropped when the index
is read, and a bare version or a year before zero is refused. -/
theorem not_indexFaithful :
    (DependenciesVersioned Small.blankLined ∧ ¬ IndexFaithful Small.dates [Small.blankLined]) ∧
    (DependenciesVersioned Small.checksummed ∧ ¬ IndexFaithful Small.dates [Small.checksummed]) ∧
    (DependenciesVersioned Small.bare ∧ ¬ IndexFaithful Small.dates [Small.bare]) ∧
    (DependenciesVersioned Small.ancient ∧ ¬ IndexFaithful Small.dates [Small.ancient]) := by
  have unparsed : ∀ {artifact : MaterializationArtifact} {text : String},
      writePackages [artifact] = .ok (Framing.textBytes text) →
      ((paragraphs text.toList).all fun paragraph =>
        !(parseDescriptionFields Small.dates (readFields paragraph)).isOk) = true →
      ¬ IndexFaithful Small.dates [artifact] := fun written refused =>
    not_indexFaithful_of written fun paragraph cut parsed read => by
      rw [cut, List.all_cons, read] at refused
      cases refused
  refine ⟨⟨List.forall_mem_nil _, ?_⟩, ⟨List.forall_mem_nil _, ?_⟩, ⟨List.forall_mem_nil _, ?_⟩,
    ⟨List.forall_mem_nil _, ?_⟩⟩
  · refine @not_indexFaithful_of _ _
      "Package: alpha\nVersion: 1.0\nTitle: A package\n \n of two parts\n" (by decide +kernel) ?_
    intro paragraph cut
    have two : (paragraphs
        "Package: alpha\nVersion: 1.0\nTitle: A package\n \n of two parts\n".toList).length = 2 := by
      decide +kernel
    rw [cut] at two
    cases two
  · refine @not_indexFaithful_of _ _ "Package: alpha\nVersion: 1.0\nMD5sum: 0\n"
      (by decide +kernel) ?_
    intro paragraph cut parsed read same
    have dropped : ((paragraphs "Package: alpha\nVersion: 1.0\nMD5sum: 0\n".toList).all
        fun paragraph => (parseDescriptionFields Small.dates (readFields paragraph)).toOption.all
          fun parsed => parsed.metadata.fields.isEmpty) = true := by
      decide +kernel
    rw [cut, List.all_cons, read] at dropped
    have empty : parsed.metadata.fields = [] := by simpa [Except.toOption] using dropped
    have kept := same.metadata.length_eq
    rw [empty] at kept
    cases kept
  · exact @unparsed _ "Package: alpha\nVersion: 1\n" (by decide +kernel) (by decide +kernel)
  · exact @unparsed _ "Package: alpha\nVersion: 1.0\nPublished: -0001-05-01\n" (by decide +kernel)
      (by decide +kernel)

end Rsolve
