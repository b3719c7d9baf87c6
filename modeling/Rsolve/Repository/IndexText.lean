import Rsolve.Lib.Paragraphs
import Rsolve.Repository.Records

/-!
# What the package index says

The index has a record for every artifact, in package order, with the fields of the artifact. Neither
the order of the artifacts nor the order of their dependencies matters for it. As a text of
paragraphs it is written field by field.
-/
open Keyed Checked Paragraphs

namespace Rsolve

/-! ### Fields -/

/-- The fields that a record has of its artifact itself. -/
def generatedFields (artifact : MaterializationArtifact) :
    Except PackagesError (List (String × String)) := do
  let dependencies ← dependencyFields.mapM (fun entry =>
    dependencyField artifact.dependencies entry.1 entry.2)
  return [("Package", artifact.package.text), ("Version", artifact.version.raw)] ++
    (artifact.publication.map (fun publication => ("Published", publication.date.text))).toList ++
    dependencies.flatten

/-- The fields of a record, in their order. -/
def writtenFields (artifact : MaterializationArtifact) :
    Except PackagesError (List (String × String)) := do
  let fields ← generatedFields artifact
  let reserved := fields.map (fun field => toAsciiLowercase (canonicalFieldName field.1))
  let others ← metadataFields reserved artifact.metadata.fields
  return Sorting.sortBy compareFields (fields ++ others)

/-- A record is written field by field. -/
theorem writeRecord_eq (artifact : MaterializationArtifact) :
    writeRecord artifact = do
      let fields ← writtenFields artifact
      let lines ← fields.mapM fieldLines
      return "\n".intercalate lines := by
  unfold writeRecord writtenFields generatedFields
  cases dependencyFields.mapM (fun entry =>
      dependencyField artifact.dependencies entry.1 entry.2) with
  | error cause => rfl
  | ok dependencies =>
    simp only [ok_bind]
    rw [show (pure _ : Except PackagesError (List (String × String))) = .ok _ from rfl, ok_bind]
    cases metadataFields _ artifact.metadata.fields <;> rfl

/-- What the loop over the metadata gives. -/
structure MetadataWritten (reserved : List String) (fields others : List (String × String)) :
    Prop where
  /-- Every field is there under its canonical name. -/
  canonical : others = fields.map fun field => (canonicalFieldName field.1, field.2)
  /-- The names are field names. -/
  named : ∀ field ∈ fields, validateFieldName field.1 = .ok ()
  /-- No canonical name stands twice. -/
  distinct : (others.map fun other => toAsciiLowercase other.1).Nodup
  /-- No canonical name is taken. -/
  apart : ∀ other ∈ others, toAsciiLowercase other.1 ∉ reserved

/-- The loop over the metadata gives every field under its canonical name. -/
theorem metadataWritten_of_eq_ok {reserved : List String} {fields others : List (String × String)}
    (written : metadataFields reserved fields = .ok others) :
    MetadataWritten reserved fields others := by
  induction fields generalizing reserved others with
  | nil =>
    obtain rfl := Except.ok.inj written
    exact ⟨rfl, List.forall_mem_nil _, List.nodup_nil, List.forall_mem_nil _⟩
  | cons field rest ih =>
    rw [metadataFields] at written
    obtain ⟨_, valid, written⟩ := bind_eq_ok.mp written
    obtain ⟨_, fresh, written⟩ := bind_eq_ok.mp written
    obtain ⟨later, restWritten, finished⟩ := bind_eq_ok.mp written
    obtain rfl := Except.ok.inj finished
    have fresh := ensure_eq_ok.mp fresh
    have known := ih restWritten
    refine ⟨by rw [List.map_cons, ← known.canonical], List.forall_mem_cons.mpr ⟨valid, known.named⟩, ?_,
      List.forall_mem_cons.mpr ⟨fresh, fun other member => ?_⟩⟩
    · refine List.nodup_cons.mpr ⟨fun inside => ?_, known.distinct⟩
      obtain ⟨other, member, equal⟩ := List.mem_map.mp inside
      exact known.apart other member (equal ▸ List.mem_cons_self)
    · exact fun taken => known.apart other member (List.mem_cons_of_mem _ taken)

/-- The dependencies of one kind are written when each is and no name stands twice. -/
theorem renderDependencies_eq_ok {field : String} {seen : List String}
    {dependencies : List DeclaredDependency} {rendered : List String} :
    renderDependencies field seen dependencies = .ok rendered ↔
      (dependencies.map fun dependency => dependency.package.name.text).Nodup ∧
      (∀ dependency ∈ dependencies, dependency.package.name.text ∉ seen) ∧
      List.Forall₂ (fun dependency text => renderDependency dependency field = .ok text)
        dependencies rendered := by
  induction dependencies generalizing seen rendered with
  | nil =>
    rw [renderDependencies, List.forall₂_nil_left_iff, Except.ok.injEq]
    simp [eq_comm]
  | cons dependency rest ih =>
    rw [renderDependencies, List.forall₂_cons_left_iff]
    simp only [bind_eq_ok, ensure_eq_ok, ih, List.map_cons, List.nodup_cons, List.mem_map, not_exists,
      not_and, forall_eq_or_imp, List.mem_cons, not_or]
    constructor
    · rintro ⟨_, fresh, text, textRendered, texts, ⟨distinct, apart, all⟩, finished⟩
      obtain rfl := Except.ok.inj finished
      exact ⟨⟨fun other member => (apart other member).1, distinct⟩,
        ⟨fresh, fun other member => (apart other member).2⟩, text, texts, textRendered, all, rfl⟩
    · rintro ⟨⟨differs, distinct⟩, ⟨fresh, apart⟩, text, texts, textRendered, all, rfl⟩
      exact ⟨(), fresh, text, textRendered, texts,
        ⟨distinct, fun other member => ⟨differs other member, apart other member⟩, all⟩, rfl⟩

/-- The field of one kind is empty without dependencies of the kind, else it has their sorted
texts. -/
theorem dependencyField_eq_ok {dependencies : List DeclaredDependency} {kind : DependencyKind}
    {field : String} {fields : List (String × String)} :
    dependencyField dependencies kind field = .ok fields ↔
      (dependencies.filter (·.kind == kind) = [] ∧ fields = []) ∨
      (dependencies.filter (·.kind == kind) ≠ [] ∧ ∃ rendered,
        renderDependencies field [] (dependencies.filter (·.kind == kind)) = .ok rendered ∧
        fields = [(field, ", ".intercalate (Sorting.sortBy compare rendered))]) := by
  unfold dependencyField
  cases ofKind : dependencies.filter (·.kind == kind) with
  | nil =>
    constructor
    · intro written
      exact .inl ⟨rfl, (Except.ok.inj written).symm⟩
    · rintro (⟨-, rfl⟩ | ⟨some, -⟩)
      · rfl
      · exact absurd rfl some
  | cons first rest =>
    simp only [reduceCtorEq, false_and, ne_eq, not_false_eq_true, true_and, false_or]
    simp only [List.isEmpty_cons, Bool.false_eq_true, ↓reduceIte, bind_eq_ok]
    constructor
    · rintro ⟨rendered, written, finished⟩
      exact ⟨rendered, written, (Except.ok.inj finished).symm⟩
    · rintro ⟨rendered, written, rfl⟩
      exact ⟨rendered, written, rfl⟩

/-- The order of the dependencies does not matter for their field. -/
theorem dependencyField_perm {left right : List DeclaredDependency} (order : left.Perm right)
    {kind : DependencyKind} {field : String} {fields : List (String × String)}
    (written : dependencyField left kind field = .ok fields) :
    dependencyField right kind field = .ok fields := by
  have ofKind := order.filter (·.kind == kind)
  rcases dependencyField_eq_ok.mp written with ⟨none, rfl⟩ | ⟨some, rendered, all, rfl⟩
  · exact dependencyField_eq_ok.mpr (.inl ⟨(none ▸ ofKind).nil_eq.symm, rfl⟩)
  · obtain ⟨distinct, -, texts⟩ := renderDependencies_eq_ok.mp all
    obtain ⟨rendered', texts', same⟩ := List.perm_comp_forall₂ ofKind.symm texts
    refine dependencyField_eq_ok.mpr (.inr ⟨fun none => some ?_, rendered', ?_, ?_⟩)
    · exact (none ▸ ofKind).eq_nil
    · exact renderDependencies_eq_ok.mpr
        ⟨(ofKind.map _).nodup_iff.mp distinct, fun _ _ => List.not_mem_nil, texts'⟩
    · rw [Sorting.sortBy_eq_of_perm compare same fun first _ second _ equal =>
        Std.LawfulEqOrd.eq_of_compare equal]

/-- The order of the dependencies does not matter for the fields of a record. -/
theorem writtenFields_perm {artifact : MaterializationArtifact}
    {dependencies : List DeclaredDependency} (order : artifact.dependencies.Perm dependencies)
    {fields : List (String × String)} (written : writtenFields artifact = .ok fields) :
    writtenFields { artifact with dependencies } = .ok fields := by
  unfold writtenFields generatedFields at written ⊢
  obtain ⟨generated, all, written⟩ := bind_eq_ok.mp written
  obtain ⟨texts, mapped, finished⟩ := bind_eq_ok.mp all
  have mapped' : dependencyFields.mapM (fun entry =>
      dependencyField dependencies entry.1 entry.2) = .ok texts :=
    mapM_eq_ok.mpr ((mapM_eq_ok.mp mapped).imp fun _ _ => dependencyField_perm order)
  rw [mapped', ok_bind]
  exact bind_eq_ok.mpr ⟨generated, finished, written⟩

/-- The order of the dependencies does not matter for a record. -/
theorem writeRecord_perm {artifact : MaterializationArtifact}
    {dependencies : List DeclaredDependency} (order : artifact.dependencies.Perm dependencies)
    {text : String} (written : writeRecord artifact = .ok text) :
    writeRecord { artifact with dependencies } = .ok text := by
  rw [writeRecord_eq] at written ⊢
  obtain ⟨fields, fieldsWritten, written⟩ := bind_eq_ok.mp written
  exact bind_eq_ok.mpr ⟨fields, writtenFields_perm order fieldsWritten, written⟩

/-! ### Records -/

/-- The artifacts in another order, each with its dependencies in another order. -/
def Rearranges (artifacts other : List MaterializationArtifact) : Prop :=
  ∃ reorder : MaterializationArtifact → List DeclaredDependency,
    (∀ artifact ∈ artifacts, artifact.dependencies.Perm (reorder artifact)) ∧
    other.Perm (artifacts.map fun artifact => { artifact with dependencies := reorder artifact })

/-- The artifacts in package order. -/
def indexRows (artifacts : List MaterializationArtifact) : List MaterializationArtifact :=
  Sorting.sortBy compareRows artifacts

variable {artifacts : List MaterializationArtifact}

/-- Rows with distinct packages are in package order. -/
theorem indexRows_pairwise (distinct : (artifacts.map MaterializationArtifact.package).Nodup) :
    (indexRows artifacts).Pairwise fun left right =>
      compare left.package right.package = .lt := by
  have order := Sorting.sortBy_perm compareRows artifacts
  have apart : (indexRows artifacts).Pairwise fun left right => left.package ≠ right.package :=
    List.pairwise_map.mp ((order.map MaterializationArtifact.package).nodup_iff.mpr distinct)
  refine ((Sorting.sortBy_pairwise compareRows artifacts).and apart).imp ?_
  rintro left right ⟨ordered, differs⟩
  cases packages : compare left.package right.package with
  | lt => rfl
  | eq => exact absurd (PackageName.eq_of_compare_eq packages) differs
  | gt =>
    have rows : compareRows left right = .gt := by
      rw [compareRows, compareLex, compareOn, packages]
      rfl
    rw [rows] at ordered
    cases ordered

/-- Rearranged artifacts have the rows of the artifacts, up to the order of dependencies. -/
theorem indexRows_of_rearranges (distinct : (artifacts.map MaterializationArtifact.package).Nodup)
    {other : List MaterializationArtifact} {reorder : MaterializationArtifact → List DeclaredDependency}
    (order : other.Perm (artifacts.map fun artifact =>
      { artifact with dependencies := reorder artifact })) :
    indexRows other = (indexRows artifacts).map fun artifact =>
      { artifact with dependencies := reorder artifact } := by
  have rows := Sorting.sortBy_perm compareRows artifacts
  have packages : (other.map MaterializationArtifact.package).Nodup := by
    rw [(order.map MaterializationArtifact.package).nodup_iff, List.map_map]
    exact distinct
  have sorted : Sorting.sortBy compareRows ((indexRows artifacts).map fun artifact =>
      { artifact with dependencies := reorder artifact }) = (indexRows artifacts).map _ :=
    Sorting.sortBy_eq_self (List.pairwise_map.mpr
      (Sorting.sortBy_pairwise compareRows artifacts))
  rw [← sorted]
  refine Sorting.sortBy_eq_of_perm compareRows (order.trans (rows.symm.map _)) ?_
  intro first firstIn second secondIn equal
  simp only [compareRows, compareLex, Ordering.then_eq_eq] at equal
  exact List.inj_on_of_nodup_map packages firstIn secondIn (PackageName.eq_of_compare_eq equal.1)

/-- The index does not depend on the order of the artifacts or of their dependencies. -/
theorem writePackages_of_rearranges
    (distinct : (artifacts.map MaterializationArtifact.package).Nodup)
    {other : List MaterializationArtifact} (rearranged : Rearranges artifacts other)
    {bytes : List UInt8} (written : writePackages artifacts = .ok bytes) :
    writePackages other = .ok bytes := by
  obtain ⟨reorder, dependencies, order⟩ := rearranged
  obtain ⟨paragraphs, all, finished⟩ := bind_eq_ok.mp written
  refine bind_eq_ok.mpr ⟨paragraphs, ?_, finished⟩
  have rows := indexRows_of_rearranges distinct order
  rw [indexRows] at rows
  rw [rows]
  refine mapM_eq_ok.mpr (List.forall₂_map_left_iff.mpr ?_)
  have permuted : ∀ artifact ∈ Sorting.sortBy compareRows artifacts,
      artifact.dependencies.Perm (reorder artifact) := fun artifact member =>
    dependencies artifact (Sorting.mem_sortBy.mp member)
  exact ((List.forall₂_and_left _ _).mpr ⟨permuted, mapM_eq_ok.mp all⟩).imp
    fun artifact text known => writeRecord_perm known.1 known.2

end Rsolve
