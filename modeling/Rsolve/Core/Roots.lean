import Rsolve.Core.Constraints
import Rsolve.Lib.Joins

/-!
# Combining root requirements

Root requirements with one name are combined in the order in which they come: their constraints are
joined, their source scopes must agree, and suggested packages are required when one of them requires
them. The order does not matter for whether this succeeds and for what it means.
-/
open Keyed Checked Ordered Joins

namespace Rsolve

/-- `RootCompositionError`. -/
inductive RootCompositionError
  | conflictingSource (name : PackageName) (left right : DependencySourceConstraint)
  | conflictingExactIdentity (name : PackageName) (left right : DependencySourceConstraint)
  | conflictingPackageNames (left right : PackageName)
deriving DecidableEq

/-- The error for two scopes that differ. -/
def conflictOf (name : PackageName) (left right : DependencySourceConstraint) :
    RootCompositionError :=
  match left with
  | .exact _ =>
    match right with
    | .exact _ => .conflictingExactIdentity name left right
    | .any => .conflictingSource name left right
    | .registry _ => .conflictingSource name left right
    | .repository _ => .conflictingSource name left right
    | .bioconductor _ _ => .conflictingSource name left right
    | .git _ => .conflictingSource name left right
  | .any => .conflictingSource name left right
  | .registry _ => .conflictingSource name left right
  | .repository _ => .conflictingSource name left right
  | .bioconductor _ _ => .conflictingSource name left right
  | .git _ => .conflictingSource name left right

/-- `combine_sources`. -/
def combineSources (left right : DependencySourceConstraint) (name : PackageName) :
    Except RootCompositionError DependencySourceConstraint :=
  if Same left right then .ok left
  else if left = .any then .ok right
  else if right = .any then .ok left
  -- Exact scopes with equal identities are equal scopes.
  else .error (conflictOf name left right)

/-- `RootRequirement::combine`. -/
def RootRequirement.combine (left right : RootRequirement) :
    Except RootCompositionError RootRequirement := do
  ensure (left.package.name = right.package.name)
    (.conflictingPackageNames left.package.name right.package.name)
  let source ← combineSources left.package.source right.package.source left.package.name
  let package ← (PackageRequirement.new left.package.name source
    (left.package.constraint.conjunction right.package.constraint)).mapError fun _ =>
      RootCompositionError.conflictingExactIdentity left.package.name left.package.source
        right.package.source
  return {
    package
    expansion :=
      if left.expansion = .directSuggests ∨ right.expansion = .directSuggests then .directSuggests
      else .hardOnly }

/-- One pass of the loop of `combine_root_requirements`. -/
def combineRoot (composed : OrderedMap PackageName RootRequirement) (root : RootRequirement) :
    Except RootCompositionError (OrderedMap PackageName RootRequirement) :=
  match composed.get? root.package.name with
  | some existing => do
    let combined ← existing.combine root
    return (composed.erase root.package.name).insert root.package.name combined
  | none => .ok (composed.insert root.package.name root)

/-- `combine_root_requirements`. -/
def combineRootRequirements (roots : List RootRequirement) :
    Except RootCompositionError (List RootRequirement) :=
  (roots.foldlM combineRoot OrderedMap.empty).map OrderedMap.values

/-- Scopes agree: they are equal, or one of them is open. -/
def DependencySourceConstraint.Agrees (left right : DependencySourceConstraint) : Prop :=
  left = .any ∨ right = .any ∨ Same left right

/-- Agreement is symmetric. -/
theorem DependencySourceConstraint.Agrees.symm {left right : DependencySourceConstraint}
    (agrees : left.Agrees right) : right.Agrees left := by
  rcases agrees with first | second | same
  · exact .inr (.inl first)
  · exact .inl second
  · exact .inr (.inr same.symm)

/-- Only the open scope is equal to the open scope. -/
theorem DependencySourceConstraint.eq_any_of_same {source : DependencySourceConstraint}
    (same : Same source .any) : source = .any := by
  cases source with
  | any => rfl
  | exact identity => cases same
  | registry nspace => cases same
  | repository repository => cases same
  | bioconductor nspace release => cases same
  | git repository => cases same

/-- Scopes are combined exactly when they agree, to one of them that is not open if there is one. -/
theorem combineSources_eq_ok_iff {left right source : DependencySourceConstraint}
    {name : PackageName} : combineSources left right name = .ok source ↔
      left.Agrees right ∧ source = if left = .any then right else left := by
  unfold combineSources DependencySourceConstraint.Agrees
  by_cases same : Same left right
  · rw [if_pos same, Except.ok.injEq]
    by_cases openLeft : left = .any
    · subst openLeft
      rw [if_pos rfl, DependencySourceConstraint.eq_any_of_same same.symm]
      exact ⟨fun equal => ⟨.inl rfl, equal.symm⟩, fun both => both.2.symm⟩
    · rw [if_neg openLeft]
      exact ⟨fun equal => ⟨.inr (.inr same), equal.symm⟩, fun both => both.2.symm⟩
  · rw [if_neg same]
    by_cases openLeft : left = .any
    · rw [if_pos openLeft, if_pos openLeft, Except.ok.injEq]
      exact ⟨fun equal => ⟨.inl openLeft, equal.symm⟩, fun both => both.2.symm⟩
    · rw [if_neg openLeft, if_neg openLeft]
      by_cases openRight : right = .any
      · rw [if_pos openRight, Except.ok.injEq]
        exact ⟨fun equal => ⟨.inr (.inl openRight), equal.symm⟩, fun both => both.2.symm⟩
      · rw [if_neg openRight]
        exact ⟨nofun, fun both => absurd both.1 (by simp [openLeft, openRight, same])⟩

section Roots

variable {left right root : RootRequirement} {roots items : List RootRequirement}

/-- A requirement is made of its parts when an exact scope names the package. -/
theorem PackageRequirement.new_of_named {name : PackageName} {source : DependencySourceConstraint}
    {constraint : VersionConstraint} (named : source.NamesPackage name) :
    PackageRequirement.new name source constraint = .ok ⟨name, source, constraint, named⟩ := by
  unfold PackageRequirement.new
  cases source with
  | exact identity => exact dif_pos (named identity rfl)
  | any => rfl
  | registry nspace => rfl
  | repository repository => rfl
  | bioconductor nspace release => rfl
  | git repository => rfl

/-- What combining two roots of one name comes to. -/
structure RootRequirement.Combines (left right combined : RootRequirement) : Prop where
  name : combined.package.name = left.package.name
  source : combined.package.source =
    if left.package.source = .any then right.package.source else left.package.source
  clauses : combined.package.constraint.clauses =
    left.package.constraint.clauses ++ right.package.constraint.clauses
  expansion : combined.expansion = .directSuggests ↔
    left.expansion = .directSuggests ∨ right.expansion = .directSuggests

/-- Roots of one name are combined exactly when their scopes agree. -/
theorem RootRequirement.combine_spec (same : left.package.name = right.package.name) :
    ((∃ combined, left.combine right = .ok combined) ↔
      left.package.source.Agrees right.package.source) ∧
    ∀ combined, left.combine right = .ok combined → left.Combines right combined := by
  constructor
  · constructor
    · rintro ⟨combined, done⟩
      obtain ⟨_, -, next⟩ := bind_eq_ok.mp done
      obtain ⟨source, chosen, -⟩ := bind_eq_ok.mp next
      exact (combineSources_eq_ok_iff.mp chosen).1
    · intro agrees
      have named : (if left.package.source = .any then right.package.source
          else left.package.source).NamesPackage left.package.name := by
        split
        · rw [same]
          exact right.package.exactNamed
        · exact left.package.exactNamed
      have made := @PackageRequirement.new_of_named _ _
        (left.package.constraint.conjunction right.package.constraint) named
      have chosen := @combineSources_eq_ok_iff _ _ _ left.package.name |>.mpr ⟨agrees, rfl⟩
      unfold RootRequirement.combine
      rw [ensure_of same, ok_bind, chosen, ok_bind, made]
      exact ⟨_, rfl⟩
  · intro combined done
    obtain ⟨_, -, next⟩ := bind_eq_ok.mp done
    obtain ⟨source, chosen, last⟩ := bind_eq_ok.mp next
    obtain ⟨package, made, finished⟩ := bind_eq_ok.mp last
    obtain rfl := Except.ok.inj finished
    have source_eq := (combineSources_eq_ok_iff.mp chosen).2
    have parts : package.name = left.package.name ∧ package.source = source ∧
        package.constraint = left.package.constraint.conjunction right.package.constraint := by
      rw [mapError_eq_ok] at made
      unfold PackageRequirement.new at made
      split at made
      · split at made
        · obtain rfl := Except.ok.inj made
          exact ⟨rfl, rfl, rfl⟩
        · cases made
      all_goals
        obtain rfl := Except.ok.inj made
        exact ⟨rfl, rfl, rfl⟩
    refine ⟨parts.1, parts.2.1.trans source_eq, by rw [parts.2.2]; rfl, ?_⟩
    dsimp only
    split <;> simp_all

/-- What stands for some roots of one name. -/
structure RootsSum (items : List RootRequirement) (total : RootRequirement) : Prop where
  filled : items ≠ []
  name : ∀ item ∈ items, item.package.name = total.package.name
  clauses : total.package.constraint.clauses =
    items.flatMap fun item => item.package.constraint.clauses
  source : ∀ item ∈ items, item.package.source = .any ∨
    Same item.package.source total.package.source
  chosen : ∃ item ∈ items, item.package.source = total.package.source
  expansion : total.expansion = .directSuggests ↔ ∃ item ∈ items, item.expansion = .directSuggests

/-- Roots of one name merge when their scopes agree. -/
theorem merges_combine : Merges RootRequirement.combine
    (fun left right => left.package.name = right.package.name ∧
      left.package.source.Agrees right.package.source) RootsSum where
  single item := by
    refine ⟨by simp, by simp, by simp, ?_, by simp, by simp⟩
    intro other member
    rw [List.mem_singleton.mp member]
    exact .inr (.refl _)
  succeeds := by
    intro items total item sums
    obtain ⟨chosen, chosenIn, source⟩ := sums.chosen
    constructor
    · rintro ⟨next, done⟩ other member
      obtain ⟨_, named, -⟩ := bind_eq_ok.mp done
      have same : total.package.name = item.package.name := (ensure_eq_ok.mp named)
      refine ⟨(sums.name other member).trans same, ?_⟩
      have agrees := (RootRequirement.combine_spec same).1.mp ⟨next, done⟩
      rcases sums.source other member with isOpen | equal
      · exact .inl isOpen
      · rcases agrees with isOpen | isOpen | alike
        · rw [isOpen] at equal
          exact .inl (DependencySourceConstraint.eq_any_of_same equal)
        · exact .inr (.inl isOpen)
        · exact .inr (.inr (equal.trans alike))
    · intro compatible
      obtain ⟨same, agrees⟩ := compatible chosen chosenIn
      rw [sums.name chosen chosenIn] at same
      rw [source] at agrees
      exact (RootRequirement.combine_spec same).1.mpr agrees
  merged := by
    intro items total item next sums done
    obtain ⟨_, named, -⟩ := bind_eq_ok.mp done
    have same : total.package.name = item.package.name := (ensure_eq_ok.mp named)
    have agrees := (RootRequirement.combine_spec same).1.mp ⟨next, done⟩
    have combines := (RootRequirement.combine_spec same).2 next done
    refine ⟨by simp, ?_, ?_, ?_, ?_, ?_⟩
    · intro other member
      rw [combines.name]
      rcases List.mem_append.mp member with old | new
      · exact sums.name other old
      · rw [List.mem_singleton.mp new, same]
    · rw [combines.clauses, sums.clauses, List.flatMap_append, List.flatMap_singleton]
    · intro other member
      rw [combines.source]
      rcases List.mem_append.mp member with old | new
      · rcases sums.source other old with isOpen | equal
        · exact .inl isOpen
        · split
          · next isOpen =>
            rw [isOpen] at equal
            exact .inl (DependencySourceConstraint.eq_any_of_same equal)
          · exact .inr equal
      · rw [List.mem_singleton.mp new]
        split
        · exact .inr (.refl _)
        · next isFixed =>
          rcases agrees with isOpen | isOpen | alike
          · exact absurd isOpen isFixed
          · exact .inl isOpen
          · exact .inr alike.symm
    · rw [combines.source]
      split
      · exact ⟨item, by simp, rfl⟩
      · obtain ⟨chosen, chosenIn, source⟩ := sums.chosen
        exact ⟨chosen, List.mem_append_left _ chosenIn, source⟩
    · rw [combines.expansion, sums.expansion]
      simp [or_and_right, exists_or]

/-- The loop puts roots into a table by their names. -/
theorem combineRoot_eq :
    combineRoot = Joins.add (fun root => root.package.name) RootRequirement.combine := by
  funext composed root
  simp only [combineRoot, Joins.add, OrderedMap.insert_erase]
  cases composed.get? root.package.name with
  | none => rfl
  | some existing => rfl

/-- Combining succeeds exactly when the scopes of roots with one name agree, and then the roots come
from a table that has them. -/
theorem combineRootRequirements_spec (roots : List RootRequirement) :
    ((∃ combined, combineRootRequirements roots = .ok combined) ↔
      ∀ left ∈ roots, ∀ right ∈ roots, left.package.name = right.package.name →
        left.package.source.Agrees right.package.source) ∧
    ∀ combined, combineRootRequirements roots = .ok combined →
      ∃ table : OrderedMap PackageName RootRequirement, combined = table.values ∧
        Holds (fun root => root.package.name) RootsSum roots table := by
  obtain ⟨succeeds, holds⟩ := @Merges.run _ _ _ _ _ _ _ (fun root => root.package.name) _ _ _
    merges_combine (fun _ _ agrees => ⟨agrees.1.symm, agrees.2.symm⟩)
    (fun _ => ⟨rfl, .inr (.inr (.refl _))⟩) roots
  rw [← combineRoot_eq] at succeeds holds
  unfold combineRootRequirements
  constructor
  · refine Iff.trans ?_ (succeeds.trans ?_)
    · cases roots.foldlM combineRoot OrderedMap.empty with
      | ok table => exact iff_of_true ⟨_, rfl⟩ ⟨_, rfl⟩
      | error cause => exact iff_of_false nofun nofun
    · exact ⟨fun all left leftIn right rightIn same => (all left leftIn right rightIn same).2,
        fun all left leftIn right rightIn same => ⟨same, all left leftIn right rightIn same⟩⟩
  · intro combined done
    cases table : roots.foldlM combineRoot OrderedMap.empty with
    | error cause =>
      rw [table] at done
      cases done
    | ok reached =>
      rw [table] at done
      exact ⟨reached, (Except.ok.inj done).symm, holds reached table⟩

end Roots

/-- Root requirements are combined alike in every order: it fails exactly when two roots of one name
have different scopes that are not open. Otherwise there is one root for each name, in the order of
the names; its constraint admits the versions that all constraints of the name admit, its scope is
the one that is not open, if there is one, and it requires suggested packages when one of them
does. -/
theorem combineRootRequirements_join (roots : List RootRequirement) :
    (∀ permuted, roots.Perm permuted →
      ((∃ combined, combineRootRequirements roots = .ok combined) ↔
        ∃ combined, combineRootRequirements permuted = .ok combined)) ∧
    ((∃ cause, combineRootRequirements roots = .error cause) ↔
      ∃ left ∈ roots, ∃ right ∈ roots, left.package.name = right.package.name ∧
        left.package.source ≠ .any ∧ right.package.source ≠ .any ∧
        ¬ Same left.package.source right.package.source) ∧
    ∀ combined, combineRootRequirements roots = .ok combined →
      (combined.Pairwise fun left right =>
        compare left.package.name right.package.name = .lt) ∧
      (∀ name, (∃ root ∈ combined, root.package.name = name) ↔
        ∃ item ∈ roots, item.package.name = name) ∧
      ∀ root ∈ combined,
        (∀ version, root.package.constraint.satisfies version = true ↔
          ∀ item ∈ roots, item.package.name = root.package.name →
            item.package.constraint.satisfies version = true) ∧
        (∀ item ∈ roots, item.package.name = root.package.name → item.package.source ≠ .any →
          Same root.package.source item.package.source) ∧
        (root.package.source = .any ↔ ∀ item ∈ roots, item.package.name = root.package.name →
          item.package.source = .any) ∧
        (root.expansion = .directSuggests ↔ ∃ item ∈ roots,
          item.package.name = root.package.name ∧ item.expansion = .directSuggests) := by
  obtain ⟨succeeds, holds⟩ := combineRootRequirements_spec roots
  refine ⟨fun permuted perm => ?_, ?_, fun combined done => ?_⟩
  · rw [succeeds, (combineRootRequirements_spec permuted).1]
    simp only [perm.mem_iff]
  · have fails : (∃ cause, combineRootRequirements roots = .error cause) ↔
        ¬ ∃ combined, combineRootRequirements roots = .ok combined := by
      cases combineRootRequirements roots with
      | ok combined => exact iff_of_false nofun fun none => none ⟨combined, rfl⟩
      | error cause => exact iff_of_true ⟨cause, rfl⟩ nofun
    rw [fails, succeeds]
    simp only [DependencySourceConstraint.Agrees, not_forall, not_or, exists_prop]
  · obtain ⟨table, rfl, holds⟩ := holds combined done
    have keyed : ∀ name root, (name, root) ∈ table.entries →
        root.package.name = name ∧ RootsSum (roots.filter fun item => item.package.name = name)
          root := by
      intro name root member
      obtain ⟨⟨item, itemIn, named⟩, sums⟩ :=
        (holds name).2 root (OrderedMap.get?_eq_some_iff.mpr member)
      have kept : item ∈ roots.filter fun item => item.package.name = name :=
        List.mem_filter.mpr ⟨itemIn, decide_eq_true named⟩
      exact ⟨(sums.name item kept).symm.trans named, sums⟩
    have mem_values : ∀ root, root ∈ table.values ↔ ∃ name, (name, root) ∈ table.entries := by
      intro root
      simp only [OrderedMap.values, List.mem_map, Prod.exists, exists_eq_right]
    refine ⟨?_, fun name => ⟨?_, ?_⟩, fun root member => ?_⟩
    · refine List.pairwise_map.mpr (table.ordered.imp_of_mem fun leftIn rightIn below => ?_)
      rw [(keyed _ _ leftIn).1, (keyed _ _ rightIn).1]
      exact below
    · rintro ⟨root, member, rfl⟩
      obtain ⟨name, entry⟩ := (mem_values root).mp member
      obtain ⟨named, -⟩ := keyed name root entry
      obtain ⟨⟨item, itemIn, same⟩, -⟩ :=
        (holds name).2 root (OrderedMap.get?_eq_some_iff.mpr entry)
      exact ⟨item, itemIn, same.trans named.symm⟩
    · rintro ⟨item, itemIn, rfl⟩
      cases found : table.get? item.package.name with
      | none => exact absurd rfl ((holds _).1 found item itemIn)
      | some root =>
        have entry := OrderedMap.get?_eq_some_iff.mp found
        exact ⟨root, (mem_values root).mpr ⟨_, entry⟩, (keyed _ _ entry).1⟩
    · obtain ⟨name, entry⟩ := (mem_values root).mp member
      obtain ⟨rfl, sums⟩ := keyed name root entry
      have mem_items : ∀ item, item ∈ roots.filter (fun item =>
          item.package.name = root.package.name) ↔
            item ∈ roots ∧ item.package.name = root.package.name := by
        intro item
        rw [List.mem_filter, decide_eq_true_eq]
      refine ⟨fun version => ?_, fun item itemIn named isFixed => ?_, ⟨?_, ?_⟩, ?_⟩
      · simp only [VersionConstraint.satisfies, sums.clauses, List.all_flatMap, List.all_eq_true,
          mem_items, and_imp]
      · rcases sums.source item ((mem_items item).mpr ⟨itemIn, named⟩) with isOpen | same
        · exact absurd isOpen isFixed
        · exact same.symm
      · intro isOpen item itemIn named
        rcases sums.source item ((mem_items item).mpr ⟨itemIn, named⟩) with itemOpen | same
        · exact itemOpen
        · rw [isOpen] at same
          exact DependencySourceConstraint.eq_any_of_same same
      · intro allOpen
        obtain ⟨item, itemIn, source⟩ := sums.chosen
        obtain ⟨inRoots, named⟩ := (mem_items item).mp itemIn
        rw [← source]
        exact allOpen item inRoots named
      · rw [sums.expansion]
        simp only [mem_items, and_assoc]

namespace Small

/-- The spelling of the least version reads as its components. -/
theorem glueVersion_spelled : parseComponents "1.0" = .ok (Components.fromVec [1, 0]).toList := by
  decide

/-- The id of the repository passes its check. -/
theorem glueRepository_checked : Identifier.check .repositoryId "cran" = .ok () := by decide

/-- A root from any source and a root of the same package from one repository. -/
def glueRoots : List RootRequirement :=
  [⟨⟨⟨"glue", by decide⟩, .any, ⟨[⟨.ge, ⟨"1.0", .fromVec [1, 0], glueVersion_spelled⟩⟩]⟩,
      namesPackage_any _⟩, .directSuggests⟩,
    ⟨⟨⟨"glue", by decide⟩, .repository ⟨"cran", glueRepository_checked⟩, .unconstrained,
      namesPackage_repository _ _⟩, .hardOnly⟩]

end Small

/-- An open root and a root of one repository are combined in both orders, to a root of the
repository. -/
theorem combineRootRequirements_glue :
    ∃ combined, combineRootRequirements Small.glueRoots = .ok combined ∧ combined ≠ [] ∧
      (∃ other, combineRootRequirements Small.glueRoots.reverse = .ok other) ∧
      ∀ root ∈ combined, root.package.source ≠ .any := by
  obtain ⟨orders, -, meaning⟩ := combineRootRequirements_join Small.glueRoots
  obtain ⟨combined, done⟩ := exists_of_isOk
    (show (combineRootRequirements Small.glueRoots).isOk = true by decide +kernel)
  obtain ⟨-, names, roots⟩ := meaning combined done
  obtain ⟨root, member, -⟩ := (names _).mpr ⟨_, List.mem_cons_self, rfl⟩
  refine ⟨combined, done, List.ne_nil_of_mem member,
    (orders _ (List.reverse_perm _).symm).mp ⟨combined, done⟩, fun root member isOpen => ?_⟩
  obtain ⟨item, itemIn, named⟩ := (names root.package.name).mp ⟨root, member, rfl⟩
  have repository : (Small.glueRoots.getLast (by decide)).package.source = .any := by
    refine (roots root member).2.2.1.mp isOpen _ (List.getLast_mem _) ?_
    rw [← named]
    have alike : ∀ left ∈ Small.glueRoots, ∀ right ∈ Small.glueRoots,
        left.package.name = right.package.name := by decide +kernel
    exact alike _ (List.getLast_mem _) item itemIn
  exact absurd repository (by decide)

end Rsolve
