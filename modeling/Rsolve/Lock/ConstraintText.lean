import Rsolve.Lock.Determinism

/-!
# The text of a constraint

A constraint is written as terms between commas; each term is an operator and a version. What is read
admits the versions that all terms admit. The canonical form of a constraint is the same for the same
clauses, and a lock prints it so that it reads back as itself.
-/
open Keyed Checked

namespace Rsolve

/-- The operators of a term as they are spelled; a term without one means equality. -/
def relationSpellings : List (List Char × RelationOp) :=
  [(['>', '='], .ge), (['<', '='], .le), (['!', '='], .ne), (['=', '='], .eq), (['>'], .gt),
    (['<'], .lt), (['='], .eq), ([], .eq)]

/-- The operator of a term is the longest one that it starts with. -/
structure SpellsRelation (term : List Char) (op : RelationOp) (version : List Char) : Prop where
  spelled : ∃ spelling, (spelling, op) ∈ relationSpellings ∧ term = spelling ++ version ∧
    ∀ entry ∈ relationSpellings, entry.1 <+: term → entry.1.length ≤ spelling.length

/-- A term relates to a version by an operator, and spaces around both are ignored. -/
structure SpellsTerm (kind : ConstraintVersionKind) (term : List Char) (op : RelationOp)
    (bound : RPackageVersion) : Prop where
  spelled : ∃ version, SpellsRelation (trim term) op version ∧
    parseConstraintVersion kind (String.ofList (trim version)) = .ok bound

/-- A version meets a text of terms: every term relates it to a version as its operator says, or the
text is an asterisk. -/
def MeetsTerms (kind : ConstraintVersionKind) (input : String) (version : RPackageVersion) : Prop :=
  trim input.toList = ['*'] ∨ ∀ term ∈ input.toList.splitOnP (· == ','), ∃ op bound,
    SpellsTerm kind term op bound ∧ op.holds (version.cmp bound) = true

section Reading

/-- A term is split at the operator that it spells. -/
theorem spellsRelation_splitRelation (term : List Char) :
    SpellsRelation term (splitRelation term).1 (splitRelation term).2 := by
  have short : ∀ entry ∈ relationSpellings, entry.1.length ≤ 2 := by decide
  -- A shorter operator is taken only where no longer one fits.
  have longest : ∀ term spelling : List Char, (∀ entry ∈ relationSpellings, entry.1 <+: term →
      spelling.length < entry.1.length → False) →
      ∀ entry ∈ relationSpellings, entry.1 <+: term → entry.1.length ≤ spelling.length :=
    fun term spelling none entry listed start =>
      Nat.le_of_not_lt fun longer => none entry listed start longer
  unfold splitRelation
  split <;> dsimp only
  · exact ⟨['>', '='], by decide, rfl, fun entry listed _ => short entry listed⟩
  · exact ⟨['<', '='], by decide, rfl, fun entry listed _ => short entry listed⟩
  · exact ⟨['!', '='], by decide, rfl, fun entry listed _ => short entry listed⟩
  · exact ⟨['=', '='], by decide, rfl, fun entry listed _ => short entry listed⟩
  · refine ⟨['>'], by decide, rfl, longest _ _ ?_⟩
    simp_all [relationSpellings, List.cons_prefix_iff]
  · refine ⟨['<'], by decide, rfl, longest _ _ ?_⟩
    simp_all [relationSpellings, List.cons_prefix_iff]
  · refine ⟨['='], by decide, rfl, longest _ _ ?_⟩
    simp_all [relationSpellings, List.cons_prefix_iff]
  · refine ⟨[], by decide, rfl, longest _ _ ?_⟩
    simp_all [relationSpellings, List.cons_prefix_iff]

/-- A term spells one operator. -/
theorem SpellsRelation.unique {term version other : List Char} {op relation : RelationOp}
    (first : SpellsRelation term op version) (second : SpellsRelation term relation other) :
    op = relation ∧ version = other := by
  obtain ⟨spelling, listed, split, longest⟩ := first.spelled
  obtain ⟨spelling', listed', split', longest'⟩ := second.spelled
  have here : spelling <+: term := split ▸ List.prefix_append _ _
  have there : spelling' <+: term := split' ▸ List.prefix_append _ _
  have lengths : spelling.length = spelling'.length :=
    Nat.le_antisymm (longest' _ listed here) (longest _ listed' there)
  obtain rfl : spelling = spelling' :=
    (List.prefix_of_prefix_length_le here there lengths.le).eq_of_length lengths
  have functional : ∀ left ∈ relationSpellings, ∀ right ∈ relationSpellings,
      left.1 = right.1 → left.2 = right.2 := by decide
  refine ⟨functional _ listed _ listed' rfl, ?_⟩
  rw [split] at split'
  exact List.append_cancel_left split'

/-- Reading a term gives the clause that it spells. -/
theorem spellsTerm_of_parsed {field : String} {kind : ConstraintVersionKind} {term : List Char}
    {clause : VersionClause} (parsed : parseConstraintTerm field kind term = .ok clause) :
    SpellsTerm kind term clause.op clause.version := by
  simp only [parseConstraintTerm, bind_eq_ok, mapError_eq_ok, pure, Except.pure,
    Except.ok.injEq] at parsed
  obtain ⟨_, -, _, -, bound, read, rfl⟩ := parsed
  exact ⟨_, spellsRelation_splitRelation (trim term), read⟩

/-- A term spells one clause. -/
theorem SpellsTerm.unique {kind : ConstraintVersionKind} {term : List Char} {op relation : RelationOp}
    {bound other : RPackageVersion} (first : SpellsTerm kind term op bound)
    (second : SpellsTerm kind term relation other) : op = relation ∧ bound = other := by
  obtain ⟨version, relates, read⟩ := first.spelled
  obtain ⟨version', relates', read'⟩ := second.spelled
  obtain ⟨rfl, rfl⟩ := relates.unique relates'
  exact ⟨rfl, Except.ok.inj (read.symm.trans read')⟩

/-- Clauses read from terms hold of a version together when the version meets every term. -/
theorem clauses_hold_iff {field : String} {kind : ConstraintVersionKind} {terms : List (List Char)}
    {clauses : List VersionClause}
    (read : List.Forall₂ (fun term clause => parseConstraintTerm field kind term = .ok clause) terms
      clauses) (version : RPackageVersion) :
    (∀ clause ∈ clauses, clause.op.holds (version.cmp clause.version) = true) ↔
      ∀ term ∈ terms, ∃ op bound,
        SpellsTerm kind term op bound ∧ op.holds (version.cmp bound) = true := by
  induction read with
  | nil => simp
  | cons head _ ih =>
    have spelled := spellsTerm_of_parsed head
    rw [List.forall_mem_cons, List.forall_mem_cons, ih]
    refine and_congr_left fun _ => ⟨fun holds => ⟨_, _, spelled, holds⟩, ?_⟩
    rintro ⟨op, bound, other, holds⟩
    obtain ⟨rfl, rfl⟩ := spelled.unique other
    exact holds

/-- A constraint that is read admits the versions that meet all its terms. -/
theorem satisfies_of_parseConstraint {input field : String} {kind : ConstraintVersionKind}
    {constraint : VersionConstraint} (parsed : parseConstraint input field kind = .ok constraint)
    (version : RPackageVersion) :
    constraint.satisfies version = true ↔ MeetsTerms kind input version := by
  obtain ⟨_, -, parsed⟩ := bind_eq_ok.mp parsed
  by_cases asterisk : trim input.toList = ['*']
  · rw [if_pos asterisk] at parsed
    obtain rfl := Except.ok.inj parsed
    exact iff_of_true rfl (.inl asterisk)
  · rw [if_neg asterisk] at parsed
    obtain ⟨clauses, read, made⟩ := bind_eq_ok.mp parsed
    obtain rfl := Except.ok.inj made
    rw [satisfies_canonicalizeConstraint, MeetsTerms, or_iff_right asterisk,
      ← clauses_hold_iff (mapM_eq_ok.mp read)]
    simp only [VersionConstraint.satisfies, List.all_eq_true]

end Reading

section Canonical

/-- The canonical form of a constraint is its own canonical form. -/
theorem canonicalizeConstraint_idempotent (constraint : VersionConstraint) :
    canonicalizeConstraint (canonicalizeConstraint constraint) =
      canonicalizeConstraint constraint := by
  simp only [canonicalizeConstraint, canonicalClauses_eq]
  rw [Sorting.canonical_eq_self _ _ (Sorting.canonical_strict compareClauses compareClauseSpelling
    constraint.clauses)]

/-- Constraints with the same clauses have the same canonical form. -/
theorem canonicalizeConstraint_same {left right : VersionConstraint}
    (matched : Sorting.Matches Same left.clauses right.clauses) :
    Same (canonicalizeConstraint left) (canonicalizeConstraint right) :=
  congrArg VersionConstraint.mk (same_list.mpr (canonicalClauses_forall₂_iff.mpr matched))

end Canonical

section Printing

/-- The versions of a kind have enough components. -/
def ConstraintVersionKind.minimum : ConstraintVersionKind → Nat
  | .r => 1
  | .package => 2

/-- A version of a kind is read with the minimum of the kind. -/
theorem parseConstraintVersion_eq (kind : ConstraintVersionKind) (version : String) :
    parseConstraintVersion kind version = RPackageVersion.parseWithMinimum version kind.minimum := by
  cases kind <;> rfl

/-- A text without spaces is not trimmed. -/
theorem trim_of_solid {characters : List Char}
    (solid : ∀ character ∈ characters, isWhitespace character = false) :
    trim characters = characters := by
  have kept : ∀ characters : List Char, (∀ character ∈ characters, isWhitespace character = false) →
      characters.dropWhile isWhitespace = characters := by
    intro characters solid
    cases characters with
    | nil => rfl
    | cons first rest => exact List.dropWhile_cons_of_neg (by simp [solid first List.mem_cons_self])
  rw [trim, kept characters solid, kept characters.reverse fun character member =>
    solid character (List.mem_reverse.mp member), List.reverse_reverse]

/-- Padding to two components adds only zeros. -/
theorem RPackageVersion.trimZeros_atLeastTwo (values : List Nat) :
    trimZeros (atLeastTwo values) = trimZeros values := by
  rcases values with _ | ⟨first, _ | ⟨second, rest⟩⟩
  · rfl
  · exact trimZeros_concat_zero [first]
  · rfl

/-- What is printed has the key of the version. -/
theorem RPackageVersion.trimZeros_canonicalValues (version : RPackageVersion) :
    trimZeros (canonicalValues version) = version.key := by
  by_cases bare : version.Bare
  · rw [canonicalValues_of_bare bare, key_eq]
  · rw [canonicalValues_of_not_bare bare, trimZeros_atLeastTwo, key_eq, trimZeros_trimZeros]

/-- A printed version is read back as the version when it has enough components. -/
theorem exists_parse_canonicalVersion {version : RPackageVersion} {minimum : Nat}
    (most : minimum ≤ 2) (many : minimum ≤ version.values.length) :
    ∃ parsed, RPackageVersion.parseWithMinimum (canonicalVersion version) minimum = .ok parsed ∧
      Same parsed version := by
  have printed : parseComponents (canonicalVersion version) = .ok (canonicalValues version) :=
    parseComponents_joinComponents (RPackageVersion.canonicalValues_bounds version).1
      (RPackageVersion.canonicalValues_bounds version).2
  have enough : ¬ (canonicalValues version).length < minimum := by
    by_cases bare : version.Bare
    · rw [RPackageVersion.canonicalValues_of_bare bare]
      omega
    · rw [RPackageVersion.canonicalValues_of_not_bare bare]
      have two := RPackageVersion.two_le_atLeastTwo version.key
      omega
  unfold RPackageVersion.parseWithMinimum
  split
  · next failed =>
    rw [printed] at failed
    cases failed
  · next values read =>
    obtain rfl := Except.ok.inj (printed.symm.trans read)
    rw [if_neg enough]
    refine ⟨_, rfl, RPackageVersion.same_iff.mpr ?_⟩
    rw [RPackageVersion.key_eq, RPackageVersion.values, Components.toList_fromVec,
      RPackageVersion.trimZeros_canonicalValues]

/-- A character of a printed clause: a digit, a period or a part of an operator. -/
def isClauseCharacter (character : Char) : Bool :=
  character.isDigit || character == '.' || character == '<' || character == '>' ||
    character == '=' || character == '!'

/-- A printed clause has such characters. -/
theorem isClauseCharacter_of_mem {clause : VersionClause} {character : Char}
    (member : character ∈ (clauseText clause).toList) : isClauseCharacter character = true := by
  rw [clauseText, String.toList_append, List.mem_append] at member
  rcases member with tag | version
  · have tags : ∀ op, (rRequirementRelationTag op).toList.all isClauseCharacter = true := by
      intro op
      cases op <;> decide
    exact List.all_eq_true.mp (tags clause.op) character tag
  · rcases mem_joinComponents version with digit | rfl
    · simp [isClauseCharacter, digit]
    · decide

/-- Such a character is not a space, a control character or an asterisk. -/
theorem plain_of_isClauseCharacter {character : Char} (plain : isClauseCharacter character = true) :
    isWhitespace character = false ∧ isControl character = false ∧ character ≠ '*' := by
  simp only [isClauseCharacter, Bool.or_eq_true, beq_iff_eq] at plain
  rcases plain with ((((digit | rfl) | rfl) | rfl) | rfl) | rfl
  · simp only [Char.isDigit, Bool.and_eq_true, decide_eq_true_eq, UInt32.le_iff_toNat_le] at digit
    obtain ⟨least, most⟩ := digit
    refine ⟨?_, ?_, ?_⟩
    · simp [isWhitespace, UInt32.le_iff_toNat_le, ← UInt32.toNat_inj] at least most ⊢
      omega
    · simp [isControl, UInt32.le_iff_toNat_le] at least most ⊢
      omega
    · rintro rfl
      exact absurd least (by decide)
  all_goals decide

/-- A printed version is a text without an equals sign. -/
theorem canonicalVersion_clean (version : RPackageVersion) :
    (canonicalVersion version).toList ≠ [] ∧ '=' ∉ (canonicalVersion version).toList := by
  constructor
  · intro empty
    have printed : parseComponents (canonicalVersion version) =
        .ok (canonicalValues version) :=
      parseComponents_joinComponents (RPackageVersion.canonicalValues_bounds version).1
        (RPackageVersion.canonicalValues_bounds version).2
    rw [String.toList_eq_nil_iff.mp empty] at printed
    cases printed
  · intro member
    rcases mem_joinComponents member with digit | period
    · exact absurd digit (by decide)
    · exact absurd period (by decide)

/-- A printed operator is read back before a version. -/
theorem splitRelation_tag (op : RelationOp) {version : List Char} (clean : '=' ∉ version) :
    splitRelation ((rRequirementRelationTag op).toList ++ version) = (op, version) := by
  cases version with
  | nil => cases op <;> rfl
  | cons first rest =>
    have other : first ≠ '=' := fun equal => clean (equal ▸ List.mem_cons_self)
    cases op <;> simp [rRequirementRelationTag, splitRelation, other]

/-- A printed clause has a text. -/
theorem clauseText_ne_nil (clause : VersionClause) : (clauseText clause).toList ≠ [] := by
  rw [clauseText, String.toList_append]
  exact List.append_ne_nil_of_right_ne_nil _ (canonicalVersion_clean clause.version).1

/-- A printed clause is read back. -/
theorem exists_parse_clauseText (field : String) {kind : ConstraintVersionKind}
    {clause : VersionClause} (many : kind.minimum ≤ clause.version.values.length) :
    ∃ parsed, parseConstraintTerm field kind (clauseText clause).toList = .ok parsed ∧
      Same parsed clause := by
  have most : kind.minimum ≤ 2 := by cases kind <;> decide
  obtain ⟨version, read, same⟩ := exists_parse_canonicalVersion most many
  obtain ⟨some, clean⟩ := canonicalVersion_clean clause.version
  have solid : ∀ character ∈ (clauseText clause).toList, isWhitespace character = false :=
    fun character member => (plain_of_isClauseCharacter (isClauseCharacter_of_mem member)).1
  have text : (clauseText clause).toList =
      (rRequirementRelationTag clause.op).toList ++ (canonicalVersion clause.version).toList :=
    String.toList_append
  have versionSolid : trim (canonicalVersion clause.version).toList =
      (canonicalVersion clause.version).toList :=
    trim_of_solid fun character member =>
      solid character (text ▸ List.mem_append_right _ member)
  have asterisk : (canonicalVersion clause.version).toList ≠ ['*'] := by
    intro equal
    have member : '*' ∈ (clauseText clause).toList := by
      rw [text, equal]
      exact List.mem_append_right _ List.mem_cons_self
    exact (plain_of_isClauseCharacter (isClauseCharacter_of_mem member)).2.2 rfl
  have nonempty := clauseText_ne_nil clause
  refine ⟨⟨clause.op, version⟩, ?_, VersionClause.same_iff.mpr ⟨rfl, same⟩⟩
  rw [parseConstraintTerm, trim_of_solid solid, text, splitRelation_tag clause.op clean]
  simp only [versionSolid, parseConstraintVersion_eq, String.ofList_toList, read]
  rw [← text, ensure_of nonempty]
  simp [ensure_of, some, asterisk, Except.mapError, pure, Except.pure]

/-- Printed clauses are read back. -/
theorem exists_parse_clauseTexts (field : String) {kind : ConstraintVersionKind}
    {clauses : List VersionClause}
    (many : ∀ clause ∈ clauses, kind.minimum ≤ clause.version.values.length) :
    ∃ parsed, (clauses.map fun clause => (clauseText clause).toList).mapM
      (parseConstraintTerm field kind) = .ok parsed ∧ List.Forall₂ Same parsed clauses := by
  induction clauses with
  | nil => exact ⟨[], rfl, .nil⟩
  | cons clause rest ih =>
    obtain ⟨head, read, same⟩ := exists_parse_clauseText field (many clause List.mem_cons_self)
    obtain ⟨tail, others, pairwise⟩ := ih fun clause member =>
      many clause (List.mem_cons_of_mem _ member)
    refine ⟨head :: tail, ?_, .cons same pairwise⟩
    rw [List.map_cons, List.mapM_cons, read, ok_bind, others]
    rfl

/-- Clauses that are joined have such characters and commas. -/
theorem mem_joined {clauses : List VersionClause} {character : Char}
    (member : character ∈ (String.intercalate "," (clauses.map clauseText)).toList) :
    isClauseCharacter character = true ∨ character = ',' := by
  rw [String.toList_intercalate, List.map_map] at member
  rcases Decimal.mem_intercalate member with comma | ⟨part, partIn, inside⟩
  · exact .inr comma
  · obtain ⟨clause, _, rfl⟩ := List.mem_map.mp partIn
    exact .inl (isClauseCharacter_of_mem inside)

/-- A printed canonical constraint is read back when its versions have enough components. -/
theorem exists_parse_canonicalRRequirement (field : String) {kind : ConstraintVersionKind}
    {constraint : VersionConstraint}
    (canonical : Same (canonicalizeConstraint constraint) constraint)
    (many : ∀ clause ∈ constraint.clauses, kind.minimum ≤ clause.version.values.length) :
    ∃ parsed, parseConstraint (canonicalRRequirement constraint) field kind = .ok parsed ∧
      Same parsed constraint := by
  by_cases none : constraint.clauses = []
  · obtain ⟨clauses⟩ := constraint
    subst none
    exact ⟨VersionConstraint.unconstrained, rfl, rfl⟩
  · have some : canonicalClauses constraint.clauses ≠ [] := mt canonicalClauses_eq_nil.mp none
    have text : canonicalRRequirement constraint =
        String.intercalate "," ((canonicalClauses constraint.clauses).map clauseText) :=
      if_neg none
    have split := splitOnP_joined some
    rw [← text] at split
    have plain : ∀ character ∈ (canonicalRRequirement constraint).toList,
        isWhitespace character = false ∧ isControl character = false ∧ character ≠ '*' := by
      intro character member
      rw [text] at member
      rcases mem_joined member with clause | rfl
      · exact plain_of_isClauseCharacter clause
      · decide
    have nonempty : (canonicalRRequirement constraint).toList ≠ [] := by
      intro empty
      rw [empty, List.splitOnP_nil] at split
      have blank : [] ∈ (canonicalClauses constraint.clauses).map
          (fun clause => (clauseText clause).toList) := split ▸ List.mem_singleton_self _
      obtain ⟨clause, _, equal⟩ := List.mem_map.mp blank
      exact clauseText_ne_nil clause equal
    have asterisk : trim (canonicalRRequirement constraint).toList ≠ ['*'] := by
      rw [trim_of_solid fun character member => (plain character member).1]
      intro equal
      exact (plain '*' (equal ▸ List.mem_singleton_self _)).2.2 rfl
    have printable : (canonicalRRequirement constraint).toList.all
        (fun character => !isControl character) = true :=
      List.all_eq_true.mpr fun character member => by simp [(plain character member).2.1]
    have enough : ∀ clause ∈ canonicalClauses constraint.clauses,
        kind.minimum ≤ clause.version.values.length := by
      intro clause member
      rw [canonicalClauses_eq] at member
      exact many clause (Sorting.mem_of_mem_canonical compareClauses compareClauseSpelling member)
    obtain ⟨parsed, read, same⟩ := exists_parse_clauseTexts field enough
    refine ⟨canonicalizeConstraint ⟨parsed⟩, ?_, ?_⟩
    · rw [parseConstraint, ensure_of ⟨nonempty, printable⟩, ok_bind, if_neg asterisk, split, read]
      rfl
    · have back : Same (canonicalizeConstraint ⟨parsed⟩)
          (canonicalizeConstraint (canonicalizeConstraint constraint)) :=
        canonicalizeConstraint_same (Sorting.matches_of_forall₂ same)
      rw [canonicalizeConstraint_idempotent] at back
      exact back.trans canonical

end Printing

/-- What is read admits the versions that meet all its terms. The canonical form is its own canonical
form, admits the same versions, and is the same for the same clauses. A canonical constraint whose
versions have enough components is printed so that it reads back as itself. -/
theorem constraintText_roundTrip (field : String) (kind : ConstraintVersionKind) :
    (∀ input constraint, parseConstraint input field kind = .ok constraint →
      ∀ version, constraint.satisfies version = true ↔ MeetsTerms kind input version) ∧
    (∀ constraint, canonicalizeConstraint (canonicalizeConstraint constraint) =
        canonicalizeConstraint constraint ∧
      ∀ version, (canonicalizeConstraint constraint).satisfies version =
        constraint.satisfies version) ∧
    (∀ left right : VersionConstraint, Sorting.Matches Same left.clauses right.clauses →
      Same (canonicalizeConstraint left) (canonicalizeConstraint right)) ∧
    ∀ constraint, Same (canonicalizeConstraint constraint) constraint →
      (∀ clause ∈ constraint.clauses, kind.minimum ≤ clause.version.values.length) →
      ∃ parsed, parseConstraint (canonicalRRequirement constraint) field kind = .ok parsed ∧
        Same parsed constraint :=
  ⟨fun _ _ parsed version => satisfies_of_parseConstraint parsed version,
    fun constraint => ⟨canonicalizeConstraint_idempotent constraint,
      satisfies_canonicalizeConstraint constraint⟩,
    fun _ _ matched => canonicalizeConstraint_same matched,
    fun _ canonical many => exists_parse_canonicalRRequirement field canonical many⟩

/-- A constraint written with spaces and trailing zeros is printed without them and read back. -/
theorem constraintText_roundTrip_spaced :
    ∃ constraint, parseConstraint " >= 1.2.0 , < 3.0" "dependencies" .package = .ok constraint ∧
      canonicalRRequirement constraint = "<3.0,>=1.2" ∧
      (∀ version, constraint.satisfies version = true ↔
        MeetsTerms .package " >= 1.2.0 , < 3.0" version) ∧
      ∃ parsed, parseConstraint (canonicalRRequirement constraint) "dependencies" .package =
        .ok parsed ∧ Same parsed constraint := by
  have facts : ((parseConstraint " >= 1.2.0 , < 3.0" "dependencies" .package).map
      fun constraint => decide (canonicalRRequirement constraint = "<3.0,>=1.2" ∧
        Same (canonicalizeConstraint constraint) constraint ∧
        ∀ clause ∈ constraint.clauses, 2 ≤ clause.version.values.length)) = .ok true := by
    decide +kernel
  obtain ⟨reads, _, _, rounds⟩ := constraintText_roundTrip "dependencies" .package
  cases read : parseConstraint " >= 1.2.0 , < 3.0" "dependencies" .package with
  | error cause =>
    rw [read] at facts
    cases facts
  | ok constraint =>
    rw [read] at facts
    obtain ⟨printed, canonical, many⟩ := of_decide_eq_true (Except.ok.inj facts)
    exact ⟨constraint, rfl, printed, reads _ _ read, rounds constraint canonical many⟩

end Rsolve
