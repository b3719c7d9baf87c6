import Rsolve.Core.UrlForms
import Rsolve.Cran.Import
import Rsolve.Lock.ConstraintText
import Rsolve.Repository.IndexText

/-!
# Dependencies as texts

A dependency is written as its name with its clause in parentheses, and the dependencies of one kind
as a text with commas between them. The parser of package descriptions reads the same dependencies
again, with versions that are spelled alike.
-/
open Keyed Checked Ordered Paragraphs Splitting

namespace Rsolve

open PackageDescription

/-! ### Texts -/

/-- A text that neither starts nor ends with white space is not trimmed. -/
theorem trim_of_ends {first last : Char} {characters : List Char}
    (starts : characters.head? = some first) (ends : characters.getLast? = some last)
    (firstSolid : isWhitespace first = false) (lastSolid : isWhitespace last = false) :
    trim characters = characters := by
  have kept : ∀ {text : List Char} {character : Char}, text.head? = some character →
      isWhitespace character = false → text.dropWhile isWhitespace = text := by
    rintro (_ | ⟨head, rest⟩) character found solid
    · rfl
    · obtain rfl := Option.some.inj found
      exact List.dropWhile_cons_of_neg (by simp [solid])
  have back : characters.reverse.head? = some last := by rw [List.head?_reverse, ends]
  rw [trim, kept starts firstSolid, kept back lastSolid, List.reverse_reverse]

/-- A space around a solid text is trimmed. -/
theorem trim_spaces {characters : List Char}
    (solid : ∀ character ∈ characters, isWhitespace character = false) :
    trim (' ' :: characters) = characters ∧ trim (characters ++ [' ']) = characters := by
  have space : isWhitespace ' ' = true := by decide
  constructor
  · rw [trim, List.dropWhile_cons_of_pos space]
    exact trim_of_solid solid
  · have whole := trim_of_solid solid
    cases characters with
    | nil => decide
    | cons first rest =>
      have head : isWhitespace first = false := solid first List.mem_cons_self
      rw [trim, List.cons_append, List.dropWhile_cons_of_neg (by simp [head]),
        ← List.cons_append, List.reverse_append, List.reverse_singleton, List.singleton_append,
        List.dropWhile_cons_of_pos space]
      rw [trim, List.dropWhile_cons_of_neg (by simp [head])] at whole
      exact whole

/-- A version with enough components is read from its spelling. -/
theorem RPackageVersion.exists_parse_spelling {version : RPackageVersion}
    (many : 2 ≤ version.values.length) :
    ∃ parsed, RPackageVersion.parse version.raw = .ok parsed ∧ parsed.raw = version.raw := by
  have spelled : parseComponents version.raw = .ok version.values := version.spelled
  unfold RPackageVersion.parse RPackageVersion.parseWithMinimum
  split
  · next failed =>
    rw [spelled] at failed
    cases failed
  · next values read =>
    obtain rfl := Except.ok.inj (spelled.symm.trans read)
    rw [if_neg (by omega)]
    exact ⟨_, rfl, rfl⟩

/-- The characters of package names and versions. -/
def isWordCharacter (character : Char) : Bool :=
  character.isAlphanum || character == '.' || character == '-'

/-- Such a character is no white space and none of the marks around words. -/
theorem solid_of_isWordCharacter {character : Char} (word : isWordCharacter character = true) :
    isWhitespace character = false ∧ isBlank character = false ∧ character ≠ '(' ∧
      character ≠ ')' ∧ character ≠ ',' ∧ character ≠ '\n' := by
  have ascii : character.toNat < 128 := by
    simp only [isWordCharacter, Bool.or_eq_true, beq_iff_eq] at word
    rcases word with (alphanumeric | rfl) | rfl
    · exact ascii_of_isAlphanum alphanumeric
    · decide
    · decide
  exact of_ascii (fun character => isWordCharacter character = true →
    isWhitespace character = false ∧ isBlank character = false ∧ character ≠ '(' ∧
      character ≠ ')' ∧ character ≠ ',' ∧ character ≠ '\n') (by decide +kernel) ascii word

/-- A version is a word. -/
theorem RPackageVersion.raw_word {version : RPackageVersion} {character : Char}
    (member : character ∈ version.raw.toList) : isWordCharacter character = true := by
  rcases RPackageVersion.mem_raw member with digit | separator
  · simp [isWordCharacter, Char.isAlphanum, digit]
  · have marks : character = '.' ∨ character = '-' := by simpa [isSeparator] using separator
    rcases marks with rfl | rfl <;> decide

/-- A package name is a word. -/
theorem PackageName.text_word {name : PackageName} {character : Char}
    (member : character ∈ name.text.toList) : isWordCharacter character = true := by
  have allowed := PackageName.text_characters member
  rw [isWordCharacter, allowed, Bool.true_or]

/-- A name starts with a letter. -/
theorem PackageName.exists_head (name : PackageName) :
    ∃ first rest, name.text.toList = first :: rest ∧ first.isAlpha = true := by
  have valid := name.valid
  unfold PackageName.check at valid
  split at valid
  · cases valid
  · next first rest spelled =>
    split at valid
    · cases valid
    · next letter => exact ⟨first, rest, spelled, by simpa using letter⟩

/-! ### Dependencies -/

/-- Two declarations are the same, with versions that are spelled alike. -/
structure DeclaredDependency.SpelledAlike (left right : DeclaredDependency) : Prop where
  /-- One field declares both. -/
  kind : left.kind = right.kind
  /-- They name one package. -/
  name : left.package.name = right.package.name
  /-- They have one source scope. -/
  source : left.package.source = right.package.source
  /-- They have the same clauses. -/
  clauses : List.Forall₂ (fun left right => left.op = right.op ∧ left.version.raw = right.version.raw)
    left.package.constraint.clauses right.package.constraint.clauses

/-- The text of a constraint of one clause. -/
def clauseCharacters (clause : VersionClause) : List Char :=
  clause.op.spelling.toList ++ ' ' :: clause.version.raw.toList

/-- What is written of a dependency: its name, and its clause in parentheses if it has one. -/
theorem renderDependency_eq_ok {dependency : DeclaredDependency} {field text : String}
    (rendered : renderDependency dependency field = .ok text) :
    dependency.package.source = .any ∧
      ((dependency.package.constraint.clauses = [] ∧
        text.toList = dependency.package.name.text.toList) ∨
      ∃ clause, dependency.package.constraint.clauses = [clause] ∧ clause.op ≠ .ne ∧
        text.toList = dependency.package.name.text.toList ++ [' '] ++ ['('] ++
          (clauseCharacters clause ++ [')'])) := by
  unfold renderDependency at rendered
  obtain ⟨_, source, rendered⟩ := bind_eq_ok.mp rendered
  obtain ⟨_, few, rendered⟩ := bind_eq_ok.mp rendered
  obtain ⟨short, operators⟩ := ensure_eq_ok.mp few
  refine ⟨ensure_eq_ok.mp source, ?_⟩
  rcases clauses : dependency.package.constraint.clauses with _ | ⟨clause, _ | ⟨other, rest⟩⟩
  · rw [clauses] at rendered
    obtain rfl := Except.ok.inj rendered
    exact .inl ⟨rfl, rfl⟩
  · rw [clauses] at rendered operators
    obtain rfl := Except.ok.inj rendered
    refine .inr ⟨clause, rfl, operators clause List.mem_cons_self, ?_⟩
    simp [clauseCharacters]
  · rw [clauses] at short
    simp at short

/-- A clause is parsed from its text. -/
theorem parseConstraint_clauseCharacters {clause : VersionClause} (op : clause.op ≠ .ne)
    (many : 2 ≤ clause.version.values.length) :
    ∃ version, PackageDescription.parseConstraint (clauseCharacters clause) = .ok ⟨[⟨clause.op, version⟩]⟩ ∧
      version.raw = clause.version.raw := by
  obtain ⟨version, parsed, same⟩ := RPackageVersion.exists_parse_spelling many
  have solid := (trim_spaces fun character (member : character ∈ clause.version.raw.toList) =>
    (solid_of_isWordCharacter (RPackageVersion.raw_word member)).1).1
  have filled : clause.version.raw.toList ≠ [] := fun empty => by
    have spelled := clause.version.spelled
    rw [String.toList_eq_nil_iff.mp empty] at spelled
    cases spelled
  refine ⟨version, ?_, same⟩
  have found : constraintOperators.find? (fun operator =>
      operator.1.isPrefixOf (clauseCharacters clause)) =
      some (clause.op.spelling.toList, clause.op) := by
    unfold clauseCharacters
    cases relation : clause.op <;>
      first
        | exact absurd relation op
        | simp [constraintOperators, RelationOp.spelling, List.isPrefixOf]
  unfold PackageDescription.parseConstraint
  rw [found]
  simp only [clauseCharacters, List.drop_left, solid, if_neg filled, String.ofList_toList, parsed]
  rfl

/-- The text of a dependency is not trimmed, with or without a space in front. -/
theorem trim_rendered {dependency : DeclaredDependency} {field text : String}
    (rendered : renderDependency dependency field = .ok text) :
    trim text.toList = text.toList ∧ trim (' ' :: text.toList) = text.toList := by
  obtain ⟨first, rest, spelled, letter⟩ := dependency.package.name.exists_head
  have firstSolid : isWhitespace first = false :=
    (solid_of_isWordCharacter (PackageName.text_word (spelled ▸ List.mem_cons_self))).1
  have whole : trim text.toList = text.toList := by
    rcases (renderDependency_eq_ok rendered).2 with ⟨-, same⟩ | ⟨clause, -, -, same⟩
    · rw [same]
      exact trim_of_solid fun character member =>
        (solid_of_isWordCharacter (PackageName.text_word member)).1
    · refine @trim_of_ends first ')' _ ?_ ?_ firstSolid (by decide)
      · rw [same, spelled]
        rfl
      · rw [same, ← List.append_assoc, List.getLast?_concat]
  refine ⟨whole, ?_⟩
  have space : isWhitespace ' ' = true := by decide
  rw [trim, List.dropWhile_cons_of_pos space]
  exact whole

/-- A dependency is parsed from its text. -/
theorem parseDependencyEntry_rendered {dependency : DeclaredDependency} {field text : String}
    (rendered : renderDependency dependency field = .ok text)
    (many : ∀ clause ∈ dependency.package.constraint.clauses, 2 ≤ clause.version.values.length) :
    ∃ clauses, List.Forall₂ (fun (left right : VersionClause) =>
        left.op = right.op ∧ left.version.raw = right.version.raw)
        dependency.package.constraint.clauses clauses ∧
      ∀ input, trim input = text.toList →
        parseDependencyEntry input = .ok (dependency.package.name, ⟨clauses⟩) := by
  have wordy : ∀ mark, isWordCharacter mark = false → mark ∉ dependency.package.name.text.toList :=
    fun mark other member => by
      rw [PackageName.text_word member] at other
      cases other
  obtain ⟨first, rest, spelled, -⟩ := dependency.package.name.exists_head
  have named : PackageName.new dependency.package.name.text = .ok dependency.package.name :=
    PackageName.new_eq_ok.mpr rfl
  rcases (renderDependency_eq_ok rendered).2 with ⟨bare, same⟩ | ⟨clause, one, op, same⟩
  · refine ⟨[], by rw [bare]; exact List.Forall₂.nil, fun input trimmed => ?_⟩
    have filled : trim input ≠ [] := by rw [trimmed, same, spelled]; exact List.cons_ne_nil _ _
    have plain : splitOnce ['('] (trim input) = none := by
      rw [trimmed, same]
      exact splitOnce_eq_none.mpr (wordy '(' (by decide))
    have closed : ')' ∉ trim input := by
      rw [trimmed, same]
      exact wordy ')' (by decide)
    unfold parseDependencyEntry
    simp only [if_neg filled, plain, if_neg closed]
    rw [trimmed, same, String.ofList_toList, named]
    rfl
  · obtain ⟨version, parsed, raw⟩ := parseConstraint_clauseCharacters op
      (many clause (one ▸ List.mem_cons_self))
    refine ⟨[⟨clause.op, version⟩], ?_, fun input trimmed => ?_⟩
    · rw [one]
      exact List.Forall₂.cons ⟨rfl, raw.symm⟩ List.Forall₂.nil
    · have filled : trim input ≠ [] := by rw [trimmed, same, spelled]; exact List.cons_ne_nil _ _
      have opened : splitOnce ['('] (trim input) =
          some (dependency.package.name.text.toList ++ [' '], clauseCharacters clause ++ [')']) := by
        rw [trimmed, same]
        refine splitOnce_append _ ?_
        simpa using wordy '(' (by decide)
      have versionWordy : ∀ mark, isWordCharacter mark = false → mark ∉ clause.version.raw.toList :=
        fun mark other member => by
          rw [RPackageVersion.raw_word member] at other
          cases other
      have balanced : '(' ∉ clauseCharacters clause ∧ ')' ∉ clauseCharacters clause := by
        have operator : '(' ∉ clause.op.spelling.toList ∧ ')' ∉ clause.op.spelling.toList := by
          cases clause.op <;> decide
        simp [clauseCharacters, operator, versionWordy '(' (by decide), versionWordy ')' (by decide)]
      have solid := (trim_spaces fun character
        (member : character ∈ dependency.package.name.text.toList) =>
          (solid_of_isWordCharacter (PackageName.text_word member)).1).2
      unfold parseDependencyEntry
      simp only [if_neg filled, opened, List.getLast?_concat, List.dropLast_concat, parsed, solid,
        String.ofList_toList, named]
      rw [if_neg (by simp), if_neg (by simp [balanced])]
      rfl

/-- A dependency is parsed as what it was, from its text with or without a space in front. -/
theorem parseDependency_rendered {dependency : DeclaredDependency} {field text : String}
    (rendered : renderDependency dependency field = .ok text)
    (many : ∀ clause ∈ dependency.package.constraint.clauses, 2 ≤ clause.version.values.length)
    (fieldName : String) : ∃ parsed, dependency.SpelledAlike parsed ∧
      parseDependency fieldName dependency.kind text.toList = .ok parsed ∧
      parseDependency fieldName dependency.kind (' ' :: text.toList) = .ok parsed := by
  obtain ⟨clauses, same, entry⟩ := parseDependencyEntry_rendered rendered many
  obtain ⟨whole, spaced⟩ := trim_rendered rendered
  refine ⟨⟨dependency.kind, ⟨dependency.package.name, .any, ⟨clauses⟩,
    namesPackage_any _⟩⟩,
    ⟨rfl, rfl, (renderDependency_eq_ok rendered).1, same⟩, ?_, ?_⟩
  · unfold parseDependency
    rw [entry _ whole]
    rfl
  · unfold parseDependency
    rw [entry _ spaced]
    rfl

/-- A value of one line that starts with no blank is read as it is. -/
theorem unfoldedValue_eq {value : List Char} (oneLine : '\n' ∉ value)
    (starts : ∀ first, value.head? = some first → isBlank first = false) :
    unfoldedValue value = value := by
  have kept : stripBlanks value = value := by
    cases value with
    | nil => rfl
    | cons first rest => exact List.dropWhile_cons_of_neg (by simp [starts first rfl])
  rw [unfoldedValue, List.splitOn_eq_singleton oneLine]
  simp [kept]

/-- The text of a dependency: it starts with a letter and has no comma and no line end. -/
structure DependencyText (text : String) : Prop where
  /-- It starts with a letter. -/
  starts : ∃ first, text.toList.head? = some first ∧ isBlank first = false
  /-- It has no comma. -/
  commaFree : ',' ∉ text.toList
  /-- It has no line end. -/
  oneLine : '\n' ∉ text.toList

/-- What is written of a dependency is such a text. -/
theorem dependencyText_of_rendered {dependency : DeclaredDependency} {field text : String}
    (rendered : renderDependency dependency field = .ok text) : DependencyText text := by
  obtain ⟨first, rest, spelled, letter⟩ := dependency.package.name.exists_head
  have firstSolid : isBlank first = false :=
    (solid_of_isWordCharacter (PackageName.text_word (spelled ▸ List.mem_cons_self))).2.1
  have nameClean : ∀ mark, isWordCharacter mark = false →
      mark ∉ dependency.package.name.text.toList := fun mark other member => by
    rw [PackageName.text_word member] at other
    cases other
  rcases (renderDependency_eq_ok rendered).2 with ⟨-, same⟩ | ⟨clause, -, -, same⟩
  · refine ⟨⟨first, by rw [same, spelled]; rfl, firstSolid⟩, ?_, ?_⟩
    · exact same ▸ nameClean ',' (by decide)
    · exact same ▸ nameClean '\n' (by decide)
  · have versionClean : ∀ mark, isWordCharacter mark = false →
        mark ∉ clause.version.raw.toList := fun mark other member => by
      rw [RPackageVersion.raw_word member] at other
      cases other
    have operator : ',' ∉ clause.op.spelling.toList ∧ '\n' ∉ clause.op.spelling.toList := by
      cases clause.op <;> decide
    refine ⟨⟨first, by rw [same, spelled]; rfl, firstSolid⟩, ?_, ?_⟩
    · simp [same, clauseCharacters, operator, nameClean ',' (by decide), versionClean ',' (by decide)]
    · simp [same, clauseCharacters, operator, nameClean '\n' (by decide),
        versionClean '\n' (by decide)]

/-- The pieces of a dependency field are its texts, with a space in front of all but the first. -/
theorem splitTerminator_intercalate {first : String} {more : List String}
    (texts : ∀ text ∈ first :: more, DependencyText text) :
    splitTerminator ',' (", ".intercalate (first :: more)).toList =
      first.toList :: more.map (' ' :: ·.toList) := by
  have joined : (", ".intercalate (first :: more)).toList =
      [','].intercalate (first.toList :: more.map (' ' :: ·.toList)) := by
    rw [String.toList_intercalate, List.map_cons]
    change [',', ' '].intercalate _ = _
    rw [intercalate_pair, List.map_map]
    rfl
  have pieces : ([','].intercalate (first.toList :: more.map (' ' :: ·.toList))).splitOn ',' =
      first.toList :: more.map (' ' :: ·.toList) := by
    refine List.splitOn_intercalate ',' (List.forall_mem_cons.mpr ⟨?_, ?_⟩) (List.cons_ne_nil _ _)
    · exact (texts first List.mem_cons_self).commaFree
    · intro piece member
      obtain ⟨text, textIn, rfl⟩ := List.mem_map.mp member
      simpa using (texts text (List.mem_cons_of_mem _ textIn)).commaFree
  have filled : ∀ piece ∈ first.toList :: more.map (' ' :: ·.toList), piece ≠ [] := by
    refine List.forall_mem_cons.mpr ⟨fun empty => ?_, fun piece member => ?_⟩
    · obtain ⟨_, head, -⟩ := (texts first List.mem_cons_self).starts
      rw [empty] at head
      cases head
    · obtain ⟨text, -, rfl⟩ := List.mem_map.mp member
      exact List.cons_ne_nil _ _
  unfold splitTerminator
  rw [joined, pieces, if_neg fun last => filled [] (List.mem_of_getLast? last) rfl]

/-- Dependencies are parsed one by one from their texts. -/
theorem exists_parsed_of_rendered {texts : List String} {order : List DeclaredDependency}
    {field fieldName : String} {kind : DependencyKind}
    (written : List.Forall₂ (fun text dependency => renderDependency dependency field = .ok text)
      texts order)
    (many : ∀ dependency ∈ order, dependency.kind = kind ∧
      ∀ clause ∈ dependency.package.constraint.clauses, 2 ≤ clause.version.values.length) :
    ∃ parsed, List.Forall₂ DeclaredDependency.SpelledAlike order parsed ∧
      List.Forall₂ (fun text result => parseDependency fieldName kind text.toList = .ok result ∧
        parseDependency fieldName kind (' ' :: text.toList) = .ok result) texts parsed := by
  induction written with
  | nil => exact ⟨[], List.Forall₂.nil, List.Forall₂.nil⟩
  | cons rendered _ ih =>
    obtain ⟨⟨rfl, versions⟩, manyLater⟩ := List.forall_mem_cons.mp many
    obtain ⟨parsed, alike, read⟩ := ih manyLater
    obtain ⟨result, same, plain, spaced⟩ := parseDependency_rendered rendered versions fieldName
    exact ⟨result :: parsed, List.Forall₂.cons same alike, List.Forall₂.cons ⟨plain, spaced⟩ read⟩

/-- The text of a dependency field. -/
def dependencyValue (rendered : List String) : String :=
  ", ".intercalate (Sorting.sortBy compare rendered)

/-- The text of a dependency field has one line. -/
theorem dependencyValue_oneLine {rendered : List String}
    (texts : ∀ text ∈ rendered, DependencyText text) :
    '\n' ∉ (dependencyValue rendered).toList := fun member => by
  rw [dependencyValue, String.toList_intercalate] at member
  rcases mem_intercalate member with between | ⟨part, inside, found⟩
  · exact absurd between (by decide)
  · obtain ⟨text, textIn, rfl⟩ := List.mem_map.mp inside
    exact (texts text (Sorting.mem_sortBy.mp textIn)).oneLine found

/-- What is written of dependencies are their texts. -/
theorem dependencyTexts_of_rendered {dependencies : List DeclaredDependency} {field : String}
    {rendered : List String}
    (all : List.Forall₂ (fun dependency text => renderDependency dependency field = .ok text)
      dependencies rendered) : ∀ text ∈ rendered, DependencyText text := by
  induction all with
  | nil => exact List.forall_mem_nil _
  | cons written _ ih => exact List.forall_mem_cons.mpr ⟨dependencyText_of_rendered written, ih⟩

/-- A dependency field starts with a letter, and it is parsed as its dependencies, in some order. -/
theorem parse_dependencyValue {dependencies : List DeclaredDependency} {field : String}
    {rendered : List String} {kind : DependencyKind}
    (all : List.Forall₂ (fun dependency text => renderDependency dependency field = .ok text)
      dependencies rendered)
    (many : ∀ dependency ∈ dependencies, dependency.kind = kind ∧
      ∀ clause ∈ dependency.package.constraint.clauses, 2 ≤ clause.version.values.length)
    (some : dependencies ≠ []) (fieldName : String) :
    unfoldedValue (dependencyValue rendered).toList = (dependencyValue rendered).toList ∧
      ∃ order parsed, order.Perm dependencies ∧
        List.Forall₂ DeclaredDependency.SpelledAlike order parsed ∧
        (splitTerminator ',' (dependencyValue rendered).toList).mapM
          (parseDependency fieldName kind) = .ok parsed := by
  obtain ⟨order, sorted, same⟩ := List.perm_comp_forall₂ (Sorting.sortBy_perm compare rendered)
    all.flip
  obtain ⟨parsed, alike, read⟩ := @exists_parsed_of_rendered _ _ _ fieldName kind sorted
    fun dependency member => many dependency (same.mem_iff.mp member)
  have texts : ∀ text ∈ Sorting.sortBy compare rendered, DependencyText text := fun text member =>
    dependencyTexts_of_rendered all text (Sorting.mem_sortBy.mp member)
  have oneLine := dependencyValue_oneLine (dependencyTexts_of_rendered all)
  unfold dependencyValue at oneLine ⊢
  cases written : Sorting.sortBy compare rendered with
  | nil =>
    rw [written] at sorted
    cases sorted
    exact absurd same.nil_eq.symm some
  | cons first more =>
    rw [written] at texts read oneLine
    refine ⟨unfoldedValue_eq oneLine fun head found => ?_, order, parsed, same, alike, ?_⟩
    · obtain ⟨head', starts, solid⟩ := (texts first List.mem_cons_self).starts
      rw [String.toList_intercalate, List.map_cons, head?_intercalate starts] at found
      exact Option.some.inj found ▸ solid
    · rw [splitTerminator_intercalate texts]
      obtain ⟨result, results, plain, later, rfl⟩ := List.forall₂_cons_left_iff.mp read
      refine mapM_eq_ok.mpr (List.Forall₂.cons plain.1 (List.forall₂_map_left_iff.mpr ?_))
      exact later.imp fun _ _ both => both.2

end Rsolve
