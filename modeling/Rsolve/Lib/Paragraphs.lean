import Rsolve.Lib.Segments
import Rsolve.Lib.Splitting

/-!
# Texts of paragraphs

A text has paragraphs between its blank lines, and a paragraph has fields. A field is a name, a colon
and a value; the later lines of the value start with a blank. A text that is written field by field
and paragraph by paragraph is read as what was written, up to the blanks in front of value lines,
when no line of a value but the first is blank.
-/
namespace Paragraphs

/-- A space or a tab. -/
def isBlank (character : Char) : Bool := character == ' ' || character == '\t'

/-- A line with nothing but blanks. -/
def isBlankLine (line : List Char) : Bool := line.all isBlank

/-- The paragraphs of a text: the lines between its blank lines. -/
def paragraphs (text : List Char) : List (List (List Char)) :=
  ((text.splitOn '\n').splitOnP isBlankLine).filter fun paragraph => !paragraph.isEmpty

/-- A line that starts with a blank goes on with the value before it. -/
def continuesValue (line : List Char) : Bool := line.head?.any isBlank

/-- A line without the blanks in front. -/
def stripBlanks (line : List Char) : List Char := line.dropWhile isBlank

/-- One more line in front of what was read: the lines of the value that goes on, and the fields. -/
def readLine (line : List Char) (read : List (List Char) × List (List Char × List Char)) :
    List (List Char) × List (List Char × List Char) :=
  if continuesValue line then (stripBlanks line :: read.1, read.2)
  else
    let first := stripBlanks ((line.dropWhile (· != ':')).drop 1)
    ([], (line.takeWhile (· != ':'), ['\n'].intercalate (first :: read.1)) :: read.2)

/-- The fields of a paragraph, names and values. -/
def fieldsOf (paragraph : List (List Char)) : List (List Char × List Char) :=
  (paragraph.foldr readLine ([], [])).2

/-- The lines of a field. -/
def linesOf (field : List Char × List Char) : List (List Char) :=
  match field.2.splitOn '\n' with
  | [] => []
  | first :: more => (field.1 ++ ':' :: ' ' :: first) :: more.map (' ' :: ·)

/-- A value without the blanks in front of its lines. -/
def unfoldedValue (value : List Char) : List Char :=
  ['\n'].intercalate ((value.splitOn '\n').map stripBlanks)

/-- A field that can be read again: its name starts with no blank and has no colon and no line end,
and no line of its value but the first is blank. -/
structure Readable (field : List Char × List Char) : Prop where
  /-- The name is there. -/
  starts : ∃ first, field.1.head? = some first ∧ isBlank first = false
  /-- The name has no colon. -/
  colonFree : ':' ∉ field.1
  /-- The name has no line end. -/
  oneLine : '\n' ∉ field.1
  /-- No later line is blank. -/
  filled : ∀ line ∈ (field.2.splitOn '\n').tail, isBlankLine line = false

/-- The text of a paragraph. -/
def paragraphText (fields : List (List Char × List Char)) : List Char :=
  ['\n'].intercalate (fields.map fun field => ['\n'].intercalate (linesOf field))

/-- The text of paragraphs: blank lines between them, a line end behind the last. -/
def documentText (records : List (List (List Char × List Char))) : List Char :=
  ['\n', '\n'].intercalate (records.map paragraphText) ++ ['\n']

variable {field : List Char × List Char} {fields : List (List Char × List Char)}

/-! ### Fields -/

/-- Later lines of a value are put in front of what is read. -/
theorem foldr_readLine_later (more : List (List Char))
    (read : List (List Char) × List (List Char × List Char)) :
    (more.map (' ' :: ·)).foldr readLine read = (more.map stripBlanks ++ read.1, read.2) := by
  induction more with
  | nil => rfl
  | cons line more ih =>
    rw [List.map_cons, List.foldr_cons, ih]
    rfl

/-- The lines of a field are read as the field. -/
theorem foldr_readLine_linesOf (readable : Readable field)
    (others : List (List Char × List Char)) :
    (linesOf field).foldr readLine ([], others) =
      ([], (field.1, unfoldedValue field.2) :: others) := by
  obtain ⟨character, head, solid⟩ := readable.starts
  unfold linesOf unfoldedValue
  cases pieces : field.2.splitOn '\n' with
  | nil => exact absurd pieces (List.splitOn_ne_nil _ _)
  | cons first more =>
    have heads : continuesValue (field.1 ++ ':' :: ' ' :: first) = false := by
      rw [continuesValue, List.head?_append, head]
      exact solid
    have named : ∀ character ∈ field.1, (character != ':') = true := fun character member =>
      bne_iff_ne.mpr fun equal => readable.colonFree (equal ▸ member)
    rw [List.foldr_cons, foldr_readLine_later, readLine, if_neg (by rw [heads]; exact nofun),
      List.takeWhile_append_of_pos named, List.dropWhile_append_of_pos named]
    simp [stripBlanks, isBlank]

/-- Fields that are written one after the other are read. -/
theorem fieldsOf_flatMap (readable : ∀ field ∈ fields, Readable field) :
    fieldsOf (fields.flatMap linesOf) =
      fields.map fun field => (field.1, unfoldedValue field.2) := by
  have all : (fields.flatMap linesOf).foldr readLine ([], []) =
      ([], fields.map fun field => (field.1, unfoldedValue field.2)) := by
    induction fields with
    | nil => rfl
    | cons field fields ih =>
      rw [List.flatMap_cons, List.foldr_append,
        ih fun other member => readable other (List.mem_cons_of_mem _ member),
        foldr_readLine_linesOf (readable field List.mem_cons_self)]
      rfl
  rw [fieldsOf, all]

/-! ### Lines -/

/-- Parts with an end each are the parts put together with one end more. -/
theorem intercalate_append {separator : List Char} {parts : List (List Char)}
    (some : parts ≠ []) :
    separator.intercalate parts ++ separator = parts.flatMap (· ++ separator) := by
  induction parts with
  | nil => exact absurd rfl some
  | cons part parts ih =>
    cases parts with
    | nil => simp
    | cons next others =>
      rw [List.intercalate_cons_cons, List.append_assoc, List.append_assoc, ih (by simp)]
      simp

/-- Parts put together with two characters between them are parts that start with the second. -/
theorem intercalate_pair {first second : Char} {part : List Char} {parts : List (List Char)} :
    [first, second].intercalate (part :: parts) =
      [first].intercalate (part :: parts.map (second :: ·)) := by
  induction parts generalizing part with
  | nil => simp
  | cons next others ih =>
    rw [List.intercalate_cons_cons, ih, List.map_cons, List.intercalate_cons_cons]
    cases others <;> simp [List.intercalate_cons_cons]

/-- A start in front of parts put together is in front of the first part. -/
theorem append_intercalate {start separator part : List Char} {parts : List (List Char)} :
    start ++ separator.intercalate (part :: parts) =
      separator.intercalate ((start ++ part) :: parts) := by
  cases parts with
  | nil => simp
  | cons next others => simp [List.intercalate_cons_cons]

/-- What is in parts put together is in a part or between the parts. -/
theorem mem_intercalate {separator : List Char} {parts : List (List Char)} {character : Char}
    (member : character ∈ separator.intercalate parts) :
    character ∈ separator ∨ ∃ part ∈ parts, character ∈ part := by
  induction parts with
  | nil => cases member
  | cons part parts ih =>
    cases parts with
    | nil => exact .inr ⟨part, List.mem_cons_self, by simpa using member⟩
    | cons next others =>
      rw [List.intercalate_cons_cons, List.append_assoc, List.mem_append, List.mem_append] at member
      rcases member with here | between | later
      · exact .inr ⟨part, List.mem_cons_self, here⟩
      · exact .inl between
      · exact (ih later).imp_right fun ⟨other, inside, found⟩ =>
          ⟨other, List.mem_cons_of_mem _ inside, found⟩

/-- Parts put together start as the first part does. -/
theorem head?_intercalate {separator part : List Char} {parts : List (List Char)} {first : Char}
    (starts : part.head? = some first) :
    (separator.intercalate (part :: parts)).head? = some first := by
  cases parts with
  | nil => simpa using starts
  | cons next others => rw [List.intercalate_cons_cons, List.append_assoc, List.head?_append, starts]; rfl

/-- The lines of a field are there. -/
theorem linesOf_ne_nil (field : List Char × List Char) : linesOf field ≠ [] := by
  unfold linesOf
  cases pieces : field.2.splitOn '\n' with
  | nil => exact absurd pieces (List.splitOn_ne_nil _ _)
  | cons first more => exact List.cons_ne_nil _ _

/-- A line of a field has no line end and is not blank. -/
theorem Readable.line (readable : Readable field) {line : List Char}
    (member : line ∈ linesOf field) : '\n' ∉ line ∧ isBlankLine line = false := by
  have piece : ∀ line ∈ field.2.splitOn '\n', '\n' ∉ line := fun line inside =>
    Segments.notMem_of_mem_splitOn inside
  have filled := readable.filled
  unfold linesOf at member
  cases pieces : field.2.splitOn '\n' with
  | nil => exact absurd pieces (List.splitOn_ne_nil _ _)
  | cons first more =>
    rw [pieces] at member piece filled
    rcases List.mem_cons.mp member with rfl | later
    · have head := piece first List.mem_cons_self
      refine ⟨by simp [readable.oneLine, head], ?_⟩
      simp [isBlankLine, isBlank]
    · obtain ⟨rest, inside, rfl⟩ := List.mem_map.mp later
      have whole := piece rest (List.mem_cons_of_mem _ inside)
      refine ⟨by simp [whole], ?_⟩
      have solid := filled rest inside
      simpa [isBlankLine, isBlank] using solid

/-! ### Paragraphs -/

/-- Paragraphs with a blank line behind each are found again. -/
theorem splitOnP_flatMap {records : List (List (List Char))}
    (solid : ∀ record ∈ records, ∀ line ∈ record, isBlankLine line = false) :
    (records.flatMap (· ++ [[]])).splitOnP isBlankLine = records ++ [[]] := by
  induction records with
  | nil => rfl
  | cons record records ih =>
    rw [List.flatMap_cons, List.append_assoc, List.singleton_append,
      List.splitOnP_append_cons_of_forall_mem (solid record List.mem_cons_self) [] rfl,
      ih fun other member => solid other (List.mem_cons_of_mem _ member)]
    rfl

/-- The lines of a document. -/
theorem splitOn_documentText {records : List (List (List Char × List Char))} (some : records ≠ [])
    (filled : ∀ record ∈ records, record ≠ [])
    (readable : ∀ record ∈ records, ∀ field ∈ record, Readable field) :
    (documentText records).splitOn '\n' = (records.flatMap fun record =>
      record.flatMap linesOf ++ [[]]) := by
  have ended : ∀ record ∈ records, paragraphText record ++ ['\n'] =
      (record.flatMap linesOf).flatMap (· ++ ['\n']) := fun record member => by
    rw [paragraphText, intercalate_append (by simpa using filled record member), List.flatMap_map,
      List.flatMap_assoc]
    exact List.flatMap_congr fun field _ => intercalate_append (linesOf_ne_nil field)
  have whole : documentText records ++ ['\n'] = (records.flatMap fun record =>
      record.flatMap linesOf ++ [[]]).flatMap (· ++ ['\n']) := by
    rw [documentText, List.append_assoc, List.singleton_append,
      intercalate_append (by simpa using some), List.flatMap_map, List.flatMap_assoc]
    refine List.flatMap_congr fun record member => ?_
    rw [List.flatMap_append, ← ended record member, List.append_assoc]
    rfl
  have clean : ∀ line ∈ records.flatMap fun record => record.flatMap linesOf ++ [[]],
      '\n' ∉ line := fun line member => by
    obtain ⟨record, recordIn, inside⟩ := List.mem_flatMap.mp member
    rcases List.mem_append.mp inside with written | blank
    · obtain ⟨field, fieldIn, lineIn⟩ := List.mem_flatMap.mp written
      exact ((readable record recordIn field fieldIn).line lineIn).1
    · rw [List.mem_singleton.mp blank]
      exact List.not_mem_nil
  have cut := Splitting.splitOn_flatMap clean
  rw [← whole, List.splitOn_append_cons_self] at cut
  exact List.append_cancel_right cut

/-- The paragraphs of a document are read as its records, up to the blanks in front of value
lines. -/
theorem map_fieldsOf_paragraphs {records : List (List (List Char × List Char))}
    (filled : ∀ record ∈ records, record ≠ [])
    (readable : ∀ record ∈ records, ∀ field ∈ record, Readable field) :
    (paragraphs (documentText records)).map fieldsOf =
      records.map fun record => record.map fun field => (field.1, unfoldedValue field.2) := by
  rcases eq_or_ne records [] with rfl | some
  · rfl
  · have solid : ∀ lines ∈ records.map (·.flatMap linesOf), ∀ line ∈ lines,
        isBlankLine line = false := fun lines member line inside => by
      obtain ⟨record, recordIn, rfl⟩ := List.mem_map.mp member
      obtain ⟨field, fieldIn, lineIn⟩ := List.mem_flatMap.mp inside
      exact ((readable record recordIn field fieldIn).line lineIn).2
    have found : paragraphs (documentText records) = records.map (·.flatMap linesOf) := by
      have cut := splitOnP_flatMap solid
      rw [List.flatMap_map] at cut
      rw [paragraphs, splitOn_documentText some filled readable, cut, List.filter_append,
        List.filter_eq_self.mpr]
      · simp
      · intro lines member
        obtain ⟨record, recordIn, rfl⟩ := List.mem_map.mp member
        obtain ⟨field, rest, rfl⟩ := List.exists_cons_of_ne_nil (filled record recordIn)
        simp [linesOf_ne_nil]
    rw [found, List.map_map]
    exact List.map_congr_left fun record member => fieldsOf_flatMap (readable record member)

end Paragraphs
