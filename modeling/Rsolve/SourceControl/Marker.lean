import Mathlib
import Rsolve.Lib.Decimal
import Rsolve.Lib.Panics
import Rsolve.Lib.Splitting
import Rsolve.Lib.Utf8
import Rsolve.SourceControl.Tree

/-!
# Markers of source views

A marker tells what a published view is bound to: the facts of its backend, the digest of its tree
and the counts of its entries and bytes. It is written line by line and read back from the bytes in
the cache. What is read is what was written, and no other bytes are read as the same marker.
-/
open Checked Framing Ordered Panics Sorting Splitting Utf8

namespace Rsolve

/-- `SOURCE_SCHEMA`. -/
def sourceSchema : Nat := 1

/-- `POLICY_REVISION`. -/
def policyRevision : Nat := 1

/-- `MAX_MARKER_BYTES`. -/
def maxMarkerBytes : Nat := 16 * 1024

/-- `BASE_MARKER_KEYS`. -/
def baseMarkerKeys : List String :=
  ["schema", "policy", "binding_namespace", "tree_digest", "entries", "total_bytes"]

/-- `ViewBinding` — what a view is bound to. -/
structure ViewBinding where
  /-- The namespace of the backend. -/
  bindingNamespace : String
  /-- The facts of the backend. -/
  facts : OrderedMap String String

/-- `SourceMarker`. -/
structure SourceMarker where
  /-- What the view is bound to. -/
  binding : ViewBinding
  /-- The digest of the tree. -/
  treeDigest : String
  /-- The count of entries. -/
  entries : UInt64
  /-- The count of bytes. -/
  totalBytes : UInt64

/-- `valid_marker_atom`. -/
def validMarkerAtom (value : String) : Bool :=
  !value.isEmpty && value.toList.all fun character =>
    ('a' ≤ character && character ≤ 'z') || character.isDigit || character == '_'
      || character == '-' || character == '.'

/-- `ViewBinding::new`. -/
def ViewBinding.new (bindingNamespace : String) (facts : List (String × String)) :
    Except TreeError ViewBinding := do
  ensure (validMarkerAtom bindingNamespace) (.invalidMarker [])
  let values ← facts.foldlM (fun values fact => do
    ensure (validMarkerAtom fact.1) (.invalidMarker [])
    ensure (∀ character ∈ ['\n', '\r', '"'], character ∉ fact.2.toList) (.invalidMarker [])
    ensure (values.get? fact.1 = none) (.invalidMarker [])
    .ok (values.insert fact.1 fact.2)) OrderedMap.empty
  .ok ⟨bindingNamespace, values⟩

/-- A line of a marker. -/
def markerLine (key value : String) : String := key ++ " = " ++ value ++ "\n"

/-- A value in quotes. -/
def quote (value : String) : String := "\"" ++ value ++ "\""

/-- `SourceMarker::write`, as the text that is written. -/
def SourceMarker.write (marker : SourceMarker) : String :=
  markerLine "schema" (toString sourceSchema) ++
    markerLine "policy" (toString policyRevision) ++
    markerLine "binding_namespace" (quote marker.binding.bindingNamespace) ++
    String.join (marker.binding.facts.entries.map fun fact =>
      markerLine ("binding." ++ fact.1) (quote fact.2)) ++
    markerLine "tree_digest" (quote marker.treeDigest) ++
    markerLine "entries" (toString marker.entries.toNat) ++
    markerLine "total_bytes" (toString marker.totalBytes.toNat)

/-- `str::strip_prefix`. -/
def stripText (start text : String) : Option String :=
  if start.toList <+: text.toList then some (String.ofList (text.toList.drop start.toList.length))
  else none

/-- A line of `SourceMarker::parse` is read into the fields and their order. -/
def readMarkerLine (path : List String) (state : OrderedMap String String × List String)
    (piece : List Char) : Except TreeError (OrderedMap String String × List String) := do
  ensure (['\n'] <:+ piece) (.invalidMarker path)
  match splitOnce " = ".toList piece.dropLast with
  | none => .error (.invalidMarker path)
  | some (key, value) => do
    ensure (state.1.get? (String.ofList key) = none) (.invalidMarker path)
    .ok (state.1.insert (String.ofList key) (String.ofList value), state.2 ++ [String.ofList key])

/-- The value of a field between its quotes. -/
def quotedField (path : List String) (fields : OrderedMap String String) (key : String) :
    Guarded TreeError String := do
  match fields.get? key with
  | none => attempt (.error (.invalidMarker path))
  | some value => do
    let text := value.toList
    attempt (ensure (¬ bytesOf text < 2) (.invalidMarker path))
    attempt (ensure (['"'] <+: text) (.invalidMarker path))
    attempt (ensure (['"'] <:+ text) (.invalidMarker path))
    let inner ← demand (sliceBytes text 1 (bytesOf text - 1))
    attempt (ensure ('"' ∉ inner) (.invalidMarker path))
    pure (String.ofList inner)

/-- `str::parse` of an unsigned number of 64 bits. -/
def parseUnsigned (text : List Char) : Option UInt64 :=
  let digits := if ['+'] <+: text then text.drop 1 else text
  if digits = [] then none
  else (Decimal.readDigits 18446744073709551616 0 digits).toOption.map UInt64.ofNat

/-- The number of a field, printed as it is. -/
def numberField (path : List String) (fields : OrderedMap String String) (key : String) :
    Except TreeError UInt64 :=
  match (fields.get? key).bind fun text => parseUnsigned text.toList with
  | none => .error (.invalidMarker path)
  | some number => do
    ensure (fields.get? key = some (toString number.toNat)) (.invalidMarker path)
    .ok number

/-- A fact of the fields is added to the facts. -/
def readFact (path : List String) (fields facts : OrderedMap String String) (key : String) :
    Guarded TreeError (OrderedMap String String) := do
  attempt (ensure (validMarkerAtom key) (.invalidMarker path))
  let value ← quotedField path fields ("binding." ++ key)
  attempt (ensure (facts.get? key = none) (.invalidMarker path))
  pure (facts.insert key value)

/-- The order of the fields in a marker with given facts. -/
def expectedOrder (bindingKeys : List String) : List String :=
  ["schema", "policy", "binding_namespace"] ++ bindingKeys.map ("binding." ++ ·) ++
    ["tree_digest", "entries", "total_bytes"]

/-- The fields of `SourceMarker::parse` are read as a marker. -/
def readMarkerFields (path : List String) (fields : OrderedMap String String) (order : List String) :
    Guarded TreeError SourceMarker := do
  attempt (ensure (fields.get? "schema" = some (toString sourceSchema)) (.invalidMarker path))
  attempt (ensure (fields.get? "policy" = some (toString policyRevision)) (.invalidMarker path))
  let bindingKeys := order.filterMap (stripText "binding.")
  attempt (ensure (bindingKeys = sortBy compare bindingKeys) (.invalidMarker path))
  attempt (ensure (order = expectedOrder bindingKeys) (.invalidMarker path))
  attempt (ensure (∀ key ∈ fields.keys, key ∈ baseMarkerKeys ∨ key = "binding_namespace" ∨
    "binding.".toList <+: key.toList) (.invalidMarker path))
  let digest ← quotedField path fields "tree_digest"
  attempt (ensure (byteLength digest = 64) (.invalidMarker path))
  attempt (ensure (∀ character ∈ digest.toList,
    character.isDigit ∨ ('a' ≤ character ∧ character ≤ 'f')) (.invalidMarker path))
  let entries ← attempt (numberField path fields "entries")
  let totalBytes ← attempt (numberField path fields "total_bytes")
  let bindingNamespace ← quotedField path fields "binding_namespace"
  attempt (ensure (validMarkerAtom bindingNamespace) (.invalidMarker path))
  let facts ← (fields.keys.filterMap (stripText "binding.")).foldlM (readFact path fields)
    OrderedMap.empty
  pure ⟨⟨bindingNamespace, facts⟩, digest, entries, totalBytes⟩

/-- `SourceMarker::parse`. -/
def SourceMarker.parse (contents : List UInt8) (path : List String) :
    Guarded TreeError SourceMarker := do
  attempt (ensure (¬ contents.length > maxMarkerBytes) (.invalidMarker path))
  match fromUtf8 contents with
  | none => attempt (.error (.invalidMarker path))
  | some text => do
    let state ← attempt ((splitInclusive '\n' text.toList).foldlM (readMarkerLine path)
      (OrderedMap.empty, []))
    readMarkerFields path state.1 state.2

/-- The bytes that `tree_digest` hashes. -/
def treeDigestInput (entries : List TreeEntry) : List UInt8 :=
  textBytes "rsolve/source-tree/v1" ++ bigEndian 4 policyRevision ++
    entries.flatMap fun entry =>
      lengthPrefixed (textBytes entry.path) ++ lengthPrefixed entry.bytes ++
        [if entry.executable then 1 else 0]

/-! ## The lines of a marker -/

/-- The fields of a marker, line by line. -/
def SourceMarker.fields (marker : SourceMarker) : List (String × String) :=
  [("schema", toString sourceSchema), ("policy", toString policyRevision),
      ("binding_namespace", quote marker.binding.bindingNamespace)] ++
    marker.binding.facts.entries.map (fun fact => ("binding." ++ fact.1, quote fact.2)) ++
    [("tree_digest", quote marker.treeDigest), ("entries", toString marker.entries.toNat),
      ("total_bytes", toString marker.totalBytes.toNat)]

/-- The characters of a field as a line. -/
def fieldLine (field : String × String) : List Char := (markerLine field.1 field.2).toList

/-- The fields as a map. -/
def fieldMap (fields : List (String × String)) (start : OrderedMap String String) :
    OrderedMap String String :=
  fields.foldl (fun map field => map.insert field.1 field.2) start

/-- A marker is written field by field. -/
theorem toList_write (marker : SourceMarker) :
    marker.write.toList = marker.fields.flatMap fieldLine := by
  simp [SourceMarker.write, SourceMarker.fields, fieldLine, List.flatMap_map, List.flatMap_append]

/-- A line is a key, the separator, a value and an end. -/
theorem fieldLine_eq (field : String × String) :
    fieldLine field = (field.1.toList ++ " = ".toList ++ field.2.toList) ++ ['\n'] := by
  simp [fieldLine, markerLine]

/-- A piece that is read is the line of a fresh field. -/
theorem readMarkerLine_eq_ok {path : List String}
    {state next : OrderedMap String String × List String} {piece : List Char}
    (read : readMarkerLine path state piece = .ok next) :
    ∃ field : String × String, piece = fieldLine field ∧ field.1 ∉ state.1.keys ∧
      next = (state.1.insert field.1 field.2, state.2 ++ [field.1]) := by
  obtain ⟨_, ended, read⟩ := bind_eq_ok.mp read
  rw [ensure_eq_ok] at ended
  split at read
  · cases read
  · next key value split =>
    obtain ⟨_, fresh, result⟩ := bind_eq_ok.mp read
    rw [ensure_eq_ok] at fresh
    refine ⟨(String.ofList key, String.ofList value), ?_, ?_, (Except.ok.inj result).symm⟩
    · obtain ⟨line, whole⟩ := ended
      have cut : piece.dropLast = key ++ " = ".toList ++ value := eq_of_splitOnce split
      calc piece
        _ = piece.dropLast ++ ['\n'] := by rw [← whole, List.dropLast_concat]
        _ = fieldLine (String.ofList key, String.ofList value) := by rw [cut, fieldLine_eq]; simp
    · rw [OrderedMap.mem_keys, fresh]
      simp

/-- The line of a fresh field is read as the field when its key has no blanks. -/
theorem readMarkerLine_fieldLine {path : List String}
    {state : OrderedMap String String × List String} {field : String × String}
    (clean : ' ' ∉ field.1.toList) (fresh : field.1 ∉ state.1.keys) :
    readMarkerLine path state (fieldLine field) =
      .ok (state.1.insert field.1 field.2, state.2 ++ [field.1]) := by
  have absent : state.1.get? field.1 = none := by
    rw [Option.eq_none_iff_forall_ne_some]
    exact fun value found => fresh (OrderedMap.mem_keys.mpr ⟨value, found⟩)
  have cut : splitOnce " = ".toList (field.1.toList ++ " = ".toList ++ field.2.toList) =
      some (field.1.toList, field.2.toList) := splitOnce_append _ clean
  rw [readMarkerLine, fieldLine_eq, ensure_of (List.suffix_append _ _), List.dropLast_concat,
    ok_bind, cut]
  simp only [String.ofList_toList, absent, ensure_of, ok_bind]

/-- Pieces that are read are the lines of distinct fresh fields. -/
theorem foldlM_readMarkerLine {path : List String} {pieces : List (List Char)}
    {state result : OrderedMap String String × List String}
    (read : pieces.foldlM (readMarkerLine path) state = .ok result) :
    ∃ fields : List (String × String), pieces = fields.map fieldLine ∧
      (fields.map Prod.fst).Nodup ∧ (∀ field ∈ fields, field.1 ∉ state.1.keys) ∧
      result = (fieldMap fields state.1, state.2 ++ fields.map Prod.fst) := by
  induction pieces generalizing state with
  | nil =>
    exact ⟨[], rfl, List.nodup_nil, by simp, by simpa [fieldMap] using (Except.ok.inj read).symm⟩
  | cons piece pieces ih =>
    rw [List.foldlM_cons] at read
    obtain ⟨next, first, rest⟩ := bind_eq_ok.mp read
    obtain ⟨field, line, fresh, rfl⟩ := readMarkerLine_eq_ok first
    obtain ⟨fields, lines, distinct, apart, rfl⟩ := ih rest
    have keys : ∀ other ∈ fields, other.1 ≠ field.1 ∧ other.1 ∉ state.1.keys := by
      intro other member
      have absent := apart other member
      simp only [OrderedMap.mem_keys, OrderedMap.get?_eq_some_iff, OrderedMap.mem_insert] at absent ⊢
      constructor
      · intro same
        exact absent ⟨field.2, .inl (Prod.ext same rfl)⟩
      · rintro ⟨value, held⟩
        by_cases same : other.1 = field.1
        · exact absent ⟨field.2, .inl (Prod.ext same rfl)⟩
        · exact absent ⟨value, .inr ⟨held, same⟩⟩
    refine ⟨field :: fields, by rw [line, lines, List.map_cons], ?_, ?_, ?_⟩
    · rw [List.map_cons, List.nodup_cons]
      refine ⟨fun listed => ?_, distinct⟩
      obtain ⟨other, member, same⟩ := List.mem_map.mp listed
      exact (keys other member).1 same
    · intro other member
      rcases List.mem_cons.mp member with rfl | member
      · exact fresh
      · exact (keys other member).2
    · simp [fieldMap]

/-- The lines of distinct fresh fields are read as the fields when no key has blanks. -/
theorem foldlM_fieldLine {path : List String} {fields : List (String × String)}
    {state : OrderedMap String String × List String}
    (clean : ∀ field ∈ fields, ' ' ∉ field.1.toList) (distinct : (fields.map Prod.fst).Nodup)
    (fresh : ∀ field ∈ fields, field.1 ∉ state.1.keys) :
    (fields.map fieldLine).foldlM (readMarkerLine path) state =
      .ok (fieldMap fields state.1, state.2 ++ fields.map Prod.fst) := by
  induction fields generalizing state with
  | nil => simp [fieldMap, pure, Except.pure]
  | cons field fields ih =>
    obtain ⟨apart, distinct⟩ := List.nodup_cons.mp distinct
    rw [List.map_cons, List.foldlM_cons, readMarkerLine_fieldLine (clean field List.mem_cons_self)
      (fresh field List.mem_cons_self), ok_bind, ih
        (fun other member => clean other (List.mem_cons_of_mem _ member)) distinct]
    · simp [fieldMap]
    · intro other member
      have absent := fresh other (List.mem_cons_of_mem _ member)
      have differs : other.1 ≠ field.1 := fun same =>
        apart (List.mem_map.mpr ⟨other, member, same⟩)
      simp only [OrderedMap.mem_keys, OrderedMap.get?_eq_some_iff, OrderedMap.mem_insert] at absent ⊢
      rintro ⟨value, equal | ⟨held, -⟩⟩
      · exact differs (Prod.mk.inj equal).1
      · exact absent ⟨value, held⟩

/-- A lookup among distinct fields finds a field of the key. -/
theorem get?_fieldMap {fields : List (String × String)} (distinct : (fields.map Prod.fst).Nodup)
    {key value : String} :
    (fieldMap fields OrderedMap.empty).get? key = some value ↔ (key, value) ∈ fields := by
  rw [OrderedMap.get?_eq_some_iff, fieldMap,
    OrderedMap.mem_foldl_insert distinct fun _ _ => List.not_mem_nil]
  exact or_iff_right List.not_mem_nil

/-! ## The values of a marker -/

section Values

variable {path : List String} {fields : OrderedMap String String} {key : String}

/-- A text in quotes has something between them, which the slice gives. -/
theorem exists_between {text : List Char} (long : ¬ bytesOf text < 2) (opened : ['"'] <+: text)
    (closed : ['"'] <:+ text) :
    ∃ inner, text = '"' :: (inner ++ ['"']) ∧
      sliceBytes text 1 (bytesOf text - 1) = some inner := by
  obtain ⟨rest, rfl⟩ := opened
  cases rest with
  | nil => exact absurd (show bytesOf ['"'] < 2 by decide) long
  | cons first others =>
    obtain ⟨inner, last, whole⟩ : ∃ inner last, first :: others = inner ++ [last] :=
      ⟨_, _, (List.dropLast_append_getLast (List.cons_ne_nil first others)).symm⟩
    rw [whole] at closed ⊢
    have final : last = '"' := by
      obtain ⟨before, equal⟩ := closed
      have lasts : (before ++ ['"']).getLast? = (('"' :: inner) ++ [last]).getLast? :=
        congrArg List.getLast? equal
      rw [List.getLast?_concat, List.getLast?_concat] at lasts
      exact (Option.some.inj lasts).symm
    subst final
    exact ⟨inner, rfl, sliceBytes_between inner rfl rfl⟩

/-- The characters of a value in quotes. -/
theorem toList_quote (value : String) : (quote value).toList = '"' :: (value.toList ++ ['"']) := by
  simp [quote]

/-- Equal values in quotes are equal. -/
theorem quote_injective {left right : String} (equal : quote left = quote right) : left = right := by
  have texts := congrArg String.toList equal
  rw [toList_quote, toList_quote, List.cons.injEq, List.append_cancel_right_eq] at texts
  exact String.toList_injective texts.2

/-- A quoted field returns what stands in its quotes, when no quote stands there. -/
theorem returns_quotedField {inner : String} :
    Returns (quotedField path fields key) inner ↔
      fields.get? key = some (quote inner) ∧ '"' ∉ inner.toList := by
  unfold quotedField
  cases found : fields.get? key with
  | none => simp
  | some value =>
    simp only [returns_bind, returns_attempt, ensure_eq_ok, returns_demand, returns_pure,
      Option.some.injEq, exists_and_left, exists_const]
    constructor
    · rintro ⟨long, opened, closed, text, sliced, clean, rfl⟩
      obtain ⟨inner, whole, between⟩ := exists_between long opened closed
      cases Option.some.inj (sliced.symm.trans between)
      refine ⟨String.toList_injective ?_, by simpa using clean⟩
      rw [toList_quote, whole, String.toList_ofList]
    · rintro ⟨rfl, clean⟩
      have long : ¬ bytesOf (quote inner).toList < 2 := by
        rw [toList_quote]
        have rest := bytesOf_append inner.toList ['"']
        have one : bytesOf ['"'] = 1 := rfl
        simp only [bytesOf, List.map_cons, List.sum_cons] at rest one ⊢
        have first : '"'.utf8Size = 1 := rfl
        omega
      refine ⟨long, ?_, ?_, inner.toList, ?_, clean, String.ofList_toList⟩
      · rw [toList_quote]
        exact List.prefix_append ['"'] _
      · rw [toList_quote]
        exact List.suffix_append ('"' :: inner.toList) _
      · rw [toList_quote]
        exact sliceBytes_between inner.toList rfl rfl

/-- Reading a quoted field stops nothing. -/
theorem safe_quotedField : Safe (quotedField path fields key) := by
  unfold quotedField
  cases fields.get? key with
  | none => exact safe_attempt _
  | some value =>
    refine safe_bind (safe_attempt _) fun _ long => safe_bind (safe_attempt _) fun _ opened =>
      safe_bind (safe_attempt _) fun _ closed => ?_
    rw [returns_attempt, ensure_eq_ok] at long opened closed
    obtain ⟨inner, -, between⟩ := exists_between long opened closed
    exact safe_bind (safe_demand between) fun _ _ => safe_bind (safe_attempt _) fun _ _ =>
      safe_pure _

/-- A printed number is read as the number. -/
theorem parseUnsigned_toString (number : UInt64) :
    parseUnsigned (toString number.toNat).toList = some number := by
  have digits : (toString number.toNat).toList = Nat.toDigits 10 number.toNat := by
    rw [Nat.toString_eq_repr, Nat.toList_repr]
  have nonempty : Nat.toDigits 10 number.toNat ≠ [] := Nat.toDigits_ne_nil
  have unsigned : ¬ ['+'] <+: Nat.toDigits 10 number.toNat := by
    intro signed
    have digit := Nat.isDigit_of_mem_toDigits (by decide) (by decide)
      (signed.subset (List.mem_singleton_self '+'))
    exact absurd digit (by decide)
  rw [digits, parseUnsigned]
  simp only [if_neg unsigned, if_neg nonempty]
  rw [Decimal.readDigits_toDigits _ _ number.toNat_lt]
  simp [Except.toOption]

/-- A number field gives the number that it prints. -/
theorem numberField_eq_ok {number : UInt64} :
    numberField path fields key = .ok number ↔
      fields.get? key = some (toString number.toNat) := by
  unfold numberField
  constructor
  · intro read
    split at read
    · cases read
    · obtain ⟨_, printed, result⟩ := bind_eq_ok.mp read
      rw [ensure_eq_ok] at printed
      cases result
      exact printed
  · intro found
    simp only [found, Option.bind_some, parseUnsigned_toString, ensure_of, ok_bind]

end Values

/-! ## The facts of a marker -/

section Facts

variable {path : List String} {fields : OrderedMap String String}

/-- A fact is added when its key is an atom and fresh and its field is quoted. -/
theorem returns_readFact {facts next : OrderedMap String String} {key : String} :
    Returns (readFact path fields facts key) next ↔
      validMarkerAtom key = true ∧ facts.get? key = none ∧
        ∃ value, fields.get? ("binding." ++ key) = some (quote value) ∧ '"' ∉ value.toList ∧
          next = facts.insert key value := by
  simp only [readFact, returns_bind, returns_attempt, ensure_eq_ok, returns_quotedField,
    returns_pure, exists_const]
  constructor
  · rintro ⟨atom, value, ⟨found, clean⟩, fresh, rfl⟩
    exact ⟨atom, fresh, value, found, clean, rfl⟩
  · rintro ⟨atom, fresh, value, found, clean, rfl⟩
    exact ⟨atom, value, ⟨found, clean⟩, fresh, rfl⟩

/-- What a map holds after a fact was added, in terms of the fields. -/
theorem mem_insert_fact {start : OrderedMap String String} {first value : String}
    {keys : List String} (found : fields.get? ("binding." ++ first) = some (quote value))
    (fresh : start.get? first = none) (key other : String) :
    ((key, other) ∈ (start.insert first value).entries ∨
        key ∈ keys ∧ fields.get? ("binding." ++ key) = some (quote other)) ↔
      ((key, other) ∈ start.entries ∨
        key ∈ first :: keys ∧ fields.get? ("binding." ++ key) = some (quote other)) := by
  rw [OrderedMap.mem_insert, List.mem_cons, Prod.mk.injEq]
  constructor
  · rintro ((⟨rfl, rfl⟩ | ⟨held, -⟩) | ⟨listed, stored⟩)
    · exact .inr ⟨.inl rfl, found⟩
    · exact .inl held
    · exact .inr ⟨.inr listed, stored⟩
  · rintro (held | ⟨rfl | listed, stored⟩)
    · refine .inl (.inr ⟨held, ?_⟩)
      rintro rfl
      rw [OrderedMap.get?_eq_some_iff.mpr held] at fresh
      cases fresh
    · exact .inl (.inl ⟨rfl, quote_injective (Option.some.inj (stored.symm.trans found))⟩)
    · exact .inr ⟨listed, stored⟩

/-- The facts that are read are the fields of their keys, under atoms and without quotes. -/
theorem returns_readFacts {keys : List String} {start facts : OrderedMap String String}
    (distinct : keys.Nodup) (fresh : ∀ key ∈ keys, start.get? key = none) :
    Returns (keys.foldlM (readFact path fields) start) facts ↔
      (∀ key ∈ keys, validMarkerAtom key = true ∧
        ∃ value, fields.get? ("binding." ++ key) = some (quote value) ∧ '"' ∉ value.toList) ∧
      ∀ key value, (key, value) ∈ facts.entries ↔ (key, value) ∈ start.entries ∨
        key ∈ keys ∧ fields.get? ("binding." ++ key) = some (quote value) := by
  induction keys generalizing start with
  | nil =>
    simp only [List.foldlM_nil, returns_pure, List.not_mem_nil, false_implies, implies_true,
      true_and, false_and, or_false]
    constructor
    · rintro rfl key value
      exact Iff.rfl
    · intro same
      exact (OrderedMap.ext_of_mem fun entry => same entry.1 entry.2).symm
  | cons first keys ih =>
    obtain ⟨apart, distinct⟩ := List.nodup_cons.mp distinct
    have later : ∀ value, ∀ key ∈ keys, (start.insert first value).get? key = none := by
      intro value key member
      have differs : key ≠ first := fun same => apart (same ▸ member)
      rw [OrderedMap.get?_insert, if_neg differs]
      exact fresh key (List.mem_cons_of_mem _ member)
    have absent := fresh first List.mem_cons_self
    rw [List.foldlM_cons, returns_bind]
    constructor
    · rintro ⟨next, added, rest⟩
      obtain ⟨atom, -, value, found, clean, rfl⟩ := returns_readFact.mp added
      obtain ⟨valid, same⟩ := (ih distinct (later value)).mp rest
      refine ⟨fun key member => ?_, fun key other => ?_⟩
      · rcases List.mem_cons.mp member with rfl | member
        · exact ⟨atom, value, found, clean⟩
        · exact valid key member
      · rw [same, mem_insert_fact found absent]
    · rintro ⟨valid, same⟩
      obtain ⟨atom, value, found, clean⟩ := valid first List.mem_cons_self
      refine ⟨start.insert first value,
        returns_readFact.mpr ⟨atom, absent, value, found, clean, rfl⟩,
        (ih distinct (later value)).mpr ⟨fun key member => valid key (List.mem_cons_of_mem _ member),
          fun key other => ?_⟩⟩
      rw [same, mem_insert_fact found absent]

/-- Adding facts stops nothing. -/
theorem safe_readFacts (keys : List String) (start : OrderedMap String String) :
    Safe (keys.foldlM (readFact path fields) start) :=
  safe_foldlM (fun _ _ _ => safe_bind (safe_attempt _) fun _ _ =>
    safe_bind safe_quotedField fun _ _ => safe_bind (safe_attempt _) fun _ _ => safe_pure _) start

end Facts

/-! ## Reading what is written -/

/-- A marker that is written so that it is read again. -/
structure SourceMarker.WellFormed (marker : SourceMarker) : Prop where
  /-- The namespace is an atom. -/
  bindingNamespace : validMarkerAtom marker.binding.bindingNamespace = true
  /-- The keys of the facts are atoms. -/
  keys : ∀ fact ∈ marker.binding.facts.entries, validMarkerAtom fact.1 = true
  /-- The facts are on one line and without quotes. -/
  values : ∀ fact ∈ marker.binding.facts.entries, '\n' ∉ fact.2.toList ∧ '"' ∉ fact.2.toList
  /-- The digest has 64 characters. -/
  digestLength : byteLength marker.treeDigest = 64
  /-- The digest has lower-case hexadecimal digits. -/
  digestDigits : ∀ character ∈ marker.treeDigest.toList,
    character.isDigit ∨ ('a' ≤ character ∧ character ≤ 'f')

/-- A text without a start is stripped of it. -/
theorem stripText_append (start text : String) : stripText start (start ++ text) = some text := by
  rw [stripText, String.toList_append, if_pos (List.prefix_append _ _), List.drop_left,
    String.ofList_toList]

/-- What is left of a text is the text after its start. -/
theorem stripText_eq_some {start text rest : String} :
    stripText start text = some rest ↔ text = start ++ rest := by
  constructor
  · intro stripped
    rw [stripText] at stripped
    split at stripped
    · next found =>
      obtain ⟨after, whole⟩ := found
      apply String.toList_injective
      rw [← Option.some.inj stripped, String.toList_append, String.toList_ofList, ← whole,
        List.drop_left]
    · cases stripped
  · rintro rfl
    exact stripText_append start rest

/-- The keys of facts among the keys of a marker. -/
theorem filterMap_expectedOrder (keys : List String) :
    (expectedOrder keys).filterMap (stripText "binding.") = keys := by
  have front : ["schema", "policy", "binding_namespace"].filterMap (stripText "binding.") = [] := by
    decide
  have back : ["tree_digest", "entries", "total_bytes"].filterMap (stripText "binding.") = [] := by
    decide
  have middle : (keys.map ("binding." ++ ·)).filterMap (stripText "binding.") = keys := by
    rw [List.filterMap_map]
    simp [stripText_append]
  rw [expectedOrder, List.filterMap_append, List.filterMap_append, front, back, middle]
  simp

/-- The keys of a marker are in the expected order. -/
theorem map_fst_fields (marker : SourceMarker) :
    marker.fields.map Prod.fst = expectedOrder marker.binding.facts.keys := by
  simp [SourceMarker.fields, expectedOrder, OrderedMap.keys, Function.comp_def]

/-- A key of a fact is among the expected keys exactly when it is given. -/
theorem mem_expectedOrder {keys : List String} {key : String} :
    "binding." ++ key ∈ expectedOrder keys ↔ key ∈ keys := by
  have stripped : key ∈ (expectedOrder keys).filterMap (stripText "binding.") ↔
      "binding." ++ key ∈ expectedOrder keys := by
    rw [List.mem_filterMap]
    constructor
    · rintro ⟨whole, member, strip⟩
      rwa [← stripText_eq_some.mp strip]
    · intro member
      exact ⟨_, member, stripText_append _ _⟩
  rw [← stripped, filterMap_expectedOrder]

/-- Distinct facts give distinct expected keys. -/
theorem nodup_expectedOrder {keys : List String} (distinct : keys.Nodup) :
    (expectedOrder keys).Nodup := by
  have injective : Function.Injective ("binding." ++ · : String → String) := by
    intro left right equal
    have stripped := congrArg (stripText "binding.") equal
    simpa [stripText_append] using stripped
  have apart : ∀ fixed ∈ ["schema", "policy", "binding_namespace", "tree_digest", "entries",
      "total_bytes"], stripText "binding." fixed = none := by
    decide
  have outside : ∀ fixed ∈ ["schema", "policy", "binding_namespace", "tree_digest", "entries",
      "total_bytes"], fixed ∉ keys.map ("binding." ++ ·) := by
    intro fixed member listed
    obtain ⟨key, -, rfl⟩ := List.mem_map.mp listed
    have unstripped := apart _ member
    rw [stripText_append] at unstripped
    cases unstripped
  have ends : (["schema", "policy", "binding_namespace"] ++
      ["tree_digest", "entries", "total_bytes"]).Nodup := by
    decide
  rw [expectedOrder, List.append_assoc, List.nodup_append_comm, List.append_assoc,
    List.nodup_append]
  refine ⟨distinct.map injective, ?_, ?_⟩
  · rw [List.nodup_append_comm]
    exact ends
  · rintro key listed fixed member rfl
    refine outside key ?_ listed
    rcases List.mem_append.mp member with back | front
    · exact List.mem_append_right ["schema", "policy", "binding_namespace"] back
    · exact List.mem_append_left ["tree_digest", "entries", "total_bytes"] front

/-- The fields of a marker under keys of facts are its facts. -/
theorem mem_fields_binding {marker : SourceMarker} {key value : String} :
    ("binding." ++ key, value) ∈ marker.fields ↔
      ∃ fact, (key, fact) ∈ marker.binding.facts.entries ∧ value = quote fact := by
  have apart : ∀ fixed ∈ ["schema", "policy", "binding_namespace", "tree_digest", "entries",
      "total_bytes"], "binding." ++ key ≠ fixed := by
    have unstripped : ∀ fixed ∈ ["schema", "policy", "binding_namespace", "tree_digest", "entries",
        "total_bytes"], stripText "binding." fixed = none := by
      decide
    rintro fixed member rfl
    have clash := unstripped _ member
    rw [stripText_append] at clash
    cases clash
  simp only [SourceMarker.fields, List.mem_append, List.mem_cons, List.not_mem_nil, or_false,
    Prod.mk.injEq, List.mem_map]
  simp only [List.mem_cons, List.not_mem_nil, or_false, forall_eq_or_imp, forall_eq] at apart
  obtain ⟨schema, policy, bindingNamespace, treeDigest, entries, totalBytes⟩ := apart
  simp only [schema, policy, bindingNamespace, treeDigest, entries, totalBytes, false_and, false_or,
    or_false]
  constructor
  · rintro ⟨fact, member, same, rfl⟩
    have stripped := congrArg (stripText "binding.") same
    rw [stripText_append, stripText_append, Option.some.injEq] at stripped
    exact ⟨fact.2, stripped ▸ member, rfl⟩
  · rintro ⟨fact, member, rfl⟩
    exact ⟨(key, fact), member, rfl, rfl⟩

/-- What fields must be to be read as a marker. -/
theorem returns_readMarkerFields {path : List String} {fields : OrderedMap String String}
    {order : List String} {marker : SourceMarker} :
    Returns (readMarkerFields path fields order) marker ↔
      (fields.get? "schema" = some (toString sourceSchema) ∧
        fields.get? "policy" = some (toString policyRevision)) ∧
      (order.filterMap (stripText "binding.") =
          sortBy compare (order.filterMap (stripText "binding.")) ∧
        order = expectedOrder (order.filterMap (stripText "binding.")) ∧
        ∀ key ∈ fields.keys, key ∈ baseMarkerKeys ∨ key = "binding_namespace" ∨
          "binding.".toList <+: key.toList) ∧
      (fields.get? "tree_digest" = some (quote marker.treeDigest) ∧
        '"' ∉ marker.treeDigest.toList ∧ byteLength marker.treeDigest = 64 ∧
        ∀ character ∈ marker.treeDigest.toList,
          character.isDigit ∨ ('a' ≤ character ∧ character ≤ 'f')) ∧
      (fields.get? "entries" = some (toString marker.entries.toNat) ∧
        fields.get? "total_bytes" = some (toString marker.totalBytes.toNat)) ∧
      (fields.get? "binding_namespace" = some (quote marker.binding.bindingNamespace) ∧
        '"' ∉ marker.binding.bindingNamespace.toList ∧
        validMarkerAtom marker.binding.bindingNamespace = true) ∧
      Returns ((fields.keys.filterMap (stripText "binding.")).foldlM (readFact path fields)
        OrderedMap.empty) marker.binding.facts := by
  simp only [readMarkerFields, returns_bind, returns_attempt, ensure_eq_ok, returns_quotedField,
    numberField_eq_ok, returns_pure, exists_const]
  constructor
  · rintro ⟨schema, policy, sorted, ordered, known, digest, ⟨quoted, plain⟩, long, digits, entries,
      counted, total, summed, name, ⟨named, clean⟩, atom, facts, read, rfl⟩
    exact ⟨⟨schema, policy⟩, ⟨sorted, ordered, known⟩, ⟨quoted, plain, long, digits⟩,
      ⟨counted, summed⟩, ⟨named, clean, atom⟩, read⟩
  · rintro ⟨⟨schema, policy⟩, ⟨sorted, ordered, known⟩, ⟨quoted, plain, long, digits⟩,
      ⟨counted, summed⟩, ⟨named, clean, atom⟩, read⟩
    exact ⟨schema, policy, sorted, ordered, known, _, ⟨quoted, plain⟩, long, digits, _, counted, _,
      summed, _, ⟨named, clean⟩, atom, _, read, rfl⟩

/-- The characters of an atom are visible, and none is a quote. -/
theorem clean_of_validMarkerAtom {value : String} (atom : validMarkerAtom value = true) :
    ∀ character ∈ value.toList, 34 < character.toNat := by
  intro character member
  simp only [validMarkerAtom, Bool.and_eq_true] at atom
  have valid := List.all_eq_true.mp atom.2 character member
  have number : character.val.toNat = character.toNat := rfl
  simp only [Bool.or_eq_true, Bool.and_eq_true, decide_eq_true_eq, beq_iff_eq,
    Char.isDigit_iff_toNat, Char.le_def, UInt32.le_iff_toNat_le, number, Char.reduceVal,
    UInt32.reduceToNat, Char.reduceToNat] at valid
  rcases valid with (((⟨low, high⟩ | ⟨low, high⟩) | rfl) | rfl) | rfl
  · omega
  · omega
  · decide
  · decide
  · decide

/-- The characters of a digest are visible, and none is a quote. -/
theorem SourceMarker.WellFormed.digest_clean {marker : SourceMarker}
    (wellFormed : marker.WellFormed) :
    ∀ character ∈ marker.treeDigest.toList, 34 < character.toNat := by
  intro character member
  have valid := wellFormed.digestDigits character member
  have number : character.val.toNat = character.toNat := rfl
  simp only [Char.isDigit_iff_toNat, Char.le_def, UInt32.le_iff_toNat_le, number, Char.reduceVal,
    UInt32.reduceToNat, Char.reduceToNat] at valid
  omega

/-- The digits of a number have no line end. -/
theorem newline_notMem_toString (number : Nat) : '\n' ∉ (toString number).toList := by
  intro inside
  rw [Nat.toString_eq_repr, Nat.toList_repr] at inside
  exact absurd (Nat.isDigit_of_mem_toDigits (by decide) (by decide) inside) (by decide)

/-- The keys of a well-formed marker have no blanks, and no field has a line end. -/
theorem SourceMarker.WellFormed.fields_clean {marker : SourceMarker}
    (wellFormed : marker.WellFormed) :
    ∀ field ∈ marker.fields, ' ' ∉ field.1.toList ∧ '\n' ∉ field.1.toList ∧
      '\n' ∉ field.2.toList := by
  have quoted : ∀ {value : String}, '\n' ∉ value.toList → '\n' ∉ (quote value).toList := by
    intro value plain
    simpa [toList_quote] using plain
  have visible : ∀ {value : String}, (∀ character ∈ value.toList, 34 < character.toNat) →
      ' ' ∉ value.toList ∧ '\n' ∉ value.toList := fun clean =>
    ⟨fun inside => absurd (clean _ inside) (by decide),
      fun inside => absurd (clean _ inside) (by decide)⟩
  have fixed : ∀ key ∈ baseMarkerKeys, ' ' ∉ key.toList ∧ '\n' ∉ key.toList := by decide
  have base : ∀ (key : String) {value : String}, key ∈ baseMarkerKeys → '\n' ∉ value.toList →
      ' ' ∉ key.toList ∧ '\n' ∉ key.toList ∧ '\n' ∉ value.toList := fun key _ known plain =>
    ⟨(fixed key known).1, (fixed key known).2, plain⟩
  intro field member
  rcases List.mem_append.mp member with member | member
  · rcases List.mem_append.mp member with member | member
    · simp only [List.mem_cons, List.not_mem_nil, or_false] at member
      rcases member with rfl | rfl | rfl
      · exact base "schema" (by decide) (newline_notMem_toString _)
      · exact base "policy" (by decide) (newline_notMem_toString _)
      · exact base "binding_namespace" (by decide)
          (quoted (visible (clean_of_validMarkerAtom wellFormed.bindingNamespace)).2)
    · obtain ⟨fact, listed, rfl⟩ := List.mem_map.mp member
      have key := visible (clean_of_validMarkerAtom (wellFormed.keys fact listed))
      refine ⟨?_, ?_, quoted (wellFormed.values fact listed).1⟩
      · simpa using key.1
      · simpa using key.2
  · simp only [List.mem_cons, List.not_mem_nil, or_false] at member
    rcases member with rfl | rfl | rfl
    · exact base "tree_digest" (by decide) (quoted (visible wellFormed.digest_clean).2)
    · exact base "entries" (by decide) (newline_notMem_toString _)
    · exact base "total_bytes" (by decide) (newline_notMem_toString _)

/-- What a map of distinct fields knows as keys. -/
theorem mem_keys_fieldMap {fields : List (String × String)} (distinct : (fields.map Prod.fst).Nodup)
    {key : String} :
    key ∈ (fieldMap fields OrderedMap.empty).keys ↔ key ∈ fields.map Prod.fst := by
  rw [OrderedMap.mem_keys]
  constructor
  · rintro ⟨value, found⟩
    exact List.mem_map.mpr ⟨_, (get?_fieldMap distinct).mp found, rfl⟩
  · intro listed
    obtain ⟨field, member, rfl⟩ := List.mem_map.mp listed
    exact ⟨field.2, (get?_fieldMap distinct).mpr member⟩

/-- The keys of a map in order are distinct. -/
theorem OrderedMap.nodup_keys (map : OrderedMap String String) : map.keys.Nodup :=
  map.keys_ordered.imp fun {left right} below (equal : left = right) => by
    have same : compare right right = .eq := Std.ReflCmp.compare_self
    rw [equal, same] at below
    cases below

/-- The keys of facts among the fields are distinct. -/
theorem nodup_strippedKeys (map : OrderedMap String String) :
    (map.keys.filterMap (stripText "binding.")).Nodup := by
  refine (OrderedMap.nodup_keys map).filterMap fun left right rest first second => ?_
  rw [stripText_eq_some.mp first, stripText_eq_some.mp second]

/-- The keys of facts among the fields are those of the expected order. -/
theorem mem_strippedKeys {fields : List (String × String)} {keys : List String}
    (distinct : (fields.map Prod.fst).Nodup) (order : fields.map Prod.fst = expectedOrder keys)
    {key : String} :
    key ∈ (fieldMap fields OrderedMap.empty).keys.filterMap (stripText "binding.") ↔
      key ∈ keys := by
  rw [← @mem_expectedOrder keys key, ← order, ← mem_keys_fieldMap distinct, List.mem_filterMap]
  constructor
  · rintro ⟨whole, listed, stripped⟩
    rwa [← stripText_eq_some.mp stripped]
  · intro listed
    exact ⟨_, listed, stripText_append _ _⟩

/-- A well-formed marker whose text fits is read from what is written of it. -/
theorem parse_write {marker : SourceMarker} (wellFormed : marker.WellFormed)
    (fits : (textBytes marker.write).length ≤ maxMarkerBytes) (path : List String) :
    Returns (SourceMarker.parse (textBytes marker.write) path) marker := by
  have clean := wellFormed.fields_clean
  have order := map_fst_fields marker
  have distinct : (marker.fields.map Prod.fst).Nodup := by
    rw [order]
    exact nodup_expectedOrder (OrderedMap.nodup_keys _)
  have pieces : splitInclusive '\n' marker.write.toList = marker.fields.map fieldLine := by
    have lines := @splitInclusive_flatMap _ _ '\n'
      (marker.fields.map fun field => field.1.toList ++ " = ".toList ++ field.2.toList) (by
        intro line member
        obtain ⟨field, listed, rfl⟩ := List.mem_map.mp member
        have plain := clean field listed
        simp only [List.mem_append, not_or]
        exact ⟨⟨plain.2.1, by decide⟩, plain.2.2⟩)
    rw [List.flatMap_map, List.map_map] at lines
    rw [toList_write]
    have line : fieldLine = fun field : String × String =>
        field.1.toList ++ " = ".toList ++ field.2.toList ++ ['\n'] := funext fieldLine_eq
    rw [line]
    exact lines
  have read : (marker.fields.map fieldLine).foldlM (readMarkerLine path) (OrderedMap.empty, []) =
      .ok (fieldMap marker.fields OrderedMap.empty, [] ++ marker.fields.map Prod.fst) :=
    foldlM_fieldLine (fun field member => (clean field member).1) distinct
      fun _ _ => List.not_mem_nil
  have found := @get?_fieldMap marker.fields distinct
  have plainDigest : '"' ∉ marker.treeDigest.toList := fun inside =>
    absurd (wellFormed.digest_clean _ inside) (by decide)
  have plainNamespace : '"' ∉ marker.binding.bindingNamespace.toList := fun inside =>
    absurd (clean_of_validMarkerAtom wellFormed.bindingNamespace _ inside) (by decide)
  have sorted : marker.binding.facts.keys = sortBy compare marker.binding.facts.keys :=
    (sortBy_eq_self (marker.binding.facts.keys_ordered.imp fun below => by rw [below]; rfl)).symm
  rw [SourceMarker.parse, ensure_of (Nat.not_lt.mpr fits)]
  simp only [fromUtf8_textBytes, pieces, read, returns_bind, returns_attempt]
  refine ⟨(), trivial, _, rfl, returns_readMarkerFields.mpr ?_⟩
  rw [List.nil_append, order, filterMap_expectedOrder]
  refine ⟨⟨found.mpr ?_, found.mpr ?_⟩, ⟨sorted, rfl, ?_⟩,
    ⟨found.mpr ?_, plainDigest, wellFormed.digestLength, wellFormed.digestDigits⟩,
    ⟨found.mpr ?_, found.mpr ?_⟩, ⟨found.mpr ?_, plainNamespace, wellFormed.bindingNamespace⟩, ?_⟩
  · simp [SourceMarker.fields]
  · simp [SourceMarker.fields]
  · intro key listed
    rw [mem_keys_fieldMap distinct, order, expectedOrder, List.mem_append, List.mem_append] at listed
    rcases listed with (front | middle) | back
    · simp only [List.mem_cons, List.not_mem_nil, or_false] at front
      rcases front with rfl | rfl | rfl <;> exact .inl (by decide)
    · obtain ⟨fact, -, rfl⟩ := List.mem_map.mp middle
      exact .inr (.inr (by rw [String.toList_append]; exact List.prefix_append _ _))
    · simp only [List.mem_cons, List.not_mem_nil, or_false] at back
      rcases back with rfl | rfl | rfl <;> exact .inl (by decide)
  · simp [SourceMarker.fields]
  · simp [SourceMarker.fields]
  · simp [SourceMarker.fields]
  · simp [SourceMarker.fields]
  · rw [returns_readFacts (nodup_strippedKeys _) fun _ _ => rfl]
    refine ⟨fun key listed => ?_, fun key value => ?_⟩
    · rw [mem_strippedKeys distinct order] at listed
      obtain ⟨fact, member, rfl⟩ := List.mem_map.mp listed
      exact ⟨wellFormed.keys fact member, fact.2,
        found.mpr (mem_fields_binding.mpr ⟨fact.2, member, rfl⟩), (wellFormed.values fact member).2⟩
    · rw [mem_strippedKeys distinct order, found, mem_fields_binding]
      constructor
      · intro member
        exact .inr ⟨List.mem_map.mpr ⟨(key, value), member, rfl⟩, value, member, rfl⟩
      · rintro (absent | ⟨-, fact, member, same⟩)
        · exact absurd absent List.not_mem_nil
        · rwa [quote_injective same]

/-- Fields with distinct keys are the fields of the same keys in the same order that are among
them. -/
theorem eq_of_map_fst {left right : List (String × String)} (distinct : (left.map Prod.fst).Nodup)
    (keys : left.map Prod.fst = right.map Prod.fst) (inside : ∀ field ∈ right, field ∈ left) :
    left = right := by
  induction left generalizing right with
  | nil => exact (List.map_eq_nil_iff.mp keys.symm).symm
  | cons first left ih =>
    cases right with
    | nil => cases keys
    | cons second right =>
      obtain ⟨apart, distinct⟩ := List.nodup_cons.mp distinct
      obtain ⟨key, keys⟩ := List.cons.inj keys
      have same : second = first := by
        rcases List.mem_cons.mp (inside second List.mem_cons_self) with equal | later
        · exact equal
        · exact absurd (List.mem_map.mpr ⟨second, later, key.symm⟩) apart
      rw [same, ih distinct keys fun field member => ?_]
      rcases List.mem_cons.mp (inside field (List.mem_cons_of_mem _ member)) with equal | later
      · refine absurd ?_ apart
        rw [keys, ← equal]
        exact List.mem_map_of_mem member
      · exact later

/-- Keys that are their own sorted list and distinct increase. -/
theorem increasing_of_sorted {keys : List String} (sorted : keys = sortBy compare keys)
    (distinct : keys.Nodup) : keys.Pairwise fun left right => compare left right = .lt := by
  have ordered := sortBy_pairwise compare keys
  rw [← sorted] at ordered
  refine (ordered.and distinct).imp fun {left right} both => ?_
  cases order : compare left right with
  | lt => rfl
  | eq => exact absurd (Std.LawfulEqOrd.compare_eq_iff_eq.mp order) both.2
  | gt =>
    have below := both.1
    rw [order] at below
    cases below

/-- The marker that is read from fields is the marker of these fields. -/
theorem fields_of_readMarkerFields {path : List String} {fields : List (String × String)}
    {marker : SourceMarker} (distinct : (fields.map Prod.fst).Nodup)
    (read : Returns (readMarkerFields path (fieldMap fields OrderedMap.empty) (fields.map Prod.fst))
      marker) : fields = marker.fields := by
  have found := @get?_fieldMap fields distinct
  obtain ⟨⟨schema, policy⟩, ⟨sorted, order, -⟩, ⟨digest, -⟩, ⟨entries, totalBytes⟩,
    ⟨bindingNamespace, -⟩, facts⟩ := returns_readMarkerFields.mp read
  have keysDistinct : ((fields.map Prod.fst).filterMap (stripText "binding.")).Nodup :=
    distinct.filterMap fun left right rest first second => by
      rw [stripText_eq_some.mp first, stripText_eq_some.mp second]
  rw [returns_readFacts (nodup_strippedKeys _) fun _ _ => rfl] at facts
  obtain ⟨valid, same⟩ := facts
  have factKeys : (fields.map Prod.fst).filterMap (stripText "binding.") =
      marker.binding.facts.keys := by
    refine strict_ext (increasing_of_sorted sorted keysDistinct)
      marker.binding.facts.keys_ordered fun key => ?_
    rw [OrderedMap.mem_keys, ← mem_strippedKeys distinct order]
    constructor
    · intro listed
      obtain ⟨-, value, stored, -⟩ := valid key listed
      exact ⟨value, OrderedMap.get?_eq_some_iff.mpr ((same key value).mpr (.inr ⟨listed, stored⟩))⟩
    · rintro ⟨value, held⟩
      rcases (same key value).mp (OrderedMap.get?_eq_some_iff.mp held) with absent | ⟨listed, -⟩
      · exact absurd absent List.not_mem_nil
      · exact listed
  refine eq_of_map_fst distinct ?_ fun field member => ?_
  · rw [order, factKeys, map_fst_fields]
  · rcases List.mem_append.mp member with member | member
    · rcases List.mem_append.mp member with member | member
      · simp only [List.mem_cons, List.not_mem_nil, or_false] at member
        rcases member with rfl | rfl | rfl
        · exact found.mp schema
        · exact found.mp policy
        · exact found.mp bindingNamespace
      · obtain ⟨fact, listed, rfl⟩ := List.mem_map.mp member
        rcases (same fact.1 fact.2).mp listed with absent | ⟨-, stored⟩
        · exact absurd absent List.not_mem_nil
        · exact found.mp stored
    · simp only [List.mem_cons, List.not_mem_nil, or_false] at member
      rcases member with rfl | rfl | rfl
      · exact found.mp digest
      · exact found.mp entries
      · exact found.mp totalBytes

/-- What is read as a marker is what is written of it. -/
theorem write_of_parse {contents : List UInt8} {path : List String} {marker : SourceMarker}
    (read : Returns (SourceMarker.parse contents path) marker) :
    textBytes marker.write = contents := by
  obtain ⟨_, -, read⟩ := returns_bind.mp read
  split at read
  · rw [returns_attempt] at read
    cases read
  · next text decoded =>
    obtain ⟨state, lines, read⟩ := returns_bind.mp read
    rw [returns_attempt] at lines
    obtain ⟨fields, pieces, distinct, -, rfl⟩ := foldlM_readMarkerLine lines
    rw [List.nil_append] at read
    have whole := flatten_splitInclusive '\n' text.toList
    rw [pieces, fields_of_readMarkerFields distinct read, ← List.flatMap_def, ← toList_write] at whole
    rw [fromUtf8_eq_some.mp decoded, String.toList_injective whole]

/-- Reading a marker stops nothing. -/
theorem safe_parse (contents : List UInt8) (path : List String) :
    Safe (SourceMarker.parse contents path) := by
  unfold SourceMarker.parse
  refine safe_bind (safe_attempt _) fun _ _ => ?_
  split
  · exact safe_attempt _
  · refine safe_bind (safe_attempt _) fun state _ => ?_
    unfold readMarkerFields
    refine safe_bind (safe_attempt _) fun _ _ => safe_bind (safe_attempt _) fun _ _ =>
      safe_bind (safe_attempt _) fun _ _ => safe_bind (safe_attempt _) fun _ _ =>
      safe_bind (safe_attempt _) fun _ _ => safe_bind safe_quotedField fun _ _ => ?_
    refine safe_bind (safe_attempt _) fun _ _ => safe_bind (safe_attempt _) fun _ _ =>
      safe_bind (safe_attempt _) fun _ _ => safe_bind (safe_attempt _) fun _ _ =>
      safe_bind safe_quotedField fun _ _ => safe_bind (safe_attempt _) fun _ _ => ?_
    exact safe_bind (safe_readFacts _ _) fun _ _ => safe_pure _

/-- The facts of a binding are atoms with texts on one line and without quotes. -/
theorem ViewBinding.new_eq_ok {bindingNamespace : String} {facts : List (String × String)}
    {binding : ViewBinding} (built : ViewBinding.new bindingNamespace facts = .ok binding) :
    validMarkerAtom binding.bindingNamespace = true ∧
      ∀ fact ∈ binding.facts.entries, validMarkerAtom fact.1 = true ∧ '\n' ∉ fact.2.toList ∧
        '"' ∉ fact.2.toList := by
  obtain ⟨_, atom, built⟩ := bind_eq_ok.mp built
  obtain ⟨values, folded, result⟩ := bind_eq_ok.mp built
  cases result
  refine ⟨ensure_eq_ok.mp atom, ?_⟩
  refine @foldlM_invariant _ _ _ _ (fun map : OrderedMap String String => ∀ fact ∈ map.entries,
    validMarkerAtom fact.1 = true ∧ '\n' ∉ fact.2.toList ∧ '"' ∉ fact.2.toList) _ _ _
    (fun state item next member stepped holds => ?_) ?_ folded
  · obtain ⟨_, key, stepped⟩ := bind_eq_ok.mp stepped
    obtain ⟨_, value, stepped⟩ := bind_eq_ok.mp stepped
    obtain ⟨_, -, added⟩ := bind_eq_ok.mp stepped
    cases added
    intro fact inside
    rcases OrderedMap.mem_insert.mp inside with rfl | ⟨old, -⟩
    · rw [ensure_eq_ok] at key value
      exact ⟨key, value '\n' (by decide), value '"' (by decide)⟩
    · exact holds fact old
  · intro fact inside
    cases inside

/-- The lengths of an entry are numbers of 64 bits. -/
def TreeEntry.Representable (entry : TreeEntry) : Prop :=
  (textBytes entry.path).length < lengthBound ∧ entry.bytes.length < lengthBound

/-- The bytes that are hashed for a tree determine its entries. -/
theorem treeDigestInput_injective {left right : List TreeEntry}
    (leftFits : ∀ entry ∈ left, entry.Representable)
    (rightFits : ∀ entry ∈ right, entry.Representable)
    (equal : treeDigestInput left = treeDigestInput right) : left = right := by
  simp only [treeDigestInput, List.append_assoc, List.append_cancel_left_eq] at equal
  induction left generalizing right with
  | nil =>
    cases right with
    | nil => rfl
    | cons second right => simp [lengthPrefixed, be64, bigEndian] at equal
  | cons first left ih =>
    cases right with
    | nil => simp [lengthPrefixed, be64, bigEndian] at equal
    | cons second right =>
      have fits := leftFits first List.mem_cons_self
      have otherFits := rightFits second List.mem_cons_self
      simp only [List.flatMap_cons, List.append_assoc] at equal
      obtain ⟨paths, equal⟩ := lengthPrefixed_append_inj fits.1 otherFits.1 equal
      obtain ⟨bytes, equal⟩ := lengthPrefixed_append_inj fits.2 otherFits.2 equal
      obtain ⟨flags, equal⟩ := List.cons.inj equal
      have executable : first.executable = second.executable := by
        cases one : first.executable <;> cases two : second.executable <;>
          simp [one, two] at flags ⊢
      have heads : first = second := by
        cases first
        cases second
        cases textBytes_injective paths
        cases bytes
        cases executable
        rfl
      rw [heads, ih (fun entry member => leftFits entry (List.mem_cons_of_mem _ member))
        (fun entry member => rightFits entry (List.mem_cons_of_mem _ member)) equal]

/-- A digest of 64 lower-case hexadecimal digits. -/
def LowerHexDigest (digest : String) : Prop :=
  byteLength digest = 64 ∧ ∀ character ∈ digest.toList,
    character.isDigit ∨ ('a' ≤ character ∧ character ≤ 'f')

/-- Markers bind faithfully: what is written is read, what is read is what was written, and the
bytes behind a tree digest are those of one tree. -/
structure MarkersBind : Prop where
  /-- A marker of a binding, a digest and counts is read from its text when that fits. -/
  restored : ∀ bindingNamespace facts binding digest entries totalBytes path,
    ViewBinding.new bindingNamespace facts = .ok binding → LowerHexDigest digest →
    (textBytes (SourceMarker.write ⟨binding, digest, entries, totalBytes⟩)).length ≤
      maxMarkerBytes →
    Returns (SourceMarker.parse
      (textBytes (SourceMarker.write ⟨binding, digest, entries, totalBytes⟩)) path)
      ⟨binding, digest, entries, totalBytes⟩
  /-- Bytes that are read as a marker are what is written of it. -/
  printed : ∀ contents path marker, Returns (SourceMarker.parse contents path) marker →
    textBytes marker.write = contents
  /-- Different bytes are read as different markers. -/
  distinct : ∀ contents other path marker, Returns (SourceMarker.parse contents path) marker →
    Returns (SourceMarker.parse other path) marker → contents = other
  /-- Reading a marker stops nothing. -/
  safe : ∀ contents path, Safe (SourceMarker.parse contents path)
  /-- The bytes that are hashed for a tree determine its entries. -/
  hashed : ∀ left right : List TreeEntry, (∀ entry ∈ left, entry.Representable) →
    (∀ entry ∈ right, entry.Representable) → treeDigestInput left = treeDigestInput right →
    left = right

/-- Markers bind faithfully. -/
theorem markersBind : MarkersBind where
  restored := by
    intro bindingNamespace facts binding digest entries totalBytes path built hexadecimal fits
    obtain ⟨atom, valid⟩ := ViewBinding.new_eq_ok built
    exact parse_write ⟨atom, fun fact member => (valid fact member).1,
      fun fact member => (valid fact member).2, hexadecimal.1, hexadecimal.2⟩ fits path
  printed := fun _ _ _ => write_of_parse
  distinct := fun _ _ _ _ first second => (write_of_parse first).symm.trans (write_of_parse second)
  safe := safe_parse
  hashed := fun _ _ => treeDigestInput_injective

end Rsolve
