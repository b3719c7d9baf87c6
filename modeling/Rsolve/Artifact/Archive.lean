import Mathlib.Algebra.GroupWithZero.Nat
import Rsolve.Artifact.Description
import Rsolve.Lib.Framing

/-!
# The check of a source archive

A source archive is a row of entries, each with a path, a type and its content. The check reads the
entry that is the DESCRIPTION of the package and counts the bytes of all. It knows that entry by the
components of its path as they are written, while the archive is unpacked to what its paths resolve
to.
-/
open Checked Framing

namespace Rsolve

/-- `Component` of a path on Unix. -/
inductive PathComponent
  | rootDir
  | curDir
  | parentDir
  | normal (name : List UInt8)
deriving DecidableEq, Repr

/-- The component that a piece between two slashes is, if it is one behind the first. -/
def bodyComponent (piece : List UInt8) : Option PathComponent :=
  if piece = [] ∨ piece = [46] then none
  else if piece = [46, 46] then some .parentDir
  else some (.normal piece)

/-- `Path::components` — a dot is a component only in front of a relative path. -/
def archiveComponents (path : List UInt8) : List PathComponent :=
  let pieces := path.splitOn 47
  if path.head? = some 47 then .rootDir :: pieces.filterMap bodyComponent
  else if pieces.head? = some [46] then .curDir :: pieces.tail.filterMap bodyComponent
  else pieces.filterMap bodyComponent

/-- `EntryType` — what a tar entry is. -/
inductive TarEntryType
  | regular
  | link
  | symlink
  | char
  | block
  | directory
  | fifo
  | continuous
  | other (flag : UInt8)
deriving DecidableEq, Repr

/-- One entry of an archive. Its content may end in a failure to read on. -/
structure TarEntry where
  path : List UInt8
  type : TarEntryType
  content : List UInt8
  fault : Option String
deriving DecidableEq, Repr

/-- `MAX_UNCOMPRESSED_BYTES`. -/
def maxUncompressedBytes : Nat := 268435456

/-- `MAX_ENTRIES`. -/
def maxArchiveEntries : Nat := 100000

/-- `MAX_DESCRIPTION_BYTES`. -/
def maxDescriptionBytes : Nat := 1048576

/-- What the loop of `validate_source_archive` keeps. -/
structure ArchiveState where
  total : Nat
  entries : Nat
  description : Option DescriptionFields
  descriptionCount : Nat
deriving DecidableEq, Repr

/-- Reading at most some bytes of the content of an entry. -/
def TarEntry.take (entry : TarEntry) (limit : Nat) : Except CacheError (List UInt8) :=
  if limit ≤ entry.content.length then .ok (entry.content.take limit)
  else
    match entry.fault with
    | some reason => .error (.invalidArchive reason)
    | none => .ok entry.content

/-- The path of the DESCRIPTION of a package. -/
def descriptionPath (package : PackageName) : List UInt8 :=
  textBytes (package.text ++ "/DESCRIPTION")

/-- An entry is the one with the DESCRIPTION, by its path as it is written. -/
def TarEntry.isDescription (entry : TarEntry) (package : PackageName) : Bool :=
  archiveComponents entry.path = archiveComponents (descriptionPath package)

/-- The path of an entry leads out of the directory it is unpacked in. -/
def TarEntry.escapes (entry : TarEntry) : Bool :=
  (archiveComponents entry.path).any fun component =>
    component = .rootDir || component = .parentDir

variable (ip : IpAddrs) (utf8Error : List UInt8 → String)

/-- The entry with the DESCRIPTION: the count and the fields after it, and its bytes. -/
def readDescription (state : ArchiveState) (entry : TarEntry) :
    Except CacheError (ArchiveState × Nat) := do
  ensure (state.descriptionCount + 1 ≤ 1) .duplicateDescription
  ensure (entry.type = .regular)
    (.malformedDescription "DESCRIPTION entry is not a regular file")
  let bytes ← entry.take (maxDescriptionBytes + 1)
  ensure (bytes.length ≤ maxDescriptionBytes) (.descriptionTooLarge maxDescriptionBytes)
  let fields ← parseDescription utf8Error bytes
  return ({ state with
      description := some fields
      descriptionCount := state.descriptionCount + 1 }, bytes.length)

/-- The content of an entry: the state after it is read, and its bytes. -/
def readEntry (expectation : Option ArtifactValidationExpectation) (state : ArchiveState)
    (entry : TarEntry) : Except CacheError (ArchiveState × Nat) :=
  if expectation.any fun expected => entry.isDescription expected.package then
    readDescription utf8Error state entry
  else do
    let bytes ← entry.take (maxUncompressedBytes - state.total + 1)
    return (state, bytes.length)

/-- What the loop of `validate_source_archive` does with one entry. The sums stay far below the
bound of 64 bits. -/
def validateEntry (expectation : Option ArtifactValidationExpectation) (state : ArchiveState)
    (index : Nat) (entry : Except String TarEntry) : Except CacheError ArchiveState := do
  ensure (index < maxArchiveEntries) (.invalidArchive "archive contains too many entries")
  let entry ← entry.mapError .invalidArchive
  ensure (entry.escapes = false) (.invalidArchive "archive entry path escapes its root")
  let (read, copied) ← readEntry utf8Error expectation state entry
  ensure (copied ≤ maxUncompressedBytes - state.total ∧ state.total + copied ≤ maxUncompressedBytes)
    (.invalidArchive "archive exceeds sanity-check size limit")
  return { read with total := state.total + copied, entries := state.entries + 1 }

/-- The loop of `validate_source_archive` from some entry on. -/
def validateEntries (expectation : Option ArtifactValidationExpectation) (state : ArchiveState)
    (index : Nat) : List (Except String TarEntry) → Except CacheError ArchiveState
  | [] => .ok state
  | entry :: rest => do
    let state ← validateEntry utf8Error expectation state index entry
    validateEntries expectation state (index + 1) rest

/-- `validate_source_archive` of a file that could be opened or not, with its entries once it could be
read as an archive. -/
def validateSourceArchive (path : String) (expectation : Option ArtifactValidationExpectation)
    (file : Except String (Except String (List (Except String TarEntry)))) :
    Except CacheError Unit := do
  let archive ← file.mapError (.io "open source archive for sanity check" path)
  let entries ← archive.mapError .invalidArchive
  let state ← validateEntries utf8Error expectation ⟨0, 0, none, 0⟩ 0 entries
  ensure (state.entries ≠ 0) (.invalidArchive "archive contains no entries")
  match expectation with
  | none => return ()
  | some expected =>
    let fields ← state.description.elim (.error .missingDescription) .ok
    validateDescription ip fields expected

/-- The path of an entry without its dots. -/
def TarEntry.resolved (entry : TarEntry) : List PathComponent :=
  (archiveComponents entry.path).filter (· ≠ .curDir)

/-- An entry is unpacked to the DESCRIPTION of a package. -/
def TarEntry.resolves (entry : TarEntry) (package : PackageName) : Bool :=
  entry.resolved = [.normal (textBytes package.text), .normal (textBytes "DESCRIPTION")]

/-- An archive has one identity: nothing leads out of it, its contents are within the limit, and of all
entries exactly one is unpacked to the DESCRIPTION, a regular file whose fields match. -/
structure Identified (entries : List TarEntry) (expected : ArtifactValidationExpectation) : Prop where
  inside : ∀ entry ∈ entries, entry.escapes = false
  limited : (entries.map fun entry => entry.content.length).sum ≤ maxUncompressedBytes
  described : ∃ entry fields, entries.filter (·.resolves expected.package) = [entry] ∧
    entry.type = .regular ∧ parseDescription utf8Error entry.content = .ok fields ∧
      fields.Match ip expected

/-- The path of an entry begins with a dot and is unpacked to the DESCRIPTION of a package. -/
def TarEntry.Disguised (entry : TarEntry) (package : PackageName) : Prop :=
  (archiveComponents entry.path).head? = some .curDir ∧ entry.resolves package = true

section Components

/-- What stands behind the first component is no dot. -/
theorem notMem_filterMap_bodyComponent (pieces : List (List UInt8)) :
    PathComponent.curDir ∉ pieces.filterMap bodyComponent := by
  intro member
  obtain ⟨piece, -, found⟩ := List.mem_filterMap.mp member
  unfold bodyComponent at found
  split at found
  · cases found
  · split at found <;> cases found

/-- Without a dot in front, a path has no dots. -/
theorem filter_archiveComponents {path : List UInt8}
    (plain : (archiveComponents path).head? ≠ some .curDir) :
    (archiveComponents path).filter (· ≠ .curDir) = archiveComponents path := by
  refine List.filter_eq_self.mpr fun component member => decide_eq_true ?_
  rintro rfl
  revert plain member
  unfold archiveComponents
  simp only
  split
  · intro _ member
    rcases List.mem_cons.mp member with root | later
    · cases root
    · exact notMem_filterMap_bodyComponent _ later
  · split
    · exact fun plain _ => plain rfl
    · exact fun _ member => notMem_filterMap_bodyComponent _ member

/-- A package name begins with a letter and has letters, digits and periods only. -/
theorem PackageName.characters (package : PackageName) :
    ∃ first rest, package.text.toList = first :: rest ∧ first.isAlpha = true ∧
      ∀ character ∈ first :: rest, character.isAlphanum = true ∨ character = '.' := by
  have valid := package.valid
  unfold PackageName.check at valid
  split at valid
  · cases valid
  · next first rest listed =>
    split at valid
    · cases valid
    · next letter =>
      split at valid
      · cases valid
      · next plain =>
        refine ⟨first, rest, listed, by simpa using letter, fun character member => ?_⟩
        have tested := List.findIdx?_eq_none_iff.mp plain character member
        exact (Bool.eq_false_or_eq_true _).imp_right fun other => by simpa [other] using tested

/-- The byte of an ASCII character. -/
theorem utf8EncodeChar_ascii {character : Char} (small : character.toNat ≤ 127) :
    String.utf8EncodeChar character = [UInt8.ofNat character.toNat] :=
  if_pos small

/-- The characters of a package name are ASCII, and none is a slash. -/
theorem ascii_of_name {character : Char}
    (named : character.isAlphanum = true ∨ character = '.') :
    character.toNat ≤ 122 ∧ character.toNat ≠ 47 := by
  rcases named with alphanumeric | rfl
  · delta Char.isAlphanum Char.isAlpha Char.isUpper Char.isLower Char.isDigit at alphanumeric
    simp only [ge_iff_le, Bool.or_eq_true, Bool.and_eq_true, decide_eq_true_eq,
      UInt32.le_iff_toNat_le] at alphanumeric
    change character.val.toNat ≤ 122 ∧ character.val.toNat ≠ 47
    rcases alphanumeric with ((⟨low, high⟩ | ⟨low, high⟩) | ⟨low, high⟩)
    all_goals
      simp only [Char.reduceVal, UInt32.reduceToNat] at low high
      omega
  · decide

/-- The bytes of a package name have no slash, and do not begin with a period. -/
theorem PackageName.textBytes_spec (package : PackageName) :
    47 ∉ textBytes package.text ∧ textBytes package.text ≠ [] ∧
      (textBytes package.text).head? ≠ some 46 := by
  obtain ⟨first, rest, listed, letter, named⟩ := package.characters
  have bytes : ∀ character ∈ first :: rest,
      String.utf8EncodeChar character = [UInt8.ofNat character.toNat] := fun character member =>
    utf8EncodeChar_ascii (Nat.le_trans (ascii_of_name (named character member)).1 (by decide))
  have split : textBytes package.text =
      UInt8.ofNat first.toNat :: rest.flatMap String.utf8EncodeChar := by
    rw [textBytes, listed, List.flatMap_cons, bytes first List.mem_cons_self]
    rfl
  refine ⟨fun slash => ?_, by rw [split]; exact List.cons_ne_nil _ _, ?_⟩
  · rw [textBytes, listed] at slash
    obtain ⟨character, member, inside⟩ := List.mem_flatMap.mp slash
    rw [bytes character member, List.mem_singleton] at inside
    obtain ⟨small, other⟩ := ascii_of_name (named character member)
    have number := congrArg UInt8.toNat inside
    rw [UInt8.toNat_ofNat', Nat.mod_eq_of_lt (by omega)] at number
    exact other number.symm
  · rw [split, List.head?_cons]
    intro period
    obtain ⟨small, -⟩ := ascii_of_name (named first List.mem_cons_self)
    have number := congrArg UInt8.toNat (Option.some.inj period)
    rw [UInt8.toNat_ofNat', Nat.mod_eq_of_lt (by omega)] at number
    have same : first = '.' := Char.toNat_inj.mp number
    rw [same] at letter
    exact absurd letter (by decide)

/-- The components of the path of a DESCRIPTION. -/
theorem archiveComponents_descriptionPath (package : PackageName) :
    archiveComponents (descriptionPath package) =
      [.normal (textBytes package.text), .normal (textBytes "DESCRIPTION")] := by
  obtain ⟨clean, filled, noPeriod⟩ := package.textBytes_spec
  have bytes : descriptionPath package =
      textBytes package.text ++ 47 :: textBytes "DESCRIPTION" := by
    rw [descriptionPath, textBytes, String.toList_append, List.flatMap_append]
    rfl
  have pieces : (descriptionPath package).splitOn 47 =
      [textBytes package.text, textBytes "DESCRIPTION"] := by
    rw [bytes, List.splitOn_append_cons_self_of_not_mem clean,
      List.splitOn_eq_singleton (by decide)]
  have first : (descriptionPath package).head? ≠ some 47 := by
    rw [bytes, List.head?_append_of_ne_nil _ filled]
    exact fun slash => clean (List.mem_of_head? slash)
  have dot : textBytes package.text ≠ [46] := fun dot => noPeriod (by rw [dot]; rfl)
  have dots : textBytes package.text ≠ [46, 46] := fun dots => noPeriod (by rw [dots]; rfl)
  have body : bodyComponent (textBytes package.text) = some (.normal (textBytes package.text)) := by
    rw [bodyComponent, if_neg (not_or.mpr ⟨filled, dot⟩), if_neg dots]
  have file : bodyComponent (textBytes "DESCRIPTION") =
      some (.normal (textBytes "DESCRIPTION")) := by
    decide
  unfold archiveComponents
  simp only [pieces]
  rw [if_neg first, if_neg (by simpa using dot), List.filterMap_cons, body, List.filterMap_cons, file,
    List.filterMap_nil]

/-- An entry is unpacked to the DESCRIPTION when it is written as it or begins with a dot. -/
theorem TarEntry.resolves_iff (entry : TarEntry) (package : PackageName) :
    entry.resolves package = true ↔
      entry.isDescription package = true ∨ entry.Disguised package := by
  have target := archiveComponents_descriptionPath package
  unfold TarEntry.Disguised TarEntry.isDescription
  rw [decide_eq_true_eq, target]
  by_cases plain : (archiveComponents entry.path).head? = some .curDir
  · refine ⟨fun resolves => .inr ⟨plain, resolves⟩, ?_⟩
    rintro (written | ⟨-, resolves⟩)
    · rw [written] at plain
      cases plain
    · exact resolves
  · have whole := filter_archiveComponents plain
    have same : entry.resolves package = true ↔ archiveComponents entry.path =
        [.normal (textBytes package.text), .normal (textBytes "DESCRIPTION")] := by
      unfold TarEntry.resolves TarEntry.resolved
      rw [decide_eq_true_eq, whole]
    rw [same]
    exact ⟨.inl, fun either => either.elim id fun disguised => absurd disguised.1 plain⟩

end Components

section Loop

variable {ip : IpAddrs} {utf8Error : List UInt8 → String}
  {expected : ArtifactValidationExpectation} {state : ArchiveState} {done : List TarEntry}

/-- What the entries before a point of the loop are: none leads out, their contents add up within the
limit, and the DESCRIPTION among them is a regular file and was read. -/
structure Walked (utf8Error : List UInt8 → String) (expected : ArtifactValidationExpectation)
    (done : List TarEntry) (state : ArchiveState) : Prop where
  inside : ∀ entry ∈ done, entry.escapes = false
  total : state.total = (done.map fun entry => entry.content.length).sum
  limited : state.total ≤ maxUncompressedBytes
  described : (done.filter (·.isDescription expected.package) = [] ∧ state.description = none ∧
      state.descriptionCount = 0) ∨
    ∃ entry fields, done.filter (·.isDescription expected.package) = [entry] ∧
      entry.type = .regular ∧ parseDescription utf8Error entry.content = .ok fields ∧
        state.description = some fields ∧ state.descriptionCount = 1

/-- What is read within a limit that is not reached is the whole content. -/
theorem TarEntry.content_of_take {entry : TarEntry} {limit : Nat} {bytes : List UInt8}
    (taken : entry.take limit = .ok bytes) (short : bytes.length < limit) :
    bytes = entry.content := by
  unfold TarEntry.take at taken
  split at taken
  · next long =>
    obtain rfl := Except.ok.inj taken
    rw [List.length_take] at short
    omega
  · split at taken
    · cases taken
    · exact (Except.ok.inj taken).symm

/-- The loop goes on from one entry to the next. -/
theorem Walked.entry {index : Nat} {entry : TarEntry} {next : ArchiveState}
    (walked : Walked utf8Error expected done state)
    (accepted : validateEntry utf8Error (some expected) state index (.ok entry) = .ok next) :
    Walked utf8Error expected (done ++ [entry]) next := by
  obtain ⟨inside, total, limited, described⟩ := walked
  simp only [validateEntry, Except.mapError, ok_bind, bind_eq_ok, ensure_eq_ok, pure, Except.pure,
    Except.ok.injEq, readEntry, Option.any_some] at accepted
  obtain ⟨_, -, _, stays, ⟨read, copied⟩, took, _, ⟨fits, within⟩, rfl⟩ := accepted
  have outside : ∀ other ∈ done ++ [entry], other.escapes = false := by
    intro other member
    rcases List.mem_append.mp member with before | last
    · exact inside other before
    · rw [List.mem_singleton.mp last]
      exact stays
  simp only at fits within
  by_cases named : entry.isDescription expected.package = true
  · rw [if_pos named] at took
    simp only [readDescription, bind_eq_ok, ensure_eq_ok, pure, Except.pure, Except.ok.injEq,
      Prod.mk.injEq] at took
    obtain ⟨_, once, _, regular, bytes, taken, _, short, fields, parsed, rfl, rfl⟩ := took
    have whole := entry.content_of_take taken (Nat.lt_succ_of_le short)
    subst whole
    rcases described with ⟨none, -, count⟩ | ⟨_, _, -, -, -, -, count⟩
    · refine ⟨outside, ?_, within, .inr ⟨entry, fields, ?_, regular, parsed, rfl, ?_⟩⟩
      · simp [total]
      · rw [List.filter_append, none, List.nil_append]
        exact List.filter_cons_of_pos named
      · simp only [count]
    · omega
  · rw [if_neg named] at took
    simp only [bind_eq_ok, Except.ok.injEq, Prod.mk.injEq] at took
    obtain ⟨bytes, taken, rfl, rfl⟩ := took
    have whole := entry.content_of_take taken (Nat.lt_succ_of_le fits)
    subst whole
    have same : (done ++ [entry]).filter (·.isDescription expected.package) =
        done.filter (·.isDescription expected.package) := by
      rw [List.filter_append]
      simp [named]
    refine ⟨outside, ?_, within, ?_⟩
    · simp [total]
    · rw [same]
      exact described

/-- The loop over all entries. -/
theorem Walked.entries {index : Nat} {entries : List TarEntry} {next : ArchiveState}
    (walked : Walked utf8Error expected done state)
    (accepted : validateEntries utf8Error (some expected) state index (entries.map .ok) = .ok next) :
    Walked utf8Error expected (done ++ entries) next := by
  induction entries generalizing done state index with
  | nil =>
    obtain rfl := Except.ok.inj accepted
    rwa [List.append_nil]
  | cons entry rest ih =>
    simp only [List.map_cons, validateEntries, bind_eq_ok] at accepted
    obtain ⟨middle, first, later⟩ := accepted
    have walked := ih (walked.entry first) later
    rwa [List.append_assoc, List.singleton_append] at walked

/-- What an accepted archive has: nothing leads out, the contents are within the limit, and the one
entry that is written as the DESCRIPTION is a regular file whose fields match. -/
theorem written_of_validateSourceArchive {path : String} {entries : List TarEntry}
    (accepted : validateSourceArchive ip utf8Error path (some expected)
      (.ok (.ok (entries.map .ok))) = .ok ()) :
    (∀ entry ∈ entries, entry.escapes = false) ∧
      (entries.map fun entry => entry.content.length).sum ≤ maxUncompressedBytes ∧
      ∃ entry fields, entries.filter (·.isDescription expected.package) = [entry] ∧
        entry.type = .regular ∧ parseDescription utf8Error entry.content = .ok fields ∧
          fields.Match ip expected := by
  simp only [validateSourceArchive, Except.mapError, ok_bind, bind_eq_ok, ensure_eq_ok] at accepted
  obtain ⟨state, looped, _, -, fields, found, matched⟩ := accepted
  have start : Walked utf8Error expected [] ⟨0, 0, none, 0⟩ :=
    ⟨nofun, rfl, Nat.zero_le _, .inl ⟨rfl, rfl, rfl⟩⟩
  obtain ⟨inside, total, limited, described⟩ := start.entries looped
  rw [List.nil_append] at inside total described
  refine ⟨inside, total ▸ limited, ?_⟩
  rcases described with ⟨-, none, -⟩ | ⟨entry, read, only, regular, parsed, some, -⟩
  · rw [none] at found
    cases found
  · rw [some] at found
    obtain rfl := Except.ok.inj found
    exact ⟨entry, read, only, regular, parsed, validateDescription_eq_ok.mp matched⟩

/-- An accepted archive has one identity exactly when no entry whose path begins with a dot is unpacked
to the DESCRIPTION. -/
theorem identified_iff (ip : IpAddrs) (utf8Error : List UInt8 → String) (path : String)
    (expected : ArtifactValidationExpectation) (entries : List TarEntry)
    (accepted : validateSourceArchive ip utf8Error path (some expected)
      (.ok (.ok (entries.map .ok))) = .ok ()) :
    Identified ip utf8Error entries expected ↔
      ∀ entry ∈ entries, ¬ entry.Disguised expected.package := by
  obtain ⟨inside, limited, entry, fields, only, regular, parsed, matched⟩ :=
    written_of_validateSourceArchive accepted
  constructor
  · rintro ⟨-, -, other, _, one, -⟩ disguise member disguised
    have there : entry ∈ entries.filter (·.isDescription expected.package) := by
      rw [only]
      exact List.mem_singleton_self entry
    obtain ⟨inEntries, named⟩ := List.mem_filter.mp there
    have written : entry ∈ entries.filter (·.resolves expected.package) :=
      List.mem_filter.mpr ⟨inEntries, (entry.resolves_iff _).mpr (.inl named)⟩
    have hidden : disguise ∈ entries.filter (·.resolves expected.package) :=
      List.mem_filter.mpr ⟨member, disguised.2⟩
    rw [one, List.mem_singleton] at written hidden
    -- Both would be the one entry, whose path then begins with the package and with a dot.
    have begins := disguised.1
    rw [hidden, ← written, of_decide_eq_true named, archiveComponents_descriptionPath] at begins
    cases begins
  · intro plain
    have same : entries.filter (·.resolves expected.package) =
        entries.filter (·.isDescription expected.package) := by
      refine List.filter_congr fun entry member => Bool.eq_iff_iff.mpr ?_
      rw [entry.resolves_iff]
      exact ⟨fun either => either.elim id fun disguised => absurd disguised (plain entry member),
        .inl⟩
    exact ⟨inside, limited, entry, fields, same.trans only, regular, parsed, matched⟩

end Loop

namespace Small

/-- The expectation of a release of a registry. -/
def releaseExpectation : ArtifactValidationExpectation where
  package := ⟨"dplyr", by decide⟩
  version := ⟨"1.0.0", .fromVec [1, 0, 0], by decide⟩
  gitProvenance := none

/-- An entry that is a regular file. -/
def fileEntry (path content : String) : TarEntry :=
  ⟨textBytes path, .regular, textBytes content, none⟩

/-- The DESCRIPTION of the release. -/
def releaseDescription : TarEntry :=
  fileEntry "dplyr/DESCRIPTION" "Package: dplyr\nVersion: 1.0.0\n"

/-- The DESCRIPTION of another package under the same path, spelled with a dot. -/
def disguisedDescription : TarEntry :=
  fileEntry "./dplyr/DESCRIPTION" "Package: other\nVersion: 6.6.6\n"

/-- An archive with a DESCRIPTION is accepted. -/
theorem validateSourceArchive_release : validateSourceArchive IpAddrs.quads (fun _ => "")
    "dplyr_1.0.0.tar.gz" (some releaseExpectation)
      (.ok (.ok ([⟨textBytes "dplyr/", .directory, [], none⟩, releaseDescription].map .ok))) =
        .ok () := by
  decide +kernel

end Small

/-- The archive of a release has one identity. -/
theorem identified_release : Identified IpAddrs.quads (fun _ => "")
    [⟨textBytes "dplyr/", .directory, [], none⟩, Small.releaseDescription]
      Small.releaseExpectation := by
  refine (identified_iff IpAddrs.quads (fun _ => "") "dplyr_1.0.0.tar.gz" Small.releaseExpectation _
    Small.validateSourceArchive_release).mpr fun entry member disguised => ?_
  have plain : ∀ entry ∈ [⟨textBytes "dplyr/", .directory, [], none⟩, Small.releaseDescription],
      (archiveComponents entry.path).head? ≠ some .curDir := by
    decide +kernel
  exact plain entry member disguised.1

/-- An archive with a second DESCRIPTION under a path that begins with a dot is accepted, and has two
entries that are unpacked to it. -/
theorem not_identified_disguised :
    validateSourceArchive IpAddrs.quads (fun _ => "") "dplyr_1.0.0.tar.gz"
        (some Small.releaseExpectation)
          (.ok (.ok ([Small.releaseDescription, Small.disguisedDescription].map .ok))) = .ok () ∧
      ¬ Identified IpAddrs.quads (fun _ => "")
        [Small.releaseDescription, Small.disguisedDescription] Small.releaseExpectation := by
  refine ⟨by decide +kernel, fun identified => ?_⟩
  obtain ⟨entry, -, one, -⟩ := identified.described
  have two : ([Small.releaseDescription, Small.disguisedDescription].filter
      (·.resolves Small.releaseExpectation.package)).length = 2 := by
    decide +kernel
  rw [one] at two
  cases two

end Rsolve
