import Mathlib.Data.Bool.AllAny
import Mathlib.Data.List.Infix
import Mathlib.Data.List.Nodup
import Rsolve.Core.Digest
import Rsolve.SourceControl.Backend

/-!
# What a selector means

A remote has references, some of them to annotated tags, and perhaps a default branch. A selector
names references of the remote; it means the commit of the one reference that it names. The backend
finds that commit when the reference is a commit, or when what it asks the remote for includes the
commit that the annotated tag stands for.
-/
open Checked Framing Segments Splitting Utf8

namespace Rsolve.SourceControl

/-- A reference of a remote. -/
structure Ref where
  /-- The name. -/
  name : String
  /-- The object that it points to. -/
  id : GitCommitId
  /-- The commit that the object peels to, when it is an annotated tag. -/
  peeled : Option GitCommitId
deriving DecidableEq

/-- The characters that no reference name has, beside blanks and control characters. -/
def forbiddenCharacters : List Char := ['~', '^', ':', '?', '*', '[', '\\']

/-- A reference name starts with `refs/` and has no blanks, control characters or forbidden
characters. -/
def RefName (name : String) : Prop :=
  "refs/".toList <+: name.toList ∧
    ∀ character ∈ name.toList, 32 < character.toNat ∧ character ∉ forbiddenCharacters

/-- A remote repository. -/
structure Remote where
  /-- The references. -/
  refs : List Ref
  /-- The object of the default branch. -/
  head : Option GitCommitId
  /-- Each name is that of one reference. -/
  distinct : (refs.map (·.name)).Nodup
  /-- The names are names of references. -/
  named : ∀ ref ∈ refs, RefName ref.name

/-- The references with the default branch. -/
def Remote.all (remote : Remote) : List Ref :=
  (remote.head.map fun id => ⟨"HEAD", id, none⟩).toList ++ remote.refs

/-- The reference of a name. -/
def Remote.find (remote : Remote) (name : String) : Option Ref :=
  remote.all.find? fun ref => ref.name = name

/-- The objects that are advertised for a reference, under their printed names. -/
def Ref.objects (ref : Ref) : List (GitCommitId × String) :=
  (ref.id, ref.name) :: (ref.peeled.map fun commit => (commit, peeledName ref.name)).toList

/-- The objects that a remote advertises. -/
def Remote.objects (remote : Remote) : List (GitCommitId × String) :=
  remote.all.flatMap Ref.objects

/-- A pattern without wildcards. -/
def WildcardFree (pattern : String) : Prop :=
  ∀ character ∈ pattern.toList, character ∉ ['*', '?', '[', '\\']

/-- A printed name is asked for: it is one of the patterns, or ends with a slash and one. -/
def asks (patterns : List String) (name : String) : Bool :=
  patterns.any fun pattern => name = pattern || ("/" ++ pattern).toList <:+ name.toList

/-- A line that `git ls-remote` prints. -/
inductive Line
  | object (oid : GitCommitId) (name : String)
  | symbolic (target name : String)

/-- The object of a line. -/
def Line.object? : Line → Option (GitCommitId × String)
  | .object oid name => some (oid, name)
  | .symbolic _ _ => none

/-- The text of a line. -/
def Line.text : Line → String
  | .object oid name => oid.hex ++ "\t" ++ name
  | .symbolic target name => "ref: " ++ target ++ "\t" ++ name

/-- A text without blanks and control characters. -/
def Printable (text : String) : Prop := ∀ character ∈ text.toList, 32 < character.toNat

/-- The lines that are printed for patterns, in some order. -/
structure Prints (remote : Remote) (symref : Bool) (patterns : List String) (lines : List Line) :
    Prop where
  /-- There is a line for each object that is asked for. -/
  objects : (lines.filterMap Line.object?).Perm
    (remote.objects.filter fun object => asks patterns object.2)
  /-- Symbolic references are told when they are asked for. -/
  symbolic : ∀ target name, Line.symbolic target name ∈ lines →
    symref = true ∧ Printable target ∧ Printable name

/-- The bytes of printed lines. -/
def printed (lines : List Line) : List UInt8 :=
  lines.flatMap fun line => textBytes line.text ++ [10]

/-- `git ls-remote` advertises a remote: it prints the lines for patterns without wildcards. -/
def Advertises (backend : Backend) (url : NormalizedGitUrl) (remote : Remote) : Prop :=
  ∀ symref patterns, (∀ pattern ∈ patterns, WildcardFree pattern) →
    ∃ lines stderr, Prints remote symref patterns lines ∧
      backend.run ⟨backend.executable, lsRemoteArgs backend url symref patterns, maxOutputBytes⟩ =
        .ok ⟨some 0, printed lines, stderr⟩

/-- The names of the references that a selector may mean. -/
def meant : GitSelector → List String
  | .defaultBranch => ["HEAD"]
  | .branch name => ["refs/heads/" ++ name]
  | .tag name => ["refs/tags/" ++ name]
  | .rev revision =>
    if isFullReference revision then [revision]
    else ["refs/heads/" ++ revision, "refs/tags/" ++ revision]

/-- The references that a selector names. -/
def namedRefs (remote : Remote) (selector : GitSelector) : List Ref :=
  (meant selector).filterMap remote.find

/-- The commit of a reference. -/
def Ref.commit (ref : Ref) : GitCommitId := ref.peeled.getD ref.id

/-- A selector is resolved as what it means: the commit of the one reference that it names. -/
structure ResolvesMeaning (remote : Remote) (selector : GitSelector)
    (result : Except GitError GitCommitId) : Prop where
  /-- A commit is found exactly when one reference is named, and it is that of the reference. -/
  resolved : ∀ commit, result = .ok commit ↔
    ∃ ref, namedRefs remote selector = [ref] ∧ commit = ref.commit
  /-- A selector that names no reference is not found. -/
  missing : namedRefs remote selector = [] → result = .error .selectorNotFound
  /-- A selector that names more references is ambiguous. -/
  ambiguous : 1 < (namedRefs remote selector).length → result = .error .selectorAmbiguous

/-- The patterns of a selector include the name of what a reference peels to. -/
def asksPeeled : GitSelector → Ref → Bool
  | .tag _, _ => true
  | .rev revision, ref => !isFullReference revision && ref.name = "refs/tags/" ++ revision
  | _, _ => false

/-- A selector that is no object id and passes its check. -/
def Selectable (selector : GitSelector) : Prop :=
  fullObjectId selector = none ∧ ∃ asked, askedRefs selector = .ok asked

/-! ## Reading what is printed -/

/-- The advertisement of an object. -/
def advertisement (object : GitCommitId × String) : Advertisement := ⟨object.1.hex, object.2⟩

/-- The text of an object id is that id. -/
theorem new_hex (commit : GitCommitId) : GitCommitId.new commit.hex = .ok commit := by
  unfold GitCommitId.new
  split
  · next cause failed =>
    have clash := failed.symm.trans commit.valid
    cases clash
  · next algorithm hex read =>
    have same := read.symm.trans commit.valid
    simp only [Except.ok.injEq, Prod.mk.injEq] at same
    exact congrArg Except.ok (GitCommitId.ext same.1 same.2)

/-- The characters of an object id are printable, and none is an `r`. -/
theorem hex_printable (commit : GitCommitId) :
    ∀ character ∈ commit.hex.toList, 32 < character.toNat ∧ character ≠ 'r' := by
  have valid := commit.valid
  unfold GitCommitId.read at valid
  split at valid
  · cases valid
  · split at valid
    · cases valid
    · next digits =>
      have hexadecimal : commit.hex.toList.all isHexDigit = true := by simpa using digits
      intro character member
      have digit := List.all_eq_true.mp hexadecimal character member
      constructor
      · unfold isHexDigit at digit
        delta Char.isDigit at digit
        simp only [ge_iff_le, Bool.or_eq_true, Bool.and_eq_true, decide_eq_true_eq, Char.le_def,
          UInt32.le_iff_toNat_le] at digit
        change 32 < character.val.toNat
        rcases digit with (⟨low, high⟩ | ⟨low, high⟩) | ⟨low, high⟩
        all_goals
          simp only [Char.reduceVal, UInt32.reduceToNat] at low high
          omega
      · rintro rfl
        exact absurd digit (by decide)

/-- A printable text has no byte of a control character. -/
theorem notMem_textBytes {text : String} (printable : Printable text) {byte : UInt8}
    (control : byte.toNat ≤ 32) : byte ∉ textBytes text := by
  intro inside
  obtain ⟨character, member, encoded⟩ := List.mem_flatMap.mp inside
  have same := toNat_of_mem_utf8EncodeChar encoded (by omega)
  have visible := printable character member
  omega

/-- The bytes of a line around its tab. -/
theorem textBytes_tab (first second : String) :
    textBytes (first ++ "\t" ++ second) = textBytes first ++ [9] ++ textBytes second := by
  rw [textBytes_append, textBytes_append]
  rfl

/-- A line does not end with a carriage return. -/
theorem stripReturn_of_notMem {line : List UInt8} (clean : 13 ∉ line) : stripReturn line = line :=
  if_neg fun ends => clean (ends.subset (List.mem_singleton_self _))

/-- The line of an object is read as its advertisement. -/
theorem readAdvertisement_object {oid : GitCommitId} {name : String} (printable : Printable name)
    (nonempty : name ≠ "") :
    readAdvertisement (textBytes (Line.object oid name).text) =
      .ok (some (advertisement (oid, name))) := by
  have visible : Printable oid.hex := fun character member => (hex_printable oid character member).1
  have notSymbolic : ¬ "ref:".toList <+: oid.hex.toList := fun starts =>
    (hex_printable oid 'r' (starts.subset (by decide))).2 rfl
  have noReturn : 13 ∉ textBytes (Line.object oid name).text := by
    rw [Line.text, textBytes_tab, List.mem_append, List.mem_append]
    rintro ((inside | inside) | inside)
    · exact notMem_textBytes visible (by decide) inside
    · exact absurd inside (by decide)
    · exact notMem_textBytes printable (by decide) inside
  rw [readAdvertisement, stripReturn_of_notMem noReturn, Line.text, textBytes_tab,
    splitOnce_append _ (notMem_textBytes visible (by decide))]
  simp only [fromUtf8_textBytes, new_hex]
  rw [if_neg (not_or.mpr ⟨notSymbolic, nonempty⟩)]
  rfl

/-- The line of a symbolic reference is skipped. -/
theorem readAdvertisement_symbolic {target name : String} (targetPrintable : Printable target)
    (namePrintable : Printable name) :
    readAdvertisement (textBytes (Line.symbolic target name).text) = .ok none := by
  have parts : textBytes (Line.symbolic target name).text =
      textBytes ("ref: " ++ target) ++ [9] ++ textBytes name := textBytes_tab _ _
  have controls : ∀ byte ∈ [(9 : UInt8), 13], byte ∉ textBytes "ref: " ∧ byte.toNat ≤ 32 :=
    List.all_iff_forall_prop.mp (by decide)
  have clean : ∀ byte ∈ [(9 : UInt8), 13], byte ∉ textBytes ("ref: " ++ target) := by
    intro byte control inside
    rw [textBytes_append, List.mem_append] at inside
    rcases inside with inside | inside
    · exact (controls byte control).1 inside
    · exact notMem_textBytes targetPrintable (controls byte control).2 inside
  have noReturn : 13 ∉ textBytes (Line.symbolic target name).text := by
    rw [parts, List.mem_append, List.mem_append]
    rintro ((inside | inside) | inside)
    · exact clean 13 (by decide) inside
    · exact absurd inside (by decide)
    · exact notMem_textBytes namePrintable (by decide) inside
  rw [readAdvertisement, stripReturn_of_notMem noReturn, parts,
    splitOnce_append _ (clean 9 (by decide))]
  simp only [fromUtf8_textBytes]
  exact if_pos (.inl ⟨(" " ++ target).toList, by simp⟩)

/-- The names that a remote prints are printable and not empty. -/
theorem Remote.objects_names (remote : Remote) :
    ∀ object ∈ remote.objects, Printable object.2 ∧ object.2 ≠ "" := by
  have names : ∀ ref ∈ remote.all, Printable ref.name ∧ ref.name ≠ "" := by
    intro ref member
    rcases List.mem_append.mp member with default | listed
    · rw [Option.mem_toList, Option.map_eq_some_iff] at default
      obtain ⟨id, -, rfl⟩ := default
      have head : Printable "HEAD" := List.all_iff_forall_prop.mp (by decide)
      exact ⟨head, (by decide : "HEAD" ≠ "")⟩
    · have name := remote.named ref listed
      refine ⟨fun character inside => (name.2 character inside).1, ?_⟩
      rintro empty
      rw [RefName, empty] at name
      exact absurd name.1 (by decide)
  have suffix : Printable "^{}" := List.all_iff_forall_prop.mp (by decide)
  intro object member
  obtain ⟨ref, listed, inside⟩ := List.mem_flatMap.mp member
  have name := names ref listed
  rcases List.mem_cons.mp inside with rfl | inside
  · exact name
  · rw [Option.mem_toList, Option.map_eq_some_iff] at inside
    obtain ⟨commit, -, rfl⟩ := inside
    refine ⟨fun character member => ?_, by simp [peeledName]⟩
    rw [peeledName, String.toList_append] at member
    rcases List.mem_append.mp member with member | member
    · exact name.1 character member
    · exact suffix character member

/-- A line that is printed is read as the advertisement of its object. -/
theorem readAdvertisement_line {remote : Remote} {symref : Bool} {patterns : List String}
    {lines : List Line} (prints : Prints remote symref patterns lines) {line : Line}
    (member : line ∈ lines) :
    readAdvertisement (textBytes line.text) = .ok (line.object?.map advertisement) ∧
      10 ∉ textBytes line.text := by
  cases line with
  | object oid name =>
    have asked : (oid, name) ∈ remote.objects.filter fun object => asks patterns object.2 :=
      prints.objects.mem_iff.mp (List.mem_filterMap.mpr ⟨_, member, rfl⟩)
    have visible := remote.objects_names _ (List.mem_of_mem_filter asked)
    refine ⟨readAdvertisement_object visible.1 visible.2, ?_⟩
    rw [Line.text, textBytes_tab, List.mem_append, List.mem_append]
    rintro ((inside | inside) | inside)
    · exact notMem_textBytes (fun character member => (hex_printable oid character member).1)
        (by decide) inside
    · exact absurd inside (by decide)
    · exact notMem_textBytes visible.1 (by decide) inside
  | symbolic target name =>
    obtain ⟨-, targetPrintable, namePrintable⟩ := prints.symbolic target name member
    refine ⟨readAdvertisement_symbolic targetPrintable namePrintable, ?_⟩
    rw [Line.text, textBytes_tab, textBytes_append, List.mem_append, List.mem_append,
      List.mem_append]
    rintro (((inside | inside) | inside) | inside)
    · exact absurd inside (by decide)
    · exact notMem_textBytes targetPrintable (by decide) inside
    · exact absurd inside (by decide)
    · exact notMem_textBytes namePrintable (by decide) inside

/-- What is printed for patterns is read as the advertisements of the objects of its lines. -/
theorem parseAdvertisement_printed {remote : Remote} {symref : Bool} {patterns : List String}
    {lines : List Line} (prints : Prints remote symref patterns lines) :
    parseAdvertisement (printed lines) =
      .ok ((lines.filterMap Line.object?).map advertisement) := by
  have pieces : (printed lines).splitOn 10 =
      lines.map (fun line => textBytes line.text) ++ [[]] := by
    have whole := @splitOn_flatMap _ _ (10 : UInt8) (lines.map fun line => textBytes line.text)
      (by
        intro piece member
        obtain ⟨line, listed, rfl⟩ := List.mem_map.mp member
        exact (readAdvertisement_line prints listed).2)
    rwa [List.flatMap_map] at whole
  have read : ((printed lines).splitOn 10).mapM readAdvertisement =
      .ok (lines.map (fun line => line.object?.map advertisement) ++ [none]) := by
    rw [pieces]
    refine mapM_eq_ok.mpr (List.rel_append ?_ (.cons rfl .nil))
    rw [List.forall₂_map_left_iff, List.forall₂_map_right_iff]
    exact List.forall₂_same.mpr fun line member => (readAdvertisement_line prints member).1
  rw [parseAdvertisement, read, ok_bind]
  refine congrArg _ ?_
  delta List.reduceOption
  rw [List.filterMap_append, List.filterMap_map, List.map_filterMap]
  exact List.append_nil _

/-! ## Selecting what is named -/

section Selecting

variable {remote : Remote} {patterns : List String} {symref : Bool} {lines : List Line}

/-- The name of what is peeled has a caret, which no reference name has. -/
theorem peeledName_ne {name reference : String} (clean : '^' ∉ name.toList) :
    peeledName reference ≠ name := by
  rintro rfl
  exact clean (by simp [peeledName])

/-- Names of what is peeled are equal for equal names. -/
@[simp]
theorem peeledName_inj {left right : String} :
    peeledName left = peeledName right ↔ left = right := by
  constructor
  · intro equal
    have texts := congrArg String.toList equal
    simp only [peeledName, String.toList_append, List.append_cancel_right_eq] at texts
    exact String.toList_injective texts
  · rintro rfl
    rfl

/-- No name of a remote has a caret, and no two references have one name. -/
theorem Remote.all_names (remote : Remote) :
    (remote.all.map (·.name)).Nodup ∧ ∀ ref ∈ remote.all, '^' ∉ ref.name.toList := by
  have clean : ∀ ref ∈ remote.refs, '^' ∉ ref.name.toList := fun ref member inside =>
    ((remote.named ref member).2 '^' inside).2 (by decide)
  cases head : remote.head with
  | none =>
    simp only [Remote.all, head, Option.map_none, Option.toList_none, List.nil_append]
    exact ⟨remote.distinct, clean⟩
  | some id =>
    simp only [Remote.all, head, Option.map_some, Option.toList_some, List.singleton_append,
      List.map_cons, List.nodup_cons]
    refine ⟨⟨fun listed => ?_, remote.distinct⟩, ?_⟩
    · obtain ⟨ref, member, same⟩ := List.mem_map.mp listed
      have name := (remote.named ref member).1
      rw [same] at name
      exact absurd name (by decide)
    · rintro ref member
      rcases List.mem_cons.mp member with rfl | member
      · change '^' ∉ "HEAD".toList
        decide
      · exact clean ref member

/-- The objects with a name of the references with distinct names are that of the reference of the
name; those with the name of what is peeled are the commit of that reference. -/
theorem filter_objects {refs : List Ref} (distinct : (refs.map (·.name)).Nodup)
    (clean : ∀ ref ∈ refs, '^' ∉ ref.name.toList) {name : String} (plain : '^' ∉ name.toList) :
    ((refs.flatMap Ref.objects).filter fun object => object.2 = name) =
        ((refs.find? fun ref => ref.name = name).map fun ref => (ref.id, ref.name)).toList ∧
      ((refs.flatMap Ref.objects).filter fun object => object.2 = peeledName name) =
        (((refs.find? fun ref => ref.name = name).bind (·.peeled)).map
          fun commit => (commit, peeledName name)).toList := by
  induction refs with
  | nil => exact ⟨rfl, rfl⟩
  | cons ref refs ih =>
    obtain ⟨fresh, distinct⟩ := List.nodup_cons.mp distinct
    obtain ⟨own, peeled⟩ := ih distinct fun other member =>
      clean other (List.mem_cons_of_mem _ member)
    have bare := clean ref List.mem_cons_self
    have apart : ref.name ≠ peeledName name := fun equal => peeledName_ne bare equal.symm
    have other : peeledName ref.name ≠ name := peeledName_ne plain
    rw [List.flatMap_cons, List.filter_append, List.filter_append, own, peeled]
    by_cases same : ref.name = name
    · subst same
      have absent : refs.find? (fun other => other.name = ref.name) = none := by
        rw [List.find?_eq_none]
        intro other member equal
        exact fresh (List.mem_map.mpr ⟨other, member, of_decide_eq_true equal⟩)
      have first : (ref :: refs).find? (fun other => other.name = ref.name) = some ref := by simp
      rw [absent, first]
      cases tag : ref.peeled with
      | none => simp [Ref.objects, tag, apart]
      | some commit => simp [Ref.objects, tag, apart, other]
    · rw [List.find?_cons_of_neg (by simpa using same)]
      cases tag : ref.peeled with
      | none => simp [Ref.objects, tag, same, apart]
      | some commit => simp [Ref.objects, tag, same, apart, other]

/-- A list that is a permutation of an optional item is that item. -/
theorem eq_toList_of_perm {α : Type*} {items : List α} {item : Option α}
    (same : items.Perm item.toList) : items = item.toList := by
  cases item with
  | none => exact List.perm_nil.mp same
  | some value => exact List.perm_singleton.mp same

/-- The advertisements of a name are those of the objects of that name that are asked for. -/
theorem advertised_perm (prints : Prints remote symref patterns lines) (name : String) :
    (advertised ((lines.filterMap Line.object?).map advertisement) name).Perm
      (if asks patterns name then
        (remote.objects.filter fun object => object.2 = name).map advertisement else []) := by
  have listed : advertised ((lines.filterMap Line.object?).map advertisement) name =
      ((lines.filterMap Line.object?).filter fun object => object.2 = name).map advertisement := by
    rw [advertised, List.filter_map]
    rfl
  rw [listed]
  refine ((prints.objects.filter _).map _).trans (.of_eq ?_)
  rw [List.filter_filter]
  split
  · next asked =>
    refine congrArg _ (List.filter_congr fun object _ => ?_)
    by_cases same : object.2 = name <;> simp [same, asked]
  · next unasked =>
    rw [List.filter_eq_nil_iff.mpr]
    · rfl
    · intro object _ both
      simp only [Bool.and_eq_true, decide_eq_true_eq] at both
      exact unasked (both.1 ▸ both.2)

/-- The advertisements of a reference that is asked for. -/
theorem advertised_own (prints : Prints remote symref patterns lines) {name : String}
    (plain : '^' ∉ name.toList) (asked : asks patterns name = true) :
    advertised ((lines.filterMap Line.object?).map advertisement) name =
      ((remote.find name).map fun ref => ⟨ref.id.hex, ref.name⟩).toList := by
  have whole := advertised_perm prints name
  rw [if_pos asked, Remote.objects, (filter_objects remote.all_names.1 remote.all_names.2 plain).1]
    at whole
  refine eq_toList_of_perm (whole.trans (.of_eq ?_))
  rw [Remote.find]
  cases remote.all.find? fun ref => ref.name = name <;> rfl

/-- The advertisements of what a reference peels to. -/
theorem advertised_peeledName (prints : Prints remote symref patterns lines) {name : String}
    (plain : '^' ∉ name.toList) :
    advertised ((lines.filterMap Line.object?).map advertisement) (peeledName name) =
      if asks patterns (peeledName name) then
        (((remote.find name).bind (·.peeled)).map fun commit =>
          ⟨commit.hex, peeledName name⟩).toList
      else [] := by
  have whole := advertised_perm prints (peeledName name)
  split
  · next asked =>
    rw [if_pos asked, Remote.objects,
      (filter_objects remote.all_names.1 remote.all_names.2 plain).2] at whole
    refine eq_toList_of_perm (whole.trans (.of_eq ?_))
    rw [Remote.find]
    cases (remote.all.find? fun ref => ref.name = name).bind (·.peeled) <;> rfl
  · next unasked =>
    rw [if_neg unasked] at whole
    exact List.perm_nil.mp whole

/-- A name of what is peeled is not asked for by a pattern without a caret. -/
theorem asks_peeledName_eq_false {pattern name : String} (plain : '^' ∉ pattern.toList)
    (long : 3 ≤ pattern.toList.length) : asks [pattern] (peeledName name) = false := by
  have carets : ∀ text : List Char, text <:+ (peeledName name).toList → 3 ≤ text.length →
      '^' ∈ text := by
    intro text ends enough
    have marker : ['^', '{', '}'] <:+ (peeledName name).toList := by simp [peeledName]
    exact (List.suffix_of_suffix_length_le marker ends enough).subset List.mem_cons_self
  simp only [asks, List.any_cons, List.any_nil, Bool.or_false, Bool.or_eq_false_iff,
    decide_eq_false_iff_not]
  constructor
  · rintro equal
    exact plain (carets _ (by simp [equal]) long)
  · intro ends
    have inside := carets pattern.toList
      ((by rw [String.toList_append]; exact List.suffix_append _ _ :
        pattern.toList <:+ ("/" ++ pattern).toList).trans ends) long
    exact plain inside

/-- A pattern asks for its own name. -/
theorem asks_of_mem {pattern : String} (member : pattern ∈ patterns) :
    asks patterns pattern = true := by
  simp only [asks, List.any_eq_true]
  exact ⟨pattern, member, by simp⟩

/-- The advertisement that stands for a reference when its peeled name is asked for. -/
def peeledAdvertisement (ref : Ref) : Advertisement :=
  ⟨ref.commit.hex, if ref.peeled.isSome then peeledName ref.name else ref.name⟩

/-- The name of a found reference. -/
theorem name_of_find {name : String} {ref : Ref} (found : remote.find name = some ref) :
    ref.name = name := by
  simpa using List.find?_some found

/-- The advertisement that is selected for a reference whose peeled name is asked for. -/
theorem advertisedPeeled_asked (prints : Prints remote symref patterns lines) {name : String}
    (plain : '^' ∉ name.toList) (own : asks patterns name = true)
    (asked : asks patterns (peeledName name) = true) :
    advertisedPeeled ((lines.filterMap Line.object?).map advertisement) name =
      ((remote.find name).map peeledAdvertisement).toList := by
  rw [advertisedPeeled, advertised_peeledName prints plain, if_pos asked,
    advertised_own prints plain own]
  cases found : remote.find name with
  | none => rfl
  | some ref =>
    have named := name_of_find found
    cases tag : ref.peeled <;> simp [peeledAdvertisement, Ref.commit, tag, named]

/-- The advertisement that is selected for a reference whose peeled name is not asked for. -/
theorem advertisedPeeled_unasked (prints : Prints remote symref patterns lines) {name : String}
    (plain : '^' ∉ name.toList) (own : asks patterns name = true)
    (unasked : asks patterns (peeledName name) = false) :
    advertisedPeeled ((lines.filterMap Line.object?).map advertisement) name =
      ((remote.find name).map fun ref => ⟨ref.id.hex, ref.name⟩).toList := by
  rw [advertisedPeeled, advertised_peeledName prints plain, unasked,
    advertised_own prints plain own]
  simp

/-- One advertisement is resolved as its object id. -/
theorem uniqueCommit_singleton (commit : GitCommitId) (reference : String) :
    uniqueCommit [⟨commit.hex, reference⟩] = .ok commit := by
  simp only [uniqueCommit, new_hex]
  rfl

/-- The commit that the backend finds for a reference. -/
def foundCommit (selector : GitSelector) (ref : Ref) : GitCommitId :=
  if asksPeeled selector ref then ref.commit else ref.id

/-- The outcome for the references that a selector names. -/
def outcome (selector : GitSelector) : List Ref → Except GitError GitCommitId
  | [] => .error .selectorNotFound
  | [ref] => .ok (foundCommit selector ref)
  | _ :: _ :: _ => .error .selectorAmbiguous

/-- A branch and a tag have different names, also when the tag is peeled. -/
theorem branch_ne_tag (name other : String) : "refs/heads/" ++ name ≠ "refs/tags/" ++ other := by
  intro equal
  have texts := congrArg String.toList equal
  simp at texts

/-- A checked component is itself, and has no forbidden characters. -/
theorem checkedRefComponent_eq_ok {value result : String}
    (checked : checkedRefComponent value = .ok result) :
    result = value ∧ ∀ character ∈ value.toList, character ∉ forbiddenCharacters := by
  unfold checkedRefComponent at checked
  dsimp only at checked
  split at checked
  · cases checked
  · next clean =>
    split at checked
    · cases checked
    · refine ⟨(Except.ok.inj checked).symm, fun character member forbidden => clean ?_⟩
      refine .inr (.inr (.inr (.inr (.inr (.inr (.inr (.inr (.inr (.inr (.inl ?_))))))))))
      exact List.any_eq_true.mpr ⟨character, member, decide_eq_true forbidden⟩

/-- The patterns that a selector asks for. -/
def requested : GitSelector → List String
  | .defaultBranch => ["HEAD"]
  | .branch name => ["refs/heads/" ++ name]
  | .tag name => ["refs/tags/" ++ name, peeledName ("refs/tags/" ++ name)]
  | .rev revision =>
    if isFullReference revision then [revision]
    else ["refs/heads/" ++ revision, "refs/tags/" ++ revision,
      peeledName ("refs/tags/" ++ revision)]

/-- The characters of a literal text are not forbidden. -/
theorem forbidden_of_append {literal name : String}
    (plain : ∀ character ∈ literal.toList, character ∉ forbiddenCharacters)
    (clean : ∀ character ∈ name.toList, character ∉ forbiddenCharacters) :
    ∀ character ∈ (literal ++ name).toList, character ∉ forbiddenCharacters := by
  intro character member
  rw [String.toList_append] at member
  exact (List.mem_append.mp member).elim (plain character) (clean character)

/-- A selector that passes its check asks for its patterns, and the references that it may mean have
names without forbidden characters. -/
theorem askedRefs_eq_ok {selector : GitSelector} {asked : Bool × List String}
    (noObjectId : fullObjectId selector = none) (checked : askedRefs selector = .ok asked) :
    asked.2 = requested selector ∧ ∀ name ∈ meant selector, 3 ≤ name.toList.length ∧
      ∀ character ∈ name.toList, character ∉ forbiddenCharacters := by
  have heads : ∀ character ∈ "refs/heads/".toList, character ∉ forbiddenCharacters :=
    List.all_iff_forall_prop.mp (by decide)
  have tags : ∀ character ∈ "refs/tags/".toList, character ∉ forbiddenCharacters :=
    List.all_iff_forall_prop.mp (by decide)
  have root : ∀ character ∈ "refs/".toList, character ∉ forbiddenCharacters :=
    List.all_iff_forall_prop.mp (by decide)
  have longHeads : ∀ name : String, 3 ≤ ("refs/heads/" ++ name).toList.length := fun name => by simp
  have longTags : ∀ name : String, 3 ≤ ("refs/tags/" ++ name).toList.length := fun name => by simp
  cases selector with
  | defaultBranch =>
    cases checked
    have head : ∀ character ∈ "HEAD".toList, character ∉ forbiddenCharacters :=
      List.all_iff_forall_prop.mp (by decide)
    exact ⟨rfl, List.forall_mem_singleton.mpr ⟨by decide, head⟩⟩
  | branch name =>
    obtain ⟨value, found, result⟩ := bind_eq_ok.mp checked
    obtain ⟨rfl, clean⟩ := checkedRefComponent_eq_ok found
    cases result
    refine ⟨rfl, fun other member => ?_⟩
    rw [List.mem_singleton.mp member]
    exact ⟨longHeads _, forbidden_of_append heads clean⟩
  | tag name =>
    obtain ⟨value, found, result⟩ := bind_eq_ok.mp checked
    obtain ⟨rfl, clean⟩ := checkedRefComponent_eq_ok found
    cases result
    refine ⟨rfl, fun other member => ?_⟩
    rw [List.mem_singleton.mp member]
    exact ⟨longTags _, forbidden_of_append tags clean⟩
  | rev revision =>
    obtain ⟨refspec, found, result⟩ := bind_eq_ok.mp checked
    have noCommit : ¬ (GitCommitId.new revision).isOk = true := by
      intro succeeds
      obtain ⟨commit, read⟩ := exists_of_isOk succeeds
      simp [fullObjectId, read, Except.toOption] at noObjectId
    rw [checkedRevision, if_neg noCommit] at found
    by_cases full : isFullReference revision = true
    · rw [if_pos full] at found
      obtain ⟨value, component, refspecs⟩ := bind_eq_ok.mp found
      obtain ⟨-, clean⟩ := checkedRefComponent_eq_ok component
      cases refspecs
      cases result
      have whole : revision.toList = "refs/".toList ++ revision.toList.drop 5 := by
        obtain ⟨rest, same⟩ := of_decide_eq_true full
        rw [← same]
        rfl
      refine ⟨by simp only [requested, if_pos full], fun other member => ?_⟩
      rw [meant, if_pos full] at member
      rw [List.mem_singleton.mp member, whole]
      refine ⟨by simp, fun character member => ?_⟩
      rcases List.mem_append.mp member with member | member
      · exact root character member
      · exact clean character (by simpa using member)
    · rw [if_neg full] at found
      obtain ⟨value, component, refspecs⟩ := bind_eq_ok.mp found
      obtain ⟨-, clean⟩ := checkedRefComponent_eq_ok component
      cases refspecs
      cases result
      refine ⟨by simp only [requested, if_neg full], fun other member => ?_⟩
      rw [meant, if_neg full] at member
      rcases List.mem_cons.mp member with rfl | member
      · exact ⟨longHeads _, forbidden_of_append heads clean⟩
      · rw [List.mem_singleton.mp member]
        exact ⟨longTags _, forbidden_of_append tags clean⟩

/-- A selector is resolved among the advertisements of what its references stand for. -/
theorem selectAdvertisedCommit_eq {selector : GitSelector}
    (noObjectId : fullObjectId selector = none)
    (plain : ∀ name ∈ meant selector, 3 ≤ name.toList.length ∧ '^' ∉ name.toList)
    (prints : Prints remote symref (requested selector) lines) :
    selectAdvertisedCommit ((lines.filterMap Line.object?).map advertisement) selector =
      outcome selector (namedRefs remote selector) := by
  cases selector with
  | defaultBranch =>
    have name := (plain "HEAD" List.mem_cons_self).2
    rw [selectAdvertisedCommit, advertised_own prints name (asks_of_mem List.mem_cons_self),
      namedRefs, meant]
    cases found : remote.find "HEAD" with
    | none => simp [found, uniqueCommit, outcome]
    | some ref => simp [found, uniqueCommit_singleton, outcome, foundCommit, asksPeeled]
  | branch branch =>
    have name := (plain ("refs/heads/" ++ branch) List.mem_cons_self).2
    rw [selectAdvertisedCommit, advertised_own prints name (asks_of_mem List.mem_cons_self),
      namedRefs, meant]
    cases found : remote.find ("refs/heads/" ++ branch) with
    | none => simp [found, uniqueCommit, outcome]
    | some ref => simp [found, uniqueCommit_singleton, outcome, foundCommit, asksPeeled]
  | tag tag =>
    have name := (plain ("refs/tags/" ++ tag) List.mem_cons_self).2
    rw [selectAdvertisedCommit, advertisedPeeled_asked prints name
      (asks_of_mem List.mem_cons_self) (asks_of_mem (List.mem_cons_of_mem _ List.mem_cons_self)),
      namedRefs, meant]
    cases found : remote.find ("refs/tags/" ++ tag) with
    | none => simp [found, uniqueCommit, outcome]
    | some ref =>
      simp [found, peeledAdvertisement, uniqueCommit_singleton, outcome, foundCommit, asksPeeled]
  | rev revision =>
    have noCommit : ∃ cause, GitCommitId.new revision = .error cause := by
      cases read : GitCommitId.new revision with
      | ok commit => simp [fullObjectId, read, Except.toOption] at noObjectId
      | error cause => exact ⟨cause, rfl⟩
    obtain ⟨cause, failed⟩ := noCommit
    rw [selectAdvertisedCommit, failed]
    simp only [requested, meant, namedRefs] at prints plain ⊢
    by_cases full : isFullReference revision = true
    · simp only [if_pos full] at prints plain ⊢
      obtain ⟨long, name⟩ := plain revision List.mem_cons_self
      rw [advertisedPeeled_unasked prints name (asks_of_mem List.mem_cons_self)
        (asks_peeledName_eq_false name long)]
      cases found : remote.find revision with
      | none => simp [found, uniqueCommit, outcome]
      | some ref => simp [found, uniqueCommit_singleton, outcome, foundCommit, asksPeeled, full]
    · simp only [if_neg full] at prints plain ⊢
      have branch := (plain ("refs/heads/" ++ revision) List.mem_cons_self).2
      have tag := (plain ("refs/tags/" ++ revision)
        (List.mem_cons_of_mem _ List.mem_cons_self)).2
      rw [advertised_own prints branch (asks_of_mem List.mem_cons_self),
        advertisedPeeled_asked prints tag (asks_of_mem (List.mem_cons_of_mem _ List.mem_cons_self))
          (asks_of_mem (List.mem_cons_of_mem _ (List.mem_cons_of_mem _ List.mem_cons_self)))]
      have apart := branch_ne_tag revision revision
      cases head : remote.find ("refs/heads/" ++ revision) with
      | none =>
        cases tagged : remote.find ("refs/tags/" ++ revision) with
        | none => simp [head, tagged, uniqueCommit, outcome]
        | some ref =>
          have named := name_of_find tagged
          simp [head, tagged, peeledAdvertisement, uniqueCommit_singleton, outcome, foundCommit,
            asksPeeled, full, named]
      | some ref =>
        have named := name_of_find head
        cases tagged : remote.find ("refs/tags/" ++ revision) with
        | none =>
          simp [head, tagged, uniqueCommit_singleton, outcome, foundCommit, asksPeeled, named, apart]
        | some other =>
          have otherNamed := name_of_find tagged
          have peeledApart : peeledName ("refs/tags/" ++ revision) ≠ "refs/heads/" ++ revision := by
            rw [peeledName, String.append_assoc]
            exact (branch_ne_tag _ _).symm
          simp only [head, tagged, Option.map_some, Option.toList_some, List.singleton_append,
            uniqueCommit, peeledAdvertisement, named, otherNamed, outcome, List.filterMap_cons,
            List.filterMap_nil]
          cases other.peeled <;> simp [apart.symm, peeledApart]

end Selecting

/-! ## The meaning of a selector -/

/-- The patterns of a selector have no wildcards. -/
theorem wildcardFree_requested {selector : GitSelector}
    (clean : ∀ name ∈ meant selector, ∀ character ∈ name.toList, character ∉ forbiddenCharacters) :
    ∀ pattern ∈ requested selector, WildcardFree pattern := by
  have wildcards : ∀ character ∈ ['*', '?', '[', '\\'], character ∈ forbiddenCharacters :=
    List.all_iff_forall_prop.mp (by decide)
  have suffix : ∀ character ∈ "^{}".toList, character ∉ ['*', '?', '[', '\\'] :=
    List.all_iff_forall_prop.mp (by decide)
  have own : ∀ name ∈ meant selector, WildcardFree name := fun name member character inside wild =>
    clean name member character inside (wildcards character wild)
  have peeled : ∀ name ∈ meant selector, WildcardFree (peeledName name) := by
    intro name member character inside
    rw [peeledName, String.toList_append] at inside
    exact (List.mem_append.mp inside).elim (own name member character) (suffix character)
  intro pattern member
  cases selector with
  | defaultBranch => exact own pattern member
  | branch name => exact own pattern member
  | tag name =>
    simp only [requested, List.mem_cons, List.not_mem_nil, or_false] at member
    rcases member with rfl | rfl
    · exact own _ List.mem_cons_self
    · exact peeled _ List.mem_cons_self
  | rev revision =>
    simp only [requested, meant] at member own peeled
    split at member
    · next full =>
      rw [if_pos full] at own
      exact own pattern member
    · next short =>
      rw [if_neg short] at own peeled
      simp only [List.mem_cons, List.not_mem_nil, or_false] at member
      rcases member with rfl | rfl | rfl
      · exact own _ List.mem_cons_self
      · exact own _ (List.mem_cons_of_mem _ List.mem_cons_self)
      · exact peeled _ (List.mem_cons_of_mem _ List.mem_cons_self)

/-- The backend finds the commit of the one named reference, as far as its patterns ask for it. -/
theorem resolve_eq {backend : Backend} {url : NormalizedGitUrl} {remote : Remote}
    {selector : GitSelector} (reachable : validateUrl url = .ok ())
    (advertises : Advertises backend url remote) (selectable : Selectable selector) :
    resolve backend url selector = outcome selector (namedRefs remote selector) := by
  obtain ⟨noObjectId, asked, checked⟩ := selectable
  obtain ⟨patterns, names⟩ := askedRefs_eq_ok noObjectId checked
  have wildcardFree : ∀ pattern ∈ asked.2, WildcardFree pattern := by
    rw [patterns]
    exact wildcardFree_requested fun name member => (names name member).2
  obtain ⟨lines, stderr, prints, ran⟩ := advertises asked.1 asked.2 wildcardFree
  have read : runLsRemote backend url asked.1 asked.2 =
      .ok ((lines.filterMap Line.object?).map advertisement) := by
    rw [runLsRemote, runChecked, ran]
    exact parseAdvertisement_printed prints
  rw [resolve, reachable, ok_bind, noObjectId, checked]
  simp only [ok_bind, read]
  rw [patterns] at prints
  exact selectAdvertisedCommit_eq noObjectId
    (fun name member => ⟨(names name member).1, fun inside =>
      (names name member).2 '^' inside (by decide)⟩) prints

/-- The backend resolves a selector as what it means exactly when, if the selector names one
reference and that is an annotated tag, the patterns ask for what the tag peels to. -/
theorem resolvesMeaning_iff {backend : Backend} {url : NormalizedGitUrl} {remote : Remote}
    {selector : GitSelector} (reachable : validateUrl url = .ok ())
    (advertises : Advertises backend url remote) (selectable : Selectable selector) :
    ResolvesMeaning remote selector (resolve backend url selector) ↔
      ∀ ref, namedRefs remote selector = [ref] → ref.peeled ≠ none →
        asksPeeled selector ref = true ∨ ref.peeled = some ref.id := by
  rw [resolve_eq reachable advertises selectable]
  have same : ∀ ref : Ref, foundCommit selector ref = ref.commit ↔
      (ref.peeled ≠ none → asksPeeled selector ref = true ∨ ref.peeled = some ref.id) := by
    intro ref
    rw [foundCommit]
    cases asksPeeled selector ref with
    | true => simp
    | false =>
      cases tag : ref.peeled with
      | none => simp [Ref.commit, tag]
      | some commit => simp [Ref.commit, tag, eq_comm]
  constructor
  · intro means ref named tagged
    refine (same ref).mp ?_ tagged
    obtain ⟨other, alone, commit⟩ :=
      (means.resolved (foundCommit selector ref)).mp (by rw [named]; rfl)
    rw [named, List.singleton_inj] at alone
    rw [alone] at commit ⊢
    exact commit
  · intro asked
    match named : namedRefs remote selector with
    | [] =>
      exact ⟨fun commit => by simp [outcome, named], fun _ => rfl,
        fun more => by simp [named] at more⟩
    | [ref] =>
      refine ⟨fun commit => ?_, fun missing => by simp [named] at missing,
        fun more => by simp [named] at more⟩
      have found := (same ref).mpr (asked ref named)
      simp only [outcome, found, named, Except.ok.injEq, List.singleton_inj, exists_eq_left',
        eq_comm]
    | first :: second :: rest =>
      exact ⟨fun commit => by simp [outcome, named], fun missing => by simp [named] at missing,
        fun _ => rfl⟩

namespace Small

/-- The object id of an annotated tag is stored as itself. -/
theorem tagObject_valid : GitCommitId.read "aaaaaaaaaaaaaaaaaaaaaaaaaaaaaaaaaaaaaaaa" =
    .ok (.sha1, "aaaaaaaaaaaaaaaaaaaaaaaaaaaaaaaaaaaaaaaa") := by
  decide +kernel

/-- The object of an annotated tag. -/
def tagObject : GitCommitId := ⟨.sha1, "aaaaaaaaaaaaaaaaaaaaaaaaaaaaaaaaaaaaaaaa", tagObject_valid⟩

/-- The commit that the tag stands for. -/
def taggedCommit : GitCommitId :=
  ⟨.sha1, "bbbbbbbbbbbbbbbbbbbbbbbbbbbbbbbbbbbbbbbb", by decide +kernel⟩

/-- A remote with one annotated tag. -/
def remote : Remote where
  refs := [⟨"refs/tags/v1.0", tagObject, some taggedCommit⟩]
  head := none
  distinct := by decide
  named := by
    intro ref member
    rw [List.mem_singleton.mp member]
    exact ⟨by decide, List.all_iff_forall_prop.mp (by decide)⟩

/-- Where the remote is. -/
def url : NormalizedGitUrl := ⟨"https://git.example/tool"⟩

/-- The patterns among the arguments for the remote. -/
def patternsOf (args : List String) : List String := (args.dropWhile (· ≠ url.text)).drop 1

/-- A backend whose program advertises the remote. -/
def backend : Backend where
  executable := "git"
  run := fun command => .ok ⟨some 0, printed ((remote.objects.filter fun object =>
    asks (patternsOf command.args) object.2).map fun object => .object object.1 object.2), []⟩
  nullDevice := "/dev/null"
  fromUtf8Lossy := fun _ => ""

/-- The program advertises the remote. -/
theorem backend_advertises : Advertises backend url remote := by
  intro symref patterns _
  have found : patternsOf (lsRemoteArgs backend url symref patterns) = patterns := by
    cases symref <;> rfl
  refine ⟨_, [], ⟨?_, ?_⟩, rfl⟩
  · rw [List.filterMap_map, found]
    exact .of_eq List.filterMap_some
  · intro target name member
    obtain ⟨object, -, clash⟩ := List.mem_map.mp member
    cases clash

end Small

/-- A tag is resolved as the commit that it stands for. -/
theorem resolvesMeaning_tag :
    ResolvesMeaning Small.remote (.tag "v1.0")
      (resolve Small.backend Small.url (.tag "v1.0")) :=
  (resolvesMeaning_iff (by decide) Small.backend_advertises
    ⟨rfl, (false, ["refs/tags/v1.0", "refs/tags/v1.0^{}"]), by decide⟩).mpr
      fun _ _ _ => .inl rfl

/-- The same tag by its full name is resolved as the object of the tag. -/
theorem not_resolvesMeaning :
    validateUrl Small.url = .ok () ∧ Advertises Small.backend Small.url Small.remote ∧
      Selectable (.rev "refs/tags/v1.0") ∧
      ¬ ResolvesMeaning Small.remote (.rev "refs/tags/v1.0")
        (resolve Small.backend Small.url (.rev "refs/tags/v1.0")) := by
  have reachable : validateUrl Small.url = .ok () := by decide
  have selectable : Selectable (.rev "refs/tags/v1.0") :=
    ⟨by decide +kernel, (false, ["refs/tags/v1.0"]), by decide +kernel⟩
  refine ⟨reachable, Small.backend_advertises, selectable, fun means => ?_⟩
  rw [resolve_eq reachable Small.backend_advertises selectable] at means
  have named : namedRefs Small.remote (.rev "refs/tags/v1.0") =
      [⟨"refs/tags/v1.0", Small.tagObject, some Small.taggedCommit⟩] := by decide
  obtain ⟨ref, alone, commit⟩ := (means.resolved Small.tagObject).mp (by rw [named]; decide)
  rw [named, List.singleton_inj] at alone
  rw [← alone] at commit
  exact absurd commit (by decide)

end Rsolve.SourceControl
