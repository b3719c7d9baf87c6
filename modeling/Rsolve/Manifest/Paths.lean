import Rsolve.Lib.Segments
import Rsolve.Lib.Walks
import Rsolve.Manifest.Compose

/-!
# Normalized paths of a manifest

A manifest names a subdirectory of a source repository and a path to a local source. Both are
normalized by walking through their components. The forms they take are checked on the text before
the walk, and a component that the walk brings to the front may have a form that was not there.
-/
open Checked Walks

namespace Rsolve

/-- What a path component does. -/
def componentMove (component : List Char) : Move :=
  if component = [] ∨ component = ['.'] then .stay
  else if component = ['.', '.'] then .up
  else .down

/-- The components of a path. -/
def pathComponents (characters : List Char) : List (List Char) :=
  characters.splitOnP (· == '/')

section Components

variable {component : List Char} {parts : List (List Char)}

/-- A component that goes down is a name. -/
theorem componentMove_eq_down : componentMove component = .down ↔
    component ≠ [] ∧ component ≠ ['.'] ∧ component ≠ ['.', '.'] := by
  unfold componentMove
  split
  · next dots => simp only [reduceCtorEq, false_iff]; tauto
  · next named =>
    split
    · next dots => simp only [reduceCtorEq, false_iff]; tauto
    · next other => simp only [true_iff]; tauto

/-- No component of a path has a slash. -/
theorem notMem_of_mem_pathComponents {characters : List Char}
    (member : component ∈ pathComponents characters) : '/' ∉ component := by
  rw [pathComponents, ← List.splitOn_eq_splitOnP] at member
  exact Segments.notMem_of_mem_splitOn member

/-- The characters of joined components. -/
theorem toList_joinPath (parts : List (List Char)) :
    (joinPath parts).toList = ['/'].intercalate parts := by
  simp [joinPath, String.toList_intercalate, Function.comp_def]

/-- Joined components are cut into themselves. -/
theorem pathComponents_joinPath (nonempty : parts ≠ [])
    (clean : ∀ part ∈ parts, '/' ∉ part) : pathComponents (joinPath parts).toList = parts := by
  rw [toList_joinPath]
  refine Decimal.splitOnP_intercalate _ '/' rfl nonempty fun part member item inside => ?_
  exact beq_eq_false_iff_ne.mpr fun slash => clean part member (slash ▸ inside)

/-- A path of names begins with the first of them. -/
theorem head?_joinPath {first : List Char} {rest : List (List Char)} (filled : first ≠ []) :
    (joinPath (first :: rest)).toList.head? = first.head? := by
  rw [toList_joinPath]
  cases rest with
  | nil => simp
  | cons second rest =>
    rw [List.intercalate_cons_cons, List.append_assoc, List.head?_append_of_ne_nil _ filled]

/-- The characters of joined components are slashes or from a component. -/
theorem mem_joinPath {character : Char} (member : character ∈ (joinPath parts).toList) :
    character = '/' ∨ ∃ part ∈ parts, character ∈ part :=
  Decimal.mem_intercalate (toList_joinPath parts ▸ member)

/-- The characters of a component are characters of the path. -/
theorem mem_of_mem_pathComponents {characters : List Char} {character : Char}
    (member : component ∈ pathComponents characters) (inside : character ∈ component) :
    character ∈ characters := by
  rw [pathComponents, ← List.splitOn_eq_splitOnP] at member
  exact Segments.mem_of_mem_splitOn member inside

/-- The names of the components of a path. -/
structure Named (parts : List (List Char)) : Prop where
  down : ∀ part ∈ parts, componentMove part = .down
  clean : ∀ part ∈ parts, '/' ∉ part

/-- What a walk over the components of a path comes to are names. -/
theorem named_walk (characters : List Char) :
    Named (walk componentMove .start (pathComponents characters)).names.reverse := by
  constructor
  all_goals
    intro part member
    rcases mem_names_walk (List.mem_reverse.mp member) with start | ⟨inside, down⟩
  · cases start
  · exact down
  · cases start
  · exact notMem_of_mem_pathComponents inside

/-- The loop over the components of a subdirectory walks through them, and fails when it would leave
the start. -/
theorem subdirectoryParts_eq_ok {components result : List (List Char)} :
    subdirectoryParts parts components = .ok result ↔
      (walk componentMove ⟨0, parts⟩ components).above = 0 ∧
        result = (walk componentMove ⟨0, parts⟩ components).names.reverse := by
  induction components generalizing parts with
  | nil =>
    simp only [subdirectoryParts, walk_nil, Except.ok.injEq, true_and]
    exact eq_comm
  | cons component components ih =>
    simp only [subdirectoryParts, walk_cons]
    by_cases stays : component = [] ∨ component = ['.']
    · have moves : componentMove component = .stay := if_pos stays
      rw [if_pos stays, step_stay moves, ih]
    · rw [if_neg stays]
      by_cases up : component = ['.', '.']
      · have moves : componentMove component = .up := (if_neg stays).trans (if_pos up)
        rw [if_pos up]
        cases parts with
        | nil =>
          have left := @above_le_walk _ componentMove ⟨0 + 1, []⟩ components
          rw [step_up_nil moves]
          constructor
          · exact nofun
          · rintro ⟨stayed, -⟩
            rw [stayed] at left
            exact absurd left (by simp)
        | cons part parts =>
          rw [step_up_cons moves]
          exact ih
      · have moves : componentMove component = .down := (if_neg stays).trans (if_neg up)
        rw [if_neg up, step_down moves, ih]

end Components

section Subdirectories

variable {value normalized : String}

/-- The texts that `normalize_relative_subdirectory` walks through. -/
structure RelativePath (value : String) : Prop where
  filled : value.toList ≠ []
  relative : value.toList.head? ≠ some '/'
  slashes : '\\' ∉ value.toList
  printable : value.toList.all (fun character => !isControl character) = true

/-- The texts that are normalized, and what they are normalized to. -/
theorem normalizeRelativeSubdirectory_eq_ok :
    normalizeRelativeSubdirectory value = .ok normalized ↔ RelativePath value ∧
      let reached := walk componentMove .start (pathComponents value.toList)
      reached.above = 0 ∧ reached.names ≠ [] ∧ normalized = joinPath reached.names.reverse := by
  simp only [normalizeRelativeSubdirectory, bind_eq_ok, ensure_eq_ok, subdirectoryParts_eq_ok, pure,
    Except.pure, Except.ok.injEq]
  constructor
  · rintro ⟨_, ⟨filled, relative, slashes⟩, _, printable, parts, ⟨above, rfl⟩, _, nonempty, rfl⟩
    exact ⟨⟨filled, relative, slashes, printable⟩, above, fun nothing => nonempty (by
      rw [← pathComponents, ← Position.start, nothing, List.reverse_nil]), rfl⟩
  · rintro ⟨⟨filled, relative, slashes, printable⟩, above, nonempty, rfl⟩
    exact ⟨(), ⟨filled, relative, slashes⟩, (), printable, _, ⟨above, rfl⟩, (),
      fun nothing => nonempty (List.reverse_eq_nil_iff.mp nothing), rfl⟩

/-- The names that a text is normalized to are names of it, whose characters are as the text's. -/
theorem clean_of_mem_walk {characters component : List Char}
    (member : component ∈ (walk componentMove .start (pathComponents characters)).names)
    {character : Char} (inside : character ∈ component) : character ∈ characters := by
  rcases mem_names_walk member with start | ⟨there, -⟩
  · cases start
  · exact mem_of_mem_pathComponents there inside

/-- A path of names is walked through to these names. -/
theorem walk_joinPath {parts : List (List Char)} (named : Named parts) (nonempty : parts ≠ []) :
    walk componentMove .start (pathComponents (joinPath parts).toList) = ⟨0, parts.reverse⟩ := by
  rw [pathComponents_joinPath nonempty named.clean, walk_downs named.down]
  exact Position.ext rfl (List.append_nil _)

/-- A path of names without backslashes and control characters is relative. -/
theorem relativePath_joinPath {parts : List (List Char)} (named : Named parts)
    (nonempty : parts ≠ []) (slashes : ∀ part ∈ parts, '\\' ∉ part)
    (printable : ∀ part ∈ parts, ∀ character ∈ part, isControl character = false) :
    RelativePath (joinPath parts) := by
  obtain ⟨first, rest, rfl⟩ := List.exists_cons_of_ne_nil nonempty
  have filled := (componentMove_eq_down.mp (named.down first List.mem_cons_self)).1
  have head := @head?_joinPath first rest filled
  constructor
  · intro nothing
    rw [nothing] at head
    exact filled (List.head?_eq_none_iff.mp head.symm)
  · rw [head]
    intro slash
    exact named.clean first List.mem_cons_self (List.mem_of_head? slash)
  · intro backslash
    rcases mem_joinPath backslash with slash | ⟨part, member, inside⟩
    · cases slash
    · exact slashes part member inside
  · refine List.all_eq_true.mpr fun character member => ?_
    rcases mem_joinPath member with rfl | ⟨part, inside, there⟩
    · decide
    · rw [printable part inside character there, Bool.not_false]

/-- The loop of `RepositorySubdir::new` accepts names. -/
theorem checkComponents_named {parts : List (List Char)} (named : ∀ part ∈ parts,
    componentMove part = .down) (index : Nat) : checkComponents index parts = .ok () := by
  induction parts generalizing index with
  | nil => rfl
  | cons part parts ih =>
    obtain ⟨filled, dot, dots⟩ := componentMove_eq_down.mp (named part List.mem_cons_self)
    rw [checkComponents, if_neg filled, if_neg dot, if_neg dots]
    exact ih (fun other member => named other (List.mem_cons_of_mem _ member)) (index + 1)

/-- Printable characters have no first control character. -/
theorem firstControl_eq_none {characters : List Char}
    (printable : characters.all (fun character => !isControl character) = true) (offset : Nat) :
    firstControl offset characters = none := by
  induction characters generalizing offset with
  | nil => rfl
  | cons character rest ih =>
    simp only [List.all_cons, Bool.and_eq_true, Bool.not_eq_true'] at printable
    rw [firstControl, printable.1, if_neg (by decide)]
    exact ih printable.2 _

/-- A relative path of names is a subdirectory exactly when the first of them has no drive prefix. -/
theorem check_joinPath_iff {first : List Char} {rest : List (List Char)}
    (named : Named (first :: rest)) (relative : RelativePath (joinPath (first :: rest))) :
    RepositorySubdir.check (joinPath (first :: rest)) = .ok () ↔ hasDrivePrefix first = false := by
  have components : (joinPath (first :: rest)).toList.splitOn '/' = first :: rest :=
    pathComponents_joinPath (List.cons_ne_nil _ _) named.clean
  have filled : (joinPath (first :: rest)).isEmpty = false := by
    rw [Bool.eq_false_iff]
    intro empty
    exact relative.filled (by simpa using empty)
  have head : ((joinPath (first :: rest)).toList.head? == some '/') = false :=
    beq_eq_false_iff_ne.mpr relative.relative
  have slashes : (joinPath (first :: rest)).toList.contains '\\' = false := by
    rw [Bool.eq_false_iff]
    exact fun backslash => relative.slashes (List.contains_iff_mem.mp backslash)
  unfold RepositorySubdir.check
  rw [filled, head, slashes, firstControl_eq_none relative.printable, components]
  simp only [Bool.false_eq_true, if_false]
  change (if hasDrivePrefix first = true then _ else checkComponents 0 (first :: rest)) = _ ↔ _
  by_cases drive : hasDrivePrefix first = true
  · rw [if_pos drive, drive]
    exact ⟨nofun, nofun⟩
  · rw [if_neg drive, checkComponents_named named.down]
    exact ⟨fun _ => Bool.eq_false_iff.mpr drive, fun _ => rfl⟩

/-- The texts that are subdirectories. -/
theorem RepositorySubdir.exists_new {text : String} :
    (∃ subdirectory, RepositorySubdir.new text = .ok subdirectory) ↔
      RepositorySubdir.check text = .ok () := by
  unfold RepositorySubdir.new
  split
  · next cause refused =>
    rw [refused]
    exact ⟨nofun, nofun⟩
  · next checked => exact ⟨fun _ => checked, fun _ => ⟨_, rfl⟩⟩

/-- The first component of a subdirectory that remains has a Windows drive prefix. -/
def RemainingDrive (value : String) : Prop :=
  ∃ first, Foremost componentMove (pathComponents value.toList) first ∧ hasDrivePrefix first = true

/-- A normalized subdirectory is normalized to itself and can be stored, exactly when the first of its
components that remains has no drive prefix. -/
theorem normalizeRelativeSubdirectory_stored_iff (value normalized : String)
    (accepted : normalizeRelativeSubdirectory value = .ok normalized) :
    (normalizeRelativeSubdirectory normalized = .ok normalized ∧
      ∃ subdirectory, RepositorySubdir.new normalized = .ok subdirectory) ↔
    ¬ RemainingDrive value := by
  obtain ⟨relative, above, nonempty, rfl⟩ := normalizeRelativeSubdirectory_eq_ok.mp accepted
  have named := named_walk value.toList
  have origin : ∀ component ∈ (walk componentMove .start (pathComponents value.toList)).names,
      ∀ character ∈ component, character ∈ value.toList :=
    fun _ member _ there => clean_of_mem_walk member there
  have foremost := fun first => @foremost_iff _ componentMove (pathComponents value.toList) first
  generalize reached : walk componentMove .start (pathComponents value.toList) = position
    at above nonempty named origin foremost
  obtain ⟨first, rest, parts⟩ :=
    List.exists_cons_of_ne_nil (fun nothing => nonempty (List.reverse_eq_nil_iff.mp nothing))
  have last : position.names.getLast? = some first := by
    rw [List.getLast?_eq_head?_reverse, parts, List.head?_cons]
  have inside : ∀ part ∈ first :: rest, part ∈ position.names :=
    fun part member => List.mem_reverse.mp (parts ▸ member)
  rw [parts] at named
  have again : RelativePath (joinPath (first :: rest)) := by
    refine relativePath_joinPath named (List.cons_ne_nil _ _) (fun part member backslash => ?_)
      fun part member character there => ?_
    · exact relative.slashes (origin part (inside part member) _ backslash)
    · have printable := List.all_eq_true.mp relative.printable character
        (origin part (inside part member) _ there)
      simpa using printable
  have fixed : normalizeRelativeSubdirectory (joinPath (first :: rest)) =
      .ok (joinPath (first :: rest)) := by
    refine normalizeRelativeSubdirectory_eq_ok.mpr ⟨again, ?_⟩
    rw [walk_joinPath named (List.cons_ne_nil _ _)]
    exact ⟨rfl, by simp, by rw [List.reverse_reverse]⟩
  rw [parts]
  have stored : (∃ subdirectory, RepositorySubdir.new (joinPath (first :: rest)) =
      .ok subdirectory) ↔ hasDrivePrefix first = false := by
    rw [← check_joinPath_iff named again, RepositorySubdir.exists_new]
  rw [stored, RemainingDrive]
  constructor
  · rintro ⟨-, plain⟩ ⟨other, remains, drive⟩
    obtain ⟨-, lastOther⟩ := (foremost other).mp remains
    obtain rfl := Option.some.inj (last.symm.trans lastOther)
    rw [plain] at drive
    cases drive
  · intro plain
    refine ⟨fixed, Bool.eq_false_iff.mpr fun drive => plain ⟨first, ?_, drive⟩⟩
    exact (foremost first).mpr ⟨above, last⟩

/-- A subdirectory with dot segments is stored as what it is normalized to. -/
theorem normalizeRelativeSubdirectory_stored_plain :
    normalizeRelativeSubdirectory "r/./tests/../pkg" = .ok "r/pkg" ∧
      normalizeRelativeSubdirectory "r/pkg" = .ok "r/pkg" ∧
        ∃ subdirectory, RepositorySubdir.new "r/pkg" = .ok subdirectory := by
  have accepted : normalizeRelativeSubdirectory "r/./tests/../pkg" = .ok "r/pkg" := by
    decide +kernel
  refine ⟨accepted, (normalizeRelativeSubdirectory_stored_iff _ _ accepted).mpr ?_⟩
  rintro ⟨first, remains, drive⟩
  have last := (foremost_iff.mp remains).2
  have only : (walk componentMove .start
      (pathComponents "r/./tests/../pkg".toList)).names.getLast? = some "r".toList := by
    decide +kernel
  obtain rfl := Option.some.inj (only.symm.trans last)
  exact absurd drive (by decide +kernel)

/-- A subdirectory whose first component is a drive is normalized, and no release can be in it. -/
theorem not_normalizeRelativeSubdirectory_stored :
    normalizeRelativeSubdirectory "C:/pkg" = .ok "C:/pkg" ∧
      RepositorySubdir.new "C:/pkg" = .error .windowsDrivePrefix := by
  decide +kernel

end Subdirectories

section RequestedPaths

variable {value normalized : String}

/-- `str::replace` of backslashes by slashes. -/
def slashed (value : String) : List Char :=
  value.toList.map fun character => if character = '\\' then '/' else character

/-- The component that goes up. -/
def parentComponent : List Char := ['.', '.']

/-- The components of a position, last first. -/
def positionParts (position : Position (List Char)) : List (List Char) :=
  position.names ++ List.replicate position.above parentComponent

/-- The component that goes up does so. -/
theorem componentMove_parent : componentMove parentComponent = .up := rfl

/-- Only one component goes up. -/
theorem eq_of_componentMove_up {component : List Char} (up : componentMove component = .up) :
    component = parentComponent := by
  unfold componentMove at up
  split at up
  · cases up
  · split at up
    · assumption
    · cases up

/-- The loop over the components of a requested path walks through them. -/
theorem requestedPathParts_eq {components : List (List Char)} {position : Position (List Char)}
    (named : ∀ name ∈ position.names, componentMove name = .down) :
    requestedPathParts (positionParts position) components =
      positionParts (walk componentMove position components) := by
  induction components generalizing position with
  | nil => rfl
  | cons component components ih =>
    rw [walk_cons]
    obtain ⟨above, names⟩ := position
    cases moves : componentMove component with
    | stay =>
      have stays : component = [] ∨ component = ['.'] := by
        by_contra other
        unfold componentMove at moves
        rw [if_neg other] at moves
        split at moves <;> cases moves
      rw [step_stay moves, ← ih named]
      simp only [requestedPathParts, if_pos stays]
    | up =>
      obtain rfl := eq_of_componentMove_up moves
      have named' : ¬ (parentComponent = [] ∨ parentComponent = ['.']) := by decide
      cases names with
      | nil =>
        rw [step_up_nil moves]
        cases above with
        | zero => exact @ih ⟨1, []⟩ named
        | succ above => exact @ih ⟨above + 2, []⟩ named
      | cons name names =>
        have other : name ≠ parentComponent :=
          (componentMove_eq_down.mp (named name List.mem_cons_self)).2.2
        rw [step_up_cons moves, ← ih fun name member => named name (List.mem_cons_of_mem _ member)]
        exact (if_neg named').trans ((if_pos rfl).trans (if_neg other))
    | down =>
      obtain ⟨filled, dot, dots⟩ := componentMove_eq_down.mp moves
      have named' : ¬ (component = [] ∨ component = ['.']) := fun either => either.elim filled dot
      have down : ∀ name ∈ component :: names, componentMove name = .down := by
        intro name member
        rcases List.mem_cons.mp member with rfl | later
        · exact moves
        · exact named name later
      rw [step_down moves, ← ih down]
      simp only [requestedPathParts, if_neg named', if_neg dots]
      rfl

/-- The texts that `normalize_requested_path` walks through. -/
structure RequestedPath (characters : List Char) : Prop where
  relative : characters.head? ≠ some '/'
  drive : hasSecondColon characters = false
  printable : characters.all (fun character => !isControl character) = true

/-- The end of a walk as components of a path. -/
def pathOf (position : Position (List Char)) : List (List Char) :=
  List.replicate position.above parentComponent ++ position.names.reverse

/-- The components of a position in the order of the path. -/
theorem reverse_positionParts (position : Position (List Char)) :
    (positionParts position).reverse = pathOf position := by
  rw [positionParts, List.reverse_append, List.reverse_replicate, pathOf]

/-- The names at the end of a walk over a path go down. -/
theorem down_of_mem_walk {characters name : List Char}
    (member : name ∈ (walk componentMove .start (pathComponents characters)).names) :
    componentMove name = .down :=
  (named_walk characters).down name (List.mem_reverse.mpr member)

/-- A position has a last component that is no parent exactly when it has a name. -/
theorem positionParts_last {position : Position (List Char)}
    (named : ∀ name ∈ position.names, componentMove name = .down) :
    positionParts position ≠ [] ∧ (positionParts position).head? ≠ some parentComponent ↔
      position.names ≠ [] := by
  obtain ⟨above, names⟩ := position
  cases names with
  | nil =>
    cases above with
    | zero => exact ⟨fun last => absurd rfl last.1, fun nothing => absurd rfl nothing⟩
    | succ above => exact ⟨fun last => absurd rfl last.2, fun nothing => absurd rfl nothing⟩
  | cons name names =>
    have other := (componentMove_eq_down.mp (named name List.mem_cons_self)).2.2
    refine ⟨fun _ => List.cons_ne_nil _ _, fun _ => ⟨List.cons_ne_nil _ _, fun parent => ?_⟩⟩
    exact other (Option.some.inj parent)

/-- The paths that are normalized, and what they are normalized to. -/
theorem normalizeRequestedPath_eq_ok :
    normalizeRequestedPath value = .ok normalized ↔ RequestedPath (slashed value) ∧
      let reached := walk componentMove .start (pathComponents (slashed value))
      reached.names ≠ [] ∧ normalized = joinPath (pathOf reached) := by
  have walked : requestedPathParts [] (pathComponents (slashed value)) =
      positionParts (walk componentMove .start (pathComponents (slashed value))) :=
    @requestedPathParts_eq _ .start nofun
  have last := @positionParts_last (walk componentMove .start (pathComponents (slashed value)))
    fun _ member => down_of_mem_walk member
  simp only [normalizeRequestedPath, bind_eq_ok, ensure_eq_ok, pure, Except.pure, Except.ok.injEq]
  constructor
  · rintro ⟨_, ⟨relative, drive⟩, _, printable, _, final, rfl⟩
    refine ⟨⟨relative, drive, printable⟩, last.mp ?_, ?_⟩
    · rw [← walked]
      exact final
    · rw [← reverse_positionParts, ← walked]
      rfl
  · rintro ⟨⟨relative, drive, printable⟩, nonempty, rfl⟩
    refine ⟨(), ⟨relative, drive⟩, (), printable, (), ?_, ?_⟩
    · rw [← walked] at last
      exact last.mpr nonempty
    · rw [← reverse_positionParts, ← walked]
      rfl

/-- The form of a normalized path: relative without a drive or UNC prefix, its components filled and
no dots, parents only in front, and a name at the end. -/
structure RequestedForm (path : String) : Prop where
  relative : path.toList.head? ≠ some '/'
  slashes : '\\' ∉ path.toList
  drive : hasSecondColon path.toList = false
  filled : ∀ component ∈ pathComponents path.toList, component ≠ [] ∧ component ≠ ['.']
  leading : ∃ above names, pathComponents path.toList =
    List.replicate above parentComponent ++ names ∧ ∀ name ∈ names, name ≠ parentComponent
  final : (pathComponents path.toList).getLast? ≠ some parentComponent

/-- The first component of a requested path that remains has a colon for its second byte. -/
def RemainingColon (value : String) : Prop :=
  ∃ first, Foremost componentMove (pathComponents (slashed value)) first ∧
    hasSecondColon first = true

/-- A path has a colon for its second byte exactly when its first component has. -/
theorem hasSecondColon_joinPath {first : List Char} {rest : List (List Char)} (filled : first ≠ []) :
    hasSecondColon (joinPath (first :: rest)).toList = hasSecondColon first := by
  rw [toList_joinPath]
  cases rest with
  | nil => rw [List.intercalate_singleton]
  | cons second rest =>
    rw [List.intercalate_cons_cons]
    rcases first with - | ⟨letter, - | ⟨colon, others⟩⟩
    · exact absurd rfl filled
    · simp [hasSecondColon]
    · simp [hasSecondColon]

/-- The end of a walk as a path, when it has a name. -/
theorem exists_pathOf {position : Position (List Char)} (nonempty : position.names ≠ []) :
    ∃ first rest, pathOf position = first :: rest ∧
      ((position.above = 0 ∧ position.names.getLast? = some first) ∨
        (position.above ≠ 0 ∧ first = parentComponent)) := by
  obtain ⟨above, names⟩ := position
  cases above with
  | zero =>
    obtain ⟨first, rest, split⟩ :=
      List.exists_cons_of_ne_nil (fun nothing => nonempty (List.reverse_eq_nil_iff.mp nothing))
    refine ⟨first, rest, split, .inl ⟨rfl, ?_⟩⟩
    rw [List.getLast?_eq_head?_reverse, split, List.head?_cons]
  | succ above => exact ⟨_, _, rfl, .inr ⟨Nat.succ_ne_zero _, rfl⟩⟩

/-- What a walk over a path comes to, seen from the path that is made of it. -/
structure Normal (position : Position (List Char)) : Prop where
  named : Named position.names.reverse
  nonempty : position.names ≠ []
  slashes : ∀ name ∈ position.names, '\\' ∉ name
  printable : ∀ name ∈ position.names, ∀ character ∈ name, isControl character = false

section Normal

variable {position : Position (List Char)}

/-- No component of the path has a slash. -/
theorem Normal.clean (normal : Normal position) : ∀ part ∈ pathOf position, '/' ∉ part := by
  intro part member
  rcases List.mem_append.mp member with parent | name
  · rw [List.eq_of_mem_replicate parent]
    decide
  · exact normal.named.clean part name

/-- The path has a component. -/
theorem Normal.pathOf_ne_nil (normal : Normal position) : pathOf position ≠ [] := by
  obtain ⟨first, rest, split, -⟩ := exists_pathOf normal.nonempty
  rw [split]
  exact List.cons_ne_nil _ _

/-- The path is cut into its components. -/
theorem Normal.components (normal : Normal position) :
    pathComponents (joinPath (pathOf position)).toList = pathOf position :=
  pathComponents_joinPath normal.pathOf_ne_nil normal.clean

/-- The path is walked through to the position. -/
theorem Normal.walk (normal : Normal position) :
    walk componentMove .start (pathOf position) = position := by
  rw [pathOf, walk_append, Position.start, walk_ups fun item member => by
    rw [List.eq_of_mem_replicate member, componentMove_parent], walk_downs normal.named.down]
  refine Position.ext ?_ ?_
  · simp
  · simp

/-- No character of the path is a backslash or a control character. -/
theorem Normal.characters (normal : Normal position) :
    ∀ character ∈ (joinPath (pathOf position)).toList,
      character ≠ '\\' ∧ isControl character = false := by
  intro character member
  rcases mem_joinPath member with rfl | ⟨part, inside, there⟩
  · decide
  · rcases List.mem_append.mp inside with parent | name
    · rw [List.eq_of_mem_replicate parent] at there
      obtain rfl : character = '.' := by simpa [parentComponent] using there
      decide
    · have name := List.mem_reverse.mp name
      exact ⟨fun backslash => normal.slashes part name (backslash ▸ there),
        normal.printable part name character there⟩

/-- Replacing backslashes leaves the path as it is. -/
theorem Normal.slashed (normal : Normal position) :
    slashed (joinPath (pathOf position)) = (joinPath (pathOf position)).toList := by
  refine (List.map_congr_left fun character member => ?_).trans (List.map_id _)
  exact if_neg (normal.characters character member).1

/-- No component of the path is empty. -/
theorem Normal.filled (normal : Normal position) : ∀ part ∈ pathOf position, part ≠ [] := by
  intro part member
  rcases List.mem_append.mp member with parent | name
  · rw [List.eq_of_mem_replicate parent]
    decide
  · exact (componentMove_eq_down.mp (normal.named.down part name)).1

/-- The path does not begin with a slash. -/
theorem Normal.relative (normal : Normal position) :
    (joinPath (pathOf position)).toList.head? ≠ some '/' := by
  obtain ⟨first, rest, split, -⟩ := exists_pathOf normal.nonempty
  have member : first ∈ pathOf position := by
    rw [split]
    exact List.mem_cons_self
  rw [split, head?_joinPath (normal.filled first member)]
  exact fun slash => normal.clean first member (List.mem_of_head? slash)

/-- The path has its form, and is normalized to itself, when it has no colon for its second byte. -/
theorem Normal.form (normal : Normal position)
    (drive : hasSecondColon (joinPath (pathOf position)).toList = false) :
    RequestedForm (joinPath (pathOf position)) ∧
      normalizeRequestedPath (joinPath (pathOf position)) = .ok (joinPath (pathOf position)) := by
  have moves : ∀ component ∈ pathOf position,
      component = parentComponent ∨ componentMove component = .down := by
    intro component member
    rcases List.mem_append.mp member with parent | name
    · exact .inl (List.eq_of_mem_replicate parent)
    · exact .inr (normal.named.down component name)
  obtain ⟨name, names, split⟩ := List.exists_cons_of_ne_nil normal.nonempty
  have down : componentMove name = .down :=
    normal.named.down name (by rw [split]; simp)
  constructor
  · refine ⟨normal.relative, fun backslash => (normal.characters _ backslash).1 rfl, drive, ?_, ?_, ?_⟩
    · rw [normal.components]
      intro component member
      rcases moves component member with rfl | down
      · decide
      · exact ⟨(componentMove_eq_down.mp down).1, (componentMove_eq_down.mp down).2.1⟩
    · exact ⟨position.above, position.names.reverse, normal.components, fun name member =>
        (componentMove_eq_down.mp (normal.named.down name member)).2.2⟩
    · rw [normal.components, pathOf, split, List.reverse_cons, ← List.append_assoc,
        List.getLast?_concat]
      exact fun parent => (componentMove_eq_down.mp down).2.2 (Option.some.inj parent)
  · refine normalizeRequestedPath_eq_ok.mpr ?_
    rw [normal.slashed, normal.components, normal.walk]
    refine ⟨⟨normal.relative, drive, ?_⟩, normal.nonempty, rfl⟩
    exact List.all_eq_true.mpr fun character member => by
      rw [(normal.characters character member).2, Bool.not_false]

end Normal

/-- The end of the walk over a requested path is normal. -/
theorem RequestedPath.normal {characters : List Char} (source : String)
    (same : slashed source = characters) (requested : RequestedPath characters)
    (nonempty : (walk componentMove .start (pathComponents characters)).names ≠ []) :
    Normal (walk componentMove .start (pathComponents characters)) := by
  refine ⟨named_walk characters, nonempty, fun name member backslash => ?_,
    fun name member character there => ?_⟩
  · have inside := clean_of_mem_walk member backslash
    rw [← same] at inside
    obtain ⟨original, -, replaced⟩ := List.mem_map.mp inside
    split at replaced
    · cases replaced
    · next other => exact other replaced
  · have printable := List.all_eq_true.mp requested.printable character
      (clean_of_mem_walk member there)
    simpa using printable

/-- A normalized path has its form and is normalized to itself, exactly when the first component of the
path that remains has no colon for its second byte. -/
theorem normalizeRequestedPath_form_iff (value normalized : String)
    (accepted : normalizeRequestedPath value = .ok normalized) :
    (RequestedForm normalized ∧ normalizeRequestedPath normalized = .ok normalized) ↔
      ¬ RemainingColon value := by
  obtain ⟨requested, nonempty, rfl⟩ := normalizeRequestedPath_eq_ok.mp accepted
  have normal := requested.normal value rfl nonempty
  obtain ⟨first, rest, split, begins⟩ := exists_pathOf nonempty
  have filled := normal.filled first (by rw [split]; exact List.mem_cons_self)
  have colon : hasSecondColon (joinPath (pathOf (walk componentMove .start
      (pathComponents (slashed value))))).toList = hasSecondColon first := by
    rw [split, hasSecondColon_joinPath filled]
  constructor
  · rintro ⟨form, -⟩ ⟨other, remains, drive⟩
    obtain ⟨above, last⟩ := foremost_iff.mp remains
    rcases begins with ⟨-, lastFirst⟩ | ⟨climbed, -⟩
    · obtain rfl := Option.some.inj (lastFirst.symm.trans last)
      rw [form.drive, drive] at colon
      cases colon
    · exact climbed above
  · intro plain
    refine normal.form ?_
    rw [colon]
    rcases begins with ⟨above, last⟩ | ⟨-, rfl⟩
    · exact Bool.eq_false_iff.mpr fun drive => plain ⟨first, foremost_iff.mpr ⟨above, last⟩, drive⟩
    · decide

/-- A path with dot segments in front of a plain name is normalized to its form. -/
theorem normalizeRequestedPath_form_plain :
    normalizeRequestedPath "./pkgs/../dplyr" = .ok "dplyr" ∧ RequestedForm "dplyr" ∧
      normalizeRequestedPath "dplyr" = .ok "dplyr" := by
  have accepted : normalizeRequestedPath "./pkgs/../dplyr" = .ok "dplyr" := by decide +kernel
  refine ⟨accepted, (normalizeRequestedPath_form_iff _ _ accepted).mpr ?_⟩
  rintro ⟨first, remains, colon⟩
  have last := (foremost_iff.mp remains).2
  have only : (walk componentMove .start
      (pathComponents (slashed "./pkgs/../dplyr"))).names.getLast? = some "dplyr".toList := by
    decide +kernel
  obtain rfl := Option.some.inj (only.symm.trans last)
  exact absurd colon (by decide +kernel)

/-- A dot in front of a drive hides it from the check: the result is a path with a drive, which is
refused. -/
theorem not_normalizeRequestedPath_form :
    normalizeRequestedPath "./C:/dplyr" = .ok "C:/dplyr" ∧ ¬ RequestedForm "C:/dplyr" ∧
      normalizeRequestedPath "C:/dplyr" =
        .error "path must not be absolute or use a drive/UNC prefix" := by
  refine ⟨by decide +kernel, fun form => ?_, by decide +kernel⟩
  exact absurd form.drive (by decide +kernel)

end RequestedPaths

end Rsolve
