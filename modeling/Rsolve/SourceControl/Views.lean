import Rsolve.SourceControl.Tree

/-!
# Published views of source trees

A view is written file by file below one directory and validated again by walking that directory.
The order in which a directory lists its entries is not fixed. Where no path is split, a walk in any
order finds the entries that were published.
-/
open Checked Ordered Segments

namespace Rsolve

/-- What a directory lists, entry by entry. A name is `none` where it is not UTF-8. -/
inductive Listing
  | done
  | file (name : Option String) (bytes : List UInt8) (executable : Bool) (rest : Listing)
  | directory (name : Option String) (items rest : Listing)
  | symlink (name : Option String) (rest : Listing)
  | special (name : Option String) (rest : Listing)
deriving DecidableEq

namespace Listing

/-- The listing has an entry. -/
def sawEntry : Listing → Bool
  | .done => false
  | .file _ _ _ _ => true
  | .directory _ _ _ => true
  | .symlink _ _ => true
  | .special _ _ => true

/-- The names of the entries. -/
def names : Listing → List (Option String)
  | .done => []
  | .file name _ _ rest => name :: names rest
  | .directory name _ rest => name :: names rest
  | .symlink name rest => name :: names rest
  | .special name rest => name :: names rest

/-- `create_file_new` and the write of the content. -/
def createFile (name : String) (bytes : List UInt8) (executable : Bool) (listing : Listing) :
    Except TreeError Listing :=
  if some name ∈ listing.names then .error (.publicationConflict [])
  else .ok (.file (some name) bytes executable listing)

/-- `create_dir` and what is done in the directory. -/
def inDirectory (name : String) (step : Listing → Except TreeError Listing) :
    Listing → Except TreeError Listing
  | .done => do
    let items ← step .done
    return .directory (some name) items .done
  | .file other bytes executable rest =>
    if other = some name then .error (.io "Not a directory (os error 20)")
    else do
      let rest ← inDirectory name step rest
      return .file other bytes executable rest
  | .directory other items rest =>
    if other = some name then do
      let items ← step items
      return .directory other items rest
    else do
      let rest ← inDirectory name step rest
      return .directory other items rest
  | .symlink other rest =>
    if other = some name then .error (.invalidMarker [])
    else do
      let rest ← inDirectory name step rest
      return .symlink other rest
  | .special other rest =>
    if other = some name then .error (.io "Not a directory (os error 20)")
    else do
      let rest ← inDirectory name step rest
      return .special other rest

/-- A file written at a path, with the directories on the way: `open_or_create_path` of its parent
and `create_file_new`. -/
def place (bytes : List UInt8) (executable : Bool) : List String → Listing → Except TreeError Listing
  | [], _ => .error .nonCanonicalPath
  | [name], listing => listing.createFile name bytes executable
  | name :: next :: rest, listing =>
    listing.inDirectory name (place bytes executable (next :: rest))

end Listing

/-- A view as it is published: its directory and what its marker counts. -/
structure PublishedView where
  /-- The directory `tree`. -/
  tree : Listing
  /-- The entries that `tree_digest` is taken of. -/
  validated : List TreeEntry
  /-- The bytes of the entries. -/
  total : Nat

/-- `publish_with_binding` — the entries are collected by a builder and written in the order of
their paths. -/
def publishWithBinding (entries : List TreeEntry) : Except TreeError PublishedView := do
  let builder ← TreeBuilder.new.addAll entries
  let (validated, total) := builder.finish
  let tree ← validated.foldlM (fun tree entry =>
    tree.place entry.bytes entry.executable (segments '/' entry.path)) Listing.done
  return ⟨tree, validated, total⟩

/-- A name as a text. -/
def nameText (name : Option String) : Except TreeError String :=
  match name with
  | none => .error .nonCanonicalPath
  | some text => .ok text

/-- What `collect_files` checks before and after the entries of a directory. -/
def collectDirectory (relativeDir : List String) (depth : Nat) (sawEntry : Bool)
    (entries : Except TreeError TreeBuilder) : Except TreeError TreeBuilder := do
  ensure (depth ≤ maxPathDepth) .entryLimit
  let builder ← entries
  ensure (relativeDir = [] ∨ sawEntry = true) (.invalidMarker relativeDir)
  return builder

/-- The entries of a directory in `collect_files`. -/
def collectEntries (relativeDir : List String) (depth : Nat) :
    Listing → TreeBuilder → Except TreeError TreeBuilder
  | .done, builder => .ok builder
  | .file name bytes executable rest, builder => do
    let name ← nameText name
    let relative := join '/' (relativeDir ++ [name])
    builder.checkPath relative
    ensure (bytes.length ≤ maxBlobBytes) .blobLimit
    ensure (bytes.length ≤ builder.remainingBytes) .totalLimit
    (builder.add ⟨relative, bytes, executable⟩).2
    collectEntries relativeDir depth rest (builder.add ⟨relative, bytes, executable⟩).1
  | .directory name items rest, builder => do
    let name ← nameText name
    let builder ← collectDirectory (relativeDir ++ [name]) (depth + 1) items.sawEntry
      (collectEntries (relativeDir ++ [name]) (depth + 1) items builder)
    collectEntries relativeDir depth rest builder
  | .symlink name _, _ => do
    let name ← nameText name
    .error (.invalidMarker (relativeDir ++ [name]))
  | .special name _, _ => do
    let name ← nameText name
    .error (.invalidMarker (relativeDir ++ [name]))

/-- `collect_files` at the root of a view. -/
def collectFiles (tree : Listing) (builder : TreeBuilder) : Except TreeError TreeBuilder :=
  collectDirectory [] 0 tree.sawEntry (collectEntries [] 0 tree builder)

/-! ### Orders of enumeration -/

/-- One entry of a directory. -/
inductive Item
  | file (name : Option String) (bytes : List UInt8) (executable : Bool)
  | directory (name : Option String) (items : Listing)
  | symlink (name : Option String)
  | special (name : Option String)

/-- An entry listed before others. -/
def Item.onto : Item → Listing → Listing
  | .file name bytes executable, rest => .file name bytes executable rest
  | .directory name items, rest => .directory name items rest
  | .symlink name, rest => .symlink name rest
  | .special name, rest => .special name rest

/-- Two listings of one directory, in any orders of enumeration at every level. -/
inductive Enumerates : Listing → Listing → Prop
  | done : Enumerates .done .done
  | file {name bytes executable rest rest'} : Enumerates rest rest' →
      Enumerates (.file name bytes executable rest) (.file name bytes executable rest')
  | directory {name items items' rest rest'} : Enumerates items items' → Enumerates rest rest' →
      Enumerates (.directory name items rest) (.directory name items' rest')
  | symlink {name rest rest'} : Enumerates rest rest' →
      Enumerates (.symlink name rest) (.symlink name rest')
  | special {name rest rest'} : Enumerates rest rest' →
      Enumerates (.special name rest) (.special name rest')
  | swap (first second : Item) (rest : Listing) :
      Enumerates (first.onto (second.onto rest)) (second.onto (first.onto rest))
  | trans {first second third} : Enumerates first second → Enumerates second third →
      Enumerates first third

/-! ### The files of a directory -/

/-- The files below a directory as entries of a source tree. -/
def Listing.files (relativeDir : List String) : Listing → List TreeEntry
  | .done => []
  | .file name bytes executable rest =>
    ⟨join '/' (relativeDir ++ [name.getD ""]), bytes, executable⟩ :: rest.files relativeDir
  | .directory name items rest =>
    items.files (relativeDir ++ [name.getD ""]) ++ rest.files relativeDir
  | .symlink _ rest => rest.files relativeDir
  | .special _ rest => rest.files relativeDir

/-- A name is a text without a separator. -/
def PlainName (name : Option String) : Prop := ∃ text, name = some text ∧ '/' ∉ text.toList

/-- A directory with files and directories that are not empty. -/
def Listing.Plain : Listing → Prop
  | .done => True
  | .file name _ _ rest => PlainName name ∧ rest.Plain
  | .directory name items rest =>
    PlainName name ∧ items.sawEntry = true ∧ items.Plain ∧ rest.Plain
  | .symlink _ _ => False
  | .special _ _ => False

/-- Another enumeration of a directory finds the same files. -/
theorem Enumerates.files_perm {tree listing : Listing} (enumerates : Enumerates tree listing)
    (relativeDir : List String) :
    (tree.files relativeDir).Perm (listing.files relativeDir) := by
  induction enumerates generalizing relativeDir with
  | done => exact List.Perm.refl _
  | file _ ih => exact (ih relativeDir).cons _
  | directory _ _ inside rest => exact (inside _).append (rest relativeDir)
  | symlink _ ih => exact ih relativeDir
  | special _ ih => exact ih relativeDir
  | swap first second rest =>
    cases first <;> cases second <;>
      simp only [Item.onto, Listing.files, ← List.append_assoc]
    all_goals first
      | exact List.Perm.refl _
      | exact List.Perm.swap _ _ _
      | exact List.perm_append_comm.append_right _
      | exact List.perm_middle.symm
      | exact List.perm_middle
  | trans _ _ first second => exact (first relativeDir).trans (second relativeDir)

/-- Another enumeration of a directory sees an entry when one does. -/
theorem Enumerates.sawEntry {tree listing : Listing} (enumerates : Enumerates tree listing) :
    listing.sawEntry = tree.sawEntry := by
  induction enumerates with
  | done => rfl
  | file => rfl
  | directory => rfl
  | symlink => rfl
  | special => rfl
  | swap first second rest => cases first <;> cases second <;> rfl
  | trans _ _ first second => exact second.trans first

/-- Another enumeration of a plain directory is plain. -/
theorem Enumerates.plain {tree listing : Listing} (enumerates : Enumerates tree listing)
    (plain : tree.Plain) : listing.Plain := by
  induction enumerates with
  | done => exact plain
  | file _ ih => exact ⟨plain.1, ih plain.2⟩
  | directory inside _ insidePlain restPlain =>
    obtain ⟨named, saw, insideOk, restOk⟩ := plain
    exact ⟨named, inside.sawEntry.trans saw, insidePlain insideOk, restPlain restOk⟩
  | symlink => exact plain.elim
  | special => exact plain.elim
  | swap first second rest =>
    cases first <;> cases second <;> simp only [Item.onto, Listing.Plain] at plain ⊢ <;> tauto
  | trans _ _ first second => exact second (first plain)

/-! ### The walk -/

/-- The segments of the path of a file below a directory. -/
theorem segments_below {relativeDir : List String} {name : String}
    (clean : ∀ part ∈ relativeDir, '/' ∉ part.toList) (named : '/' ∉ name.toList) :
    segments '/' (join '/' (relativeDir ++ [name])) = relativeDir ++ [name] := by
  refine segments_join (by simp) fun part member => ?_
  rcases List.mem_append.mp member with inside | last
  · exact clean part inside
  · rw [List.mem_singleton.mp last]
    exact named

/-- The names of a directory and of one below it have no separators. -/
theorem clean_concat {relativeDir : List String} {name : String}
    (clean : ∀ part ∈ relativeDir, '/' ∉ part.toList) (named : '/' ∉ name.toList) :
    ∀ part ∈ relativeDir ++ [name], '/' ∉ part.toList := by
  intro part member
  rcases List.mem_append.mp member with inside | last
  · exact clean part inside
  · rw [List.mem_singleton.mp last]
    exact named

/-- A plain directory that sees an entry has a file below it. -/
theorem Listing.Plain.exists_file {listing : Listing} (plain : listing.Plain)
    (saw : listing.sawEntry = true) (relativeDir : List String)
    (clean : ∀ part ∈ relativeDir, '/' ∉ part.toList) :
    ∃ entry ∈ listing.files relativeDir,
      relativeDir.length < (segments '/' entry.path).length := by
  induction listing generalizing relativeDir with
  | done => cases saw
  | file name bytes executable rest _ =>
    obtain ⟨text, rfl, named⟩ := plain.1
    refine ⟨_, List.mem_cons_self, ?_⟩
    have parts := segments_below clean named
    simp only [Option.getD_some, parts]
    simp
  | directory name items rest inside _ =>
    obtain ⟨⟨text, rfl, named⟩, sawInside, insidePlain, -⟩ := plain
    obtain ⟨entry, member, longer⟩ := inside insidePlain sawInside (relativeDir ++ [text])
      (clean_concat clean named)
    refine ⟨entry, List.mem_append_left _ member, ?_⟩
    rw [List.length_append] at longer
    exact Nat.lt_of_succ_lt longer
  | symlink name rest _ => exact plain.elim
  | special name rest _ => exact plain.elim

/-- A safe path has at most as many components as is allowed. -/
theorem length_segments_le {path : String} (valid : validatePath path = .ok ()) :
    (segments '/' path).length ≤ maxPathDepth := by
  unfold validatePath at valid
  split at valid
  · cases valid
  · dsimp only at valid
    split at valid
    · cases valid
    · next passed =>
      by_contra deep
      exact passed (by simp [Nat.not_le.mp deep])

/-- The walk of a plain directory adds its files. -/
theorem collectEntries_of_fits {listing : Listing} (plain : listing.Plain)
    (relativeDir : List String) (clean : ∀ part ∈ relativeDir, '/' ∉ part.toList)
    (done : List TreeEntry) (fits : Fits (done ++ listing.files relativeDir)) :
    collectEntries relativeDir relativeDir.length listing (.built done) =
      .ok (.built (done ++ listing.files relativeDir)) := by
  induction listing generalizing relativeDir done with
  | done =>
    rw [Listing.files, List.append_nil]
    rfl
  | file name bytes executable rest ih =>
    obtain ⟨⟨text, rfl, named⟩, restPlain⟩ := plain
    rw [Listing.files, Option.getD_some] at fits ⊢
    generalize written : (⟨join '/' (relativeDir ++ [text]), bytes, executable⟩ : TreeEntry) = entry
      at fits ⊢
    have split : done ++ entry :: rest.files relativeDir =
        done ++ [entry] ++ rest.files relativeDir := by simp
    rw [split] at fits ⊢
    have added := add_of_fits fits.front
    have admissible := fits.admissible entry (by simp)
    have checked : (TreeBuilder.built done).checkPath entry.path = .ok () := by
      rcases add_cases (.built done) entry with ⟨-, failed⟩ | ⟨-, checked, -⟩
      · exact absurd (congrArg Prod.snd added) failed
      · exact checked
    have room : entry.bytes.length ≤ (TreeBuilder.built done).remainingBytes := by
      have small := fits.front.small
      simp only [totalBytes, List.map_append, List.sum_append, List.map_cons, List.map_nil,
        List.sum_cons, List.sum_nil] at small
      simp only [TreeBuilder.remainingBytes, TreeBuilder.built, totalBytes]
      omega
    have small := admissible.2
    subst written
    simp only [collectEntries, nameText, ok_bind, checked, ensure_of small, ensure_of room, added]
    exact ih restPlain relativeDir clean _ fits
  | directory name items rest inside ih =>
    obtain ⟨⟨text, rfl, named⟩, saw, insidePlain, restPlain⟩ := plain
    rw [Listing.files, Option.getD_some, ← List.append_assoc] at fits ⊢
    have deeper := clean_concat clean named
    have shallow : (relativeDir ++ [text]).length ≤ maxPathDepth := by
      obtain ⟨entry, member, longer⟩ := insidePlain.exists_file saw _ deeper
      have admissible := fits.admissible entry
        (List.mem_append_left _ (List.mem_append_right _ member))
      have bounded := length_segments_le admissible.1
      omega
    have collected := inside insidePlain (relativeDir ++ [text]) deeper done fits.front
    rw [List.length_append, List.length_singleton] at shallow collected
    simp only [collectEntries, nameText, ok_bind, collectDirectory, ensure_of shallow, collected,
      ensure_of (show relativeDir ++ [text] = [] ∨ items.sawEntry = true from .inr saw)]
    exact ih restPlain relativeDir clean _ fits
  | symlink name rest _ => exact plain.elim
  | special name rest _ => exact plain.elim

/-- The walk of a plain directory whose files form a source tree succeeds with its files. -/
theorem collectFiles_of_fits {listing : Listing} (plain : listing.Plain)
    (fits : Fits (listing.files [])) :
    collectFiles listing .new = .ok (.built (listing.files [])) := by
  have collected := collectEntries_of_fits plain [] (by simp) [] fits
  change collectDirectory [] 0 _ (collectEntries [] ([] : List String).length listing (.built [])) = _
  rw [collected]
  rfl

/-! ### The writes -/

/-- A file is created below a directory. -/
theorem createFile_spec {tree written : Listing} {name : String} {bytes : List UInt8}
    {executable : Bool} (named : '/' ∉ name.toList) (plain : tree.Plain)
    (created : tree.createFile name bytes executable = .ok written) (relativeDir : List String) :
    written.Plain ∧ written.sawEntry = true ∧
      (written.files relativeDir).Perm
        (⟨join '/' (relativeDir ++ [name]), bytes, executable⟩ :: tree.files relativeDir) := by
  unfold Listing.createFile at created
  split at created
  · cases created
  · obtain rfl := Except.ok.inj created
    exact ⟨⟨⟨name, rfl, named⟩, plain⟩, rfl, List.Perm.refl _⟩

/-- What is done in a directory below another one. -/
theorem inDirectory_spec {tree written : Listing} {name : String} {entry : TreeEntry}
    {relativeDir : List String} {step : Listing → Except TreeError Listing} (named : '/' ∉ name.toList)
    (steps : ∀ items result, items.Plain → step items = .ok result → result.Plain ∧
      result.sawEntry = true ∧ (result.files (relativeDir ++ [name])).Perm
        (entry :: items.files (relativeDir ++ [name])))
    (plain : tree.Plain) (done : tree.inDirectory name step = .ok written) :
    written.Plain ∧ written.sawEntry = true ∧
      (written.files relativeDir).Perm (entry :: tree.files relativeDir) := by
  induction tree generalizing written with
  | done =>
    obtain ⟨items, stepped, finished⟩ := bind_eq_ok.mp done
    obtain rfl := Except.ok.inj finished
    obtain ⟨itemsPlain, saw, order⟩ := steps .done items trivial stepped
    refine ⟨⟨⟨name, rfl, named⟩, saw, itemsPlain, trivial⟩, rfl, ?_⟩
    simpa [Listing.files] using order
  | file other bytes executable rest ih =>
    rw [Listing.inDirectory] at done
    split at done
    · cases done
    · obtain ⟨after, stepped, finished⟩ := bind_eq_ok.mp done
      obtain rfl := Except.ok.inj finished
      obtain ⟨restPlain, -, order⟩ := ih plain.2 stepped
      refine ⟨⟨plain.1, restPlain⟩, rfl, ?_⟩
      exact (order.cons _).trans (List.Perm.swap _ _ _)
  | directory other items rest _ ih =>
    obtain ⟨otherNamed, saw, itemsPlain, restPlain⟩ := plain
    rw [Listing.inDirectory] at done
    split at done
    · next same =>
      subst same
      obtain ⟨after, stepped, finished⟩ := bind_eq_ok.mp done
      obtain rfl := Except.ok.inj finished
      obtain ⟨afterPlain, sawAfter, order⟩ := steps items after itemsPlain stepped
      exact ⟨⟨otherNamed, sawAfter, afterPlain, restPlain⟩, rfl, order.append_right _⟩
    · obtain ⟨after, stepped, finished⟩ := bind_eq_ok.mp done
      obtain rfl := Except.ok.inj finished
      obtain ⟨afterPlain, -, order⟩ := ih restPlain stepped
      refine ⟨⟨otherNamed, saw, itemsPlain, afterPlain⟩, rfl, ?_⟩
      exact (order.append_left _).trans List.perm_middle
  | symlink other rest _ => exact plain.elim
  | special other rest _ => exact plain.elim

/-- A file is placed below a directory. -/
theorem place_spec {path : List String} (clean : ∀ part ∈ path, '/' ∉ part.toList)
    {bytes : List UInt8} {executable : Bool} {tree written : Listing} (plain : tree.Plain)
    (relativeDir : List String) (placed : tree.place bytes executable path = .ok written) :
    written.Plain ∧ written.sawEntry = true ∧
      (written.files relativeDir).Perm
        (⟨join '/' (relativeDir ++ path), bytes, executable⟩ :: tree.files relativeDir) := by
  induction path generalizing tree written relativeDir with
  | nil => cases placed
  | cons name rest ih =>
    have named := clean name List.mem_cons_self
    cases rest with
    | nil => exact createFile_spec named plain placed relativeDir
    | cons next rest =>
      refine inDirectory_spec named (fun items result itemsPlain stepped => ?_) plain placed
      have inside := ih (fun part member => clean part (List.mem_cons_of_mem _ member)) itemsPlain
        (relativeDir ++ [name]) stepped
      simpa using inside

/-- The files of a published view are the entries. -/
theorem writes_spec (entries : List TreeEntry) {tree written : Listing} (plain : tree.Plain)
    (done : entries.foldlM (fun tree entry =>
      tree.place entry.bytes entry.executable (segments '/' entry.path)) tree = .ok written) :
    written.Plain ∧ (written.files []).Perm (entries ++ tree.files []) := by
  induction entries generalizing tree with
  | nil =>
    obtain rfl := Except.ok.inj done
    exact ⟨plain, List.Perm.refl _⟩
  | cons entry entries ih =>
    rw [List.foldlM_cons] at done
    obtain ⟨next, placed, continued⟩ := bind_eq_ok.mp done
    obtain ⟨nextPlain, -, order⟩ := place_spec
      (fun part member => notMem_of_mem_segments member) plain [] placed
    rw [List.nil_append, join_segments] at order
    obtain ⟨writtenPlain, rest⟩ := ih nextPlain continued
    exact ⟨writtenPlain, rest.trans ((order.append_left entries).trans List.perm_middle)⟩

/-! ### Source trees -/

/-- What a source tree promises of the entries offered for it. -/
structure PathsApart (offered : List TreeEntry) : Prop where
  /-- However the calls are ordered and whatever they return, the accepted paths differ and none is
  above another one. -/
  collisionFree : ∀ calls, calls.Perm offered → CollisionFree (TreeBuilder.run calls).entries
  /-- When all calls succeed in one order, they succeed in every order. -/
  anyOrder : ∀ calls calls', calls.Perm offered → calls'.Perm offered →
    (∃ builder, TreeBuilder.new.addAll calls = .ok builder) →
      ∃ builder, TreeBuilder.new.addAll calls' = .ok builder
  /-- A published view validates again in every order of enumeration, with the entries and the size
  that it was published with. -/
  revalidates : ∀ calls view, calls.Perm offered → publishWithBinding calls = .ok view →
    ∀ listing, Enumerates view.tree listing →
      ∃ builder, collectFiles listing .new = .ok builder ∧
        builder.finish = (view.validated, view.total)

/-- A view that was published from entries that form a source tree holds them. -/
theorem publishWithBinding_spec {calls : List TreeEntry} {view : PublishedView} (fits : Fits calls)
    (published : publishWithBinding calls = .ok view) :
    (view.validated, view.total) = (TreeBuilder.built calls).finish ∧ view.tree.Plain ∧
      (view.tree.files []).Perm calls := by
  have added : TreeBuilder.new.addAll calls = .ok (.built calls) := addAll_of_fits [] calls fits
  unfold publishWithBinding at published
  rw [added, ok_bind] at published
  obtain ⟨tree, written, finished⟩ := bind_eq_ok.mp published
  obtain rfl := Except.ok.inj finished
  obtain ⟨plain, order⟩ := @writes_spec _ .done _ trivial written
  rw [Listing.files, List.append_nil] at order
  exact ⟨rfl, plain, order.trans (Sorting.sortBy_perm _ _)⟩

instance : Std.TransCmp (fun left right : TreeEntry => compare left.path right.path) where
  eq_swap := Std.OrientedCmp.eq_swap
  isLE_trans := Std.TransCmp.isLE_trans

/-- Builders that accepted the same entries in different orders finish alike. -/
theorem finish_perm {left right : List TreeEntry} (fits : Fits left) (order : left.Perm right) :
    (TreeBuilder.built left).finish = (TreeBuilder.built right).finish := by
  refine Prod.ext (Sorting.sortBy_eq_of_perm _ order ?_) (order.map _).sum_nat
  intro first firstIn second secondIn same
  by_contra differs
  refine fits.free.forall firstIn secondIn differs (.inl (congrArg toAsciiLowercase ?_))
  exact Std.LawfulEqOrd.compare_eq_iff_eq.mp same

/-- A source tree keeps its paths apart exactly when no offered path is split from one below it. -/
theorem pathsApart_iff (offered : List TreeEntry) : PathsApart offered ↔ ¬ SplitPath offered := by
  constructor
  · intro apart split
    obtain ⟨calls, order, collides⟩ := exists_collision split
    exact collides (apart.collisionFree calls order)
  · intro whole
    have accepted : ∀ calls, calls.Perm offered →
        ((∃ builder, TreeBuilder.new.addAll calls = .ok builder) ↔ Fits calls) :=
      fun calls order => addAll_new_iff whole fun entry member => order.mem_iff.mp member
    refine ⟨fun calls order => ?_, fun calls calls' order order' added => ?_,
      fun calls view order published listing enumerates => ?_⟩
    · exact (apart_run whole fun entry member => order.mem_iff.mp member).collisionFree
    · have fits := (accepted calls order).mp added
      exact (accepted calls' order').mpr (fits.perm (order.trans order'.symm))
    · have fits : Fits calls := by
        obtain ⟨builder, added, -⟩ := bind_eq_ok.mp published
        exact (accepted calls order).mp ⟨builder, added⟩
      obtain ⟨marked, plain, files⟩ := publishWithBinding_spec fits published
      have found := (enumerates.files_perm []).symm.trans files
      have fitsFound := fits.perm found.symm
      exact ⟨_, collectFiles_of_fits (enumerates.plain plain) fitsFound,
        (finish_perm fitsFound found).trans marked.symm⟩

/-- Three files, of which `a-b` splits `A` from `a/c`. -/
def Small.splitEntries : List TreeEntry :=
  [.regular "A" [1], .regular "a-b" [2], .regular "a/c" [3]]

/-- The directory that is written for them. -/
def Small.splitTree : Listing :=
  .file (some "a-b") [2] false (.file (some "A") [1] false
    (.directory (some "a") (.file (some "c") [3] false .done) .done))

/-- Another enumeration of this directory. -/
def Small.splitListing : Listing :=
  .directory (some "a") (.file (some "c") [3] false .done)
    (.file (some "A") [1] false (.file (some "a-b") [2] false .done))

/-- The directory enumerated from its end. -/
theorem Small.splitTree_enumerates : Enumerates splitTree splitListing := by
  have first : Enumerates splitTree (.file (some "A") [1] false (.file (some "a-b") [2] false
      (.directory (some "a") (.file (some "c") [3] false .done) .done))) :=
    .swap (.file (some "a-b") [2] false) (.file (some "A") [1] false) _
  refine first.trans (.trans (.file (.swap (.file (some "a-b") [2] false)
    (.directory (some "a") (.file (some "c") [3] false .done)) .done)) ?_)
  exact .swap (.file (some "A") [1] false)
    (.directory (some "a") (.file (some "c") [3] false .done)) (.file (some "a-b") [2] false .done)

/-- The lowercased path `a` is accepted together with `a/c`, and the view that is published and
validated is refused in another order of enumeration. -/
theorem not_pathsApart : ¬ PathsApart Small.splitEntries ∧ ∃ view listing,
    publishWithBinding Small.splitEntries = .ok view ∧ Enumerates view.tree listing ∧
      (collectFiles view.tree .new).isOk = true ∧ (collectFiles listing .new).isOk = false := by
  constructor
  · intro apart
    have free := apart.collisionFree _ (List.Perm.refl _)
    have entries : (TreeBuilder.run Small.splitEntries).entries = Small.splitEntries := by
      decide +kernel
    rw [entries] at free
    refine (List.pairwise_cons.mp free).1 (.regular "a/c" [3]) (by simp) (.inr (.inl ⟨['c'], ?_⟩))
    decide +kernel
  · refine ⟨⟨Small.splitTree, Small.splitEntries, 3⟩, Small.splitListing, ?_,
      Small.splitTree_enumerates, ?_, ?_⟩
    · have published : (publishWithBinding Small.splitEntries).map
          (fun view => (view.tree, view.validated, view.total)) =
            .ok (Small.splitTree, Small.splitEntries, 3) := by
        decide +kernel
      cases outcome : publishWithBinding Small.splitEntries with
      | error cause =>
        rw [outcome] at published
        cases published
      | ok view =>
        rw [outcome] at published
        obtain ⟨tree, validated, total⟩ := view
        cases published
        rfl
    · decide +kernel
    · decide +kernel

end Rsolve
