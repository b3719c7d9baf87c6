import Mathlib.Algebra.GroupWithZero.Nat
import Rsolve.Core.Coordinates
import Rsolve.Lib.Checked
import Rsolve.Lib.Neighbours
import Rsolve.Lib.Segments

/-!
# The entries of a source tree

A builder accepts the entries of a source tree one by one. It refuses unsafe paths, entries beyond
its limits, and a path whose neighbour in the set of seen paths is an ancestor or a descendant of it.
Looking at neighbours is enough as long as no offered path splits another one from a path below it:
then the accepted entries collide in no order, and the order decides nothing.
-/
open Checked Ordered Segments

namespace Rsolve

/-- `MAX_ENTRIES`. -/
def maxEntries : Nat := 100000

/-- `MAX_TOTAL_BYTES`. -/
def maxTotalBytes : Nat := 268435456

/-- `MAX_BLOB_BYTES`. -/
def maxBlobBytes : Nat := 67108864

/-- `MAX_PATH_BYTES`. -/
def maxPathBytes : Nat := 4096

/-- `MAX_PATH_DEPTH`. -/
def maxPathDepth : Nat := 64

/-- `TreeError` — why a source tree is refused. -/
inductive TreeError
  | unsafePath
  | nonCanonicalPath
  | pathCollision
  | entryLimit
  | totalLimit
  | blobLimit
  | publicationConflict (path : List String)
  | invalidMarker (path : List String)
  | io (reason : String)
deriving Repr, DecidableEq

/-- `TreeEntry` — a regular file of a source tree. -/
structure TreeEntry where
  /-- The path below the tree. -/
  path : String
  /-- The content. -/
  bytes : List UInt8
  /-- The file is executable. -/
  executable : Bool
deriving Repr, DecidableEq

/-- `TreeEntry::regular`. -/
def TreeEntry.regular (path : String) (bytes : List UInt8) : TreeEntry := ⟨path, bytes, false⟩

/-- `TreeBuilder` — the entries accepted so far. -/
structure TreeBuilder where
  /-- The accepted entries. -/
  entries : List TreeEntry
  /-- The lowercased paths that were seen. -/
  seen : OrderedSet String
  /-- The bytes of the accepted entries. -/
  total : Nat

/-- `TreeBuilder::new`. -/
def TreeBuilder.new : TreeBuilder := ⟨[], .empty, 0⟩

/-- `str::is_ascii`. -/
def isAsciiText (text : String) : Bool :=
  text.toList.all (fun character => character.val < 128)

/-- `u8::is_ascii_control`. -/
def isAsciiControl (character : Char) : Bool :=
  character.val ≤ 0x1f || character.val == 0x7f

/-- A component that no source tree may have. -/
def unsafeComponent (component : String) : Bool :=
  component.isEmpty || component == "." || component == ".." ||
    toAsciiLowercase component == ".git"

/-- `validate_path`. -/
def validatePath (path : String) : Except TreeError Unit :=
  if path.isEmpty || byteLength path > maxPathBytes || path.toList.head? == some '/' ||
      path.toList.contains '\\' || path.toList.any isAsciiControl || !isAsciiText path then
    .error (if !isAsciiText path then .nonCanonicalPath else .unsafePath)
  else
    let components := segments '/' path
    if components.length > maxPathDepth || components.any unsafeComponent then .error .unsafePath
    else .ok ()

/-- `is_path_prefix`. -/
def isPathPrefix (start path : String) : Bool :=
  path == start ||
    (path.toList.length > start.toList.length && start.toList.isPrefixOf path.toList &&
      path.toList[start.toList.length]? == some '/')

/-- `TreeBuilder::check_path`. -/
def TreeBuilder.checkPath (builder : TreeBuilder) (path : String) : Except TreeError Unit := do
  validatePath path
  ensure (builder.entries.length < maxEntries) .entryLimit
  let key := toAsciiLowercase path
  let predecessorIsCollision := (builder.seen.floor? key).any
    (fun existing => isPathPrefix existing key)
  let successorIsCollision := (builder.seen.ceiling? key).any
    (fun existing => isPathPrefix key existing)
  ensure ((predecessorIsCollision || successorIsCollision) = false) .pathCollision

/-- `TreeBuilder::add` — the builder after the call and the result. A call that fails at the total
has already noted its path. -/
def TreeBuilder.add (builder : TreeBuilder) (entry : TreeEntry) :
    TreeBuilder × Except TreeError Unit :=
  match builder.checkPath entry.path with
  | .error cause => (builder, .error cause)
  | .ok () =>
    if entry.bytes.length > maxBlobBytes then (builder, .error .blobLimit)
    else if builder.entries.length ≥ maxEntries then (builder, .error .entryLimit)
    else
      let key := toAsciiLowercase entry.path
      if key ∈ builder.seen then (builder, .error .pathCollision)
      else
        let seen := builder.seen.add key
        let total := builder.total + entry.bytes.length
        if total > 18446744073709551615 then ({ builder with seen }, .error .totalLimit)
        else if total > maxTotalBytes then ({ builder with seen, total }, .error .totalLimit)
        else (⟨builder.entries ++ [entry], seen, total⟩, .ok ())

/-- The builder after a sequence of calls, whatever they return. -/
def TreeBuilder.run (calls : List TreeEntry) : TreeBuilder :=
  calls.foldl (fun builder entry => (builder.add entry).1) .new

/-- Calls up to the first that fails: `for entry in entries { builder.add(entry)?; }`. -/
def TreeBuilder.addAll (builder : TreeBuilder) (calls : List TreeEntry) :
    Except TreeError TreeBuilder :=
  calls.foldlM (fun builder entry =>
    (builder.add entry).2.map (fun _ => (builder.add entry).1)) builder

/-- `TreeBuilder::remaining_bytes`. -/
def TreeBuilder.remainingBytes (builder : TreeBuilder) : Nat := maxTotalBytes - builder.total

/-- `TreeBuilder::finish` — the entries by path. -/
def TreeBuilder.finish (builder : TreeBuilder) : List TreeEntry × Nat :=
  (Sorting.sortBy (fun left right => compare left.path right.path) builder.entries, builder.total)

/-! ### What collides -/

/-- The lowercased path. -/
def TreeEntry.key (entry : TreeEntry) : String := toAsciiLowercase entry.path

/-- One of two paths is the other one or above it. -/
def Collide (first second : TreeEntry) : Prop :=
  first.key = second.key ∨ Lengthens '/' first.key.toList second.key.toList ∨
    Lengthens '/' second.key.toList first.key.toList

/-- No two entries collide. -/
def CollisionFree (entries : List TreeEntry) : Prop :=
  entries.Pairwise (fun first second => ¬ Collide first second)

/-- An entry with a safe path and a content within the limit. -/
def TreeEntry.Admissible (entry : TreeEntry) : Prop :=
  validatePath entry.path = .ok () ∧ entry.bytes.length ≤ maxBlobBytes

/-- An admissible path continues one with a character below `/`, and another one is below it. -/
def SplitPath (offered : List TreeEntry) : Prop :=
  ∃ above ∈ offered, ∃ between ∈ offered, ∃ below ∈ offered,
    (above.Admissible ∧ between.Admissible ∧ below.Admissible) ∧
      Splits '/' above.key.toList between.key.toList ∧
        Lengthens '/' above.key.toList below.key.toList

/-! ### Neighbours -/

/-- One text is not above another one exactly when its characters are not. -/
theorem compare_ne_gt_iff {left right : String} :
    compare left right ≠ .gt ↔ ¬ right.toList < left.toList := by
  rw [← String.lt_iff_toList_lt]
  change compareOfLessAndEq left right ≠ .gt ↔ _
  unfold compareOfLessAndEq
  split
  · next less => simp [lt_asymm less]
  · next notLess =>
    split
    · next equal => simp [equal]
    · next differs => simpa using lt_of_le_of_ne (not_lt.mp notLess) (Ne.symm differs)

/-- A path prefix is the path or one above it. -/
theorem isPathPrefix_iff {start path : String} : isPathPrefix start path = true ↔
    path = start ∨ Lengthens '/' start.toList path.toList := by
  unfold isPathPrefix
  rw [Bool.or_eq_true, beq_iff_eq]
  refine or_congr_right ?_
  rw [Bool.and_eq_true, Bool.and_eq_true, List.isPrefixOf_iff_prefix, beq_iff_eq]
  constructor
  · rintro ⟨⟨-, tail, parts⟩, next⟩
    rw [← parts, List.getElem?_append_right (le_refl _), Nat.sub_self] at next
    cases tail with
    | nil => cases next
    | cons first rest =>
      obtain rfl : first = '/' := Option.some.inj next
      exact ⟨rest, parts.symm⟩
  · rintro ⟨rest, parts⟩
    rw [parts]
    refine ⟨⟨?_, List.prefix_append _ _⟩, ?_⟩
    · simp
    · rw [List.getElem?_append_right (le_refl _), Nat.sub_self]
      rfl

/-- What is between a path and one below it is below the path or splits it off. -/
theorem convex_isPathPrefix : Convex isPathPrefix
    (fun above between below => Splits '/' above.toList between.toList ∧
      Lengthens '/' above.toList below.toList) where
  le covered := by
    rw [compare_ne_gt_iff]
    rcases isPathPrefix_iff.mp covered with rfl | ⟨rest, parts⟩
    · exact lt_irrefl _
    · rw [parts]
      exact lt_asymm (lt_append_cons _ _ rest)
  between := by
    intro above between below covered after before
    rw [compare_ne_gt_iff] at after before
    have same : between.toList = above.toList → isPathPrefix above between = true :=
      fun equal => isPathPrefix_iff.mpr (.inl (String.toList_injective equal))
    rcases isPathPrefix_iff.mp covered with rfl | lengthens
    · exact .inl (same (le_antisymm (not_lt.mp before) (not_lt.mp after)))
    · rcases between_lengthens lengthens after before with equal | under | splits
      · exact .inl (same equal)
      · exact .inl (isPathPrefix_iff.mpr (.inr under))
      · exact .inr ⟨splits, lengthens⟩

variable {builder : TreeBuilder} {entry : TreeEntry} {offered : List TreeEntry}

/-- Colliding is symmetric. -/
theorem Collide.symm {first second : TreeEntry} (collide : Collide first second) :
    Collide second first :=
  collide.elim (fun equal => .inl equal.symm) (fun either => .inr either.symm)

instance : Std.Symm (fun first second => ¬ Collide first second) :=
  ⟨fun _ _ clear collide => clear collide.symm⟩

/-- Entries collide when a path prefix relates their paths. -/
theorem collide_iff {first second : TreeEntry} : Collide first second ↔
    isPathPrefix first.key second.key = true ∨ isPathPrefix second.key first.key = true := by
  rw [isPathPrefix_iff, isPathPrefix_iff, Collide]
  constructor
  · rintro (equal | lengthens | lengthens)
    · exact .inl (.inl equal.symm)
    · exact .inl (.inr lengthens)
    · exact .inr (.inr lengthens)
  · rintro ((equal | lengthens) | (equal | lengthens))
    · exact .inl equal.symm
    · exact .inr (.inl lengthens)
    · exact .inl equal
    · exact .inr (.inr lengthens)

/-- A path passes its check when it is safe, there is room and it meets no neighbour. -/
theorem checkPath_eq_ok : builder.checkPath entry.path = .ok () ↔
    validatePath entry.path = .ok () ∧ builder.entries.length < maxEntries ∧
      meetsNeighbour isPathPrefix builder.seen entry.key = false := by
  simp only [TreeBuilder.checkPath, bind_eq_ok, ensure_eq_ok, meetsNeighbour, TreeEntry.key]
  constructor
  · rintro ⟨_, valid, _, room, clear⟩
    exact ⟨valid, room, clear⟩
  · rintro ⟨valid, room, clear⟩
    exact ⟨(), valid, (), room, clear⟩

/-- What a call does that gets past the checks of the path and the content. -/
theorem add_of_checked (admissible : entry.Admissible)
    (checked : builder.checkPath entry.path = .ok ()) (fresh : entry.key ∉ builder.seen) :
    builder.add entry =
      if builder.total + entry.bytes.length > 18446744073709551615 then
        ({ builder with seen := builder.seen.add entry.key }, .error .totalLimit)
      else if builder.total + entry.bytes.length > maxTotalBytes then
        (⟨builder.entries, builder.seen.add entry.key, builder.total + entry.bytes.length⟩,
          .error .totalLimit)
      else (⟨builder.entries ++ [entry], builder.seen.add entry.key,
        builder.total + entry.bytes.length⟩, .ok ()) := by
  have room := (checkPath_eq_ok.mp checked).2.1
  simp only [TreeBuilder.add, checked]
  rw [if_neg (Nat.not_lt.mpr admissible.2), if_neg (Nat.not_le.mpr room)]
  exact if_neg fresh

/-- A call leaves the builder as it is, or notes a fresh path that passed its check and keeps the
entry or not. -/
theorem add_cases (builder : TreeBuilder) (entry : TreeEntry) :
    (builder.add entry).1 = builder ∧ (builder.add entry).2 ≠ .ok () ∨
      entry.Admissible ∧ builder.checkPath entry.path = .ok () ∧ entry.key ∉ builder.seen ∧
        (builder.add entry).1.seen = builder.seen.add entry.key ∧
          ((builder.add entry).1.entries = builder.entries ∧ (builder.add entry).2 ≠ .ok () ∨
            (builder.add entry).1.entries = builder.entries ++ [entry]) := by
  cases checked : builder.checkPath entry.path with
  | error cause => exact .inl (by simp [TreeBuilder.add, checked])
  | ok passed =>
    by_cases large : entry.bytes.length > maxBlobBytes
    · exact .inl (by simp [TreeBuilder.add, checked, large])
    · have admissible : entry.Admissible :=
        ⟨(checkPath_eq_ok.mp checked).1, Nat.not_lt.mp large⟩
      have room := (checkPath_eq_ok.mp checked).2.1
      by_cases seen : entry.key ∈ builder.seen
      · refine .inl ?_
        have noted : toAsciiLowercase entry.path ∈ builder.seen := seen
        simp [TreeBuilder.add, checked, large, Nat.not_le.mpr room, noted]
      · refine .inr ⟨admissible, rfl, seen, ?_⟩
        rw [add_of_checked admissible checked seen]
        split
        · exact ⟨rfl, .inl ⟨rfl, by simp⟩⟩
        · split
          · exact ⟨rfl, .inl ⟨rfl, by simp⟩⟩
          · exact ⟨rfl, .inr rfl⟩

/-! ### What every run keeps -/

/-- The lowercased paths of admissible entries. -/
def AdmissibleKey (offered : List TreeEntry) (key : String) : Prop :=
  ∃ entry ∈ offered, entry.Admissible ∧ entry.key = key

/-- What holds of a builder after calls with offered entries. -/
structure Apart (offered : List TreeEntry) (builder : TreeBuilder) : Prop where
  /-- The seen paths are offered. -/
  known : ∀ key ∈ builder.seen, AdmissibleKey offered key
  /-- The seen paths do not collide. -/
  free : CoverFree isPathPrefix builder.seen
  /-- The paths of the entries are seen. -/
  noted : ∀ entry ∈ builder.entries, entry.key ∈ builder.seen
  /-- The paths of the entries differ. -/
  distinct : builder.entries.Pairwise (fun first second => first.key ≠ second.key)

/-- Where no path is split, nothing separates a path from one below it. -/
theorem unbroken_of_not_splitPath (whole : ¬ SplitPath offered) :
    Unbroken (fun above between below : String => Splits '/' above.toList between.toList ∧
      Lengthens '/' above.toList below.toList) (AdmissibleKey offered) := by
  rintro _ _ _ ⟨above, aboveIn, aboveOk, rfl⟩ ⟨between, betweenIn, betweenOk, rfl⟩
    ⟨below, belowIn, belowOk, rfl⟩ separated
  exact whole ⟨above, aboveIn, between, betweenIn, below, belowIn,
    ⟨aboveOk, betweenOk, belowOk⟩, separated⟩

/-- Where no path is split, a path that passed its check collides with no seen path. -/
theorem Apart.clear (apart : Apart offered builder) (whole : ¬ SplitPath offered)
    (member : entry ∈ offered) (admissible : entry.Admissible)
    (checked : builder.checkPath entry.path = .ok ()) {key : String} (seen : key ∈ builder.seen) :
    isPathPrefix key entry.key = false ∧ isPathPrefix entry.key key = false := by
  refine not_covers_of_not_meetsNeighbour convex_isPathPrefix apart.free ?_
    (checkPath_eq_ok.mp checked).2.2 seen
  have known : ∀ item, item = entry.key ∨ item ∈ builder.seen → AdmissibleKey offered item := by
    rintro item (rfl | inside)
    · exact ⟨entry, member, admissible, rfl⟩
    · exact apart.known item inside
  exact fun above between below aboveIn betweenIn belowIn => unbroken_of_not_splitPath whole
    above between below (known above aboveIn) (known between betweenIn) (known below belowIn)

/-- A call with an offered entry keeps the paths apart. -/
theorem Apart.add (apart : Apart offered builder) (whole : ¬ SplitPath offered)
    (member : entry ∈ offered) : Apart offered (builder.add entry).1 := by
  rcases add_cases builder entry with ⟨same, -⟩ | ⟨admissible, checked, fresh, seen, entries⟩
  · rw [same]
    exact apart
  · have clear : ∀ key ∈ builder.seen, isPathPrefix key entry.key = false ∧
        isPathPrefix entry.key key = false := fun key =>
      apart.clear whole member admissible checked
    have noted : ∀ other ∈ builder.entries, other.key ∈ builder.seen.add entry.key :=
      fun other inside => OrderedSet.mem_add.mpr (.inr (apart.noted other inside))
    refine ⟨?_, ?_, ?_, ?_⟩
    · rw [seen]
      intro key inside
      rcases OrderedSet.mem_add.mp inside with rfl | inside
      · exact ⟨entry, member, admissible, rfl⟩
      · exact apart.known key inside
    · rw [seen]
      intro first firstIn second secondIn covers
      rcases OrderedSet.mem_add.mp firstIn with rfl | firstIn <;>
        rcases OrderedSet.mem_add.mp secondIn with rfl | secondIn
      · rfl
      · rw [(clear second secondIn).2] at covers
        cases covers
      · rw [(clear first firstIn).1] at covers
        cases covers
      · exact apart.free first firstIn second secondIn covers
    · rw [seen]
      rcases entries with ⟨same, -⟩ | grown
      · rw [same]
        exact noted
      · rw [grown]
        intro other inside
        rcases List.mem_append.mp inside with earlier | last
        · exact noted other earlier
        · rw [List.mem_singleton.mp last]
          exact OrderedSet.mem_add.mpr (.inl rfl)
    · rcases entries with ⟨same, -⟩ | grown
      · rw [same]
        exact apart.distinct
      · rw [grown]
        refine List.pairwise_append.mpr ⟨apart.distinct, List.pairwise_singleton _ _, ?_⟩
        intro other inside last lastIn equal
        rw [List.mem_singleton.mp lastIn] at equal
        exact fresh (equal ▸ apart.noted other inside)

/-- The empty builder keeps the paths apart. -/
theorem apart_new (offered : List TreeEntry) : Apart offered .new where
  known _ inside := absurd inside (OrderedSet.not_mem_empty _)
  free _ inside := absurd inside (OrderedSet.not_mem_empty _)
  noted _ inside := absurd inside List.not_mem_nil
  distinct := List.Pairwise.nil

/-- Every run keeps the paths apart where no path is split. -/
theorem apart_run (whole : ¬ SplitPath offered) {calls : List TreeEntry}
    (known : ∀ entry ∈ calls, entry ∈ offered) : Apart offered (.run calls) := by
  have runs : ∀ (calls : List TreeEntry) (builder : TreeBuilder), Apart offered builder →
      (∀ entry ∈ calls, entry ∈ offered) →
        Apart offered (calls.foldl (fun builder entry => (builder.add entry).1) builder) := by
    intro calls
    induction calls with
    | nil => exact fun _ apart _ => apart
    | cons entry calls ih =>
      intro builder apart known
      exact ih _ (apart.add whole (known entry List.mem_cons_self))
        (fun other inside => known other (List.mem_cons_of_mem _ inside))
  exact runs calls .new (apart_new offered) known

/-- Entries whose paths are kept apart do not collide. -/
theorem Apart.collisionFree (apart : Apart offered builder) : CollisionFree builder.entries := by
  refine apart.distinct.imp_of_mem fun {first second} firstIn secondIn differs collide => ?_
  rcases collide_iff.mp collide with covers | covers
  · exact differs (apart.free _ (apart.noted _ firstIn) _ (apart.noted _ secondIn) covers)
  · exact differs (apart.free _ (apart.noted _ secondIn) _ (apart.noted _ firstIn) covers).symm

/-! ### What is accepted as a whole -/

/-- The bytes of entries. -/
def totalBytes (entries : List TreeEntry) : Nat :=
  (entries.map (fun entry => entry.bytes.length)).sum

/-- The builder that accepted entries. -/
def TreeBuilder.built (entries : List TreeEntry) : TreeBuilder :=
  ⟨entries, .ofList (entries.map TreeEntry.key), totalBytes entries⟩

/-- Entries that form a source tree. -/
structure Fits (entries : List TreeEntry) : Prop where
  /-- Every path is safe and every content within its limit. -/
  admissible : ∀ entry ∈ entries, entry.Admissible
  /-- No paths collide. -/
  free : CollisionFree entries
  /-- There are not too many entries. -/
  few : entries.length ≤ maxEntries
  /-- The contents are not too large together. -/
  small : totalBytes entries ≤ maxTotalBytes

/-- Whether entries form a source tree does not depend on their order. -/
theorem Fits.perm {left right : List TreeEntry} (fits : Fits left) (order : left.Perm right) :
    Fits right where
  admissible entry member := fits.admissible entry (order.mem_iff.mpr member)
  free := (order.pairwise_iff (fun clear collide => clear collide.symm)).mp fits.free
  few := order.length_eq ▸ fits.few
  small := by
    have same : totalBytes right = totalBytes left := (order.symm.map _).sum_nat
    exact same ▸ fits.small

/-- The first of the entries of a source tree form one. -/
theorem Fits.front {front back : List TreeEntry} (fits : Fits (front ++ back)) : Fits front where
  admissible entry member := fits.admissible entry (List.mem_append_left _ member)
  free := (List.pairwise_append.mp fits.free).1
  few := by
    have few := fits.few
    rw [List.length_append] at few
    omega
  small := by
    have small := fits.small
    simp only [totalBytes, List.map_append, List.sum_append] at small ⊢
    omega

/-- The seen paths of a builder that accepted entries. -/
theorem mem_seen_built {done : List TreeEntry} {key : String} :
    key ∈ (TreeBuilder.built done).seen ↔ ∃ entry ∈ done, entry.key = key := by
  simp [TreeBuilder.built]

/-- The builder after one more entry. -/
theorem built_concat (done : List TreeEntry) (entry : TreeEntry) :
    TreeBuilder.built (done ++ [entry]) =
      ⟨done ++ [entry], (TreeBuilder.built done).seen.add entry.key,
        (TreeBuilder.built done).total + entry.bytes.length⟩ := by
  have seen : OrderedSet.ofList ((done ++ [entry]).map TreeEntry.key) =
      (TreeBuilder.built done).seen.add entry.key := by
    refine OrderedSet.ext_of_mem fun key => ?_
    simp only [OrderedSet.mem_ofList, OrderedSet.mem_add, TreeBuilder.built, List.map_append,
      List.mem_append, List.map_cons, List.map_nil, List.mem_singleton]
    exact or_comm
  rw [TreeBuilder.built, seen]
  simp [totalBytes, TreeBuilder.built]

/-- An admissible entry that meets no neighbour and for which there is room is accepted. -/
theorem add_of_room {done : List TreeEntry} (admissible : entry.Admissible)
    (few : done.length < maxEntries)
    (clear : meetsNeighbour isPathPrefix (TreeBuilder.built done).seen entry.key = false)
    (fresh : ∀ other ∈ done, other.key ≠ entry.key)
    (small : totalBytes done + entry.bytes.length ≤ maxTotalBytes) :
    (TreeBuilder.built done).add entry = (.built (done ++ [entry]), .ok ()) := by
  have checked : (TreeBuilder.built done).checkPath entry.path = .ok () :=
    checkPath_eq_ok.mpr ⟨admissible.1, few, clear⟩
  have unseen : entry.key ∉ (TreeBuilder.built done).seen := by
    intro seen
    obtain ⟨other, member, equal⟩ := mem_seen_built.mp seen
    exact fresh other member equal
  have total : (TreeBuilder.built done).total + entry.bytes.length ≤ maxTotalBytes := small
  have room : maxTotalBytes < 18446744073709551615 := by decide
  rw [add_of_checked admissible checked unseen, if_neg (by omega), if_neg (by omega), built_concat]
  rfl

/-- An entry that forms a source tree with the accepted ones is accepted. -/
theorem add_of_fits {done : List TreeEntry} (fits : Fits (done ++ [entry])) :
    (TreeBuilder.built done).add entry = (.built (done ++ [entry]), .ok ()) := by
  have clear : ∀ other ∈ done, ¬ Collide other entry := fun other member =>
    (List.pairwise_append.mp fits.free).2.2 other member entry List.mem_cons_self
  have few := fits.few
  have small := fits.small
  rw [List.length_append, List.length_singleton] at few
  refine add_of_room (fits.admissible entry (List.mem_append_right _ List.mem_cons_self))
    (Nat.lt_of_succ_le few) (not_meetsNeighbour fun key seen => ?_)
    (fun other member equal => clear other member (.inl equal))
    (by simpa [totalBytes] using small)
  obtain ⟨other, member, rfl⟩ := mem_seen_built.mp seen
  have apart := mt collide_iff.mpr (clear other member)
  simpa using apart

/-- A builder that accepted the entries of a source tree keeps the paths apart. -/
theorem Fits.apart {done : List TreeEntry} (fits : Fits done)
    (known : ∀ entry ∈ done, entry ∈ offered) : Apart offered (.built done) where
  known key seen := by
    obtain ⟨entry, member, equal⟩ := mem_seen_built.mp seen
    exact ⟨entry, known entry member, fits.admissible entry member, equal⟩
  free first firstSeen second secondSeen covers := by
    obtain ⟨one, oneIn, rfl⟩ := mem_seen_built.mp firstSeen
    obtain ⟨other, otherIn, rfl⟩ := mem_seen_built.mp secondSeen
    by_contra differs
    have apart := fits.free.forall oneIn otherIn
      (fun equal => differs (congrArg TreeEntry.key equal))
    exact apart (collide_iff.mpr (.inl covers))
  noted entry member := mem_seen_built.mpr ⟨entry, member, rfl⟩
  distinct := fits.free.imp fun clear equal => clear (.inl equal)

/-- Where no path is split, an accepted entry forms a source tree with the accepted ones. -/
theorem fits_of_add {done : List TreeEntry} (whole : ¬ SplitPath offered)
    (known : ∀ other ∈ done ++ [entry], other ∈ offered) (fits : Fits done)
    (added : ((TreeBuilder.built done).add entry).2 = .ok ()) : Fits (done ++ [entry]) := by
  have apart := fits.apart fun other member => known other (List.mem_append_left _ member)
  have entryIn := known entry (List.mem_append_right _ List.mem_cons_self)
  rcases add_cases (.built done) entry with
    ⟨-, failed⟩ | ⟨admissible, checked, fresh, -, -⟩
  · exact absurd added failed
  · have total : totalBytes done + entry.bytes.length ≤ maxTotalBytes := by
      rw [add_of_checked admissible checked fresh] at added
      by_contra large
      split at added
      · cases added
      · split at added
        · cases added
        · next room => exact large (Nat.not_lt.mp room)
    refine ⟨?_, ?_, ?_, ?_⟩
    · intro other member
      rcases List.mem_append.mp member with earlier | last
      · exact fits.admissible other earlier
      · rw [List.mem_singleton.mp last]
        exact admissible
    · refine List.pairwise_append.mpr ⟨fits.free, List.pairwise_singleton _ _, ?_⟩
      intro other member last lastIn collide
      rw [List.mem_singleton.mp lastIn] at collide
      have clear := apart.clear whole entryIn admissible checked
        (mem_seen_built.mpr ⟨other, member, rfl⟩)
      rcases collide_iff.mp collide with covers | covers
      · rw [clear.1] at covers
        cases covers
      · rw [clear.2] at covers
        cases covers
    · rw [List.length_append, List.length_singleton]
      exact (checkPath_eq_ok.mp checked).2.1
    · simpa [totalBytes] using total

/-- Calls that form a source tree with the accepted entries all succeed. -/
theorem addAll_of_fits (done calls : List TreeEntry) (fits : Fits (done ++ calls)) :
    (TreeBuilder.built done).addAll calls = .ok (.built (done ++ calls)) := by
  induction calls generalizing done with
  | nil =>
    rw [List.append_nil]
    rfl
  | cons entry calls ih =>
    have split : done ++ entry :: calls = done ++ [entry] ++ calls := by simp
    rw [split] at fits ⊢
    rw [TreeBuilder.addAll, List.foldlM_cons, add_of_fits fits.front]
    exact ih (done ++ [entry]) fits

/-- Where no path is split, calls that all succeed form a source tree with the accepted entries. -/
theorem fits_of_addAll (whole : ¬ SplitPath offered) (done calls : List TreeEntry)
    (known : ∀ entry ∈ done ++ calls, entry ∈ offered) (fits : Fits done) {result : TreeBuilder}
    (added : (TreeBuilder.built done).addAll calls = .ok result) : Fits (done ++ calls) := by
  induction calls generalizing done with
  | nil => rwa [List.append_nil]
  | cons entry calls ih =>
    have split : done ++ entry :: calls = done ++ [entry] ++ calls := by simp
    rw [split] at known ⊢
    rw [TreeBuilder.addAll, List.foldlM_cons] at added
    obtain ⟨next, stepped, continued⟩ := bind_eq_ok.mp added
    have succeeded : ((TreeBuilder.built done).add entry).2 = .ok () := by
      cases outcome : ((TreeBuilder.built done).add entry).2 with
      | ok => rfl
      | error cause =>
        rw [outcome] at stepped
        cases stepped
    have fitsNext := fits_of_add whole
      (fun other member => known other (List.mem_append_left _ member)) fits succeeded
    rw [add_of_fits fitsNext] at stepped
    obtain rfl := Except.ok.inj stepped
    exact ih (done ++ [entry]) known fitsNext continued

/-- No entries form a source tree. -/
theorem fits_nil : Fits [] := ⟨by simp, List.Pairwise.nil, Nat.zero_le _, Nat.zero_le _⟩

/-- Where no path is split, calls succeed together exactly when their entries form a source tree,
whatever their order. -/
theorem addAll_new_iff (whole : ¬ SplitPath offered) {calls : List TreeEntry}
    (known : ∀ entry ∈ calls, entry ∈ offered) :
    (∃ builder, TreeBuilder.new.addAll calls = .ok builder) ↔ Fits calls := by
  constructor
  · rintro ⟨builder, added⟩
    exact fits_of_addAll whole [] calls known fits_nil added
  · exact fun fits => ⟨_, addAll_of_fits [] calls fits⟩

/-! ### A split path -/

/-- A path prefix does not come after its path. -/
theorem not_isPathPrefix_of_lt {start path : String} (less : path.toList < start.toList) :
    isPathPrefix start path = false := by
  by_contra covers
  exact compare_ne_gt_iff.mp (convex_isPathPrefix.le (by simpa using covers)) less

/-- A path that neither is another one nor is below it has no path prefix in it. -/
theorem not_isPathPrefix {start path : String} (differs : start.toList < path.toList)
    (apart : ¬ Lengthens '/' start.toList path.toList) : isPathPrefix start path = false := by
  by_contra covers
  rcases isPathPrefix_iff.mp (by simpa using covers) with rfl | lengthens
  · exact lt_irrefl _ differs
  · exact apart lengthens

/-- Three entries that split a path are all accepted. -/
theorem run_of_splitPath {above between below : TreeEntry}
    (admissible : above.Admissible ∧ between.Admissible ∧ below.Admissible)
    (splits : Splits '/' above.key.toList between.key.toList)
    (lengthens : Lengthens '/' above.key.toList below.key.toList) :
    TreeBuilder.run [above, between, below] = .built [above, between, below] := by
  obtain ⟨aboveOk, betweenOk, belowOk⟩ := admissible
  have later : above.key.toList < between.key.toList := splits.after
  have last : between.key.toList < below.key.toList := splits.lt lengthens
  have room : 3 * maxBlobBytes ≤ maxTotalBytes := by decide
  have aboveSmall := aboveOk.2
  have betweenSmall := betweenOk.2
  have belowSmall := belowOk.2
  have few : 2 < maxEntries := by decide
  have first : (TreeBuilder.built []).add above = (.built [above], .ok ()) := by
    refine add_of_room aboveOk (Nat.zero_lt_of_lt few) rfl nofun ?_
    simp only [totalBytes, List.map_nil, List.sum_nil]
    omega
  have second : (TreeBuilder.built [above]).add between = (.built [above, between], .ok ()) := by
    refine add_of_room betweenOk (Nat.lt_of_succ_lt few) (not_meetsNeighbour fun key seen => ?_)
      (fun other member equal => ?_) ?_
    · obtain ⟨other, member, rfl⟩ := mem_seen_built.mp seen
      rw [List.mem_singleton.mp member]
      exact ⟨not_isPathPrefix later splits.not_lengthens, not_isPathPrefix_of_lt later⟩
    · rw [List.mem_singleton.mp member] at equal
      exact lt_irrefl _ (equal ▸ later)
    · simp only [totalBytes, List.map_cons, List.map_nil, List.sum_cons, List.sum_nil]
      omega
  have third : (TreeBuilder.built [above, between]).add below =
      (.built [above, between, below], .ok ()) := by
    have before : ∀ other ∈ [above, between], other.key.toList < below.key.toList := by
      intro other member
      rcases List.mem_pair.mp member with rfl | rfl
      · exact lt_trans later last
      · exact last
    refine add_of_room belowOk few (Bool.or_eq_false_iff.mpr ⟨?_, ?_⟩)
      (fun other member equal => lt_irrefl _ (equal ▸ before other member)) ?_
    · -- The neighbour below the path is the entry that splits it off.
      cases found : (TreeBuilder.built [above, between]).seen.floor? below.key with
      | none => rfl
      | some key =>
        obtain ⟨other, member, rfl⟩ := mem_seen_built.mp (OrderedSet.mem_of_floor? found)
        rcases List.mem_pair.mp member with rfl | rfl
        · have betweenIn : between.key ∈ (TreeBuilder.built [other, between]).seen :=
            mem_seen_built.mpr ⟨between, by simp, rfl⟩
          exact absurd later (compare_ne_gt_iff.mp (OrderedSet.le_floor? found betweenIn
            (compare_ne_gt_iff.mpr (lt_asymm last))))
        · exact not_isPathPrefix last (splits.not_lengthens_of_lengthens lengthens)
    · cases found : (TreeBuilder.built [above, between]).seen.ceiling? below.key with
      | none => rfl
      | some key =>
        obtain ⟨other, member, rfl⟩ := mem_seen_built.mp (OrderedSet.mem_of_ceiling? found)
        exact not_isPathPrefix_of_lt (before other member)
    · simp only [totalBytes, List.map_cons, List.map_nil, List.sum_cons, List.sum_nil]
      omega
  change ((((TreeBuilder.built []).add above).1.add between).1.add below).1 = _
  rw [first, second, third]

/-- The accepted entries stay accepted. -/
theorem entries_prefix_foldl (calls : List TreeEntry) (builder : TreeBuilder) :
    builder.entries <+:
      (calls.foldl (fun builder entry => (builder.add entry).1) builder).entries := by
  induction calls generalizing builder with
  | nil => exact List.prefix_rfl
  | cons entry calls ih =>
    refine List.IsPrefix.trans ?_ (ih (builder.add entry).1)
    rcases add_cases builder entry with ⟨same, -⟩ | ⟨-, -, -, -, ⟨same, -⟩ | grown⟩
    · rw [same]
    · rw [same]
    · rw [grown]
      exact List.prefix_append _ _

/-- A split path makes some order of the calls accept entries that collide. -/
theorem exists_collision (split : SplitPath offered) : ∃ calls, calls.Perm offered ∧
    ¬ CollisionFree (TreeBuilder.run calls).entries := by
  obtain ⟨above, aboveIn, between, betweenIn, below, belowIn, admissible, splits, lengthens⟩ := split
  have later : above.key.toList < between.key.toList := splits.after
  have last : between.key.toList < below.key.toList := splits.lt lengthens
  have apart : ∀ {first second : TreeEntry}, first.key.toList < second.key.toList →
      first ≠ second := fun less equal => lt_irrefl _ (equal ▸ less)
  have distinct : [above, between, below].Nodup := by
    simp [apart later, apart last, apart (lt_trans later last)]
  have inside : [above, between, below] ⊆ offered := by
    simp [aboveIn, betweenIn, belowIn]
  obtain ⟨chosen, same, sublist⟩ := List.subperm_of_subset distinct inside
  obtain ⟨rest, order⟩ := sublist.exists_perm_append
  replace order := order.trans (same.append_right rest)
  refine ⟨[above, between, below] ++ rest, order.symm, fun free => ?_⟩
  have kept := entries_prefix_foldl rest (TreeBuilder.run [above, between, below])
  rw [run_of_splitPath admissible splits lengthens] at kept
  rw [TreeBuilder.run, List.foldl_append] at free
  change CollisionFree (rest.foldl _ (TreeBuilder.run [above, between, below])).entries at free
  rw [run_of_splitPath admissible splits lengthens] at free
  have front := List.Pairwise.sublist kept.sublist free
  exact (List.pairwise_cons.mp front).1 below (by simp) (.inr (.inl lengthens))

end Rsolve
