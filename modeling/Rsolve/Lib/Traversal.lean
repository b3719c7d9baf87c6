import Mathlib.Data.List.Basic
import Mathlib.Logic.Relation

/-!
# Depth-first visits

A visit marks the key of a node and then visits its children in turn, sharing the marks; a node
whose key is marked is left alone. A child may be an error, which ends the visit. Fuel bounds the
depth; as much fuel as there are unmarked keys is enough, on every graph.
-/
namespace Traversal

universe u v w

variable {κ : Type u} {ν : Type v} {ε : Type w}

/-- Visit children in turn; no result means that the fuel ran out. -/
def visitEach (step : List κ → ν → Option (Except ε (List κ))) :
    List κ → List (Except ε ν) → Option (Except ε (List κ))
  | marked, [] => some (.ok marked)
  | _, .error cause :: _ => some (.error cause)
  | marked, .ok child :: rest =>
    match step marked child with
    | none => none
    | some (.error cause) => some (.error cause)
    | some (.ok extended) => visitEach step extended rest

variable [DecidableEq κ] (key : ν → κ) (children : ν → List (Except ε ν))

/-- Visit a node and everything that can be reached from it through unmarked nodes. -/
def visit : Nat → List κ → ν → Option (Except ε (List κ))
  | 0, _, _ => none
  | fuel + 1, marked, node =>
    if key node ∈ marked then some (.ok marked)
    else visitEach (visit fuel) (key node :: marked) (children node)

/-- One step along an edge. -/
def Child (parent child : ν) : Prop :=
  Except.ok child ∈ children parent

/-- Nodes that are told apart by their keys, closed under children. -/
structure Indexed (node : ν → Prop) : Prop where
  /-- A key belongs to one node. -/
  unique : ∀ first second, node first → node second → key first = key second → first = second
  /-- A child of a node is a node. -/
  child : ∀ parent child, node parent → Child children parent child → node child

/-- What a visit that starts from some marks leaves marked: the old marks, and new marks of nodes
that are reached, whose children are marked as well. -/
structure Covers (node : ν → Prop) (marked extended : List κ) (reached : ν → Prop) : Prop where
  /-- No mark is lost. -/
  keeps : ∀ mark ∈ marked, mark ∈ extended
  /-- Every new mark is the key of a reached node. -/
  sound : ∀ mark ∈ extended, mark ∈ marked ∨ ∃ found, reached found ∧ key found = mark
  /-- The children of the nodes with a new mark are marked. -/
  closed : ∀ parent, node parent → key parent ∈ extended → key parent ∉ marked →
    ∀ child, Child children parent child → key child ∈ extended

variable {key children} {node : ν → Prop} {marked extended : List κ}

omit [DecidableEq κ] in
/-- A visit that marks nothing covers. -/
theorem Covers.refl (marked : List κ) (reached : ν → Prop) :
    Covers key children node marked marked reached where
  keeps _ member := member
  sound _ member := .inl member
  closed _ _ member unmarked := absurd member unmarked

/-- Visits one after the other cover together. -/
theorem Covers.trans {between : List κ} {first second both : ν → Prop}
    (before : Covers key children node marked between first)
    (after : Covers key children node between extended second)
    (left : ∀ found, first found → both found) (right : ∀ found, second found → both found) :
    Covers key children node marked extended both where
  keeps mark member := after.keeps mark (before.keeps mark member)
  sound mark member := by
    rcases after.sound mark member with early | ⟨found, reached, named⟩
    · rcases before.sound mark early with old | ⟨found, reached, named⟩
      · exact .inl old
      · exact .inr ⟨found, left found reached, named⟩
    · exact .inr ⟨found, right found reached, named⟩
  closed parent valid member unmarked child edge := by
    by_cases early : key parent ∈ between
    · exact after.keeps _ (before.closed parent valid early unmarked child edge)
    · exact after.closed parent valid member early child edge

/-- What visiting a list of children leaves marked, when visiting one of them covers. -/
theorem visitEach_covers {step : List κ → ν → Option (Except ε (List κ))}
    {items : List (Except ε ν)}
    (covers : ∀ marked child extended, node child → step marked child = some (.ok extended) →
      Covers key children node marked extended (Relation.ReflTransGen (Child children) child) ∧
        key child ∈ extended)
    (valid : ∀ child, .ok child ∈ items → node child)
    (visited : visitEach step marked items = some (.ok extended)) :
    Covers key children node marked extended
        (fun found => ∃ child, .ok child ∈ items ∧
          Relation.ReflTransGen (Child children) child found) ∧
      ∀ item ∈ items, ∃ child, item = .ok child ∧ key child ∈ extended := by
  induction items generalizing marked with
  | nil =>
    obtain rfl : marked = extended := by simpa [visitEach] using visited
    exact ⟨Covers.refl marked _, by simp⟩
  | cons item rest ih =>
    cases item with
    | error cause => simp [visitEach] at visited
    | ok child =>
      simp only [visitEach] at visited
      split at visited
      · cases visited
      · cases visited
      · next between stepped =>
        obtain ⟨first, reached⟩ := covers marked child between (valid child List.mem_cons_self) stepped
        obtain ⟨second, others⟩ :=
          ih (fun other member => valid other (List.mem_cons_of_mem _ member)) visited
        refine ⟨first.trans second (fun found path => ⟨child, List.mem_cons_self, path⟩) ?_, ?_⟩
        · rintro found ⟨other, member, path⟩
          exact ⟨other, List.mem_cons_of_mem _ member, path⟩
        · refine List.forall_mem_cons.mpr ⟨⟨child, rfl, second.keeps _ reached⟩, others⟩

/-- A visit marks its node and covers what can be reached from it. -/
theorem visit_covers (indexed : Indexed key children node) {fuel : Nat} {start : ν}
    (valid : node start) (visited : visit key children fuel marked start = some (.ok extended)) :
    Covers key children node marked extended (Relation.ReflTransGen (Child children) start) ∧
      key start ∈ extended := by
  induction fuel generalizing marked extended start with
  | zero => cases visited
  | succ fuel ih =>
    simp only [visit] at visited
    split at visited
    · next known =>
      obtain rfl : marked = extended := by simpa using visited
      exact ⟨Covers.refl marked _, known⟩
    · next fresh =>
      obtain ⟨below, marks⟩ := visitEach_covers (fun _ _ _ => ih)
        (fun child edge => indexed.child start child valid edge) visited
      have itself : key start ∈ extended := below.keeps _ List.mem_cons_self
      refine ⟨⟨fun mark member => below.keeps mark (List.mem_cons_of_mem _ member), ?_, ?_⟩, itself⟩
      · intro mark member
        rcases below.sound mark member with old | ⟨found, ⟨child, edge, path⟩, named⟩
        · rcases List.mem_cons.mp old with rfl | old
          · exact .inr ⟨start, .refl, rfl⟩
          · exact .inl old
        · exact .inr ⟨found, .head edge path, named⟩
      · intro parent parentValid member unmarked child edge
        by_cases same : key parent = key start
        · -- the children of the node itself were visited one by one
          obtain rfl := indexed.unique parent start parentValid valid same
          obtain ⟨found, ⟨⟩, known⟩ := marks (.ok child) edge
          exact known
        · have fresh : key parent ∉ key start :: marked := by simp [same, unmarked]
          exact below.closed parent parentValid member fresh child edge

omit [DecidableEq κ] in
/-- A path leads from nodes to nodes. -/
theorem Indexed.path (indexed : Indexed key children node) {first last : ν} (valid : node first)
    (path : Relation.ReflTransGen (Child children) first last) : node last := by
  induction path with
  | refl => exact valid
  | tail _ edge between => exact indexed.child _ _ between edge

omit [DecidableEq κ] in
/-- Marks that cover from nothing hold every node reached from a marked one. -/
theorem Covers.mem_of_path (indexed : Indexed key children node) {reached : ν → Prop}
    (covers : Covers key children node [] extended reached) {first last : ν} (valid : node first)
    (known : key first ∈ extended) (path : Relation.ReflTransGen (Child children) first last) :
    key last ∈ extended := by
  induction path with
  | refl => exact known
  | tail before edge marked =>
    exact covers.closed _ (indexed.path valid before) marked List.not_mem_nil _ edge

omit [DecidableEq κ] in
/-- An error of a visit of a list is an error of the list or of one of its visits. -/
theorem visitEach_error {step : List κ → ν → Option (Except ε (List κ))}
    {items : List (Except ε ν)} {cause : ε}
    (failed : visitEach step marked items = some (.error cause)) :
    .error cause ∈ items ∨
      ∃ marked child, .ok child ∈ items ∧ step marked child = some (.error cause) := by
  induction items generalizing marked with
  | nil => simp [visitEach] at failed
  | cons item rest ih =>
    cases item with
    | error other =>
      obtain rfl : other = cause := by simpa [visitEach] using failed
      exact .inl List.mem_cons_self
    | ok child =>
      simp only [visitEach] at failed
      split at failed
      · cases failed
      · next other stepped =>
        obtain rfl : other = cause := by simpa using failed
        exact .inr ⟨marked, child, List.mem_cons_self, stepped⟩
      · rcases ih failed with member | ⟨before, other, member, stepped⟩
        · exact .inl (List.mem_cons_of_mem _ member)
        · exact .inr ⟨before, other, List.mem_cons_of_mem _ member, stepped⟩

/-- An error of a visit is the error of a child of some node. -/
theorem visit_error (indexed : Indexed key children node) {fuel : Nat} {start : ν} {cause : ε}
    (valid : node start) (failed : visit key children fuel marked start = some (.error cause)) :
    ∃ parent, node parent ∧ .error cause ∈ children parent := by
  induction fuel generalizing marked start with
  | zero => cases failed
  | succ fuel ih =>
    simp only [visit] at failed
    split at failed
    · cases failed
    · rcases visitEach_error failed with member | ⟨before, child, edge, stepped⟩
      · exact ⟨start, valid, member⟩
      · exact ih (indexed.child start child valid edge) stepped

/-- The number of keys without a mark. -/
def unmarked (keys marked : List κ) : Nat :=
  (keys.filter (fun key => key ∉ marked)).length

/-- More marks leave fewer keys without one. -/
theorem unmarked_le {keys : List κ} (keeps : ∀ mark ∈ marked, mark ∈ extended) :
    unmarked keys extended ≤ unmarked keys marked := by
  apply List.Sublist.length_le
  apply List.monotone_filter_right
  intro key
  simpa using fun fresh known => fresh (keeps key known)

/-- A new mark on one of the keys leaves fewer keys without one. -/
theorem unmarked_cons_lt {keys : List κ} {mark : κ} (member : mark ∈ keys)
    (fresh : mark ∉ marked) : unmarked keys (mark :: marked) < unmarked keys marked := by
  have sublist : (keys.filter (fun key => key ∉ mark :: marked)).Sublist
      (keys.filter (fun key => key ∉ marked)) := by
    apply List.monotone_filter_right
    intro key
    simp
  apply Nat.lt_of_le_of_ne sublist.length_le
  intro equal
  have same := sublist.eq_of_length equal
  have kept : mark ∈ keys.filter (fun key => key ∉ marked) := by simp [member, fresh]
  rw [← same] at kept
  simp at kept

omit [DecidableEq κ] in
/-- A visit of a list ends when the visits of its elements do, as long as these keep what they
need of the marks. -/
theorem visitEach_ends {step : List κ → ν → Option (Except ε (List κ))}
    {items : List (Except ε ν)} {invariant : List κ → Prop}
    (ends : ∀ marked child, .ok child ∈ items → invariant marked →
      ∃ result, step marked child = some result ∧
        ∀ extended, result = .ok extended → invariant extended)
    (initial : invariant marked) : ∃ result, visitEach step marked items = some result := by
  induction items generalizing marked with
  | nil => exact ⟨_, rfl⟩
  | cons item rest ih =>
    cases item with
    | error cause => exact ⟨_, rfl⟩
    | ok child =>
      obtain ⟨result, stepped, keeps⟩ := ends marked child List.mem_cons_self initial
      simp only [visitEach, stepped]
      cases result with
      | error cause => exact ⟨_, rfl⟩
      | ok extended =>
        exact ih (fun marked other member => ends marked other (List.mem_cons_of_mem _ member))
          (keeps extended rfl)

/-- A visit with more fuel than there are keys without a mark ends, on every graph. -/
theorem visit_ends (indexed : Indexed key children node) {keys : List κ}
    (known : ∀ parent, node parent → key parent ∈ keys) {fuel : Nat} {start : ν}
    (valid : node start) (enough : unmarked keys marked < fuel) :
    ∃ result, visit key children fuel marked start = some result := by
  induction fuel generalizing marked start with
  | zero => omega
  | succ fuel ih =>
    simp only [visit]
    split
    · exact ⟨_, rfl⟩
    · next fresh =>
      have fewer := unmarked_cons_lt (known start valid) fresh
      have below : unmarked keys (key start :: marked) < fuel := by omega
      -- the children share the marks, which only grow
      refine visitEach_ends
        (fun before child edge (bounded : unmarked keys before < fuel) => ?_) below
      have childValid := indexed.child start child valid edge
      obtain ⟨result, visited⟩ := ih childValid bounded
      refine ⟨result, visited, ?_⟩
      rintro after rfl
      have grown := (visit_covers indexed childValid visited).1.keeps
      exact Nat.lt_of_le_of_lt (unmarked_le grown) bounded

end Traversal
