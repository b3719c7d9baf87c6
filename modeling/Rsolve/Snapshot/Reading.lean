import Rsolve.Snapshot.Heads

/-!
# Reading views

A view is read in two parts: its head, which depends on what is stored under its key, and the
generation that the head names. The latest of some views is the one with the highest sequence number.
-/
open Checked Framing Ordered Sorting

namespace Rsolve

variable (store : SnapshotStore)

/-- `read_view_optional_locked`, up to the generation of the head. -/
def readHead (files : StoreFiles) (viewKey : String) :
    Except CandidateLoadError (Option ViewHeadV1) := do
  ensure (isHex32 viewKey = true) (storeCandidateError "snapshot view key is invalid")
  match files.views.get? viewKey with
  | none => return none
  | some content =>
    let head ← decodeViewHead store (content.take (viewHeadLimit + 1))
    ensure (head.viewKey = viewKey)
      (storeCandidateError "snapshot view filename does not match its key")
    ensure (viewKeyForParts store head.coverage.state head.coverage.scope head.coverage.freshness
        head.validation.effectiveEndpoint = head.viewKey)
      (storeCandidateError "snapshot view key does not match its contents")
    return some head

variable {store}

section Parts

variable {files reached : StoreFiles} {viewKey : String} {head : ViewHeadV1}
  {loader : GenerationLoader}

/-- A view is read when its head is and the head agrees with the generation that it opens. -/
theorem readView_eq_ok :
    readViewOptionalLocked store files viewKey = .ok (some (head, loader)) ↔
      readHead store files viewKey = .ok (some head) ∧
      openGenerationLocked store files head.generation = .ok loader ∧
      ∃ bytes, encodeHeader store.basis loader.header = .ok bytes ∧
        head.Agrees store loader.header bytes := by
  unfold readViewOptionalLocked readHead
  cases files.views.get? viewKey with
  | none => simp [bind_eq_ok, pure, Except.pure]
  | some content =>
    simp only [bind_eq_ok, ensure_eq_ok, mapError_eq_ok, pure, Except.pure, Except.ok.injEq,
      Option.some.injEq, Prod.mk.injEq]
    constructor
    · rintro ⟨_, named, found, decoded, _, filed, _, keyed, opened, opens, bytes, encoded, _, agrees,
        rfl, rfl⟩
      exact ⟨⟨(), named, found, decoded, (), filed, (), keyed, rfl⟩, opens, bytes, encoded, agrees⟩
    · rintro ⟨⟨_, named, found, decoded, _, filed, _, keyed, rfl⟩, opens, bytes, encoded, agrees⟩
      exact ⟨(), named, found, decoded, (), filed, (), keyed, loader, opens, bytes, encoded, (),
        agrees, rfl, rfl⟩

/-- The head under a key depends on what is stored there. -/
theorem readHead_congr (same : reached.views.get? viewKey = files.views.get? viewKey) :
    readHead store reached viewKey = readHead store files viewKey := by
  unfold readHead
  rw [same]

/-- Opening a generation depends on its file. -/
theorem openGeneration_congr {generation : String}
    (same : reached.generations.get? generation = files.generations.get? generation) :
    openGenerationLocked store reached generation = openGenerationLocked store files generation := by
  unfold openGenerationLocked
  rw [same]

/-- The keys of the views, in any order. -/
theorem mem_enumerated_views {order : Enumeration} {viewKey : String} :
    viewKey ∈ order.list files.views.keys ↔ ∃ content, files.views.get? viewKey = some content := by
  rw [(order.perm _).mem_iff, OrderedMap.mem_keys]

/-- The key of a view that is read is listed. -/
theorem mem_views_of_readView {view : View} (order : Enumeration)
    (read : readViewOptionalLocked store files viewKey = .ok (some view)) :
    viewKey ∈ order.list files.views.keys := by
  refine mem_enumerated_views.mpr ?_
  cases present : files.views.get? viewKey with
  | some content => exact ⟨content, rfl⟩
  | none => simp [readViewOptionalLocked, present, bind_eq_ok, pure, Except.pure] at read

/-- Where something is stored under a key, a read finds a view or fails. -/
theorem readView_ne_none {content : List UInt8}
    (present : files.views.get? viewKey = some content) :
    readViewOptionalLocked store files viewKey ≠ .ok none := by
  intro read
  simp only [readViewOptionalLocked, present, bind_eq_ok, ensure_eq_ok, pure, Except.pure,
    Except.ok.injEq, reduceCtorEq, and_false, exists_false] at read

/-- The views that are read are those under the keys. -/
theorem mem_readViews {order : Enumeration} {view : View} :
    view ∈ readViews ((order.list files.views.keys).map (readViewOptionalLocked store files)) ↔
      ∃ viewKey, readViewOptionalLocked store files viewKey = .ok (some view) := by
  constructor
  · intro member
    obtain ⟨outcome, listed, same⟩ := List.mem_filterMap.mp member
    obtain ⟨viewKey, -, rfl⟩ := List.mem_map.mp listed
    refine ⟨viewKey, ?_⟩
    split at same
    · next found read =>
      rw [read, same]
    · cases same
  · rintro ⟨viewKey, read⟩
    exact List.mem_filterMap.mpr ⟨_, List.mem_map_of_mem (mem_views_of_readView _ read), by rw [read]⟩

end Parts

/-! ### The latest of some views -/

section Latest

variable {failure : String} {outcomes : List (Except CandidateLoadError (Option View))}

/-- The view that every other one comes before is the latest one. -/
theorem latestOf_eq_of_last {view : View} (member : view ∈ readViews outcomes)
    (last : ∀ other ∈ readViews outcomes, other = view ∨ compareViews other view = .lt) :
    latestOf failure outcomes = .ok (some view) := by
  obtain ⟨found, inside, isLast, above⟩ := exists_last_sortBy compareViews member
  have same : found = view := by
    rcases last found inside with same | below
    · exact same
    · have le := above _ member
      rw [@Std.OrientedCmp.eq_swap _ compareViews _ _ _, below] at le
      cases le
  rw [latestOf, if_neg fun none => List.ne_nil_of_mem member none.1, isLast, same]

/-- The view with the highest sequence number is the latest one. -/
theorem latestOf_eq_of_highest {view : View} (member : view ∈ readViews outcomes)
    (highest : ∀ other ∈ readViews outcomes, other = view ∨
      other.1.validation.refreshSequence < view.1.validation.refreshSequence) :
    latestOf failure outcomes = .ok (some view) := by
  refine latestOf_eq_of_last member fun other inside => (highest other inside).imp_right fun below => ?_
  simp only [compareViews, compareLex, compareOn, Nat.compare_eq_lt.mpr below, Ordering.then]

/-- No view that is read has a higher sequence number than the latest one. -/
theorem exists_latest_of_latestOf {latest : Option View}
    (read : latestOf failure outcomes = .ok latest) {view : View}
    (member : view ∈ readViews outcomes) :
    ∃ last, latest = some last ∧
      view.1.validation.refreshSequence ≤ last.1.validation.refreshSequence := by
  obtain ⟨last, -, found, above⟩ := exists_last_sortBy compareViews member
  rw [latestOf, if_neg fun none => List.ne_nil_of_mem member none.1, found] at read
  refine ⟨last, (Except.ok.inj read).symm, ?_⟩
  by_contra below
  have order : compare view.1.validation.refreshSequence last.1.validation.refreshSequence = .gt :=
    Nat.compare_eq_gt.mpr (Nat.lt_of_not_le below)
  have gt : compareViews view last = .gt := by
    simp only [compareViews, compareLex, compareOn, order, Ordering.then]
  have le := above _ member
  rw [gt] at le
  cases le

/-- There is a latest view, or none, unless no head can be read though there are some. -/
theorem latestOf_isOk :
    (∃ latest, latestOf failure outcomes = .ok latest) ↔
      (∀ outcome ∈ outcomes, outcome.isOk = true) ∨ ∃ view, view ∈ readViews outcomes := by
  unfold latestOf
  split
  · next unread =>
    obtain ⟨none, outcome, member, failed⟩ := And.imp_right List.any_eq_true.mp unread
    rw [Bool.not_eq_true'] at failed
    simp only [reduceCtorEq, exists_false, none, List.not_mem_nil, or_false, false_iff]
    intro fine
    rw [fine outcome member] at failed
    cases failed
  · next fine =>
    refine iff_of_true ⟨_, rfl⟩ ?_
    rw [Classical.not_and_iff_not_or_not] at fine
    rcases fine with some | fine
    · exact .inr (List.exists_mem_of_ne_nil _ some)
    · refine .inl fun outcome member => ?_
      by_contra failed
      exact fine (List.any_eq_true.mpr ⟨outcome, member, by simpa using failed⟩)

end Latest

end Rsolve
