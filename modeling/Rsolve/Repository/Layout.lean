import Rsolve.Repository.Materialize

/-!
# The entries of a project

What a run looks at in a project is the repository, the committed state, the marker, and the entries
whose names start like a staging directory, a state temporary or a marker temporary. A layout says
which of them are there, with at most one of each kind. Every change of a run takes one layout to
another.
-/
open Keyed Checked Ordered Journal

namespace Rsolve

/-- A text starts with another one exactly when that one is its beginning. -/
theorem startsWith_iff {start text : String} :
    startsWith start text = true ↔ start.toList <+: text.toList :=
  List.isPrefixOf_iff_prefix

/-- A text starts with its beginning. -/
theorem startsWith_append (start text : String) : startsWith start (start ++ text) = true := by
  rw [startsWith_iff, String.toList_append]
  exact List.prefix_append ..

/-- A text with another beginning starts with neither of two texts that do not start with each
other. -/
theorem startsWith_append_other {start other : String} (text : String)
    (apart : startsWith start other = false) (apart' : startsWith other start = false) :
    startsWith start (other ++ text) = false := by
  rw [Bool.eq_false_iff, ne_eq, startsWith_iff] at apart apart' ⊢
  rw [String.toList_append]
  intro inside
  rcases List.prefix_or_prefix_of_prefix inside (List.prefix_append ..) with first | second
  · exact apart first
  · exact apart' second

/-- A text without a beginning is no text with it. -/
theorem ne_of_startsWith {start left right : String} (starts : startsWith start left = true)
    (other : startsWith start right = false) : left ≠ right := by
  rintro rfl
  rw [starts] at other
  cases other

section Starts

variable (nonce : Nonce)

@[simp]
theorem stagingStart_stagingName : startsWith stagingStart (stagingName nonce) = true :=
  startsWith_append ..

@[simp]
theorem stateTempStart_stateTempName : startsWith stateTempStart (stateTempName nonce) = true :=
  startsWith_append ..

@[simp]
theorem markerTempStart_markerTempName :
    startsWith markerTempStart (markerTempName nonce) = true :=
  startsWith_append ..

@[simp]
theorem stagingStart_stateTempName : startsWith stagingStart (stateTempName nonce) = false :=
  startsWith_append_other _ (by decide) (by decide)

@[simp]
theorem stagingStart_markerTempName : startsWith stagingStart (markerTempName nonce) = false :=
  startsWith_append_other _ (by decide) (by decide)

@[simp]
theorem stateTempStart_stagingName : startsWith stateTempStart (stagingName nonce) = false :=
  startsWith_append_other _ (by decide) (by decide)

@[simp]
theorem stateTempStart_markerTempName : startsWith stateTempStart (markerTempName nonce) = false :=
  startsWith_append_other _ (by decide) (by decide)

@[simp]
theorem markerTempStart_stagingName : startsWith markerTempStart (stagingName nonce) = false :=
  startsWith_append_other _ (by decide) (by decide)

@[simp]
theorem markerTempStart_stateTempName : startsWith markerTempStart (stateTempName nonce) = false :=
  startsWith_append_other _ (by decide) (by decide)

end Starts

/-- The names that are fixed. -/
inductive FixedName : String → Prop
  | repository : FixedName repositoryName
  | state : FixedName stateName
  | transaction : FixedName transactionName
  | gitignore : FixedName gitignoreName
  | lock : FixedName lockName

/-- No fixed name starts like a temporary. -/
theorem FixedName.no_start {name : String} (fixed : FixedName name) :
    startsWith stagingStart name = false ∧ startsWith stateTempStart name = false ∧
      startsWith markerTempStart name = false := by
  cases fixed <;> decide

/-- A name that a run looks at. -/
def Tracked (name : String) : Prop :=
  name = repositoryName ∨ name = stateName ∨ name = transactionName ∨
    startsWith stagingStart name = true ∨ startsWith stateTempStart name = true ∨
    startsWith markerTempStart name = true

/-- The names that a run makes are tracked. -/
theorem tracked_stagingName (nonce : Nonce) : Tracked (stagingName nonce) :=
  .inr (.inr (.inr (.inl (stagingStart_stagingName nonce))))

/-- The names of state temporaries are tracked. -/
theorem tracked_stateTempName (nonce : Nonce) : Tracked (stateTempName nonce) :=
  .inr (.inr (.inr (.inr (.inl (stateTempStart_stateTempName nonce)))))

/-- The names of marker temporaries are tracked. -/
theorem tracked_markerTempName (nonce : Nonce) : Tracked (markerTempName nonce) :=
  .inr (.inr (.inr (.inr (.inr (markerTempStart_markerTempName nonce)))))

/-- The tracked entries of a project, with at most one of each kind. -/
structure Layout where
  /-- The repository. -/
  repository : Option Node
  /-- The committed state. -/
  state : Option Node
  /-- The marker. -/
  marker : Option Node
  /-- The staging directory. -/
  staging : Option (Nonce × Node)
  /-- The state temporary. -/
  stateTemp : Option (Nonce × Node)
  /-- The marker temporary. -/
  markerTemp : Option (Nonce × Node)

/-- The node of a slot under a name. -/
def slotAt (named : Nonce → String) (slot : Option (Nonce × Node)) (name : String) : Option Node :=
  slot.bind (fun entry => if name = named entry.1 then some entry.2 else none)

@[simp]
theorem slotAt_none (named : Nonce → String) (name : String) : slotAt named none name = none := rfl

@[simp]
theorem slotAt_some (named : Nonce → String) (nonce : Nonce) (node : Node) (name : String) :
    slotAt named (some (nonce, node)) name = if name = named nonce then some node else none := rfl

/-- A project has the entries of a layout, and its `.gitignore` is as it should be. -/
structure Shows (project : Project) (layout : Layout) : Prop where
  /-- The repository. -/
  repository : project.get? repositoryName = layout.repository
  /-- The committed state. -/
  state : project.get? stateName = layout.state
  /-- The marker. -/
  marker : project.get? transactionName = layout.marker
  /-- The staging directory, and no other. -/
  staging : ∀ name, startsWith stagingStart name = true →
    project.get? name = slotAt stagingName layout.staging name
  /-- The state temporary, and no other. -/
  stateTemp : ∀ name, startsWith stateTempStart name = true →
    project.get? name = slotAt stateTempName layout.stateTemp name
  /-- The marker temporary, and no other. -/
  markerTemp : ∀ name, startsWith markerTempStart name = true →
    project.get? name = slotAt markerTempName layout.markerTemp name
  /-- The `.gitignore` is absent or ignores everything. -/
  ignored : ∀ node, project.get? gitignoreName = some node →
    node = .file (Framing.textBytes "*\n")

/-- An empty project has no entries. -/
theorem shows_empty : Shows OrderedMap.empty ⟨none, none, none, none, none, none⟩ where
  repository := rfl
  state := rfl
  marker := rfl
  staging _ _ := rfl
  stateTemp _ _ := rfl
  markerTemp _ _ := rfl
  ignored _ found := by cases found

namespace Shows

variable {project : Project} {layout : Layout}

/-- The names of a kind are those of the slot. -/
theorem partialPaths_eq {start : String} {named : Nonce → String} {slot : Option (Nonce × Node)}
    (starts : ∀ nonce, startsWith start (named nonce) = true)
    (found : ∀ name, startsWith start name = true → project.get? name = slotAt named slot name) :
    partialPaths project start = (slot.map (fun entry => named entry.1)).toList := by
  have members : ∀ name, name ∈ partialPaths project start ↔
      name ∈ (slot.map (fun entry => named entry.1)).toList := by
    intro name
    rw [partialPaths, List.mem_filter, OrderedMap.mem_keys]
    constructor
    · rintro ⟨⟨node, inside⟩, begins⟩
      rw [found name begins] at inside
      cases slot with
      | none => cases inside
      | some entry =>
        rw [slotAt_some] at inside
        split at inside
        · next equal => simp [equal]
        · cases inside
    · intro member
      cases slot with
      | none => cases member
      | some entry =>
        obtain rfl : name = named entry.1 := by simpa using member
        refine ⟨⟨entry.2, ?_⟩, starts entry.1⟩
        rw [found _ (starts entry.1), slotAt_some, if_pos rfl]
  have ordered : (partialPaths project start).Pairwise
      (fun left right => compare left right = .lt) := project.keys_ordered.filter _
  refine Sorting.strict_ext ordered ?_ members
  cases slot with
  | none => exact List.Pairwise.nil
  | some entry => exact List.pairwise_singleton _ _

/-- The staging directories of a project. -/
theorem stagings (shown : Shows project layout) : partialPaths project stagingStart =
    (layout.staging.map (fun entry => stagingName entry.1)).toList :=
  partialPaths_eq stagingStart_stagingName shown.staging

/-- The state temporaries of a project. -/
theorem states (shown : Shows project layout) : partialPaths project stateTempStart =
    (layout.stateTemp.map (fun entry => stateTempName entry.1)).toList :=
  partialPaths_eq stateTempStart_stateTempName shown.stateTemp

/-- The marker temporaries of a project. -/
theorem markers (shown : Shows project layout) : partialPaths project markerTempStart =
    (layout.markerTemp.map (fun entry => markerTempName entry.1)).toList :=
  partialPaths_eq markerTempStart_markerTempName shown.markerTemp

end Shows

section Changes

variable {project : Project} {query : String}

/-- What a lookup finds after a node was put. -/
theorem get?_put (name : String) (path : List String) (node : Node) :
    (apply (Operation.put name path node) project).get? query =
      if query = name then some (node.put path ((project.get? name).getD (.directory [])))
      else project.get? query :=
  OrderedMap.get?_insert ..

/-- What a lookup finds after an entry was removed. -/
theorem get?_remove (name : String) :
    (apply (Operation.remove name) project).get? query =
      if query = name then none else project.get? query :=
  OrderedMap.get?_erase ..

/-- What a lookup finds after an entry was renamed. -/
theorem get?_rename {source target : String} {node : Node}
    (found : project.get? source = some node) :
    (apply (Operation.rename source target) project).get? query =
      if query = target then some node
      else if query = source then none else project.get? query := by
  have renamed : apply (Operation.rename source target) project =
      (project.erase source).insert target node := by
    change Operation.apply _ _ = _
    simp only [Operation.apply, found]
  rw [renamed, OrderedMap.get?_insert, OrderedMap.get?_erase]

end Changes

/-- A fixed name is no name of a temporary. -/
theorem FixedName.ne_temp {name : String} (fixed : FixedName name) (nonce : Nonce) :
    name ≠ stagingName nonce ∧ name ≠ stateTempName nonce ∧ name ≠ markerTempName nonce := by
  obtain ⟨staging, stateTemp, markerTemp⟩ := fixed.no_start
  exact ⟨(ne_of_startsWith (stagingStart_stagingName nonce) staging).symm,
    (ne_of_startsWith (stateTempStart_stateTempName nonce) stateTemp).symm,
    (ne_of_startsWith (markerTempStart_markerTempName nonce) markerTemp).symm⟩

namespace Shows

variable {project : Project} {layout : Layout}

/-- The node of a slot is found under its name. -/
theorem get?_staging (shown : Shows project layout) {nonce : Nonce} {node : Node}
    (slot : layout.staging = some (nonce, node)) :
    project.get? (stagingName nonce) = some node := by
  rw [shown.staging _ (stagingStart_stagingName nonce), slot, slotAt_some, if_pos rfl]

/-- The state temporary is found under its name. -/
theorem get?_stateTemp (shown : Shows project layout) {nonce : Nonce} {node : Node}
    (slot : layout.stateTemp = some (nonce, node)) :
    project.get? (stateTempName nonce) = some node := by
  rw [shown.stateTemp _ (stateTempStart_stateTempName nonce), slot, slotAt_some, if_pos rfl]

/-- The marker temporary is found under its name. -/
theorem get?_markerTemp (shown : Shows project layout) {nonce : Nonce} {node : Node}
    (slot : layout.markerTemp = some (nonce, node)) :
    project.get? (markerTempName nonce) = some node := by
  rw [shown.markerTemp _ (markerTempStart_markerTempName nonce), slot, slotAt_some, if_pos rfl]

/-- A node is put into the staging directory, which may be new. -/
theorem put_staging (shown : Shows project layout) {nonce : Nonce} (path : List String)
    (node : Node) (slot : ∀ entry, layout.staging = some entry → entry.1 = nonce) :
    Shows (apply (Operation.put (stagingName nonce) path node) project)
      { layout with staging := some (nonce, node.put path
        ((layout.staging.map Prod.snd).getD (.directory []))) } where
  repository := by
    rw [get?_put, if_neg (FixedName.repository.ne_temp nonce).1]
    exact shown.repository
  state := by
    rw [get?_put, if_neg (FixedName.state.ne_temp nonce).1]
    exact shown.state
  marker := by
    rw [get?_put, if_neg (FixedName.transaction.ne_temp nonce).1]
    exact shown.marker
  staging name starts := by
    have current : project.get? (stagingName nonce) = layout.staging.map Prod.snd := by
      rw [shown.staging _ (stagingStart_stagingName nonce)]
      cases found : layout.staging with
      | none => rfl
      | some entry => simp [slotAt, slot entry found]
    rw [get?_put, slotAt_some, current]
    by_cases equal : name = stagingName nonce
    · rw [if_pos equal, if_pos equal]
    · rw [if_neg equal, if_neg equal, shown.staging name starts]
      cases found : layout.staging with
      | none => rfl
      | some entry => simp [slotAt, slot entry found, equal]
  stateTemp name starts := by
    rw [get?_put, if_neg (ne_of_startsWith starts (by simp))]
    exact shown.stateTemp name starts
  markerTemp name starts := by
    rw [get?_put, if_neg (ne_of_startsWith starts (by simp))]
    exact shown.markerTemp name starts
  ignored found inside := by
    rw [get?_put, if_neg (FixedName.gitignore.ne_temp nonce).1] at inside
    exact shown.ignored found inside

/-- A state temporary is written. -/
theorem put_stateTemp (shown : Shows project layout) (nonce : Nonce) (node : Node)
    (slot : layout.stateTemp = none) :
    Shows (apply (Operation.put (stateTempName nonce) [] node) project)
      { layout with stateTemp := some (nonce, node) } where
  repository := by
    rw [get?_put, if_neg (FixedName.repository.ne_temp nonce).2.1]
    exact shown.repository
  state := by
    rw [get?_put, if_neg (FixedName.state.ne_temp nonce).2.1]
    exact shown.state
  marker := by
    rw [get?_put, if_neg (FixedName.transaction.ne_temp nonce).2.1]
    exact shown.marker
  staging name starts := by
    rw [get?_put, if_neg (ne_of_startsWith starts (by simp))]
    exact shown.staging name starts
  stateTemp name starts := by
    rw [get?_put, slotAt_some, shown.stateTemp name starts, slot]
    rfl
  markerTemp name starts := by
    rw [get?_put, if_neg (ne_of_startsWith starts (by simp))]
    exact shown.markerTemp name starts
  ignored found inside := by
    rw [get?_put, if_neg (FixedName.gitignore.ne_temp nonce).2.1] at inside
    exact shown.ignored found inside

/-- A marker temporary is written. -/
theorem put_markerTemp (shown : Shows project layout) (nonce : Nonce) (node : Node)
    (slot : layout.markerTemp = none) :
    Shows (apply (Operation.put (markerTempName nonce) [] node) project)
      { layout with markerTemp := some (nonce, node) } where
  repository := by
    rw [get?_put, if_neg (FixedName.repository.ne_temp nonce).2.2]
    exact shown.repository
  state := by
    rw [get?_put, if_neg (FixedName.state.ne_temp nonce).2.2]
    exact shown.state
  marker := by
    rw [get?_put, if_neg (FixedName.transaction.ne_temp nonce).2.2]
    exact shown.marker
  staging name starts := by
    rw [get?_put, if_neg (ne_of_startsWith starts (by simp))]
    exact shown.staging name starts
  stateTemp name starts := by
    rw [get?_put, if_neg (ne_of_startsWith starts (by simp))]
    exact shown.stateTemp name starts
  markerTemp name starts := by
    rw [get?_put, slotAt_some, shown.markerTemp name starts, slot]
    rfl
  ignored found inside := by
    rw [get?_put, if_neg (FixedName.gitignore.ne_temp nonce).2.2] at inside
    exact shown.ignored found inside

/-- The marker temporary becomes the marker. -/
theorem rename_markerTemp (shown : Shows project layout) {nonce : Nonce} {node : Node}
    (slot : layout.markerTemp = some (nonce, node)) :
    Shows (apply (Operation.rename (markerTempName nonce) transactionName) project)
      { layout with marker := some node, markerTemp := none } where
  repository := by
    rw [get?_rename (shown.get?_markerTemp slot), if_neg (by decide),
      if_neg (FixedName.repository.ne_temp nonce).2.2]
    exact shown.repository
  state := by
    rw [get?_rename (shown.get?_markerTemp slot), if_neg (by decide),
      if_neg (FixedName.state.ne_temp nonce).2.2]
    exact shown.state
  marker := by rw [get?_rename (shown.get?_markerTemp slot), if_pos rfl]
  staging name starts := by
    rw [get?_rename (shown.get?_markerTemp slot), if_neg (ne_of_startsWith starts (by decide)),
      if_neg (ne_of_startsWith starts (by simp))]
    exact shown.staging name starts
  stateTemp name starts := by
    rw [get?_rename (shown.get?_markerTemp slot), if_neg (ne_of_startsWith starts (by decide)),
      if_neg (ne_of_startsWith starts (by simp))]
    exact shown.stateTemp name starts
  markerTemp name starts := by
    rw [get?_rename (shown.get?_markerTemp slot), if_neg (ne_of_startsWith starts (by decide)),
      shown.markerTemp name starts, slot, slotAt_some, slotAt_none]
    split <;> rfl
  ignored found inside := by
    rw [get?_rename (shown.get?_markerTemp slot), if_neg (by decide),
      if_neg (FixedName.gitignore.ne_temp nonce).2.2] at inside
    exact shown.ignored found inside

/-- The staging directory becomes the repository. -/
theorem rename_staging (shown : Shows project layout) {nonce : Nonce} {node : Node}
    (slot : layout.staging = some (nonce, node)) :
    Shows (apply (Operation.rename (stagingName nonce) repositoryName) project)
      { layout with repository := some node, staging := none } where
  repository := by rw [get?_rename (shown.get?_staging slot), if_pos rfl]
  state := by
    rw [get?_rename (shown.get?_staging slot), if_neg (by decide),
      if_neg (FixedName.state.ne_temp nonce).1]
    exact shown.state
  marker := by
    rw [get?_rename (shown.get?_staging slot), if_neg (by decide),
      if_neg (FixedName.transaction.ne_temp nonce).1]
    exact shown.marker
  staging name starts := by
    rw [get?_rename (shown.get?_staging slot), if_neg (ne_of_startsWith starts (by decide)),
      shown.staging name starts, slot, slotAt_some, slotAt_none]
    split <;> rfl
  stateTemp name starts := by
    rw [get?_rename (shown.get?_staging slot), if_neg (ne_of_startsWith starts (by decide)),
      if_neg (ne_of_startsWith starts (by simp))]
    exact shown.stateTemp name starts
  markerTemp name starts := by
    rw [get?_rename (shown.get?_staging slot), if_neg (ne_of_startsWith starts (by decide)),
      if_neg (ne_of_startsWith starts (by simp))]
    exact shown.markerTemp name starts
  ignored found inside := by
    rw [get?_rename (shown.get?_staging slot), if_neg (by decide),
      if_neg (FixedName.gitignore.ne_temp nonce).1] at inside
    exact shown.ignored found inside

/-- The state temporary becomes the committed state. -/
theorem rename_stateTemp (shown : Shows project layout) {nonce : Nonce} {node : Node}
    (slot : layout.stateTemp = some (nonce, node)) :
    Shows (apply (Operation.rename (stateTempName nonce) stateName) project)
      { layout with state := some node, stateTemp := none } where
  repository := by
    rw [get?_rename (shown.get?_stateTemp slot), if_neg (by decide),
      if_neg (FixedName.repository.ne_temp nonce).2.1]
    exact shown.repository
  state := by rw [get?_rename (shown.get?_stateTemp slot), if_pos rfl]
  marker := by
    rw [get?_rename (shown.get?_stateTemp slot), if_neg (by decide),
      if_neg (FixedName.transaction.ne_temp nonce).2.1]
    exact shown.marker
  staging name starts := by
    rw [get?_rename (shown.get?_stateTemp slot), if_neg (ne_of_startsWith starts (by decide)),
      if_neg (ne_of_startsWith starts (by simp))]
    exact shown.staging name starts
  stateTemp name starts := by
    rw [get?_rename (shown.get?_stateTemp slot), if_neg (ne_of_startsWith starts (by decide)),
      shown.stateTemp name starts, slot, slotAt_some, slotAt_none]
    split <;> rfl
  markerTemp name starts := by
    rw [get?_rename (shown.get?_stateTemp slot), if_neg (ne_of_startsWith starts (by decide)),
      if_neg (ne_of_startsWith starts (by simp))]
    exact shown.markerTemp name starts
  ignored found inside := by
    rw [get?_rename (shown.get?_stateTemp slot), if_neg (by decide),
      if_neg (FixedName.gitignore.ne_temp nonce).2.1] at inside
    exact shown.ignored found inside

/-- The marker is removed. -/
theorem remove_marker (shown : Shows project layout) :
    Shows (apply (Operation.remove transactionName) project) { layout with marker := none } where
  repository := by
    rw [get?_remove, if_neg (by decide)]
    exact shown.repository
  state := by
    rw [get?_remove, if_neg (by decide)]
    exact shown.state
  marker := by rw [get?_remove, if_pos rfl]
  staging name starts := by
    rw [get?_remove, if_neg (ne_of_startsWith starts (by decide))]
    exact shown.staging name starts
  stateTemp name starts := by
    rw [get?_remove, if_neg (ne_of_startsWith starts (by decide))]
    exact shown.stateTemp name starts
  markerTemp name starts := by
    rw [get?_remove, if_neg (ne_of_startsWith starts (by decide))]
    exact shown.markerTemp name starts
  ignored found inside := by
    rw [get?_remove, if_neg (by decide)] at inside
    exact shown.ignored found inside

/-- The staging directory is removed. -/
theorem remove_staging (shown : Shows project layout) {nonce : Nonce} {node : Node}
    (slot : layout.staging = some (nonce, node)) :
    Shows (apply (Operation.remove (stagingName nonce)) project)
      { layout with staging := none } where
  repository := by
    rw [get?_remove, if_neg (FixedName.repository.ne_temp nonce).1]
    exact shown.repository
  state := by
    rw [get?_remove, if_neg (FixedName.state.ne_temp nonce).1]
    exact shown.state
  marker := by
    rw [get?_remove, if_neg (FixedName.transaction.ne_temp nonce).1]
    exact shown.marker
  staging name starts := by
    rw [get?_remove, shown.staging name starts, slot, slotAt_some, slotAt_none]
    split <;> rfl
  stateTemp name starts := by
    rw [get?_remove, if_neg (ne_of_startsWith starts (by simp))]
    exact shown.stateTemp name starts
  markerTemp name starts := by
    rw [get?_remove, if_neg (ne_of_startsWith starts (by simp))]
    exact shown.markerTemp name starts
  ignored found inside := by
    rw [get?_remove, if_neg (FixedName.gitignore.ne_temp nonce).1] at inside
    exact shown.ignored found inside

/-- A file that no run looks at is written. -/
theorem put_untracked (shown : Shows project layout) {name : String} (bytes : List UInt8)
    (untracked : name = gitignoreName ∧ bytes = Framing.textBytes "*\n" ∨ name = lockName) :
    Shows (apply (Operation.put name [] (.file bytes)) project) layout := by
  have fixed : FixedName name := by
    rcases untracked with ⟨rfl, -⟩ | rfl
    · exact .gitignore
    · exact .lock
  have apart : repositoryName ≠ name ∧ stateName ≠ name ∧ transactionName ≠ name := by
    rcases untracked with ⟨rfl, -⟩ | rfl <;> decide
  obtain ⟨staging, stateTemp, markerTemp⟩ := fixed.no_start
  refine {
    repository := ?_
    state := ?_
    marker := ?_
    staging := fun other starts => ?_
    stateTemp := fun other starts => ?_
    markerTemp := fun other starts => ?_
    ignored := fun found inside => ?_ }
  · rw [get?_put, if_neg apart.1]
    exact shown.repository
  · rw [get?_put, if_neg apart.2.1]
    exact shown.state
  · rw [get?_put, if_neg apart.2.2]
    exact shown.marker
  · rw [get?_put, if_neg (ne_of_startsWith starts staging)]
    exact shown.staging other starts
  · rw [get?_put, if_neg (ne_of_startsWith starts stateTemp)]
    exact shown.stateTemp other starts
  · rw [get?_put, if_neg (ne_of_startsWith starts markerTemp)]
    exact shown.markerTemp other starts
  · rw [get?_put] at inside
    rcases untracked with ⟨rfl, rfl⟩ | rfl
    · rw [if_pos rfl, Option.some.injEq] at inside
      exact inside.symm
    · rw [if_neg (by decide)] at inside
      exact shown.ignored found inside

end Shows

/-- A change that touches a tracked entry. -/
def Operation.Touches : Operation → Prop
  | .put name _ _ => Tracked name
  | .rename source target => Tracked source ∨ Tracked target
  | .remove name => Tracked name

/-- A change that takes no entry away but tracked ones. -/
def Operation.Spares : Operation → Prop
  | .put _ _ _ => True
  | .rename source _ => Tracked source
  | .remove name => Tracked name

/-- The entries that are not tracked. -/
theorem not_tracked : ¬ Tracked gitignoreName ∧ ¬ Tracked lockName := by
  unfold Tracked
  decide

/-- Changes that leave a layout alone: the layout is shown after each, and they touch nothing. -/
def Idle (layout : Layout) (operations : List Operation) (project : Project) : Prop :=
  Guarded (fun project => Shows project layout)
    (fun _ operation => ¬ operation.Touches ∧ operation.Spares) operations project

/-- A change that spares what is not tracked keeps its entry. -/
theorem kept_of_spare {project : Project} {operation : Operation} {name : String}
    (untracked : ¬ Tracked name) (present : (project.get? name).isSome)
    (spares : operation.Spares) : ((apply operation project).get? name).isSome := by
  have apart : ∀ other, Tracked other → name ≠ other := by
    rintro other tracked rfl
    exact untracked tracked
  cases operation with
  | put other path node =>
    rw [get?_put]
    split
    · rfl
    · exact present
  | remove other =>
    rw [get?_remove, if_neg (apart other spares)]
    exact present
  | rename source target =>
    cases found : project.get? source with
    | none =>
      have same : apply (Operation.rename source target) project = project := by
        change Operation.apply _ _ = _
        simp only [Operation.apply, found]
      rw [same]
      exact present
    | some node =>
      rw [get?_rename found]
      split
      · rfl
      · rw [if_neg (apart source spares)]
        exact present

/-- Changes that spare what is not tracked keep its entry. -/
theorem kept_of_spares {project : Project} {operations : List Operation} {name : String}
    (untracked : ¬ Tracked name) (present : (project.get? name).isSome)
    (spares : ∀ operation ∈ operations, operation.Spares) :
    ((replay operations project).get? name).isSome := by
  induction operations generalizing project with
  | nil => exact present
  | cons operation operations ih =>
    obtain ⟨first, others⟩ := List.forall_mem_cons.mp spares
    exact ih (kept_of_spare untracked present first) others

/-- The `.gitignore` and the lock file are there. -/
def Equipped (project : Project) : Prop :=
  (project.get? gitignoreName).isSome ∧ (project.get? lockName).isSome

/-- Changes that spare what is not tracked keep the `.gitignore` and the lock file. -/
theorem Equipped.replay {operations : List Operation} {project : Project}
    (equipped : Equipped project) (spares : ∀ operation ∈ operations, operation.Spares) :
    Equipped (replay operations project) :=
  ⟨kept_of_spares not_tracked.1 equipped.1 spares, kept_of_spares not_tracked.2 equipped.2 spares⟩

section Setup

variable {project : Project} {layout : Layout}

/-- The `.gitignore` is written when it is not there. -/
theorem ensureGitignore_run (shown : Shows project layout) :
    ∃ operations, ensureGitignore.run project = (operations, .ok ()) ∧
      Idle layout operations project ∧
      ((replay operations project).get? gitignoreName).isSome := by
  unfold ensureGitignore
  rw [Program.run_look_bind]
  cases found : project.get? gitignoreName with
  | none =>
    refine ⟨_, rfl, ⟨shown, ⟨not_tracked.1, trivial⟩, shown.put_untracked _ (.inl ⟨rfl, rfl⟩)⟩, ?_⟩
    rw [replay_cons, replay_nil, get?_put, if_pos rfl]
    rfl
  | some node =>
    obtain rfl := shown.ignored node found
    refine ⟨[], by simp [pure], shown, ?_⟩
    rw [replay_nil, found]
    rfl

/-- The lock file is written when it is not there. -/
theorem openLock_run (shown : Shows project layout) :
    ∃ operations, openLock.run project = (operations, .ok ()) ∧
      Idle layout operations project ∧ ((replay operations project).get? lockName).isSome := by
  unfold openLock
  rw [Program.run_look_bind]
  cases found : project.get? lockName with
  | none =>
    refine ⟨_, rfl, ⟨shown, ⟨not_tracked.2, trivial⟩, shown.put_untracked _ (.inr rfl)⟩, ?_⟩
    rw [replay_cons, replay_nil, get?_put, if_pos rfl]
    rfl
  | some node =>
    refine ⟨[], rfl, shown, ?_⟩
    rw [replay_nil, found]
    rfl

/-- What an idle change keeps. -/
theorem Idle.spares {operations : List Operation} (idle : Idle layout operations project) :
    ∀ operation ∈ operations, ¬ operation.Touches ∧ operation.Spares := fun _ member =>
  (Guarded.of_mem idle member).elim fun _ allowed => allowed

/-- A run starts with changes that leave the layout alone, and the `.gitignore` and the lock file
are there then. -/
theorem setup_run {α : Type} (shown : Shows project layout) (next : Materialize α) :
    ∃ operations, Idle layout operations project ∧ Equipped (replay operations project) ∧
      (do ensureGitignore; openLock; next : Materialize α).run project =
        (operations ++ (next.run (replay operations project)).1,
          (next.run (replay operations project)).2) := by
  obtain ⟨first, ignoring, idle, ignored⟩ := ensureGitignore_run shown
  have between : Shows (replay first project) layout := idle.stop (List.prefix_refl first)
  obtain ⟨second, locking, idle', locked⟩ := openLock_run between
  have stays : ((replay second (replay first project)).get? gitignoreName).isSome := by
    refine kept_of_spares not_tracked.1 ignored fun operation member => ?_
    exact (idle'.spares operation member).2
  refine ⟨first ++ second, idle.append idle', ?_, ?_⟩
  · rw [replay_append]
    exact ⟨stays, locked⟩
  · rw [Program.run_bind_ok ignoring, Program.run_bind_ok locking, replay_append, List.append_assoc]

/-- Where the `.gitignore` and the lock file are there, a run starts without changes. -/
theorem setup_equipped {α : Type} (shown : Shows project layout) (equipped : Equipped project)
    (next : Materialize α) :
    (do ensureGitignore; openLock; next : Materialize α).run project = next.run project := by
  have ignoring : ensureGitignore.run project = ([], .ok ()) := by
    unfold ensureGitignore
    rw [Program.run_look_bind]
    cases found : project.get? gitignoreName with
    | none => exact absurd equipped.1 (by simp [found])
    | some node =>
      obtain rfl := shown.ignored node found
      simp [pure]
  have locking : openLock.run project = ([], .ok ()) := by
    unfold openLock
    rw [Program.run_look_bind, if_neg (by simp [equipped.2, ← Option.isSome_iff_ne_none])]
    rfl
  rw [Program.run_bind_ok ignoring, replay_nil, Program.run_bind_ok locking]
  rfl

end Setup

end Rsolve
