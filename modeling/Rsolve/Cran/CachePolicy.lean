import Rsolve.Cran.ProbeDeadline
import Rsolve.Lib.Splitting
import Rsolve.SourceControl.Marker

/-!
# The policy of a cached response

The `Cache-Control` header of a response decides whether it may be stored, and for how long it may
be used again without asking. The directives are read one after the other into a few flags. What
comes out depends on which directives there are, not on their order or number: a directive against
storing wins even in a malformed header, and a lifetime is only taken from a header whose directives
are all well formed.
-/
open Splitting

namespace Rsolve

/-- `CacheControlHeader` — the `Cache-Control` header of a response. -/
inductive CacheControlHeader
  | absent
  | valid (value : String)
  | invalid
deriving DecidableEq

/-- `CacheControlPolicy`; lifetimes are in seconds. -/
inductive CacheControlPolicy
  | noStore
  | revalidate
  | maxAge (seconds : Nat)
  | fallback (seconds : Nat)
deriving DecidableEq

/-- `CacheControlPolicy::can_store`. -/
def CacheControlPolicy.canStore : CacheControlPolicy → Bool
  | .noStore => false
  | _ => true

/-- `CacheControlPolicy::ttl`. -/
def CacheControlPolicy.ttl : CacheControlPolicy → Option Nat
  | .maxAge seconds => some seconds
  | .fallback seconds => some seconds
  | _ => none

/-- A directive as the loop of `cache_control_policy` takes it. -/
inductive CacheDirective
  /-- Nothing between two commas. -/
  | blank
  /-- `no-store`, which may have no value. -/
  | noStore (bare : Bool)
  /-- `no-cache`, which may have no value. -/
  | noCache (bare : Bool)
  /-- `max-age`, with its value when it is a number. -/
  | maxAge (seconds : Option UInt64)
  /-- Any other directive. -/
  | extension
deriving DecidableEq

/-- The name of a directive in lower case, and its value. -/
def directiveParts (directive : List Char) : String × Option (List Char) :=
  match splitOnce ['='] directive with
  | none => (toAsciiLowercase (String.ofList directive), none)
  | some (name, value) => (toAsciiLowercase (String.ofList (trim name)), some (trim value))

/-- The directive between two commas. -/
def readDirective (raw : List Char) : CacheDirective :=
  let directive := trim raw
  if directive = [] then .blank
  else
    let parts := directiveParts directive
    if parts.1 = "no-store" then .noStore parts.2.isNone
    else if parts.1 = "no-cache" then .noCache parts.2.isNone
    else if parts.1 = "max-age" then .maxAge (parts.2.bind parseUnsigned)
    else .extension

/-- The directives of a header. -/
def cacheDirectives (header : String) : List CacheDirective :=
  (header.toList.splitOnP (· == ',')).map readDirective

/-- The variables of the loop of `cache_control_policy`. -/
structure DirectiveScan where
  sawDirective : Bool
  noStore : Bool
  noCache : Bool
  maxAge : Option UInt64
  malformedKnown : Bool

/-- The variables before the loop. -/
def DirectiveScan.start : DirectiveScan := ⟨false, false, false, none, false⟩

/-- One round of the loop. -/
def DirectiveScan.step (scan : DirectiveScan) : CacheDirective → DirectiveScan
  | .blank => { scan with malformedKnown := true }
  | .noStore bare =>
    { scan with
      sawDirective := true
      malformedKnown := scan.malformedKnown || !bare
      noStore := true }
  | .noCache bare =>
    { scan with
      sawDirective := true
      malformedKnown := scan.malformedKnown || !bare
      noCache := true }
  | .maxAge none => { scan with sawDirective := true, malformedKnown := true }
  | .maxAge (some candidate) =>
    match scan.maxAge with
    | some previous =>
      { scan with
        sawDirective := true
        malformedKnown := scan.malformedKnown || previous != candidate }
    | none => { scan with sawDirective := true, maxAge := some candidate }
  | .extension => scan

/-- The policy that the variables after the loop give. -/
def DirectiveScan.policy (scan : DirectiveScan) (fallbackTtl : Nat) : CacheControlPolicy :=
  if scan.malformedKnown then if scan.noStore then .noStore else .revalidate
  else if !scan.sawDirective then .fallback fallbackTtl
  else if scan.noStore then .noStore
  else if scan.noCache then .revalidate
  else
    match scan.maxAge with
    | some seconds => .maxAge seconds.toNat
    | none => .fallback fallbackTtl

/-- `cache_control_policy`. -/
def cacheControlPolicy (header : CacheControlHeader) (fallbackTtl : Nat) : CacheControlPolicy :=
  match header with
  | .absent => .fallback fallbackTtl
  | .invalid => .revalidate
  | .valid value =>
    if trim value.toList = [] then .revalidate
    else ((cacheDirectives value).foldl DirectiveScan.step .start).policy fallbackTtl

/-- `permits_reuse`: a response of the future is not used again. -/
def permitsReuse (now observedAt : Timestamp) (policy : CacheControlPolicy) : Bool :=
  if now.nanosecond < observedAt.nanosecond then false
  else
    match policy.ttl with
    | none => false
    | some ttl => decide (now.durationSince observedAt < ttl * nanosecondsPerSecond)

/-- A response that is used again was observed less than its lifetime ago. -/
theorem permitsReuse_eq_true {now observedAt : Timestamp} {policy : CacheControlPolicy} :
    permitsReuse now observedAt policy = true ↔ observedAt.nanosecond ≤ now.nanosecond ∧
      ∃ ttl, policy.ttl = some ttl ∧
        now.nanosecond < observedAt.nanosecond + ttl * nanosecondsPerSecond := by
  unfold permitsReuse Timestamp.durationSince
  by_cases future : now.nanosecond < observedAt.nanosecond
  · rw [if_pos future]
    exact iff_of_false Bool.false_ne_true fun past => absurd past.1 (not_le.mpr future)
  · rw [if_neg future]
    cases lifetime : policy.ttl with
    | none => exact iff_of_false Bool.false_ne_true fun past => by cases past.2.choose_spec.1
    | some ttl =>
      rw [decide_eq_true_iff]
      constructor
      · intro young
        exact ⟨not_lt.mp future, ttl, rfl, by omega⟩
      · rintro ⟨-, other, same, young⟩
        obtain rfl := Option.some.inj same
        omega

/-! ### The directives of a header -/

section Directives

variable {directives : List CacheDirective}

/-- Some directive is malformed, or two lifetimes differ. -/
def Malformed (directives : List CacheDirective) : Prop :=
  .blank ∈ directives ∨ .noStore false ∈ directives ∨ .noCache false ∈ directives ∨
    .maxAge none ∈ directives ∨
      ∃ first second, first ≠ second ∧ .maxAge (some first) ∈ directives ∧
        .maxAge (some second) ∈ directives

/-- Some directive is against storing. -/
def ForbidsStoring (directives : List CacheDirective) : Prop :=
  ∃ bare, .noStore bare ∈ directives

/-- Some directive is against using the response again without asking. -/
def ForbidsReuse (directives : List CacheDirective) : Prop :=
  ∃ bare, .noCache bare ∈ directives

/-- A directive whose name the loop knows. -/
def CacheDirective.Known : CacheDirective → Prop
  | .blank => False
  | .extension => False
  | _ => True

/-- The variables of the loop say what the directives so far are. -/
structure Scanned (directives : List CacheDirective) (scan : DirectiveScan) : Prop where
  sawDirective : scan.sawDirective = true ↔ ∃ directive ∈ directives, directive.Known
  noStore : scan.noStore = true ↔ ForbidsStoring directives
  noCache : scan.noCache = true ↔ ForbidsReuse directives
  maxAge : ∀ seconds, scan.maxAge = some seconds → .maxAge (some seconds) ∈ directives
  ageless : scan.maxAge = none → ∀ seconds, .maxAge (some seconds) ∉ directives
  malformedKnown : scan.malformedKnown = true ↔ Malformed directives

/-- What makes a header malformed whose last directive is a given one. -/
theorem malformed_concat {directive : CacheDirective} :
    Malformed (directives ++ [directive]) ↔ Malformed directives ∨ directive = .blank ∨
      directive = .noStore false ∨ directive = .noCache false ∨ directive = .maxAge none ∨
        ∃ first second, first ≠ second ∧ .maxAge (some first) ∈ directives ∧
          directive = .maxAge (some second) := by
  simp only [Malformed, List.mem_append, List.mem_singleton]
  grind

/-- Before the loop there are no directives. -/
theorem Scanned.start : Scanned [] .start where
  sawDirective := by simp [DirectiveScan.start]
  noStore := by simp [DirectiveScan.start, ForbidsStoring]
  noCache := by simp [DirectiveScan.start, ForbidsReuse]
  maxAge := by simp [DirectiveScan.start]
  ageless := by simp
  malformedKnown := by simp [DirectiveScan.start, Malformed]

/-- One round reads one directive. -/
theorem Scanned.step {scan : DirectiveScan} (scanned : Scanned directives scan)
    (directive : CacheDirective) : Scanned (directives ++ [directive]) (scan.step directive) := by
  obtain ⟨saw, noStore, noCache, maxAge, ageless, malformed⟩ := scanned
  cases directive with
  | blank =>
    constructor <;>
      simp_all [DirectiveScan.step, malformed_concat, ForbidsStoring, ForbidsReuse,
        CacheDirective.Known]
  | noStore bare =>
    constructor <;> cases bare <;>
      simp_all [DirectiveScan.step, malformed_concat, ForbidsStoring, ForbidsReuse,
        CacheDirective.Known]
  | noCache bare =>
    constructor <;> cases bare <;>
      simp_all [DirectiveScan.step, malformed_concat, ForbidsStoring, ForbidsReuse,
        CacheDirective.Known]
  | extension =>
    constructor <;>
      simp_all [DirectiveScan.step, malformed_concat, ForbidsStoring, ForbidsReuse,
        CacheDirective.Known]
  | maxAge seconds =>
    cases seconds with
    | none =>
      constructor <;>
        simp_all [DirectiveScan.step, malformed_concat, ForbidsStoring, ForbidsReuse,
          CacheDirective.Known]
    | some candidate =>
      cases kept : scan.maxAge with
      | none =>
        have first : ∀ seconds, .maxAge (some seconds) ∉ directives := ageless kept
        constructor <;>
          simp_all [DirectiveScan.step, malformed_concat, ForbidsStoring, ForbidsReuse,
            CacheDirective.Known]
      | some previous =>
        have earlier : .maxAge (some previous) ∈ directives := maxAge previous kept
        -- a lifetime that differs from some earlier one differs from the first, or these differ
        have conflict : (scan.malformedKnown || previous != candidate) = true ↔
            Malformed (directives ++ [.maxAge (some candidate)]) := by
          rw [malformed_concat, Bool.or_eq_true, malformed, bne_iff_ne]
          constructor
          · rintro (before | differs)
            · exact .inl before
            · exact .inr (.inr (.inr (.inr (.inr ⟨previous, candidate, differs, earlier, rfl⟩))))
          · rintro (before | equal | equal | equal | equal | ⟨one, two, differs, oneIn, equal⟩)
            · exact .inl before
            · cases equal
            · cases equal
            · cases equal
            · cases equal
            · cases equal
              by_cases same : previous = candidate
              · subst same
                exact .inl (.inr (.inr (.inr (.inr ⟨one, previous, differs, oneIn, earlier⟩))))
              · exact .inr same
        have step : scan.step (.maxAge (some candidate)) =
            { scan with
              sawDirective := true
              malformedKnown := scan.malformedKnown || previous != candidate } := by
          simp only [DirectiveScan.step, kept]
        rw [step]
        refine ⟨?_, ?_, ?_, ?_, ?_, conflict⟩ <;>
          simp_all [ForbidsStoring, ForbidsReuse, CacheDirective.Known]

/-- The loop reads all directives. -/
theorem scanned_foldl (directives : List CacheDirective) :
    Scanned directives (directives.foldl DirectiveScan.step .start) := by
  induction directives using List.reverseRecOn with
  | nil => exact .start
  | append_singleton directives directive ih =>
    rw [List.foldl_append, List.foldl_cons, List.foldl_nil]
    exact ih.step directive

/-- A text that is trimmed to nothing is blank. -/
theorem whitespace_of_trim_eq_nil {characters : List Char} (blank : trim characters = []) :
    ∀ character ∈ characters, isWhitespace character = true := by
  have reversed : (characters.dropWhile isWhitespace).reverse.dropWhile isWhitespace = [] :=
    List.reverse_eq_nil_iff.mp blank
  have dropped : characters.dropWhile isWhitespace = [] := by
    by_contra left
    have head := List.head_dropWhile_not isWhitespace left
    have member := List.mem_reverse.mpr (List.head_mem left)
    rw [List.dropWhile_eq_nil_iff.mp reversed _ member] at head
    cases head
  exact List.dropWhile_eq_nil_iff.mp dropped

/-- A blank header is one blank directive. -/
theorem cacheDirectives_blank {header : String} (blank : trim header.toList = []) :
    cacheDirectives header = [.blank] := by
  have single : header.toList.splitOnP (· == ',') = [header.toList] := by
    refine List.splitOnP_eq_singleton fun character member => ?_
    have white := whitespace_of_trim_eq_nil blank character member
    by_contra comma
    obtain rfl : character = ',' := by simpa using comma
    revert white
    decide
  simp only [cacheDirectives, single, List.map_cons, List.map_nil, readDirective, blank, if_pos]

/-- The check for a blank header does not matter. -/
theorem cacheControlPolicy_valid (header : String) (fallbackTtl : Nat) :
    cacheControlPolicy (.valid header) fallbackTtl =
      ((cacheDirectives header).foldl DirectiveScan.step .start).policy fallbackTtl := by
  by_cases blank : trim header.toList = []
  · rw [cacheDirectives_blank blank]
    exact if_pos blank
  · exact if_neg blank

/-- Unknown directives neither forbid nor give anything, and they are not malformed. -/
theorem idle_of_unknown (unknown : ∀ directive ∈ directives, directive = .extension) :
    ¬ ForbidsStoring directives ∧ ¬ Malformed directives ∧ ¬ ForbidsReuse directives ∧
      ∀ given, .maxAge (some given) ∉ directives := by
  refine ⟨fun ⟨bare, member⟩ => ?_, fun malformed => ?_, fun ⟨bare, member⟩ => ?_,
    fun given member => ?_⟩
  · cases unknown _ member
  · rcases malformed with member | member | member | member | ⟨first, -, -, member, -⟩ <;>
      cases unknown _ member
  · cases unknown _ member
  · cases unknown _ member

section Policies

variable {scan : DirectiveScan} {fallbackTtl : Nat}

/-- A directive against storing decides. -/
theorem Scanned.policy_noStore (scanned : Scanned directives scan)
    (forbids : ForbidsStoring directives) : scan.policy fallbackTtl = .noStore := by
  have noStore := scanned.noStore.mpr forbids
  have saw : scan.sawDirective = true := by
    obtain ⟨bare, member⟩ := forbids
    exact scanned.sawDirective.mpr ⟨_, member, trivial⟩
  simp [DirectiveScan.policy, noStore, saw]

/-- A malformed header, or one against reuse, is asked about each time. -/
theorem Scanned.policy_revalidate (scanned : Scanned directives scan)
    (stores : ¬ ForbidsStoring directives)
    (asks : Malformed directives ∨ ForbidsReuse directives) :
    scan.policy fallbackTtl = .revalidate := by
  have noStore : scan.noStore = false := by
    rw [Bool.eq_false_iff]
    exact mt scanned.noStore.mp stores
  rcases asks with malformed | forbids
  · simp only [DirectiveScan.policy, scanned.malformedKnown.mpr malformed, noStore]
    rfl
  · have noCache := scanned.noCache.mpr forbids
    have saw : scan.sawDirective = true := by
      obtain ⟨bare, member⟩ := forbids
      exact scanned.sawDirective.mpr ⟨_, member, trivial⟩
    simp [DirectiveScan.policy, noStore, noCache, saw]

/-- A lifetime that is given is taken when nothing is wrong and nothing forbids it. -/
theorem Scanned.policy_maxAge (scanned : Scanned directives scan)
    (stores : ¬ ForbidsStoring directives) (formed : ¬ Malformed directives)
    (reuses : ¬ ForbidsReuse directives) {given : UInt64}
    (member : .maxAge (some given) ∈ directives) :
    scan.policy fallbackTtl = .maxAge given.toNat := by
  have noStore := Bool.eq_false_iff.mpr (mt scanned.noStore.mp stores)
  have noCache := Bool.eq_false_iff.mpr (mt scanned.noCache.mp reuses)
  have wellFormed := Bool.eq_false_iff.mpr (mt scanned.malformedKnown.mp formed)
  have saw := scanned.sawDirective.mpr ⟨_, member, trivial⟩
  have lifetime : scan.maxAge = some given := by
    cases kept : scan.maxAge with
    | none => exact absurd member (scanned.ageless kept given)
    | some other =>
      by_contra differs
      have distinct : other ≠ given := fun same => differs (congrArg some same)
      exact formed (.inr (.inr (.inr (.inr
        ⟨other, given, distinct, scanned.maxAge other kept, member⟩))))
  simp only [DirectiveScan.policy, noStore, noCache, wellFormed, saw, lifetime]
  rfl

/-- A header of unknown directives leaves the fallback. -/
theorem Scanned.policy_fallback (scanned : Scanned directives scan)
    (unknown : ∀ directive ∈ directives, directive = .extension) :
    scan.policy fallbackTtl = .fallback fallbackTtl := by
  have saw : scan.sawDirective = false := by
    rw [Bool.eq_false_iff]
    intro saw
    obtain ⟨directive, member, known⟩ := scanned.sawDirective.mp saw
    rw [unknown directive member] at known
    exact known
  have wellFormed := Bool.eq_false_iff.mpr
    (mt scanned.malformedKnown.mp (idle_of_unknown unknown).2.1)
  simp only [DirectiveScan.policy, saw, wellFormed]
  rfl

end Policies

/-- Directives forbid storing, or they ask each time, or they give a lifetime, or none is known. -/
theorem directives_cases (directives : List CacheDirective) :
    ForbidsStoring directives ∨ (¬ ForbidsStoring directives ∧
      (Malformed directives ∨ ForbidsReuse directives)) ∨
    (¬ ForbidsStoring directives ∧ ¬ Malformed directives ∧ ¬ ForbidsReuse directives ∧
      ∃ given, .maxAge (some given) ∈ directives) ∨
    ∀ directive ∈ directives, directive = .extension := by
  by_cases stores : ForbidsStoring directives
  · exact .inl stores
  by_cases asks : Malformed directives ∨ ForbidsReuse directives
  · exact .inr (.inl ⟨stores, asks⟩)
  by_cases lifetime : ∃ given, .maxAge (some given) ∈ directives
  · exact .inr (.inr (.inl ⟨stores, mt .inl asks, mt .inr asks, lifetime⟩))
  refine .inr (.inr (.inr fun directive member => ?_))
  cases directive with
  | extension => rfl
  | blank => exact absurd (.inl (.inl member)) asks
  | noStore bare => exact absurd ⟨bare, member⟩ stores
  | noCache bare => exact absurd (.inr ⟨bare, member⟩) asks
  | maxAge seconds =>
    cases seconds with
    | none => exact absurd (.inl (.inr (.inr (.inr (.inl member))))) asks
    | some given => exact absurd ⟨given, member⟩ lifetime

end Directives

end Rsolve
