import Mathlib.Algebra.Group.Int.Defs
import Rsolve.Cran.PackageDescription

/-!
# The deadline of the next probe

After a failed probe the next one waits for a jittered local delay and for the delay that the
server asks for. Instants are counted in nanoseconds, delays in whole seconds, and the deadline is
kept in whole seconds.
-/
namespace Rsolve

/-- The nanoseconds of a second. -/
def nanosecondsPerSecond : Int := 1000000000

/-- The first nanosecond that a timestamp can represent. -/
def minTimestamp : Int := -377705023201000000000

/-- The last nanosecond that a timestamp can represent. -/
def maxTimestamp : Int := 253402207200999999999

/-- `jiff::Timestamp`: the nanoseconds since the epoch, within the representable range. -/
structure Timestamp where
  /-- The nanoseconds since the epoch, negative before it. -/
  nanosecond : Int
  /-- The instant is representable. -/
  representable : minTimestamp ≤ nanosecond ∧ nanosecond ≤ maxTimestamp
deriving DecidableEq

namespace Timestamp

/-- The sum with a duration, when it is representable. -/
def add (timestamp : Timestamp) (duration : Int) : Option Timestamp :=
  if sum : minTimestamp ≤ timestamp.nanosecond + duration ∧
      timestamp.nanosecond + duration ≤ maxTimestamp then
    some ⟨timestamp.nanosecond + duration, sum⟩
  else none

/-- `Timestamp::subsec_nanosecond`: the part below a second, with the sign of the instant. -/
def subsecNanosecond (timestamp : Timestamp) : Int :=
  timestamp.nanosecond.tmod nanosecondsPerSecond

/-- `Timestamp::duration_since`, in nanoseconds. -/
def durationSince (later earlier : Timestamp) : Int :=
  later.nanosecond - earlier.nanosecond

/-- An instant on a whole second. -/
def Whole (timestamp : Timestamp) : Prop :=
  timestamp.nanosecond % nanosecondsPerSecond = 0

instance (timestamp : Timestamp) : Decidable timestamp.Whole :=
  inferInstanceAs (Decidable (_ = _))

/-- A sum within the range is the sum of the nanoseconds. -/
theorem add_eq_some {timestamp : Timestamp} {duration : Int}
    (above : minTimestamp ≤ timestamp.nanosecond + duration)
    (below : timestamp.nanosecond + duration ≤ maxTimestamp) :
    ∃ sum, timestamp.add duration = some sum ∧
      sum.nanosecond = timestamp.nanosecond + duration :=
  ⟨⟨_, above, below⟩, dif_pos ⟨above, below⟩, rfl⟩

/-- The part below a second is that of the whole seconds below, less a second before the epoch. -/
theorem subsecNanosecond_eq (timestamp : Timestamp) :
    timestamp.subsecNanosecond =
      if 0 ≤ timestamp.nanosecond ∨ timestamp.Whole then timestamp.nanosecond % 1000000000
      else timestamp.nanosecond % 1000000000 - 1000000000 := by
  simp only [subsecNanosecond, nanosecondsPerSecond, Whole, Int.tmod_eq_emod,
    Int.dvd_iff_emod_eq_zero]
  split_ifs <;> omega

end Timestamp

/-- The parsing and printing of calendar dates. -/
structure Calendar where
  /-- `jiff::civil::DateTime`. -/
  DateTime : Type
  /-- `DateTime::strptime`. -/
  strptime : String → String → Option DateTime
  /-- `DateTime::to_zoned` in UTC, as a timestamp. -/
  utcTimestamp : DateTime → Option Timestamp
  /-- `Timestamp::strftime`. -/
  strftime : String → Timestamp → String

/-- `LOCAL_BACKOFF_BASE_SECS`. -/
def localBackoffBaseSecs : Int := 60

/-- `LOCAL_BACKOFF_CAP_SECS`. -/
def localBackoffCapSecs : Int := 6 * 60 * 60

/-- `SERVER_BACKOFF_CAP_SECS`. -/
def serverBackoffCapSecs : Int := 24 * 60 * 60

/-- `i64::saturating_mul`. -/
def saturatingMulI64 (left right : Int) : Int :=
  max (-9223372036854775808) (min (left * right) 9223372036854775807)

/-- A `u64` value that saturates. -/
def saturateU64 (value : Nat) : Nat :=
  min value 18446744073709551615

/-- The product of two `u128` values, when it does not overflow. -/
def mulU128 (left right : Nat) : Option Nat :=
  if left * right < 340282366920938463463374607431768211456 then some (left * right) else none

/-- The window of the local delay, in seconds. -/
def localWindow (failureCount : UInt32) : Int :=
  let exponent := min (failureCount.toNat - 1) 9
  min (saturatingMulI64 localBackoffBaseSecs (2 ^ exponent)) localBackoffCapSecs

/-- The jittered local delay, in seconds. -/
def jitterSecs (failureCount : UInt32) (sample : UInt64) : Option Int := do
  let product ← mulU128 (localWindow failureCount).toNat sample.toNat
  some (min (max (product / 18446744073709551615) 1) localBackoffCapSecs.toNat : Nat)

/-- A text is a delay: nonempty and of decimal digits. -/
def isDelayText (value : List Char) : Bool :=
  !value.isEmpty && value.all Char.isDigit

/-- The seconds of a delay text, saturating. -/
def delaySeconds (value : List Char) : Nat :=
  value.foldl (fun seconds digit =>
    saturateU64 (saturateU64 (seconds * 10) + (digit.toNat - '0'.toNat))) 0

/-- The formats that `parse_http_date` tries, in order. -/
def httpDateFormats : List String :=
  ["%a, %d %b %Y %H:%M:%S GMT", "%A, %d-%b-%y %H:%M:%S GMT", "%a %b %e %H:%M:%S %Y"]

/-- `parse_http_date`. -/
def parseHttpDate (calendar : Calendar) (value : String) : Option Timestamp :=
  httpDateFormats.findSome? fun format =>
    (calendar.strptime format value).bind calendar.utcTimestamp

/-- `parse_retry_after`, in seconds. -/
def parseRetryAfter (calendar : Calendar) (text : String) (now : Timestamp) : Option Int := do
  let value := trim text.toList
  let delay ←
    if isDelayText value then
      some ((min (delaySeconds value) serverBackoffCapSecs.toNat : Nat) : Int)
    else
      (parseHttpDate calendar (String.ofList value)).bind fun deadline =>
        if deadline.nanosecond ≤ now.nanosecond then none
        else some ((deadline.durationSince now).tdiv nanosecondsPerSecond)
  some (min delay serverBackoffCapSecs)

/-- The next whole second as the source computes it. -/
def ceilSecond (deadline : Timestamp) : Option Timestamp :=
  if deadline.subsecNanosecond = 0 then some deadline
  else do
    let next ← deadline.add nanosecondsPerSecond
    next.add (-deadline.subsecNanosecond)

/-- The instant that `failure_probe_at` prints; `none` where an operation overflows. -/
def failureProbeDeadline (calendar : Calendar) (now : Timestamp) (failureCount : UInt32)
    (retryAfter : Option String) (sample : UInt64) : Option Timestamp := do
  let jitter ← jitterSecs failureCount sample
  let localDeadline ← now.add (jitter * nanosecondsPerSecond)
  let deadline ←
    match retryAfter.bind (parseRetryAfter calendar · now) with
    | none => some localDeadline
    | some delay => do
      let server ← now.add (delay * nanosecondsPerSecond)
      some (if localDeadline.nanosecond < server.nanosecond then server else localDeadline)
  ceilSecond deadline

/-- `failure_probe_at`. -/
def failureProbeAt (calendar : Calendar) (now : Timestamp) (failureCount : UInt32)
    (retryAfter : Option String) (sample : UInt64) : Option String :=
  (failureProbeDeadline calendar now failureCount retryAfter sample).map
    (calendar.strftime "%Y-%m-%dT%H:%M:%SZ")

/-! ## What a deadline is bounded by -/

/-- The formats have no fraction of a second, so a parsed date is on a whole second. -/
def Calendar.WholeSeconds (calendar : Calendar) : Prop :=
  ∀ format ∈ httpDateFormats, ∀ value civil timestamp,
    calendar.strptime format value = some civil → calendar.utcTimestamp civil = some timestamp →
    timestamp.Whole

/-- The number of a delay text. -/
def delayOf (text : String) : Option Nat :=
  let value := trim text.toList
  if isDelayText value then some (Nat.ofDigitChars 10 value 0) else none

/-- The date of a text that is no delay. -/
def dateOf (calendar : Calendar) (text : String) : Option Timestamp :=
  let value := trim text.toList
  if isDelayText value then none else parseHttpDate calendar (String.ofList value)

/-- The seconds of the local delay. -/
def localDelay (failureCount : UInt32) (sample : UInt64) : Nat :=
  let window := min (60 * 2 ^ min (max failureCount.toNat 1 - 1) 9) 21600
  max 1 (window * sample.toNat / 18446744073709551615)

/-- The instant before which the local delay allows no probe. -/
def localBound (now : Timestamp) (failureCount : UInt32) (sample : UInt64) : Int :=
  now.nanosecond + localDelay failureCount sample * nanosecondsPerSecond

/-- The instant before which the server allows no probe, when its text says one. -/
def serverBound (calendar : Calendar) (now : Timestamp) (text : String) : Option Int :=
  match delayOf text with
  | some seconds => some (now.nanosecond + min seconds 86400 * nanosecondsPerSecond)
  | none =>
    match dateOf calendar text with
    | some date =>
      if now.nanosecond < date.nanosecond then
        some (min date.nanosecond (now.nanosecond + 86400 * nanosecondsPerSecond))
      else none
    | none => none

/-- The latest of the bounds. -/
def latestBound (calendar : Calendar) (now : Timestamp) (failureCount : UInt32)
    (retryAfter : Option String) (sample : UInt64) : Int :=
  match retryAfter.bind (serverBound calendar now) with
  | some server => max (localBound now failureCount sample) server
  | none => localBound now failureCount sample

/-- The deadline is a whole second that respects every bound and exceeds the latest by less than a
second. -/
structure RespectsBounds (calendar : Calendar) (now : Timestamp) (failureCount : UInt32)
    (retryAfter : Option String) (sample : UInt64) (deadline : Timestamp) : Prop where
  /-- The deadline is on a whole second. -/
  whole : deadline.Whole
  /-- It is not before the local bound. -/
  afterJitter : localBound now failureCount sample ≤ deadline.nanosecond
  /-- It is not before the end of a delay of the server. -/
  afterDelay : ∀ text ∈ retryAfter, ∀ seconds ∈ delayOf text,
    now.nanosecond + min seconds 86400 * nanosecondsPerSecond ≤ deadline.nanosecond
  /-- It is not before a later date of the server, up to a day. -/
  afterDate : ∀ text ∈ retryAfter, ∀ date ∈ dateOf calendar text,
    now.nanosecond < date.nanosecond →
    min date.nanosecond (now.nanosecond + 86400 * nanosecondsPerSecond) ≤ deadline.nanosecond
  /-- It is less than a second after the latest bound. -/
  tight : deadline.nanosecond <
    latestBound calendar now failureCount retryAfter sample + nanosecondsPerSecond

/-- The next probe is printed for a deadline that respects its bounds. -/
def ProbesInTime (calendar : Calendar) (now : Timestamp) (failureCount : UInt32)
    (retryAfter : Option String) (sample : UInt64) : Prop :=
  ∃ deadline,
    failureProbeDeadline calendar now failureCount retryAfter sample = some deadline ∧
    failureProbeAt calendar now failureCount retryAfter sample =
      some (calendar.strftime "%Y-%m-%dT%H:%M:%SZ" deadline) ∧
    RespectsBounds calendar now failureCount retryAfter sample deadline

/-! ## The delays -/

variable {calendar : Calendar} {now : Timestamp} {failureCount : UInt32} {sample : UInt64}

/-- The window is at least a minute and at most the local cap. -/
theorem localWindow_eq (failureCount : UInt32) :
    localWindow failureCount = (min (60 * 2 ^ min (failureCount.toNat - 1) 9) 21600 : Nat) := by
  have small : 2 ^ min (failureCount.toNat - 1) 9 ≤ 2 ^ 9 :=
    Nat.pow_le_pow_right (by decide) (Nat.min_le_right _ _)
  simp only [localWindow, saturatingMulI64, localBackoffBaseSecs, localBackoffCapSecs]
  have cast : (2 ^ min (failureCount.toNat - 1) 9 : Int) =
      ((2 ^ min (failureCount.toNat - 1) 9 : Nat) : Int) := by
    push_cast
    rfl
  rw [cast]
  omega

/-- The local delay fits below its cap. -/
theorem localDelay_bounds (failureCount : UInt32) (sample : UInt64) :
    1 ≤ localDelay failureCount sample ∧ localDelay failureCount sample ≤ 21600 := by
  have below : sample.toNat ≤ 18446744073709551615 := by
    have := sample.toNat_lt
    omega
  refine ⟨Nat.le_max_left _ _, Nat.max_le.mpr ⟨by decide, ?_⟩⟩
  calc min (60 * 2 ^ min (max failureCount.toNat 1 - 1) 9) 21600 * sample.toNat /
        18446744073709551615
    _ ≤ 21600 * 18446744073709551615 / 18446744073709551615 :=
        Nat.div_le_div_right (Nat.mul_le_mul (Nat.min_le_right _ _) below)
    _ = 21600 := Nat.mul_div_cancel _ (by decide)

/-- The jitter of the source is the local delay, and its product does not overflow. -/
theorem jitterSecs_eq (failureCount : UInt32) (sample : UInt64) :
    jitterSecs failureCount sample = some (localDelay failureCount sample : Int) := by
  have bounds := localDelay_bounds failureCount sample
  have below := sample.toNat_lt
  have exponents : max failureCount.toNat 1 - 1 = failureCount.toNat - 1 := by omega
  simp only [localDelay, exponents] at bounds
  have fits : min (60 * 2 ^ min (failureCount.toNat - 1) 9) 21600 * sample.toNat <
      340282366920938463463374607431768211456 :=
    calc min (60 * 2 ^ min (failureCount.toNat - 1) 9) 21600 * sample.toNat
      _ ≤ 21600 * 2 ^ 64 := Nat.mul_le_mul (Nat.min_le_right _ _) (Nat.le_of_lt below)
      _ < 340282366920938463463374607431768211456 := by decide
  have product : mulU128 (localWindow failureCount).toNat sample.toNat =
      some (min (60 * 2 ^ min (failureCount.toNat - 1) 9) 21600 * sample.toNat) := by
    rw [localWindow_eq, Int.toNat_natCast]
    exact if_pos fits
  have cap : localBackoffCapSecs.toNat = 21600 := rfl
  simp only [jitterSecs, product, Option.bind_eq_bind, Option.bind_some, localDelay, exponents, cap]
  rw [Nat.max_comm, Nat.min_eq_left bounds.2]

/-- One saturating digit is the digit of the saturated value. -/
theorem saturateU64_push (value digit : Nat) :
    saturateU64 (saturateU64 (saturateU64 value * 10) + digit) =
      saturateU64 (10 * value + digit) := by
  simp only [saturateU64]
  omega

/-- The seconds of a delay text are its number, saturated: no digit overflows. -/
theorem delaySeconds_eq (digits : List Char) :
    delaySeconds digits = saturateU64 (Nat.ofDigitChars 10 digits 0) := by
  have general : ∀ (rest : List Char) (value : Nat),
      rest.foldl (fun seconds digit =>
        saturateU64 (saturateU64 (seconds * 10) + (digit.toNat - '0'.toNat)))
        (saturateU64 value) = saturateU64 (Nat.ofDigitChars 10 rest value) := by
    intro rest
    induction rest with
    | nil => exact fun value => rfl
    | cons digit rest ih =>
      intro value
      rw [List.foldl_cons, saturateU64_push, ih, Nat.ofDigitChars_cons]
  exact general digits 0

/-- A delay text is read as its number up to the cap of the server. -/
theorem parseRetryAfter_of_delay {text : String} {seconds : Nat}
    (delay : delayOf text = some seconds) :
    parseRetryAfter calendar text now = some (min seconds 86400 : Nat) := by
  simp only [delayOf] at delay
  split at delay
  · next digits =>
    have number := Option.some.inj delay
    have cap : serverBackoffCapSecs = 86400 := rfl
    simp only [parseRetryAfter, digits, if_true, delaySeconds_eq, number, cap, saturateU64,
      Option.bind_eq_bind, Option.bind_some]
    refine congrArg some ?_
    omega
  · cases delay

/-- A text that is no delay is read as its date. -/
theorem parseRetryAfter_of_date {text : String} (noDelay : delayOf text = none) :
    parseRetryAfter calendar text now =
      (dateOf calendar text).bind fun date =>
        if date.nanosecond ≤ now.nanosecond then none
        else some (min ((date.durationSince now).tdiv nanosecondsPerSecond) 86400) := by
  simp only [delayOf] at noDelay
  split at noDelay
  · cases noDelay
  · next other =>
    have cap : serverBackoffCapSecs = 86400 := rfl
    simp only [parseRetryAfter, dateOf, other, cap, Bool.false_eq_true, if_false,
      Option.bind_eq_bind, Option.bind_assoc]
    refine congrArg _ (funext fun date => ?_)
    split <;> rfl

/-- A parsed date is on a whole second. -/
theorem whole_parseHttpDate (whole : calendar.WholeSeconds) {value : String} {date : Timestamp}
    (parsed : parseHttpDate calendar value = some date) : date.Whole := by
  obtain ⟨format, listed, found⟩ := List.exists_of_findSome?_eq_some parsed
  obtain ⟨civil, read, stamped⟩ := Option.bind_eq_some_iff.mp found
  exact whole format listed value civil date read stamped

/-- The date of a text is on a whole second. -/
theorem whole_dateOf (whole : calendar.WholeSeconds) {text : String} {date : Timestamp}
    (dated : dateOf calendar text = some date) : date.Whole := by
  simp only [dateOf] at dated
  split at dated
  · cases dated
  · exact whole_parseHttpDate whole dated

/-- What the server asks for and what the deadline of the source makes of it: the bound of the
server, or less than a second before it where the bound is on a whole second. -/
theorem parseRetryAfter_spec (whole : calendar.WholeSeconds) (text : String) :
    parseRetryAfter calendar text now = none ∧ serverBound calendar now text = none ∨
      ∃ delay bound, parseRetryAfter calendar text now = some delay ∧
        serverBound calendar now text = some bound ∧ 0 ≤ delay ∧ delay ≤ 86400 ∧
        (bound = now.nanosecond + delay * nanosecondsPerSecond ∨
          bound % nanosecondsPerSecond = 0 ∧
            now.nanosecond + delay * nanosecondsPerSecond < bound ∧
            bound < now.nanosecond + delay * nanosecondsPerSecond + nanosecondsPerSecond) := by
  cases delayed : delayOf text with
  | some seconds =>
    refine .inr ⟨_, now.nanosecond + (min seconds 86400 : Nat) * nanosecondsPerSecond,
      parseRetryAfter_of_delay delayed, by simp only [serverBound, delayed], ?_⟩
    refine ⟨Int.natCast_nonneg _, ?_, .inl rfl⟩
    have capped : min seconds 86400 ≤ 86400 := Nat.min_le_right _ _
    omega
  | none =>
    rw [parseRetryAfter_of_date delayed]
    cases dated : dateOf calendar text with
    | none => exact .inl ⟨rfl, by simp only [serverBound, delayed, dated]⟩
    | some date =>
      by_cases later : now.nanosecond < date.nanosecond
      · have onSecond : date.nanosecond % 1000000000 = 0 := whole_dateOf whole dated
        have wait : (date.durationSince now).tdiv nanosecondsPerSecond =
            (date.nanosecond - now.nanosecond) / 1000000000 :=
          Int.tdiv_eq_ediv_of_nonneg (by simp only [Timestamp.durationSince]; omega)
        refine .inr ⟨min ((date.nanosecond - now.nanosecond) / 1000000000) 86400,
          min date.nanosecond (now.nanosecond + 86400 * nanosecondsPerSecond), ?_,
          by simp only [serverBound, delayed, dated, if_pos later], ?_⟩
        · rw [Option.bind_some, if_neg (Int.not_le.mpr later), wait]
        · simp only [nanosecondsPerSecond]
          omega
      · refine .inl ⟨?_, by simp only [serverBound, delayed, dated, if_neg later]⟩
        rw [Option.bind_some, if_pos (Int.not_lt.mp later)]

/-! ## The deadline -/

/-- The room that two days leave before the end of the range. -/
def Timestamp.HasRoom (now : Timestamp) : Prop :=
  now.nanosecond + 172800 * nanosecondsPerSecond ≤ maxTimestamp

instance (now : Timestamp) : Decidable now.HasRoom :=
  inferInstanceAs (Decidable (_ ≤ _))

/-- Before it is rounded, the deadline has the fraction of the current time, and the latest bound is
this deadline or a whole second less than a second after it. -/
theorem exists_deadline (whole : calendar.WholeSeconds) (room : now.HasRoom)
    (failureCount : UInt32) (retryAfter : Option String) (sample : UInt64) :
    ∃ deadline : Timestamp,
      failureProbeDeadline calendar now failureCount retryAfter sample = ceilSecond deadline ∧
      (deadline.nanosecond - now.nanosecond) % nanosecondsPerSecond = 0 ∧
      deadline.nanosecond ≤ now.nanosecond + 86400 * nanosecondsPerSecond ∧
      (latestBound calendar now failureCount retryAfter sample = deadline.nanosecond ∨
        latestBound calendar now failureCount retryAfter sample % nanosecondsPerSecond = 0 ∧
          deadline.nanosecond < latestBound calendar now failureCount retryAfter sample ∧
          latestBound calendar now failureCount retryAfter sample <
            deadline.nanosecond + nanosecondsPerSecond) := by
  obtain ⟨positive, short⟩ := localDelay_bounds failureCount sample
  have first := now.representable.1
  simp only [Timestamp.HasRoom, nanosecondsPerSecond] at room
  obtain ⟨localDeadline, added, localAt⟩ := @Timestamp.add_eq_some now
    (localDelay failureCount sample * nanosecondsPerSecond)
    (by simp only [nanosecondsPerSecond]; omega) (by simp only [nanosecondsPerSecond]; omega)
  simp only [failureProbeDeadline, jitterSecs_eq, Option.bind_eq_bind, Option.bind_some, added,
    latestBound, localBound]
  have alone : ∃ deadline : Timestamp, ceilSecond localDeadline = ceilSecond deadline ∧
      (deadline.nanosecond - now.nanosecond) % nanosecondsPerSecond = 0 ∧
      deadline.nanosecond ≤ now.nanosecond + 86400 * nanosecondsPerSecond ∧
      now.nanosecond + localDelay failureCount sample * nanosecondsPerSecond =
        deadline.nanosecond := by
    refine ⟨localDeadline, rfl, ?_⟩
    simp only [nanosecondsPerSecond] at localAt ⊢
    omega
  obtain ⟨deadline, ceiled, fraction, below, equal⟩ := alone
  cases retryAfter with
  | none => exact ⟨deadline, ceiled, fraction, below, .inl equal⟩
  | some text =>
    rcases @parseRetryAfter_spec calendar now whole text with
      ⟨noDelay, noBound⟩ | ⟨delay, bound, asks, bounds, nonnegative, capped, close⟩
    · simp only [Option.bind_some, noDelay, noBound]
      exact ⟨deadline, ceiled, fraction, below, .inl equal⟩
    · obtain ⟨server, serverAdded, serverAt⟩ := @Timestamp.add_eq_some now
        (delay * nanosecondsPerSecond)
        (by simp only [nanosecondsPerSecond]; omega) (by simp only [nanosecondsPerSecond]; omega)
      simp only [Option.bind_some, asks, bounds, serverAdded]
      refine ⟨_, rfl, ?_⟩
      simp only [nanosecondsPerSecond] at localAt serverAt close ⊢
      split <;> omega

/-- The rounded deadline: the next whole second, and before the epoch the one after the next. -/
theorem ceilSecond_eq (deadline : Timestamp)
    (room : deadline.nanosecond + 2 * nanosecondsPerSecond ≤ maxTimestamp) :
    ∃ ceiled, ceilSecond deadline = some ceiled ∧ ceiled.nanosecond =
      if deadline.Whole then deadline.nanosecond
      else if 0 ≤ deadline.nanosecond then (deadline.nanosecond / 1000000000 + 1) * 1000000000
      else (deadline.nanosecond / 1000000000 + 2) * 1000000000 := by
  have first := deadline.representable.1
  have fraction := deadline.subsecNanosecond_eq
  simp only [nanosecondsPerSecond] at room
  by_cases noFraction : deadline.subsecNanosecond = 0
  · have isWhole : deadline.Whole := by
      simp only [Timestamp.Whole, nanosecondsPerSecond] at fraction ⊢
      split_ifs at fraction <;> omega
    exact ⟨deadline, if_pos noFraction, (if_pos isWhole).symm⟩
  · have notWhole : ¬ deadline.Whole := by
      simp only [Timestamp.Whole, nanosecondsPerSecond] at fraction ⊢
      split_ifs at fraction <;> omega
    obtain ⟨next, added, nextAt⟩ := @Timestamp.add_eq_some deadline nanosecondsPerSecond
      (by simp only [nanosecondsPerSecond]; omega) (by simp only [nanosecondsPerSecond]; omega)
    simp only [nanosecondsPerSecond] at nextAt
    have fractional : deadline.nanosecond % 1000000000 ≠ 0 := notWhole
    have near : -1000000000 < deadline.subsecNanosecond ∧
        deadline.subsecNanosecond < 1000000000 := by
      split_ifs at fraction <;> omega
    obtain ⟨ceiled, reduced, ceiledAt⟩ := @Timestamp.add_eq_some next (-deadline.subsecNanosecond)
      (by omega) (by omega)
    refine ⟨ceiled, ?_, ?_⟩
    · rw [ceilSecond, if_neg noFraction, added]
      exact reduced
    · rw [if_neg notWhole]
      simp only [notWhole, or_false] at fraction
      split_ifs at fraction ⊢ <;> omega

/-- The bounds are respected by a whole second from the latest of them on, less than a second after
it. -/
theorem respectsBounds_iff {retryAfter : Option String} {deadline : Timestamp} :
    RespectsBounds calendar now failureCount retryAfter sample deadline ↔
      deadline.Whole ∧
        latestBound calendar now failureCount retryAfter sample ≤ deadline.nanosecond ∧
        deadline.nanosecond <
          latestBound calendar now failureCount retryAfter sample + nanosecondsPerSecond := by
  have above : ∀ text ∈ retryAfter, ∀ bound ∈ serverBound calendar now text,
      bound ≤ latestBound calendar now failureCount retryAfter sample := by
    rintro text rfl bound bounds
    simp only [latestBound, Option.bind_some, Option.mem_def.mp bounds]
    exact Int.le_max_right _ _
  have aboveLocal : localBound now failureCount sample ≤
      latestBound calendar now failureCount retryAfter sample := by
    unfold latestBound
    split
    · exact Int.le_max_left _ _
    · exact Int.le_refl _
  constructor
  · intro respects
    refine ⟨respects.whole, ?_, respects.tight⟩
    cases asked : retryAfter.bind (serverBound calendar now) with
    | none =>
      simp only [latestBound, asked]
      exact respects.afterJitter
    | some bound =>
      simp only [latestBound, asked]
      refine Int.max_le.mpr ⟨respects.afterJitter, ?_⟩
      obtain ⟨text, given, bounds⟩ := Option.bind_eq_some_iff.mp asked
      unfold serverBound at bounds
      split at bounds
      · next seconds delayed =>
        rw [← Option.some.inj bounds]
        exact respects.afterDelay text given seconds delayed
      · split at bounds
        · next date dated =>
          split at bounds
          · next later =>
            rw [← Option.some.inj bounds]
            exact respects.afterDate text given date dated later
          · cases bounds
        · cases bounds
  · rintro ⟨isWhole, after, tight⟩
    refine ⟨isWhole, Int.le_trans aboveLocal after, fun text given seconds delayed => ?_,
      fun text given date dated later => ?_, tight⟩
    · refine Int.le_trans (above text given _ ?_) after
      simp only [serverBound, Option.mem_def.mp delayed, Option.mem_def]
    · refine Int.le_trans (above text given _ ?_) after
      have noDelay : delayOf text = none := by
        simp only [dateOf, Option.mem_def] at dated
        split at dated
        · cases dated
        · next other => simp only [delayOf, other, Bool.false_eq_true, if_false]
      simp only [serverBound, noDelay, Option.mem_def.mp dated, if_pos later, Option.mem_def]

/-- The next probe respects its bounds exactly when the current time is on a whole second or the
latest bound is after the epoch. -/
theorem probesInTime_iff (calendar : Calendar) (whole : calendar.WholeSeconds) (now : Timestamp)
    (room : now.HasRoom) (failureCount : UInt32) (retryAfter : Option String) (sample : UInt64) :
    ProbesInTime calendar now failureCount retryAfter sample ↔
      now.Whole ∨ 0 < latestBound calendar now failureCount retryAfter sample := by
  obtain ⟨deadline, computed, fraction, below, close⟩ :=
    exists_deadline whole room failureCount retryAfter sample
  simp only [Timestamp.HasRoom, nanosecondsPerSecond] at room fraction below close
  obtain ⟨ceiled, rounds, ceiledAt⟩ := ceilSecond_eq deadline
    (by simp only [nanosecondsPerSecond]; omega)
  rw [rounds] at computed
  have probes : ProbesInTime calendar now failureCount retryAfter sample ↔
      RespectsBounds calendar now failureCount retryAfter sample ceiled := by
    constructor
    · rintro ⟨found, same, -, respects⟩
      rw [computed] at same
      rwa [Option.some.inj same]
    · intro respects
      exact ⟨ceiled, computed, by rw [failureProbeAt, computed]; rfl, respects⟩
  rw [probes, respectsBounds_iff]
  simp only [Timestamp.Whole, nanosecondsPerSecond] at ceiledAt ⊢
  split_ifs at ceiledAt <;> omega

namespace Small

/-- The time that the server names. -/
def nextDay : Timestamp := ⟨86400000000000, by decide⟩

/-- A calendar that knows the next day. -/
def dayCalendar : Calendar where
  DateTime := Timestamp
  strptime format value :=
    if format = "%a, %d %b %Y %H:%M:%S GMT" ∧ value = "Fri, 02 Jan 1970 00:00:00 GMT" then
      some nextDay
    else none
  utcTimestamp := some
  strftime _ timestamp :=
    if timestamp = nextDay then "1970-01-02T00:00:00Z" else "1970-01-01T00:00:01Z"

/-- The calendar knows whole seconds only. -/
theorem dayCalendar_wholeSeconds : dayCalendar.WholeSeconds := by
  intro format listed value civil timestamp read stamped
  obtain rfl := Option.some.inj stamped
  dsimp only [dayCalendar] at read
  split at read
  · rw [← Option.some.inj read]
    decide
  · cases read

/-- A time half a second after the epoch. -/
def halfSecond : Timestamp := ⟨500000000, by decide⟩

/-- A time one second and a quarter before the epoch. -/
def beforeEpoch : Timestamp := ⟨-1250000000, by decide⟩

end Small

/-- A probe that the server puts off to the next day respects its bounds. -/
theorem probesInTime_nextDay :
    ProbesInTime Small.dayCalendar Small.halfSecond 1 (some "Fri, 02 Jan 1970 00:00:00 GMT") 0 := by
  refine (probesInTime_iff _ Small.dayCalendar_wholeSeconds _ (by decide) _ _ _).mpr (.inr ?_)
  have positive : 0 < localBound Small.halfSecond 1 0 := by decide
  unfold latestBound
  split
  · exact Int.lt_of_lt_of_le positive (Int.le_max_left _ _)
  · exact positive

/-- Before the epoch a probe is put off for longer than its bounds say. -/
theorem not_probesInTime :
    ¬ ∀ (calendar : Calendar), calendar.WholeSeconds → ∀ now : Timestamp, now.HasRoom →
      ∀ (failureCount : UInt32) (retryAfter : Option String) (sample : UInt64),
        ProbesInTime calendar now failureCount retryAfter sample := by
  intro always
  obtain ⟨deadline, computed, -, respects⟩ := always Small.dayCalendar
    Small.dayCalendar_wholeSeconds Small.beforeEpoch (by decide) 1 none 0
  have late : (failureProbeDeadline Small.dayCalendar Small.beforeEpoch 1 none 0).all
      (fun found => decide (1000000000 ≤ found.nanosecond)) = true := by
    decide
  rw [computed] at late
  simp only [Option.all_some, decide_eq_true_eq] at late
  have tight := respects.tight
  have bound : latestBound Small.dayCalendar Small.beforeEpoch 1 none 0 = -250000000 := by decide
  rw [bound] at tight
  simp only [nanosecondsPerSecond] at tight
  omega

end Rsolve
