import Mathlib.Data.List.Basic

/-!
# Length-delimited byte fields

Byte strings are concatenated as fields that carry their own length in eight bytes, optionally
after a one-byte tag. A field shorter than the length bound can be read back from the front of any
byte string. Both byte orders occur: the big-endian fields carry tags, the little-endian fields do
not.
-/
namespace Framing

/-- The UTF-8 bytes of a text. -/
def textBytes (text : String) : List UInt8 :=
  text.toList.flatMap String.utf8EncodeChar

/-- The bytes of a text are those that it is stored as. -/
theorem textBytes_eq (text : String) : textBytes text = text.toByteArray.data.toList := by
  have stored : text.toList.utf8Encode = text.toByteArray := String.utf8Encode_toList
  rw [← stored, List.utf8Encode]
  simp [textBytes]

/-- The digits of a number in a fixed count of bytes, most significant first. -/
def bigEndian : Nat → Nat → List UInt8
  | 0, _ => []
  | count + 1, number => bigEndian count (number / 256) ++ [UInt8.ofNat (number % 256)]

/-- Eight big-endian bytes of a 64-bit number. -/
def be64 (number : Nat) : List UInt8 :=
  bigEndian 8 number

/-- One byte string behind its length. -/
def lengthPrefixed (value : List UInt8) : List UInt8 :=
  be64 value.length ++ value

/-- One byte string behind its tag and length. -/
def tagged (tag : UInt8) (value : List UInt8) : List UInt8 :=
  tag :: lengthPrefixed value

/-- Lengths below this bound fit into eight bytes. -/
def lengthBound : Nat := 18446744073709551616

/-- Equal bytes are bytes of equal texts. -/
theorem textBytes_injective {left right : String} (equal : textBytes left = textBytes right) :
    left = right := by
  have encoded : ∀ text : String, (textBytes text).toByteArray = text.toByteArray :=
    fun _ => String.utf8Encode_toList
  rw [← String.toByteArray_inj, ← encoded left, ← encoded right, equal]

/-- A number has as many digits as asked for. -/
@[simp]
theorem bigEndian_length (count number : Nat) : (bigEndian count number).length = count := by
  induction count generalizing number with
  | zero => rfl
  | succ count ih => simp [bigEndian, ih]

/-- Numbers that fit into a count of bytes are determined by their digits. -/
theorem bigEndian_injective {count left right : Nat} (leftFits : left < Nat.pow 256 count)
    (rightFits : right < Nat.pow 256 count) (equal : bigEndian count left = bigEndian count right) :
    left = right := by
  induction count generalizing left right with
  | zero =>
    have leftZero : left < 1 := leftFits
    have rightZero : right < 1 := rightFits
    omega
  | succ count ih =>
    have leftFits : left < 256 * Nat.pow 256 count := by
      rw [Nat.mul_comm]
      exact leftFits
    have rightFits : right < 256 * Nat.pow 256 count := by
      rw [Nat.mul_comm]
      exact rightFits
    have split := List.append_inj equal (by simp)
    have high : left / 256 = right / 256 :=
      ih (Nat.div_lt_of_lt_mul leftFits) (Nat.div_lt_of_lt_mul rightFits) split.1
    have low : left % 256 = right % 256 := by
      have bytes : UInt8.ofNat (left % 256) = UInt8.ofNat (right % 256) := by simpa using split.2
      have numbers := congrArg UInt8.toNat bytes
      simpa using numbers
    omega

/-- Eight bytes are eight bytes. -/
@[simp]
theorem be64_length (number : Nat) : (be64 number).length = 8 :=
  bigEndian_length 8 number

/-- A 64-bit number is determined by its bytes. -/
theorem be64_injective {left right : Nat} (leftFits : left < lengthBound)
    (rightFits : right < lengthBound) (equal : be64 left = be64 right) : left = right := by
  have bound : lengthBound = Nat.pow 256 8 := by decide
  rw [bound] at leftFits rightFits
  exact bigEndian_injective leftFits rightFits equal

/-- A length-prefixed field can be read from the front. -/
theorem lengthPrefixed_append_inj {left right leftRest rightRest : List UInt8}
    (leftFits : left.length < lengthBound) (rightFits : right.length < lengthBound)
    (equal : lengthPrefixed left ++ leftRest = lengthPrefixed right ++ rightRest) :
    left = right ∧ leftRest = rightRest := by
  simp only [lengthPrefixed, List.append_assoc] at equal
  have header := List.append_inj equal (by simp)
  have lengths := be64_injective leftFits rightFits header.1
  exact List.append_inj header.2 lengths

/-- The bytes of a length-prefixed field. -/
theorem lengthPrefixed_length (value : List UInt8) :
    (lengthPrefixed value).length = value.length + 8 := by
  rw [lengthPrefixed, List.length_append, be64_length, Nat.add_comm]

/-- Fields are determined by their bytes in a row. -/
theorem flatMap_lengthPrefixed_injective {left right : List (List UInt8)}
    (leftFits : (left.flatMap lengthPrefixed).length < lengthBound)
    (rightFits : (right.flatMap lengthPrefixed).length < lengthBound)
    (equal : left.flatMap lengthPrefixed = right.flatMap lengthPrefixed) : left = right := by
  induction left generalizing right with
  | nil =>
    cases right with
    | nil => rfl
    | cons second right =>
      have lengths := congrArg List.length equal
      simp only [List.flatMap_nil, List.flatMap_cons, List.length_append, lengthPrefixed_length,
        List.length_nil] at lengths
      omega
  | cons first left ih =>
    cases right with
    | nil =>
      have lengths := congrArg List.length equal
      simp only [List.flatMap_nil, List.flatMap_cons, List.length_append, lengthPrefixed_length,
        List.length_nil] at lengths
      omega
    | cons second right =>
      simp only [List.flatMap_cons, List.length_append, lengthPrefixed_length]
        at leftFits rightFits equal
      obtain ⟨heads, tails⟩ := lengthPrefixed_append_inj (by omega) (by omega) equal
      rw [heads, ih (by omega) (by omega) tails]

/-- A tagged field can be read from the front. -/
theorem tagged_append_inj {leftTag rightTag : UInt8} {left right leftRest rightRest : List UInt8}
    (leftFits : left.length < lengthBound) (rightFits : right.length < lengthBound)
    (equal : tagged leftTag left ++ leftRest = tagged rightTag right ++ rightRest) :
    leftTag = rightTag ∧ left = right ∧ leftRest = rightRest := by
  simp only [tagged, List.cons_append, List.cons.injEq] at equal
  exact ⟨equal.1, lengthPrefixed_append_inj leftFits rightFits equal.2⟩

/-- A tagged field determines its tag and value. -/
theorem tagged_inj {leftTag rightTag : UInt8} {left right : List UInt8}
    (leftFits : left.length < lengthBound) (rightFits : right.length < lengthBound)
    (equal : tagged leftTag left = tagged rightTag right) : leftTag = rightTag ∧ left = right := by
  have read := tagged_append_inj leftFits rightFits (congrArg (· ++ ([] : List UInt8)) equal)
  exact ⟨read.1, read.2.1⟩

/-- The bytes of a tagged field. -/
@[simp]
theorem tagged_length (tag : UInt8) (value : List UInt8) :
    (tagged tag value).length = value.length + 9 := by
  simp only [tagged, lengthPrefixed, List.length_cons, List.length_append, be64_length]
  omega

/-- Two lists of one length whose items are written as tagged fields of their encodings can be read
from the front when the encoding determines the item. -/
theorem taggedItems_append_inj {α : Type} {tag : UInt8} {encode : α → List UInt8}
    {left right : List α} {leftRest rightRest : List UInt8} (lengths : left.length = right.length)
    (fits : ∀ item, item ∈ left ∨ item ∈ right → (encode item).length < lengthBound)
    (injective : ∀ first ∈ left, ∀ second ∈ right, encode first = encode second → first = second)
    (equal : left.flatMap (fun item => tagged tag (encode item)) ++ leftRest =
      right.flatMap (fun item => tagged tag (encode item)) ++ rightRest) :
    left = right ∧ leftRest = rightRest := by
  induction left generalizing right with
  | nil =>
    obtain rfl : right = [] := List.length_eq_zero_iff.mp lengths.symm
    exact ⟨rfl, equal⟩
  | cons first left ih =>
    cases right with
    | nil => simp at lengths
    | cons second right =>
      simp only [List.flatMap_cons, List.append_assoc] at equal
      obtain ⟨-, encoded, rest⟩ := tagged_append_inj (fits first (by simp)) (fits second (by simp))
        equal
      have heads : first = second := injective first (by simp) second (by simp) encoded
      have tails := ih (by simpa using lengths)
        (fun item member => fits item (member.imp (List.mem_cons_of_mem _) (List.mem_cons_of_mem _)))
        (fun one oneIn other otherIn => injective one (List.mem_cons_of_mem _ oneIn) other
          (List.mem_cons_of_mem _ otherIn)) rest
      exact ⟨by rw [heads, tails.1], tails.2⟩

/-- An item of a list written as tagged fields is shorter than the whole. -/
theorem encode_length_lt {α : Type} {tag : UInt8} {encode : α → List UInt8} {items : List α}
    {item : α} (member : item ∈ items) :
    (encode item).length < (items.flatMap (fun item => tagged tag (encode item))).length := by
  induction items with
  | nil => simp at member
  | cons head rest ih =>
    rw [List.flatMap_cons, List.length_append, tagged_length]
    rcases List.mem_cons.mp member with rfl | member
    · omega
    · have below := ih member
      omega

/-- A list written as tagged fields is at least as long as its count. -/
theorem length_le_taggedItems {α : Type} {tag : UInt8} {encode : α → List UInt8} (items : List α) :
    items.length ≤ (items.flatMap (fun item => tagged tag (encode item))).length := by
  induction items with
  | nil => simp
  | cons head rest ih =>
    rw [List.flatMap_cons, List.length_append, tagged_length, List.length_cons]
    omega

/-- A counted list of items can be read from the front. -/
theorem countedItems_append_inj {α : Type} {countTag tag : UInt8} {encode : α → List UInt8}
    {left right : List α} {leftRest rightRest : List UInt8}
    (leftFits : (left.flatMap (fun item => tagged tag (encode item))).length < lengthBound)
    (rightFits : (right.flatMap (fun item => tagged tag (encode item))).length < lengthBound)
    (injective : ∀ first second, (encode first).length < lengthBound →
      (encode second).length < lengthBound → encode first = encode second → first = second)
    (equal : tagged countTag (be64 left.length) ++
        (left.flatMap (fun item => tagged tag (encode item)) ++ leftRest) =
      tagged countTag (be64 right.length) ++
        (right.flatMap (fun item => tagged tag (encode item)) ++ rightRest)) :
    left = right ∧ leftRest = rightRest := by
  have eight : ∀ number, (be64 number).length < lengthBound := fun _ => by simp [lengthBound]
  have fits : ∀ item, item ∈ left ∨ item ∈ right → (encode item).length < lengthBound := by
    rintro item (member | member)
    · exact Nat.lt_trans (encode_length_lt member) leftFits
    · exact Nat.lt_trans (encode_length_lt member) rightFits
  have counts := tagged_append_inj (eight _) (eight _) equal
  have lengths : left.length = right.length :=
    be64_injective (Nat.lt_of_le_of_lt (length_le_taggedItems left) leftFits)
      (Nat.lt_of_le_of_lt (length_le_taggedItems right) rightFits) counts.2.1
  exact taggedItems_append_inj lengths fits
    (fun first firstIn second secondIn => injective first second (fits first (Or.inl firstIn))
      (fits second (Or.inr secondIn))) counts.2.2

/-- The digits of a number in a fixed count of bytes, least significant first. -/
def littleEndian : Nat → Nat → List UInt8
  | 0, _ => []
  | count + 1, number => UInt8.ofNat (number % 256) :: littleEndian count (number / 256)

/-- Eight little-endian bytes of a 64-bit number. -/
def le64 (number : Nat) : List UInt8 :=
  littleEndian 8 number

/-- A number has as many digits as asked for, in either order. -/
@[simp]
theorem littleEndian_length (count number : Nat) : (littleEndian count number).length = count := by
  induction count generalizing number with
  | zero => rfl
  | succ count ih => simp [littleEndian, ih]

/-- The digits of a number determine as much of it as they show. -/
theorem littleEndian_inj {count left right : Nat}
    (equal : littleEndian count left = littleEndian count right) :
    left % Nat.pow 256 count = right % Nat.pow 256 count := by
  induction count generalizing left right with
  | zero =>
    have one : Nat.pow 256 0 = 1 := rfl
    rw [one, Nat.mod_one, Nat.mod_one]
  | succ count ih =>
    simp only [littleEndian, List.cons.injEq] at equal
    have high := ih equal.2
    have low : left % 256 = right % 256 := by
      have numbers := congrArg UInt8.toNat equal.1
      simpa using numbers
    have power : Nat.pow 256 (count + 1) = 256 * Nat.pow 256 count := by
      rw [Nat.mul_comm]
      rfl
    rw [power, Nat.mod_mul, Nat.mod_mul, low, high]

/-- Eight bytes are eight bytes in either order. -/
@[simp]
theorem le64_length (number : Nat) : (le64 number).length = 8 :=
  littleEndian_length 8 number

/-- The bytes of a number determine it up to the length bound. -/
theorem le64_inj {left right : Nat} (equal : le64 left = le64 right) :
    left % lengthBound = right % lengthBound :=
  littleEndian_inj equal

/-- A 64-bit number is determined by its bytes in either order. -/
theorem le64_injective {left right : Nat} (leftFits : left < lengthBound)
    (rightFits : right < lengthBound) (equal : le64 left = le64 right) : left = right := by
  have numbers := le64_inj equal
  rwa [Nat.mod_eq_of_lt leftFits, Nat.mod_eq_of_lt rightFits] at numbers

/-- The number whose digits are the given bytes, least significant first. -/
def readLittleEndian : List UInt8 → Nat
  | [] => 0
  | low :: high => low.toNat + 256 * readLittleEndian high

/-- The digits of a number read as the part of it that they show. -/
theorem readLittleEndian_littleEndian (count number : Nat) :
    readLittleEndian (littleEndian count number) = number % Nat.pow 256 count := by
  induction count generalizing number with
  | zero => exact (Nat.mod_one number).symm
  | succ count ih =>
    have power : Nat.pow 256 (count + 1) = 256 * Nat.pow 256 count := by
      rw [Nat.mul_comm]
      rfl
    simp only [littleEndian, readLittleEndian, ih]
    rw [power, Nat.mod_mul]
    simp

/-- Bytes are the digits of the number they read as. -/
theorem littleEndian_readLittleEndian (bytes : List UInt8) :
    littleEndian bytes.length (readLittleEndian bytes) = bytes := by
  induction bytes with
  | nil => rfl
  | cons low high ih =>
    have small := low.toNat_lt
    have remainder : (low.toNat + 256 * readLittleEndian high) % 256 = low.toNat := by omega
    have quotient : (low.toNat + 256 * readLittleEndian high) / 256 = readLittleEndian high := by
      omega
    simp only [List.length_cons, littleEndian, readLittleEndian, remainder, quotient, ih]
    simp

/-- Eight bytes read as a 64-bit number. -/
theorem readLittleEndian_lt {bytes : List UInt8} (eight : bytes.length = 8) :
    readLittleEndian bytes < lengthBound := by
  have shown := readLittleEndian_littleEndian bytes.length (readLittleEndian bytes)
  rw [littleEndian_readLittleEndian, eight] at shown
  rw [shown]
  exact Nat.mod_lt _ (by decide)

/-- A 64-bit number is read back from its bytes. -/
theorem readLittleEndian_le64 {number : Nat} (fits : number < lengthBound) :
    readLittleEndian (le64 number) = number :=
  (readLittleEndian_littleEndian 8 number).trans (Nat.mod_eq_of_lt fits)

/-- Eight bytes are the bytes of the number they read as. -/
theorem le64_readLittleEndian {bytes : List UInt8} (eight : bytes.length = 8) :
    le64 (readLittleEndian bytes) = bytes := by
  have shown := littleEndian_readLittleEndian bytes
  rwa [eight] at shown

/-- The bytes from one position up to another, when both lie in range. -/
def slice (bytes : List UInt8) (start stop : Nat) : Option (List UInt8) :=
  if start ≤ stop ∧ stop ≤ bytes.length then some ((bytes.take stop).drop start) else none

/-- A slice in range exists. -/
theorem exists_slice {bytes : List UInt8} {start stop : Nat} (ordered : start ≤ stop)
    (inside : stop ≤ bytes.length) : ∃ part, slice bytes start stop = some part :=
  ⟨_, if_pos ⟨ordered, inside⟩⟩

/-- A slice lies in range and holds the bytes between its ends. -/
theorem slice_eq_some {bytes part : List UInt8} {start stop : Nat} :
    slice bytes start stop = some part ↔
      (start ≤ stop ∧ stop ≤ bytes.length) ∧ (bytes.take stop).drop start = part := by
  unfold slice
  split
  · next inside => simp [inside]
  · next outside => simp [outside]

/-- A slice has as many bytes as its ends are apart. -/
theorem slice_length {bytes part : List UInt8} {start stop : Nat}
    (sliced : slice bytes start stop = some part) : part.length = stop - start := by
  obtain ⟨⟨-, inside⟩, rfl⟩ := slice_eq_some.mp sliced
  rw [List.length_drop, List.length_take_of_le inside]

/-- Two slices next to each other make up one. -/
theorem slice_concat {bytes left right : List UInt8} {start middle stop : Nat}
    (first : slice bytes start middle = some left)
    (second : slice bytes middle stop = some right) :
    slice bytes start stop = some (left ++ right) := by
  obtain ⟨⟨starts, -⟩, rfl⟩ := slice_eq_some.mp first
  obtain ⟨⟨stops, inside⟩, rfl⟩ := slice_eq_some.mp second
  refine slice_eq_some.mpr ⟨⟨Nat.le_trans starts stops, inside⟩, ?_⟩
  have front : bytes.take middle = (bytes.take stop).take middle := by
    rw [List.take_take, Nat.min_eq_left stops]
  rw [front]
  conv_lhs => rw [← List.take_append_drop middle (bytes.take stop)]
  refine List.drop_append_of_le_length ?_
  rwa [List.take_take, Nat.min_eq_left stops, List.length_take_of_le (Nat.le_trans stops inside)]

/-- All bytes are a slice. -/
theorem slice_all {bytes part : List UInt8} (sliced : slice bytes 0 bytes.length = some part) :
    bytes = part := by
  obtain ⟨-, rfl⟩ := slice_eq_some.mp sliced
  rw [List.take_length, List.drop_zero]

/-- The slice of the middle part of three. -/
theorem slice_append {before part rest : List UInt8} {start stop : Nat}
    (starts : before.length = start) (stops : start + part.length = stop) :
    slice (before ++ (part ++ rest)) start stop = some part := by
  subst starts
  subst stops
  have inside : before.length ≤ before.length + part.length ∧
      before.length + part.length ≤ (before ++ (part ++ rest)).length := by
    simp only [List.length_append]
    omega
  rw [slice, if_pos inside, List.drop_take, List.drop_left, Nat.add_sub_cancel_left,
    List.take_left]

/-- Byte strings that begin with encodings of one kind begin with encodings of values that a view
does not tell apart, as long as the encodings fit into memory. -/
def Readable {α β : Type} (encode : α → List UInt8) (view : α → β) : Prop :=
  ∀ ⦃left right : α⦄ ⦃leftRest rightRest : List UInt8⦄, (encode left).length < lengthBound →
    (encode right).length < lengthBound → encode left ++ leftRest = encode right ++ rightRest →
      view left = view right ∧ leftRest = rightRest

/-- A readable encoding determines the view. -/
theorem Readable.injective {α β : Type} {encode : α → List UInt8} {view : α → β}
    (readable : Readable encode view) {left right : α}
    (leftFits : (encode left).length < lengthBound)
    (rightFits : (encode right).length < lengthBound) (equal : encode left = encode right) :
    view left = view right :=
  (readable leftFits rightFits (congrArg (· ++ ([] : List UInt8)) equal)).1

/-- A readable encoding of a part is a readable encoding of the whole, for a view of the part. -/
theorem Readable.comp {α β γ : Type} {encode : α → List UInt8} {view : α → β}
    (readable : Readable encode view) (part : γ → α) :
    Readable (fun whole => encode (part whole)) (fun whole => view (part whole)) :=
  fun _ _ _ _ leftFits rightFits equal => readable leftFits rightFits equal

/-- Two encodings in a row are read one after the other. -/
theorem Readable.append {α β γ : Type} {first second : α → List UInt8} {firstView : α → β}
    {secondView : α → γ} (firstReadable : Readable first firstView)
    (secondReadable : Readable second secondView) :
    Readable (fun value => first value ++ second value)
      (fun value => (firstView value, secondView value)) := by
  intro left right leftRest rightRest leftFits rightFits equal
  simp only [List.length_append] at leftFits rightFits
  simp only [List.append_assoc] at equal
  obtain ⟨firstEqual, equal⟩ := firstReadable (by omega) (by omega) equal
  obtain ⟨secondEqual, equal⟩ := secondReadable (by omega) (by omega) equal
  exact ⟨Prod.ext firstEqual secondEqual, equal⟩

/-- Eight bytes are readable. -/
theorem readable_le64 : Readable le64 (· % lengthBound) := by
  intro left right leftRest rightRest _ _ equal
  have header := List.append_inj equal (by simp)
  exact ⟨le64_inj header.1, header.2⟩

/-- One byte string behind its length in little-endian order. -/
def lePrefixed (value : List UInt8) : List UInt8 :=
  le64 value.length ++ value

/-- The bytes of a length-prefixed byte string. -/
@[simp]
theorem lePrefixed_length (value : List UInt8) : (lePrefixed value).length = value.length + 8 := by
  simp only [lePrefixed, List.length_append, le64_length]
  omega

/-- A length-prefixed byte string is readable. -/
theorem readable_lePrefixed : Readable lePrefixed id := by
  intro left right leftRest rightRest leftFits rightFits equal
  rw [lePrefixed_length] at leftFits rightFits
  simp only [lePrefixed, List.append_assoc] at equal
  have header := List.append_inj equal (by simp)
  have lengths := le64_injective (by omega) (by omega) header.1
  exact List.append_inj header.2 lengths

/-- Byte strings behind their lengths are determined by their bytes in a row, without a count. -/
theorem flatMap_lePrefixed_injective {left right : List (List UInt8)}
    (leftFits : ∀ value ∈ left, value.length + 8 < lengthBound)
    (rightFits : ∀ value ∈ right, value.length + 8 < lengthBound)
    (equal : left.flatMap lePrefixed = right.flatMap lePrefixed) : left = right := by
  induction left generalizing right with
  | nil =>
    cases right with
    | nil => rfl
    | cons second right =>
      have lengths := congrArg List.length equal
      simp only [List.flatMap_nil, List.flatMap_cons, List.length_append, lePrefixed_length,
        List.length_nil] at lengths
      omega
  | cons first left ih =>
    cases right with
    | nil =>
      have lengths := congrArg List.length equal
      simp only [List.flatMap_nil, List.flatMap_cons, List.length_append, lePrefixed_length,
        List.length_nil] at lengths
      omega
    | cons second right =>
      simp only [List.flatMap_cons] at equal
      have firstFits := leftFits first (List.mem_cons_self ..)
      have secondFits := rightFits second (List.mem_cons_self ..)
      obtain ⟨heads, tails⟩ := readable_lePrefixed (by rwa [lePrefixed_length])
        (by rwa [lePrefixed_length]) equal
      have same : first = second := heads
      rw [same, ih (fun value member => leftFits value (List.mem_cons_of_mem _ member))
        (fun value member => rightFits value (List.mem_cons_of_mem _ member)) tails]

/-- A length-prefixed text. -/
def leText (text : String) : List UInt8 :=
  lePrefixed (textBytes text)

/-- A length-prefixed text is readable. -/
theorem readable_leText : Readable leText id := by
  intro left right leftRest rightRest leftFits rightFits equal
  obtain ⟨bytes, rest⟩ := readable_lePrefixed leftFits rightFits equal
  exact ⟨textBytes_injective bytes, rest⟩

/-- A list behind the count of its items. -/
def leCounted {α : Type} (encode : α → List UInt8) (items : List α) : List UInt8 :=
  le64 items.length ++ items.flatMap encode

/-- Lists of one length whose items are readable are read item by item. -/
theorem flatMap_append_inj {α β : Type} {encode : α → List UInt8} {view : α → β}
    (readable : Readable encode view) {left right : List α} {leftRest rightRest : List UInt8}
    (lengths : left.length = right.length)
    (leftFits : (left.flatMap encode).length < lengthBound)
    (rightFits : (right.flatMap encode).length < lengthBound)
    (equal : left.flatMap encode ++ leftRest = right.flatMap encode ++ rightRest) :
    left.map view = right.map view ∧ leftRest = rightRest := by
  induction left generalizing right with
  | nil =>
    obtain rfl : right = [] := List.length_eq_zero_iff.mp lengths.symm
    exact ⟨rfl, equal⟩
  | cons first left ih =>
    cases right with
    | nil => simp at lengths
    | cons second right =>
      simp only [List.flatMap_cons, List.append_assoc, List.length_append] at leftFits rightFits equal
      obtain ⟨heads, equal⟩ := readable (by omega) (by omega) equal
      obtain ⟨tails, equal⟩ := ih (by simpa using lengths) (by omega) (by omega) equal
      exact ⟨by rw [List.map_cons, List.map_cons, heads, tails], equal⟩

/-- A counted list of readable items that each take a byte is readable. -/
theorem readable_leCounted {α β : Type} {encode : α → List UInt8} {view : α → β}
    (readable : Readable encode view) (nonempty : ∀ item, 0 < (encode item).length) :
    Readable (leCounted encode) (List.map view) := by
  have counted : ∀ items : List α, items.length ≤ (items.flatMap encode).length := by
    intro items
    induction items with
    | nil => simp
    | cons head rest ih =>
      have positive := nonempty head
      simp only [List.flatMap_cons, List.length_append, List.length_cons]
      omega
  intro left right leftRest rightRest leftFits rightFits equal
  simp only [leCounted, List.length_append, le64_length] at leftFits rightFits
  simp only [leCounted, List.append_assoc] at equal
  have header := List.append_inj equal (by simp)
  have leftCounted := counted left
  have rightCounted := counted right
  have lengths := le64_injective (by omega) (by omega) header.1
  exact flatMap_append_inj readable lengths (by omega) (by omega) header.2

end Framing
