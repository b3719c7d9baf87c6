import Mathlib.Algebra.GroupWithZero.Nat
import Rsolve.Lib.Framing

/-!
# Bytes of texts

Byte strings are decoded as UTF-8. The bytes of a text decode to the text, no other byte string
does, and an ASCII byte of a text is one of its characters.
-/
namespace Utf8

open Framing

/-- `str::from_utf8`. -/
def fromUtf8 (bytes : List UInt8) : Option String :=
  String.fromUTF8? bytes.toByteArray

/-- The bytes of a text as an array. -/
theorem toByteArray_textBytes (text : String) :
    (textBytes text).toByteArray = text.toByteArray :=
  String.utf8Encode_toList

/-- The bytes of a text decode to the text. -/
@[simp]
theorem fromUtf8_textBytes (text : String) : fromUtf8 (textBytes text) = some text := by
  unfold fromUtf8 String.fromUTF8?
  rw [toByteArray_textBytes, dif_pos text.isValidUTF8]
  rfl

/-- Only the bytes of a text decode to it. -/
theorem fromUtf8_eq_some {bytes : List UInt8} {text : String} :
    fromUtf8 bytes = some text ↔ bytes = textBytes text := by
  constructor
  · intro decoded
    unfold fromUtf8 String.fromUTF8? at decoded
    split at decoded
    · have same : text.toByteArray = bytes.toByteArray := by
        rw [← Option.some.inj decoded]
        rfl
      have arrays : (textBytes text).toByteArray = bytes.toByteArray := by
        rw [toByteArray_textBytes, same]
      have lists := congrArg (fun array => array.data.toList) arrays
      simpa using lists.symm
    · cases decoded
  · rintro rfl
    exact fromUtf8_textBytes text

/-- The bytes of a text put together from two. -/
@[simp]
theorem textBytes_append (left right : String) :
    textBytes (left ++ right) = textBytes left ++ textBytes right := by
  simp [textBytes]

/-- The bytes of a text given by its characters. -/
theorem textBytes_ofList (characters : List Char) :
    textBytes (String.ofList characters) = characters.flatMap String.utf8EncodeChar := by
  simp [textBytes]

/-- An ASCII byte of a character is the character. -/
theorem toNat_of_mem_utf8EncodeChar {character : Char} {byte : UInt8}
    (inside : byte ∈ String.utf8EncodeChar character) (ascii : byte.toNat < 128) :
    character.toNat = byte.toNat := by
  have number : character.val.toNat = character.toNat := rfl
  unfold String.utf8EncodeChar at inside
  simp only [number] at inside
  split_ifs at inside with one two three
  · rw [List.mem_singleton.mp inside, UInt8.toNat_ofNat']
    omega
  all_goals
    simp only [List.mem_cons, List.not_mem_nil, or_false] at inside
    rcases inside with rfl | rfl | rfl | rfl
    all_goals
      rw [UInt8.toNat_ofNat'] at ascii
      omega

/-- The byte of an ASCII character. -/
theorem utf8EncodeChar_of_ascii {character : Char} (ascii : character.toNat < 128) :
    String.utf8EncodeChar character = [UInt8.ofNat character.toNat] :=
  if_pos (Nat.le_of_lt_succ ascii)

/-- A text has an ASCII byte exactly when it has its character. -/
theorem mem_textBytes_ascii {text : String} {character : Char} (ascii : character.toNat < 128) :
    UInt8.ofNat character.toNat ∈ textBytes text ↔ character ∈ text.toList := by
  have small : (UInt8.ofNat character.toNat).toNat = character.toNat := by
    rw [UInt8.toNat_ofNat']
    omega
  rw [textBytes, List.mem_flatMap]
  constructor
  · rintro ⟨other, member, inside⟩
    have same := toNat_of_mem_utf8EncodeChar inside (by omega)
    rwa [← Char.toNat_inj.mp (same.trans small)]
  · intro member
    exact ⟨character, member, by rw [utf8EncodeChar_of_ascii ascii]; exact List.mem_singleton_self _⟩

/-! ## Slices of texts -/

/-- The bytes of characters. -/
def bytesOf (text : List Char) : Nat := (text.map Char.utf8Size).sum

/-- A text from a byte on, where a character begins there or the text ends. -/
def dropBytes : Nat → List Char → Option (List Char)
  | 0, text => some text
  | _ + 1, [] => none
  | count + 1, character :: rest =>
    if character.utf8Size ≤ count + 1 then dropBytes (count + 1 - character.utf8Size) rest else none

/-- The first bytes of a text, where a character ends after them. -/
def takeBytes : Nat → List Char → Option (List Char)
  | 0, _ => some []
  | _ + 1, [] => none
  | count + 1, character :: rest =>
    if character.utf8Size ≤ count + 1 then
      (takeBytes (count + 1 - character.utf8Size) rest).map (character :: ·)
    else none

/-- `str` indexed by a range of bytes; `none` where that panics. -/
def sliceBytes (text : List Char) (start stop : Nat) : Option (List Char) :=
  if start ≤ stop then (dropBytes start text).bind (takeBytes (stop - start)) else none

/-- What stands before the end of a text is its first bytes. -/
theorem takeBytes_append (before after : List Char) :
    takeBytes (bytesOf before) (before ++ after) = some before := by
  induction before with
  | nil => simp [bytesOf, takeBytes]
  | cons first rest ih =>
    have positive : 0 < first.utf8Size := first.utf8Size_pos
    obtain ⟨count, size⟩ : ∃ count, bytesOf (first :: rest) = count + 1 :=
      ⟨bytesOf (first :: rest) - 1, by simp only [bytesOf, List.map_cons, List.sum_cons]; omega⟩
    have left : count + 1 - first.utf8Size = bytesOf rest := by
      rw [← size]
      simp only [bytesOf, List.map_cons, List.sum_cons]
      omega
    have fits : first.utf8Size ≤ count + 1 := by
      rw [← size]
      simp only [bytesOf, List.map_cons, List.sum_cons]
      omega
    rw [size, List.cons_append, takeBytes, if_pos fits, left, ih]
    rfl

/-- The bytes of a text put together from two. -/
theorem bytesOf_append (left right : List Char) :
    bytesOf (left ++ right) = bytesOf left + bytesOf right := by
  simp [bytesOf]

/-- A text between two characters of one byte is the slice without its first and last byte. -/
theorem sliceBytes_between {first last : Char} (inner : List Char) (firstOne : first.utf8Size = 1)
    (lastOne : last.utf8Size = 1) :
    sliceBytes (first :: (inner ++ [last])) 1 (bytesOf (first :: (inner ++ [last])) - 1) =
      some inner := by
  have size : bytesOf (first :: (inner ++ [last])) = bytesOf inner + 2 := by
    have rest := bytesOf_append inner [last]
    simp only [bytesOf, List.map_cons, List.sum_cons, List.map_nil, List.sum_nil] at rest ⊢
    omega
  have dropped : dropBytes 1 (first :: (inner ++ [last])) = some (inner ++ [last]) := by
    simp [dropBytes, firstOne]
  rw [sliceBytes, size, if_pos (by omega), dropped, Option.bind_some]
  exact takeBytes_append inner [last]

end Utf8
