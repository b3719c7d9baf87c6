import Rsolve.Core.Coordinates

/-!
# Digests as texts

A digest is written with two lower-case hexadecimal digits for each byte. The text of a digest of 32
bytes is a digest text.
-/
namespace Rsolve

/-- A lower-case hexadecimal digit. -/
def lowerHexDigit (value : Nat) : Char :=
  if value < 10 then Char.ofNat (48 + value) else Char.ofNat (87 + value)

/-- `hex` — two lower-case digits for each byte. -/
def hex (bytes : List UInt8) : String :=
  String.ofList (bytes.flatMap fun byte =>
    [lowerHexDigit (byte.toNat / 16), lowerHexDigit (byte.toNat % 16)])

/-- The digits of a byte are lower-case hexadecimal digits. -/
theorem lowerHexDigit_digit {value : Nat} (small : value < 16) :
    isHexDigit (lowerHexDigit value) = true ∧ (lowerHexDigit value).toLower = lowerHexDigit value ∧
      (lowerHexDigit value).utf8Size = 1 := by
  have checked : ∀ value < 16, isHexDigit (lowerHexDigit value) = true ∧
      (lowerHexDigit value).toLower = lowerHexDigit value ∧
      (lowerHexDigit value).utf8Size = 1 := by
    decide +kernel
  exact checked value small

/-- Every character of a digest as a text is the digit of some value. -/
theorem exists_of_mem_hex {bytes : List UInt8} {character : Char}
    (member : character ∈ (hex bytes).toList) :
    ∃ value < 16, character = lowerHexDigit value := by
  rw [hex, String.toList_ofList, List.mem_flatMap] at member
  obtain ⟨byte, -, member⟩ := member
  have bound := byte.toNat_lt
  rcases List.mem_cons.mp member with rfl | member
  · exact ⟨byte.toNat / 16, by omega, rfl⟩
  · exact ⟨byte.toNat % 16, by omega, List.mem_singleton.mp member⟩

/-- Two digits stand for each byte. -/
theorem byteLength_hex (bytes : List UInt8) : byteLength (hex bytes) = 2 * bytes.length := by
  unfold byteLength hex
  rw [String.toList_ofList]
  induction bytes with
  | nil => rfl
  | cons byte rest ih =>
    have bound := byte.toNat_lt
    have highSmall : byte.toNat / 16 < 16 := by omega
    have lowSmall : byte.toNat % 16 < 16 := by omega
    have high := (lowerHexDigit_digit highSmall).2.2
    have low := (lowerHexDigit_digit lowSmall).2.2
    simp only [List.flatMap_cons, List.cons_append, List.nil_append, List.foldr_cons, ih, high, low,
      List.length_cons]
    omega

/-- The text of bytes has hexadecimal digits only. -/
theorem isHexDigit_hex (bytes : List UInt8) : (hex bytes).toList.all isHexDigit = true := by
  refine List.all_eq_true.mpr fun character member => ?_
  obtain ⟨value, small, rfl⟩ := exists_of_mem_hex member
  exact (lowerHexDigit_digit small).1

/-- The text of bytes is in lower case. -/
theorem toAsciiLowercase_hex (bytes : List UInt8) : toAsciiLowercase (hex bytes) = hex bytes := by
  have same : (hex bytes).toList.map Char.toLower = (hex bytes).toList.map id := by
    refine List.map_congr_left fun character member => ?_
    obtain ⟨value, small, rfl⟩ := exists_of_mem_hex member
    exact (lowerHexDigit_digit small).2.1
  apply String.toList_injective
  unfold toAsciiLowercase
  rw [String.toList_map, same, List.map_id]

/-- A digest is read as itself. -/
theorem Sha256Digest.new_text (digest : Sha256Digest) :
    Sha256Digest.new digest.text = .ok digest := by
  unfold Sha256Digest.new
  split
  · next accepted =>
    rw [digest.valid] at accepted
    cases accepted
  · next read accepted =>
    rw [digest.valid] at accepted
    exact congrArg Except.ok (Sha256Digest.ext (Except.ok.inj accepted).symm)

/-- The text of 32 bytes is a digest. -/
theorem Sha256Digest.exists_new_hex {bytes : List UInt8} (sized : bytes.length = 32) :
    ∃ digest, Sha256Digest.new (hex bytes) = .ok digest := by
  have length : byteLength (hex bytes) = 64 := by rw [byteLength_hex, sized]
  have accepted : Sha256Digest.read (hex bytes) = .ok (hex bytes) := by
    unfold Sha256Digest.read
    rw [length, isHexDigit_hex, toAsciiLowercase_hex]
    rfl
  unfold Sha256Digest.new
  split
  · next refused =>
    rw [accepted] at refused
    cases refused
  · exact ⟨_, rfl⟩

/-- Bytes are determined by their digits. -/
theorem hex_injective {left right : List UInt8} (equal : hex left = hex right) : left = right := by
  have digits : ∀ first < 16, ∀ second < 16, lowerHexDigit first = lowerHexDigit second →
      first = second := by
    decide
  replace equal := String.ofList_injective equal
  induction left generalizing right with
  | nil =>
    cases right with
    | nil => rfl
    | cons byte rest => cases equal
  | cons byte rest ih =>
    cases right with
    | nil => cases equal
    | cons other others =>
      simp only [List.flatMap_cons, List.cons_append, List.nil_append, List.cons.injEq] at equal
      obtain ⟨high, low, tails⟩ := equal
      have bound := byte.toNat_lt
      have otherBound := other.toNat_lt
      have upper := digits _ (by omega) _ (by omega) high
      have lower := digits _ (by omega) _ (by omega) low
      have same : byte.toNat = other.toNat := by omega
      rw [UInt8.toNat_inj.mp same, ih tails]

end Rsolve
