import Rsolve.Core.UrlText

/-!
# Canonical Git URLs

What reading a Git URL writes has canonical components: a lower-case scheme and host, no default port,
and a path whose escapes are upper-case and escape what must be escaped. A text with such components
is read as itself.
-/
open Checked Splitting

namespace Rsolve

section Characters

/-- The letters, digits and marks that canonical texts have. -/
theorem ascii_of_isAlphanum {character : Char} (plain : character.isAlphanum = true) :
    character.toNat < 128 := by
  delta Char.isAlphanum Char.isAlpha Char.isUpper Char.isLower Char.isDigit at plain
  simp only [Bool.or_eq_true, Bool.and_eq_true, decide_eq_true_eq, UInt32.le_iff_toNat_le,
    ge_iff_le] at plain
  change character.val.toNat < 128
  have upper : 'Z'.val.toNat = 90 := rfl
  have lower : 'z'.val.toNat = 122 := rfl
  have digit : '9'.val.toNat = 57 := rfl
  omega

/-- A character of a canonical URL. -/
def isUrlCharacter (character : Char) : Bool :=
  isUrlPathCharacter character || character == '%' || character == '[' || character == ']'

/-- The characters of a canonical URL that are no letters or digits. -/
def urlMarks : List Char :=
  ['-', '.', '_', '~', '/', ':', '@', '!', '$', '&', '\'', '(', ')', '*', '+', ',', ';', '=', '%', '[',
    ']']

/-- Such characters are ASCII. -/
theorem ascii_of_isUrlCharacter {character : Char} (plain : isUrlCharacter character = true) :
    character.toNat < 128 := by
  have kinds : character.isAlphanum = true ∨ character ∈ urlMarks := by
    simp only [isUrlCharacter, isUrlPathCharacter, isUrlUnreserved, Bool.or_eq_true, beq_iff_eq,
      List.contains_iff_mem, List.mem_cons, List.not_mem_nil, or_false] at plain
    simp only [urlMarks, List.mem_cons, List.not_mem_nil, or_false]
    tauto
  rcases kinds with alphanumeric | mark
  · exact ascii_of_isAlphanum alphanumeric
  · have marks : urlMarks.all (fun mark => mark.toNat < 128) = true := by decide
    exact of_decide_eq_true (List.all_eq_true.mp marks character mark)

/-- What holds of the ASCII characters holds of a character that is one of them. -/
theorem of_ascii (holds : Char → Prop) (checked : ∀ code < 128, holds (Char.ofNat code))
    {character : Char} (ascii : character.toNat < 128) : holds character := by
  have found := checked character.toNat ascii
  rwa [Char.ofNat_toNat] at found

/-- A canonical URL has no characters that are refused. -/
theorem isUrlCharacter_plain {character : Char} (plain : isUrlCharacter character = true) :
    isControl character = false ∧ isWhitespace character = false ∧ character ≠ '?' ∧
      character ≠ '#' :=
  of_ascii (fun character => isUrlCharacter character = true → isControl character = false ∧
    isWhitespace character = false ∧ character ≠ '?' ∧ character ≠ '#') (by decide +kernel)
    (ascii_of_isUrlCharacter plain) plain

/-- A character that is not upper-case is not lowered. -/
theorem toLower_of_not_isUpper {character : Char} (lower : character.isUpper = false) :
    character.toLower = character := by
  have plain : ¬ (character.val ≥ 'A'.val ∧ character.val ≤ 'Z'.val) := by
    delta Char.isUpper at lower
    simpa using lower
  delta Char.toLower
  exact dif_neg plain

/-- What a character is still after it is lowered. -/
structure Lowered (character : Char) : Prop where
  /-- It is not upper-case. -/
  lower : character.toLower.isUpper = false
  /-- It is a letter as before. -/
  alpha : character.toLower.isAlpha = character.isAlpha
  /-- It is a letter or digit as before. -/
  alphanum : character.toLower.isAlphanum = character.isAlphanum
  /-- It is a digit only when it was not a letter. -/
  digit : character.toLower.isDigit = true → character.isUpper = false
  /-- It is a mark as before. -/
  mark : ∀ mark ∈ urlMarks, character.toLower = mark ↔ character = mark

/-- A character that is lowered is of the same kind. -/
theorem lowered (character : Char) : Lowered character := by
  cases upper : character.isUpper with
  | false =>
    have same := toLower_of_not_isUpper upper
    exact ⟨by rw [same, upper], by rw [same], by rw [same], fun _ => upper, by simp [same]⟩
  | true =>
    have ascii : character.toNat < 128 :=
      ascii_of_isAlphanum (by delta Char.isAlphanum Char.isAlpha; simp [upper])
    obtain ⟨lower, alpha, alphanum, digit, mark⟩ := of_ascii (fun character =>
      character.toLower.isUpper = false ∧ character.toLower.isAlpha = character.isAlpha ∧
      character.toLower.isAlphanum = character.isAlphanum ∧
      (character.toLower.isDigit = true → character.isUpper = false) ∧
      urlMarks.all (fun mark => decide (character.toLower = mark ↔ character = mark)) = true)
      (by decide +kernel) ascii
    exact ⟨lower, alpha, alphanum, digit, fun sign found =>
      of_decide_eq_true (List.all_eq_true.mp mark sign found)⟩

/-- Texts without upper-case letters are not lowered. -/
theorem map_toLower {text : List Char} (lower : ∀ character ∈ text, character.isUpper = false) :
    text.map Char.toLower = text := by
  rw [List.map_congr_left fun character member => toLower_of_not_isUpper (lower character member),
    List.map_id']

end Characters

section Path

/-- An upper-case hexadecimal digit. -/
def isUpperHexDigit (character : Char) : Bool := isHexDigit character && !character.isLower

/-- A path that is written canonically: escapes are upper-case and escape what must be escaped. -/
inductive CanonicalPath : List Char → Prop
  /-- An empty path. -/
  | nil : CanonicalPath []
  /-- A character of a path. -/
  | plain {byte : Char} {rest : List Char} (allowed : isUrlPathCharacter byte = true)
      (tail : CanonicalPath rest) : CanonicalPath (byte :: rest)
  /-- An escape. -/
  | escape {high low : Char} {rest : List Char} (upperHigh : isUpperHexDigit high = true)
      (upperLow : isUpperHexDigit low = true)
      (reserved : isUrlUnreserved (escapedByte high low) = false) (tail : CanonicalPath rest) :
      CanonicalPath ('%' :: high :: low :: rest)

/-- Raising a hexadecimal digit keeps its value. -/
theorem toUpper_hexDigit {digit : Char} (hex : isHexDigit digit = true) :
    isUpperHexDigit digit.toUpper = true ∧ hexValue digit.toUpper = hexValue digit :=
  of_ascii (fun digit => isHexDigit digit = true → isUpperHexDigit digit.toUpper = true ∧
    hexValue digit.toUpper = hexValue digit) (by decide +kernel) (isHexDigit_ascii hex) hex

/-- An upper-case digit is not raised, and it is a character of a path. -/
theorem toUpper_upperHexDigit {digit : Char} (upper : isUpperHexDigit digit = true) :
    isHexDigit digit = true ∧ digit.toUpper = digit ∧ isUrlPathCharacter digit = true := by
  have hex : isHexDigit digit = true := (Bool.and_eq_true_iff.mp upper).1
  exact of_ascii (fun digit => isUpperHexDigit digit = true → isHexDigit digit = true ∧
    digit.toUpper = digit ∧ isUrlPathCharacter digit = true) (by decide +kernel)
    (isHexDigit_ascii hex) upper

/-- A percent sign is not a character of a path. -/
theorem ne_percent_of_path {byte : Char} (allowed : isUrlPathCharacter byte = true) : byte ≠ '%' := by
  rintro rfl
  exact absurd allowed (by decide)

/-- A path that is read is written canonically. -/
theorem canonicalPath_of_normalized {component path : List Char}
    (normalized : normalizeUrlComponent component = .ok path) : CanonicalPath path := by
  fun_induction normalizeUrlComponent component generalizing path with
  | case1 =>
    obtain rfl := Except.ok.inj normalized
    exact .nil
  | case2 | case3 | case4 | case6 => cases normalized
  | case5 high low others digits ih =>
    obtain ⟨tail, read, made⟩ := bind_eq_ok.mp normalized
    have rest := ih read
    simp only [Bool.or_eq_true, Bool.not_eq_true', not_or, Bool.not_eq_false] at digits
    by_cases unreserved : isUrlUnreserved (escapedByte high low) = true
    · rw [if_pos unreserved] at made
      obtain rfl := Except.ok.inj made
      exact .plain (by simp [isUrlPathCharacter, unreserved]) rest
    · rw [if_neg unreserved] at made
      obtain rfl := Except.ok.inj made
      obtain ⟨upperHigh, sameHigh⟩ := toUpper_hexDigit digits.1
      obtain ⟨upperLow, sameLow⟩ := toUpper_hexDigit digits.2
      refine .escape upperHigh upperLow ?_ rest
      rw [escapedByte, sameHigh, sameLow]
      exact Bool.eq_false_iff.mpr unreserved
  | case7 byte rest escape refused ih =>
    obtain ⟨tail, read, made⟩ := bind_eq_ok.mp normalized
    obtain rfl := Except.ok.inj made
    exact .plain (by simpa using refused) (ih read)

/-- A path that is written canonically is read as itself. -/
theorem CanonicalPath.normalized {path : List Char} (canonical : CanonicalPath path) :
    normalizeUrlComponent path = .ok path := by
  induction canonical with
  | nil => rfl
  | plain allowed _ ih =>
    unfold normalizeUrlComponent
    rw [if_neg (ne_percent_of_path allowed), if_neg (by simp [allowed]), ih]
    rfl
  | escape upperHigh upperLow reserved _ ih =>
    obtain ⟨hexHigh, sameHigh, _⟩ := toUpper_upperHexDigit upperHigh
    obtain ⟨hexLow, sameLow, _⟩ := toUpper_upperHexDigit upperLow
    simp only [normalizeUrlComponent, if_true, hexHigh, hexLow, ih, reserved, sameHigh, sameLow]
    rfl

/-- A path that is written canonically has characters of a URL. -/
theorem CanonicalPath.characters {path : List Char} (canonical : CanonicalPath path) :
    ∀ character ∈ path, isUrlCharacter character = true := by
  induction canonical with
  | nil => simp
  | plain allowed _ ih =>
    exact List.forall_mem_cons.mpr ⟨by simp [isUrlCharacter, allowed], ih⟩
  | escape upperHigh upperLow _ _ ih =>
    have high := (toUpper_upperHexDigit upperHigh).2.2
    have low := (toUpper_upperHexDigit upperLow).2.2
    simp only [List.forall_mem_cons]
    exact ⟨by decide, by simp [isUrlCharacter, high], by simp [isUrlCharacter, low], ih⟩

/-- Every percent sign of a canonical path starts an upper-case escape of a byte that is not left
unescaped. -/
theorem CanonicalPath.escapes {path : List Char} (canonical : CanonicalPath path)
    {before rest : List Char} (at' : path = before ++ '%' :: rest) :
    ∃ high low others, rest = high :: low :: others ∧ isUpperHexDigit high = true ∧
      isUpperHexDigit low = true ∧ isUrlUnreserved (escapedByte high low) = false := by
  induction canonical generalizing before with
  | nil => simp at at'
  | plain allowed _ ih =>
    cases before with
    | nil => exact absurd (List.cons.inj at').1 (ne_percent_of_path allowed)
    | cons first before => exact ih (List.cons.inj at').2
  | @escape high low others upperHigh upperLow reserved _ ih =>
    have highPath := ne_percent_of_path (toUpper_upperHexDigit upperHigh).2.2
    have lowPath := ne_percent_of_path (toUpper_upperHexDigit upperLow).2.2
    rcases before with _ | ⟨first, _ | ⟨second, _ | ⟨third, before⟩⟩⟩
    · exact ⟨high, low, others, (List.cons.inj at').2.symm, upperHigh, upperLow, reserved⟩
    · exact absurd (List.cons.inj (List.cons.inj at').2).1 highPath
    · exact absurd (List.cons.inj (List.cons.inj (List.cons.inj at').2).2).1 lowPath
    · exact ih (List.cons.inj (List.cons.inj (List.cons.inj at').2).2).2

end Path

section Host

variable {ip : IpAddrs}

/-- A host that is written canonically. -/
inductive CanonicalHost (ip : IpAddrs) : List Char → Prop
  /-- An IPv6 address in brackets. -/
  | bracketed (address : ip.Address) (six : ip.isV6 address = true) :
      CanonicalHost ip ('[' :: ip.print address ++ [']'])
  /-- An IPv4 address. -/
  | address (address : ip.Address) (four : ip.isV6 address = false) :
      CanonicalHost ip (ip.print address)
  /-- A name that is no address. -/
  | name {host : List Char} (unread : ip.fromStr host = none)
      (labels : (host.splitOnP (· == '.')).any invalidLabel = false)
      (lower : ∀ character ∈ host, character.isUpper = false) : CanonicalHost ip host

/-- A character of a canonical host. -/
def isHostCharacter (character : Char) : Bool :=
  character.isAlphanum || character == '-' || character == '.'

/-- A character of a host is one of a URL. -/
theorem isUrlCharacter_of_host {character : Char} (plain : isHostCharacter character = true) :
    isUrlCharacter character = true := by
  simp only [isHostCharacter, Bool.or_eq_true, beq_iff_eq] at plain
  simp only [isUrlCharacter, isUrlPathCharacter, isUrlUnreserved, Bool.or_eq_true, beq_iff_eq]
  tauto

/-- The characters of a host name whose labels are valid. -/
theorem isHostCharacter_of_labels {host : List Char}
    (labels : (host.splitOnP (· == '.')).any invalidLabel = false) :
    ∀ character ∈ host, isHostCharacter character = true := by
  intro character member
  have pieces : (character == '.') = true ∨
      ∃ label ∈ host.splitOnP (· == '.'), character ∈ label :=
    @mem_splitOnP _ (· == '.') _ _ member
  rcases pieces with period | ⟨label, inside, found⟩
  · obtain rfl : character = '.' := beq_iff_eq.mp period
    decide
  · have valid := List.any_eq_false.mp labels label inside
    simp only [invalidLabel, Bool.or_eq_true, Bool.not_eq_true', not_or, Bool.not_eq_false] at valid
    have plain := List.all_eq_true.mp valid.2 character found
    simp only [isHostCharacter, plain, Bool.true_or]

/-- The characters of a printed IPv6 address. -/
theorem isHostCharacter_of_v6 (lawful : ip.Lawful) {address : ip.Address}
    (six : ip.isV6 address = true) :
    ∀ character ∈ ip.print address, isHostCharacter character = true ∨ character = ':' := by
  intro character member
  rcases (lawful.v6 (lawful.roundTrip address) six).2 character member with hex | rfl | rfl
  · exact .inl (of_ascii
      (fun character => isHexDigit character = true → isHostCharacter character = true)
      (by decide +kernel) (isHexDigit_ascii hex) hex)
  · exact .inr rfl
  · exact .inl (by decide)

/-- The characters of a printed IPv4 address. -/
theorem isHostCharacter_of_v4 (lawful : ip.Lawful) {address : ip.Address}
    (four : ip.isV6 address = false) :
    ∀ character ∈ ip.print address, isHostCharacter character = true := by
  intro character member
  rcases lawful.v4 (lawful.roundTrip address) four character member with digit | rfl
  · simp [isHostCharacter, Char.isAlphanum, digit]
  · decide

/-- A canonical host is an address in brackets, or it has letters, digits, hyphens and periods. -/
theorem CanonicalHost.shape (lawful : ip.Lawful) {host : List Char}
    (canonical : CanonicalHost ip host) :
    (∃ address, ip.isV6 address = true ∧ host = '[' :: ip.print address ++ [']']) ∨
      ∀ character ∈ host, isHostCharacter character = true := by
  cases canonical with
  | bracketed address six => exact .inl ⟨address, six, rfl⟩
  | address address four => exact .inr (isHostCharacter_of_v4 lawful four)
  | name _ labels => exact .inr (isHostCharacter_of_labels labels)

/-- A canonical host has no upper-case letters. -/
theorem CanonicalHost.lower (lawful : ip.Lawful) {host : List Char}
    (canonical : CanonicalHost ip host) : ∀ character ∈ host, character.isUpper = false := by
  cases canonical with
  | bracketed address =>
    intro character member
    rw [List.cons_append, List.mem_cons, List.mem_append, List.mem_singleton] at member
    rcases member with rfl | inside | rfl
    · decide
    · exact lawful.lower address character inside
    · decide
  | address address => exact lawful.lower address
  | name _ _ lower => exact lower

/-- The characters of a canonical host: letters, digits, hyphens, periods, and colons in brackets. -/
theorem CanonicalHost.characters (lawful : ip.Lawful) {host : List Char}
    (canonical : CanonicalHost ip host) :
    ∀ character ∈ host, isHostCharacter character = true ∨ character ∈ [':', '[', ']'] := by
  rcases canonical.shape lawful with ⟨address, six, rfl⟩ | plain
  · intro character member
    rw [List.cons_append, List.mem_cons, List.mem_append, List.mem_singleton] at member
    rcases member with rfl | inside | rfl
    · exact .inr (by decide)
    · rcases isHostCharacter_of_v6 lawful six character inside with plain | rfl
      · exact .inl plain
      · exact .inr (by decide)
    · exact .inr (by decide)
  · exact fun character member => .inl (plain character member)

/-- A label is refused alike when it is lowered. -/
theorem invalidLabel_toLower (label : List Char) :
    invalidLabel (label.map Char.toLower) = invalidLabel label := by
  have hyphen : ∀ character : Char, (character.toLower == '-') = (character == '-') := by
    intro character
    rw [Bool.eq_iff_iff, beq_iff_eq, beq_iff_eq]
    exact (lowered character).mark '-' (by decide)
  have ends : ∀ character : Option Char,
      (character.map Char.toLower == some '-') = (character == some '-') := by
    intro character
    cases character with
    | none => rfl
    | some character => exact hyphen character
  have plain : (label.map Char.toLower).all (fun byte => byte.isAlphanum || byte == '-') =
      label.all (fun byte => byte.isAlphanum || byte == '-') := by
    rw [List.all_map]
    refine congrArg label.all (funext fun character => ?_)
    rw [Function.comp_apply, (lowered character).alphanum, hyphen]
  rw [invalidLabel, invalidLabel, List.head?_map, List.getLast?_map, ends, ends, plain,
    List.isEmpty_map]

/-- A host name keeps its labels when it is lowered. -/
theorem labels_toLower (host : List Char) :
    ((host.map Char.toLower).splitOnP (· == '.')).any invalidLabel =
      (host.splitOnP (· == '.')).any invalidLabel := by
  have periods : (fun character : Char => character.toLower == '.') = (· == '.') := by
    funext character
    rw [Bool.eq_iff_iff, beq_iff_eq, beq_iff_eq]
    exact (lowered character).mark '.' (by decide)
  rw [splitOnP_map, periods, List.any_map]
  exact congrArg (List.any _) (funext invalidLabel_toLower)

/-- A name that is no address is none when it is lowered. -/
theorem fromStr_toLower (lawful : ip.Lawful) {host : List Char} (unread : ip.fromStr host = none)
    (colon : ':' ∉ host) : ip.fromStr (host.map Char.toLower) = none := by
  cases read : ip.fromStr (host.map Char.toLower) with
  | none => rfl
  | some address =>
    cases six : ip.isV6 address with
    | true =>
      obtain ⟨character, member, equal⟩ := List.mem_map.mp (lawful.v6 read six).1
      rw [(lowered character).mark ':' (by decide)] at equal
      exact absurd (equal ▸ member) colon
    | false =>
      -- Digits and periods are not lowered, so the address was read from the host itself.
      have same : host.map Char.toLower = host := by
        refine (List.map_congr_left fun character member => ?_).trans host.map_id
        have kept := lawful.v4 read six _ (List.mem_map_of_mem member)
        cases upper : character.isUpper with
        | false => exact toLower_of_not_isUpper upper
        | true =>
          rcases kept with digit | period
          · rw [(lowered character).digit digit] at upper
            cases upper
          · rw [(lowered character).mark '.' (by decide)] at period
            rw [period] at upper
            cases upper
      rw [same, unread] at read
      cases read

/-- What is read without brackets has no colon and starts without a bracket. -/
theorem plainHost_eq_ok {authority written : List Char} {port : Option (List Char)}
    (split : plainHost authority = .ok (written, port)) :
    ':' ∉ written ∧ authority = written ++ (port.map (':' :: ·)).getD [] := by
  unfold plainHost at split
  split at split
  · next before after found =>
    split at split
    · next colon =>
      obtain ⟨rfl, rfl⟩ := Prod.mk.inj (Except.ok.inj split)
      exact ⟨colon, eq_of_rsplitOnce found⟩
    · cases split
  · next found =>
    obtain ⟨rfl, rfl⟩ := Prod.mk.inj (Except.ok.inj split)
    exact ⟨rsplitOnce_eq_none.mp found, (List.append_nil _).symm⟩

/-- What is read in brackets is an IPv6 address. -/
theorem bracketedHost_eq_ok {rest written : List Char} {port : Option (List Char)}
    (split : bracketedHost ip rest = .ok (written, port)) :
    ∃ address, ip.isV6 address = true ∧ written = '[' :: ip.print address ++ [']'] := by
  unfold bracketedHost at split
  split at split
  · cases split
  · dsimp only at split
    split at split
    · cases split
    · split at split
      · cases split
      · next address _ =>
        split at split
        · next six =>
          obtain ⟨rfl, rfl⟩ := Prod.mk.inj (Except.ok.inj split)
          exact ⟨address, six, rfl⟩
        · cases split

/-- A host that is read is written canonically. -/
theorem canonicalHost_of_split (lawful : ip.Lawful) {authority host written : List Char}
    {port : Option (List Char)} (split : splitHost ip authority = .ok (written, port))
    (nonempty : written ≠ []) (read : canonicalHost ip written = .ok host) :
    CanonicalHost ip host := by
  unfold splitHost at split
  split at split
  · obtain ⟨address, six, rfl⟩ := bracketedHost_eq_ok split
    have start : ('[' :: ip.print address ++ [']']).head? = some '[' := rfl
    rw [canonicalHost, if_pos start] at read
    obtain rfl := Except.ok.inj read
    exact .bracketed address six
  · next unbracketed =>
    obtain ⟨colon, rfl⟩ := plainHost_eq_ok split
    have start : written.head? ≠ some '[' := by
      rw [stripPrefix_eq_none, List.head?_append_of_ne_nil _ nonempty] at unbracketed
      exact unbracketed
    rw [canonicalHost, if_neg start] at read
    split at read
    · next address found =>
      obtain rfl := Except.ok.inj read
      cases six : ip.isV6 address with
      | true => exact absurd (lawful.v6 found six).1 colon
      | false => exact .address address six
    · next unread =>
      split at read
      · cases read
      · next valid =>
        obtain rfl := Except.ok.inj read
        simp only [Bool.or_eq_true, not_or, Bool.not_eq_true] at valid
        refine .name (fromStr_toLower lawful unread colon) ?_ ?_
        · rw [labels_toLower, valid.2]
        · intro character member
          obtain ⟨source, _, rfl⟩ := List.mem_map.mp member
          exact (lowered source).lower

/-- A host name without characters is refused. -/
theorem CanonicalHost.nonempty (lawful : ip.Lawful) {host : List Char}
    (canonical : CanonicalHost ip host) : host ≠ [] := by
  cases canonical with
  | bracketed => exact List.cons_ne_nil _ _
  | address address =>
    intro empty
    have read := lawful.roundTrip address
    rw [empty, lawful.nonempty] at read
    cases read
  | name _ labels =>
    rintro rfl
    cases labels

/-- A port as it is written is read as itself. -/
theorem parsePort_toDigits {port : Nat} (fits : port < 65536) :
    parsePort (Nat.toDigits 10 port) = .ok port := by
  have some : (Nat.toDigits 10 port).isEmpty = false := by
    simp
  have digits : (Nat.toDigits 10 port).all Char.isDigit = true :=
    List.all_eq_true.mpr fun digit member => Nat.isDigit_of_mem_toDigits (by decide) (by decide) member
  rw [parsePort, some, digits, Decimal.readDigits_toDigits 65536 port fits]
  rfl

/-- A port that may be absent is read as itself as it is written. -/
theorem parsePortText_toDigits {port : Option Nat} (fits : ∀ value ∈ port, value < 65536) :
    parsePortText (port.map (Nat.toDigits 10)) = .ok port := by
  cases port with
  | none => rfl
  | some value =>
    rw [Option.map_some, parsePortText, parsePort_toDigits (fits value rfl)]
    rfl

/-- A port that is read fits 16 bits. -/
theorem parsePortText_fits {text : Option (List Char)} {port : Option Nat}
    (read : parsePortText text = .ok port) : ∀ value ∈ port, value < 65536 := by
  unfold parsePortText at read
  split at read
  · obtain rfl := Except.ok.inj read
    simp
  · next digits =>
    unfold parsePort at read
    split at read
    · cases read
    · split at read
      · next value found =>
        obtain rfl := Except.ok.inj read
        have bound := ((Decimal.readDigits_ok_iff 65536 digits 0 value (by decide)).mp found).2.2
        simpa using bound
      · cases read

/-- A canonical host is canonical. -/
theorem CanonicalHost.read (lawful : ip.Lawful) {host : List Char}
    (canonical : CanonicalHost ip host) : canonicalHost ip host = .ok host := by
  have unbracketed : (∀ character ∈ host, isHostCharacter character = true) →
      host.head? ≠ some '[' := by
    intro plain start
    exact absurd (plain '[' (List.mem_of_mem_head? start)) (by decide)
  cases canonical with
  | bracketed => rfl
  | address address four =>
    rw [canonicalHost, if_neg (unbracketed (isHostCharacter_of_v4 lawful four)), lawful.roundTrip]
  | name unread labels lower =>
    have plain := isHostCharacter_of_labels labels
    have ascii : host.all (fun character => character.toNat < 128) = true :=
      List.all_eq_true.mpr fun character member => decide_eq_true
        (ascii_of_isUrlCharacter (isUrlCharacter_of_host (plain character member)))
    rw [canonicalHost, if_neg (unbracketed plain), unread]
    simp [ascii, labels, map_toLower lower]

/-- A canonical host with a port is split as it was put together. -/
theorem CanonicalHost.split (lawful : ip.Lawful) {host : List Char}
    (canonical : CanonicalHost ip host) (port : Option Nat) :
    splitHost ip (host ++ portText port) = .ok (host, port.map (Nat.toDigits 10)) := by
  rcases canonical.shape lawful with ⟨address, six, rfl⟩ | plain
  · have close : ']' ∉ ip.print address := by
      intro member
      rcases isHostCharacter_of_v6 lawful six _ member with plain | colon
      · exact absurd plain (by decide)
      · exact absurd colon (by decide)
    have ports : stripPrefix ':' (portText port) = port.map (Nat.toDigits 10) := by
      cases port <;> rfl
    have whole : port.map (Nat.toDigits 10) = none → portText port = [] := by
      cases port <;> simp [portText]
    have split : splitOnce [']'] (ip.print address ++ [']'] ++ portText port) =
        some (ip.print address, portText port) := splitOnce_append _ close
    have prefixed : stripPrefix '[' ('[' :: ip.print address ++ [']'] ++ portText port) =
        some (ip.print address ++ [']'] ++ portText port) := rfl
    rw [splitHost, prefixed]
    simp only [bracketedHost, split, ports, lawful.roundTrip, six, if_true]
    rw [if_neg fun both => both.2 (whole both.1)]
  · have colon : ':' ∉ host := fun member => absurd (plain ':' member) (by decide)
    have start : (host ++ portText port).head? ≠ some '[' := by
      rw [List.head?_append_of_ne_nil _ (canonical.nonempty lawful)]
      intro start
      exact absurd (plain '[' (List.mem_of_mem_head? start)) (by decide)
    rw [splitHost, stripPrefix_eq_none.mpr start]
    cases port with
    | none =>
      simp only [portText, List.append_nil, plainHost, rsplitOnce_eq_none.mpr colon, Option.map_none]
    | some value =>
      have digits : ':' ∉ Nat.toDigits 10 value := fun member =>
        absurd (Nat.isDigit_of_mem_toDigits (by decide) (by decide) member) (by decide)
      simp only [portText, plainHost, rsplitOnce_append host digits, if_pos colon, Option.map_some]

/-- A canonical host with a port is read as itself. -/
theorem CanonicalHost.located (lawful : ip.Lawful) {host : List Char}
    (canonical : CanonicalHost ip host) {port : Option Nat} (fits : ∀ value ∈ port, value < 65536) :
    canonicalHostAndPort ip (host ++ portText port) = .ok (host, port) := by
  have clean : '%' ∉ host := by
    intro member
    rcases canonical.characters lawful '%' member with plain | mark
    · exact absurd plain (by decide)
    · exact absurd mark (by decide)
  rw [canonicalHostAndPort, canonical.split lawful port, ok_bind,
    ensure_of ⟨canonical.nonempty lawful, clean⟩, ok_bind, canonical.read lawful, ok_bind,
    parsePortText_toDigits fits]
  rfl

end Host

section Whole

variable {ip : IpAddrs}

/-- A URL that is written canonically. -/
structure CanonicalUrl (ip : IpAddrs) where
  /-- The scheme. -/
  scheme : List Char
  /-- The host. -/
  host : List Char
  /-- The port, when it is not the default of the scheme. -/
  port : Option Nat
  /-- The path. -/
  path : List Char
  /-- The scheme is one. -/
  named : isScheme scheme = true
  /-- The scheme is lower-case. -/
  lower : ∀ character ∈ scheme, character.isUpper = false
  /-- The host is written canonically. -/
  located : CanonicalHost ip host
  /-- The port fits 16 bits. -/
  fits : ∀ value ∈ port, value < 65536
  /-- The port is not the default one. -/
  special : ∀ value ∈ port, isDefaultPort scheme value = false
  /-- The path is written canonically. -/
  escaped : CanonicalPath path
  /-- The path starts with a slash. -/
  rooted : path = [] ∨ ∃ rest, path = '/' :: rest

/-- The text of a URL. -/
def CanonicalUrl.text (url : CanonicalUrl ip) : List Char :=
  url.scheme ++ [':', '/', '/'] ++ url.host ++ portText url.port ++ url.path

/-- A scheme is one when it is lowered. -/
theorem isScheme_toLower (scheme : List Char) :
    isScheme (scheme.map Char.toLower) = isScheme scheme := by
  have start : (scheme.head?.map Char.toLower).any Char.isAlpha = scheme.head?.any Char.isAlpha := by
    cases scheme.head? with
    | none => rfl
    | some first => exact (lowered first).alpha
  have mark : ∀ character : Char, ∀ mark ∈ urlMarks,
      (character.toLower == mark) = (character == mark) := by
    intro character mark listed
    rw [Bool.eq_iff_iff, beq_iff_eq, beq_iff_eq]
    exact (lowered character).mark mark listed
  rw [isScheme, isScheme, List.head?_map, start, List.all_map]
  refine congrArg (_ && ·) (congrArg scheme.all (funext fun character => ?_))
  rw [Function.comp_apply, (lowered character).alphanum, mark _ '+' (by decide),
    mark _ '-' (by decide), mark _ '.' (by decide)]

/-- The characters of a scheme. -/
theorem isUrlCharacter_of_scheme {scheme : List Char} (named : isScheme scheme = true) :
    ∀ character ∈ scheme, isUrlCharacter character = true ∧ character ≠ ':' := by
  intro character member
  have plain := List.all_eq_true.mp (Bool.and_eq_true_iff.mp named).2 character member
  simp only [Bool.or_eq_true, beq_iff_eq] at plain
  constructor
  · simp only [isUrlCharacter, isUrlPathCharacter, isUrlUnreserved, Bool.or_eq_true, beq_iff_eq,
      List.contains_iff_mem, List.mem_cons, List.not_mem_nil, or_false]
    tauto
  · rintro rfl
    revert plain
    decide

/-- The path of a URL is a rooted one when what it is read from is. -/
theorem rooted_of_normalized {component path : List Char}
    (rooted : component = [] ∨ ∃ rest, component = '/' :: rest)
    (normalized : normalizeUrlComponent component = .ok path) :
    path = [] ∨ ∃ rest, path = '/' :: rest := by
  rcases rooted with rfl | ⟨rest, rfl⟩
  · exact .inl (Except.ok.inj normalized).symm
  · unfold normalizeUrlComponent at normalized
    rw [if_neg (by decide), if_neg (by decide)] at normalized
    obtain ⟨tail, _, made⟩ := bind_eq_ok.mp normalized
    exact .inr ⟨tail, (Except.ok.inj made).symm⟩

/-- What is left of a text after the items before a slash is empty or starts with the slash. -/
theorem rooted_dropWhile (text : List Char) :
    text.dropWhile (· != '/') = [] ∨ ∃ rest, text.dropWhile (· != '/') = '/' :: rest := by
  induction text with
  | nil => exact .inl rfl
  | cons first rest ih =>
    by_cases slash : first = '/'
    · exact .inr ⟨rest, by simp [slash]⟩
    · rwa [List.dropWhile_cons_of_pos (by simpa using slash)]

/-- A URL that is read is written canonically. -/
theorem exists_canonicalUrl (lawful : ip.Lawful) {input : String} {url : NormalizedGitUrl}
    (accepted : NormalizedGitUrl.new ip input = .ok url) :
    ∃ canonical : CanonicalUrl ip, url.text = String.ofList canonical.text := by
  obtain ⟨_, _, accepted⟩ := bind_eq_ok.mp accepted
  obtain ⟨_, _, accepted⟩ := bind_eq_ok.mp accepted
  obtain ⟨_, _, accepted⟩ := bind_eq_ok.mp accepted
  split at accepted
  · cases accepted
  · next scheme remainder _ =>
    obtain ⟨_, named, accepted⟩ := bind_eq_ok.mp accepted
    obtain ⟨_, _, accepted⟩ := bind_eq_ok.mp accepted
    obtain ⟨_, _, accepted⟩ := bind_eq_ok.mp accepted
    obtain ⟨⟨host, port⟩, located, accepted⟩ := bind_eq_ok.mp accepted
    obtain ⟨path, normalized, accepted⟩ := bind_eq_ok.mp accepted
    obtain ⟨⟨written, ports⟩, split, located⟩ := bind_eq_ok.mp located
    obtain ⟨_, checked, located⟩ := bind_eq_ok.mp located
    obtain ⟨spelled, read, located⟩ := bind_eq_ok.mp located
    obtain ⟨value, readPort, made⟩ := bind_eq_ok.mp located
    obtain ⟨rfl, rfl⟩ := Prod.mk.inj (Except.ok.inj made)
    obtain rfl := Except.ok.inj accepted
    have fits := parsePortText_fits readPort
    exact ⟨{
      scheme := scheme.map Char.toLower
      host := spelled
      port := value.filter fun port => !isDefaultPort (scheme.map Char.toLower) port
      path := path
      named := by rw [isScheme_toLower, ensure_eq_ok.mp named]
      lower := by
        intro character member
        obtain ⟨source, _, rfl⟩ := List.mem_map.mp member
        exact (lowered source).lower
      located := canonicalHost_of_split lawful split (ensure_eq_ok.mp checked).1 read
      fits := fun port kept => fits port (Option.mem_filter_iff.mp kept).1
      special := fun port kept => by simpa using (Option.mem_filter_iff.mp kept).2
      escaped := canonicalPath_of_normalized normalized
      rooted := rooted_of_normalized (rooted_dropWhile remainder) normalized }, rfl⟩

/-- A URL that is written canonically has no characters that are refused. -/
theorem CanonicalUrl.characters (lawful : ip.Lawful) (canonical : CanonicalUrl ip) :
    ∀ character ∈ canonical.text, isUrlCharacter character = true := by
  intro character member
  simp only [CanonicalUrl.text, List.mem_append] at member
  rcases member with (((scheme | mark) | host) | port) | path
  · exact (isUrlCharacter_of_scheme canonical.named character scheme).1
  · have marks : [':', '/', '/'].all isUrlCharacter = true := by decide
    exact List.all_eq_true.mp marks character mark
  · rcases canonical.located.characters lawful character host with plain | mark
    · exact isUrlCharacter_of_host plain
    · have marks : [':', '[', ']'].all isUrlCharacter = true := by decide
      exact List.all_eq_true.mp marks character mark
  · cases written : canonical.port with
    | none =>
      rw [written] at port
      cases port
    | some value =>
      rw [written, portText, List.mem_cons] at port
      rcases port with rfl | digit
      · decide
      · have digit := Nat.isDigit_of_mem_toDigits (by decide) (by decide) digit
        exact isUrlCharacter_of_host (by simp [isHostCharacter, Char.isAlphanum, digit])
  · exact canonical.escaped.characters character path

/-- A slash or an at sign is not in a canonical authority. -/
theorem CanonicalUrl.authority (lawful : ip.Lawful) (canonical : CanonicalUrl ip) :
    ∀ character ∈ canonical.host ++ portText canonical.port, character ≠ '/' ∧ character ≠ '@' := by
  intro character member
  rcases List.mem_append.mp member with host | port
  · rcases canonical.located.characters lawful character host with plain | mark
    · constructor <;> rintro rfl <;> exact absurd plain (by decide)
    · constructor <;> rintro rfl <;> exact absurd mark (by decide)
  · cases written : canonical.port with
    | none =>
      rw [written] at port
      cases port
    | some value =>
      rw [written, portText, List.mem_cons] at port
      rcases port with rfl | digit
      · decide
      · have digit := Nat.isDigit_of_mem_toDigits (by decide) (by decide) digit
        constructor <;> rintro rfl <;> exact absurd digit (by decide)

/-- A URL that is written canonically is read as itself. -/
theorem NormalizedGitUrl.new_text (lawful : ip.Lawful) (canonical : CanonicalUrl ip) :
    NormalizedGitUrl.new ip (String.ofList canonical.text) =
      .ok ⟨String.ofList canonical.text⟩ := by
  have plain := fun character member =>
    isUrlCharacter_plain (canonical.characters lawful character member)
  have nonempty : canonical.text ≠ [] := by simp [CanonicalUrl.text]
  have printable : canonical.text.any
      (fun character => isControl character || isWhitespace character) = false :=
    List.any_eq_false.mpr fun character member => by
      simp [(plain character member).1, (plain character member).2.1]
  have query : '?' ∉ canonical.text ∧ '#' ∉ canonical.text :=
    ⟨fun member => (plain _ member).2.2.1 rfl, fun member => (plain _ member).2.2.2 rfl⟩
  have split : splitOnce [':', '/', '/'] canonical.text =
      .some (canonical.scheme, canonical.host ++ portText canonical.port ++ canonical.path) := by
    have colon : ':' ∉ canonical.scheme := fun member =>
      (isUrlCharacter_of_scheme canonical.named ':' member).2 rfl
    have text : canonical.text = canonical.scheme ++ [':', '/', '/'] ++
        (canonical.host ++ portText canonical.port ++ canonical.path) := by
      simp [CanonicalUrl.text]
    rw [text, splitOnce_append _ colon]
  have slashless : ∀ character ∈ canonical.host ++ portText canonical.port,
      (character != '/') = true := fun character member => by
    simpa using (canonical.authority lawful character member).1
  have authority : (canonical.host ++ portText canonical.port ++ canonical.path).takeWhile
      (· != '/') = canonical.host ++ portText canonical.port := by
    rw [List.takeWhile_append_of_pos slashless]
    rcases canonical.rooted with empty | ⟨rest, start⟩ <;> simp [*]
  have path : (canonical.host ++ portText canonical.port ++ canonical.path).dropWhile
      (· != '/') = canonical.path := by
    rw [List.dropWhile_append_of_pos slashless]
    rcases canonical.rooted with empty | ⟨rest, start⟩ <;> simp [*]
  have some : canonical.host ++ portText canonical.port ≠ [] :=
    List.append_ne_nil_of_left_ne_nil (canonical.located.nonempty lawful) _
  have userinfo : '@' ∉ canonical.host ++ portText canonical.port :=
    fun member => (canonical.authority lawful _ member).2 rfl
  have port : canonical.port.filter (fun port => !isDefaultPort canonical.scheme port) =
      canonical.port := by
    cases written : canonical.port with
    | none => rfl
    | some value => simp [canonical.special value written]
  rw [NormalizedGitUrl.new, String.toList_ofList, ensure_of nonempty, ok_bind, ensure_of printable,
    ok_bind, ensure_of query, ok_bind, split]
  dsimp only
  rw [ensure_of canonical.named, ok_bind, map_toLower canonical.lower, authority, path,
    ensure_of some, ok_bind, ensure_of userinfo, ok_bind,
    canonical.located.located lawful canonical.fits, ok_bind, canonical.escaped.normalized, ok_bind,
    port]
  rfl

/-- The components of a canonical URL: a lower-case scheme, a lower-case host without credentials, a
port that is not the default one, and a path whose escapes are upper-case and escape what must be
escaped. -/
structure NormalizedGitUrl.Components (url : NormalizedGitUrl) (scheme host : List Char)
    (port : Option Nat) (path : List Char) : Prop where
  /-- The components make up the URL. -/
  text : url.text.toList = scheme ++ [':', '/', '/'] ++ host ++ portText port ++ path
  /-- The scheme ends at the first colon. -/
  schemeEnds : ':' ∉ scheme
  /-- The authority ends at the first slash. -/
  authorityEnds : '/' ∉ host ++ portText port
  /-- The path is empty or starts with a slash. -/
  rooted : path = [] ∨ ∃ rest, path = '/' :: rest
  /-- The host ends at a colon unless it is in brackets. -/
  hostEnds : ':' ∈ host → ∃ inner, host = '[' :: inner ++ [']'] ∧ ']' ∉ inner
  /-- The scheme has no upper-case letters. -/
  lowerScheme : ∀ character ∈ scheme, character.isUpper = false
  /-- The host has no upper-case letters. -/
  lowerHost : ∀ character ∈ host, character.isUpper = false
  /-- The authority has no credentials. -/
  userinfo : '@' ∉ host ++ portText port
  /-- The URL has no query and no fragment. -/
  query : '?' ∉ url.text.toList ∧ '#' ∉ url.text.toList
  /-- The port is not the default of the scheme. -/
  special : ∀ value ∈ port, isDefaultPort scheme value = false
  /-- Every percent sign starts an upper-case escape of a byte that is reserved. -/
  escapes : ∀ before rest, path = before ++ '%' :: rest →
    ∃ high low others, rest = high :: low :: others ∧ isUpperHexDigit high = true ∧
      isUpperHexDigit low = true ∧ isUrlUnreserved (escapedByte high low) = false

/-- A URL that is written canonically has these components. -/
theorem CanonicalUrl.components (lawful : ip.Lawful) (canonical : CanonicalUrl ip) :
    (NormalizedGitUrl.mk (String.ofList canonical.text)).Components canonical.scheme canonical.host
      canonical.port canonical.path := by
  have plain := fun character member =>
    isUrlCharacter_plain (canonical.characters lawful character member)
  have authority := canonical.authority lawful
  refine {
    text := String.toList_ofList
    schemeEnds := fun member => (isUrlCharacter_of_scheme canonical.named _ member).2 rfl
    authorityEnds := fun member => (authority _ member).1 rfl
    rooted := canonical.rooted
    hostEnds := fun colon => ?_
    lowerScheme := canonical.lower
    lowerHost := canonical.located.lower lawful
    userinfo := fun member => (authority _ member).2 rfl
    query := ?_
    special := canonical.special
    escapes := fun before rest => canonical.escaped.escapes }
  · rcases canonical.located.shape lawful with ⟨address, six, bracketed⟩ | letters
    · refine ⟨ip.print address, bracketed, fun member => ?_⟩
      rcases isHostCharacter_of_v6 lawful six _ member with letter | colon
      · exact absurd letter (by decide)
      · exact absurd colon (by decide)
    · exact absurd (letters ':' colon) (by decide)
  · rw [String.toList_ofList]
    exact ⟨fun member => (plain _ member).2.2.1 rfl, fun member => (plain _ member).2.2.2 rfl⟩

/-- A Git URL that is read is read as itself again, and its components are canonical. -/
theorem NormalizedGitUrl.new_idempotent (ip : IpAddrs) (lawful : ip.Lawful) (input : String)
    (url : NormalizedGitUrl) (accepted : NormalizedGitUrl.new ip input = .ok url) :
    NormalizedGitUrl.new ip url.text = .ok url ∧
      ∃ scheme host port path, url.Components scheme host port path := by
  obtain ⟨text⟩ := url
  obtain ⟨canonical, rfl⟩ := exists_canonicalUrl lawful accepted
  exact ⟨NormalizedGitUrl.new_text lawful canonical, _, _, _, _, canonical.components lawful⟩

/-- IPv4 addresses alone: four numbers of eight bits, read only as they are printed. -/
def IpAddrs.quads : IpAddrs where
  Address := { octets : List Nat // octets.length = 4 ∧ ∀ octet ∈ octets, octet < 256 }
  isV6 _ := false
  fromStr text :=
    let octets := (text.splitOnP (· == '.')).map fun part => Nat.ofDigitChars 10 part 0
    if printed : (octets.length = 4 ∧ ∀ octet ∈ octets, octet < 256) ∧
        ['.'].intercalate (octets.map (Nat.toDigits 10)) = text then
      some ⟨octets, printed.1⟩
    else none
  print address := ['.'].intercalate (address.val.map (Nat.toDigits 10))

/-- IPv4 addresses have the documented texts. -/
theorem IpAddrs.quads_lawful : IpAddrs.quads.Lawful := by
  have digits : ∀ octets : List Nat, ∀ character ∈ ['.'].intercalate (octets.map (Nat.toDigits 10)),
      character.isDigit = true ∨ character = '.' := by
    intro octets character member
    rcases Decimal.mem_intercalate member with period | ⟨part, partIn, digit⟩
    · exact .inr period
    · obtain ⟨octet, _, rfl⟩ := List.mem_map.mp partIn
      exact .inl (Nat.isDigit_of_mem_toDigits (by decide) (by decide) digit)
  refine {
    roundTrip := ?_
    nonempty := rfl
    v4 := ?_
    v6 := fun _ six => absurd six Bool.false_ne_true
    lower := ?_ }
  · rintro ⟨octets, many, small⟩
    have split : (['.'].intercalate (octets.map (Nat.toDigits 10))).splitOnP (· == '.') =
        octets.map (Nat.toDigits 10) := by
      refine Decimal.splitOnP_intercalate _ '.' rfl ?_ ?_
      · rintro empty
        rw [List.map_eq_nil_iff.mp empty] at many
        cases many
      · intro part partIn character member
        obtain ⟨octet, _, rfl⟩ := List.mem_map.mp partIn
        have digit := Nat.isDigit_of_mem_toDigits (by decide) (by decide) member
        have other : character ≠ '.' := by
          rintro rfl
          exact absurd digit (by decide)
        simpa using other
    have read : ((['.'].intercalate (octets.map (Nat.toDigits 10))).splitOnP (· == '.')).map
        (fun part => Nat.ofDigitChars 10 part 0) = octets := by
      rw [split, List.map_map]
      exact (List.map_congr_left fun octet _ =>
        Nat.ofDigitChars_toDigits (by decide) (by decide)).trans octets.map_id
    simp only [IpAddrs.quads, read]
    rw [dif_pos ⟨⟨many, small⟩, trivial⟩]
  · intro text address found _ character member
    simp only [IpAddrs.quads] at found
    split at found
    · next printed =>
      rw [← printed.2] at member
      exact digits _ character member
    · cases found
  · intro address character member
    rcases digits _ character member with digit | rfl
    · exact of_ascii (fun character => character.isDigit = true → character.isUpper = false)
        (by decide +kernel) (ascii_of_isAlphanum (by simp [Char.isAlphanum, digit])) digit
    · decide

/-- A URL with capitals, a default port and a lower-case escape is written canonically. -/
theorem NormalizedGitUrl.new_idempotent_capitals :
    NormalizedGitUrl.new IpAddrs.quads "HTTPS://EXAMPLE.TEST:443/repo%2f~" =
        .ok ⟨"https://example.test/repo%2F~"⟩ ∧
      NormalizedGitUrl.new IpAddrs.quads "https://example.test/repo%2F~" =
        .ok ⟨"https://example.test/repo%2F~"⟩ ∧
      ∃ scheme host port path, (NormalizedGitUrl.mk "https://example.test/repo%2F~").Components
        scheme host port path := by
  have accepted : NormalizedGitUrl.new IpAddrs.quads "HTTPS://EXAMPLE.TEST:443/repo%2f~" =
      .ok ⟨"https://example.test/repo%2F~"⟩ := by
    decide +kernel
  exact ⟨accepted, NormalizedGitUrl.new_idempotent IpAddrs.quads IpAddrs.quads_lawful _ _ accepted⟩

end Whole

end Rsolve
