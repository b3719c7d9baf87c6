import Rsolve.Core.Coordinates
import Rsolve.Core.GitUrl
import Rsolve.Lib.Checked
import Rsolve.Lib.Decimal
import Rsolve.Lib.Splitting

/-!
# The text of a Git URL

A Git URL is read into a scheme, a host, a port and a path, and written back in one spelling: letters
of the scheme and the host are lowered, an address is printed anew, a default port is dropped, and
percent escapes are resolved where they escape nothing.
-/
open Checked Splitting

namespace Rsolve

/-- `NormalizedGitUrlError` — why a text is not a canonical repository URL. -/
inductive NormalizedGitUrlError
  | empty
  | invalidScheme
  | missingAuthority
  | credentialsForbidden
  | queryOrFragmentForbidden
  | invalidHost
  | invalidPort
  | invalidPercentEscape
  | invalidPathCharacter
  | controlOrWhitespace
deriving Repr, DecidableEq

/-- `NormalizedGitUrlError::fmt` — the error text. -/
def NormalizedGitUrlError.message : NormalizedGitUrlError → String
  | .empty => "normalized Git URL is empty"
  | .invalidScheme => "normalized Git URL has an invalid or non-canonical scheme"
  | .missingAuthority => "normalized Git URL must have an authority"
  | .credentialsForbidden => "normalized Git URL must not contain credentials"
  | .queryOrFragmentForbidden => "normalized Git URL must not contain a query or fragment"
  | .invalidHost => "normalized Git URL has an invalid host"
  | .invalidPort => "normalized Git URL has an invalid port"
  | .invalidPercentEscape => "normalized Git URL has an invalid percent escape"
  | .invalidPathCharacter => "normalized Git URL has an invalid path character"
  | .controlOrWhitespace => "normalized Git URL contains control or whitespace"

/-- `IpAddr` of the standard library: how addresses are read and printed. -/
structure IpAddrs where
  /-- The addresses. -/
  Address : Type
  /-- `IpAddr::V6`. -/
  isV6 : Address → Bool
  /-- `IpAddr::from_str`. -/
  fromStr : List Char → Option Address
  /-- `IpAddr::to_string`. -/
  print : Address → List Char

/-- What the standard library documents of addresses: a printed address reads back, the text of an
IPv4 address has digits and periods, and that of an IPv6 address has colons, lower-case hexadecimal
digits when it is printed, and periods. -/
structure IpAddrs.Lawful (ip : IpAddrs) : Prop where
  /-- A printed address is read as the address. -/
  roundTrip : ∀ address, ip.fromStr (ip.print address) = some address
  /-- No address is spelled by nothing. -/
  nonempty : ip.fromStr [] = none
  /-- The texts of IPv4 addresses. -/
  v4 : ∀ {text address}, ip.fromStr text = some address → ip.isV6 address = false →
    ∀ character ∈ text, character.isDigit = true ∨ character = '.'
  /-- The texts of IPv6 addresses. -/
  v6 : ∀ {text address}, ip.fromStr text = some address → ip.isV6 address = true →
    ':' ∈ text ∧
      ∀ character ∈ text, isHexDigit character = true ∨ character = ':' ∨ character = '.'
  /-- Addresses are printed in lower case. -/
  lower : ∀ address, ∀ character ∈ ip.print address, character.isUpper = false

/-- `u8::is_ascii_alphanumeric` and the marks that a URL leaves unescaped. -/
def isUrlUnreserved (byte : Char) : Bool :=
  byte.isAlphanum || byte == '-' || byte == '.' || byte == '_' || byte == '~'

/-- `is_url_path_character`. -/
def isUrlPathCharacter (byte : Char) : Bool :=
  isUrlUnreserved byte ||
    ['/', ':', '@', '!', '$', '&', '\'', '(', ')', '*', '+', ',', ';', '='].contains byte

/-- `hex_value` of a hexadecimal digit. -/
def hexValue (byte : Char) : Nat :=
  if byte.isDigit then byte.toNat - '0'.toNat
  else if 'a' ≤ byte ∧ byte ≤ 'f' then byte.toNat - 'a'.toNat + 10
  else byte.toNat - 'A'.toNat + 10

/-- `char::from` of the byte that an escape stands for. -/
def escapedByte (high low : Char) : Char := Char.ofNat (16 * hexValue high + hexValue low)

/-- `normalize_url_component`. -/
def normalizeUrlComponent : List Char → Except NormalizedGitUrlError (List Char)
  | [] => .ok []
  | byte :: rest =>
    if byte = '%' then
      match rest with
      | [] => .error .invalidPercentEscape
      | [_] => .error .invalidPercentEscape
      | high :: low :: others =>
        if !isHexDigit high || !isHexDigit low then .error .invalidPercentEscape
        else do
          let normalized ← normalizeUrlComponent others
          if isUrlUnreserved (escapedByte high low) then
            return escapedByte high low :: normalized
          else return '%' :: high.toUpper :: low.toUpper :: normalized
    else if !isUrlPathCharacter byte then .error .invalidPathCharacter
    else do
      let normalized ← normalizeUrlComponent rest
      return byte :: normalized

/-- `is_default_port`. -/
def isDefaultPort (scheme : List Char) (port : Nat) : Bool :=
  [("https".toList, 443), ("http".toList, 80), ("ssh".toList, 22), ("git".toList, 9418)].contains
    (scheme, port)

/-- The port text of an authority, and the host before it, as it is written in brackets. -/
def bracketedHost (ip : IpAddrs) (rest : List Char) :
    Except NormalizedGitUrlError (List Char × Option (List Char)) :=
  match splitOnce [']'] rest with
  | none => .error .invalidHost
  | some (host, remainder) =>
    let port := stripPrefix ':' remainder
    if port = none ∧ remainder ≠ [] then .error .invalidHost
    else
      match ip.fromStr host with
      | none => .error .invalidHost
      | some address =>
        if ip.isV6 address then .ok ('[' :: ip.print address ++ [']'], port)
        else .error .invalidHost

/-- The port text of an authority, and the host before it, without brackets. -/
def plainHost (authority : List Char) :
    Except NormalizedGitUrlError (List Char × Option (List Char)) :=
  match rsplitOnce ':' authority with
  | some (host, port) => if ':' ∉ host then .ok (host, some port) else .error .invalidHost
  | none => .ok (authority, none)

/-- A label of a host name that is refused. -/
def invalidLabel (label : List Char) : Bool :=
  label.isEmpty || label.head? == some '-' || label.getLast? == some '-' ||
    !label.all (fun byte => byte.isAlphanum || byte == '-')

/-- The canonical spelling of a host. -/
def canonicalHost (ip : IpAddrs) (host : List Char) : Except NormalizedGitUrlError (List Char) :=
  if host.head? = some '[' then .ok host
  else
    match ip.fromStr host with
    | some address => .ok (ip.print address)
    | none =>
      if !host.all (fun character => character.toNat < 128) ||
          (host.splitOnP (· == '.')).any invalidLabel then .error .invalidHost
      else .ok (host.map Char.toLower)

/-- The value of a port. -/
def parsePort (port : List Char) : Except NormalizedGitUrlError Nat :=
  if port.isEmpty || !port.all Char.isDigit then .error .invalidPort
  else
    match Decimal.readDigits 65536 0 port with
    | .ok value => .ok value
    | .error _ => .error .invalidPort

/-- The value of a port that may be absent. -/
def parsePortText : Option (List Char) → Except NormalizedGitUrlError (Option Nat)
  | none => .ok none
  | some port => (parsePort port).map some

/-- The host of an authority and its port text. -/
def splitHost (ip : IpAddrs) (authority : List Char) :
    Except NormalizedGitUrlError (List Char × Option (List Char)) :=
  match stripPrefix '[' authority with
  | some rest => bracketedHost ip rest
  | none => plainHost authority

/-- `canonical_host_and_port`. -/
def canonicalHostAndPort (ip : IpAddrs) (authority : List Char) :
    Except NormalizedGitUrlError (List Char × Option Nat) := do
  let split ← splitHost ip authority
  ensure (split.1 ≠ [] ∧ '%' ∉ split.1) .invalidHost
  let host ← canonicalHost ip split.1
  let port ← parsePortText split.2
  return (host, port)

/-- A scheme: a letter, then letters, digits and the marks of a scheme. -/
def isScheme (scheme : List Char) : Bool :=
  scheme.head?.any Char.isAlpha &&
    scheme.all (fun byte => byte.isAlphanum || byte == '+' || byte == '-' || byte == '.')

/-- A port as it is written after a host. -/
def portText : Option Nat → List Char
  | none => []
  | some port => ':' :: Nat.toDigits 10 port

/-- `NormalizedGitUrl::new`. -/
def NormalizedGitUrl.new (ip : IpAddrs) (input : String) :
    Except NormalizedGitUrlError NormalizedGitUrl := do
  let input := input.toList
  ensure (input ≠ []) .empty
  ensure (input.any (fun character => isControl character || isWhitespace character) = false)
    .controlOrWhitespace
  ensure ('?' ∉ input ∧ '#' ∉ input) .queryOrFragmentForbidden
  match splitOnce [':', '/', '/'] input with
  | none => .error .invalidScheme
  | some (scheme, remainder) =>
    ensure (isScheme scheme = true) .invalidScheme
    let scheme := scheme.map Char.toLower
    let authority := remainder.takeWhile (· != '/')
    ensure (authority ≠ []) .missingAuthority
    ensure ('@' ∉ authority) .credentialsForbidden
    let located ← canonicalHostAndPort ip authority
    let path ← normalizeUrlComponent (remainder.dropWhile (· != '/'))
    let port := located.2.filter (fun port => !isDefaultPort scheme port)
    return ⟨String.ofList (scheme ++ [':', '/', '/'] ++ located.1 ++ portText port ++ path)⟩

end Rsolve
