import BloomWorkspaces.Library.Ascii
import Mathlib.Algebra.Group.Nat.Defs

/-!
# Addresses

`net.isIP` and `isPublicAddress`, which tells the addresses that a workspace may reach from the
special-purpose ranges.
-/

namespace Bloom

/-! ### IPv4 -/

/-- `^(?:0|[1-9][0-9]{0,2})$` -/
def isDecimalOctet (text : List Char) : Bool :=
  text = ['0'] || (1 ≤ text.length && text.length ≤ 3 && text.all Char.isDigit && text.head? ≠ some '0')

/-- The loop of `ipv4ToNumber` over the octets. -/
def ipv4Value : ℕ → List (List Char) → Option ℕ
  | value, [] => some value
  | value, octet :: rest =>
    if isDecimalOctet octet = false then none
    else if 255 < Ascii.decimalNumber octet then none
    else ipv4Value (value * 256 + Ascii.decimalNumber octet) rest

def ipv4ToNumber (address : List Char) : Option ℕ :=
  if (address.splitOn '.').length ≠ 4 then none else ipv4Value 0 (address.splitOn '.')

def ipv4CidrContains (value : ℕ) (base : List Char) (bits : ℕ) : Bool :=
  match ipv4ToNumber base with
  | none => false
  | some baseValue => value / 2 ^ (32 - bits) = baseValue / 2 ^ (32 - bits)

/-- The special-purpose IPv4 ranges. -/
def specialIpv4 : List (List Char × ℕ) := [
  ("0.0.0.0".toList, 8),
  ("10.0.0.0".toList, 8),
  ("100.64.0.0".toList, 10),
  ("127.0.0.0".toList, 8),
  ("168.63.129.16".toList, 32),
  ("169.254.0.0".toList, 16),
  ("172.16.0.0".toList, 12),
  ("192.0.0.0".toList, 24),
  ("192.0.2.0".toList, 24),
  ("192.88.99.0".toList, 24),
  ("192.168.0.0".toList, 16),
  ("198.18.0.0".toList, 15),
  ("198.51.100.0".toList, 24),
  ("203.0.113.0".toList, 24),
  ("224.0.0.0".toList, 4),
  ("240.0.0.0".toList, 4)]

def isPublicIpv4 (address : List Char) : Bool :=
  match ipv4ToNumber address with
  | none => false
  | some value => !specialIpv4.any fun range => ipv4CidrContains value range.1 range.2

/-! ### IPv6 -/

/-- `^[0-9a-f]{1,4}$`, on a text in lower case. -/
def isHexWord (text : List Char) : Bool :=
  1 ≤ text.length && text.length ≤ 4 && text.all fun c => c.isDigit || ('a' ≤ c && c ≤ 'f')

/-- The two words in place of a dotted tail. -/
def expandDottedTail (working : List Char) : Option (List Char) :=
  if '.' ∈ working then
    match Ascii.splitAtLast ':' working with
    | none => none
    | some (before, tail) =>
      match ipv4ToNumber tail with
      | none => none
      | some ipv4 =>
        some (before ++ ':' :: Nat.toDigits 16 (ipv4 / 65536) ++ ':' :: Nat.toDigits 16 (ipv4 % 65536))
  else some working

/-- The words of one half; an empty half has none. -/
def halfWords (half : List Char) : List (List Char) := if half = [] then [] else half.splitOn ':'

/-- The words of an address with the omitted ones filled in. -/
def ipv6Words (working : List Char) : Option (List (List Char)) :=
  match Ascii.splitOnColons working with
  | [whole] => if (halfWords whole).length = 8 then some (halfWords whole) else none
  | [left, right] =>
    if (halfWords left).length + (halfWords right).length < 8 then
      some (halfWords left ++
        List.replicate (8 - (halfWords left).length - (halfWords right).length) ['0'] ++
        halfWords right)
    else none
  | _ => none

def ipv6ToBigInt (address : List Char) : Option ℕ :=
  if '%' ∈ address then none
  else
    match expandDottedTail (Ascii.toLower address) with
    | none => none
    | some working =>
      match ipv6Words working with
      | none => none
      | some words =>
        if words.length ≠ 8 || words.any fun word => !isHexWord word then none
        else some (words.foldl (fun value word => value * 65536 + Ascii.hexNumber word) 0)

def ipv6CidrContains (value : ℕ) (base : List Char) (bits : ℕ) : Bool :=
  match ipv6ToBigInt base with
  | none => false
  | some baseValue => value / 2 ^ (128 - bits) = baseValue / 2 ^ (128 - bits)

/-- The special-purpose ranges inside `2000::/3`. -/
def specialIpv6 : List (List Char × ℕ) := [
  ("2001::".toList, 32),
  ("2001:2::".toList, 48),
  ("2001:10::".toList, 28),
  ("2001:20::".toList, 28),
  ("2001:db8::".toList, 32),
  ("2002::".toList, 16),
  ("3ffe::".toList, 16)]

def isPublicIpv6 (address : List Char) : Bool :=
  match ipv6ToBigInt address with
  | none => false
  | some value =>
    if value / 2 ^ 125 ≠ 1 then false
    else !specialIpv6.any fun range => ipv6CidrContains value range.1 range.2

/-! ### `net.isIP` -/

/-- Node accepts the texts that `ipv4ToNumber` reads. -/
def isIPv4 (text : List Char) : Bool := (ipv4ToNumber text).isSome

def isHexGroup (text : List Char) : Bool :=
  1 ≤ text.length && text.length ≤ 4 && text.all Ascii.isHexDigit

/-- The number of 16-bit groups of one half; at the end of an address the last two may be dotted. -/
def groupCount (half : List Char) (atEnd : Bool) : Option ℕ :=
  if half = [] then some 0
  else
    let groups := half.splitOn ':'
    if groups.all isHexGroup then some groups.length
    else if atEnd && groups.dropLast.all isHexGroup && isIPv4 (groups.getLastD []) then
      some (groups.length + 1)
    else none

def isIPv6Body (text : List Char) : Bool :=
  match Ascii.splitOnColons text with
  | [whole] => groupCount whole true = some 8
  | [left, right] =>
    match groupCount left false, groupCount right true with
    | some l, some r => l + r ≤ 7
    | _, _ => false
  | _ => false

/-- An address may be followed by a zone. -/
def isIPv6 (text : List Char) : Bool :=
  isIPv6Body (text.takeWhile (· ≠ '%')) &&
    match text.dropWhile (· ≠ '%') with
    | [] => true
    | _ :: zone => zone ≠ [] && zone.all fun c => c.isAlphanum || c ∈ ['-', '.', ':']

def isIP (text : List Char) : ℕ := if isIPv4 text then 4 else if isIPv6 text then 6 else 0

def isPublicAddress (address : List Char) : Bool :=
  match isIP address with
  | 4 => isPublicIpv4 address
  | 6 => isPublicIpv6 address
  | _ => false

end Bloom
