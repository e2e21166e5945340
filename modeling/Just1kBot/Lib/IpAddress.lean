import Mathlib.Data.List.Basic

/-! `ip_address` and `ip_network` of the language's module `ipaddress`.

    Addresses and networks are read from their text; what the module refuses is `none`. -/

namespace Lib.IpAddress

/-- An address: an IPv6 address may carry the zone it is of. -/
inductive Address
  | v4 (ip : BitVec 32)
  | v6 (ip : BitVec 128) (scopeId : Option (List Char))
  deriving DecidableEq, Repr

inductive Network
  | v4 (networkAddress netmask : BitVec 32)
  | v6 (networkAddress netmask : BitVec 128)
  deriving DecidableEq, Repr

/-- `address in network`. -/
def Network.contains : Network → Address → Bool
  | .v4 networkAddress netmask, .v4 ip => ip &&& netmask = networkAddress
  | .v6 networkAddress netmask, .v6 ip _ => ip &&& netmask = networkAddress
  | .v4 .., .v6 .. => false
  | .v6 .., .v4 .. => false

/-! ### Numbers -/

/-- The value of a digit of base 16. -/
def hexDigit (c : Char) : Option ℕ :=
  if c.isDigit then some (c.toNat - '0'.toNat)
  else if 'a' ≤ c ∧ c ≤ 'f' then some (c.toNat - 'a'.toNat + 10)
  else if 'A' ≤ c ∧ c ≤ 'F' then some (c.toNat - 'A'.toNat + 10)
  else none

/-- The number that digits spell. -/
def ofDigits (base : ℕ) (digits : List ℕ) : ℕ := digits.foldl (fun n digit => base * n + digit) 0

/-- `int(text)` of a text of ASCII digits only; the language refuses more than 4300 of them. -/
def decimal (text : List Char) : Option ℕ :=
  if text ≠ [] ∧ text.all Char.isDigit ∧ text.length ≤ 4300 then
    some (ofDigits 10 (text.map fun c => c.toNat - '0'.toNat))
  else none

/-- `_parse_octet`: no leading zero, and at most 255. -/
def parseOctet (text : List Char) : Option ℕ :=
  if text.length ≤ 3 ∧ ¬ (text ≠ ['0'] ∧ text.head? = some '0') then
    (decimal text).filter fun octet => octet ≤ 255
  else none

/-- `_parse_hextet`: one to four digits of base 16. -/
def parseHextet (text : List Char) : Option ℕ :=
  if text ≠ [] ∧ text.length ≤ 4 then (text.mapM hexDigit).map (ofDigits 16) else none

/-! ### Addresses -/

/-- `IPv4Address`: four octets. -/
def ipv4 (text : List Char) : Option (BitVec 32) :=
  match (text.splitOn '.').mapM parseOctet with
  | some [a, b, c, d] => some (BitVec.ofNat 32 (ofDigits 256 [a, b, c, d]))
  | _ => none

/-- An IPv4 address in the last part stands for two hextets. -/
def expandSuffix (parts : List (List Char)) : Option (List (List Char)) :=
  match parts.getLast? with
  | some last =>
    if '.' ∈ last then
      (ipv4 last).map fun ip =>
        parts.dropLast ++ [Nat.toDigits 16 (ip.toNat / 65536), Nat.toDigits 16 (ip.toNat % 65536)]
    else some parts
  | none => some parts

/-- The inner parts that are empty, as an inner `::` leaves them. -/
def skips (parts : List (List Char)) : List ℕ :=
  (List.range parts.length).filter fun i => 1 ≤ i ∧ i + 1 < parts.length ∧ parts[i]? = some []

/-- The hextets of an address that is written in full. -/
def fullHextets (parts : List (List Char)) : Option (List ℕ) :=
  if parts.length = 8 then parts.mapM parseHextet else none

/-- The hextets of an address with its zeros left out at `skip`. An empty first or last part is
    allowed next to the gap only. -/
def gappedHextets (parts : List (List Char)) (skip : ℕ) : Option (List ℕ) :=
  let high := parts.take skip
  let low := parts.drop (skip + 1)
  if high.head? = some [] ∧ high.length ≠ 1 ∨ low.getLast? = some [] ∧ low.length ≠ 1 then none
  else do
    let high ← (high.filter fun part => part ≠ []).mapM parseHextet
    let low ← (low.filter fun part => part ≠ []).mapM parseHextet
    if high.length + low.length < 8 then
      some (high ++ List.replicate (8 - (high.length + low.length)) 0 ++ low)
    else none

/-- The number of an `IPv6Address`, from the text before the zone. -/
def ipv6Int (text : List Char) : Option (BitVec 128) :=
  if (text.splitOn ':').length < 3 then none
  else do
    let parts ← expandSuffix (text.splitOn ':')
    if 9 < parts.length then none
    else
      let hextets ← match skips parts with
        | [] => fullHextets parts
        | [skip] => gappedHextets parts skip
        | _ => none
      some (BitVec.ofNat 128 (ofDigits 65536 hextets))

/-- `IPv6Address`: what follows a `%` is the zone, which is not empty and has no `%` itself. -/
def ipv6 (text : List Char) : Option Address :=
  if '/' ∈ text then none
  else
    match text.splitOn '%' with
    | [addr] => (ipv6Int addr).map fun ip => .v6 ip none
    | [addr, scopeId] =>
      if scopeId = [] then none else (ipv6Int addr).map fun ip => .v6 ip (some scopeId)
    | _ => none

/-- `ip_address`. -/
def ipAddress (text : List Char) : Option Address := ((ipv4 text).map .v4).or (ipv6 text)

/-! ### Networks -/

/-- The netmask of a prefix length. -/
def netmask (width prefixlen : ℕ) : BitVec width := BitVec.allOnes width <<< (width - prefixlen)

/-- `_prefix_from_prefix_string`. -/
def prefixLength (width : ℕ) (text : List Char) : Option ℕ :=
  (decimal text).filter fun prefixlen => prefixlen ≤ width

/-- `_prefix_from_ip_string`: a netmask, or else a hostmask. -/
def prefixOfMask (text : List Char) : Option ℕ := do
  let mask ← ipv4 text
  let lengths := List.range 33
  (lengths.find? fun prefixlen => mask = netmask 32 prefixlen).or
    (lengths.find? fun prefixlen => ~~~mask = netmask 32 prefixlen)

/-- `IPv4Network`, not strict. -/
def ipv4Network (addr mask : List Char) : Option Network := do
  let ip ← ipv4 addr
  let prefixlen ← (prefixLength 32 mask).or (prefixOfMask mask)
  some (.v4 (ip &&& netmask 32 prefixlen) (netmask 32 prefixlen))

/-- `IPv6Network`, not strict. -/
def ipv6Network (addr mask : List Char) : Option Network :=
  match ipv6 addr, prefixLength 128 mask with
  | some (.v6 ip _), some prefixlen =>
    some (.v6 (ip &&& netmask 128 prefixlen) (netmask 128 prefixlen))
  | _, _ => none

/-- `ip_network(text, strict=False)`, of a text with a slash. -/
def ipNetwork (text : List Char) : Option Network :=
  match text.splitOn '/' with
  | [addr, mask] => (ipv4Network addr mask).or (ipv6Network addr mask)
  | _ => none

example : ipAddress "172.16.0.9".toList = some (.v4 0xac100009) := by decide +kernel

example : ipAddress "fe80::1%eth0".toList = some (.v6 (0xfe80 <<< 112 + 1) "eth0".toList) := by
  decide +kernel

example : ipAddress "::ffff:10.0.0.1".toList = some (.v6 0xffff0a000001 none) := by decide +kernel

example : ipNetwork "172.16.5.1/12".toList = some (.v4 0xac100000 0xfff00000) := by decide +kernel

example : ipAddress "010.0.0.1".toList = none := by decide +kernel

end Lib.IpAddress
