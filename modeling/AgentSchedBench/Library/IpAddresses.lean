import AgentSchedBench.Library.Decimals

/-!
# Addresses of the internet

Addresses of both versions with their texts, and the networks that contain
them.  A network contains addresses of its own version only: the address of
version 6 that stands for one of version 4 is in no network of version 4.
-/

namespace IpAddresses

open JsonText

/-! ## Addresses and networks -/

inductive IpAddress where
  | v4 (value : BitVec 32)
  | v6 (value : BitVec 128)
deriving DecidableEq, Repr

inductive IpNetwork where
  | v4 (network : BitVec 32) (bits : Nat)
  | v6 (network : BitVec 128) (bits : Nat)

/-- `address in network` -/
def IpNetwork.contains : IpNetwork → IpAddress → Bool
  | .v4 network bits, .v4 value =>
      value >>> (32 - bits) == network >>> (32 - bits)
  | .v6 network bits, .v6 value =>
      value >>> (128 - bits) == network >>> (128 - bits)
  | _, _ => false

/-- `address.ipv4_mapped` -/
def IpAddress.ipv4Mapped : IpAddress → Option IpAddress
  | .v4 _ => none
  | .v6 value =>
      if value >>> 32 = 0xffff#128 then some (.v4 (value.truncate 32)) else none

/-- A mapped address is in no network of version 4. -/
theorem contains_v4_of_ipv4Mapped {address inner : IpAddress}
    (isMapped : address.ipv4Mapped = some inner) (network : BitVec 32)
    (bits : Nat) : (IpNetwork.v4 network bits).contains address = false := by
  match address with
  | .v4 _ => cases isMapped
  | .v6 _ => rfl

/-! ## Their texts -/

/-- The value of four numbers, each below 256. -/
def ofOctets (first second third fourth : Nat) : BitVec 32 :=
  BitVec.ofNat 32 (((first * 256 + second) * 256 + third) * 256 + fourth)

/-- One of the four numbers of an address of version 4. -/
def parseOctet (text : List Char) : Option Nat :=
  if text = [] ∨ !text.all Char.isDigit ∨ 3 < text.length then none
  else if text ≠ ['0'] ∧ text.head? = some '0' then none
  else if 255 < decimalValue text then none
  else some (decimalValue text)

/-- `IPv4Address(text)` -/
def parseV4 (text : List Char) : Option (BitVec 32) :=
  match (text.splitOn '.').mapM parseOctet with
  | some [first, second, third, fourth] =>
      some (ofOctets first second third fourth)
  | _ => none

def hexValue (digit : Char) : Option Nat :=
  if digit.isDigit then some (digit.toNat - '0'.toNat)
  else if 'a' ≤ digit ∧ digit ≤ 'f' then some (digit.toNat - 'a'.toNat + 10)
  else if 'A' ≤ digit ∧ digit ≤ 'F' then some (digit.toNat - 'A'.toNat + 10)
  else none

/-- `_parse_hextet` -/
def parseHextet (text : List Char) : Option Nat :=
  if text = [] ∨ 4 < text.length then none
  else (text.mapM hexValue).map fun digits =>
    digits.foldl (fun value digit => value * 16 + digit) 0

/-- The parts of an address of version 6, as numbers below `2 ^ 16`: the last
one may be an address of version 4, which gives two. -/
def partsV6 (parts : List (List Char)) : List (Option Nat) :=
  let last := parts.getLastD []
  if '.' ∈ last then
    parts.dropLast.map parseHextet ++
      match parseV4 last with
      | none => [none]
      | some value => [some (value.toNat / 65536), some (value.toNat % 65536)]
  else parts.map parseHextet

/-- The value of the parts, the missing ones being zero. -/
def joinParts (high : List Nat) (skipped : Nat) (low : List Nat) : BitVec 128 :=
  BitVec.ofNat 128 <|
    (high ++ List.replicate skipped 0 ++ low).foldl
      (fun value part => value * 65536 + part) 0

/-- `_ip_int_from_string` of version 6.  The parts that are left out are those
at an empty part, which is not the first one nor the last. -/
def parseV6Parts (text : List Char) : Option (BitVec 128) :=
  let parts := text.splitOn ':'
  let values := partsV6 parts
  let blank := fun index => decide ((parts.getD index ['0']) = [])
  let inner := (List.range' 1 (values.length - 2)).filter blank
  if parts.length < 3 ∨ 9 < values.length then none
  else
    match inner with
    | [] =>
        if values.length ≠ 8 then none
        else (values.mapM id).map fun parts => joinParts parts 0 []
    | [skip] =>
        let high := if blank 0 then [] else values.take skip
        let low :=
          if values.getLastD none = none ∧ parts.getLastD ['0'] = [] then []
          else values.drop (skip + 1)
        if (blank 0 ∧ skip ≠ 1) ∨
            (parts.getLastD ['0'] = [] ∧ skip ≠ values.length - 2) ∨
            8 ≤ high.length + low.length then none
        else do
          let high ← high.mapM id
          let low ← low.mapM id
          some (joinParts high (8 - (high.length + low.length)) low)
    | _ => none

/-- `IPv6Address(text)`, whose scope may follow a `%` -/
def parseV6 (text : List Char) : Option (BitVec 128) :=
  if '/' ∈ text then none
  else
    match text.dropWhile (· ≠ '%') with
    | [] => parseV6Parts text
    | _ :: scope =>
        if scope = [] ∨ '%' ∈ scope then none
        else parseV6Parts (text.takeWhile (· ≠ '%'))

/-- `ipaddress.ip_address(text)`; it raises `ValueError` for other texts. -/
def ipAddress (text : List Char) : Option IpAddress :=
  match parseV4 text with
  | some value => some (.v4 value)
  | none => (parseV6 text).map .v6

end IpAddresses
