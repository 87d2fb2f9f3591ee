import Mathlib.Data.List.Basic
import Mathlib.Data.Nat.Notation

/-!
# Socket addresses

The textual forms `a.b.c.d:port` and `[groups%scope]:port`, read as the standard library of the
source reads them: no octal octets, one `::` at most, and a dotted tail in an IPv6 address.
-/

namespace Filestore.Server

inductive IpAddr where
  | v4 (octets : List UInt8)
  | v6 (groups : List UInt16) (scopeId : UInt32)
  deriving DecidableEq

structure SocketAddr where
  ip : IpAddr
  port : UInt16
  deriving DecidableEq

namespace SocketAddr

/-- A reader takes a prefix of the text, or fails and takes nothing. -/
abbrev Reader := StateT (List Char) Option

def readGivenChar (c : Char) : Reader Unit
  | [] => none
  | head :: rest => if head = c then some ((), rest) else none

/-- All but the first item of a sequence follow a separator. -/
def readSeparator {α : Type} (separator : Char) (index : ℕ) (inner : Reader α) : Reader α := do
  if 0 < index then readGivenChar separator
  inner

/-- The value of a digit in a radix of at most 36. -/
def toDigit (radix : ℕ) (c : Char) : Option ℕ :=
  let digit :=
    if c.isDigit then c.toNat - '0'.toNat
    else if c.isLower then c.toNat - 'a'.toNat + 10
    else if c.isUpper then c.toNat - 'A'.toNat + 10
    else radix
  if digit < radix then some digit else none

/-- A number below `limit` of at least one and at most `maxDigits` digits. -/
def readNumber (radix limit : ℕ) (maxDigits : Option ℕ) (allowZeroPrefix : Bool) : Reader ℕ :=
  fun chars ↦
    let digits := chars.takeWhile fun c ↦ (toDigit radix c).isSome
    let value := digits.foldl (fun value c ↦ radix * value + (toDigit radix c).getD 0) 0
    if digits.isEmpty || maxDigits.any (· < digits.length) || limit ≤ value ||
        (!allowZeroPrefix && digits.head? = some '0' && 1 < digits.length) then none
    else some (value, chars.drop digits.length)

def readIpv4Addr : Reader (List UInt8) :=
  (List.range 4).mapM fun i ↦ do
    let octet ← readSeparator '.' i (readNumber 10 256 (some 3) false)
    return .ofNat octet

/-- The two groups that four octets stand for. -/
def groupsOfOctets : List UInt8 → List UInt16
  | a :: b :: rest => (a.toUInt16 <<< 8 ||| b.toUInt16) :: groupsOfOctets rest
  | _ => []

/-- Read at most the remaining number of groups after `groups`, and whether the last two came from
an IPv4 address. -/
def readGroups : ℕ → List UInt16 → Reader (List UInt16 × Bool)
  | 0, groups => pure (groups, false)
  | remaining + 1, groups =>
    (do
      if remaining = 0 then failure
      let octets ← readSeparator ':' groups.length readIpv4Addr
      return (groups ++ groupsOfOctets octets, true)) <|>
    (do
      let group ← readSeparator ':' groups.length (readNumber 16 65536 (some 4) true)
      readGroups remaining (groups ++ [.ofNat group])) <|>
    pure (groups, false)

def readIpv6Addr : Reader (List UInt16) := do
  let (head, headIpv4) ← readGroups 8 []
  if head.length = 8 then return head
  -- An IPv4 part is not allowed before `::`.
  if headIpv4 then failure
  readGivenChar ':'
  readGivenChar ':'
  -- The `::` stands for at least one group of zeroes.
  let (tail, _) ← readGroups (8 - (head.length + 1)) []
  return head ++ List.replicate (8 - head.length - tail.length) 0 ++ tail

def readPort : Reader UInt16 := do
  readGivenChar ':'
  let port ← readNumber 10 65536 none true
  return .ofNat port

def readScopeId : Reader UInt32 := do
  readGivenChar '%'
  let scopeId ← readNumber 10 4294967296 none true
  return .ofNat scopeId

def readSocketAddrV4 : Reader SocketAddr := do
  let octets ← readIpv4Addr
  return ⟨.v4 octets, ← readPort⟩

def readSocketAddrV6 : Reader SocketAddr := do
  readGivenChar '['
  let groups ← readIpv6Addr
  let scopeId ← readScopeId <|> pure 0
  readGivenChar ']'
  return ⟨.v6 groups scopeId, ← readPort⟩

/-- The whole text is one socket address. -/
def parse (text : String) : Option SocketAddr :=
  match (readSocketAddrV4 <|> readSocketAddrV6) text.toList with
  | some (addr, []) => some addr
  | _ => none

example : parse "127.0.0.1:50051" = some ⟨.v4 [127, 0, 0, 1], 50051⟩ := by decide +kernel

example : parse "[fe80::1%2]:80" =
    some ⟨.v6 [0xfe80, 0, 0, 0, 0, 0, 0, 1] 2, 80⟩ := by decide +kernel

end SocketAddr

end Filestore.Server
