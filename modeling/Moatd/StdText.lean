import Mathlib.Data.List.Basic
import Mathlib.Tactic.Common

/-!
# The standard library's text functions

What `wire.rs` uses of `core::num`, `core::net` and `str`, after their
documentation: unsigned integers, IPv4 and IPv6 addresses, `split_once`,
`rsplit_once` and `trim`.  A parser takes the characters still to be read and
returns the value with the characters it left; a parser that fails leaves its
caller where it was, as `Parser::read_atomically` does.
-/

namespace Moatd

/-! ### Splitting and trimming -/

/-- `str::split_once`: around the first `c`. -/
def splitOnce (c : Char) : List Char → Option (List Char × List Char)
  | [] => none
  | x :: xs => if x = c then some ([], xs) else (splitOnce c xs).map fun p => (x :: p.1, p.2)

/-- `str::rsplit_once`: around the last `c`. -/
def rsplitOnce (c : Char) (s : List Char) : Option (List Char × List Char) :=
  (splitOnce c s.reverse).map fun p => (p.2.reverse, p.1.reverse)

/-- The Unicode property `White_Space`. -/
def isWhiteSpace (c : Char) : Bool :=
  let n := c.toNat
  (9 ≤ n && n ≤ 13) || n == 0x20 || n == 0x85 || n == 0xa0 || n == 0x1680 ||
    (0x2000 ≤ n && n ≤ 0x200a) || n == 0x2028 || n == 0x2029 || n == 0x202f || n == 0x205f ||
    n == 0x3000

/-- `str::trim`. -/
def trim (s : List Char) : List Char :=
  ((s.dropWhile isWhiteSpace).reverse.dropWhile isWhiteSpace).reverse

/-! ### Unsigned integers -/

/-- Why a text is no integer of its type. -/
inductive IntErrorKind
  | empty
  | invalidDigit
  | posOverflow
  deriving DecidableEq, Repr

/-- The message of the standard library. -/
def IntErrorKind.text : IntErrorKind → String
  | .empty => "cannot parse integer from empty string"
  | .invalidDigit => "invalid digit found in string"
  | .posOverflow => "number too large to fit in target type"

/-- `char::to_digit`, for radix 10 and 16. -/
def toDigit (radix : Nat) (c : Char) : Option Nat :=
  let n := c.toNat
  let d :=
    if 48 ≤ n ∧ n ≤ 57 then n - 48
    else if 97 ≤ n ∧ n ≤ 102 then n - 87
    else if 65 ≤ n ∧ n ≤ 70 then n - 55
    else radix
  if d < radix then some d else none

/-- Decimal digits on top of `acc`; a bad digit is reported before an overflow
at the same character. -/
def parseDigits (max : Nat) : List Char → Nat → Except IntErrorKind Nat
  | [], acc => .ok acc
  | c :: cs, acc =>
    match toDigit 10 c with
    | none => .error .invalidDigit
    | some d =>
      if acc * 10 + d ≤ max then parseDigits max cs (acc * 10 + d) else .error .posOverflow

/-- `str::parse` at an unsigned type whose largest value is `max`: one leading
`+` is allowed, leading zeros are. -/
def parseUnsigned (max : Nat) : List Char → Except IntErrorKind Nat
  | [] => .error .empty
  | ['+'] => .error .invalidDigit
  | '+' :: cs => parseDigits max cs 0
  | cs => parseDigits max cs 0

/-- `str::parse` for `u8`. -/
def parseU8 (s : List Char) : Except IntErrorKind UInt8 := (parseUnsigned 255 s).map UInt8.ofNat

/-- `str::parse` for `u16`. -/
def parseU16 (s : List Char) : Except IntErrorKind UInt16 :=
  (parseUnsigned 65535 s).map UInt16.ofNat

/-- `str::parse` for `u32`. -/
def parseU32 (s : List Char) : Except IntErrorKind UInt32 :=
  (parseUnsigned 4294967295 s).map UInt32.ofNat

/-! ### Addresses -/

/-- The longest run of digits at the front, and what follows it. -/
def spanDigits (radix : Nat) : List Char → List Nat × List Char
  | [] => ([], [])
  | c :: cs =>
    match toDigit radix c with
    | none => ([], c :: cs)
    | some d => ((d :: (spanDigits radix cs).1), (spanDigits radix cs).2)

/-- `Parser::read_number`: at most `maxDigits` digits, a value of at most `max`,
and without `allowZeroPrefix` no leading zero before another digit. -/
def readNumber (radix maxDigits : Nat) (allowZeroPrefix : Bool) (max : Nat) (s : List Char) :
    Option (Nat × List Char) :=
  let (ds, rest) := spanDigits radix s
  let value := ds.foldl (fun acc d => acc * radix + d) 0
  if ds = [] ∨ maxDigits < ds.length then none
  else if !allowZeroPrefix && s.head? == some '0' && decide (1 < ds.length) then none
  else if value ≤ max then some (value, rest)
  else none

/-- `Parser::read_separator`: `sep` stands before every item but the first. -/
def readSeparator {α : Type} (sep : Char) (index : Nat) (inner : List Char → Option (α × List Char))
    (s : List Char) : Option (α × List Char) :=
  if index = 0 then inner s
  else
    match s with
    | c :: cs => if c = sep then inner cs else none
    | [] => none

/-- `Parser::read_ipv4_addr`: four decimal octets. -/
def readIpv4Addr (s : List Char) : Option (List UInt8 × List Char) := do
  let octet (i : Nat) (s : List Char) := readSeparator '.' i (readNumber 10 3 false 255) s
  let (a, s) ← octet 0 s
  let (b, s) ← octet 1 s
  let (c, s) ← octet 2 s
  let (d, s) ← octet 3 s
  return ([a, b, c, d].map UInt8.ofNat, s)

/-- The two bytes of an address group. -/
def groupBytes (g : Nat) : List UInt8 := [UInt8.ofNat (g / 256), UInt8.ofNat (g % 256)]

/-- `read_groups` of `read_ipv6_addr`, from group `i` on: the bytes of the groups
read, whether an embedded IPv4 address ended them, and the rest of the text. -/
def readGroups (limit : Nat) : Nat → Nat → List Char → List UInt8 × Bool × List Char
  | 0, _, s => ([], false, s)
  | n + 1, i, s =>
    -- an embedded IPv4 address needs room for two groups
    match if i + 1 < limit then readSeparator ':' i readIpv4Addr s else none with
    | some (v4, rest) => (v4, true, rest)
    | none =>
      match readSeparator ':' i (readNumber 16 4 true 65535) s with
      | some (g, rest) =>
        let (gs, ipv4, rest) := readGroups limit n (i + 1) rest
        (groupBytes g ++ gs, ipv4, rest)
      | none => ([], false, s)

/-- `Parser::read_ipv6_addr`: eight groups, or a front and a back part around
`::`, which stands for at least one zero group. -/
def readIpv6Addr (s : List Char) : Option (List UInt8 × List Char) :=
  let (head, headIpv4, rest) := readGroups 8 8 0 s
  if head.length = 16 then some (head, rest)
  else if headIpv4 then none
  else
    match rest with
    | ':' :: ':' :: rest =>
      let limit := 8 - (head.length / 2 + 1)
      let (tail, _, rest) := readGroups limit limit 0 rest
      some (head ++ List.replicate (16 - head.length - tail.length) 0 ++ tail, rest)
    | _ => none

/-- `Parser::parse_with`: the whole text must have been read. -/
def parseWith (inner : List Char → Option (List UInt8 × List Char)) (s : List Char) :
    Option (List UInt8) :=
  match inner s with
  | some (a, []) => some a
  | _ => none

/-- `Ipv4Addr::from_str`: the four octets. -/
def ipv4FromStr (s : List Char) : Option (List UInt8) :=
  if 15 < s.length then none else parseWith readIpv4Addr s

/-- `Ipv6Addr::from_str`: the sixteen octets. -/
def ipv6FromStr (s : List Char) : Option (List UInt8) := parseWith readIpv6Addr s

example : ipv6FromStr "2001:db8::1".toList =
    some [0x20, 1, 0x0d, 0xb8, 0, 0, 0, 0, 0, 0, 0, 0, 0, 0, 0, 1] := by decide

end Moatd
