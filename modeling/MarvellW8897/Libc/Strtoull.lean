import Mathlib.Data.List.Basic

/-!
# `strtoull` with base 0

The conversion of the C standard, for 64-bit `unsigned long long` and the "C" locale. A text is the
list of its characters before the NUL, so `*endptr` is the NUL exactly if nothing is left.
-/

namespace Libc

/-- The code of a character. -/
def ascii (c : Char) : UInt8 := UInt8.ofNat c.toNat

/-- `isspace`. -/
def isSpace (c : UInt8) : Bool := c == ascii ' ' || (ascii '\t' ≤ c && c ≤ ascii '\r')

/-- The value of a digit or letter, as a digit of a base up to 36. -/
def digitValue (c : UInt8) : Option Nat :=
  if ascii '0' ≤ c ∧ c ≤ ascii '9' then some (c - ascii '0').toNat
  else if ascii 'a' ≤ c ∧ c ≤ ascii 'z' then some ((c - ascii 'a').toNat + 10)
  else if ascii 'A' ≤ c ∧ c ≤ ascii 'Z' then some ((c - ascii 'A').toNat + 10)
  else none

/-- The value of `c`, if it is a digit of `base`. -/
def digit? (base : Nat) (c : UInt8) : Option Nat := (digitValue c).filter (fun d => d < base)

/-- The number that the digits at the front of a text denote, after `acc`, and what is left. -/
def readDigits (base : Nat) (acc : Nat) : List UInt8 → Nat × List UInt8
  | [] => (acc, [])
  | c :: s =>
    match digit? base c with
    | some d => readDigits base (acc * base + d) s
    | none => (acc, c :: s)

/-- The text starts with `0x` or `0X`, and a hexadecimal digit follows. -/
def startsHex : List UInt8 → Bool
  | z :: x :: d :: _ => z == ascii '0' && (x == ascii 'x' || x == ascii 'X') && (digit? 16 d).isSome
  | _ => false

/-- The base that the front of a numeral selects, and where its digits start. -/
def detectBase (s : List UInt8) : Nat × List UInt8 :=
  if startsHex s then (16, s.drop 2)
  else if s.head? = some (ascii '0') then (8, s)
  else (10, s)

/-- The optional sign: whether it is a minus, and what follows it. -/
def readSign : List UInt8 → Bool × List UInt8
  | [] => (false, [])
  | c :: s =>
    if c = ascii '-' then (true, s)
    else if c = ascii '+' then (false, s)
    else (false, c :: s)

def kUllongMax : Nat := UInt64.size - 1

/-- The value, the text from `*endptr` on, and whether `errno` is set to `ERANGE`. -/
structure Conversion where
  value : UInt64
  rest : List UInt8
  erange : Bool
deriving DecidableEq, Repr

def strtoull (text : List UInt8) : Conversion :=
  let (negative, s) := readSign (text.dropWhile isSpace)
  let (base, digits) := detectBase s
  let (n, rest) := readDigits base 0 digits
  if rest.length = digits.length then
    -- not one digit: there is no conversion, and `*endptr` is the text itself
    { value := 0, rest := text, erange := false }
  else if n > kUllongMax then { value := UInt64.ofNat kUllongMax, rest, erange := true }
  else { value := if negative then -UInt64.ofNat n else UInt64.ofNat n, rest, erange := false }

end Libc
