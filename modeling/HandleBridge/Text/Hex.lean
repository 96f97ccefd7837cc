/-
  HandleBridge.Text.Hex — hexadecimal numerals.

  Written form: lower-case digits, no padding. Either case is read.
-/

namespace HandleBridge.Hex

/-- The value of one hexadecimal digit of either case. -/
def digit? (c : Char) : Option Nat :=
  if '0' ≤ c ∧ c ≤ '9' then some (c.toNat - '0'.toNat)
  else if 'a' ≤ c ∧ c ≤ 'f' then some (c.toNat - 'a'.toNat + 10)
  else if 'A' ≤ c ∧ c ≤ 'F' then some (c.toNat - 'A'.toNat + 10)
  else none

/-- The number whose digits are those of `acc` followed by the given ones. -/
def extend? (acc : Nat) : List Char → Option Nat
  | [] => some acc
  | c :: cs =>
    match digit? c with
    | some d => extend? (acc * 16 + d) cs
    | none => none

/-- Reads one or more digits. -/
def value? : List Char → Option Nat
  | [] => none
  | cs => extend? 0 cs

def render (n : Nat) : String := String.ofList (Nat.toDigits 16 n)

def upperDigit (d : Nat) : Char := if d < 10 then Char.ofNat (48 + d) else Char.ofNat (55 + d)

/-- Four upper-case digits, for numbers below `16 ^ 4`. -/
def upper4 (n : Nat) : List Char :=
  [upperDigit (n / 4096 % 16), upperDigit (n / 256 % 16), upperDigit (n / 16 % 16), upperDigit (n % 16)]

end HandleBridge.Hex
