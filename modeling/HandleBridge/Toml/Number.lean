/-
  HandleBridge.Toml.Number — integers and floating-point numbers.

  Integers are those of 64 bits with a sign. They are written in decimal without leading
  zeros, or with a letter for base 16, 8 or 2 and then without a sign. A number with a
  point or an exponent is a float; a positive one has to be below the point from which
  the 64-bit format rounds to infinity. Between two digits one underscore may stand.
-/
import HandleBridge.Text.Hex

namespace HandleBridge.Toml

/-- A floating-point number as it was written. -/
inductive Real where
  /-- The coefficient times ten to the exponent. -/
  | decimal (coefficient exponent : Int)
  | infinite (negative : Bool)
  | nan
  deriving DecidableEq, Repr

/-- The value of a digit in base `b`. -/
def digitIn? (b : Nat) (c : Char) : Option Nat := (Hex.digit? c).filter (· < b)

/-- Digits in base `b`, at least one, with single underscores between them. -/
def digits? (b : Nat) : List Char → Option (List Nat)
  | [] => none
  | [c] => (digitIn? b c).map ([·])
  | c :: '_' :: r => do return (← digitIn? b c) :: (← digits? b r)
  | c :: r => do return (← digitIn? b c) :: (← digits? b r)

def ofDigits (b : Nat) (ds : List Nat) : Nat := ds.foldl (fun n d => n * b + d) 0

/-- Decimal digits that do not start with a zero, unless the zero is all. -/
def wholeDigits? (cs : List Char) : Option (List Nat) :=
  (digits? 10 cs).filter fun ds => cs = ['0'] || ds.head? != some 0

/-- A sign, if there is one: whether it is a minus, and what follows. -/
def sign : List Char → Bool × List Char
  | '-' :: r => (true, r)
  | '+' :: r => (false, r)
  | r => (false, r)

def signed (negative : Bool) (n : Nat) : Int := if negative then -n else n

/-- Whether a number is one of 64 bits with a sign. -/
def fits (n : Int) : Bool := decide (Int64.minValue.toInt ≤ n ∧ n ≤ Int64.maxValue.toInt)

/-- Reads a whole text as an integer. -/
def integer? (cs : List Char) : Option Int :=
  let n := match cs with
    | '0' :: 'x' :: r => (digits? 16 r).map fun ds => (ofDigits 16 ds : Int)
    | '0' :: 'o' :: r => (digits? 8 r).map fun ds => (ofDigits 8 ds : Int)
    | '0' :: 'b' :: r => (digits? 2 r).map fun ds => (ofDigits 2 ds : Int)
    | _ =>
      let (negative, r) := sign cs
      (wholeDigits? r).map fun ds => signed negative (ofDigits 10 ds)
  n.filter fits

/-- Half a step above the greatest 64-bit float: from here on numbers round to infinity. -/
def overflowBound : Nat := Nat.pow 2 1024 - Nat.pow 2 970

/-- Whether the coefficient times ten to the exponent rounds to infinity. The number of
    digits settles it, except close to the bound. -/
def overflows (coefficient : Nat) (exponent : Int) : Bool :=
  let magnitude := (Nat.toDigits 10 coefficient).length + exponent
  if coefficient = 0 ∨ magnitude < 300 then false
  else if magnitude > 320 then true
  else match exponent with
    | .ofNat e => decide (overflowBound ≤ coefficient * Nat.pow 10 e)
    | .negSucc e => decide (overflowBound * Nat.pow 10 (e + 1) ≤ coefficient)

def isExponentMark (c : Char) : Bool := c = 'e' || c = 'E'

/-- Reads an exponent with its mark; nothing written is the exponent zero. -/
def exponent? : List Char → Option Int
  | [] => some 0
  | _ :: r =>
    let (negative, r) := sign r
    (digits? 10 r).map fun ds => signed negative (ofDigits 10 ds)

/-- Reads a fraction with its point; nothing written is a fraction without digits. -/
def fraction? : List Char → Option (List Nat)
  | [] => some []
  | _ :: r => digits? 10 r

/-- Reads a whole text as a float in decimal notation. -/
def decimal? (cs : List Char) : Option Real := do
  let (negative, cs) := sign cs
  let mantissa := cs.takeWhile (!isExponentMark ·)
  let exponent := cs.dropWhile (!isExponentMark ·)
  let whole := mantissa.takeWhile (· ≠ '.')
  let fraction := mantissa.dropWhile (· ≠ '.')
  if fraction.isEmpty && exponent.isEmpty then none
  let ds ← wholeDigits? whole
  let fs ← fraction? fraction
  let e ← exponent? exponent
  let coefficient := ofDigits 10 (ds ++ fs)
  let e := e - fs.length
  if !negative && overflows coefficient e then none
  else return .decimal (signed negative coefficient) e

/-- Reads a whole text as a float. -/
def real? (cs : List Char) : Option Real :=
  match sign cs with
  | (negative, ['i', 'n', 'f']) => some (.infinite negative)
  | (_, ['n', 'a', 'n']) => some .nan
  | _ => decimal? cs

end HandleBridge.Toml
