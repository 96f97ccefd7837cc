/-
  HandleBridge.Toml.Moment — dates and times of day.

  A moment is a date, a time of day, or a date with a time and perhaps its offset from
  universal time. A date has to be in the calendar; a minute may have a leap second.
-/

namespace HandleBridge.Toml

/-- The number that decimal digits stand for. -/
def number? (cs : List Char) : Option Nat :=
  if !cs.isEmpty && cs.all Char.isDigit then
    some (cs.foldl (fun n c => n * 10 + (c.toNat - '0'.toNat)) 0)
  else none

def isLeapYear (y : Nat) : Bool := y % 4 == 0 && (y % 100 != 0 || y % 400 == 0)

def daysIn (y m : Nat) : Nat :=
  if m = 2 then (if isLeapYear y then 29 else 28)
  else if m = 4 ∨ m = 6 ∨ m = 9 ∨ m = 11 then 30
  else 31

/-- Whether a text is a date: four digits, two and two, with dashes between them. -/
def isDate : List Char → Bool
  | [y1, y2, y3, y4, '-', m1, m2, '-', d1, d2] =>
    match number? [y1, y2, y3, y4], number? [m1, m2], number? [d1, d2] with
    | some y, some m, some d => decide (1 ≤ m ∧ m ≤ 12 ∧ 1 ≤ d ∧ d ≤ daysIn y m)
    | _, _, _ => false
  | _ => false

/-- Whether digits are a number of at most `bound`. -/
def isUpTo (bound : Nat) (cs : List Char) : Bool :=
  match number? cs with
  | some n => decide (n ≤ bound)
  | none => false

/-- Nothing, or a point and digits. -/
def isFraction : List Char → Bool
  | [] => true
  | '.' :: r => (number? r).isSome
  | _ => false

/-- Whether a text is a time of day, with a fraction of a second if it has one. -/
def isTime : List Char → Bool
  | h1 :: h2 :: ':' :: m1 :: m2 :: ':' :: s1 :: s2 :: r =>
    isUpTo 23 [h1, h2] && isUpTo 59 [m1, m2] && isUpTo 60 [s1, s2] && isFraction r
  | _ => false

/-- Whether a text is an offset from universal time, or empty. -/
def isOffset : List Char → Bool
  | [] => true
  | ['Z'] | ['z'] => true
  | [s, h1, h2, ':', m1, m2] =>
    (s = '+' || s = '-') && isUpTo 23 [h1, h2] && isUpTo 59 [m1, m2]
  | _ => false

/-- The characters with which an offset starts. -/
def startsOffset (c : Char) : Bool := c = 'Z' || c = 'z' || c = '+' || c = '-'

/-- Whether a text is a time of day with or without an offset. -/
def isOffsetTime (cs : List Char) : Bool :=
  isTime (cs.takeWhile (!startsOffset ·)) && isOffset (cs.dropWhile (!startsOffset ·))

/-- Whether a text is a date and a time with a `T` between them. -/
def isDateTime (cs : List Char) : Bool :=
  match cs.drop 10 with
  | t :: time => (t = 'T' || t = 't') && isDate (cs.take 10) && isOffsetTime time
  | [] => false

end HandleBridge.Toml
