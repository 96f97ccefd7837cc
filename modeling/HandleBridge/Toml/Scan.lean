/-
  HandleBridge.Toml.Scan — blanks, comments and line ends of a TOML text.

  Reading goes over a list of characters: a reader takes what it reads from the front
  and gives the rest, or nothing when what it wants is not there.
-/

namespace HandleBridge.Toml

/-- What a reader gives: what it has read, and the rest of the text. -/
abbrev Read (α : Type) := Option (α × List Char)

/-- Space and tab. -/
def isBlank (c : Char) : Bool := c = ' ' || c = '\t'

/-- The characters that stand for themselves: all but the controls; a tab is one of them. -/
def isPlain (c : Char) : Bool := c = '\t' || (decide (0x20 ≤ c.toNat) && c.toNat != 0x7f)

/-- The characters of a key that is written without quotes. -/
def isBare (c : Char) : Bool := c.isAlphanum || c = '-' || c = '_'

def skipBlanks (cs : List Char) : List Char := cs.dropWhile isBlank

/-- Drops a line end, of either form. -/
def newline? : List Char → Option (List Char)
  | '\n' :: r => some r
  | '\r' :: '\n' :: r => some r
  | _ => none

/-- A line ends at a line end and at the end of the text. -/
def lineEnd? : List Char → Option (List Char)
  | [] => some []
  | cs => newline? cs

def skipComment : List Char → List Char
  | '#' :: r => r.dropWhile isPlain
  | cs => cs

/-- What may follow on a line that is complete: blanks and a comment. -/
def endLine? (cs : List Char) : Option (List Char) := lineEnd? (skipComment (skipBlanks cs))

/-- Blanks and line ends, with the comments that end at them. -/
def skipGapFrom (inComment : Bool) : List Char → List Char
  | '\r' :: '\n' :: r => skipGapFrom false r
  | c :: r =>
    if inComment && isPlain c then skipGapFrom true r
    else if isBlank c || c = '\n' then skipGapFrom false r
    else if c = '#' then skipGapFrom true r
    else c :: r
  | [] => []

/-- What may stand between the elements of an array. -/
def skipGap (cs : List Char) : List Char := skipGapFrom false cs

/-- Blanks and line ends. -/
def skipLines : List Char → List Char
  | '\r' :: '\n' :: r => skipLines r
  | c :: r => if isBlank c || c = '\n' then skipLines r else c :: r
  | [] => []

theorem length_dropWhile_le {α : Type} (p : α → Bool) (as : List α) :
    (as.dropWhile p).length ≤ as.length := (List.dropWhile_sublist p).length_le

theorem length_skipLines_le (cs : List Char) : (skipLines cs).length ≤ cs.length := by
  fun_induction skipLines cs with
  | case1 r ih => simp only [List.length_cons]; omega
  | case2 c r _ h ih => simp only [List.length_cons]; omega
  | case3 => exact Nat.le_refl _
  | case4 => exact Nat.le_refl _

end HandleBridge.Toml
