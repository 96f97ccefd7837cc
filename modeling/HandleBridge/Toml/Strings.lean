/-
  HandleBridge.Toml.Strings — the four written forms of a string.

  A basic string stands between double quotes and knows escapes, a literal one between
  single quotes and knows none; each has a form between triple quotes that may go over
  several lines. There, up to two quotes that are no part of the closing ones belong to
  the text, also right before them.
-/
import HandleBridge.Text.Hex
import HandleBridge.Toml.Scan

namespace HandleBridge.Toml

/-- The character with a code point, if there is one. -/
def ofCodePoint? (n : Nat) : Option Char := if h : n.isValidChar then some (Char.ofNatAux n h) else none

/-- Reads a code point of `n` hexadecimal digits. -/
def codePoint? (n : Nat) (cs : List Char) : Read Char :=
  let digits := cs.take n
  if digits.length = n then
    (Hex.value? digits).bind ofCodePoint? |>.map fun c => (c, cs.drop n)
  else none

/-- Reads an escape whose backslash has been read. -/
def escape? : List Char → Read Char
  | 'b' :: r => some ('\x08', r)
  | 't' :: r => some ('\t', r)
  | 'n' :: r => some ('\n', r)
  | 'f' :: r => some ('\x0c', r)
  | 'r' :: r => some ('\r', r)
  | '"' :: r => some ('"', r)
  | '\\' :: r => some ('\\', r)
  | 'u' :: r => codePoint? 4 r
  | 'U' :: r => codePoint? 8 r
  | _ => none

theorem length_codePoint? {n : Nat} {cs r : List Char} {c : Char} (h : codePoint? n cs = some (c, r)) :
    r.length ≤ cs.length := by
  simp only [codePoint?] at h
  split at h
  · obtain ⟨d, -, hd⟩ := Option.map_eq_some_iff.1 h
    simp only [Prod.mk.injEq] at hd
    rw [← hd.2, List.length_drop]
    omega
  · simp at h

theorem length_escape? {cs r : List Char} {c : Char} (h : escape? cs = some (c, r)) :
    r.length < cs.length := by
  unfold escape? at h
  split at h
  case h_8 => exact Nat.lt_succ_of_le (length_codePoint? h)
  case h_9 => exact Nat.lt_succ_of_le (length_codePoint? h)
  case h_10 => simp at h
  all_goals
    simp only [Option.some.injEq, Prod.mk.injEq] at h
    simp [← h.2]

/-- Puts a character in front of what has been read. -/
def Read.cons (c : Char) : Read (List Char) → Read (List Char)
  | some (cs, r) => some (c :: cs, r)
  | none => none

/-- Reads a basic string up to its closing quote. -/
def basic? (cs : List Char) : Read (List Char) :=
  match cs with
  | [] => none
  | '"' :: r => some ([], r)
  | '\\' :: r =>
    match h : escape? r with
    | some (c, r') =>
      have : r'.length < r.length := length_escape? h
      Read.cons c (basic? r')
    | none => none
  | c :: r => if isPlain c then Read.cons c (basic? r) else none
termination_by cs.length

/-- Reads a literal string up to its closing quote. -/
def literal? : List Char → Read (List Char)
  | [] => none
  | '\'' :: r => some ([], r)
  | c :: r => if isPlain c then Read.cons c (literal? r) else none

/-- The quotes of the text that come right before three closing ones. -/
def closing (quote : Char) : List Char → List Char × List Char
  | a :: b :: r =>
    if a = quote then if b = quote then ([a, b], r) else ([a], b :: r) else ([], a :: b :: r)
  | [a] => if a = quote then ([a], []) else ([], [a])
  | [] => ([], [])

/-- A backslash at the end of a line: what is left after the blanks that it removes. -/
def continuation? (cs : List Char) : Option (List Char) := (newline? (skipBlanks cs)).map skipLines

theorem length_newline? {cs r : List Char} (h : newline? cs = some r) : r.length < cs.length := by
  unfold newline? at h
  split at h
  · rw [← Option.some.inj h]; simp only [List.length_cons]; omega
  · rw [← Option.some.inj h]; simp only [List.length_cons]; omega
  · simp at h

theorem length_continuation? {cs r : List Char} (h : continuation? cs = some r) :
    r.length < cs.length := by
  obtain ⟨l, hl, rfl⟩ := Option.map_eq_some_iff.1 h
  have h1 := length_newline? hl
  have h2 := length_skipLines_le l
  have h3 := length_dropWhile_le isBlank cs
  simp only [skipBlanks] at h1
  omega

/-- Reads a basic string of several lines up to its closing quotes. -/
def basicLines? (cs : List Char) : Read (List Char) :=
  match cs with
  | [] => none
  | '"' :: '"' :: '"' :: r => some (closing '"' r)
  | '\\' :: r =>
    match h : continuation? r with
    | some r' =>
      have : r'.length < r.length := length_continuation? h
      basicLines? r'
    | none =>
      match h : escape? r with
      | some (c, r') =>
        have : r'.length < r.length := length_escape? h
        Read.cons c (basicLines? r')
      | none => none
  | '\r' :: '\n' :: r => Read.cons '\n' (basicLines? r)
  | c :: r => if isPlain c || c = '\n' then Read.cons c (basicLines? r) else none
termination_by cs.length

/-- Reads a literal string of several lines up to its closing quotes. -/
def literalLines? : List Char → Read (List Char)
  | [] => none
  | '\'' :: '\'' :: '\'' :: r => some (closing '\'' r)
  | '\r' :: '\n' :: r => Read.cons '\n' (literalLines? r)
  | c :: r => if isPlain c || c = '\n' then Read.cons c (literalLines? r) else none

/-- A line end right after the opening quotes is no part of the text. -/
def skipFirstNewline (cs : List Char) : List Char := (newline? cs).getD cs

/-- Reads a string of any form. -/
def string? : List Char → Read (List Char)
  | '"' :: '"' :: '"' :: r => basicLines? (skipFirstNewline r)
  | '"' :: r => basic? r
  | '\'' :: '\'' :: '\'' :: r => literalLines? (skipFirstNewline r)
  | '\'' :: r => literal? r
  | _ => none

/-! ## Writing -/

/-- A character of a basic string as it is written. -/
def escaped (c : Char) : List Char :=
  if c = '\x08' then ['\\', 'b']
  else if c = '\t' then ['\\', 't']
  else if c = '\n' then ['\\', 'n']
  else if c = '\x0c' then ['\\', 'f']
  else if c = '\r' then ['\\', 'r']
  else if c = '"' then ['\\', '"']
  else if c = '\\' then ['\\', '\\']
  else if isPlain c then [c]
  else '\\' :: 'u' :: Hex.upper4 c.toNat

/-- A string in its basic form, which every string has. -/
def basicOf (cs : List Char) : List Char := '"' :: cs.flatMap escaped ++ ['"']

/-- A string in its literal form, for plain characters other than the single quote. -/
def literalOf (cs : List Char) : List Char := '\'' :: cs ++ ['\'']

end HandleBridge.Toml
