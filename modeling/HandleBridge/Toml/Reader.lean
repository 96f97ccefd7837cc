/-
  HandleBridge.Toml.Reader — reading a value.

  Values without brackets are read by their whole text. Arrays and inline tables nest
  less than eighty deep; an inline table is on one line.
-/
import HandleBridge.Toml.Key
import HandleBridge.Toml.Moment
import HandleBridge.Toml.Value

namespace HandleBridge.Toml

/-- The characters of values that are written without quotes or brackets. -/
def isWordChar (c : Char) : Bool :=
  c.isAlphanum || c = '+' || c = '-' || c = '_' || c = '.' || c = ':'

/-- The value that a word stands for. -/
def word? (cs : List Char) : Option Value :=
  if cs = ['t', 'r', 'u', 'e'] then some (.boolean true)
  else if cs = ['f', 'a', 'l', 's', 'e'] then some (.boolean false)
  else if isDate cs || isTime cs || isDateTime cs then some (.moment (String.ofList cs))
  else match integer? cs with
    | some n => some (.integer n)
    | none => (real? cs).map .real

/-- After a date, a time may follow behind one space. -/
def timeAfter? (date r : List Char) : Read Value :=
  match r with
  | ' ' :: r =>
    let time := r.takeWhile isWordChar
    if isDate date && isOffsetTime time then
      some (.moment (String.ofList (date ++ ' ' :: time)), r.dropWhile isWordChar)
    else none
  | _ => none

/-- Reads a value without brackets. -/
def simple? (cs : List Char) : Read Value :=
  match cs with
  | '"' :: _ | '\'' :: _ => (string? cs).map fun (s, r) => (.string (String.ofList s), r)
  | _ =>
    let w := cs.takeWhile isWordChar
    let r := cs.dropWhile isWordChar
    match timeAfter? w r with
    | some v => some v
    | none => (word? w).map (·, r)

/-- Reads the elements of an array up to its closing bracket; `n` bounds their number. -/
def elements (value : List Char → Read Value) : Nat → List Char → Option (List Value × List Char)
  | 0, _ => none
  | n + 1, cs =>
    match skipGap cs with
    | ']' :: r => some ([], r)
    | cs => do
      let (v, r) ← value cs
      match skipGap r with
      | ',' :: r =>
        let (vs, r) ← elements value n r
        return (v :: vs, r)
      | ']' :: r => return ([v], r)
      | _ => none

/-- A key, the sign after it, and the value that it is given. -/
def assignment? (value : List Char → Read Value) (cs : List Char) :
    Option ((List String × String × Value) × List Char) := do
  let (ks, r) ← keys? cs
  let (path, k) ← splitLast? ks
  match r with
  | '=' :: r =>
    let (v, r) ← value (skipBlanks r)
    return ((path, k, v), r)
  | _ => none

/-- Reads the parts of an inline table up to its closing brace, after those in `es`. -/
def parts (value : List Char → Read Value) :
    Nat → Entries → List Char → Option (Entries × List Char)
  | 0, _, _ => none
  | n + 1, es, cs => do
    let ((path, k, v), r) ← assignment? value cs
    let es ← put? .inline .inline path k v es
    match skipBlanks r with
    | ',' :: r => parts value n es r
    | '\x7d' :: r => return (es, r)
    | _ => none

/-- How deep arrays and inline tables nest. -/
def maxDepth : Nat := 80

/-- Reads a value in which brackets nest at most `n` deep. -/
def valueWithin : Nat → List Char → Read Value
  | 0, '[' :: _ => none
  | 0, '\x7b' :: _ => none
  | n + 1, '[' :: r => (elements (valueWithin n) (r.length + 1) r).map fun (vs, r) => (.array vs, r)
  | n + 1, '\x7b' :: r =>
    match skipBlanks r with
    | '\x7d' :: r => some (.table .inline [], r)
    | _ => (parts (valueWithin n) (r.length + 1) [] r).map fun (es, r) => (.table .inline es, r)
  | _, cs => simple? cs

def value? (cs : List Char) : Read Value := valueWithin (maxDepth - 1) cs

end HandleBridge.Toml
