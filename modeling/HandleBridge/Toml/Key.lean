/-
  HandleBridge.Toml.Key — keys, dotted keys, and how a key is written.

  A key is bare (letters, digits, dash, underscore) or a string on one line. Keys with
  dots between them name a path through tables. A key is written in the plainest form
  that it has: bare, then a basic string without escapes, then a literal string.
-/
import HandleBridge.Toml.Strings

namespace HandleBridge.Toml

/-- Reads one key. -/
def key? : List Char → Read String
  | '"' :: r => (basic? r).map fun (k, r) => (String.ofList k, r)
  | '\'' :: r => (literal? r).map fun (k, r) => (String.ofList k, r)
  | cs =>
    let k := cs.takeWhile isBare
    if k.isEmpty then none else some (String.ofList k, cs.dropWhile isBare)

/-- A dotted key has fewer parts than this. -/
def maxParts : Nat := 80

/-- Reads a dotted key of at most `n` parts, and the blanks around its parts. -/
def keysUpTo : Nat → List Char → Read (List String)
  | 0, _ => none
  | n + 1, cs =>
    match key? (skipBlanks cs) with
    | none => none
    | some (k, r) =>
      match skipBlanks r with
      | '.' :: r => (keysUpTo n r).map fun (ks, r) => (k :: ks, r)
      | r => some ([k], r)

def keys? (cs : List Char) : Read (List String) := keysUpTo (maxParts - 1) cs

/-- The last part of a dotted key, and those before it. -/
def splitLast? (ks : List String) : Option (List String × String) :=
  ks.getLast?.map fun k => (ks.dropLast, k)

/-! ## Writing -/

/-- Whether a key needs no quotes. -/
def isBareKey (k : List Char) : Bool := !k.isEmpty && k.all isBare

/-- A key in the plainest form that it has. -/
def keyText (k : List Char) : List Char :=
  if isBareKey k then k
  else if k.all fun c => isPlain c && c != '"' && c != '\\' then basicOf k
  else if k.all fun c => isPlain c && c != '\'' then literalOf k
  else basicOf k

end HandleBridge.Toml
