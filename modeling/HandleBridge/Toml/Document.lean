/-
  HandleBridge.Toml.Document — reading a whole text.

  The lines of a text add to the table that is open. A header closes it, which puts it
  in its place among the tables, and opens the next one: a table that is new or has
  only been passed through, or one more of several tables under one key.
-/
import HandleBridge.Toml.Reader

namespace HandleBridge.Toml

/-- Where the open table belongs. -/
inductive Heading where
  | document
  | table (path : List String) (key : String)
  | row (path : List String) (key : String)
  deriving DecidableEq, Repr

/-- The names on the way to the table that holds the open one. -/
def Heading.path : Heading → List String
  | .document => []
  | .table path _ | .row path _ => path

/-- The tables that have been closed, and the one that is open. -/
structure Draft where
  closed : Entries
  heading : Heading
  current : Entries

namespace Draft

def start : Draft := ⟨[], .document, []⟩

/-- What a key holds once one more table has been put there. -/
def addRow (k : String) (row : Entries) (es : Entries) : Option Entries :=
  match es.lookup k with
  | none => some (es.set k (.tables [row]))
  | some (.tables rows) => some (es.set k (.tables (rows ++ [row])))
  | some _ => none

/-- All tables, with the open one in its place. -/
def close (s : Draft) : Option Entries :=
  match s.heading with
  | .document => some s.current
  | .table path k =>
    update? .header (fun _ es => some (es.set k (.table .header s.current))) path .header s.closed
  | .row path k => update? .header (fun _ => addRow k s.current) path .header s.closed

/-- What a header finds in the table that it belongs to: the contents with which its own
    table is opened. -/
def opened? (heading : Heading) (es : Entries) : Option Entries :=
  match heading with
  | .document => some []
  | .table _ k =>
    match es.lookup k with
    | none => some []
    | some (.table .implicit sub) => some sub
    | some _ => none
  | .row _ k =>
    match es.lookup k with
    | none => some []
    | some (.tables _) => some []
    | some _ => none

/-- The contents of the table at the end of a header's path. -/
def find? : List String → Entries → Option Entries
  | [], es => some es
  | k :: ks, es =>
    match es.lookup k with
    | none => find? ks []
    | some (.table origin sub) => if Route.header.enters origin then find? ks sub else none
    | some (.tables rows) =>
      match rows.getLast? with
      | some row => find? ks row
      | none => none
    | some _ => none

/-- Closes the open table and opens the one of a header. -/
def turnTo (s : Draft) (heading : Heading) : Option Draft := do
  let closed ← s.close
  let parent ← find? heading.path closed
  let current ← opened? heading parent
  return ⟨closed, heading, current⟩

/-- Adds the value that a line gives to a key. -/
def assign (s : Draft) (path : List String) (k : String) (v : Value) : Option Draft :=
  (put? .line .header path k v s.current).map fun current => { s with current }

end Draft

/-- Reads a header after its opening bracket or brackets, with its closing ones. -/
def header? : List Char → Option (Heading × List Char)
  | '[' :: cs => do
    let (ks, r) ← keys? cs
    let (path, k) ← splitLast? ks
    match r with
    | ']' :: ']' :: r => return (.row path k, r)
    | _ => none
  | cs => do
    let (ks, r) ← keys? cs
    let (path, k) ← splitLast? ks
    match r with
    | ']' :: r => return (.table path k, r)
    | _ => none

/-- Reads one line that is not blank. -/
def line? (s : Draft) : List Char → Option (Draft × List Char)
  | '#' :: r => (lineEnd? (r.dropWhile isPlain)).map (s, ·)
  | '[' :: r => do
    let (heading, r) ← header? r
    let r ← endLine? r
    return (← s.turnTo heading, r)
  | cs =>
    match newline? cs with
    | some r => some (s, r)
    | none => do
      let ((path, k, v), r) ← assignment? value? cs
      let r ← endLine? r
      return (← s.assign path k v, r)

/-- Reads lines to the end of the text; `n` bounds their number. -/
def lines : Nat → Draft → List Char → Option Draft
  | 0, _, _ => none
  | n + 1, s, cs =>
    match skipBlanks cs with
    | [] => some s
    | cs => do
      let (s, r) ← line? s cs
      lines n s r

/-- A text may start with a byte order mark. -/
def skipMark : List Char → List Char
  | '\ufeff' :: r => r
  | cs => cs

/-- The tables of a text, if it is a TOML text. -/
def parse? (cs : List Char) : Option Entries := do
  let cs := skipMark cs
  let s ← lines (cs.length + 1) .start cs
  s.close

end HandleBridge.Toml
