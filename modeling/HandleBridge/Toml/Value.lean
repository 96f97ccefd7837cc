/-
  HandleBridge.Toml.Value — values, tables, and the paths by which tables are reached.

  A table remembers how it came to be, since that decides what may still be added to
  it: an inline table is complete where it stands, a table under a header may be given
  once, and one that a path has made along the way may be filled in later. `update?`
  follows a path and changes the table at its end; a `Route` says which tables a path
  may go through, and how it makes those that are missing.
-/
import HandleBridge.Toml.Number

namespace HandleBridge.Toml

/-- How a table came to be. -/
inductive Origin where
  /-- Written between braces. -/
  | inline
  /-- Made by a dotted key between braces. -/
  | inlineDotted
  /-- Made by a dotted key of a line. -/
  | dotted
  /-- Made by a header as a step on its way. -/
  | implicit
  /-- Opened by a header of its own. -/
  | header
  deriving DecidableEq, Repr

inductive Value where
  | boolean (b : Bool)
  | integer (n : Int)
  | real (x : Real)
  | string (s : String)
  /-- A date, a time, or both, as written. -/
  | moment (text : String)
  | array (items : List Value)
  | table (origin : Origin) (entries : List (String × Value))
  /-- Tables that are opened one by one with headers of their own. -/
  | tables (rows : List (List (String × Value)))

/-- The contents of a table, in order. -/
abbrev Entries := List (String × Value)

namespace Entries

/-- Sets the value at a key, in the place that it has or else at the end. -/
def set (k : String) (v : Value) : Entries → Entries
  | [] => [(k, v)]
  | (k', v') :: es => if k' = k then (k, v) :: es else (k', v') :: set k v es

end Entries

/-- What a path is written in: a dotted key between braces or of a line, or a header. -/
inductive Route where
  | inline
  | line
  | header
  deriving DecidableEq, Repr

namespace Route

/-- The origin of the tables that the path makes. -/
def makes : Route → Origin
  | .inline => .inlineDotted
  | .line => .dotted
  | .header => .implicit

/-- Whether the path may go through a table of that origin. -/
def enters : Route → Origin → Bool
  | .inline, o => o = .inlineDotted
  | .line, o => o = .dotted || o = .implicit
  | .header, o => o = .dotted || o = .implicit || o = .header

end Route

/-- Changes the table at the end of a path; `f` is given how it came to be and what it
    holds. A path may go through the last of several tables under one key. -/
def update? (route : Route) (f : Origin → Entries → Option Entries) :
    List String → Origin → Entries → Option Entries
  | [], origin, es => f origin es
  | k :: ks, _, es =>
    match es.lookup k with
    | none => (update? route f ks route.makes []).map fun sub => es.set k (.table route.makes sub)
    | some (.table origin sub) =>
      if route.enters origin then
        (update? route f ks origin sub).map fun sub => es.set k (.table origin sub)
      else none
    | some (.tables rows) =>
      match rows.getLast? with
      | some row =>
        (update? route f ks .header row).map fun row => es.set k (.tables (rows.dropLast ++ [row]))
      | none => none
    | some _ => none

/-- Adds a key to a table that does not have it. A path that ends in a table not made by
    dotted keys adds nothing there. -/
def add (byPath : Bool) (k : String) (v : Value) (origin : Origin) (es : Entries) : Option Entries :=
  if byPath && origin != .dotted && origin != .inlineDotted then none
  else if (es.lookup k).isSome then none
  else some (es ++ [(k, v)])

/-- Adds what a line or a part of an inline table says. -/
def put? (route : Route) (origin : Origin) (path : List String) (k : String) (v : Value) (es : Entries) :
    Option Entries :=
  update? route (add (!path.isEmpty) k v) path origin es

end HandleBridge.Toml
