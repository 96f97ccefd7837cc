/-
  HandleBridge.FileTree — files in directories, found by their paths.

  A path is followed name by name, and every name but the last has to be that of a
  directory. `..` leads back to the directory above, so `a/../b` is `b`, but only where
  there is a directory `a`. A file that is put into the tree makes the directories on its
  path, also those that the path leaves again.
-/
import HandleBridge.Config.Load

namespace HandleBridge

/-- The names on the way to a place from the home directory. A way that leaves the home
directory begins with `..`, one from the top of the tree with `/`. -/
abbrev Place := List String

namespace Place

def top : Place := ["/"]

/-- The directory above. The top has none. -/
def up (place : Place) : Place :=
  if place = top then place
  else if place.all (· = "..") then place ++ [".."]
  else place.dropLast

/-- Where a name leads. -/
def step (place : Place) (name : String) : Place :=
  if name = "" ∨ name = "." then place
  else if name = ".." then place.up
  else place ++ [name]

end Place

structure FileTree where
  /-- How the home directory is called in paths that do not start in it; empty if it has
  no such name. -/
  home : String
  directories : List Place
  /-- What was put last comes first. A file has a text if its bytes are one. -/
  files : List (Place × Option String)

namespace FileTree

/-- The home directory, those above it and the top are always there. -/
def isDirectory (t : FileTree) (place : Place) : Bool :=
  place = Place.top || place.all (· = "..") || t.directories.contains place

/-- The place from which a path is followed, and the names in it. -/
def start (t : FileTree) (path : String) : Place × List String :=
  let inside := t.home ++ "/"
  if !t.home.isEmpty && path.startsWith inside then
    ([], (path.drop inside.length).toString.splitOn "/")
  else if path.startsWith "/" then (Place.top, path.splitOn "/")
  else ([], path.splitOn "/")

/-! ## Putting -/

/-- Makes the directories on a way, unless a file is in it. -/
def makeWay (t : FileTree) (place : Place) : List String → Option (FileTree × Place)
  | [] => some (t, place)
  | name :: rest =>
    let next := place.step name
    if t.isDirectory next then t.makeWay next rest
    else if (t.files.lookup next).isSome then none
    else makeWay { t with directories := next :: t.directories } next rest

/-- Puts a file at a path. It replaces one that is there; a directory stays. -/
def put (t : FileTree) (path : String) (text : Option String) : FileTree :=
  let (place, names) := t.start path
  match t.makeWay place names.dropLast with
  | none => t
  | some (t, place) =>
    let place := place.step (names.getLastD "")
    if t.isDirectory place then t else { t with files := (place, text) :: t.files }

def ofFiles (home : String) (files : List (String × Option String)) : FileTree :=
  files.foldl (fun t (path, text) => t.put path text) ⟨home, [], []⟩

/-! ## Finding -/

/-- What is at a place. -/
def found (t : FileTree) (place : Place) : Found :=
  match t.files.lookup place with
  | some (some s) => .text s
  | some none => .unreadable
  | none => if t.isDirectory place then .unreadable else .nothing

/-- Follows names from a place; what is not followed by a name has to be a directory. -/
def follow (t : FileTree) (place : Place) : List String → Found
  | [] => t.found place
  | name :: rest => if t.isDirectory place then t.follow (place.step name) rest else .nothing

/-- What is at a path. At an empty one there is nothing. -/
def look (t : FileTree) (path : String) : Found :=
  if path.isEmpty then .nothing
  else
    let (place, names) := t.start path
    t.follow place names

end FileTree

end HandleBridge
