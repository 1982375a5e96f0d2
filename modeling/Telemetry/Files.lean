import Telemetry.Table
import Telemetry.Text.Blank

/-!
# Files

A tree of files is given by what stands at each place, and a place by the names that
lead to it.  A path is followed name by name; two points lead back, and empty names
and single points lead nowhere.  Only a directory leads on.
-/

namespace Telemetry

/-- Why a file cannot be used. -/
inductive FileError where
  /-- There is no such file. -/
  | notFound
  /-- It cannot be opened. -/
  | noDevice
  /-- Its use is not permitted. -/
  | permissionDenied
  /-- There is a file in the place of a directory. -/
  | fileExists
  /-- Something on the way to it is a file. -/
  | notADirectory
  /-- It is a directory. -/
  | isDirectory
  /-- A name on the way to it is too long. -/
  | nameTooLong
  /-- A name on the way to it holds the character NUL. -/
  | nulInName
  /-- It does not hold UTF-8. -/
  | invalidUtf8
  deriving DecidableEq

/-- The error in words. -/
def FileError.message : FileError → String
  | .notFound => "No such file or directory (os error 2)"
  | .noDevice => "No such device or address (os error 6)"
  | .permissionDenied => "Permission denied (os error 13)"
  | .fileExists => "File exists (os error 17)"
  | .notADirectory => "Not a directory (os error 20)"
  | .isDirectory => "Is a directory (os error 21)"
  | .nameTooLong => "File name too long (os error 36)"
  | .nulInName => "file name contained an unexpected NUL byte"
  | .invalidUtf8 => "stream did not contain valid UTF-8"

/-- What can stand at a place. -/
inductive FileNode where
  /-- A directory. -/
  | directory
  /-- A file with some bytes. -/
  | file (bytes : List UInt8)
  /-- A socket. -/
  | socket
  deriving DecidableEq

/-- A place: the names that lead to it. -/
abbrev Place := List String

/-- The longest name, in bytes. -/
def Place.maxNameSize : Nat := 255

/-- The names of a path.  The first name of an absolute path is a slash. -/
def Place.ofPath (path : String) : Place :=
  let names := (Text.splitAt (· = '/') path.toList).map String.ofList
  (if path.toList.head? = some '/' then ["/"] else [])
    ++ names.filter fun name => name ≠ "" ∧ name ≠ "."

/-- The place that leads to a place.  The root leads to itself. -/
def Place.parent (place : Place) : Place := if place = ["/"] then place else place.dropLast

/-- Files by place. -/
structure FileTree where
  /-- What stands at each place. -/
  nodes : Table Place FileNode := .empty

namespace FileTree

/-- What stands at a place that a directory leads to by a name. -/
def enter (t : FileTree) (place : Place) (name : String) : Except FileError FileNode :=
  if Place.maxNameSize < name.utf8ByteSize then .error .nameTooLong
  else
    match t.nodes.get? (place ++ [name]) with
    | some node => .ok node
    | none => if place = [] ∧ name = "/" then .ok .directory else .error .notFound

/-- Where some names lead from a place with something at it. -/
def follow (t : FileTree) (place : Place) (node : FileNode) :
    List String → Except FileError (Place × FileNode)
  | [] => .ok (place, node)
  | name :: names =>
    if node ≠ .directory then .error .notADirectory
    else if name = ".." then follow t place.parent .directory names
    else
      match t.enter place name with
      | .ok node => follow t (place ++ [name]) node names
      | .error e => .error e

/-- Where a path leads.  A path that ends in a slash must lead to a directory. -/
def find (t : FileTree) (path : String) : Except FileError (Place × FileNode) :=
  if path.contains '\x00' then .error .nulInName
  else
    match t.follow [] .directory (Place.ofPath path) with
    | .error e => .error e
    | .ok (place, node) =>
      if path.toList.getLast? = some '/' ∧ node ≠ .directory then .error .notADirectory
      else .ok (place, node)

/-- Whether a path leads to something. -/
def contains (t : FileTree) (path : String) : Bool := (t.find path).toBool

/-- The bytes of a file. -/
def read (t : FileTree) (path : String) : Except FileError (List UInt8) :=
  match t.find path with
  | .error e => .error e
  | .ok (_, .directory) => .error .isDirectory
  | .ok (_, .socket) => .error .noDevice
  | .ok (_, .file bytes) => .ok bytes

/-- The tree without a file. -/
def remove (t : FileTree) (path : String) : Except FileError FileTree :=
  match t.find path with
  | .error e => .error e
  | .ok (_, .directory) => .error .isDirectory
  | .ok (place, _) => .ok { t with nodes := t.nodes.erase place }

/-- The tree with something at a place. -/
def put (t : FileTree) (place : Place) (node : FileNode) : FileTree :=
  { t with nodes := t.nodes.insert place node }

/-- The tree with directories on the way from a place along some names. -/
def makeDirectories (t : FileTree) (place : Place) : List String → Except FileError FileTree
  | [] => .ok t
  | name :: names =>
    if name = ".." then makeDirectories t place.parent names
    else
      match t.enter place name with
      | .ok .directory => makeDirectories t (place ++ [name]) names
      | .ok _ => .error (if names.isEmpty then .fileExists else .notADirectory)
      | .error .notFound =>
        makeDirectories (t.put (place ++ [name]) .directory) (place ++ [name]) names
      | .error e => .error e

end FileTree

end Telemetry
