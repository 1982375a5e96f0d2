import Telemetry.Files

/-!
# Socket paths

A socket stands at a path in the tree of files.  A file that stands there before is
taken away, but not a directory.  The directories on the way are made.  A path that
is too long, or holds the character NUL, is no name of a socket.
-/

namespace Telemetry

/-- Why a name cannot be given to a socket. -/
inductive SocketNameError where
  /-- The name holds the character NUL. -/
  | nul
  /-- The name is too long. -/
  | tooLong
  /-- The name can only be that of a directory. -/
  | notFound
  /-- Something else has the name. -/
  | inUse
  deriving DecidableEq

/-- The error in words. -/
def SocketNameError.message : SocketNameError → String
  | .nul => "paths must not contain interior null bytes"
  | .tooLong => "path must be shorter than SUN_LEN"
  | .notFound => "No such file or directory (os error 2)"
  | .inUse => "Address already in use (os error 98)"

/-- Why a socket cannot be placed. -/
inductive BindError where
  /-- The way to it cannot be prepared. -/
  | unprepared (path : String) (error : FileError)
  /-- It cannot be given its name. -/
  | unnamed (path : String) (error : SocketNameError)
  deriving DecidableEq

/-- The error in words. -/
def BindError.message : BindError → String
  | .unprepared path error => "failed to prepare socket path " ++ path ++ ": " ++ error.message
  | .unnamed path error => "failed to bind " ++ path ++ ": " ++ error.message

namespace FileTree

/-- From how many bytes on a path is too long for a socket. -/
def socketPathLimit : Nat := 108

/-- Takes away what stands at a path, if anything does. -/
def clear (t : FileTree) (path : String) : Except FileError FileTree :=
  if t.contains path then t.remove path else .ok t

/-- The tree with a socket at a path on the way to which all directories are there. -/
def putSocket (t : FileTree) (path : String) : Except SocketNameError FileTree :=
  if path.contains '\x00' then .error .nul
  else if socketPathLimit ≤ path.utf8ByteSize then .error .tooLong
  else
    match t.find path with
    | .ok _ => .error .inUse
    | .error .notADirectory => .error .inUse
    | .error _ =>
      if path.toList.getLast? = some '/' then .error .notFound
      else .ok (t.put (Place.ofPath path) .socket)

/-- Prepares the way to a path: what stands there is taken away, and the directories on the way
are made. -/
def prepareSocketPath (t : FileTree) (path : String) : Except FileError FileTree := do
  let t ← t.clear path
  let parents := (Place.ofPath path).dropLast
  if parents.any (·.contains '\x00') then throw .nulInName
  t.makeDirectories [] parents

/-- Places a socket at a path. -/
def bindSocket (t : FileTree) (path : String) : FileTree × Except BindError Unit :=
  match t.prepareSocketPath path with
  | .error e => (t, .error (.unprepared path e))
  | .ok t =>
    match t.putSocket path with
    | .error e => (t, .error (.unnamed path e))
    | .ok t => (t, .ok ())

end FileTree

end Telemetry
