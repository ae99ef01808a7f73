import LiveTrace.Files.Error
import LiveTrace.Files.Path
import LiveTrace.Text.Utf8

/-
  A directory tree without links, seen from a working directory at one moment. An entry
  stands under the list of names that lead to it from the root; a path is walked name by
  name, and each operation says which of its errors comes first.
-/
namespace LiveTrace

/-- A moment, in nanoseconds since the epoch. -/
abbrev Instant := Int

def nanosPerSecond : Int := 1000000000

/-- The names that lead from the root to an entry. -/
abbrev Place := List String

/-- What stands at a place, and when it last changed. -/
inductive Entry where
  | file (content : List UInt8) (modified : Instant)
  | dir (modified : Instant)
  deriving DecidableEq, Repr

namespace Entry

def isDir : Entry → Bool
  | dir _ => true
  | file _ _ => false

def modified : Entry → Instant
  | dir t => t
  | file _ t => t

def withModified (t : Instant) : Entry → Entry
  | dir _ => dir t
  | file c _ => file c t

end Entry

/-- The entries below the root in the order they were made, the working directory, and the
time. -/
structure Files where
  entries : List (Place × Entry) := []
  workingDir : Place := []
  now : Instant := 0

namespace Files

/-- What stands at a place. The root is always a directory. -/
def entry? (f : Files) (p : Place) : Option Entry :=
  if p = [] then some (.dir 0) else (f.entries.find? (·.1 = p)).map (·.2)

def isDirAt (f : Files) (p : Place) : Bool := ((f.entry? p).map Entry.isDir).getD false

/-- The tree with `e` at a place. -/
def put (f : Files) (p : Place) (e : Entry) : Files :=
  if f.entries.any (·.1 = p) then
    { f with entries := f.entries.map fun x => if x.1 = p then (p, e) else x }
  else { f with entries := f.entries ++ [(p, e)] }

/-- Marks a directory as changed now. -/
def touchDir (f : Files) (p : Place) : Files :=
  { f with entries := f.entries.map fun x => if x.1 = p then (x.1, x.2.withModified f.now) else x }

/-- The tree with a new entry at a place, its directory changed. -/
def create (f : Files) (p : Place) (e : Entry) : Files := (f.put p e).touchDir p.dropLast

/-- The tree without a place and everything below it, its directory changed. -/
def removeAt (f : Files) (p : Place) : Files :=
  { f with entries := f.entries.filter fun x => !p.isPrefixOf x.1 }.touchDir p.dropLast

/-- The longest name, in bytes. -/
def maxName : Nat := 255

/-- The length of a path that is too long, in bytes. -/
def maxPath : Nat := 4096

/-- Walks on from a place. Every step needs a directory to step from. -/
def walk (f : Files) (at_ : Place) : List (List Char) → Except IoError Place
  | [] => .ok at_
  | piece :: rest =>
    if !f.isDirAt at_ then .error .notDirectory
    else if piece == [] || piece == ['.'] then walk f at_ rest
    else if piece == ['.', '.'] then walk f at_.dropLast rest
    else
      let name := String.ofList piece
      if maxName < name.utf8ByteSize then .error .nameTooLong
      else match f.entry? (at_ ++ [name]) with
        | none => .error .notFound
        | some _ => walk f (at_ ++ [name]) rest

/-- What is wrong with a path before it is walked. -/
def pathError? (path : String) : Option IoError :=
  if path.toList.contains '\x00' then some .nulInName
  else if path.isEmpty then some .notFound
  else if maxPath ≤ path.utf8ByteSize then some .nameTooLong
  else none

/-- Where a path starts. -/
def start (f : Files) (path : String) : Place :=
  if Path.isAbsolute path then [] else f.workingDir

/-- The place of something that exists. -/
def locate (f : Files) (path : String) : Except IoError Place :=
  match pathError? path with
  | some e => .error e
  | none => f.walk (f.start path) (Path.pieces path.toList)

/-- What a path names, if it names anything. -/
def lookup (f : Files) (path : String) : Except IoError Entry :=
  match f.locate path with
  | .error e => .error e
  | .ok p => match f.entry? p with
    | some e => .ok e
    | none => .error .notFound

/-- Whether a path names anything. -/
def pathExists (f : Files) (path : String) : Bool :=
  match f.lookup path with
  | .ok _ => true
  | .error _ => false

/-- Whether a path names a directory. -/
def isDir (f : Files) (path : String) : Bool :=
  match f.lookup path with
  | .ok e => e.isDir
  | .error _ => false

/-- When what a path names last changed. -/
def modified? (f : Files) (path : String) : Option Instant :=
  match f.lookup path with
  | .ok e => some e.modified
  | .error _ => none

/-- The bytes of a file. -/
def read (f : Files) (path : String) : Except IoError (List UInt8) :=
  match f.lookup path with
  | .error e => .error e
  | .ok (.dir _) => .error .isDirectory
  | .ok (.file bytes _) => .ok bytes

/-- The text of a file. -/
def readText (f : Files) (path : String) : Except IoError String :=
  match f.read path with
  | .error e => .error e
  | .ok bytes => match Utf8.decode bytes with
    | .ok cs => .ok (String.ofList cs)
    | .error _ => .error .notUtf8

/-- Where something new would stand: a directory that exists and a name in it. -/
inductive Target where
  /-- The path ends in a name; `slash` tells that a slash follows it. -/
  | named (dir : Place) (name : String) (slash : Bool)
  /-- The path ends in a step that names a directory, such as `..`. -/
  | directory

/-- The pieces of a path without the empty ones at its end. -/
def withoutSlashes (pieces : List (List Char)) : List (List Char) :=
  (pieces.reverse.dropWhile (· == [])).reverse

/-- Where a path that may not exist yet leads. -/
def target (f : Files) (path : String) : Except IoError Target :=
  match pathError? path with
  | some e => .error e
  | none =>
    let all := Path.pieces path.toList
    let pieces := withoutSlashes all
    match pieces.getLast? with
    | none => .ok .directory
    | some last =>
      match f.walk (f.start path) pieces.dropLast with
      | .error e => .error e
      | .ok dir =>
        if !f.isDirAt dir then .error .notDirectory
        else if last == ['.'] || last == ['.', '.'] then .ok .directory
        else .ok (.named dir (String.ofList last) (pieces.length < all.length))

/-- Writes a file, new or in place of an old one. -/
def write (f : Files) (path : String) (bytes : List UInt8) : Except IoError Files :=
  match f.target path with
  | .error e => .error e
  | .ok .directory => .error .isDirectory
  | .ok (.named dir name slash) =>
    if slash then .error .isDirectory
    else if maxName < name.utf8ByteSize then .error .nameTooLong
    else
      let place := dir ++ [name]
      match f.entry? place with
      | some (.dir _) => .error .isDirectory
      | some (.file _ _) => .ok (f.put place (.file bytes f.now))
      | none => .ok (f.create place (.file bytes f.now))

/-- Copies a file. The source has to be a regular file. -/
def copy (f : Files) (source path : String) : Except IoError Files :=
  match f.lookup source with
  | .error e => .error e
  | .ok (.dir _) => .error .notRegular
  | .ok (.file bytes _) => f.write path bytes

/-- Makes one directory. -/
def makeDir (f : Files) (path : String) : Except IoError Files :=
  match f.target path with
  | .error e => .error e
  | .ok .directory => .error .exists
  | .ok (.named dir name _) =>
    if maxName < name.utf8ByteSize then .error .nameTooLong
    else match f.entry? (dir ++ [name]) with
      | some _ => .error .exists
      | none => .ok (f.create (dir ++ [name]) (.dir f.now))

/-- Makes one directory, unless there is one already. -/
def makeDirUnlessThere (f : Files) (path : String) : Files × Option IoError :=
  match f.makeDir path with
  | .ok f => (f, none)
  | .error e => (f, if f.isDir path then none else some e)

/-- Makes a directory, first making those above it that are missing; those stay when it fails.
A directory that is there already is as good as made. -/
def makeDirAll (f : Files) (path : String) : Files × Option IoError := go path.length f path
where
  go : Nat → Files → String → Files × Option IoError
    | 0, f, path => f.makeDirUnlessThere path
    | fuel + 1, f, path =>
      if Path.parts path = [] then (f, none)
      else match f.makeDir path with
        | .ok f => (f, none)
        | .error .notFound =>
          match Path.parent? path with
          | none => (f, some .notFound)
          | some above =>
            match go fuel f above with
            | (f, some e) => (f, some e)
            | (f, none) => f.makeDirUnlessThere path
        | .error e => (f, if f.isDir path then none else some e)

/-- Removes a directory and everything in it. -/
def removeDirAll (f : Files) (path : String) : Except IoError Files :=
  match f.locate path with
  | .error e => .error e
  | .ok p =>
    if f.isDirAt p then .ok (f.removeAt p) else .error .notDirectory

/-- The names in a directory. -/
def names (f : Files) (p : Place) : List String :=
  f.entries.filterMap fun x =>
    match x.1.getLast? with
    | some name => if x.1 = p ++ [name] then some name else none
    | none => none

/-- The names in the directory that a path names. -/
def readDir (f : Files) (path : String) : Except IoError (List String) :=
  match f.locate path with
  | .error e => .error e
  | .ok p => if f.isDirAt p then .ok (f.names p) else .error .notDirectory

/-- Everything below a directory, as paths seen from it; a directory ends in a slash. -/
def listing (f : Files) (path : String) : List String :=
  match f.locate path with
  | .error _ => []
  | .ok p => f.entries.filterMap fun x =>
    if p.isPrefixOf x.1 && x.1 != p then
      some ("/".intercalate (x.1.drop p.length) ++ if x.2.isDir then "/" else "")
    else none

/-- Sets when something last changed. -/
def setModified (f : Files) (path : String) (t : Instant) : Except IoError Files :=
  match f.locate path with
  | .error e => .error e
  | .ok p => match f.entry? p with
    | some e => .ok (f.put p (e.withModified t))
    | none => .error .notFound

end Files

end LiveTrace
