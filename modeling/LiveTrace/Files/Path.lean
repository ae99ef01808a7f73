/-
  Paths as texts. The parts of a path forget repeated and trailing slashes and every `.` but a
  leading one; names, stems and the question whether one path starts with another are asked
  of the parts.
-/
namespace LiveTrace.Path

/-- The pieces between slashes; a slash at an end leaves an empty piece there. -/
def pieces : List Char → List (List Char)
  | [] => [[]]
  | c :: cs =>
    if c == '/' then [] :: pieces cs
    else match pieces cs with
      | p :: ps => (c :: p) :: ps
      | [] => [[c]]

/-- One step of a path. -/
inductive Part where
  | root
  | here
  | up
  | name (name : String)
  deriving DecidableEq, Repr

/-- The part that a piece is, if it is one: an empty piece and `.` are none. -/
def Part.ofPiece? (piece : List Char) : Option Part :=
  if piece == [] || piece == ['.'] then none
  else if piece == ['.', '.'] then some .up
  else some (.name (String.ofList piece))

/-- The parts of a path. -/
def parts (path : String) : List Part :=
  let ps := (pieces path.toList).filterMap Part.ofPiece?
  match pieces path.toList with
  | [] :: _ :: _ => .root :: ps
  | ['.'] :: _ => .here :: ps
  | _ => ps

def isAbsolute (path : String) : Bool := path.toList.head? == some '/'

def Part.text : Part → String
  | root => ""
  | here => "."
  | up => ".."
  | name n => n

/-- The path with the given parts. -/
def ofParts : List Part → String
  | [.root] => "/"
  | ps => "/".intercalate (ps.map Part.text)

/-- A path without its last part. -/
def parent? (path : String) : Option String :=
  match parts path with
  | [] | [.root] => none
  | ps => some (ofParts ps.dropLast)

/-- The name at the end of a path. -/
def fileName? (path : String) : Option String :=
  match (parts path).getLast? with
  | some (.name n) => some n
  | _ => none

/-- A file name up to its last dot; all of it when it has no dot or only one at its start. -/
def stemOf (name : List Char) : List Char :=
  match (name.reverse.dropWhile (· != '.')) with
  | [] | [_] => name
  | _ :: rest => rest.reverse

/-- The stem of the name at the end of a path. -/
def stem? (path : String) : Option String :=
  (fileName? path).map fun n => String.ofList (stemOf n.toList)

/-- Whether the parts of `dir` are the first parts of `path`. -/
def startsWith (path dir : String) : Bool := (parts dir).isPrefixOf (parts path)

/-- `path` as seen from `base`. -/
def join (base path : String) : String :=
  if isAbsolute path || base.isEmpty then path
  else if base.toList.getLast? == some '/' then base ++ path
  else base ++ "/" ++ path

end LiveTrace.Path
