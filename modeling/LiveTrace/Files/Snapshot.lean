import LiveTrace.Files.Tree

/-
  Bringing a tree up to date with what is seen somewhere else, path by path. A file changes
  only when its content does, so that the times in the tree tell when a change was seen.
-/
namespace LiveTrace

/-- What is seen at a path. -/
inductive Sight where
  | nothing
  | directory
  | content (bytes : List UInt8)
  deriving DecidableEq, Repr

namespace Files

/-- Whether a path names a file with exactly these bytes. -/
def holds (f : Files) (path : String) (bytes : List UInt8) : Bool :=
  match f.read path with
  | .ok found => found == bytes
  | .error _ => false

/-- The tree without the file that a path names. -/
def forget (f : Files) (path : String) : Files :=
  match f.locate path with
  | .ok p => if f.isDirAt p then f else f.removeAt p
  | .error _ => f

/-- The tree with what is seen at a path. -/
def reflect (f : Files) (path : String) : Sight → Files
  | .nothing => f.forget path
  | .directory => (f.makeDirAll path).1
  | .content bytes =>
    if f.holds path bytes then f
    else
      let f := (f.makeDirAll ((Path.parent? path).getD "")).1
      match f.write path bytes with
      | .ok f => f
      | .error _ => f

end Files

end LiveTrace
