/-!
# File names

A path is a list of components between slashes.  The extension of a file name
is what follows its last dot, and the stem is what precedes it; a dot at the
very front begins no extension.
-/

namespace SlotLang
namespace FileName

/-- The components of a path, empty ones included. -/
def components (path : List Char) : List (List Char) :=
  path.splitOn '/'

/-- The stem and the extension of a file name. -/
def split (name : List Char) : List Char × Option (List Char) :=
  match name.reverse.dropWhile (· != '.') with
  | [] => (name, none)
  | [_] => (name, none)
  | _ :: before => (before.reverse, some (name.reverse.takeWhile (· != '.')).reverse)

/-- The component that names the file or folder at a path, if one does. -/
def last? (path : List Char) : Option (List Char) :=
  match ((components path).filter fun part => part != [] && part != ['.']).getLast? with
  | none => none
  | some ['.', '.'] => none
  | some name => some name

/-- The stem of the file at a path. -/
def stem? (path : String) : Option String :=
  (last? path.toList).map fun name => String.ofList (split name).1

/-- Whether a file name has the given extension. -/
def hasExtension (name extension : String) : Bool :=
  (split name.toList).2 == some extension.toList

end FileName
end SlotLang
