import SlotLang.Files.FileName
import SlotLang.Files.OperatingSystem

/-!
# Directories

A directory by itself as the system of a command: the files below it with
their contents, and the folders.  Paths are resolved component by component;
nothing is known of what lies outside the directory.  A file can be written if
its name is not too long and no folder has it, and nothing is logged.

* `Directory.makeFolder`, `Directory.makeFile` — a directory built up by paths.
* `Directory.read` — the contents of the file at a path.
* `Directory.write` — the directory with a file written at its top.
-/

namespace SlotLang

/-- A directory: its files and its folders, each by the components of its
path. -/
structure Directory where
  /-- The files and their contents. -/
  files : List (List String × List UInt8)
  /-- The folders. -/
  folders : List (List String)
deriving DecidableEq, Repr

namespace Directory

/-- The directory that holds nothing. -/
def empty : Directory where
  files := []
  folders := []

/-- The components of a path that is given as one string. -/
def pathOf (path : String) : List String :=
  (FileName.components path.toList).map String.ofList

/-- The contents of the file with the given components. -/
def file? (dir : Directory) (path : List String) : Option (List UInt8) :=
  dir.files.lookup path

/-- Whether a folder has the given components: the directory itself, a folder
in it, or one on the way to another entry. -/
def hasFolder (dir : Directory) (path : List String) : Bool :=
  path.isEmpty
    || dir.folders.any (path.isPrefixOf ·)
    || dir.files.any fun entry => path.isPrefixOf entry.1 && path != entry.1

/-- The greatest number of bytes in a component of a path. -/
def nameLimit : Nat := 255

/-- The greatest number of bytes in a path. -/
def pathLimit : Nat := 4095

/-- The folder around a place.  A place is given by its components, and `none`
stands for every folder outside the directory. -/
def back : Option (List String) → Option (List String)
  | some (first :: rest) => some (first :: rest).dropLast
  | _ => none

/-- The entry of a folder with the given name. -/
def descend (dir : Directory) (place : Option (List String)) (name : String) :
    Except FileError (Option (List String)) :=
  match place with
  | none => .error .notFound
  | some folder =>
      let path := folder ++ [name]
      if (dir.file? path).isSome || dir.hasFolder path then
        .ok (some path)
      else
        .error .notFound

/-- The place one component further. -/
def enter (dir : Directory) (place : Option (List String)) (name : String) :
    Except FileError (Option (List String)) :=
  if (place.bind dir.file?).isSome then
    .error .notDirectory
  else if name = "" ∨ name = "." then
    .ok place
  else if name = ".." then
    .ok (back place)
  else if nameLimit < name.utf8ByteSize then
    .error .nameTooLong
  else
    dir.descend place name

/-- The place at a path. -/
def resolve (dir : Directory) (path : String) : Except FileError (Option (List String)) :=
  if pathLimit < path.utf8ByteSize then
    .error .nameTooLong
  else
    match pathOf path with
    | [] => .error .notFound
    | [""] => .error .notFound
    | "" :: rest => rest.foldlM dir.enter none
    | parts => parts.foldlM dir.enter (some [])

/-- The contents of the file at a path. -/
def read (dir : Directory) (path : String) : Except FileError (List UInt8) := do
  match (← dir.resolve path).bind dir.file? with
  | some contents => return contents
  | none => throw .isDirectory

/-- The files with the contents of one replaced, or with a new one added. -/
def put (path : List String) (contents : List UInt8) :
    List (List String × List UInt8) → List (List String × List UInt8)
  | [] => [(path, contents)]
  | entry :: rest =>
      if entry.1 = path then
        (path, contents) :: rest
      else
        entry :: put path contents rest

/-- The components one name further: an empty name and a dot stay, and two dots
go back. -/
def walk (place : List String) (name : String) : List String :=
  if name = "" ∨ name = "." then
    place
  else if name = ".." then
    place.dropLast
  else
    place ++ [name]

/-- The directory with a folder made, and every folder on the way to it. -/
def makeFolder (dir : Directory) (path : String) : Directory :=
  go dir [] (pathOf path)
where
  /-- Makes the folders from a place on. -/
  go (dir : Directory) (place : List String) : List String → Directory
    | [] => dir
    | name :: rest =>
        let next := walk place name
        go { dir with folders := dir.folders ++ [next] } next rest

/-- The directory with a file made at a path. -/
def makeFile (dir : Directory) (path : String) (contents : List UInt8) : Directory :=
  { dir with files := put ((pathOf path).foldl walk []) contents dir.files }

/-- The directory with a file written at its top. -/
def write (dir : Directory) (name : String) (contents : List UInt8) :
    Except FileError Directory :=
  if nameLimit < name.utf8ByteSize then
    .error .nameTooLong
  else if dir.hasFolder [name] then
    .error .isDirectory
  else
    .ok { dir with files := put [name] contents dir.files }

/-- The files with an extension, each by its path as one string. -/
def filesWithExtension (dir : Directory) (extension : String) :
    List (String × List UInt8) :=
  dir.files.filterMap fun entry =>
    match entry.1.getLast? with
    | some name =>
        if FileName.hasExtension name extension then
          some ("/".intercalate entry.1, entry.2)
        else
          none
    | none => none

end Directory

/-- A write that a directory refuses leaves it as it is. -/
instance : OperatingSystem Directory where
  read path dir := dir.read path
  write name contents dir :=
    match dir.write name contents with
    | .ok dir' => (.ok (), dir')
    | .error error => (.error error, dir)
  log _ _ _ := ""

end SlotLang
