/-!
# Files

A directory tree, as a table of what each path below the root names.  A path is
the list of names from the root down, and the root is always there.

`Files.walk` follows the names of a written path.  Every name but the last must be
a directory; `.` stays, `..` goes up, and the root is above itself.  A name has at
most 255 bytes and a path at most 4095.

A *place* is where a written path leads.  `Files.locateIn` finds the place of one
name in a directory, so that such a name need not be read as a path.

The tree refuses nothing for want of a permission or of space, and a change of it is
made whole or not at all.  What a file system may do instead is a `FileCalls`.  A file
holds text: one whose bytes are no text is left out.
-/

namespace Pipeline

/-- Why a file operation fails. -/
inductive FileFault
  | notFound
  | alreadyExists
  | notDirectory
  | isDirectory
  | nameTooLong
  | nulInName
  | permissionDenied
  | storageFull
  deriving DecidableEq, Repr

/-- The wording of a failure. -/
def FileFault.message : FileFault → String
  | .notFound => "No such file or directory (os error 2)"
  | .alreadyExists => "File exists (os error 17)"
  | .notDirectory => "Not a directory (os error 20)"
  | .isDirectory => "Is a directory (os error 21)"
  | .nameTooLong => "File name too long (os error 36)"
  | .nulInName => "file name contained an unexpected NUL byte"
  | .permissionDenied => "Permission denied (os error 13)"
  | .storageFull => "No space left on device (os error 28)"

/-- The names of a path, from the root down. -/
abbrev Names := List String

/-- What a path names.  The contents of a file are text in UTF-8. -/
inductive Entry
  | file (text : String)
  | directory
  deriving DecidableEq, Repr

/-- A directory tree: what each path below the root names.  No path is listed twice. -/
structure Files where
  entries : List (Names × Entry)
  deriving DecidableEq, Repr, Inhabited

/-- Where a written path leads, and whether it asks for a directory by a slash at
its end. -/
structure Place where
  names : Names
  slash : Bool
  deriving DecidableEq, Repr

namespace Files

/-- A tree with nothing below its root. -/
def empty : Files := ⟨[]⟩

/-- What the names lead to. -/
def at? (fs : Files) (names : Names) : Option Entry :=
  if names = [] then some .directory else fs.entries.lookup names

/-- Put an entry at a path. -/
def put (fs : Files) (names : Names) (entry : Entry) : Files :=
  ⟨(names, entry) :: fs.entries.filter fun e => e.1 ≠ names⟩

/-- Take away the entry at a path. -/
def drop (fs : Files) (names : Names) : Files := ⟨fs.entries.filter fun e => e.1 ≠ names⟩

/-! ## Paths -/

/-- The longest name, in bytes. -/
def maxName : Nat := 255

/-- The longest path, in bytes. -/
def maxPath : Nat := 4095

/-- Follow names from a path whose entry is a directory. -/
def walk (fs : Files) : Names → List String → Except FileFault Names
  | here, [] => .ok here
  | here, name :: rest =>
    match fs.at? here with
    | none => .error .notFound
    | some (.file _) => .error .notDirectory
    | some .directory =>
      if name = "" ∨ name = "." then fs.walk here rest
      else if name = ".." then fs.walk here.dropLast rest
      else if maxName < name.utf8ByteSize then .error .nameTooLong
      else fs.walk (here ++ [name]) rest

/-- What stands between the slashes of a written path. -/
def parts (path : String) : List String := (path.toList.splitOn '/').map String.ofList

/-- A written path has a slash at its end. -/
def endsInSlash (path : String) : Bool := path.toList.getLast? = some '/'

/-- A written path can be asked for at all. -/
def checkPath (path : String) : Except FileFault Unit :=
  if path.toList.any (· = '\x00') then .error .nulInName
  else if path = "" then .error .notFound
  else if maxPath < path.utf8ByteSize then .error .nameTooLong
  else .ok ()

/-- The text without the slashes at its end. -/
def trimSlashes (path : String) : String :=
  String.ofList (path.toList.reverse.dropWhile (· = '/')).reverse

/-- The place a written path leads to. -/
def locate (fs : Files) (path : String) : Except FileFault Place := do
  checkPath path
  let names ← fs.walk [] (parts (trimSlashes path))
  .ok ⟨names, endsInSlash path⟩

/-- A directory and a name below it, as one written path. -/
def join (directory name : String) : String :=
  if directory = "" ∨ endsInSlash directory then directory ++ name
  else directory ++ "/" ++ name

/-- The names of a directory, `""` being the root. -/
def enter (fs : Files) (directory : String) : Except FileFault Names := do
  let names ← fs.walk [] (parts directory)
  match fs.at? names with
  | none => .error .notFound
  | some (.file _) => .error .notDirectory
  | some .directory => .ok names

/-- The place of a name without slashes in a directory. -/
def locateIn (fs : Files) (directory name : String) : Except FileFault Place := do
  checkPath (join directory name)
  let names ← fs.enter directory
  if maxName < name.utf8ByteSize then .error .nameTooLong
  else .ok ⟨names ++ [name], false⟩

/-! ## Operations at a place -/

/-- The text of the file at a place. -/
def readAt (fs : Files) (place : Place) : Except FileFault String :=
  match fs.at? place.names with
  | none => .error .notFound
  | some .directory => .error .isDirectory
  | some (.file text) => if place.slash then .error .notDirectory else .ok text

/-- Write the file at a place, replacing what it held.  The tree has room for every text
and lets every file be written. -/
def writeAt (fs : Files) (place : Place) (text : String) : Except FileFault Files :=
  match fs.at? place.names with
  | some .directory => .error .isDirectory
  | some (.file _) =>
    if place.slash then .error .notDirectory else .ok (fs.put place.names (.file text))
  | none =>
    if place.slash then .error .isDirectory else .ok (fs.put place.names (.file text))

/-- Remove the file at a place.  The tree lets every file be removed. -/
def removeAt (fs : Files) (place : Place) : Except FileFault Files :=
  match fs.at? place.names with
  | none => .error .notFound
  | some .directory => .error .isDirectory
  | some (.file _) => if place.slash then .error .notDirectory else .ok (fs.drop place.names)

/-- Whether there is a file at a place. -/
def isFileAt (fs : Files) (place : Place) : Bool :=
  match fs.at? place.names with
  | some (.file _) => !place.slash
  | _ => false

/-! ## Operations on written paths -/

/-- The text of a file. -/
def read (fs : Files) (path : String) : Except FileFault String := do fs.readAt (← fs.locate path)

/-- Write a file, replacing what it held. -/
def write (fs : Files) (path text : String) : Except FileFault Files := do
  fs.writeAt (← fs.locate path) text

/-- Whether the path names a directory. -/
def isDirectory (fs : Files) (path : String) : Bool :=
  match fs.locate path with
  | .ok place => fs.at? place.names = some .directory
  | .error _ => false

/-- Make one directory. -/
def makeDirectory (fs : Files) (path : String) : Except FileFault Files := do
  let place ← fs.locate path
  match fs.at? place.names with
  | some _ => .error .alreadyExists
  | none => .ok (fs.put place.names .directory)

/-- The names of a written path without those that say nothing: empty ones, and `.`
after the first. -/
def namesOf (path : String) : Names :=
  match parts path with
  | [] => []
  | first :: rest => (if first = "" then [] else [first]) ++ rest.filter fun n => n ≠ "" ∧ n ≠ "."

/-- Make one directory, unless it is there already. -/
def ensureDirectory (fs : Files) (path : String) : Files × Except FileFault Unit :=
  match fs.makeDirectory path with
  | .ok fs => (fs, .ok ())
  | .error fault => (fs, if fs.isDirectory path then .ok () else .error fault)

/-- Make the directory with a written path and, where one is missing, those above
it, outermost first.  The names come innermost first.  What was made before a failure
stays. -/
def makeNames (fs : Files) : Names → String → Files × Except FileFault Unit
  | [], _ => (fs, .ok ())
  | _ :: above, path =>
    match fs.makeDirectory path with
    | .error .notFound =>
      match fs.makeNames above ("/".intercalate above.reverse) with
      | (fs, .ok ()) => fs.ensureDirectory path
      | (fs, .error fault) => (fs, .error fault)
    | _ => fs.ensureDirectory path

/-- Make a directory and those above it that are missing.  One that is there
already is left as it is, and what was made before a failure stays. -/
def makeDirectories (fs : Files) (path : String) : Files × Except FileFault Unit :=
  fs.makeNames (namesOf path).reverse path

/-- Write a file, after making the directory it is in.  A path with a slash at its
end is a directory to make.  What was made before a failure stays. -/
def install (fs : Files) (path text : String) : Files × Except FileFault Unit :=
  if endsInSlash path then fs.makeDirectories path
  else
    match fs.makeDirectories ("/".intercalate (namesOf path).dropLast) with
    | (fs, .error fault) => (fs, .error fault)
    | (fs, .ok ()) =>
      match fs.write path text with
      | .ok fs => (fs, .ok ())
      | .error fault => (fs, .error fault)

/-- The names in a directory, in ascending order. -/
def list? (fs : Files) (path : String) : Option (List String) :=
  match fs.locate path with
  | .ok place =>
    if fs.at? place.names = some .directory then
      some ((fs.entries.filterMap fun e =>
        if e.1.dropLast = place.names then e.1.getLast? else none).mergeSort fun a b => a ≤ b)
    else none
  | .error _ => none

end Files

/-! ## Calls that may be refused -/

/-- How a file system writes and removes the file at a place.  It may refuse a call that
the tree would carry out, for want of a permission or of space, and a call that fails may
have changed the files: what it leaves is part of its answer. -/
structure FileCalls where
  write : Files → Place → (text : String) → Files × Except FileFault Unit
  remove : Files → Place → Files × Except FileFault Unit

namespace FileCalls

/-- The answer of a call that changes the files whole or not at all. -/
def answer (fs : Files) : Except FileFault Files → Files × Except FileFault Unit
  | .ok changed => (changed, .ok ())
  | .error fault => (fs, .error fault)

/-- The calls of a file system that does what the tree lets it do. -/
def willing : FileCalls where
  write fs place text := answer fs (fs.writeAt place text)
  remove fs place := answer fs (fs.removeAt place)

/-- Write the file with a name in a directory. -/
def writeIn (calls : FileCalls) (fs : Files) (directory name text : String) :
    Files × Except FileFault Unit :=
  match fs.locateIn directory name with
  | .ok place => calls.write fs place text
  | .error fault => (fs, .error fault)

/-- Remove the file with a name in a directory. -/
def removeIn (calls : FileCalls) (fs : Files) (directory name : String) :
    Files × Except FileFault Unit :=
  match fs.locateIn directory name with
  | .ok place => calls.remove fs place
  | .error fault => (fs, .error fault)

end FileCalls

end Pipeline
