import ActionCatalog.Dict
import ActionCatalog.Text.Piece

/-! The files of a directory, as far as commands read and write them. -/
namespace ActionCatalog.Console

/-- What lies at a path. A path through something that is no directory is obstructed. -/
inductive Entry where
  | file (bytes : ByteArray)
  | directory
  | absent
  | obstructed

/-- Files by their paths below a root; directories are those of the files, and further ones. Paths that are refused
can be neither made nor written. -/
structure Storage where
  root : String
  files : Dict ByteArray := ∅
  directories : List String := []
  refuses : String → Bool := fun _ => false

namespace Storage

/-- The names on a path. -/
def names (path : String) : List String := (Text.splitWhere (· = '/') path.toList).map String.ofList

def pathOf (names : List String) : String := "/".intercalate names

/-- Whether the names lead to the root, to a directory or to one that a file lies in. -/
def isDirectory (s : Storage) (here : List String) : Bool :=
  here.isEmpty || s.directories.contains (pathOf here)
    || s.files.keys.any fun p => here.isPrefixOf (names p) && here.length < (names p).length

/-- Goes from a directory along names. -/
def walk (s : Storage) (here : List String) : List String → List String × Entry
  | [] => (here,.directory)
  | name :: rest =>
    if name = "" || name = "." then walk s here rest
    else if name = ".." then if here.isEmpty then ([],.absent) else walk s here.dropLast rest
    else
      let there := here ++ [name]
      match s.files.get? (pathOf there) with
      | some bytes => if rest.isEmpty then (there,.file bytes) else (there,.obstructed)
      | none =>
        if s.isDirectory there then walk s there rest
        else (there ++ rest,.absent)

/-- The names of the root, without those that slashes at its end add. -/
def rootNames (s : Storage) : List String := ((names s.root).reverse.dropWhile (· = "")).reverse

/-- The names of a path below the root. -/
def below? (s : Storage) (path : String) : Option (List String) :=
  if s.rootNames.isPrefixOf (names path) then some ((names path).drop s.rootNames.length) else none

def find (s : Storage) (path : String) : List String × Entry :=
  match s.below? path with
  | some ns => s.walk [] ns
  | none => ([],.absent)

/-- What lies at a path. -/
def look (s : Storage) (path : String) : Entry := (s.find path).2

/-- Whether names do not lead away from a directory. -/
def staysHere (names : List String) : Bool := names.all fun n => n = "" || n = "."

/-- Why a directory is not made where a file lies with names behind it. Behind a directory that was made on the way
it is the directory at the file that fails, otherwise what lies below it. -/
def fileInTheWay (made : Bool) (rest : List String) : String :=
  if rest.all (· = "") || (made && !staysHere rest) then "File exists (os error 17)"
  else "Not a directory (os error 20)"

/-- Makes the directories on a path that are missing, up to one that cannot be made; `made` tells whether there
was one before. What is missing is not made by the name of a dot in it. -/
def makeAlong (s : Storage) (made : Bool) (here : List String) : List String → Storage × Option String
  | [] => (s,none)
  | name :: rest =>
    if name = "" || name = "." then makeAlong s made here rest
    else if name = ".." then
      if here.isEmpty then (s,some "Permission denied (os error 13)") else makeAlong s made here.dropLast rest
    else
      let there := here ++ [name]
      if s.files.contains (pathOf there) then (s,some (fileInTheWay made rest))
      else if s.isDirectory there then makeAlong s made there rest
      else if rest.contains "." && staysHere rest then (s,some "No such file or directory (os error 2)")
      else if s.refuses (pathOf there) then (s,some "Permission denied (os error 13)")
      else makeAlong { s with directories := s.directories ++ [pathOf there] } true there rest

/-- Makes a directory and what is missing on its path; also why it could not be made. -/
def makeDirectory (s : Storage) (path : String) : Storage × Option String :=
  match s.below? path with
  | some ns => s.makeAlong false [] ns
  | none => (s,some "Permission denied (os error 13)")

/-- Puts a file where names lead, in the place of an earlier one. -/
def put (s : Storage) (there : List String) (bytes : ByteArray) : Storage :=
  { s with files := s.files.insert (pathOf there) bytes }

/-- Writes a file, unless there is a directory in its place or none for it to lie in. -/
def write? (s : Storage) (path : String) (bytes : ByteArray) : Option Storage :=
  let (there,entry) := s.find path
  let isFree := match entry with
    | .file _ => true
    | .absent => !there.isEmpty && s.isDirectory there.dropLast
    | _ => false
  if isFree && !s.refuses (pathOf there) then some (s.put there bytes) else none

end Storage
end ActionCatalog.Console
