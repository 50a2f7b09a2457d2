import Appraisal.Text.Quoted

/-! Files in a tree of directories. A path is a series of parts; parts that are empty or a single dot do not count. An
    absolute path begins at the root of the tree, any other in the working directory. Looking a path up goes through
    directories only, so that `a/../b` is found only if `a` is a directory. Names and paths have a limited number of
    bytes. -/

namespace Appraisal

/-- A path in its shortest form with the same parts. -/
structure FileStore.Path where
  /-- What stands before the parts: nothing, or the slashes of an absolute path. -/
  root : String
  parts : List String
  deriving DecidableEq, Repr

namespace FileStore.Path

/-- The path that a text names. Two slashes in front are kept, any other number of them is one. -/
def ofText (s : String) : Path :=
  let cs := s.toList
  let slashes := (cs.takeWhile (· == '/')).length
  let root := if slashes = 0 then "" else if slashes = 2 then "//" else "/"
  ⟨root, ((cs.splitOn '/').map String.ofList).filter fun p => p != "" && p != "."⟩

/-- The text of a path; the directory itself is a dot. -/
def text (p : Path) : String :=
  if p.parts.isEmpty && p.root.isEmpty then "." else p.root ++ "/".intercalate p.parts

def isAbsolute (p : Path) : Bool := !p.root.isEmpty

/-- The end of the last part from its last dot on. It is empty unless something stands on both sides of this dot. -/
def suffix (p : Path) : String :=
  let name := (p.parts.getLast?.getD "").toList
  let ending := (name.reverse.takeWhile (· != '.')).reverse
  if ending.isEmpty || name.length ≤ ending.length + 1 then "" else String.ofList ('.' :: ending)

/-- The most bytes of one part of a path. -/
def partLimit : Nat := 255

def limit : Nat := 4095

end FileStore.Path

/-- Files with their bytes, and directories, by the names that lead to them from the root. -/
structure FileStore where
  files : List (List String × List UInt8)
  directories : List (List String)
  /-- The working directory. It is there, and so are those that lead to it. -/
  working : List String
  deriving Inhabited

namespace FileStore

inductive Fault where
  | absent
  /-- The path goes on after a file. -/
  | notDirectory
  | isDirectory
  /-- A file stands where a directory is to be made. -/
  | inTheWay
  | tooLong
  /-- The path has the character zero in it. -/
  | zeroCharacter
  deriving DecidableEq, Repr

/-- The message of a fault about a path, where it has one. -/
def Fault.message? (p : Path) : Fault → Option String
  | absent => some ("[Errno 2] No such file or directory: " ++ String.ofList (Text.Quoted.quote p.text.toList))
  | zeroCharacter => some "embedded null byte"
  | _ => none

inductive Entry where
  | file (bytes : List UInt8)
  | directory
  deriving DecidableEq, Repr

/-- No files, and no directories but the working one. -/
def empty (working : List String) : FileStore := ⟨[], [], working⟩

def isDirectory (s : FileStore) (place : List String) : Bool :=
  place.isPrefixOf s.working || s.directories.contains place

/-- The bytes of the file at a place. -/
def file? (s : FileStore) (place : List String) : Option (List UInt8) := (s.files.find? (·.1 == place)).map (·.2)

def entryAt (s : FileStore) (place : List String) : Except Fault Entry :=
  match s.file? place with
  | some bytes => .ok (.file bytes)
  | none => if s.isDirectory place then .ok .directory else .error .absent

/-- The place in which a path begins. -/
def start (s : FileStore) (p : Path) : List String := if p.isAbsolute then [] else s.working

/-- The place that some parts lead to from a place. Two dots lead one directory up, except at the root. -/
def walk (s : FileStore) : List String → List String → Except Fault (List String)
  | place, [] => .ok place
  | place, part :: rest =>
    if (s.file? place).isSome then .error .notDirectory
    else if !s.isDirectory place then .error .absent
    else if part = ".." then walk s place.dropLast rest
    else if Path.partLimit < part.utf8ByteSize then .error .tooLong
    else walk s (place ++ [part]) rest

/-- What is wrong with a path whatever the store holds. -/
def pathFault? (p : Path) : Option Fault :=
  if p.text.toList.contains '\x00' then some .zeroCharacter
  else if Path.limit < p.text.utf8ByteSize then some .tooLong
  else none

/-- What a path leads to. -/
def entry (s : FileStore) (p : Path) : Except Fault Entry :=
  match pathFault? p with
  | some f => .error f
  | none => (s.walk (s.start p) p.parts).bind s.entryAt

/-- The store with the directories that some parts lead through from a place, and the place of the last. -/
def makeDirectories (s : FileStore) : List String → List String → Except Fault (FileStore × List String)
  | place, [] => .ok (s, place)
  | place, part :: rest =>
    if part = ".." then makeDirectories s place.dropLast rest
    else if Path.partLimit < part.utf8ByteSize then .error .tooLong
    else
      let next := place ++ [part]
      if (s.file? next).isSome then .error (if rest.isEmpty then .inTheWay else .notDirectory)
      else if s.isDirectory next then makeDirectories s next rest
      else makeDirectories { s with directories := s.directories ++ [next] } next rest

/-- The store with a file of this name in a directory. -/
def put (s : FileStore) (directory : List String) (name : String) (bytes : List UInt8) : Except Fault FileStore :=
  let place := directory ++ [name]
  if name = ".." || s.isDirectory place then .error .isDirectory
  else if Path.partLimit < name.utf8ByteSize then .error .tooLong
  else .ok { s with files := s.files.filter (·.1 != place) ++ [(place, bytes)] }

/-- The store with a file at a path, in directories that are made where they are missing. -/
def write (s : FileStore) (p : Path) (bytes : List UInt8) : Except Fault FileStore :=
  match pathFault? p with
  | some f => .error f
  | none =>
    match p.parts.getLast? with
    | none => .error .isDirectory
    | some name => do
      let (s, directory) ← s.makeDirectories (s.start p) p.parts.dropLast
      s.put directory name bytes

/-- The store without the file at a path. -/
def delete (s : FileStore) (p : Path) : Except Fault FileStore :=
  match pathFault? p with
  | some f => .error f
  | none => do
    let place ← s.walk (s.start p) p.parts
    match ← s.entryAt place with
    | .directory => .error .isDirectory
    | .file _ => return { s with files := s.files.filter (·.1 != place) }

end FileStore
end Appraisal
