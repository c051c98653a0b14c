-- SUMMARY: A tree of files, paths into it, and what can be read and written there.
import StorageSnapshot.Fault

/-!
# Files

A run sees files through a tree that tells what every place holds: one below the working directory,
one behind as many double dots around it, or an absolute one. Paths are written as they are given,
without empty and single-dot parts; two dots lead to the directory around a directory.
-/

namespace StorageSnapshot

/-! ## Paths -/

structure FilePath where
  absolute : Bool
  parts : List String
  /-- Whether an absolute path has exactly two slashes in front, which are kept. -/
  doubled : Bool := false
  deriving DecidableEq

namespace FilePath

def ofText (s : String) : FilePath :=
  let slashes := (s.toList.takeWhile (· = '/')).length
  { absolute := slashes ≠ 0
    parts := (s.splitOn "/").filter fun p => p ≠ "" ∧ p ≠ "."
    doubled := slashes = 2 }

def text (p : FilePath) : String :=
  if p.absolute then (if p.doubled then "//" else "/") ++ "/".intercalate p.parts
  else if p.parts.isEmpty then "."
  else "/".intercalate p.parts

/-- A path seen from another one. -/
def join (p q : FilePath) : FilePath :=
  if q.absolute then q else { p with parts := p.parts ++ q.parts }

def parent (p : FilePath) : FilePath := { p with parts := p.parts.dropLast }

/-- Whether a place is the working directory, one around it, or the root. -/
def isAround (p : FilePath) : Bool := p.parts.all (· = "..")

/-- The place around a place. There is none around the root. -/
def outward (p : FilePath) : FilePath :=
  if not p.isAround then p.parent
  else if p.absolute then p
  else { p with parts := p.parts ++ [".."] }

def child (p : FilePath) (name : String) : FilePath := { p with parts := p.parts ++ [name] }

/-- Whether a place is below another one, or is that one. -/
def within (p q : FilePath) : Bool := p.absolute == q.absolute && q.parts.isPrefixOf p.parts

/-- The path in which every two dots and the part in front of them are left out. -/
def collapsed (p : FilePath) : FilePath :=
  p.parts.foldl (fun done part => if part = ".." then done.outward else done.child part)
    { absolute := p.absolute, parts := [] }

/-- Whether a code point is a byte that is no part of any character. -/
def isStrayByte (n : Nat) : Bool := 0xdc80 ≤ n && n < 0xdd00

/-- The number of bytes of a path, or of a part of one, that has no defect. -/
def byteCount (s : String) : Nat :=
  (Text.codePoints s.toList).foldl (fun total n =>
    total + if isStrayByte n then 1 else (Char.ofNat n).utf8Size) 0

/-- Why the path is none of any file, if it is none. -/
def defect? (p : FilePath) : Option PathDefect :=
  let points := Text.codePoints p.text.toList
  if points.any fun n => Text.isLoneUnit n && not (isStrayByte n) then some .loneUnit
  else if points.contains 0 then some .zeroCharacter
  else none

/-- The most bytes of a part. -/
def maxPart : Nat := 255

/-- The number of bytes that a path must stay below. -/
def pathEnd : Nat := 4096

end FilePath

/-! ## Trees -/

/-- What a place holds. -/
inductive FileEntry where
  | file (text : String)
  | directory
  /-- Something that takes what is written and keeps none of it. -/
  | device

/-- The files and empty directories of a tree, each with its place. -/
structure FileTree where
  entries : List (FilePath × FileEntry)

namespace FileTree

/-- What a place holds. It is a directory if anything is in it. -/
def at? (t : FileTree) (place : FilePath) : Option FileEntry :=
  if place.isAround then some .directory
  else
    match t.entries.lookup place with
    | some e => some e
    | none => if t.entries.any fun e => e.1.within place then some .directory else none

/-- The place that parts of a path lead to, seen from a directory. -/
def follow (t : FileTree) (directory : FilePath) : List String → Except FileError FilePath
  | [] => .ok directory
  | part :: rest =>
    match t.at? directory with
    | some .directory =>
      if FilePath.byteCount part > FilePath.maxPart then .error (.nameTooLong part)
      else t.follow (if part = ".." then directory.outward else directory.child part) rest
    | some (.file _) | some .device => .error (.notADirectory directory.text)
    | none => .error (.missing directory.text)

/-- The place that a path leads to. -/
def place (t : FileTree) (p : FilePath) : Except FileError FilePath :=
  match p.defect? with
  | some defect => .error (.noPath defect)
  | none =>
    if FilePath.byteCount p.text ≥ FilePath.pathEnd then .error (.nameTooLong p.text)
    else t.follow { absolute := p.absolute, parts := [] } p.parts

/-- What a path leads to, if it leads anywhere. Whether it does is not known of too long a name. -/
def find? (t : FileTree) (p : FilePath) : Except FileError (Option FileEntry) :=
  match t.place p with
  | .ok place => .ok (t.at? place)
  | .error (.nameTooLong part) => .error (.nameTooLong part)
  | .error _ => .ok none

/-! ## Reading -/

/-- The text of a file, its lines ended by line feeds. -/
def readText (t : FileTree) (p : FilePath) : Except Fault String := do
  match ← Fault.lift (t.find? p) with
  | none => throw (.input (.noSuchFile p.text))
  | some .directory | some .device => throw (.input (.notAFile p.text))
  | some (.file s) => return Text.withLineFeeds s

/-! ## Writing -/

/-- The place of a file that is to be written. Only the last part of its path may be new. -/
def writable (t : FileTree) (p : FilePath) : Except FileError FilePath := do
  let place ← t.place p
  match t.at? place, t.at? place.outward with
  | some .directory, _ => throw (.isDirectory p.text)
  | some (.file _), _ | some .device, _ => return place
  | none, some .directory => return place
  | none, some (.file _) | none, some .device => throw (.notADirectory p.text)
  | none, none => throw (.missing p.text)

/-- The tree with a text at a place. -/
def write (t : FileTree) (place : FilePath) (text : String) : FileTree :=
  match t.at? place with
  | some .device => t
  | _ => ⟨(place, .file text) :: t.entries.filter fun e => e.1 ≠ place⟩

/-- The tree with a text behind the one that a place has already. -/
def append (t : FileTree) (place : FilePath) (text : String) : FileTree :=
  match t.at? place with
  | some (.file s) => t.write place (s ++ text)
  | _ => t.write place text

/-- The files that an earlier tree did not have, or had with another text. -/
def changedSince (t earlier : FileTree) : List (FilePath × String) :=
  t.entries.filterMap fun e =>
    match e.2, earlier.at? e.1 with
    | .file s, some (.file s') => if s = s' then none else some (e.1, s)
    | .file s, _ => some (e.1, s)
    | .directory, _ | .device, _ => none

end FileTree

end StorageSnapshot
