import HtmlCatalog.File.Path
import HtmlCatalog.Text.Quoted

/-! A tree of files and directories with a working directory. A path is followed name by name: a
name is looked up in the directory reached so far, and `..` leads to that directory's parent. What
can go wrong on the way is part of the answer. -/
namespace HtmlCatalog

inductive FileEntry
  | file (bytes : List UInt8)
  | directory
  deriving DecidableEq, Repr, Inhabited

/-- Entries by the names that lead to them from the root. -/
structure FileTree where
  workingDirectory : Path
  entries : List (List String × FileEntry)
  deriving DecidableEq, Repr

namespace FileTree

inductive Obstacle
  | missing | notADirectory | nameTooLong | nulInName
  deriving DecidableEq, Repr

/-- The names that lead from the root to an entry. -/
abbrev Location := List String

def empty (workingDirectory : Path) : FileTree :=
  { workingDirectory, entries := [(workingDirectory.parts, .directory)] }

/-- The entry at a location; the root is always a directory. -/
def get? (t : FileTree) (l : Location) : Option FileEntry :=
  if l = [] then some .directory else (t.entries.find? (·.1 == l)).map (·.2)

def nameLimit : Nat := 255

def pathLimit : Nat := 4095

/-- The location that one more name leads to; it need not exist. -/
def step (t : FileTree) (l : Location) (name : String) : Except Obstacle Location :=
  match t.get? l with
  | none => .error .missing
  | some (.file _) => .error .notADirectory
  | some .directory =>
    if name = ".." then .ok l.dropLast
    else if nameLimit < name.utf8ByteSize then .error .nameTooLong
    else .ok (l ++ [name])

def start (t : FileTree) (p : Path) : Location :=
  if p.isAbsolute then [] else t.workingDirectory.parts

/-- The location that a path leads to; only its last name need not exist. -/
def locate (t : FileTree) (p : Path) : Except Obstacle Location :=
  if '\x00' ∈ p.text.toList then .error .nulInName
  else if pathLimit < p.text.utf8ByteSize then .error .nameTooLong
  else p.parts.foldlM t.step (t.start p)

def lookup (t : FileTree) (p : Path) : Except Obstacle FileEntry :=
  match t.locate p with
  | .error o => .error o
  | .ok l =>
    match t.get? l with
    | some e => .ok e
    | none => .error .missing

def isFile (t : FileTree) (p : Path) : Bool :=
  match t.lookup p with
  | .ok (.file _) => true
  | _ => false

def put (t : FileTree) (l : Location) (e : FileEntry) : FileTree :=
  { t with entries := go t.entries }
where
  go : List (List String × FileEntry) → List (List String × FileEntry)
    | [] => [(l, e)]
    | x :: xs => if x.1 = l then (l, e) :: xs else x :: go xs

theorem find?_put_go_self (l : Location) (e : FileEntry) (xs : List (List String × FileEntry)) :
    (put.go l e xs).find? (·.1 == l) = some (l, e) := by
  induction xs with
  | nil => simp [put.go]
  | cons x xs ih =>
    simp only [put.go]
    split <;> simp_all

theorem find?_put_go_of_ne {l k : Location} (h : k ≠ l) (e : FileEntry)
    (xs : List (List String × FileEntry)) :
    (put.go l e xs).find? (·.1 == k) = xs.find? (·.1 == k) := by
  induction xs with
  | nil => simp [put.go, h.symm]
  | cons x xs ih =>
    simp only [put.go]
    split
    · rename_i hx
      simp [hx, h.symm]
    · simp only [List.find?_cons, ih]

theorem get?_put_self (t : FileTree) {l : Location} (h : l ≠ []) (e : FileEntry) :
    (t.put l e).get? l = some e := by
  simp [get?, h, put, find?_put_go_self]

theorem get?_put_of_ne (t : FileTree) {l k : Location} (h : k ≠ l) (e : FileEntry) :
    (t.put l e).get? k = t.get? k := by
  simp [get?, put, find?_put_go_of_ne h]

inductive Fault
  | isADirectory (path : Path)
  | exists (path : Path)
  | notADirectory (path : Path)
  | missing (path : Path)
  | nameTooLong (path : Path)
  | nulInName
  deriving DecidableEq, Repr

def systemMessage (code : Nat) (words : String) (p : Path) : String :=
  "[Errno " ++ toString code ++ "] " ++ words ++ ": " ++ Text.quoted p.text

def nameTooLongMessage (p : Path) : String := systemMessage 36 "File name too long" p

def isADirectoryMessage (p : Path) : String := systemMessage 21 "Is a directory" p

def Fault.message : Fault → String
  | .isADirectory p => isADirectoryMessage p
  | .exists p => systemMessage 17 "File exists" p
  | .notADirectory p => systemMessage 20 "Not a directory" p
  | .missing p => systemMessage 2 "No such file or directory" p
  | .nameTooLong p => nameTooLongMessage p
  | .nulInName => "embedded null byte"

def Obstacle.fault (p : Path) : Obstacle → Fault
  | .missing => .missing p
  | .notADirectory => .notADirectory p
  | .nameTooLong => .nameTooLong p
  | .nulInName => .nulInName

/-- Makes one directory, unless there is one; its parent must be there. -/
def makeDirectory (t : FileTree) (p : Path) : Except Fault FileTree :=
  match t.locate p with
  | .error o => .error (o.fault p)
  | .ok l =>
    match t.get? l with
    | some .directory => .ok t
    | some (.file _) => .error (.exists p)
    | none =>
      if t.get? l.dropLast = some .directory then .ok (t.put l .directory)
      else .error (.missing p)

def write (t : FileTree) (p : Path) (bytes : List UInt8) : Except Fault FileTree :=
  match t.locate p with
  | .error o => .error (o.fault p)
  | .ok l =>
    match t.get? l with
    | some .directory => .error (.isADirectory p)
    | some (.file _) => .ok (t.put l (.file bytes))
    | none =>
      if t.get? l.dropLast = some .directory then .ok (t.put l (.file bytes))
      else .error (.missing p)

/-- Work on a file tree, of which what was done before a fault stays done. -/
abbrev Work := EStateM Fault FileTree

def attempt (f : FileTree → Except Fault FileTree) : Work Unit := fun t =>
  match f t with
  | .ok t => .ok () t
  | .error e => .error e t

/-- Makes a directory and those that lead to it. The parents are only made when they are found
to be missing. `fuel` is the number of names that may be made. -/
def makeDirectories (p : Path) : Nat → Work Unit
  | 0 => attempt (·.makeDirectory p)
  | fuel + 1 => fun t =>
    match t.makeDirectory p with
    | .error (.missing q) =>
      if p.parts = [] then .error (.missing q) t
      else (do makeDirectories p.parent fuel; attempt (·.makeDirectory p)) t
    | .error e => .error e t
    | .ok t => .ok () t

def ensureDirectory (p : Path) : Work Unit := makeDirectories p p.parts.length

end FileTree
end HtmlCatalog
