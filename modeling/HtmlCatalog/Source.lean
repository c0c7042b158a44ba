import HtmlCatalog.Document
import HtmlCatalog.File.Tree
import HtmlCatalog.Json
import HtmlCatalog.Log
import HtmlCatalog.Text.Utf8

/-! Sources of HTML data. A source is a value or a path; a text that names a file stands for the
file, any other value for itself. A file holds a value in object notation, and a file that holds a
bare list stands for a version 1 document with these tags. -/
namespace HtmlCatalog

inductive Source
  | value (v : Value)
  | path (p : Path)
  deriving DecidableEq, Repr

inductive Origin
  | inline (v : Value)
  | file (p : Path)
  deriving DecidableEq, Repr

namespace Source

inductive Fault
  | missing (path : Path)
  | nameTooLong (path : Path)
  | unreadable (path : Path)
  | encoding (fault : Utf8.Fault)
  | digitLimit (count : Nat)
  | notADocument (label : String)
  | document (fault : Document.Fault)
  deriving DecidableEq, Repr

def skippedMessage (label reason : String) : String :=
  "Source skipped: " ++ label ++ " (" ++ reason ++ ")"

def Fault.message : Fault → String
  | .missing p => "JSON file not found: " ++ p.text
  | .nameTooLong p => FileTree.nameTooLongMessage p
  | .unreadable p => "Failed to read JSON: " ++ p.text
  | .encoding fault => fault.message
  | .digitLimit count => Digits.limitMessage count
  | .notADocument label =>
    skippedMessage label "not an HTML data document (expected an object with 'version')"
  | .document fault => fault.message

def labelLength : Nat := 60

def inlineLabel : String := "<inline>"

/-- How messages about the settings name a source, if it can be written. -/
def label? (v : Value) : Option String :=
  match v with
  | .map _ => some inlineLabel
  | v => if v.isWritable then some (Text.abbreviate labelLength v.text) else none

def literal : Source → String
  | .value v => v.literal
  | .path p => "PosixPath(" ++ Text.quoted p.text ++ ")"

def path? : Source → Option Path
  | .value (.str s) => some (.ofText s)
  | .value _ => none
  | .path p => some p

def lookupReport (t : FileTree) (s : Source) (p : Path) : String :=
  "Resolving customHtmlData source " ++ s.literal ++
    " (absolute=" ++ (t.workingDirectory.join p).text ++
    ", cwd=" ++ t.workingDirectory.text ++ ")"

/-- Where the data of a source are. A path that is given as one has to be a file. -/
def origin (t : FileTree) (s : Source) : Except Fault Origin :=
  match s with
  | .value v =>
    match (Source.value v).path? with
    | some p => if t.isFile p then .ok (.file p) else .ok (.inline v)
    | none => .ok (.inline v)
  | .path p => if t.isFile p then .ok (.file p) else .error (.missing p)

def resolve (t : FileTree) (s : Source) : Logged (Except Fault Origin) :=
  { value := s.origin t
    log := match s.path? with
      | some p => [⟨.debug, lookupReport t s p⟩]
      | none => [] }

end Source

namespace Origin

def ofFile (t : FileTree) (p : Path) : Except Source.Fault Origin :=
  match t.lookup p with
  | .ok (.file _) => .ok (.file p)
  | .error .nameTooLong => .error (.nameTooLong p)
  | _ => .error (.missing p)

/-- How messages about its data name an origin. A text is cut before it is quoted. -/
def label : Origin → String
  | .inline (.str s) => Text.quoted (Text.abbreviate Source.labelLength s)
  | .inline _ => Source.inlineLabel
  | .file p => p.text

def readFile (p : Path) (bytes : List UInt8) : Except Source.Fault Value :=
  match Utf8.decode bytes with
  | .error f => .error (.encoding f)
  | .ok cs =>
    match Json.read (Text.normalizeLines cs) with
    | .ok v => .ok v
    | .error .malformed => .error (.unreadable p)
    | .error (.digitLimit n) => .error (.digitLimit n)

def read (t : FileTree) : Origin → Except Source.Fault Value
  | .inline v => .ok v
  | .file p =>
    match t.lookup p with
    | .ok (.file bytes) => readFile p bytes
    | _ => .error (.unreadable p)

def ofTagList (tags : List Value) : Value :=
  .map [(.str "version", .int 1), (.str "tags", .list tags)]

/-- Makes up for a list of tags without a document around it, in a file only. -/
def repair : Origin → Value → Value
  | .file _, .list tags => ofTagList tags
  | _, v => v

/-- Whether a value has the form of a document: a map with a version. -/
def isDocument : Value → Bool
  | .map es => (Value.lookup? es (.str "version")).isSome
  | _ => false

def load (t : FileTree) (o : Origin) : Except Source.Fault Collection :=
  match o.read t with
  | .error f => .error f
  | .ok v =>
    let v := o.repair v
    if isDocument v then
      match Document.parse v with
      | .ok c => .ok c
      | .error f => .error (.document f)
    else .error (.notADocument o.label)

end Origin

namespace Source

def load (t : FileTree) (v : Value) : Except Fault Collection :=
  match (Source.value v).origin t with
  | .ok o => o.load t
  | .error f => .error f

end Source
end HtmlCatalog
