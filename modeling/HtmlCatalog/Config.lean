import HtmlCatalog.Source
import HtmlCatalog.Yaml.Reader

/-! The settings for HTML data: sources in order, and names of tags, global attributes and global
events. They come from a map or from a file, which is read by any reader of YAML; in a file, a source
that names a file beside it is made to name that file from the working directory. -/
namespace HtmlCatalog

structure Config where
  customHtmlData : Value := .list []
  tags : List String := []
  attributes : List String := []
  events : List String := []
  deriving DecidableEq, Repr

namespace Config

inductive Fault
  | missing (path : Path)
  | nameTooLong (path : Path)
  | isADirectory (path : Path)
  | malformed (path : Path)
  | reading (fault : Yaml.Fault)
  | notAMapping (found : Value)
  | names (key : String) (found : Value)
  | unwritable
  deriving DecidableEq, Repr

def Fault.message : Fault → String
  | .missing p => "Config file not found: " ++ p.text
  | .nameTooLong p => FileTree.nameTooLongMessage p
  | .isADirectory p => FileTree.isADirectoryMessage p
  | .malformed p => "Invalid config file: " ++ p.text
  | .reading fault => fault.message
  | .notAMapping v => "Config file must contain a mapping, got " ++ v.typeName
  | .names key v => "'" ++ key ++ "' must be a list of strings, got " ++ v.literal
  | .unwritable => Digits.unwritableMessage

/-- What is wrong with a value that is no list of names, if the value can be written. -/
def namesFault (key : String) (found : Value) : Fault :=
  if found.isWritable then .names key found else .unwritable

/-- A setting with one source or several, as a list. -/
def sourcesOf : Value → List Value
  | .null => []
  | .list items => items
  | v => [v]

def sources (c : Config) : List Value := sourcesOf c.customHtmlData

/-- The names under a key; a value that does not count as given is no names. -/
def namesIn (es : List (Scalar × Value)) (key : String) : Except Fault (List String) :=
  let v := Value.field es key
  if v.isTruthy then
    match v with
    | .list items =>
      match Document.texts? items with
      | some names => .ok names
      | none => .error (namesFault key v)
    | v => .error (namesFault key v)
  else .ok []

/-- The settings in a map; keys that are no settings are passed over. -/
def ofMapping (es : List (Scalar × Value)) : Except Fault Config := do
  let tags ← namesIn es "globalHtmlTags"
  let attributes ← namesIn es "globalHtmlAttributes"
  let events ← namesIn es "globalHtmlEvents"
  let customHtmlData := (Value.lookup? es (.str "customHtmlData")).getD (.list [])
  return { customHtmlData, tags, attributes, events }

/-- A relative path to a file beside the settings, from the working directory; any other source
as it is. -/
def relocate (t : FileTree) (directory : Path) (v : Value) : Value :=
  match v with
  | .str s =>
    let p := Path.ofText s
    let beside := directory.join p
    if !p.isAbsolute && t.isFile beside then .str beside.text else v
  | v => v

def ofFile (r : Yaml.Reader) (t : FileTree) (p : Path) (bytes : List UInt8) :
    Except Fault Config :=
  match r.load bytes with
  | .error .malformed => .error (.malformed p)
  | .error f => .error (.reading f)
  | .ok v => do
    let es ← match v with
      | .null => pure []
      | .map es => pure es
      | v => throw (.notAMapping v)
    let c ← ofMapping es
    return { c with customHtmlData := .list (c.sources.map (relocate t p.parent)) }

def read (r : Yaml.Reader) (t : FileTree) (p : Path) : Except Fault Config :=
  match t.lookup p with
  | .ok (.file bytes) => ofFile r t p bytes
  | .ok .directory => .error (.isADirectory p)
  | .error .nameTooLong => .error (.nameTooLong p)
  | .error _ => .error (.missing p)

def loadedReport (p : Path) (c : Config) : String :=
  "Loaded config from " ++ p.text ++ " (" ++ toString c.sources.length ++
    " customHtmlData sources)"

def load (r : Yaml.Reader) (t : FileTree) (p : Path) : Logged (Except Fault Config) :=
  match read r t p with
  | .ok c => ⟨.ok c, [⟨.info, loadedReport p c⟩]⟩
  | .error f => ⟨.error f, []⟩

end Config
end HtmlCatalog
