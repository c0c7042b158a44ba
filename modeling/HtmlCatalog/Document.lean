import HtmlCatalog.Collection
import HtmlCatalog.Resolver
import HtmlCatalog.Value.Literal

/-! HTML data documents: a map with a version, tags, global attributes, global events and named
sets of values. `Document.parse` turns one into a collection in which nothing is built in, or
says what is wrong with it. A section that is not given, or given as nothing, is empty. Properties,
events and slots belong to version 1.1 and are not looked at in version 1. -/
namespace HtmlCatalog
namespace Document

/-- The part of a document that an entry stands for. -/
inductive Role
  | document | tag | attribute | property | event | slot | valueSet | attributeValue
  | valueOf (set : String)
  deriving DecidableEq, Repr

def Role.text : Role → String
  | .document => "document"
  | .tag => "tag"
  | .attribute => "attribute"
  | .property => "property"
  | .event => "event"
  | .slot => "slot"
  | .valueSet => "valueSet"
  | .attributeValue => "attribute value"
  | .valueOf set => "value of valueSet '" ++ set ++ "'"

inductive Fault
  | notAnObject (role : Role) (found : Value)
  | unnamed (role : Role) (entries : List (Scalar × Value))
  | notAList (key : String) (found : Value)
  | typeHint (found : Value)
  | valueSetName (found : Value)
  | version (found : Value)
  | unwritable
  deriving DecidableEq, Repr

def Fault.reason : Fault → String
  | .notAnObject role v => role.text ++ " must be an object, got " ++ v.typeName
  | .unnamed role entries => role.text ++ " is missing 'name': " ++ (Value.map entries).literal
  | .notAList key v => "'" ++ key ++ "' must be a list, got " ++ v.typeName
  | .typeHint v => "'type' must be a string or a list of strings, got " ++ v.literal
  | .valueSetName v => "'valueSet' must be a string, got " ++ v.typeName
  | .version v => "unsupported version " ++ v.literal ++ " (supported: (1, 1.1))"
  | .unwritable => Digits.unwritableMessage

def Fault.message : Fault → String
  | .unwritable => Fault.unwritable.reason
  | f => "Invalid HTML data document: " ++ f.reason

def Fault.shown : Fault → Option Value
  | .unnamed _ entries => some (.map entries)
  | .typeHint v | .version v => some v
  | _ => none

/-- A fault can be stated if the value that it shows can be written. -/
def Fault.stated (f : Fault) : Fault := if f.shown.all Value.isWritable then f else .unwritable

abbrev Entries := List (Scalar × Value)

inductive Version
  | one | onePointOne
  deriving DecidableEq, Repr

def onePointOne : Binary64 := .finite false 4953959590107546 (-52)

theorem onePointOne_eq : onePointOne = Binary64.ofDecimal false 11 (-1) := by decide +kernel

def version? : Value → Option Version
  | .scalar s =>
    if s.sameKey (.int 1) then some .one
    else if s.sameKey (.real onePointOne) then some .onePointOne
    else none
  | _ => none

def readEntries (role : Role) : Value → Except Fault Entries
  | .map es => .ok es
  | v => .error (.notAnObject role v)

def nameIn (role : Role) (es : Entries) : Except Fault String :=
  match Value.field es "name" with
  | .str s => if s = "" then .error (Fault.unnamed role es).stated else .ok s
  | _ => .error (Fault.unnamed role es).stated

/-- The list under a key; a value that does not count as given is an empty list. -/
def section? (es : Entries) (key : String) : Except Fault (List Value) :=
  let v := Value.field es key
  if v.isTruthy then
    match v with
    | .list items => .ok items
    | v => .error (.notAList key v)
  else .ok []

/-- A description is a text, or a map that holds the text under `value`. -/
def description (es : Entries) : Value :=
  let d := match Value.field es "description" with
    | .map inner => Value.field inner "value"
    | v => v
  d.orElse .null

def readName (role : Role) (v : Value) : Except Fault String := do
  nameIn role (← readEntries role v)

def readValueSet (v : Value) : Except Fault (String × List String) := do
  let es ← readEntries .valueSet v
  let name ← nameIn .valueSet es
  let values ← (← section? es "values").mapM (readName (.valueOf name))
  return (name, values)

abbrev ValueSets := List (String × List String)

/-- The values of the last set with the name. -/
def ValueSets.lookup (sets : ValueSets) (name : String) : List String :=
  ((sets.reverse.find? (·.1 == name)).map (·.2)).getD []

def texts? : List Value → Option (List String)
  | [] => some []
  | .str s :: vs => (texts? vs).map (s :: ·)
  | _ :: _ => none

def statedType (es : Entries) : Except Fault (Option ValueType) :=
  match Value.field es "type" with
  | .null => .ok none
  | .str s => .ok (some (Hint.ofName s).type)
  | .list items =>
    match texts? items with
    | some values => .ok (some (ValueType.ofLiterals values))
    | none => .error (Fault.typeHint (.list items)).stated
  | v => .error (Fault.typeHint v).stated

def valueSetName (es : Entries) : Except Fault (Option String) :=
  match Value.field es "valueSet" with
  | .null => .ok none
  | .str s => .ok (some s)
  | v => .error (.valueSetName v)

/-- The value set of attributes that take no value. -/
def voidValueSet : String := "v"

def ofValues (values : List String) : ValueType :=
  if values = [] then .any else .ofLiterals values

/-- The type of an attribute: the one stated, else that of the value set without values, else its
own values, else those of its value set, else any. -/
def attributeType (sets : ValueSets) (es : Entries) : Except Fault ValueType := do
  match ← statedType es with
  | some t => return t
  | none =>
    let set ← valueSetName es
    if set = some voidValueSet then return .boolean
    let own ← (← section? es "values").mapM (readName .attributeValue)
    return ofValues (if own = [] then (set.map (ValueSets.lookup sets)).getD [] else own)

def readAttribute (sets : ValueSets) (kind : MemberKind) (owner : Option String) (v : Value) :
    Except Fault Member := do
  let role := if kind = .property then Role.property else Role.attribute
  let es ← readEntries role v
  let name ← nameIn role es
  let type ← attributeType sets es
  return { name, type, kind, description := description es, fromTag := owner }

def readEvent (owner : Option String) (v : Value) : Except Fault Member := do
  let es ← readEntries .event v
  let name ← nameIn .event es
  let type ← statedType es
  return { name, type := type.getD .any, kind := .event, description := description es,
           fromTag := owner }

def readSlot (owner : String) (v : Value) : Except Fault Slot := do
  let es ← readEntries .slot v
  let name ← nameIn .slot es
  return { name, description := description es, fromTag := some owner }

def readTag (sets : ValueSets) (version : Version) (v : Value) : Except Fault Tag := do
  let es ← readEntries .tag v
  let name ← nameIn .tag es
  let attributes ← (← section? es "attributes").mapM (readAttribute sets .attribute (some name))
  match version with
  | .one => return { name, attributes, description := description es }
  | .onePointOne =>
    let properties ← (← section? es "properties").mapM (readAttribute sets .property (some name))
    let events ← (← section? es "events").mapM (readEvent (some name))
    let slots ← (← section? es "slots").mapM (readSlot name)
    return { name, attributes, properties, events, slots, description := description es }

def parse (v : Value) : Except Fault Collection := do
  let es ← readEntries .document v
  match version? (Value.field es "version") with
  | none => .error (Fault.version (Value.field es "version")).stated
  | some version =>
    let sets ← (← section? es "valueSets").mapM readValueSet
    let tags ← (← section? es "tags").mapM (readTag sets version)
    let attributes ← (← section? es "globalAttributes").mapM (readAttribute sets .attribute none)
    match version with
    | .one => return { tags, attributes }
    | .onePointOne =>
      let events ← (← section? es "globalEvents").mapM (readEvent none)
      return { tags, attributes, events }

end Document
end HtmlCatalog
