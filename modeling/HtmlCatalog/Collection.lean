import HtmlCatalog.Value
import HtmlCatalog.ValueType

/-! Tags, their members and slots, and collections of tags, global attributes and global events.
Nothing here asks names to be distinct: in a collection the last entity with a name is the one
found, within a tag the first. -/
namespace HtmlCatalog

inductive MemberKind
  | attribute | property | event
  deriving DecidableEq, Repr

def MemberKind.text : MemberKind → String
  | .attribute => "attribute"
  | .property => "property"
  | .event => "event"

/-- An attribute, a property or an event, global or of the tag named by `fromTag`. -/
structure Member where
  name : String
  type : ValueType
  kind : MemberKind := .attribute
  builtIn : Bool := false
  description : Value := .null
  fromTag : Option String := none
  deriving DecidableEq, Repr

structure Slot where
  name : String
  description : Value := .null
  fromTag : Option String := none
  deriving DecidableEq, Repr

structure Tag where
  name : String
  attributes : List Member := []
  properties : List Member := []
  events : List Member := []
  slots : List Slot := []
  description : Value := .null
  builtIn : Bool := false
  deriving DecidableEq, Repr

structure Collection where
  tags : List Tag := []
  attributes : List Member := []
  events : List Member := []
  deriving DecidableEq, Repr

namespace Tag

def attribute? (t : Tag) (name : String) : Option Member := t.attributes.find? (·.name == name)

def property? (t : Tag) (name : String) : Option Member := t.properties.find? (·.name == name)

def event? (t : Tag) (name : String) : Option Member := t.events.find? (·.name == name)

end Tag

namespace Collection

def empty : Collection := {}

def tag? (c : Collection) (name : String) : Option Tag := c.tags.reverse.find? (·.name == name)

def attribute? (c : Collection) (name : String) : Option Member :=
  c.attributes.reverse.find? (·.name == name)

def event? (c : Collection) (name : String) : Option Member :=
  c.events.reverse.find? (·.name == name)

/-- All entities of all collections, one collection after the other. -/
def combine (cs : List Collection) : Collection where
  tags := cs.flatMap (·.tags)
  attributes := cs.flatMap (·.attributes)
  events := cs.flatMap (·.events)

@[simp] theorem combine_singleton (c : Collection) : combine [c] = c := by
  simp [combine]

end Collection
end HtmlCatalog
