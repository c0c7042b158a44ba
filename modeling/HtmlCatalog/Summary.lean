import HtmlCatalog.Collection

/-! One row for every tag and every attribute, property and event of a collection, in the order
of the collection: each tag before its members, global members last. Slots have no rows. -/
namespace HtmlCatalog
namespace Summary

inductive Scope
  | tag | global
  deriving DecidableEq, Repr

def Scope.text : Scope → String
  | .tag => "tag"
  | .global => "global"

inductive RowKind
  | tag
  | member (kind : MemberKind)
  deriving DecidableEq, Repr

def RowKind.text : RowKind → String
  | .tag => "tag"
  | .member kind => kind.text

/-- What a row is about. The tag name of a global member is empty. -/
structure Key where
  scope : Scope
  tagName : String
  name : String
  kind : RowKind
  deriving DecidableEq, Repr

structure Row where
  key : Key
  type : String
  builtIn : Bool
  deriving DecidableEq, Repr

def tagRow (t : Tag) : Row := ⟨⟨.tag, t.name, t.name, .tag⟩, "", t.builtIn⟩

def memberRow (scope : Scope) (tagName : String) (m : Member) : Row :=
  ⟨⟨scope, tagName, m.name, .member m.kind⟩, m.type.text, m.builtIn⟩

def tagRows (t : Tag) : List Row :=
  tagRow t :: (t.attributes ++ t.properties ++ t.events).map (memberRow .tag t.name)

def rows (c : Collection) : List Row :=
  c.tags.flatMap tagRows ++ (c.attributes ++ c.events).map (memberRow .global "")

theorem length_tagRows (t : Tag) :
    (tagRows t).length = 1 + t.attributes.length + t.properties.length + t.events.length := by
  simp [tagRows]
  omega

def Key.fields (k : Key) : List String := [k.scope.text, k.tagName, k.name, k.kind.text]

def boolText (b : Bool) : String := if b then "true" else "false"

def Row.fields (r : Row) : List String := r.key.fields ++ [r.type, boolText r.builtIn]

def header : List String := ["scope", "tag_name", "name", "kind", "type", "built_in"]

def table (c : Collection) : List (List String) := header :: (rows c).map Row.fields

end Summary
end HtmlCatalog
