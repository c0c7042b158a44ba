import HtmlCatalog.Baseline
import HtmlCatalog.Log
import HtmlCatalog.Merge
import HtmlCatalog.Patch

/-! The built-in collection: a document is parsed and patched, attribute types that are unknown
or that the resolver has an answer for are taken from the resolver, every entity is marked as
built in, and entities of one name are merged. -/
namespace HtmlCatalog
namespace Builtin

/-- Whether a type comes from the resolver: it has an answer, or there is no other. -/
def isResolved (r : Resolver) (m : Member) : Bool := r.knows m.name || m.type.isAny

def backfill (r : Resolver) (m : Member) : Member :=
  if isResolved r m then { m with type := r.typeOf m.name } else m

@[simp] theorem backfill_name (r : Resolver) (m : Member) : (backfill r m).name = m.name := by
  unfold backfill
  split <;> rfl

def markMember (m : Member) : Member := { m with builtIn := true }

def markTag (r : Resolver) (t : Tag) : Tag :=
  { t with
    builtIn := true
    attributes := t.attributes.map fun m => backfill r (markMember m)
    properties := t.properties.map markMember
    events := t.events.map markMember }

def mark (r : Resolver) (c : Collection) : Collection where
  tags := c.tags.map (markTag r)
  attributes := c.attributes.map fun m => backfill r (markMember m)
  events := c.events.map markMember

inductive Fault
  | document (fault : Document.Fault)
  | patch (fault : Patch.Fault)
  deriving DecidableEq, Repr

/-- The built-in collection made from any document and list of handler attributes. -/
def ofDocument (document : Value) (handlers : List Value) (r : Resolver) (patches : List Patch) :
    Except Fault Collection :=
  match Document.parse document with
  | .error f => .error (.document f)
  | .ok c =>
    match Patch.applyAll handlers patches c with
    | .error f => .error (.patch f)
    | .ok c => .ok (Collection.merge [mark r c])

/-- The collection made from the baseline, which has no fault. -/
def collection (r : Resolver) (patches : List Patch) : Collection :=
  ((ofDocument Baseline.document Baseline.handlerValues r patches).toOption).getD .empty

def sizesText (c : Collection) : String :=
  "tags=" ++ toString c.tags.length ++ ", attrs=" ++ toString c.attributes.length ++
    ", events=" ++ toString c.events.length

def build (r : Resolver) (patches : List Patch) : Logged Collection :=
  let c := collection r patches
  ⟨c, [⟨.info, "Built built-in collection: " ++ sizesText c⟩]⟩

def standard : Logged Collection := build .standard Patch.all

theorem build_value (r : Resolver) (patches : List Patch) :
    (build r patches).value = collection r patches := by
  simp only [build]

end Builtin
end HtmlCatalog
