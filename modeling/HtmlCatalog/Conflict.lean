import HtmlCatalog.Summary

/-! What a collection overrides in another one. Members are compared by key, and of several with
one key in a collection the last counts. One report has the keys whose types read differently, the
other those that are built in below and not above. -/
namespace HtmlCatalog
namespace Conflict

open Summary

/-- A key in both collections, with what each says. -/
structure Row where
  key : Key
  type : String
  builtIn : Bool
  newType : String
  newBuiltIn : Bool
  deriving DecidableEq, Repr

structure Reports where
  typeOverrides : List Row
  provenanceChanges : List Row
  deriving DecidableEq, Repr

/-- The rows that are not about a tag itself. -/
def memberRows (c : Collection) : List Summary.Row :=
  (rows c).filter fun r => r.key.kind != .tag

def lastRows : List Summary.Row → List Summary.Row
  | [] => []
  | r :: rs => if rs.any (·.key == r.key) then lastRows rs else r :: lastRows rs

/-- The rows with a key in both, in the order of the first. -/
def joinRows (base override : List Summary.Row) : List Row :=
  base.filterMap fun b =>
    (override.find? (·.key == b.key)).map fun o =>
      ⟨b.key, b.type, b.builtIn, o.type, o.builtIn⟩

def detect (base override : Collection) : Reports :=
  let joined := joinRows (lastRows (memberRows base)) (lastRows (memberRows override))
  { typeOverrides := joined.filter fun r => r.type != r.newType
    provenanceChanges := joined.filter fun r => r.builtIn && !r.newBuiltIn }

def Row.fields (r : Row) : List String :=
  r.key.fields ++ [r.type, boolText r.builtIn, r.newType, boolText r.newBuiltIn]

def header : List String := Summary.header ++ ["type_new", "built_in_new"]

def table (rs : List Row) : List (List String) := header :: rs.map Row.fields

end Conflict
end HtmlCatalog
