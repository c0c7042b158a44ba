import HtmlCatalog.Builtin
import HtmlCatalog.Config

/-! The collection that the settings describe, and the whole catalogue. The sources are merged in
their order; one that fails is reported and left out, unless the report cannot be written. Names
that are only listed come first, so that whatever a source says about them wins. -/
namespace HtmlCatalog
namespace UserData

/-- A source that has failed and cannot be written in the report about it. -/
inductive Fault
  | unwritable (source : Value)
  deriving DecidableEq, Repr

def Fault.message : Fault → String
  | .unwritable _ => Digits.unwritableMessage

/-- The sources read so far: what they describe together, and how many failed. -/
structure Progress where
  collection : Collection := .empty
  skipped : Nat := 0
  deriving DecidableEq, Repr

def failureReport (label : String) (f : Source.Fault) : LogEntry :=
  ⟨.error, "Error parsing user configuration 'customHtmlData' (" ++ label ++ "): " ++ f.message⟩

/-- Goes on with one more source. A source that fails is left out, but it has to be reported. -/
def step (t : FileTree) (p : Progress) (v : Value) : Logged (Except Fault Progress) :=
  let looked := (Source.resolve t (.value v)).log
  match Source.load t v with
  | .ok c => ⟨.ok { p with collection := Collection.merge [p.collection, c] }, looked⟩
  | .error f =>
    match Source.label? v with
    | some label =>
      ⟨.ok { p with skipped := p.skipped + 1 }, looked ++ [failureReport label f]⟩
    | none => ⟨.error (.unwritable v), looked⟩

def readAll (t : FileTree) (p : Progress) : List Value → Logged (Except Fault Progress)
  | [] => ⟨.ok p, []⟩
  | v :: rest => (step t p v).andThen fun p => readAll t p rest

/-- The entities that are only known by name. -/
def listed (config : Config) : Collection where
  tags := config.tags.map fun name => { name }
  attributes := config.attributes.map fun name => { name, type := .any }
  events := config.events.map fun name => { name, type := .any, kind := .event }

def skippedReport (n : Nat) : List LogEntry :=
  if n = 0 then []
  else [⟨.warning, "Skipped " ++ toString n ++ " customHtmlData source(s)"⟩]

def collection (t : FileTree) (config : Config) : Logged (Except Fault Collection) :=
  (readAll t {} config.sources).andThen fun p =>
    ⟨.ok (Collection.combine [listed config, p.collection]), skippedReport p.skipped⟩

end UserData

namespace Catalog

def build (t : FileTree) (config : Config) (includeBuiltin : Bool) :
    Logged (Except UserData.Fault Collection) :=
  (UserData.collection t config).andThen fun user => do
    if includeBuiltin then
      let builtin ← Builtin.standard
      return .ok (Collection.merge [builtin, user])
    else return .ok (Collection.merge [user])

end Catalog
end HtmlCatalog
