import HtmlCatalog.Yaml.Node

/-! The value that the bytes of a YAML file hold. Collections are filled level by level, so of
several faults the one nearest the root is reported, and of those on one level the first. The
entries of mappings under a merge key come before a mapping's own. -/
namespace HtmlCatalog
namespace Yaml

/-- A result, or a fault and the step in which it is met. -/
abbrev Stepped (α : Type) := Except (Nat × Fault) α

namespace Stepped

/-- Both results; of two faults the one met earlier, of two in one step the first. -/
def both {α β γ : Type} (f : α → β → γ) (x : Stepped α) (y : Stepped β) : Stepped γ :=
  match x, y with
  | .ok a, .ok b => .ok (f a b)
  | .error e, .ok _ => .error e
  | .ok _, .error e => .error e
  | .error d, .error e => .error (if e.1 < d.1 then e else d)

/-- A result that is asked for in a step, at which anything that would be met later is simply
malformed. -/
def within {α : Type} (step : Nat) (x : Stepped α) : Stepped α :=
  match x with
  | .ok a => .ok a
  | .error e => .error (if step < e.1 then (step, .malformed) else e)

end Stepped

namespace Node

/-- The text of a scalar; a mapping stands for the text under its default key. -/
def textOf : Node → Option String
  | .scalar _ s => some s
  | .mapping _ entries => go entries
  | _ => none
where
  go : List (Node × Node) → Option String
    | [] => none
    | (k, v) :: rest => if k.tag = .default then textOf v else go rest

def scalarValue (step : Nat) (tag : NodeTag) (text : Option String) : Stepped Value :=
  match text with
  | none => .error (step, .malformed)
  | some s =>
    match Scalar.value tag s with
    | .ok x => .ok (.scalar x)
    | .error f => .error (step, f)

def keyOf (step : Nat) (v : Stepped Value) : Stepped HtmlCatalog.Scalar :=
  match v.within step with
  | .ok (.scalar s) => .ok s
  | .ok _ => .error (step, .malformed)
  | .error e => .error e

/-- A key written as a lone equals sign is that text. -/
def plainKey? : Node → Option String
  | .scalar .default s => some s
  | _ => none

mutual

def mergesWell : List (Node × Node) → Bool
  | [] => true
  | (k, v) :: rest => (k.tag != .merge || isMergeable v) && mergesWell rest

def isMergeable : Node → Bool
  | .mapping _ entries => mergesWell entries
  | .sequence _ items => areMergeable items
  | _ => false

def areMergeable : List Node → Bool
  | [] => true
  | .mapping _ entries :: rest => mergesWell entries && areMergeable rest
  | _ :: _ => false

end

abbrev Pairs := List (HtmlCatalog.Scalar × Value)

/-- The pairs of a mapping that is filled in a step: those that merge keys bring in, then its own. -/
def filled (step : Nat) (entries : List (Node × Node)) (merged own : Stepped Pairs) :
    Stepped Pairs :=
  if mergesWell entries then Stepped.both (· ++ ·) merged own else .error (step, .malformed)

mutual

/-- The value of a node at a depth. Scalars at depth `d` are made in step `d`, collections there are
filled in step `d + 1`. -/
def value (depth : Nat) : Node → Stepped Value
  | .scalar tag s =>
    if tag.isCollection then .error (depth + 1, .malformed) else scalarValue depth tag (some s)
  | .sequence tag items =>
    match tag with
    | .sequence => (values (depth + 1) items).map .list
    | .pairs => (pairValues (depth + 1) items).map .list
    | _ => .error (if tag.isCollection then depth + 1 else depth, .malformed)
  | .mapping tag entries =>
    let pairs := filled (depth + 1) entries (mergedPairs (depth + 1) entries)
      (ownPairs (depth + 1) entries)
    match tag with
    | .mapping => pairs.map fun ps => .map (Value.ofPairs ps)
    | .set => pairs.map fun ps => .set ((Value.ofPairs ps).map (·.1))
    | _ =>
      if tag.isCollection then .error (depth + 1, .malformed)
      else scalarValue depth tag (Node.mapping tag entries).textOf
  | .enclosing _ => .error (depth, .malformed)

def values (depth : Nat) : List Node → Stepped (List Value)
  | [] => .ok []
  | n :: rest => Stepped.both (· :: ·) (value depth n) (values depth rest)

/-- The pairs in mappings of one entry each. Nothing tells a pair from a list, so each is read as a
list of two; only the text of such a value shows the difference. -/
def pairValues (depth : Nat) : List Node → Stepped (List Value)
  | [] => .ok []
  | .mapping _ [(k, v)] :: rest =>
    let pair := Stepped.both (fun k v => .list [k, v]) (value depth k) (value depth v)
    Stepped.both (· :: ·) pair (pairValues depth rest)
  | _ :: _ => .error (depth, .malformed)

def ownPairs (depth : Nat) : List (Node × Node) → Stepped Pairs
  | [] => .ok []
  | (k, v) :: rest =>
    let own := ownPairs depth rest
    if k.tag = .merge then own
    else
      let key := match plainKey? k with
        | some s => .ok (.str s)
        | none => keyOf depth (value depth k)
      Stepped.both (· :: ·) (Stepped.both (fun k v => (k, v)) key (value depth v)) own

def mergedPairs (depth : Nat) : List (Node × Node) → Stepped Pairs
  | [] => .ok []
  | (k, v) :: rest =>
    let merged := mergedPairs depth rest
    if k.tag = .merge then Stepped.both (· ++ ·) (pairsIn depth v) merged else merged

/-- All pairs of a mapping, or of the mappings in a sequence, the last mapping first. -/
def pairsIn (depth : Nat) : Node → Stepped Pairs
  | .mapping _ entries =>
    Stepped.both (· ++ ·) (mergedPairs depth entries) (ownPairs depth entries)
  | .sequence _ items => pairsInAll depth items
  | _ => .ok []

def pairsInAll (depth : Nat) : List Node → Stepped Pairs
  | [] => .ok []
  | n :: rest => Stepped.both (· ++ ·) (pairsInAll depth rest) (pairsIn depth n)

end

end Node

def load (bytes : List UInt8) : Except Fault Value := do
  let c := Cursor.ofBytes bytes
  let n ← Node.ofText c
  match c.ending, n with
  | some f, _ => throw f
  | none, none => return .null
  | none, some n => (n.value 0).mapError (·.2)

/-- How files are read, of which nothing is assumed but that a value comes from a text alone. -/
structure Reader where
  load : List UInt8 → Except Fault Value
  isText_of_load : ∀ {bytes v}, load bytes = .ok v → Utf8.IsText bytes

theorem isText_of_load {bytes : List UInt8} {v : Value} (h : load bytes = .ok v) :
    Utf8.IsText bytes := by
  unfold Yaml.load at h
  cases hnode : Node.ofText (Cursor.ofBytes bytes) with
  | error f => simp [hnode, bind, Except.bind] at h
  | ok n =>
    cases hending : (Cursor.ofBytes bytes).ending with
    | some f => simp [hnode, hending, bind, Except.bind, throw, throwThe, MonadExceptOf.throw] at h
    | none => exact Cursor.isText_of_ofBytes hending

def standard : Reader := ⟨load, isText_of_load⟩

end Yaml
end HtmlCatalog
