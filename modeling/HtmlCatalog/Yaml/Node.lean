import HtmlCatalog.Yaml.Scalar
import HtmlCatalog.Yaml.Token

/-! The tree that the tokens of a YAML document make up. Every node has its tag, given or found;
an alias is replaced by the node with its anchor. A collection may hold an alias of itself, and is
then unfolded as far as anything looks into it. A text holds at most one document. -/
namespace HtmlCatalog
namespace Yaml

/-- While a collection is read, `enclosing` stands for it where it holds itself. -/
inductive Node
  | scalar (tag : NodeTag) (text : String)
  | sequence (tag : NodeTag) (items : List Node)
  | mapping (tag : NodeTag) (entries : List (Node × Node))
  | enclosing (anchor : String)
  deriving Repr

namespace Node

def tag : Node → NodeTag
  | .scalar t _ => t
  | .sequence t _ => t
  | .mapping t _ => t
  | .enclosing _ => .other

def absent : Node := .scalar .null ""

def withoutParts : Node → Node
  | .sequence t _ => .sequence t []
  | .mapping t _ => .mapping t []
  | n => n

mutual

/-- A node with another one in place of the collection with an anchor. -/
def replace (anchor : String) (other : Node) : Node → Node
  | .scalar t s => .scalar t s
  | .sequence t items => .sequence t (replaceAll anchor other items)
  | .mapping t entries => .mapping t (replaceEntries anchor other entries)
  | .enclosing name => if name = anchor then other else .enclosing name

def replaceAll (anchor : String) (other : Node) : List Node → List Node
  | [] => []
  | n :: rest => replace anchor other n :: replaceAll anchor other rest

def replaceEntries (anchor : String) (other : Node) : List (Node × Node) → List (Node × Node)
  | [] => []
  | (k, v) :: rest =>
    (replace anchor other k, replace anchor other v) :: replaceEntries anchor other rest

end

/-- No value is looked into deeper than this. -/
def unfoldings : Nat := 8

/-- A collection that may hold itself. A tree cannot go on for ever, so below the last unfolding it
is empty; only the text of such a value shows the difference. -/
def unfold (anchor : String) (n : Node) : Node :=
  Nat.repeat (fun inner => replace anchor inner n) unfoldings n.withoutParts

end Node

/-- What is still to be read, the anchors met so far, of which one without a node is not yet
complete, and the names that tag handles stand for. -/
structure Composer where
  tokens : List Token
  anchors : List (String × Option Node) := []
  handles : List (String × String) := []

abbrev Compose := StateT Composer (Except Fault)

namespace Compose

def malformed {α : Type} : Compose α := throw .malformed

/-- The next token. A fault among the tokens is met when it is next. -/
def peek : Compose Token := do
  match (← get).tokens with
  | [] => return .streamEnd
  | .fault f :: _ => throw f
  | t :: _ => return t

def next : Compose Unit := modify fun s => { s with tokens := s.tokens.tail }

def expect (t : Token) : Compose Unit := do
  if (← peek) = t then next else malformed

def isNext (ts : List Token) : Compose Bool := return ts.contains (← peek)

def usualHandles : List (String × String) := [("!", "!"), ("!!", NodeTag.standardRoot)]

def tagName (handle : Option String) (suffix : String) : Compose String := do
  match handle with
  | none => return suffix
  | some h =>
    match (← get).handles.find? (·.1 == h) with
    | some (_, target) => return target ++ suffix
    | none => malformed

def properties : Compose (Option String × Option String) := do
  match ← peek with
  | .anchor name =>
    next
    match ← peek with
    | .tag h s => next; return (some name, some (← tagName h s))
    | _ => return (some name, none)
  | .tag h s =>
    next
    match ← peek with
    | .anchor name => next; return (some name, some (← tagName h s))
    | _ => return (none, some (← tagName h s))
  | _ => return (none, none)

/-- The tag of a scalar: the one given, or by its form if it is plain, or a text. A lone mark
leaves the tag to the form. -/
def scalarTag (tag : Option String) (text : String) (plain : Bool) : NodeTag :=
  match tag with
  | some name => if name = "!" then Scalar.resolve text else NodeTag.ofName name
  | none => if plain then Scalar.resolve text else .text

def collectionTag (tag : Option String) (usual : NodeTag) : NodeTag :=
  match tag with
  | some name => if name = "!" then usual else NodeTag.ofName name
  | none => usual

/-- Where a node stands: whether block collections may begin there, and whether a sequence may
begin there without being indented. -/
inductive Place
  | block | blockOrUnindented | flow
  deriving DecidableEq

def lookUp (name : String) : Compose Node := do
  match (← get).anchors.find? (·.1 == name) with
  | some (_, some n) => return n
  | some (_, none) => return .enclosing name
  | none => malformed

def openAnchor (anchor : Option String) : Compose Unit := do
  match anchor with
  | none => return
  | some name =>
    if (← get).anchors.any (·.1 == name) then malformed
    else modify fun s => { s with anchors := (name, none) :: s.anchors }

/-- The node once it is complete, which the nodes in it may also hold. -/
def closeAnchor (anchor : Option String) (n : Node) : Compose Node := do
  match anchor with
  | none => return n
  | some name =>
    let n := n.unfold name
    modify fun s =>
      let inner := s.anchors.map fun p => (p.1, p.2.map (Node.replace name n))
      { s with anchors := (name, some n) :: inner }
    return n

mutual

def node : Nat → Place → Compose Node
  | 0, _ => malformed
  | fuel + 1, place => do
    match ← peek with
    | .alias name => next; lookUp name
    | _ =>
      let (anchor, tag) ← properties
      openAnchor anchor
      let n ← content fuel place (anchor.isSome || tag.isSome) tag
      closeAnchor anchor n

/-- A node after its anchor and tag, which by themselves are an empty scalar. -/
def content : Nat → Place → Bool → Option String → Compose Node
  | 0, _, _, _ => malformed
  | fuel + 1, place, hasProperties, tag => do
    let sequence (items : List Node) : Node := .sequence (collectionTag tag .sequence) items
    let mapping (entries : List (Node × Node)) : Node :=
      .mapping (collectionTag tag .mapping) entries
    match ← peek, place with
    | .blockEntry, .blockOrUnindented => return sequence (← unindentedItems fuel)
    | .scalar text plain, _ => next; return .scalar (scalarTag tag text plain) text
    | .flowSequenceStart, _ => next; return sequence (← flowItems fuel true)
    | .flowMappingStart, _ => next; return mapping (← flowEntries fuel true)
    | .blockSequenceStart, .block | .blockSequenceStart, .blockOrUnindented =>
      next; return sequence (← blockItems fuel)
    | .blockMappingStart, .block | .blockMappingStart, .blockOrUnindented =>
      next; return mapping (← blockEntries fuel)
    | _, _ => if hasProperties then return .scalar (scalarTag tag "" true) "" else malformed

def nodeUnless : Nat → List Token → Place → Compose Node
  | 0, _, _ => malformed
  | fuel + 1, ends, place => do
    if ← isNext ends then return Node.absent else node fuel place

def blockItems : Nat → Compose (List Node)
  | 0 => malformed
  | fuel + 1 => do
    match ← peek with
    | .blockEntry =>
      next
      let n ← nodeUnless fuel [.blockEntry, .blockEnd] .block
      return n :: (← blockItems fuel)
    | _ => expect .blockEnd; return []

def unindentedItems : Nat → Compose (List Node)
  | 0 => malformed
  | fuel + 1 => do
    match ← peek with
    | .blockEntry =>
      next
      let n ← nodeUnless fuel [.blockEntry, .key, .value, .blockEnd] .block
      return n :: (← unindentedItems fuel)
    | _ => return []

def blockEntries : Nat → Compose (List (Node × Node))
  | 0 => malformed
  | fuel + 1 => do
    match ← peek with
    | .key =>
      next
      let k ← nodeUnless fuel [.key, .value, .blockEnd] .blockOrUnindented
      let v ← blockValue fuel
      return (k, v) :: (← blockEntries fuel)
    | _ => expect .blockEnd; return []

def blockValue : Nat → Compose Node
  | 0 => malformed
  | fuel + 1 => do
    match ← peek with
    | .value => next; nodeUnless fuel [.key, .value, .blockEnd] .blockOrUnindented
    | _ => return Node.absent

/-- The items of a flow sequence; before all but the first a comma has to stand. -/
def flowItems : Nat → Bool → Compose (List Node)
  | 0, _ => malformed
  | fuel + 1, isFirst => do
    match ← peek with
    | .flowSequenceEnd => next; return []
    | _ =>
      if !isFirst then expect .flowEntry
      match ← peek with
      | .flowSequenceEnd => next; return []
      | .key =>
        next
        let k ← nodeUnless fuel [.value, .flowEntry, .flowSequenceEnd] .flow
        let v ← flowValue fuel .flowSequenceEnd
        return .mapping .mapping [(k, v)] :: (← flowItems fuel false)
      | _ =>
        let n ← node fuel .flow
        return n :: (← flowItems fuel false)

def flowValue : Nat → Token → Compose Node
  | 0, _ => malformed
  | fuel + 1, closing => do
    match ← peek with
    | .value => next; nodeUnless fuel [.flowEntry, closing] .flow
    | _ => return Node.absent

/-- The entries of a flow mapping; an entry without a key mark has no value. -/
def flowEntries : Nat → Bool → Compose (List (Node × Node))
  | 0, _ => malformed
  | fuel + 1, isFirst => do
    match ← peek with
    | .flowMappingEnd => next; return []
    | _ =>
      if !isFirst then expect .flowEntry
      match ← peek with
      | .flowMappingEnd => next; return []
      | .key =>
        next
        let k ← nodeUnless fuel [.value, .flowEntry, .flowMappingEnd] .flow
        let v ← flowValue fuel .flowMappingEnd
        return (k, v) :: (← flowEntries fuel false)
      | _ =>
        let n ← node fuel .flow
        return (n, Node.absent) :: (← flowEntries fuel false)

end

/-- The directives before a document: at most one version, of which the first number is one, and
each tag handle once. -/
def directives : Nat → Bool → List (String × String) → Compose (List (String × String))
  | 0, _, _ => malformed
  | fuel + 1, hasVersion, handles => do
    match ← peek with
    | .versionDirective major =>
      next
      if hasVersion ∨ major ≠ 1 then malformed else directives fuel true handles
    | .tagDirective handle target =>
      next
      if handles.any (·.1 == handle) then malformed
      else directives fuel hasVersion ((handle, target) :: handles)
    | .otherDirective => next; directives fuel hasVersion handles
    | _ => return handles

def skipDocumentEnds : Nat → Compose Unit
  | 0 => return
  | fuel + 1 => do
    match ← peek with
    | .documentEnd => next; skipDocumentEnds fuel
    | _ => return

/-- The end of the text; the directives of one more document are read before it is refused. -/
def streamEnd (fuel : Nat) : Compose Unit := do
  match ← peek with
  | .streamEnd => return
  | _ =>
    let _ ← directives fuel false []
    let _ ← peek
    malformed

def document : Compose (Option Node) := do
  let fuel := 4 * (← get).tokens.length + 8
  match ← peek with
  | .streamEnd => return none
  | first =>
    let startsHere := match first with
      | .documentStart | .versionDirective _ | .tagDirective _ _ | .otherDirective => true
      | _ => false
    let n ←
      if startsHere then do
        let handles ← directives fuel false []
        modify fun s => { s with handles := handles ++ usualHandles }
        expect .documentStart
        match ← peek with
        | .documentStart | .documentEnd | .streamEnd | .versionDirective _ | .tagDirective _ _
        | .otherDirective => pure Node.absent
        | _ => node fuel .block
      else do
        modify fun s => { s with handles := usualHandles }
        node fuel .block
    skipDocumentEnds fuel
    streamEnd fuel
    return some n

end Compose

def Node.ofText (c : Cursor) : Except Fault (Option Node) :=
  (Compose.document.run { tokens := Token.ofText c }).map (·.1)

end Yaml
end HtmlCatalog
