import HtmlCatalog.Document

/-! What the document format cannot say about the standard tags, added to a collection by
patches: two tags that it lacks, a property for the value of a text field, attributes of media
tags, and an event for every handler attribute. A patch only appends. -/
namespace HtmlCatalog

inductive Patch
  | svg | slot | textareaValue | inputValue | audioAttributes | videoAttributes
  | globalEvents
  deriving DecidableEq, Repr

namespace Patch

def all : List Patch :=
  [.svg, .slot, .textareaValue, .inputValue, .audioAttributes, .videoAttributes,
    .globalEvents]

inductive Fault
  | notAnObject (found : Value)
  | unnamed
  | nameNotText (found : Value)
  deriving DecidableEq, Repr

def Fault.message : Fault → String
  | .notAnObject (.str _) => "string indices must be integers, not 'str'"
  | .notAnObject (.list _) => "list indices must be integers or slices, not str"
  | .notAnObject v => "'" ++ v.typeName ++ "' object is not subscriptable"
  | .unnamed => "'name'"
  | .nameNotText v => "'" ++ v.typeName ++ "' object has no attribute 'startswith'"

def slotChangeDescription : String :=
  "The slotchange event is fired on an HTMLSlotElement instance (<slot> element) " ++
  "when the node(s) contained in that slot change.\n\n" ++
  "Note: the slotchange event doesn't fire if the children of a slotted node change " ++
  "- only if you change (e.g. add or delete) the actual nodes themselves."

def playsInlineDescription : String :=
  "The playsinline attribute is a boolean attribute. If present, it serves as a hint to the " ++
  "user agent that the video ought to be displayed \"inline\" in the document by default, " ++
  "constrained to the element's playback area, instead of being displayed fullscreen or in " ++
  "an independent resizable window."

def tagAttribute (tag name : String) (type : ValueType) : Member :=
  { name, type, builtIn := true, fromTag := some tag }

def svgTag : Tag := { name := "svg", description := .str "" }

def slotTag : Tag where
  name := "slot"
  attributes := [tagAttribute "slot" "name" .string, tagAttribute "slot" "onslotchange" .string]
  events :=
    [{ name := "slotchange", type := .any, kind := .event, builtIn := true,
       description := .str slotChangeDescription, fromTag := some "slot" }]
  description := .str ""

def slotAttribute : Member := { name := "slot", type := .string, builtIn := true }

def valueProperty (tag : String) : Member :=
  { tagAttribute tag "value" (ValueType.nullable .string) with kind := .property }

def audioMembers : List Member := [tagAttribute "audio" "controlslist" .string]

def videoMembers : List Member :=
  [tagAttribute "video" "controlslist" .string,
    { tagAttribute "video" "playsinline" .boolean with
      description := .str playsInlineDescription }]

/-- A handler attribute without the leading `on` names the event. -/
def eventName (handler : String) : String :=
  match handler.toList with
  | 'o' :: 'n' :: rest => String.ofList rest
  | _ => handler

/-- The event that a handler attribute handles. -/
def handledEvent (handler : Value) : Except Fault Member :=
  match handler with
  | .map es =>
    match Value.lookup? es (.str "name") with
    | none => .error .unnamed
    | some (.str name) =>
      .ok { name := eventName name, type := .any, kind := .event, builtIn := true,
            description := Document.description es }
    | some v => .error (.nameNotText v)
  | v => .error (.notAnObject v)

def updateTags (name : String) (f : Tag → Tag) (c : Collection) : Collection :=
  { c with tags := c.tags.map fun t => if t.name = name then f t else t }

def addAttributes (members : List Member) (t : Tag) : Tag :=
  { t with attributes := t.attributes ++ members }

def addProperties (members : List Member) (t : Tag) : Tag :=
  { t with properties := t.properties ++ members }

def apply (handlers : List Value) (c : Collection) : Patch → Except Fault Collection
  | .svg => .ok { c with tags := c.tags ++ [svgTag] }
  | .slot =>
    .ok { c with tags := c.tags ++ [slotTag], attributes := c.attributes ++ [slotAttribute] }
  | .textareaValue => .ok (updateTags "textarea" (addProperties [valueProperty "textarea"]) c)
  | .inputValue => .ok (updateTags "input" (addProperties [valueProperty "input"]) c)
  | .audioAttributes => .ok (updateTags "audio" (addAttributes audioMembers) c)
  | .videoAttributes => .ok (updateTags "video" (addAttributes videoMembers) c)
  | .globalEvents =>
    (handlers.mapM handledEvent).map fun events => { c with events := c.events ++ events }

def applyAll (handlers : List Value) (patches : List Patch) (c : Collection) :
    Except Fault Collection :=
  patches.foldlM (apply handlers) c

@[simp] theorem applyAll_nil (handlers : List Value) (c : Collection) :
    applyAll handlers [] c = .ok c := rfl

@[simp] theorem applyAll_cons (handlers : List Value) (p : Patch) (ps : List Patch)
    (c : Collection) :
    applyAll handlers (p :: ps) c = (apply handlers c p).bind (applyAll handlers ps) := rfl

end Patch
end HtmlCatalog
