import HtmlCatalog.ValueType

/-! What an attribute's name alone says about its type. A resolver answers whether it has a type
for a name, and which; the one used for the standard attributes goes by a table of hints, and
gives every event handler attribute that the table leaves out the type of texts. -/
namespace HtmlCatalog

inductive Hint
  | boolean | number | string | unknown
  | literals (values : List String)
  deriving DecidableEq, Repr, Inhabited

namespace Hint

def ofName (name : String) : Hint :=
  if name = "boolean" then .boolean
  else if name = "number" then .number
  else if name = "string" then .string
  else .unknown

def type : Hint → ValueType
  | .boolean => .boolean
  | .number => .number
  | .string => .string
  | .unknown => .any
  | .literals values => .ofLiterals values

end Hint

/-- Any answers to the two questions about a name. -/
structure Resolver where
  knows : String → Bool
  typeOf : String → ValueType

namespace Resolver

/-- An event handler attribute is named `on` and at least one character more. -/
def isHandlerName (name : String) : Bool :=
  match name.toList with
  | 'o' :: 'n' :: _ :: _ => true
  | _ => false

def hint? (table : List (String × Hint)) (name : String) : Option Hint :=
  (table.find? (·.1 == name)).map (·.2)

def ofHints (table : List (String × Hint)) : Resolver where
  knows name := (hint? table name).isSome || isHandlerName name
  typeOf name :=
    match hint? table name with
    | some h => h.type
    | none => if isHandlerName name then .string else .any

def booleanNames : List String :=
  ["allowfullscreen", "async", "autofocus", "autoplay", "checked", "controls", "default", "defer",
    "disabled", "formnovalidate", "hidden", "inert", "ismap", "itemscope", "loop", "multiple",
    "muted", "nomodule", "novalidate", "open", "readonly", "required", "reversed", "selected"]

def numberNames : List String :=
  ["cols", "colspan", "height", "high", "low", "maxlength", "minlength", "optimum", "rows",
    "rowspan", "size", "span", "start", "tabindex", "width"]

def literalNames : List (String × List String) :=
  [("autocapitalize", ["off", "none", "on", "sentences", "words", "characters"]),
    ("contenteditable", ["true", "false", "plaintext-only"]),
    ("dir", ["ltr", "rtl", "auto"]),
    ("draggable", ["true", "false"]),
    ("spellcheck", ["true", "false"]),
    ("translate", ["yes", "no"])]

def stringNames : List String :=
  ["accesskey", "class", "id", "lang", "part", "style", "title"]

def standardHints : List (String × Hint) :=
  booleanNames.map (·, .boolean) ++ numberNames.map (·, .number) ++
    literalNames.map (fun p => (p.1, .literals p.2)) ++ stringNames.map (·, .string)

def standard : Resolver := ofHints standardHints

end Resolver
end HtmlCatalog
