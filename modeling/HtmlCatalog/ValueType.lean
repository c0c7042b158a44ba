/-! Types of attribute values, properties and events: the five basic ones, single texts, and
unions. A union is written with its parts in order, so nested unions read as one. -/
namespace HtmlCatalog

inductive ValueType
  | any | string | number | boolean | null
  | literal (text : String)
  | union (members : List ValueType)
  deriving Repr, Inhabited

namespace ValueType

mutual

def decEq : (t u : ValueType) → Decidable (t = u)
  | .any, .any | .string, .string | .number, .number | .boolean, .boolean | .null, .null =>
    isTrue rfl
  | .literal s, .literal t => decidable_of_iff (s = t) (by simp)
  | .union ts, .union us => match decEqList ts us with
    | isTrue h => isTrue (h ▸ rfl)
    | isFalse h => isFalse fun e => h (ValueType.union.inj e)
  | .any, .string | .any, .number | .any, .boolean | .any, .null | .any, .literal _
  | .any, .union _ | .string, .any | .string, .number | .string, .boolean | .string, .null
  | .string, .literal _ | .string, .union _ | .number, .any | .number, .string
  | .number, .boolean | .number, .null | .number, .literal _ | .number, .union _
  | .boolean, .any | .boolean, .string | .boolean, .number | .boolean, .null
  | .boolean, .literal _ | .boolean, .union _ | .null, .any | .null, .string | .null, .number
  | .null, .boolean | .null, .literal _ | .null, .union _ | .literal _, .any
  | .literal _, .string | .literal _, .number | .literal _, .boolean | .literal _, .null
  | .literal _, .union _ | .union _, .any | .union _, .string | .union _, .number
  | .union _, .boolean | .union _, .null | .union _, .literal _ => isFalse (by simp)

def decEqList : (ts us : List ValueType) → Decidable (ts = us)
  | [], [] => isTrue rfl
  | t :: ts, u :: us => match decEq t u, decEqList ts us with
    | isTrue h, isTrue hs => isTrue (by rw [h, hs])
    | isFalse h, _ => isFalse fun e => h (List.cons.inj e).1
    | _, isFalse hs => isFalse fun e => hs (List.cons.inj e).2
  | [], _ :: _ | _ :: _, [] => isFalse (by simp)

end

instance : DecidableEq ValueType := decEq

mutual

/-- The text of a type. A literal stands in double quotes, with nothing escaped. -/
def text : ValueType → String
  | .any => "any"
  | .string => "string"
  | .number => "number"
  | .boolean => "boolean"
  | .null => "null"
  | .literal s => "\"" ++ s ++ "\""
  | .union ts => " | ".intercalate (texts ts)

def texts : List ValueType → List String
  | [] => []
  | t :: ts => text t :: texts ts

end

@[simp] theorem texts_eq_map (ts : List ValueType) : texts ts = ts.map text := by
  induction ts <;> simp_all [texts]

/-- The texts as alternatives; a single one is a literal by itself. -/
def ofLiterals : List String → ValueType
  | [s] => .literal s
  | ss => .union (ss.map .literal)

@[simp] theorem ofLiterals_singleton (s : String) : ofLiterals [s] = .literal s := rfl

@[simp] theorem ofLiterals_cons_cons (s t : String) (ss : List String) :
    ofLiterals (s :: t :: ss) = .union (.literal s :: .literal t :: ss.map .literal) := rfl

def nullable (t : ValueType) : ValueType := .union [t, .null]

def isAny : ValueType → Bool
  | .any => true
  | _ => false

@[simp] theorem isAny_iff (t : ValueType) : t.isAny = true ↔ t = .any := by
  cases t <;> simp [isAny]

end ValueType
end HtmlCatalog
