import HtmlCatalog.Number.Binary64
import HtmlCatalog.Calendar

/-! Values of a data document: scalars, lists, sets of scalars, and maps that keep the order of
their entries and whose keys are scalars. A map is read by the first entry with a key; numbers that
are equal are the same key, whatever their kind. -/
namespace HtmlCatalog

inductive Scalar
  | null
  | bool (b : Bool)
  | int (n : Int)
  | real (x : Binary64)
  | str (s : String)
  | bytes (bs : List UInt8)
  | date (d : Date)
  | moment (m : Moment)
  deriving DecidableEq, Repr, Inhabited

inductive Value
  | scalar (s : Scalar)
  | list (items : List Value)
  | set (items : List Scalar)
  | map (entries : List (Scalar × Value))
  deriving Repr, Inhabited

namespace Scalar

/-- Whether two scalars are the same key. A missing number is the same key as itself. -/
def sameKey : Scalar → Scalar → Bool
  | .real x, .real y => x == y || x.numericEq y
  | .real x, .int n => x.equalsInt n
  | .int n, .real x => x.equalsInt n
  | .real x, .bool b => x.equalsInt b.toInt
  | .bool b, .real x => x.equalsInt b.toInt
  | .int n, .bool b => n == b.toInt
  | .bool b, .int n => n == b.toInt
  | s, t => s == t

@[simp] theorem sameKey_str (s t : String) : sameKey (.str s) (.str t) = (s == t) := by
  simp [sameKey, BEq.beq]

theorem sameKey_str_iff {s : Scalar} {t : String} : s.sameKey (.str t) = true ↔ s = .str t := by
  cases s <;> simp [sameKey]

/-- Empty texts, zeros, `false` and `null` do not count as given. -/
def isTruthy : Scalar → Bool
  | .null => false
  | .bool b => b
  | .int n => n != 0
  | .real x => !x.isZero
  | .str s => s != ""
  | .bytes bs => !bs.isEmpty
  | .date _ => true
  | .moment _ => true

def typeName : Scalar → String
  | .null => "NoneType"
  | .bool _ => "bool"
  | .int _ => "int"
  | .real _ => "float"
  | .str _ => "str"
  | .bytes _ => "bytes"
  | .date _ => "date"
  | .moment _ => "datetime"

end Scalar

namespace Value

mutual

def decEq : (v w : Value) → Decidable (v = w)
  | .scalar s, .scalar t => decidable_of_iff (s = t) (by simp)
  | .list xs, .list ys => match decEqList xs ys with
    | isTrue h => isTrue (h ▸ rfl)
    | isFalse h => isFalse fun e => h (Value.list.inj e)
  | .set xs, .set ys => decidable_of_iff (xs = ys) (by simp)
  | .map es, .map fs => match decEqEntries es fs with
    | isTrue h => isTrue (h ▸ rfl)
    | isFalse h => isFalse fun e => h (Value.map.inj e)
  | .scalar _, .list _ | .scalar _, .set _ | .scalar _, .map _ | .list _, .scalar _
  | .list _, .set _ | .list _, .map _ | .set _, .scalar _ | .set _, .list _ | .set _, .map _
  | .map _, .scalar _ | .map _, .list _ | .map _, .set _ => isFalse (by simp)

def decEqList : (xs ys : List Value) → Decidable (xs = ys)
  | [], [] => isTrue rfl
  | x :: xs, y :: ys => match decEq x y, decEqList xs ys with
    | isTrue h, isTrue t => isTrue (by rw [h, t])
    | isFalse h, _ => isFalse fun e => h (List.cons.inj e).1
    | _, isFalse t => isFalse fun e => t (List.cons.inj e).2
  | [], _ :: _ | _ :: _, [] => isFalse (by simp)

def decEqEntries : (es fs : List (Scalar × Value)) → Decidable (es = fs)
  | [], [] => isTrue rfl
  | (k, v) :: es, (l, w) :: fs =>
    match decEq v w, decEqEntries es fs with
    | isTrue h, isTrue t => decidable_of_iff (k = l) (by simp [h, t])
    | isFalse h, _ => isFalse fun e => h (Prod.mk.inj (List.cons.inj e).1).2
    | _, isFalse t => isFalse fun e => t (List.cons.inj e).2
  | [], _ :: _ | _ :: _, [] => isFalse (by simp)

end

instance : DecidableEq Value := decEq

@[match_pattern] abbrev null : Value := .scalar .null
@[match_pattern] abbrev bool (b : Bool) : Value := .scalar (.bool b)
@[match_pattern] abbrev int (n : Int) : Value := .scalar (.int n)
@[match_pattern] abbrev real (x : Binary64) : Value := .scalar (.real x)
@[match_pattern] abbrev str (s : String) : Value := .scalar (.str s)

/-- Whether a value counts as given: an empty collection does not. -/
def isTruthy : Value → Bool
  | .scalar s => s.isTruthy
  | .list items => !items.isEmpty
  | .set items => !items.isEmpty
  | .map entries => !entries.isEmpty

def typeName : Value → String
  | .scalar s => s.typeName
  | .list _ => "list"
  | .set _ => "set"
  | .map _ => "dict"

def orElse (v other : Value) : Value := if v.isTruthy then v else other

def lookup? (entries : List (Scalar × Value)) (key : Scalar) : Option Value :=
  (entries.find? fun e => e.1.sameKey key).map (·.2)

/-- The value under a name; `null` if there is none. -/
def field (entries : List (Scalar × Value)) (name : String) : Value :=
  (lookup? entries (.str name)).getD null

/-- A key keeps its first place and takes its last value. -/
def insert (key : Scalar) (value : Value) : List (Scalar × Value) → List (Scalar × Value)
  | [] => [(key, value)]
  | e :: rest =>
    if e.1.sameKey key then (e.1, value) :: rest else e :: insert key value rest

def ofPairs (pairs : List (Scalar × Value)) : List (Scalar × Value) :=
  pairs.foldl (fun es p => insert p.1 p.2 es) []

@[simp] theorem field_nil (name : String) : field [] name = null := rfl

theorem field_cons (e : Scalar × Value) (es : List (Scalar × Value)) (name : String) :
    field (e :: es) name = if e.1 = .str name then e.2 else field es name := by
  by_cases h : e.1 = .str name
  · simp [field, lookup?, h]
  · have hkey : e.1.sameKey (.str name) = false := by
      rwa [← Bool.not_eq_true, Scalar.sameKey_str_iff]
    simp [field, lookup?, h, hkey]

theorem field_insert (key : String) (v : Value) (es : List (Scalar × Value)) (name : String) :
    field (insert (.str key) v es) name = if key = name then v else field es name := by
  induction es with
  | nil => simp [insert, field_cons]
  | cons e es ih =>
    by_cases h : e.1 = .str key
    · by_cases hname : key = name <;> simp [insert, field_cons, h, hname]
    · have hinsert : insert (.str key) v (e :: es) = e :: insert (.str key) v es := by
        simp [insert, Scalar.sameKey_str_iff, h]
      rw [hinsert, field_cons, field_cons, ih]
      by_cases hname : key = name
      · simp [← hname, h]
      · simp [hname]

end Value
end HtmlCatalog
