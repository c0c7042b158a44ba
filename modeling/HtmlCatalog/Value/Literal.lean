import HtmlCatalog.Number.Decimal
import HtmlCatalog.Number.Digits
import HtmlCatalog.Text.Quoted
import HtmlCatalog.Value

/-! The text of a value in messages: scalars as literals, lists in brackets, sets and maps in braces,
the parts separated by a comma and a space. A value with a whole number in it that is too long cannot
be written. -/
namespace HtmlCatalog

/-- Exponents from -4 to 15 are written in place, others with a sign and two digits. -/
def Value.numberLayout : Decimal.Layout where
  positional := (-4, 16)
  keepsFraction := true
  exponentMark := "e"
  exponentPlus := "+"
  exponentWidth := 2
  nan := "nan"
  infinity := "inf"

def commaSeparated (parts : List String) : String := ", ".intercalate parts

def Date.literal (d : Date) : String :=
  "datetime.date(" ++ commaSeparated [toString d.year, toString d.month, toString d.day] ++ ")"

/-- A distance from universal time, in days and seconds, the seconds never negative. -/
def zoneLiteral (offset : Int) : String :=
  if offset = 0 then "datetime.timezone.utc"
  else
    let seconds := offset * 60
    let days := seconds.fdiv 86400
    let rest := seconds.fmod 86400
    let parts :=
      (if days = 0 then [] else ["days=" ++ toString days]) ++
      (if rest = 0 then [] else ["seconds=" ++ toString rest])
    "datetime.timezone(datetime.timedelta(" ++ commaSeparated parts ++ "))"

/-- Seconds are left out when they and their fraction are zero. -/
def Moment.literal (m : Moment) : String :=
  let parts := [m.date.year, m.date.month, m.date.day, m.hour, m.minute] ++
    (if m.micro = 0 then if m.second = 0 then [] else [m.second] else [m.second, m.micro])
  let zone := match m.offset with
    | none => []
    | some o => ["tzinfo=" ++ zoneLiteral o]
  "datetime.datetime(" ++ commaSeparated (parts.map toString ++ zone) ++ ")"

def Scalar.literal : Scalar → String
  | .null => "None"
  | .bool b => if b then "True" else "False"
  | .int n => toString n
  | .real x => Value.numberLayout.text x
  | .str s => Text.quoted s
  | .bytes bs => Text.quotedBytes bs
  | .date d => d.literal
  | .moment m => m.literal

def Scalar.isWritable : Scalar → Bool
  | .int n => !Digits.isOverLimit n
  | _ => true

namespace Value

mutual

def literal : Value → String
  | .scalar s => s.literal
  | .list items => "[" ++ commaSeparated (literals items) ++ "]"
  | .set [] => "set()"
  | .set items => "\x7b" ++ commaSeparated (items.map Scalar.literal) ++ "\x7d"
  | .map entries => "\x7b" ++ commaSeparated (entryLiterals entries) ++ "\x7d"

def literals : List Value → List String
  | [] => []
  | v :: rest => literal v :: literals rest

def entryLiterals : List (Scalar × Value) → List String
  | [] => []
  | (k, v) :: rest => (k.literal ++ ": " ++ literal v) :: entryLiterals rest

end

@[simp] theorem literals_eq_map (items : List Value) : literals items = items.map literal := by
  induction items <;> simp_all [literals]

@[simp] theorem entryLiterals_eq_map (entries : List (Scalar × Value)) :
    entryLiterals entries = entries.map fun e => e.1.literal ++ ": " ++ literal e.2 := by
  induction entries <;> simp_all [entryLiterals]

mutual

/-- Whether a value can be written: every whole number in it has to be within the limit. -/
def isWritable : Value → Bool
  | .scalar s => s.isWritable
  | .list items => areWritable items
  | .set items => items.all Scalar.isWritable
  | .map entries => entriesAreWritable entries

def areWritable : List Value → Bool
  | [] => true
  | v :: rest => isWritable v && areWritable rest

def entriesAreWritable : List (Scalar × Value) → Bool
  | [] => true
  | (k, v) :: rest => (k.isWritable && isWritable v) && entriesAreWritable rest

end

@[simp] theorem areWritable_eq_all (items : List Value) :
    areWritable items = items.all isWritable := by
  induction items <;> simp_all [areWritable]

@[simp] theorem entriesAreWritable_eq_all (entries : List (Scalar × Value)) :
    entriesAreWritable entries = entries.all fun e => e.1.isWritable && isWritable e.2 := by
  induction entries <;> simp_all [entriesAreWritable]

@[simp] theorem isWritable_str (s : String) : isWritable (.str s) = true := by
  simp [isWritable, Scalar.isWritable]

/-- The text of a value by itself: a text and a day are written plainly, all else as literals. -/
def text : Value → String
  | .str s => s
  | .scalar (.date d) => d.text
  | .scalar (.moment m) => m.text
  | v => v.literal

end Value
end HtmlCatalog
