import HtmlCatalog.Text.Base64
import HtmlCatalog.Text.Plain
import HtmlCatalog.Text.Split
import HtmlCatalog.Value
import HtmlCatalog.Yaml.Fault

/-! What a scalar stands for. A plain scalar without a tag gets one from its form: a word for a
truth value or for nothing, a whole number in one of several bases, a number with a point, a day or
a moment; any other is a text. The value is then read off the characters under the tag. -/
namespace HtmlCatalog
namespace Yaml

inductive NodeTag
  | null | boolean | integer | real | timestamp | text | binary
  | sequence | pairs | mapping | set
  | merge | default | other
  deriving DecidableEq, Repr

namespace NodeTag

def names : List (String × NodeTag) :=
  [("null", .null), ("bool", .boolean), ("int", .integer), ("float", .real),
    ("timestamp", .timestamp), ("str", .text), ("binary", .binary), ("seq", .sequence),
    ("omap", .pairs), ("pairs", .pairs), ("map", .mapping), ("set", .set), ("merge", .merge),
    ("value", .default)]

def standardRoot : String := "tag:yaml.org,2002:"

def ofName (name : String) : NodeTag :=
  ((names.find? fun p => standardRoot ++ p.1 == name).map (·.2)).getD .other

def isCollection : NodeTag → Bool
  | .sequence | .pairs | .mapping | .set => true
  | _ => false

end NodeTag

namespace Scalar

def isDigit (c : Char) : Bool := '0' ≤ c && c ≤ '9'

def isDigitOrLine (c : Char) : Bool := isDigit c || c == '_'

def unsigned (cs : List Char) : List Char :=
  match cs with
  | '-' :: cs => cs
  | '+' :: cs => cs
  | cs => cs

def isDigits (cs : List Char) : Bool :=
  match cs with
  | c :: cs => isDigit c && cs.all isDigitOrLine
  | [] => false

/-- A part of a number in base sixty: one digit, or two of which the first is below six. -/
def isSixtieth : List Char → Bool
  | [c] => isDigit c
  | [c, d] => '0' ≤ c && c ≤ '5' && isDigit d
  | _ => false

def isInteger (cs : List Char) : Bool :=
  match unsigned cs with
  | '0' :: 'b' :: ds => !ds.isEmpty && ds.all fun c => c == '0' || c == '1' || c == '_'
  | '0' :: 'x' :: ds => !ds.isEmpty && ds.all fun c => Digits.isDigitOf 16 c || c == '_'
  | ['0'] => true
  | '0' :: ds => ds.all fun c => Digits.isDigitOf 8 c || c == '_'
  | ds =>
    match Text.splitOn ':' ds with
    | first :: rest => isDigits first && rest.all isSixtieth
    | [] => false

def isExponent : List Char → Bool
  | [] => true
  | e :: s :: ds =>
    (e == 'e' || e == 'E') && (s == '-' || s == '+') && !ds.isEmpty && ds.all isDigit
  | _ => false

def isFraction (cs : List Char) : Bool := isExponent (cs.dropWhile isDigitOrLine)

def isSixtyReal (ds : List Char) : Bool :=
  match Text.splitOn ':' ds with
  | first :: rest =>
    isDigits first && rest.dropLast.all isSixtieth &&
    match rest.getLast? with
    | some last =>
      match last.span (· != '.') with
      | (whole, '.' :: fraction) => isSixtieth whole && fraction.all isDigitOrLine
      | _ => false
    | none => false
  | [] => false

def isReal (cs : List Char) : Bool :=
  let ds := unsigned cs
  match ds with
  | '.' :: rest =>
    rest == ['i', 'n', 'f'] || rest == ['I', 'n', 'f'] || rest == ['I', 'N', 'F'] ||
    (cs == ds && (rest == ['n', 'a', 'n'] || rest == ['N', 'a', 'N'] || rest == ['N', 'A', 'N'] ||
      (rest.head?.any isDigit && isFraction rest)))
  | _ =>
    match ds.span (· != '.') with
    | (whole, '.' :: fraction) => (isDigits whole && isFraction fraction) || isSixtyReal ds
    | _ => false

structure Stamp where
  year : Nat
  month : Nat
  day : Nat
  time : Option (Nat × Nat × Nat)
  micro : Nat
  offset : Option Int
  /-- Month and day have two digits each. -/
  padded : Bool

def takeDigits (least most : Nat) (cs : List Char) : Option (List Char × List Char) :=
  let ds := (cs.take most).takeWhile isDigit
  if least ≤ ds.length then some (ds, cs.drop ds.length) else none

def takeChar (c : Char) : List Char → Option (List Char)
  | d :: cs => if c = d then some cs else none
  | [] => none

def isBlankChar (c : Char) : Bool := c == ' ' || c == '\t'

/-- The distance from universal time at the end of a moment. -/
def takeZone (cs : List Char) : Option (Option Int) :=
  match cs.dropWhile isBlankChar with
  | [] => if cs = [] then some none else none
  | ['Z'] => some (some 0)
  | s :: rest => do
    if s ≠ '-' ∧ s ≠ '+' then none
    let (hour, rest) ← takeDigits 1 2 rest
    let minute ← match rest with
      | [] => some []
      | rest => do
        let (minute, rest) ← takeDigits 2 2 (← takeChar ':' rest)
        if rest = [] then some minute else none
    let minutes : Int := Digits.natOf 10 hour * 60 + Digits.natOf 10 minute
    some (some (if s = '-' then -minutes else minutes))

/-- Millionths out of the digits of a fraction; digits after the sixth are dropped. -/
def microOf (ds : List Char) : Nat :=
  Digits.natOf 10 (ds.take 6) * Nat.pow 10 (6 - (ds.take 6).length)

def stamp? (cs : List Char) : Option Stamp := do
  let (year, cs) ← takeDigits 4 4 cs
  let (month, cs) ← takeDigits 1 2 (← takeChar '-' cs)
  let (day, cs) ← takeDigits 1 2 (← takeChar '-' cs)
  let year := Digits.natOf 10 year
  let padded := month.length == 2 && day.length == 2
  let month := Digits.natOf 10 month
  let day := Digits.natOf 10 day
  match cs with
  | [] => some { year, month, day, time := none, micro := 0, offset := none, padded }
  | c :: rest => do
    let rest ←
      if c = 'T' ∨ c = 't' then some rest
      else if isBlankChar c then some (rest.dropWhile isBlankChar)
      else none
    let (hour, rest) ← takeDigits 1 2 rest
    let (minute, rest) ← takeDigits 2 2 (← takeChar ':' rest)
    let (second, rest) ← takeDigits 2 2 (← takeChar ':' rest)
    let (fraction, rest) := match rest with
      | '.' :: rest => (rest.takeWhile isDigit, rest.dropWhile isDigit)
      | rest => ([], rest)
    let offset ← takeZone rest
    some
      { year, month, day
        time := some (Digits.natOf 10 hour, Digits.natOf 10 minute, Digits.natOf 10 second)
        micro := microOf fraction
        offset, padded }

/-- A day alone needs two digits for the month and for the day. -/
def isTimestamp (cs : List Char) : Bool :=
  (stamp? cs).any fun s => s.padded || s.time.isSome

def trueWords : List String := ["yes", "true", "on"]

def falseWords : List String := ["no", "false", "off"]

def casings (word : String) : List String := [word, word.capitalize, word.toUpper]

def booleanWords : List String := (trueWords ++ falseWords).flatMap casings

def nullWords : List String := ["", "~", "null", "Null", "NULL"]

def resolve (s : String) : NodeTag :=
  let cs := s.toList
  if booleanWords.contains s then .boolean
  else if isReal cs then .real
  else if isInteger cs then .integer
  else if s = "<<" then .merge
  else if nullWords.contains s then .null
  else if isTimestamp cs then .timestamp
  else if s = "=" then .default
  else .text

def trim (cs : List Char) : List Char :=
  let isWhite (c : Char) : Bool := c.isWhitespace || c == '\x0b' || c == '\x0c'
  ((cs.dropWhile isWhite).reverse.dropWhile isWhite).reverse

/-- The digits of a number in a base; a zero and the letter of the base may stand before them. -/
def withoutBase (base : Nat) (ds : List Char) : List Char :=
  let isLetter (c : Char) : Bool :=
    match base with
    | 2 => c == 'b' || c == 'B'
    | 8 => c == 'o' || c == 'O'
    | 16 => c == 'x' || c == 'X'
    | _ => false
  match ds with
  | '0' :: c :: rest => if isLetter c then rest else ds
  | ds => ds

def integerIn (base : Nat) (cs : List Char) : Except Fault Int :=
  let body := trim (cs.map Text.plain)
  let ds := withoutBase base (unsigned body)
  match Digits.natOf? base ds with
  | none => .error (.notAnInteger base (String.ofList cs))
  | some n =>
    if base = 10 ∧ Digits.limit < ds.length then .error (.digitLimit ds.length)
    else .ok (if body.head? = some '-' then -n else n)

/-- The sum of parts in base sixty, the last part counting once. -/
def sixties (parts : List Int) : Int := parts.foldl (fun n p => 60 * n + p) 0

def signed (s : String) : Except Fault (Bool × List Char) :=
  let cs := s.toList.filter (· != '_')
  match cs, unsigned cs with
  | [], _ => .error .emptyNumber
  | c :: _, ds => .ok (c == '-', ds)

def integer (s : String) : Except Fault Int := do
  let (negative, ds) ← signed s
  let n ← match ds with
    | [] => throw .emptyNumber
    | '0' :: 'b' :: rest => integerIn 2 rest
    | '0' :: 'x' :: rest => integerIn 16 rest
    | ['0'] => pure 0
    | '0' :: _ => integerIn 8 ds
    | _ =>
      if ds.contains ':' then do
        let parts ← (Text.splitOn ':' ds).mapM (integerIn 10)
        pure (sixties parts)
      else integerIn 10 ds
  return if negative then -n else n

def decimal (cs : List Char) : Except Fault Binary64 :=
  let body := trim (cs.map Text.plain)
  let negative := body.head? = some '-'
  let ds := unsigned body
  let bad := .error (.notAReal (String.ofList cs))
  let word := String.ofList (ds.map Char.toLower)
  if word = "nan" then .ok .nan
  else if word = "inf" ∨ word = "infinity" then .ok (.infinite negative)
  else
    let (whole, rest) := ds.span isDigit
    let (fraction, rest) := match rest with
      | '.' :: rest => rest.span isDigit
      | rest => ([], rest)
    if whole = [] ∧ fraction = [] then bad
    else
      match rest with
      | [] => .ok (Digits.Scientific.value ⟨whole, fraction, none⟩ negative)
      | e :: rest =>
        if e = 'e' ∨ e = 'E' then
          match Digits.takeExponent rest with
          | some (n, []) => .ok (Digits.Scientific.value ⟨whole, fraction, some n⟩ negative)
          | _ => bad
        else bad

/-- The sum of parts in base sixty, rounded after each step, from the last part on. -/
def realSixties (parts : List Binary64) : Binary64 :=
  (parts.reverse.foldl (fun (r : Binary64 × Nat) p =>
    (r.1.add (p.mul (Binary64.ofNat r.2)), r.2 * 60)) (Binary64.ofNat 0, 1)).1

def real (s : String) : Except Fault Binary64 := do
  let (negative, ds) ← signed s
  let ds := ds.map Char.toLower
  let x ←
    if ds = ['.', 'i', 'n', 'f'] then pure (Binary64.infinite false)
    else if ds = ['.', 'n', 'a', 'n'] then pure Binary64.nan
    else if ds.contains ':' then do
      let parts ← (Text.splitOn ':' ds).mapM decimal
      pure (realSixties parts)
    else decimal ds
  return if negative then x.neg else x

def boolean (s : String) : Except Fault Bool :=
  let word := s.toLower
  if trueWords.contains word then .ok true
  else if falseWords.contains word then .ok false
  else .error (.notABoolean word)

def timestamp (s : String) : Except Fault HtmlCatalog.Scalar :=
  match stamp? s.toList with
  | none => .error .notATimestamp
  | some t =>
    match t.time with
    | none =>
      match Date.make t.year t.month t.day with
      | .ok d => .ok (.date d)
      | .error f => .error (.date f)
    | some (hour, minute, second) =>
      match Moment.make t.year t.month t.day hour minute second t.micro t.offset with
      | .ok m => .ok (.moment m)
      | .error f => .error (.moment f)

def binary (s : String) : Except Fault HtmlCatalog.Scalar :=
  let cs := s.toList
  match if cs.all (·.toNat < 0x80) then Base64.decode cs else none with
  | some bs => .ok (.bytes bs)
  | none => .error .malformed

def value (tag : NodeTag) (s : String) : Except Fault HtmlCatalog.Scalar :=
  match tag with
  | .null => .ok .null
  | .boolean => (boolean s).map .bool
  | .integer => (integer s).map .int
  | .real => (real s).map .real
  | .timestamp => timestamp s
  | .text => .ok (.str s)
  | .binary => binary s
  | _ => .error .malformed

end Scalar
end Yaml
end HtmlCatalog
