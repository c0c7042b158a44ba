import HtmlCatalog.Number.Digits
import HtmlCatalog.Value

/-! Reading a value from its object notation. The grammar is the strict one, with the numbers
`NaN`, `Infinity` and `-Infinity` added; no control character may stand in a text, and nothing but
blanks may stand around the value. A number with neither a point nor an exponent is whole, of
any size up to a limit on its digits. -/
namespace HtmlCatalog
namespace Json

inductive Fault
  | malformed
  | digitLimit (digits : Nat)
  deriving DecidableEq, Repr

abbrev Reading (α : Type) := Except Fault (α × List Char)

def isBlank (c : Char) : Bool := c == ' ' || c == '\t' || c == '\n' || c == '\r'

def skipBlanks (cs : List Char) : List Char := cs.dropWhile isBlank

def escaped? : Char → Option Char
  | '"' => some '"'
  | '\\' => some '\\'
  | '/' => some '/'
  | 'b' => some '\x08'
  | 'f' => some '\x0c'
  | 'n' => some '\n'
  | 'r' => some '\r'
  | 't' => some '\t'
  | _ => none

def isHighSurrogate (n : Nat) : Bool := 0xd800 ≤ n && n < 0xdc00

def isLowSurrogate (n : Nat) : Bool := 0xdc00 ≤ n && n < 0xe000

/-- The character of one code unit. A text of characters cannot hold half of a pair; by itself each
half becomes the same replacement, so texts that differ only in such halves are one text here. -/
def ofUnit (n : Nat) : Char :=
  if isHighSurrogate n || isLowSurrogate n then '\ufffd' else Char.ofNat n

def ofPair (high low : Nat) : Char :=
  Char.ofNat (0x10000 + (high - 0xd800) * 0x400 + (low - 0xdc00))

def readText (done : List Char) : List Char → Reading String
  | '"' :: cs => .ok (String.ofList done.reverse, cs)
  | '\\' :: 'u' :: a :: b :: c :: d :: '\\' :: 'u' :: e :: f :: g :: h :: cs =>
    match Digits.natOf? 16 [a, b, c, d], Digits.natOf? 16 [e, f, g, h] with
    | some m, some n =>
      if isHighSurrogate m && isLowSurrogate n then readText (ofPair m n :: done) cs
      else readText (ofUnit m :: done) ('\\' :: 'u' :: e :: f :: g :: h :: cs)
    | some m, none => readText (ofUnit m :: done) ('\\' :: 'u' :: e :: f :: g :: h :: cs)
    | none, _ => .error .malformed
  | '\\' :: 'u' :: a :: b :: c :: d :: cs =>
    match Digits.natOf? 16 [a, b, c, d] with
    | some m => readText (ofUnit m :: done) cs
    | none => .error .malformed
  | '\\' :: c :: cs =>
    match escaped? c with
    | some c => readText (c :: done) cs
    | none => .error .malformed
  | c :: cs => if c < ' ' then .error .malformed else readText (c :: done) cs
  | [] => .error .malformed

/-- A number without its sign: a whole part without leading zeros, and a fraction and an exponent
if digits follow their marks. -/
def readNumber (negative : Bool) (cs : List Char) : Reading Value :=
  let whole := match cs with
    | '0' :: _ => ['0']
    | cs => cs.takeWhile (Digits.isDigitOf 10)
  if whole = [] then .error .malformed
  else
    let cs := cs.drop whole.length
    let (fraction, cs) := match cs with
      | '.' :: rest =>
        match rest.takeWhile (Digits.isDigitOf 10) with
        | [] => ([], cs)
        | ds => (ds, rest.drop ds.length)
      | _ => ([], cs)
    let (exponent, cs) := match cs with
      | 'e' :: rest | 'E' :: rest =>
        match Digits.takeExponent rest with
        | some (e, rest) => (some e, rest)
        | none => (none, cs)
      | _ => (none, cs)
    if fraction = [] ∧ exponent = none then
      if Digits.limit < whole.length then .error (.digitLimit whole.length)
      else
        let n : Int := Digits.natOf 10 whole
        .ok (.int (if negative then -n else n), cs)
    else .ok (.real (Digits.Scientific.value ⟨whole, fraction, exponent⟩ negative), cs)

mutual

def readValue : Nat → List Char → Except Fault (Value × List Char)
  | 0, _ => .error .malformed
  | fuel + 1, cs => match cs with
    | 'n' :: 'u' :: 'l' :: 'l' :: cs => .ok (.null, cs)
    | 't' :: 'r' :: 'u' :: 'e' :: cs => .ok (.bool true, cs)
    | 'f' :: 'a' :: 'l' :: 's' :: 'e' :: cs => .ok (.bool false, cs)
    | 'N' :: 'a' :: 'N' :: cs => .ok (.real .nan, cs)
    | 'I' :: 'n' :: 'f' :: 'i' :: 'n' :: 'i' :: 't' :: 'y' :: cs =>
      .ok (.real (.infinite false), cs)
    | '-' :: 'I' :: 'n' :: 'f' :: 'i' :: 'n' :: 'i' :: 't' :: 'y' :: cs =>
      .ok (.real (.infinite true), cs)
    | '"' :: cs => (readText [] cs).map fun r => (.str r.1, r.2)
    | '[' :: cs =>
      match skipBlanks cs with
      | ']' :: cs => .ok (.list [], cs)
      | cs => (readItems fuel cs).map fun r => (.list r.1, r.2)
    | '\x7b' :: cs =>
      match skipBlanks cs with
      | '\x7d' :: cs => .ok (.map [], cs)
      | cs => (readEntries fuel cs).map fun r => (.map (Value.ofPairs r.1), r.2)
    | '-' :: cs => readNumber true cs
    | cs => readNumber false cs

def readItems : Nat → List Char → Except Fault (List Value × List Char)
  | 0, _ => .error .malformed
  | fuel + 1, cs => do
    let (v, cs) ← readValue fuel cs
    match skipBlanks cs with
    | ']' :: cs => .ok ([v], cs)
    | ',' :: cs =>
      let (vs, cs) ← readItems fuel (skipBlanks cs)
      .ok (v :: vs, cs)
    | _ => .error .malformed

def readEntries : Nat → List Char → Except Fault (List (Scalar × Value) × List Char)
  | 0, _ => .error .malformed
  | fuel + 1, cs => do
    match cs with
    | '"' :: cs =>
      let (key, cs) ← readText [] cs
      match skipBlanks cs with
      | ':' :: cs =>
        let (v, cs) ← readValue fuel (skipBlanks cs)
        match skipBlanks cs with
        | '\x7d' :: cs => .ok ([(.str key, v)], cs)
        | ',' :: cs =>
          let (es, cs) ← readEntries fuel (skipBlanks cs)
          .ok ((.str key, v) :: es, cs)
        | _ => .error .malformed
      | _ => .error .malformed
    | _ => .error .malformed

end

def read (cs : List Char) : Except Fault Value := do
  let (v, rest) ← readValue (2 * cs.length + 1) (skipBlanks cs)
  if skipBlanks rest = [] then .ok v else .error .malformed

end Json
end HtmlCatalog
