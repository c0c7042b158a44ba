import HtmlCatalog.Text.Utf8
import HtmlCatalog.Yaml.Text

/-! The tokens of a YAML text. Block collections have tokens of their own, which come from the
indentation; the token of a key is put before the tokens that turn out to be the key when the
colon after them is found. A text that breaks off in a fault has that fault as its last token. -/
namespace HtmlCatalog
namespace Yaml

inductive Token
  | versionDirective (major : Nat)
  | tagDirective (handle target : String)
  | otherDirective
  | documentStart | documentEnd | streamEnd
  | blockSequenceStart | blockMappingStart | blockEnd | blockEntry
  | flowSequenceStart | flowSequenceEnd | flowMappingStart | flowMappingEnd | flowEntry
  | key | value
  | alias (name : String)
  | anchor (name : String)
  | tag (handle : Option String) (suffix : String)
  | scalar (text : String) (plain : Bool)
  | fault (fault : Fault)
  deriving DecidableEq, Repr, Inhabited

namespace Name

def scanAnchor (c : Cursor) : Except Fault (String × Cursor) :=
  let (name, c) := c.advance.span isWordChar
  let ends := match c.peek 0 with
    | none => true
    | some x => isBlank x || isBreak x || "?:,]\x7d%@\x60".toList.contains x
  if name = [] ∨ !ends then .error c.malformed else .ok (String.ofList name, c)

def isUriChar (x : Char) : Bool :=
  x.isAlphanum || "-;/?:@&=+$,_.!~*'()[]%".toList.contains x

def hexDigit (c : Cursor) : Except Fault (Nat × Cursor) :=
  match c.peek 0 with
  | some x =>
    if Digits.isDigitOf 16 x then .ok (Digits.digitValue x, c.advance) else .error .malformed
  | none => .error c.malformed

def escapedBytes : Nat → Cursor → Except Fault (List UInt8 × Cursor)
  | 0, _ => .error .malformed
  | fuel + 1, c =>
    if c.peek 0 = some '%' then do
      let (high, c) ← hexDigit c.advance
      let (low, c) ← hexDigit c
      let (bytes, c) ← escapedBytes fuel c
      return (UInt8.ofNat (16 * high + low) :: bytes, c)
    else .ok ([], c)

def uriChars : Nat → Cursor → Except Fault (List Char × Cursor)
  | 0, _ => .error .malformed
  | fuel + 1, c =>
    match c.peek 0 with
    | some '%' => do
      let (bytes, c) ← escapedBytes c.fuel c
      match Utf8.decode bytes with
      | .error _ => throw c.malformed
      | .ok cs => (uriChars fuel c).map fun r => (cs ++ r.1, r.2)
    | some x =>
      if isUriChar x then (uriChars fuel c.advance).map fun r => (x :: r.1, r.2) else .ok ([], c)
    | none => .ok ([], c)

def scanUri (c : Cursor) : Except Fault (String × Cursor) :=
  if (c.peek 0).any isUriChar then
    (uriChars c.fuel c).map fun r => (String.ofList r.1, r.2)
  else .error c.malformed

def scanHandle (c : Cursor) : Except Fault (String × Cursor) :=
  if c.peek 0 ≠ some '!' then .error c.malformed
  else if c.peek 1 = some ' ' then .ok ("!", c.advance)
  else
    let (name, c) := c.advance.span isWordChar
    if c.peek 0 = some '!' then .ok (String.ofList ('!' :: name ++ ['!']), c.advance)
    else .error c.malformed

def hasHandle (c : Cursor) : Except Fault Bool := do
  let ahead := c.rest.drop 1 |>.takeWhile fun x => !(x == ' ' || isBreak x || x == '!')
  c.require (ahead.length + 2)
  return c.peek (ahead.length + 1) == some '!'

def scanTag (c : Cursor) : Except Fault (Token × Cursor) := do
  c.require 2
  let (handle, suffix, c) ←
    if c.peek 1 = some '<' then do
      let (suffix, c) ← scanUri (c.advanceBy 2)
      if c.peek 0 = some '>' then pure (none, suffix, c.advance) else throw c.malformed
    else if isGap (c.peek 1) then pure (none, "!", c.advance)
    else if ← hasHandle c then do
      let (handle, c) ← scanHandle c
      let (suffix, c) ← scanUri c
      pure (some handle, suffix, c)
    else do
      let (suffix, c) ← scanUri c.advance
      pure (some "!", suffix, c)
  if isSpaceOrEnd (c.peek 0) then return (.tag handle suffix, c) else throw c.malformed

end Name

namespace Directive

def scanNumber (c : Cursor) : Except Fault (Nat × Cursor) :=
  match c.span Char.isDigit with
  | ([], c) => .error c.malformed
  | (ds, c) =>
    if Digits.limit < ds.length then .error (c.failing 1 (.digitLimit ds.length))
    else .ok (Digits.natOf 10 ds, c)

def scanVersion (c : Cursor) : Except Fault (Token × Cursor) := do
  let (major, c) ← scanNumber c.skipSpaces
  if c.peek 0 ≠ some '.' then throw c.malformed
  let (_, c) ← scanNumber c.advance
  if isSpaceOrEnd (c.peek 0) then return (.versionDirective major, c) else throw c.malformed

def scanTagDirective (c : Cursor) : Except Fault (Token × Cursor) := do
  let (handle, c) ← Name.scanHandle c.skipSpaces
  if c.peek 0 ≠ some ' ' then throw c.malformed
  let (target, c) ← Name.scanUri c.skipSpaces
  if isSpaceOrEnd (c.peek 0) then return (.tagDirective handle target, c) else throw c.malformed

def scan (c : Cursor) : Except Fault (Token × Cursor) := do
  let (name, c) := c.advance.span isWordChar
  if name = [] ∨ !isSpaceOrEnd (c.peek 0) then throw c.malformed
  let (token, c) ←
    if name = "YAML".toList then scanVersion c
    else if name = "TAG".toList then scanTagDirective c
    else pure (.otherDirective, c.skip (!isBreak ·))
  let c ← Block.ignoredLine c
  return (token, c)

end Directive

/-- A place where a key may have begun: the number of its first token, whether it has to be a
key, and where it stands. -/
structure KeyMark where
  number : Nat
  required : Bool
  index : Nat
  line : Nat
  column : Nat

/-- The state of reading tokens. `tokens` holds those found, the last first; `marks` has at most
one entry for each depth of flow collections. -/
structure Lexer where
  cursor : Cursor
  depth : Nat := 0
  indent : Int := -1
  indents : List Int := []
  keyAllowed : Bool := true
  marks : List (Nat × KeyMark) := []
  tokens : List Token := []
  count : Nat := 0

namespace Lexer

def inFlow (l : Lexer) : Bool := l.depth != 0

def emit (l : Lexer) (t : Token) : Lexer :=
  { l with tokens := t :: l.tokens, count := l.count + 1 }

def emitAt (l : Lexer) (number : Nat) (t : Token) : Lexer :=
  let (later, earlier) := l.tokens.splitAt (l.count - number)
  { l with tokens := later ++ t :: earlier, count := l.count + 1 }

def moveTo (l : Lexer) (c : Cursor) : Lexer := { l with cursor := c }

/-- The longest distance of a key from its colon. -/
def keyLimit : Nat := 1024

/-- Whether a mark can no longer be a key here, because the line has ended or the key is too
long. -/
def isStale (l : Lexer) (m : KeyMark) : Bool :=
  m.line != l.cursor.line || keyLimit < l.cursor.index - m.index

def dropStale (l : Lexer) : Except Fault Lexer :=
  if l.marks.any fun p => l.isStale p.2 && p.2.required then .error .malformed
  else .ok { l with marks := l.marks.filter fun p => !l.isStale p.2 }

/-- The number of the first token that may still be a key, or else of the next token. -/
def settled (l : Lexer) : Nat :=
  l.marks.foldl (fun n p => if l.isStale p.2 then n else min n p.2.number) l.count

/-- The tokens, the last first, when the next one cannot be read. The fault is met in place of the
first token that may still be a key, since what follows such a token is read before it is used. -/
def fail (l : Lexer) (f : Fault) : List Token :=
  .fault f :: l.tokens.drop (l.count - l.settled)

def dropMark (l : Lexer) : Except Fault Lexer :=
  if l.marks.any fun p => p.1 == l.depth && p.2.required then .error .malformed
  else .ok { l with marks := l.marks.filter (·.1 != l.depth) }

def markKey (l : Lexer) : Except Fault Lexer :=
  if l.keyAllowed then do
    let m : KeyMark :=
      { number := l.count
        required := !l.inFlow && l.indent == l.cursor.column
        index := l.cursor.index
        line := l.cursor.line
        column := l.cursor.column }
    let l ← l.dropMark
    return { l with marks := (l.depth, m) :: l.marks }
  else .ok l

def unwind (l : Lexer) (column : Int) : Lexer :=
  if l.inFlow then l else go l.indents l
where
  go : List Int → Lexer → Lexer
    | [], l => l
    | outer :: rest, l =>
      if column < l.indent then go rest { l.emit .blockEnd with indent := outer, indents := rest }
      else l

/-- Whether a column begins a deeper block collection, and the state inside it. -/
def deepen (l : Lexer) (column : Nat) : Option Lexer :=
  if l.indent < column then
    some { l with indents := l.indent :: l.indents, indent := column }
  else none

def openBlock (l : Lexer) (start : Token) : Lexer :=
  match l.deepen l.cursor.column with
  | some l => l.emit start
  | none => l

def mark (l : Lexer) (t : Token) : Lexer := (l.moveTo l.cursor.advance).emit t

/-- A directive or the mark of a document, which end all block collections. -/
def outermost (l : Lexer) : Except Fault Lexer := do
  let l ← (l.unwind (-1)).dropMark
  return { l with keyAllowed := false }

def flowStart (l : Lexer) (t : Token) : Except Fault Lexer := do
  let l ← l.markKey
  return { l with depth := l.depth + 1, keyAllowed := true }.mark t

def flowEnd (l : Lexer) (t : Token) : Except Fault Lexer := do
  let l ← l.dropMark
  if l.depth = 0 then throw (l.cursor.failing 2 .malformed)
  return { l with depth := l.depth - 1, keyAllowed := false }.mark t

def flowEntry (l : Lexer) : Except Fault Lexer := do
  let l ← { l with keyAllowed := true }.dropMark
  return l.mark .flowEntry

def blockEntry (l : Lexer) : Except Fault Lexer := do
  if !l.inFlow && !l.keyAllowed then throw .malformed
  let l := if l.inFlow then l else l.openBlock .blockSequenceStart
  let l ← { l with keyAllowed := true }.dropMark
  return l.mark .blockEntry

def explicitKey (l : Lexer) : Except Fault Lexer := do
  if !l.inFlow && !l.keyAllowed then throw .malformed
  let l := if l.inFlow then l else l.openBlock .blockMappingStart
  let l ← { l with keyAllowed := !l.inFlow }.dropMark
  return l.mark .key

/-- A colon: what began at the mark of this depth was a key, if there is a mark. -/
def valueMark (l : Lexer) : Except Fault Lexer :=
  match l.marks.find? (·.1 == l.depth) with
  | some (_, m) =>
    let l := { l with marks := l.marks.filter (·.1 != l.depth), keyAllowed := false }
    let l := l.emitAt m.number .key
    let l := match if l.inFlow then none else l.deepen m.column with
      | some l => l.emitAt m.number .blockMappingStart
      | none => l
    .ok (l.mark .value)
  | none => do
    if !l.inFlow && !l.keyAllowed then throw .malformed
    let l := if l.inFlow then l else l.openBlock .blockMappingStart
    let l ← { l with keyAllowed := !l.inFlow }.dropMark
    return l.mark .value

def keyLike (l : Lexer) (scan : Cursor → Except Fault (Token × Cursor)) : Except Fault Lexer := do
  let l ← l.markKey
  let (t, c) ← scan l.cursor
  return ({ l with keyAllowed := false }.moveTo c).emit t

def plain (l : Lexer) : Except Fault Lexer := do
  let l ← l.markKey
  let r := Plain.scan l.inFlow l.indent l.cursor
  r.cursor.require (r.lookahead l.inFlow l.indent)
  return ({ l with keyAllowed := r.endsLine }.moveTo r.cursor).emit
    (.scalar (String.ofList r.text) true)

def block (l : Lexer) (folded : Bool) : Except Fault Lexer := do
  let l ← { l with keyAllowed := true }.dropMark
  let (s, c) ← Block.scan folded l.indent l.cursor
  return (l.moveTo c).emit (.scalar s false)

/-- Past blanks, comments and line ends. A new line outside flow collections may begin a key. -/
def skipToToken : Nat → Lexer → Lexer
  | 0, l => l
  | fuel + 1, l =>
    let c := l.cursor.skipSpaces.skipComment
    match c.lineBreak? with
    | some (_, c) => skipToToken fuel { l.moveTo c with keyAllowed := !l.inFlow || l.keyAllowed }
    | none => l.moveTo c

def startsPlain (inFlow : Bool) (x : Char) (next : Option Char) : Bool :=
  !(isBlank x || isBreak x || "-?:,[]\x7b\x7d#&*!|>'\"%@\x60".toList.contains x) ||
  (!isGap next && (x == '-' || (!inFlow && (x == '?' || x == ':'))))

/-- How many characters it takes to tell which token begins with `x`. -/
def lookahead (l : Lexer) (x : Char) : Nat :=
  if l.cursor.column = 0 ∧ (x = '-' ∨ x = '.') then if l.cursor.isSeparator then 4 else 3
  else if x = '-' ∨ (!l.inFlow ∧ (x = '?' ∨ x = ':')) then 2
  else 1

def dispatch (l : Lexer) (x : Char) : Except Fault Lexer := do
  let c := l.cursor
  c.require (l.lookahead x)
  let next := c.peek 1
  if c.column = 0 ∧ x = '%' then
    let l ← l.outermost
    let (t, c) ← Directive.scan l.cursor
    return (l.moveTo c).emit t
  else if c.column = 0 ∧ c.isMark '-' then
    let l ← l.outermost
    return (l.moveTo (l.cursor.advanceBy 3)).emit .documentStart
  else if c.column = 0 ∧ c.isMark '.' then
    let l ← l.outermost
    return (l.moveTo (l.cursor.advanceBy 3)).emit .documentEnd
  else if x = '[' then l.flowStart .flowSequenceStart
  else if x = '\x7b' then l.flowStart .flowMappingStart
  else if x = ']' then l.flowEnd .flowSequenceEnd
  else if x = '\x7d' then l.flowEnd .flowMappingEnd
  else if x = ',' then l.flowEntry
  else if x = '-' ∧ isGap next then l.blockEntry
  else if x = '?' ∧ (l.inFlow ∨ isGap next) then l.explicitKey
  else if x = ':' ∧ (l.inFlow ∨ isGap next) then l.valueMark
  else if x = '*' then l.keyLike fun c => (Name.scanAnchor c).map fun r => (.alias r.1, r.2)
  else if x = '&' then l.keyLike fun c => (Name.scanAnchor c).map fun r => (.anchor r.1, r.2)
  else if x = '!' then l.keyLike Name.scanTag
  else if x = '|' ∧ !l.inFlow then l.block false
  else if x = '>' ∧ !l.inFlow then l.block true
  else if x = '\'' ∨ x = '"' then
    l.keyLike fun c => (Quoted.scan (x == '"') c).map fun r => (.scalar r.1 false, r.2)
  else if startsPlain l.inFlow x next then l.plain
  else throw (c.failing 2 .malformed)

def finish (l : Lexer) : Except Fault Lexer := do
  let l ← l.outermost
  return l.emit .streamEnd

/-- Reads the next token, with what goes before it, and says whether it was not the last. The
character after it is looked at too. -/
def step (l : Lexer) : Except Fault (Bool × Lexer) := do
  let l ← l.dropStale
  let l := skipToToken l.cursor.fuel l
  l.cursor.require 1
  let l ← l.dropStale
  let l := l.unwind l.cursor.column
  match l.cursor.peek 0 with
  | none => return (false, ← l.finish)
  | some x =>
    let l ← l.dispatch x
    l.cursor.require 1
    return (true, l)

def run : Nat → Lexer → List Token
  | 0, l => l.fail .malformed
  | fuel + 1, l =>
    match l.step with
    | .error f => l.fail f
    | .ok (true, l) => run fuel l
    | .ok (false, l) => l.tokens

end Lexer

/-- The tokens of a text. A byte order mark at its start is passed over. -/
def Token.ofText (c : Cursor) : List Token :=
  let start := if c.peek 0 = some '\ufeff' then c.advance else c
  (Lexer.run (c.left + 2) { cursor := start }).reverse

end Yaml
end HtmlCatalog
