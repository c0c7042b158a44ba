import HtmlCatalog.Yaml.Cursor

/-! The three ways to write a scalar: in quotes, plainly, and as an indented block. Lines are
folded alike in the first two: a single break between words is a space, and of several the first
is dropped. -/
namespace HtmlCatalog
namespace Yaml

/-- The value of folding a line break and the empty lines after it. -/
def fold (lineBreak : Char) (empty : List Char) : List Char :=
  if lineBreak ≠ '\n' then lineBreak :: empty
  else if empty = [] then [' ']
  else empty

namespace Quoted

def escaped? : Char → Option Char
  | '0' => some '\x00'
  | 'a' => some '\x07'
  | 'b' => some '\x08'
  | 't' => some '\t'
  | '\t' => some '\t'
  | 'n' => some '\n'
  | 'v' => some '\x0b'
  | 'f' => some '\x0c'
  | 'r' => some '\r'
  | 'e' => some '\x1b'
  | ' ' => some ' '
  | '"' => some '"'
  | '\\' => some '\\'
  | '/' => some '/'
  | 'N' => some '\u0085'
  | '_' => some '\u00a0'
  | 'L' => some '\u2028'
  | 'P' => some '\u2029'
  | _ => none

def codeLength? : Char → Option Nat
  | 'x' => some 2
  | 'u' => some 4
  | 'U' => some 8
  | _ => none

/-- The character with a code point. A text of characters cannot hold half of a surrogate pair; each
half becomes the same replacement, so texts that differ only in such halves are one text here. -/
def ofCode (n : Nat) : Except Fault Char :=
  if 0x110000 ≤ n then .error (.codePoint n)
  else if 0xd800 ≤ n ∧ n < 0xe000 then .ok '\ufffd'
  else .ok (Char.ofNat n)

/-- Empty lines inside quotes. A document may not end here. -/
def breaks : Nat → Cursor → Except Fault (List Char × Cursor)
  | 0, _ => .error .malformed
  | fuel + 1, c => do
    c.require 3
    if c.isSeparator then throw (c.failing 4 .malformed)
    let c := c.skip isBlank
    match c.lineBreak? with
    | some (b, c) => (breaks fuel c).map fun r => (b :: r.1, r.2)
    | none => return ([], c)

def blanks (c : Cursor) : Except Fault (List Char × Cursor) :=
  let (white, c) := c.span isBlank
  if c.rest = [] then .error c.malformed
  else
    match c.lineBreak? with
    | some (b, c) => (breaks c.fuel c).map fun r => (fold b r.1, r.2)
    | none => .ok (white, c)

def code (n : Nat) (c : Cursor) : Except Fault Nat :=
  let ds := c.rest.take n
  if ds.all (Digits.isDigitOf 16) then
    if ds.length = n then .ok (Digits.natOf 16 ds) else .error (c.failing n .malformed)
  else .error .malformed

def characters (double : Bool) : Nat → Cursor → Except Fault (List Char × Cursor)
  | 0, _ => .error .malformed
  | fuel + 1, c =>
    let continueWith (cs : List Char) (c : Cursor) : Except Fault (List Char × Cursor) :=
      (characters double fuel c).map fun r => (cs ++ r.1, r.2)
    match c.peek 0 with
    | none => .error c.malformed
    | some '\'' =>
      if double then continueWith ['\''] c.advance
      else if c.peek 1 = some '\'' then continueWith ['\''] (c.advanceBy 2)
      else .ok ([], c.advance)
    | some '"' => if double then .ok ([], c.advance) else continueWith ['"'] c.advance
    | some '\\' =>
      if !double then continueWith ['\\'] c.advance
      else
        let c := c.advance
        match c.peek 0 with
        | none => .error c.malformed
        | some x =>
          match escaped? x, codeLength? x with
          | some y, _ => continueWith [y] c.advance
          | none, some n =>
            match (code n c.advance).bind ofCode with
            | .ok y => continueWith [y] (c.advanceBy (n + 1))
            | .error f => .error f
          | none, none =>
            match c.lineBreak? with
            | some (_, c) =>
              match breaks c.fuel c with
              | .ok (bs, c) => continueWith bs c
              | .error f => .error f
            | none => .error .malformed
    | some x =>
      if isBlank x || isBreak x then
        match blanks c with
        | .ok (bs, c) => continueWith bs c
        | .error f => .error f
      else continueWith [x] c.advance

def scan (double : Bool) (c : Cursor) : Except Fault (String × Cursor) :=
  (characters double c.fuel c.advance).map fun r => (String.ofList r.1, r.2)

end Quoted

namespace Plain

/-- The end of a plain word: a gap, a colon that ends a key, or in a flow collection a mark of
its structure. -/
def isEnd (inFlow : Bool) (x : Char) (next : Option Char) : Bool :=
  isGap (some x) ||
  (x == ':' && (isGap next || (inFlow && ([',', '[', ']', '\x7b', '\x7d'].any (next == some ·))))) ||
  (inFlow && [',', '?', '[', ']', '\x7b', '\x7d'].contains x)

def wordLength (inFlow : Bool) : List Char → Nat
  | [] => 0
  | x :: rest => if isEnd inFlow x rest.head? then 0 else wordLength inFlow rest + 1

/-- Empty lines and indentation between plain words; `none` if a document ends here. -/
def breaks : Nat → Cursor → Option (List Char) × Cursor
  | 0, c => (some [], c)
  | fuel + 1, c =>
    match c.lineBreak? with
    | some (b, c) =>
      if c.isSeparator then (none, c)
      else
        let r := breaks fuel c
        (r.1.map (b :: ·), r.2)
    | none => if c.peek 0 = some ' ' then breaks fuel c.advance else (some [], c)

structure Gap where
  text : List Char
  endsLine : Bool
  cursor : Cursor

/-- The gap after a plain word; its text is empty if no word can follow. -/
def gap (c : Cursor) : Gap :=
  let (white, c) := c.span (· == ' ')
  match c.lineBreak? with
  | none => ⟨white, false, c⟩
  | some (b, c) =>
    if c.isSeparator then ⟨[], true, c⟩
    else
      match breaks c.fuel c with
      | (none, c) => ⟨[], true, c⟩
      | (some bs, c) => ⟨fold b bs, true, c⟩

structure Result where
  text : List Char
  endsLine : Bool
  cursor : Cursor

/-- How many characters are looked at to tell that a plain scalar has ended: at a colon also the
next one, and at the start of a line as many as the mark of a document has. -/
def Result.lookahead (r : Result) (inFlow : Bool) (indent : Int) : Nat :=
  let isOutside := r.endsLine && !inFlow && r.cursor.column ≤ indent
  let atEnd := if r.cursor.peek 0 = some ':' ∧ !isOutside then 2 else 1
  if !r.endsLine then atEnd
  else if r.cursor.column = 0 ∧ r.cursor.isSeparator then 4
  else max atEnd (3 - r.cursor.column)

/-- The words of a plain scalar after a first gap. Outside flow collections a word must stand
right of the enclosing indentation. -/
def words (inFlow : Bool) (indent : Int) (between : List Char) (endsLine : Bool) :
    Nat → Cursor → Result
  | 0, c => ⟨[], endsLine, c⟩
  | fuel + 1, c =>
    if c.peek 0 = some '#' then ⟨[], endsLine, c⟩
    else
      match wordLength inFlow c.rest with
      | 0 => ⟨[], endsLine, c⟩
      | n =>
        let word := between ++ c.rest.take n
        let g := gap (c.advanceBy n)
        if g.text = [] ∨ g.cursor.peek 0 = some '#' ∨ (!inFlow ∧ (g.cursor.column : Int) < indent)
        then ⟨word, g.endsLine, g.cursor⟩
        else
          let r := words inFlow indent g.text g.endsLine fuel g.cursor
          { r with text := word ++ r.text }

def scan (inFlow : Bool) (indent : Int) (c : Cursor) : Result :=
  words inFlow (indent + 1) [] false c.fuel c

end Plain

namespace Block

inductive Chomping
  | clip | strip | keep
  deriving DecidableEq

def chomping? : Char → Option Chomping
  | '+' => some .keep
  | '-' => some .strip
  | _ => none

def increment? (x : Char) : Except Fault (Option Nat) :=
  if x.isDigit then if x = '0' then .error .malformed else .ok (some (x.toNat - 48)) else .ok none

def header (c : Cursor) : Except Fault (Chomping × Option Nat × Cursor) := do
  let (chomp, increment, c) ← match c.peek 0 with
    | none => pure (Chomping.clip, none, c)
    | some x =>
      match chomping? x with
      | some chomp =>
        match c.peek 1 with
        | none => pure (chomp, none, c.advance)
        | some y =>
          match ← increment? y with
          | some n => pure (chomp, some n, c.advanceBy 2)
          | none => pure (chomp, none, c.advance)
      | none =>
        match ← increment? x with
        | none => pure (Chomping.clip, none, c)
        | some n =>
          match (c.peek 1).bind chomping? with
          | some chomp => pure (chomp, some n, c.advanceBy 2)
          | none => pure (Chomping.clip, some n, c.advance)
  if isSpaceOrEnd (c.peek 0) then return (chomp, increment, c) else throw .malformed

def ignoredLine (c : Cursor) : Except Fault Cursor :=
  let c := c.skipSpaces.skipComment
  match c.lineBreak? with
  | some (_, c) => .ok c
  | none => if c.rest = [] then .ok c else .error .malformed

def leading : Nat → Cursor → List Char × Nat × Cursor
  | 0, c => ([], 0, c)
  | fuel + 1, c =>
    match c.lineBreak? with
    | some (b, c) =>
      let r := leading fuel c
      (b :: r.1, r.2)
    | none =>
      if c.peek 0 = some ' ' then
        let c := c.advance
        let r := leading fuel c
        (r.1, max c.column r.2.1, r.2.2)
      else ([], 0, c)

def indentation (indent : Nat) : Nat → Cursor → Cursor
  | 0, c => c
  | fuel + 1, c =>
    if c.column < indent ∧ c.peek 0 = some ' ' then indentation indent fuel c.advance else c

def breaks (indent : Nat) : Nat → Cursor → List Char × Cursor
  | 0, c => ([], c)
  | fuel + 1, c =>
    let c := indentation indent indent c
    match c.lineBreak? with
    | some (b, c) =>
      let r := breaks indent fuel c
      (b :: r.1, r.2)
    | none => ([], c)

/-- The lines of a block. `pending` is the break before a line and the empty lines after it. -/
structure Lines where
  text : List Char
  lineBreak : List Char
  empty : List Char
  cursor : Cursor

def lines (folded : Bool) (indent : Nat) (empty : List Char) : Nat → Cursor → Lines
  | 0, c => ⟨[], [], empty, c⟩
  | fuel + 1, c =>
    if c.column ≠ indent ∨ c.rest = [] then ⟨[], [], empty, c⟩
    else
      let startsBlank := (c.peek 0).any isBlank
      let (line, c) := c.span (!isBreak ·)
      let (lineBreak, c) := match c.lineBreak? with
        | some (b, c) => ([b], c)
        | none => ([], c)
      let (after, c) := breaks indent c.fuel c
      let body := empty ++ line
      if c.column = indent ∧ c.rest ≠ [] then
        let join :=
          if folded ∧ lineBreak = ['\n'] ∧ !startsBlank ∧ !(c.peek 0).any isBlank then
            if after = [] then [' '] else []
          else lineBreak
        let r := lines folded indent after fuel c
        { r with text := body ++ join ++ r.text }
      else ⟨body, lineBreak, after, c⟩

def scan (folded : Bool) (enclosing : Int) (c : Cursor) : Except Fault (String × Cursor) := do
  let (chomp, increment, c) ← header c.advance
  let c ← ignoredLine c
  let least := (max (enclosing + 1) 1).toNat
  let (indent, empty, c) := match increment with
    | none =>
      let (empty, deepest, c) := leading c.fuel c
      (max least deepest, empty, c)
    | some n =>
      let indent := least + n - 1
      let (empty, c) := breaks indent c.fuel c
      (indent, empty, c)
  let r := lines folded indent empty c.fuel c
  let tail := match chomp with
    | .strip => []
    | .clip => r.lineBreak
    | .keep => r.lineBreak ++ r.empty
  return (String.ofList (r.text ++ tail), r.cursor)

end Block
end Yaml
end HtmlCatalog
