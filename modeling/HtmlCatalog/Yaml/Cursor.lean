import HtmlCatalog.Yaml.Fault

/-! A place in a YAML text: what is left of it and how much that is, and how far in the place is,
in characters, lines and columns. Where the text could not be read to its end, looking past the last
character that could be read is the fault. -/
namespace HtmlCatalog
namespace Yaml

def isBreak (c : Char) : Bool :=
  c == '\n' || c == '\u0085' || c == '\u2028' || c == '\u2029'

def isBlank (c : Char) : Bool := c == ' ' || c == '\t'

/-- A blank, the end of a line, or the end of the text. -/
def isGap : Option Char → Bool
  | none => true
  | some c => isBlank c || isBreak c

def isSpaceOrEnd : Option Char → Bool
  | none => true
  | some c => c == ' ' || isBreak c

def isWordChar (c : Char) : Bool := c.isAlphanum || c == '-' || c == '_'

structure Cursor where
  rest : List Char
  left : Nat := rest.length
  left_eq : left = rest.length := by rfl
  ending : Option Fault := none
  index : Nat := 0
  line : Nat := 0
  column : Nat := 0

namespace Cursor

/-- Whether a character may stand in a text at all. -/
def isAllowed (c : Char) : Bool :=
  let n := c.toNat
  n == 0x09 || n == 0x0a || n == 0x0d || (0x20 ≤ n && n ≤ 0x7e) || n == 0x85 ||
    (0xa0 ≤ n && n ≤ 0xd7ff) || (0xe000 ≤ n && n ≤ 0xfffd) || 0x10000 ≤ n

def pieceSize : Nat := 4096

/-- The start of a text that is given in pieces, each of which is checked when it is taken. -/
def ofPieces (ending : Option Fault) : List (List Char) → Cursor
  | [] => { rest := [], ending }
  | cs :: pieces =>
    if cs.all isAllowed then
      let c := ofPieces ending pieces
      { rest := cs ++ c.rest, ending := c.ending }
    else { rest := [], ending := some .malformed }

/-- The start of the text that bytes hold. Its first two pieces are taken together. -/
def ofBytes (bytes : List UInt8) : Cursor :=
  let text := Utf8.piecesOf pieceSize bytes
  let ending := text.fault.map .encoding
  match text.pieces with
  | first :: second :: pieces => ofPieces ending ((first ++ second) :: pieces)
  | pieces => if ending.isSome then { rest := [], ending } else ofPieces none pieces

theorem ending_of_ofPieces {ending : Option Fault} {pieces : List (List Char)}
    (h : (ofPieces ending pieces).ending = none) : ending = none := by
  induction pieces with
  | nil => exact h
  | cons cs pieces ih =>
    rw [ofPieces] at h
    split at h
    · exact ih h
    · cases h

theorem isText_of_ofBytes {bytes : List UInt8} (h : (ofBytes bytes).ending = none) :
    Utf8.IsText bytes := by
  refine Utf8.isText_of_piecesOf (by decide : 0 < pieceSize) ?_
  rw [← Option.map_eq_none_iff (f := Fault.encoding)]
  simp only [ofBytes] at h
  split at h
  · exact ending_of_ofPieces h
  · split at h
    · exact h
    · simp_all

def peek (c : Cursor) (k : Nat) : Option Char := c.rest[k]?

/-- One character further. A byte order mark takes no column. -/
def advance (c : Cursor) : Cursor :=
  let next (line column : Nat) : Cursor :=
    { rest := c.rest.tail
      left := c.left - 1
      left_eq := by simp [c.left_eq]
      ending := c.ending
      index := c.index + 1
      line, column }
  match c.rest with
  | [] => c
  | x :: _ =>
    if isBreak x then next (c.line + 1) 0
    else next c.line (if x = '\ufeff' then c.column else c.column + 1)

def advanceBy : Nat → Cursor → Cursor
  | 0, c => c
  | n + 1, c => advanceBy n c.advance

def span (p : Char → Bool) (c : Cursor) : List Char × Cursor :=
  let cs := c.rest.takeWhile p
  (cs, advanceBy cs.length c)

def skip (p : Char → Bool) (c : Cursor) : Cursor := (c.span p).2

def skipSpaces (c : Cursor) : Cursor := c.skip (· == ' ')

def skipComment (c : Cursor) : Cursor :=
  if c.peek 0 = some '#' then c.skip (!isBreak ·) else c

/-- The line break that starts here, a line feed unless it is a separator of lines or of
paragraphs, and the place after it. -/
def lineBreak? (c : Cursor) : Option (Char × Cursor) :=
  match c.rest with
  | '\n' :: _ | '\u0085' :: _ => some ('\n', c.advance)
  | '\u2028' :: _ => some ('\u2028', c.advance)
  | '\u2029' :: _ => some ('\u2029', c.advance)
  | _ => none

/-- Whether three equal marks stand here by themselves. -/
def isMark (c : Cursor) (x : Char) : Bool :=
  c.peek 0 == some x && c.peek 1 == some x && c.peek 2 == some x && isGap (c.peek 3)

def isSeparator (c : Cursor) : Bool := c.isMark '-' || c.isMark '.'

/-- Looks at `n` characters; the end of a text that was read whole counts as many. -/
def require (c : Cursor) (n : Nat) : Except Fault Unit :=
  match c.ending with
  | some f => if c.left < n then .error f else .ok ()
  | none => .ok ()

/-- What is met if there is a fault `f` in the next `n` characters. -/
def failing (c : Cursor) (n : Nat) (f : Fault) : Fault :=
  match c.require n with
  | .error e => e
  | .ok () => f

def malformed (c : Cursor) : Fault := c.failing 1 .malformed

def fuel (c : Cursor) : Nat := c.left + 1

end Cursor
end Yaml
end HtmlCatalog
