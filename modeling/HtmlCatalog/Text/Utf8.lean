/-! Decoding bytes as text in the eight-bit Unicode form. A fault names the bytes at fault, their
place, and what is wrong with them: a byte that starts no character, a byte that cannot follow, or
an end in the middle of a character. -/
namespace HtmlCatalog
namespace Utf8

inductive Reason
  | startByte | continuationByte | endOfData
  deriving DecidableEq, Repr

def Reason.text : Reason → String
  | .startByte => "invalid start byte"
  | .continuationByte => "invalid continuation byte"
  | .endOfData => "unexpected end of data"

/-- The bytes from `start`, `count` of them and the first being `first`, are no text. -/
structure Fault where
  first : UInt8
  start : Nat
  count : Nat
  reason : Reason
  deriving DecidableEq, Repr

def hexByte (b : UInt8) : String :=
  let ds := Nat.toDigits 16 b.toNat
  String.ofList (List.replicate (2 - ds.length) '0' ++ ds)

def Fault.message (f : Fault) : String :=
  let subject :=
    if f.count = 1 then "byte 0x" ++ hexByte f.first ++ " in position " ++ toString f.start
    else "bytes in position " ++ toString f.start ++ "-" ++ toString (f.start + f.count - 1)
  "'utf-8' codec can't decode " ++ subject ++ ": " ++ f.reason.text

/-- What the first byte of a character asks for: the number of bytes to follow, the range of the
next one, and the bits that the first byte itself gives. -/
structure Lead where
  following : Nat
  least : UInt8
  greatest : UInt8
  bits : Nat

def lead? (b : UInt8) : Option Lead :=
  if b < 0x80 then some ⟨0, 0x80, 0xbf, b.toNat⟩
  else if b < 0xc2 then none
  else if b < 0xe0 then some ⟨1, 0x80, 0xbf, b.toNat - 0xc0⟩
  else if b < 0xf0 then
    some ⟨2, if b = 0xe0 then 0xa0 else 0x80, if b = 0xed then 0x9f else 0xbf, b.toNat - 0xe0⟩
  else if b < 0xf5 then
    some ⟨3, if b = 0xf0 then 0x90 else 0x80, if b = 0xf4 then 0x8f else 0xbf, b.toNat - 0xf0⟩
  else none

/-- A character begun and not ended: what its first byte asked for and the bytes seen so far. -/
structure Partial where
  first : UInt8
  seen : Nat
  missing : Nat
  least : UInt8
  greatest : UInt8
  bits : Nat

def Partial.bitsWith (p : Partial) (b : UInt8) : Nat := p.bits * 64 + (b.toNat - 0x80)

/-- Decodes bytes that start at `position`, with the character begun before them, if any. At the
end the character still open is handed back. -/
def decodeFrom (position : Nat) : Option Partial → List UInt8 →
    Except Fault (List Char × Option Partial)
  | p, [] => .ok ([], p)
  | none, b :: bs =>
    match lead? b with
    | none => .error ⟨b, position, 1, .startByte⟩
    | some l =>
      if l.following = 0 then
        (decodeFrom (position + 1) none bs).map fun r => (Char.ofNat l.bits :: r.1, r.2)
      else decodeFrom (position + 1) (some ⟨b, 1, l.following, l.least, l.greatest, l.bits⟩) bs
  | some p, b :: bs =>
    if b < p.least ∨ p.greatest < b then
      .error ⟨p.first, position - p.seen, p.seen, .continuationByte⟩
    else if p.missing = 1 then
      (decodeFrom (position + 1) none bs).map fun r => (Char.ofNat (p.bitsWith b) :: r.1, r.2)
    else
      decodeFrom (position + 1)
        (some ⟨p.first, p.seen + 1, p.missing - 1, 0x80, 0xbf, p.bitsWith b⟩) bs

/-- Decodes all bytes at once; places count from the first byte. -/
def decode (bytes : List UInt8) : Except Fault (List Char) :=
  match decodeFrom 0 none bytes with
  | .error f => .error f
  | .ok (cs, none) => .ok cs
  | .ok (_, some p) => .error ⟨p.first, bytes.length - p.seen, p.seen, .endOfData⟩

end Utf8

namespace Text

def normalizeLines : List Char → List Char
  | '\r' :: '\n' :: cs => '\n' :: normalizeLines cs
  | '\r' :: cs => '\n' :: normalizeLines cs
  | c :: cs => c :: normalizeLines cs
  | [] => []

end Text
end HtmlCatalog
