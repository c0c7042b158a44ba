/-! Bytes written in base sixty-four: four letters of six bits each for three bytes. Other characters
are passed over, and equal signs fill up the last group. -/
namespace HtmlCatalog
namespace Base64

def bits? (c : Char) : Option Nat :=
  if 'A' ≤ c ∧ c ≤ 'Z' then some (c.toNat - 65)
  else if 'a' ≤ c ∧ c ≤ 'z' then some (c.toNat - 71)
  else if '0' ≤ c ∧ c ≤ '9' then some (c.toNat + 4)
  else if c = '+' then some 62
  else if c = '/' then some 63
  else none

/-- The bytes to come after `place` letters of a group, of whose bits `held` belong to no byte yet,
and `pads` signs that fill it up. What follows a group filled up is not read. -/
def decodeFrom (place held pads : Nat) : List Char → Option (List UInt8)
  | [] => if place = 0 then some [] else none
  | c :: cs =>
    if c = '=' ∧ 2 ≤ place then
      if 4 ≤ place + pads + 1 then some [] else decodeFrom place held (pads + 1) cs
    else
      match bits? c with
      | none => decodeFrom place held pads cs
      | some bits =>
        let ahead := 4 ^ (3 - place)
        let rest := decodeFrom ((place + 1) % 4) (bits % ahead) 0 cs
        -- The first letter of a group does not yet complete a byte.
        if place = 0 then rest
        else rest.map (UInt8.ofNat (held * 4 ^ place + bits / ahead) :: ·)

def decode (cs : List Char) : Option (List UInt8) := decodeFrom 0 0 0 cs

end Base64
end HtmlCatalog
