import HtmlCatalog.Text.Utf8

/-! A text that is read in pieces. Bytes are decoded block by block, and only when a piece needs
more characters than are ready; every kind of line end is handed out as a line feed. Where the
bytes are no text the pieces break off, so a reader that stops early does not meet the fault. -/
namespace HtmlCatalog
namespace Utf8

def IsText (bytes : List UInt8) : Prop := ∃ cs, decode bytes = .ok cs

/-- The state of decoding: what is left, the character begun by the last block, whether it ended in
a carriage return whose line feed may follow, the characters not yet handed out, and how many bytes
and characters that block had. -/
structure Stream where
  rest : List UInt8
  begun : Option Partial := none
  atReturn : Bool := false
  ready : List Char := []
  lastBytes : Nat := 0
  lastChars : Nat := 0

/-- Pieces of a text, and the fault with which they break off, if they do. -/
structure Pieces where
  pieces : List (List Char)
  fault : Option Fault

namespace Stream

def leastBlock : Nat := 8192

def endsInHalf (bytes : List UInt8) : Bool :=
  match bytes.reverse with
  | b :: 0xed :: _ => 0xa0 ≤ b && b ≤ 0xbf
  | _ => false

/-- How many bytes to decode for some characters, going by the last block. What is wrong with half
a surrogate pair at the end is left to the next block. -/
def blockSize (s : Stream) (needed : Nat) : Nat :=
  let block := s.rest.take (max leastBlock (needed * s.lastBytes / s.lastChars))
  if endsInHalf block then block.length - 1 else block.length

/-- The state after a block. Places of faults count from the first byte not yet decoded when the
block is taken. -/
def takeBlock (s : Stream) (needed : Nat) : Except Fault Stream :=
  let block := s.rest.take (s.blockSize needed)
  let start := (s.begun.map (·.seen)).getD 0
  match decodeFrom start s.begun block with
  | .error f => .error f
  | .ok (cs, begun) =>
    let cs := if s.atReturn then '\r' :: cs else cs
    let atReturn := cs.getLast? == some '\r'
    let cs := Text.normalizeLines (if atReturn then cs.dropLast else cs)
    .ok
      { rest := s.rest.drop (s.blockSize needed)
        begun, atReturn
        ready := s.ready ++ cs
        lastBytes := block.length
        lastChars := cs.length }

def fill (size : Nat) : Nat → Stream → Except Fault Stream
  | 0, _ => .error ⟨0, 0, 0, .endOfData⟩
  | fuel + 1, s =>
    if size ≤ s.ready.length then .ok s
    else if s.rest = [] then
      match s.begun with
      | some p => .error ⟨p.first, 0, p.seen, .endOfData⟩
      | none => .ok { s with
          ready := if s.atReturn then s.ready ++ ['\n'] else s.ready
          atReturn := false }
    else
      match s.takeBlock (size - s.ready.length) with
      | .error f => .error f
      | .ok s => fill size fuel s

def pieces (size : Nat) : Nat → Stream → Pieces
  | 0, _ => ⟨[], some ⟨0, 0, 0, .endOfData⟩⟩
  | fuel + 1, s =>
    match s.fill size (s.rest.length + 1) with
    | .error f => ⟨[], some f⟩
    | .ok s =>
      if s.ready = [] then ⟨[], none⟩
      else
        let r := pieces size fuel { s with ready := s.ready.drop size }
        { r with pieces := s.ready.take size :: r.pieces }

end Stream

def piecesOf (size : Nat) (bytes : List UInt8) : Pieces :=
  Stream.pieces size (bytes.length + 2) { rest := bytes }

section Whole

variable {p q : Option Partial} {bytes bs cs : List UInt8} {xs : List Char} {s u : Stream}
  {size i fuel : Nat}

/-- The bytes end a character begun, if there is one, and hold a text after it. -/
def Completes (p : Option Partial) (bs : List UInt8) : Prop :=
  ∀ i, ∃ xs, decodeFrom i p bs = .ok (xs, none)

theorem prepend_eq_ok_iff {x : Except Fault (List Char × Option Partial)} {c : Char} :
    (x.map fun r => (c :: r.1, r.2)) = .ok (xs, q) ↔ ∃ ys, xs = c :: ys ∧ x = .ok (ys, q) := by
  cases x with
  | error f => simp [Except.map]
  | ok r =>
    obtain ⟨ys, q'⟩ := r
    simp only [Except.map, Except.ok.injEq, Prod.mk.injEq]
    constructor
    · rintro ⟨rfl, rfl⟩
      exact ⟨ys, rfl, rfl, rfl⟩
    · rintro ⟨zs, rfl, rfl, rfl⟩
      exact ⟨rfl, rfl⟩

theorem completes_append (h : decodeFrom i p bs = .ok (xs, q)) (hrest : Completes q cs) :
    Completes p (bs ++ cs) := by
  induction i, p, bs using decodeFrom.induct generalizing xs with
  | case1 i p =>
    obtain ⟨-, rfl⟩ := Prod.mk.inj (Except.ok.inj h)
    exact hrest
  | case2 i b bs hlead => simp [decodeFrom, hlead] at h
  | case3 i b bs l hlead hlast ih =>
    simp only [decodeFrom, hlead, hlast, if_true, prepend_eq_ok_iff] at h
    obtain ⟨xs, -, hbs⟩ := h
    intro j
    obtain ⟨ys, hys⟩ := ih hbs (j + 1)
    exact ⟨_ :: ys, by simpa [decodeFrom, hlead, hlast] using prepend_eq_ok_iff.mpr ⟨ys, rfl, hys⟩⟩
  | case4 i b bs l hlead hmore ih =>
    simp only [decodeFrom, hlead, hmore, if_false] at h
    intro j
    obtain ⟨ys, hys⟩ := ih h (j + 1)
    exact ⟨ys, by simpa [decodeFrom, hlead, hmore] using hys⟩
  | case5 i p b bs hrange => simp [decodeFrom, hrange] at h
  | case6 i p b bs hrange hlast ih =>
    simp only [decodeFrom, hrange, hlast, if_true, if_false, prepend_eq_ok_iff] at h
    obtain ⟨xs, -, hbs⟩ := h
    intro j
    obtain ⟨ys, hys⟩ := ih hbs (j + 1)
    exact ⟨_ :: ys, by simpa [decodeFrom, hrange, hlast] using prepend_eq_ok_iff.mpr ⟨ys, rfl, hys⟩⟩
  | case7 i p b bs hrange hmore ih =>
    simp only [decodeFrom, hrange, hmore, if_false] at h
    intro j
    obtain ⟨ys, hys⟩ := ih h (j + 1)
    exact ⟨ys, by simpa [decodeFrom, hrange, hmore] using hys⟩

theorem Stream.completes_of_takeBlock {needed : Nat} (h : s.takeBlock needed = .ok u)
    (hrest : Completes u.begun u.rest) : Completes s.begun s.rest := by
  simp only [takeBlock] at h
  cases hblock : decodeFrom ((s.begun.map (·.seen)).getD 0) s.begun
      (s.rest.take (s.blockSize needed)) with
  | error f => simp [hblock] at h
  | ok r =>
    obtain ⟨xs, begun⟩ := r
    simp only [hblock] at h
    obtain rfl := Except.ok.inj h
    rw [← List.take_append_drop (s.blockSize needed) s.rest]
    exact completes_append hblock hrest

/-- What is filled has enough characters, or the bytes have ended with a character. -/
theorem Stream.completes_of_fill (h : s.fill size fuel = .ok u)
    (hrest : size ≤ u.ready.length → Completes u.begun u.rest) : Completes s.begun s.rest := by
  induction fuel generalizing s with
  | zero => simp [fill] at h
  | succ fuel ih =>
    rw [fill] at h
    by_cases hsize : size ≤ s.ready.length
    · obtain rfl : s = u := by simpa [hsize] using h
      exact hrest hsize
    · rw [if_neg hsize] at h
      by_cases hnil : s.rest = []
      · cases hbegun : s.begun with
        | some p => simp [hnil, hbegun] at h
        | none => exact fun i => ⟨[], by simp [hnil, decodeFrom]⟩
      · rw [if_neg hnil] at h
        cases hblock : s.takeBlock (size - s.ready.length) with
        | error f => simp [hblock] at h
        | ok v =>
          simp only [hblock] at h
          exact completes_of_takeBlock hblock (ih h)

theorem Stream.completes_of_pieces (hsize : 0 < size)
    (h : (pieces size fuel s).fault = none) : Completes s.begun s.rest := by
  induction fuel generalizing s with
  | zero => simp [pieces] at h
  | succ fuel ih =>
    simp only [pieces] at h
    cases hfill : s.fill size (s.rest.length + 1) with
    | error f => simp [hfill] at h
    | ok u =>
      refine completes_of_fill hfill fun hready => ?_
      have hne : u.ready ≠ [] := List.ne_nil_of_length_pos (Nat.lt_of_lt_of_le hsize hready)
      simp only [hfill, hne, if_false] at h
      exact @ih { u with ready := u.ready.drop size } h

theorem isText_of_piecesOf (hsize : 0 < size) (h : (piecesOf size bytes).fault = none) :
    IsText bytes := by
  obtain ⟨xs, hxs⟩ := Stream.completes_of_pieces hsize h 0
  exact ⟨xs, by simp [decode, hxs]⟩

theorem isText_of_forall_lt (h : ∀ b ∈ bytes, b < 0x80) : IsText bytes := by
  have hall : Completes none bytes := by
    induction bytes with
    | nil => exact fun i => ⟨[], rfl⟩
    | cons b bs ih =>
      rw [List.forall_mem_cons] at h
      intro i
      obtain ⟨xs, hxs⟩ := ih h.2 (i + 1)
      exact ⟨Char.ofNat b.toNat :: xs, by simp [decodeFrom, lead?, h.1, hxs, Except.map]⟩
  obtain ⟨xs, hxs⟩ := hall 0
  exact ⟨xs, by simp [decode, hxs]⟩

end Whole

end Utf8
end HtmlCatalog
