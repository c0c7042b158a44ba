import HtmlCatalog.Number.Binary64

/-! The shortest decimal text of a binary number. A decimal stands for a number when it lies in
the interval of reals that round to it; among the decimals with the fewest digits in the interval
the nearest is taken. Only the two neighbours of the number on each decimal grid need a look,
since a grid with any point in the interval has one of those two in it. -/
namespace HtmlCatalog
namespace Decimal

/-- The decimal `0.d₁d₂… * 10 ^ point`, the digits written as one whole number. -/
structure Digits where
  digits : Nat
  point : Int
  deriving DecidableEq, Repr

/-- A finite number and the interval around it, in one common unit: a quarter of the step to the
next number. -/
structure Interval where
  low : Nat
  value : Nat
  high : Nat
  closed : Bool
  unit : Int

def Interval.around (mantissa : Nat) (exponent : Int) : Interval :=
  let narrow := mantissa = Nat.pow 2 52 ∧ Binary64.lowestExponent < exponent
  { low := 4 * mantissa - if narrow then 1 else 2
    value := 4 * mantissa
    high := 4 * mantissa + 2
    closed := mantissa % 2 == 0
    unit := exponent - 2 }

/-- `a * 2 ^ e` and `b * 10 ^ f` brought to whole numbers in the same proportion. -/
def scaled (a : Nat) (e : Int) (b : Nat) (f : Int) : Nat × Nat :=
  (a * Nat.pow 2 e.toNat * Nat.pow 10 (-f).toNat, b * Nat.pow 10 f.toNat * Nat.pow 2 (-e).toNat)

def Interval.contains (i : Interval) (digits : Nat) (grid : Int) : Bool :=
  let (low, d) := scaled i.low i.unit digits grid
  let (high, d') := scaled i.high i.unit digits grid
  if i.closed then low ≤ d && d' ≤ high else low < d && d' < high

/-- Twice the distance of the number from `digits * 10 ^ grid`, against one step of the grid. -/
def Interval.nearerBelow (i : Interval) (below : Nat) (grid : Int) : Ordering :=
  let (v, b) := scaled i.value i.unit below grid
  let (_, one) := scaled i.value i.unit 1 grid
  compare (2 * (v - b)) one

/-- The place of the decimal point of `a * 2 ^ e`: the least `k` with the value below `10 ^ k`,
found from an estimate that is never too large. -/
def pointFrom (a : Nat) (e : Int) (k : Int) : Nat → Int
  | 0 => k
  | fuel + 1 =>
    let (v, p) := scaled a e 1 k
    if v < p then k else pointFrom a e (k + 1) fuel

def pointOf (a : Nat) (e : Int) : Int :=
  let bits := (a.log2 : Int) + e
  pointFrom a e (bits * 30103 / 100000 - 1) 5

def onGrid (i : Interval) (point : Int) (count : Nat) : Option Digits :=
  let grid := point - count
  let (v, one) := scaled i.value i.unit 1 grid
  let below := v / one
  let hitBelow := below != 0 && i.contains below grid
  let hitAbove := i.contains (below + 1) grid
  if hitBelow && hitAbove then
    match i.nearerBelow below grid with
    | .lt => some ⟨below, point⟩
    | .gt => some ⟨below + 1, point⟩
    | .eq => some ⟨if below % 2 = 0 then below else below + 1, point⟩
  else if hitBelow then some ⟨below, point⟩
  else if hitAbove then some ⟨below + 1, point⟩
  else none

/-- The digits of the shortest decimal. Seventeen always suffice. -/
def shortest (mantissa : Nat) (exponent : Int) : Digits :=
  let i := Interval.around mantissa exponent
  let point := pointOf i.value i.unit
  let found := (List.range 17).findSome? fun n =>
    (onGrid i point (n + 1)).map fun d =>
      if d.digits = Nat.pow 10 (n + 1) then ⟨1, point + 1⟩ else d
  found.getD ⟨0, 0⟩

structure Layout where
  /-- Decimal exponents from the first up to the second, the latter not included, are written
  with the point in its place, others in scientific form. -/
  positional : Int × Int
  /-- A whole number in positional form ends in `.0`. -/
  keepsFraction : Bool
  exponentMark : String
  exponentPlus : String
  exponentWidth : Nat
  nan : String
  infinity : String

def padLeft (width : Nat) (s : List Char) : List Char :=
  List.replicate (width - s.length) '0' ++ s

def Layout.digitsText (layout : Layout) (d : Digits) : List Char :=
  let ds := Nat.toDigits 10 d.digits
  let exponent := d.point - 1
  if layout.positional.1 ≤ exponent ∧ exponent < layout.positional.2 then
    if d.point ≤ 0 then '0' :: '.' :: (List.replicate (-d.point).toNat '0' ++ ds)
    else
      let n := d.point.toNat
      if ds.length ≤ n then
        ds ++ List.replicate (n - ds.length) '0' ++ if layout.keepsFraction then ['.', '0'] else []
      else ds.take n ++ '.' :: ds.drop n
  else
    let body := match ds with
      | [] => []
      | [x] => [x]
      | x :: rest => x :: '.' :: rest
    let sign := if exponent < 0 then ['-'] else layout.exponentPlus.toList
    body ++ layout.exponentMark.toList ++ sign ++
      padLeft layout.exponentWidth (Nat.toDigits 10 exponent.natAbs)

def Layout.text (layout : Layout) : Binary64 → String
  | .nan => layout.nan
  | .infinite s => (if s then "-" else "") ++ layout.infinity
  | .finite s 0 _ => (if s then "-" else "") ++ if layout.keepsFraction then "0.0" else "0"
  | .finite s m e =>
    String.ofList ((if s then ['-'] else []) ++ layout.digitsText (shortest m e))

end Decimal
end HtmlCatalog
