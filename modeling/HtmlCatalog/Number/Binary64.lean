/-! Binary floating point numbers with 53 bits of precision, as exact objects: a finite number is
a sign, a whole mantissa and a power of two. Reading a decimal text and the two operations needed
for sums in base sixty both go through `ofRatio`, which takes the nearest such number to an exact
quotient, the even mantissa in a tie, and an infinity past the largest. -/
namespace HtmlCatalog

inductive Binary64
  | nan
  | infinite (negative : Bool)
  | finite (negative : Bool) (mantissa : Nat) (exponent : Int)
  deriving DecidableEq, Repr, Inhabited

namespace Binary64

def lowestExponent : Int := -1074

def highestExponent : Int := 971

/-- `num / den` to the nearest whole number, a half going to the even neighbour. -/
def roundEven (num den : Nat) : Nat :=
  let q := num / den
  let twice := 2 * (num % den)
  if twice < den then q
  else if den < twice then q + 1
  else if q % 2 = 0 then q else q + 1

/-- The quotient `num / den` counted in units of `2 ^ exponent`. -/
def inUnits (num den : Nat) : Int → Nat × Nat
  | .ofNat e => (num, den * Nat.pow 2 e)
  | .negSucc e => (num * Nat.pow 2 (e + 1), den)

/-- The exponent at which a quotient has a mantissa of full length, or the lowest one. -/
def exponentFor (num den : Nat) : Int :=
  let e := max ((num.log2 : Int) - den.log2 - 53) lowestExponent
  let (n, d) := inUnits num den e
  if Nat.pow 2 53 ≤ n / d then e + 1 else e

def ofRatio (negative : Bool) (num den : Nat) : Binary64 :=
  if num = 0 then .finite negative 0 lowestExponent
  else
    let e := exponentFor num den
    let (n, d) := inUnits num den e
    let m := roundEven n d
    let (m, e) := if m = Nat.pow 2 53 then (Nat.pow 2 52, e + 1) else (m, e)
    if highestExponent < e then .infinite negative else .finite negative m e

def ofNat (n : Nat) : Binary64 := ofRatio false n 1

/-- The number nearest to `digits * 10 ^ exponent`. A value certainly above `10 ^ 310` or below
`10 ^ -330` is decided without computing the power. -/
def ofDecimal (negative : Bool) (digits : Nat) (exponent : Int) : Binary64 :=
  if digits = 0 then .finite negative 0 lowestExponent
  else if 310 < exponent + (digits.log2 * 3 / 10 : Nat) then .infinite negative
  else if exponent + (digits.log2 / 3 + 2 : Nat) < -330 then .finite negative 0 lowestExponent
  else match exponent with
    | .ofNat e => ofRatio negative (digits * Nat.pow 10 e) 1
    | .negSucc e => ofRatio negative digits (Nat.pow 10 (e + 1))

def neg : Binary64 → Binary64
  | .nan => .nan
  | .infinite s => .infinite !s
  | .finite s m e => .finite (!s) m e

def ratio? : Binary64 → Option (Int × Nat)
  | .finite s m (.ofNat e) => some ((if s then -1 else 1) * (m * Nat.pow 2 e : Nat), 1)
  | .finite s m (.negSucc e) => some ((if s then -1 else 1) * (m : Int), Nat.pow 2 (e + 1))
  | _ => none

theorem den_pos_of_ratio? {x : Binary64} {a : Int} {d : Nat} (h : x.ratio? = some (a, d)) :
    0 < d := by
  match x with
  | .finite s m (.ofNat e) =>
    simp only [ratio?, Option.some.injEq, Prod.mk.injEq] at h
    omega
  | .finite s m (.negSucc e) =>
    simp only [ratio?, Option.some.injEq, Prod.mk.injEq] at h
    rw [← h.2]
    exact Nat.two_pow_pos _

/-- The sum of two numbers, neither of which is negative. -/
def add (x y : Binary64) : Binary64 :=
  match x.ratio?, y.ratio? with
  | some (n, d), some (k, e) => ofRatio false (n.toNat * e + k.toNat * d) (d * e)
  | _, _ => if x = .nan ∨ y = .nan then .nan else .infinite false

/-- The product of two numbers, neither of which is negative. -/
def mul (x y : Binary64) : Binary64 :=
  match x.ratio?, y.ratio? with
  | some (n, d), some (k, e) => ofRatio false (n.toNat * k.toNat) (d * e)
  | some (n, _), none => if n = 0 ∨ y = .nan then .nan else .infinite false
  | none, some (k, _) => if k = 0 ∨ x = .nan then .nan else .infinite false
  | none, none => if x = .nan ∨ y = .nan then .nan else .infinite false

def isZero : Binary64 → Bool
  | .finite _ m _ => m == 0
  | _ => false

/-- Equality of values: the two zeros are equal, and nothing equals `nan`. -/
def numericEq (x y : Binary64) : Bool :=
  match x.ratio?, y.ratio? with
  | some (a, d), some (b, e) => a * e == b * d
  | some _, none | none, some _ => false
  | none, none => x != .nan && x == y

def equalsInt (x : Binary64) (n : Int) : Bool :=
  match x.ratio? with
  | some (a, d) => a == n * d
  | none => false

end Binary64
end HtmlCatalog
