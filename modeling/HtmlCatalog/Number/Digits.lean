import HtmlCatalog.Number.Binary64

/-! Numbers written by digits. A digit counts in a base if its value is below the base; letters of
either case are the digits above nine. Whole numbers in base ten have a limit on their length. -/
namespace HtmlCatalog
namespace Digits

def digitValue (c : Char) : Nat :=
  if '0' ≤ c ∧ c ≤ '9' then c.toNat - 48
  else if 'a' ≤ c ∧ c ≤ 'z' then c.toNat - 87
  else if 'A' ≤ c ∧ c ≤ 'Z' then c.toNat - 55
  else 36

def isDigitOf (base : Nat) (c : Char) : Bool := digitValue c < base

def natOf (base : Nat) (ds : List Char) : Nat :=
  ds.foldl (fun n c => base * n + digitValue c) 0

def natOf? (base : Nat) (ds : List Char) : Option Nat :=
  if ds ≠ [] ∧ ds.all (isDigitOf base) then some (natOf base ds) else none

/-- The most digits that a whole number in base ten may have. -/
def limit : Nat := 4300

def isOverLimit (n : Int) : Bool := Nat.pow 10 limit ≤ n.natAbs

def exceedsLimit (details : String) : String :=
  "Exceeds the limit (" ++ toString limit ++ " digits) for integer string conversion" ++ details ++
    "; use sys.set_int_max_str_digits() to increase the limit"

def limitMessage (count : Nat) : String :=
  exceedsLimit (": value has " ++ toString count ++ " digits")

def unwritableMessage : String := exceedsLimit ""

/-- The digits and the power of ten of `whole . fraction e exponent`. -/
structure Scientific where
  whole : List Char
  fraction : List Char
  exponent : Option Int

def Scientific.value (s : Scientific) (negative : Bool) : Binary64 :=
  Binary64.ofDecimal negative (natOf 10 (s.whole ++ s.fraction))
    (s.exponent.getD 0 - s.fraction.length)

def takeExponent (cs : List Char) : Option (Int × List Char) :=
  let (negative, cs) := match cs with
    | '-' :: cs => (true, cs)
    | '+' :: cs => (false, cs)
    | cs => (false, cs)
  match cs.takeWhile (isDigitOf 10) with
  | [] => none
  | ds =>
    let n : Int := natOf 10 ds
    some (if negative then -n else n, cs.dropWhile (isDigitOf 10))

end Digits
end HtmlCatalog
