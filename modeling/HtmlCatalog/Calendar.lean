/-! Days and moments as data formats write them. A day is checked against the calendar when it is
made; a moment adds a time of day and, if one was given, its distance from universal time. -/
namespace HtmlCatalog

structure Date where
  year : Nat
  month : Nat
  day : Nat
  deriving DecidableEq, Repr

namespace Date

inductive Fault
  | year (given : Nat) | month | day
  deriving DecidableEq, Repr

def Fault.message : Fault → String
  | .year y => "year " ++ toString y ++ " is out of range"
  | .month => "month must be in 1..12"
  | .day => "day is out of range for month"

def isLeap (year : Nat) : Bool :=
  year % 4 == 0 && (year % 100 != 0 || year % 400 == 0)

def daysInMonth (year month : Nat) : Nat :=
  if month = 2 then if isLeap year then 29 else 28
  else if month = 4 ∨ month = 6 ∨ month = 9 ∨ month = 11 then 30
  else 31

/-- The day, if the calendar has it. The year is looked at first, the day last. -/
def make (year month day : Nat) : Except Fault Date :=
  if year < 1 ∨ 9999 < year then .error (.year year)
  else if month < 1 ∨ 12 < month then .error .month
  else if day < 1 ∨ daysInMonth year month < day then .error .day
  else .ok ⟨year, month, day⟩

end Date

def paddedNat (width n : Nat) : String :=
  let ds := Nat.toDigits 10 n
  String.ofList (List.replicate (width - ds.length) '0' ++ ds)

def Date.text (d : Date) : String :=
  paddedNat 4 d.year ++ "-" ++ paddedNat 2 d.month ++ "-" ++ paddedNat 2 d.day

/-- A moment; `offset` is the number of minutes that local time is ahead of universal time. -/
structure Moment where
  date : Date
  hour : Nat
  minute : Nat
  second : Nat
  micro : Nat
  offset : Option Int
  deriving DecidableEq, Repr

namespace Moment

inductive Fault
  | hour | minute | second
  | offset (minutes : Int)
  | date (fault : Date.Fault)
  deriving DecidableEq, Repr

def make (year month day hour minute second micro : Nat) (offset : Option Int) :
    Except Fault Moment :=
  if offset.any (1440 ≤ ·.natAbs) then .error (.offset (offset.getD 0))
  else match Date.make year month day with
    | .error f => .error (.date f)
    | .ok d =>
      if 24 ≤ hour then .error .hour
      else if 60 ≤ minute then .error .minute
      else if 60 ≤ second then .error .second
      else .ok ⟨d, hour, minute, second, micro, offset⟩

def text (m : Moment) : String :=
  let time := paddedNat 2 m.hour ++ ":" ++ paddedNat 2 m.minute ++ ":" ++ paddedNat 2 m.second
  let fraction := if m.micro = 0 then "" else "." ++ paddedNat 6 m.micro
  let zone := match m.offset with
    | none => ""
    | some o =>
      (if o < 0 then "-" else "+") ++ paddedNat 2 (o.natAbs / 60) ++ ":" ++
        paddedNat 2 (o.natAbs % 60)
  m.date.text ++ " " ++ time ++ fraction ++ zone

end Moment
end HtmlCatalog
