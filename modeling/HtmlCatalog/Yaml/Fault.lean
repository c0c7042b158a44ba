import HtmlCatalog.Calendar
import HtmlCatalog.Number.Digits
import HtmlCatalog.Text.Quoted
import HtmlCatalog.Text.Stream

/-! What can be wrong with a file that should hold YAML. Its bytes may be no text, and a text is
mostly simply malformed; some scalars have a tag whose values they cannot stand for, and each such
failure has its own words. -/
namespace HtmlCatalog
namespace Yaml

inductive Fault
  | malformed
  | encoding (fault : Utf8.Fault)
  | codePoint (code : Nat)
  | date (fault : Date.Fault)
  | moment (fault : Moment.Fault)
  | notATimestamp
  | notAnInteger (base : Nat) (text : String)
  | notAReal (text : String)
  | notABoolean (text : String)
  | emptyNumber
  | digitLimit (count : Nat)
  deriving DecidableEq, Repr

/-- A time span in days and seconds, the seconds never negative. -/
def spanText (minutes : Int) : String :=
  let seconds := (minutes * 60).fmod 86400
  "datetime.timedelta(days=" ++ toString ((minutes * 60).fdiv 86400) ++
    (if seconds = 0 then "" else ", seconds=" ++ toString seconds) ++ ")"

def momentMessage : Moment.Fault → String
  | .hour => "hour must be in 0..23"
  | .minute => "minute must be in 0..59"
  | .second => "second must be in 0..59"
  | .offset minutes =>
    "offset must be a timedelta strictly between -timedelta(hours=24) and timedelta(hours=24), " ++
      "not " ++ spanText minutes ++ "."
  | .date fault => fault.message

def Fault.message : Fault → String
  | .malformed => "malformed"
  | .encoding fault => fault.message
  | .codePoint code =>
    if code < 0x80000000 then "chr() arg not in range(0x110000)"
    else "Python int too large to convert to C int"
  | .date fault => fault.message
  | .moment fault => momentMessage fault
  | .notATimestamp => "'NoneType' object has no attribute 'groupdict'"
  | .notAnInteger base text =>
    "invalid literal for int() with base " ++ toString base ++ ": " ++ Text.quoted text
  | .notAReal text => "could not convert string to float: " ++ Text.quoted text
  | .notABoolean text => Text.quoted text
  | .emptyNumber => "string index out of range"
  | .digitLimit count => Digits.limitMessage count

end Yaml
end HtmlCatalog
