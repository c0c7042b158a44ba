/-! Messages with a level, kept in the order in which they arise beside the value of what was
done. -/
namespace HtmlCatalog

inductive LogLevel
  | debug | info | warning | error
  deriving DecidableEq, Repr

def LogLevel.text : LogLevel → String
  | .debug => "DEBUG"
  | .info => "INFO"
  | .warning => "WARNING"
  | .error => "ERROR"

structure LogEntry where
  level : LogLevel
  text : String
  deriving DecidableEq, Repr

/-- A value and what was reported on the way to it. -/
structure Logged (α : Type) where
  value : α
  log : List LogEntry

namespace Logged

variable {α β ε : Type}

instance : Monad Logged where
  pure a := ⟨a, []⟩
  bind x f := ⟨(f x.value).value, x.log ++ (f x.value).log⟩

/-- Goes on with a result if there is one. -/
def andThen (x : Logged (Except ε α)) (f : α → Logged (Except ε β)) : Logged (Except ε β) :=
  match x.value with
  | .ok a => ⟨(f a).value, x.log ++ (f a).log⟩
  | .error e => ⟨.error e, x.log⟩

theorem andThen_of_ok {x : Logged (Except ε α)} {f : α → Logged (Except ε β)} {a : α}
    (h : x.value = .ok a) : x.andThen f = ⟨(f a).value, x.log ++ (f a).log⟩ := by
  simp [andThen, h]

theorem andThen_of_error {x : Logged (Except ε α)} {f : α → Logged (Except ε β)} {e : ε}
    (h : x.value = .error e) : x.andThen f = ⟨.error e, x.log⟩ := by
  simp [andThen, h]

theorem value_andThen (x : Logged (Except ε α)) (f : α → Logged (Except ε β)) :
    (x.andThen f).value = x.value.bind fun a => (f a).value := by
  cases h : x.value with
  | ok a => rw [andThen_of_ok h, Except.bind]
  | error e => rw [andThen_of_error h, Except.bind]

end Logged
end HtmlCatalog
