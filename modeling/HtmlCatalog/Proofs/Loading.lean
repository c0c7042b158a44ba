import HtmlCatalog.Source
import HtmlCatalog.Proofs.Reading

/-! When a source is loaded. The look at the form of a value before it is parsed rejects nothing
that could be parsed, so what a source describes is what its value, read and repaired, is parsed
to. -/
namespace HtmlCatalog

variable {t : FileTree} {v w : Value} {c : Collection}

theorem toOption_eq_some_iff {ε α : Type} {x : Except ε α} {a : α} :
    x.toOption = some a ↔ x = .ok a := by
  cases x <;> simp [Except.toOption]

/-- What can be parsed has the form of a document. -/
theorem Document.isDocument_of_parse (h : Document.parse v = .ok c) :
    Origin.isDocument v = true := by
  obtain ⟨es, rfl, version, sets, hreads⟩ := parse_eq_ok_iff.mp h
  have hversion := hreads.supported
  cases hfield : Value.lookup? es (.str "version") with
  | none =>
    have hnull : version? .null = none := by decide +kernel
    rw [Value.field, hfield, Option.getD_none, hnull] at hversion
    cases hversion
  | some x => rw [Origin.isDocument, hfield, Option.isSome_some]

theorem Origin.toOption_load {o : Origin} (h : o.read t = .ok v) :
    (o.load t).toOption = (Document.parse (o.repair v)).toOption := by
  simp only [Origin.load, h]
  cases hparse : Document.parse (o.repair v) with
  | ok c =>
    rw [if_pos (Document.isDocument_of_parse hparse)]
    rfl
  | error f => split_ifs <;> rfl

namespace Source

/-- The value of a source as it comes to be parsed: read from where it is, and repaired. -/
def data? (t : FileTree) (v : Value) : Option Value :=
  ((Source.value v).origin t).toOption.bind fun o => (o.read t).toOption.map o.repair

theorem data?_eq {o : Origin} (ho : (Source.value v).origin t = .ok o) (hread : o.read t = .ok w) :
    data? t v = some (o.repair w) := by
  rw [data?, ho, Except.toOption, Option.bind_some, hread, Except.toOption, Option.map_some]

/-- What a source describes, if it is given to be parsed without a look at its form. -/
def parsed? (t : FileTree) (v : Value) : Option Collection :=
  (data? t v).bind fun w => (Document.parse w).toOption

theorem toOption_load (t : FileTree) (v : Value) : (load t v).toOption = parsed? t v := by
  rw [load, parsed?]
  cases ho : (Source.value v).origin t with
  | error f => rw [data?, ho]; rfl
  | ok o =>
    cases hread : o.read t with
    | error f =>
      simp only [Origin.load, hread]
      rw [data?, ho, Except.toOption, Option.bind_some, hread]
      rfl
    | ok w =>
      simp only [Origin.toOption_load hread]
      rw [data?_eq ho hread, Option.bind_some]

theorem load_eq_ok_iff :
    load t v = .ok c ↔ ∃ w, data? t v = some w ∧ Document.parse w = .ok c := by
  rw [← toOption_eq_some_iff, toOption_load, parsed?, Option.bind_eq_some_iff]
  simp only [toOption_eq_some_iff]

end Source
end HtmlCatalog
