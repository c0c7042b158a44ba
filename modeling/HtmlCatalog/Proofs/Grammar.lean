import HtmlCatalog.Document
import Mathlib.Data.Rat.Cast.Lemmas
import Mathlib.Tactic.NormNum

/-! The grammar of HTML data documents. The reader goes through a document part by part and stops
at the first fault; the grammar says at once which documents have none. A version counts by its
exact value as a number, and what does not count as given stands for an empty list. -/
namespace HtmlCatalog

section Steps

variable {ε α β : Type}

theorem bind_eq_ok {x : Except ε α} {f : α → Except ε β} {b : β} :
    (x >>= f) = .ok b ↔ ∃ a, x = .ok a ∧ f a = .ok b := by
  cases x with
  | error e => simp [bind, Except.bind]
  | ok a => simp [bind, Except.bind]

/-- A step that gives a result. -/
def Succeeds (x : Except ε α) : Prop := ∃ a, x = .ok a

@[simp] theorem succeeds_ok (a : α) : Succeeds (.ok a : Except ε α) := ⟨a, rfl⟩

@[simp] theorem succeeds_pure (a : α) : Succeeds (pure a : Except ε α) := ⟨a, rfl⟩

@[simp] theorem not_succeeds_error (e : ε) : ¬ Succeeds (.error e : Except ε α) := nofun

theorem succeeds_bind_iff {x : Except ε α} {f : α → Except ε β} :
    Succeeds (x >>= f) ↔ ∃ a, x = .ok a ∧ Succeeds (f a) := by
  simp only [Succeeds, bind_eq_ok]
  constructor
  · rintro ⟨b, a, hx, hb⟩
    exact ⟨a, hx, b, hb⟩
  · rintro ⟨a, hx, b, hb⟩
    exact ⟨b, a, hx, hb⟩

/-- If it does not depend on the result of a step whether the next succeeds, both have to. -/
theorem succeeds_bind_of_ok {x : Except ε α} {f : α → Except ε β} {P : Prop}
    (hf : ∀ a, x = .ok a → (Succeeds (f a) ↔ P)) : Succeeds (x >>= f) ↔ Succeeds x ∧ P := by
  rw [succeeds_bind_iff]
  constructor
  · rintro ⟨a, hx, h⟩
    exact ⟨⟨a, hx⟩, (hf a hx).mp h⟩
  · rintro ⟨⟨a, hx⟩, h⟩
    exact ⟨a, hx, (hf a hx).mpr h⟩

theorem succeeds_bind {x : Except ε α} {f : α → Except ε β} {P : Prop}
    (hf : ∀ a, Succeeds (f a) ↔ P) : Succeeds (x >>= f) ↔ Succeeds x ∧ P :=
  succeeds_bind_of_ok fun a _ => hf a

theorem succeeds_mapM {f : α → Except ε β} {xs : List α} :
    Succeeds (xs.mapM f) ↔ ∀ x ∈ xs, Succeeds (f x) := by
  induction xs with
  | nil => simp
  | cons x xs ih =>
    rw [List.mapM_cons, List.forall_mem_cons, ← ih]
    apply succeeds_bind
    intro y
    rw [succeeds_bind fun ys => iff_of_true (succeeds_pure (y :: ys)) trivial, and_true]

end Steps

namespace Binary64

def value? (x : Binary64) : Option ℚ := x.ratio?.map fun r => r.1 / r.2

theorem equalsInt_iff (x : Binary64) (n : Int) :
    x.equalsInt n = true ↔ x.value? = some (n : ℚ) := by
  rw [equalsInt, value?]
  cases h : x.ratio? with
  | none => simp
  | some r =>
    have hd : (r.2 : ℚ) ≠ 0 := by exact_mod_cast (den_pos_of_ratio? h).ne'
    rw [Option.map_some, Option.some.injEq, div_eq_iff hd, beq_iff_eq]
    exact_mod_cast Iff.rfl

theorem numericEq_iff {x y : Binary64} {q : ℚ} (hy : y.value? = some q) :
    x.numericEq y = true ↔ x.value? = some q := by
  obtain ⟨s, hs, rfl⟩ := Option.map_eq_some_iff.mp hy
  rw [numericEq, hs, value?]
  cases h : x.ratio? with
  | none => simp
  | some r =>
    have hd : (r.2 : ℚ) ≠ 0 := by exact_mod_cast (den_pos_of_ratio? h).ne'
    have he : (s.2 : ℚ) ≠ 0 := by exact_mod_cast (den_pos_of_ratio? hs).ne'
    rw [Option.map_some, Option.some.injEq, div_eq_div_iff hd he, beq_iff_eq]
    exact_mod_cast Iff.rfl

end Binary64

namespace Scalar

/-- The number that a scalar counts as; `false` and `true` count as 0 and 1. -/
def number? : Scalar → Option ℚ
  | .bool b => some b.toInt
  | .int n => some n
  | .real x => x.value?
  | _ => none

/-- A scalar is the same key as a number if it counts as this number. -/
theorem sameKey_iff {s t : Scalar} {q : ℚ} (ht : t.number? = some q) :
    s.sameKey t = true ↔ s.number? = some q := by
  cases t with
  | bool c =>
    obtain rfl := Option.some.inj ht
    cases s with
    | bool b => cases b <;> cases c <;> simp [sameKey, number?]
    | int n => simp [sameKey, number?]
    | real x => exact Binary64.equalsInt_iff x _
    | _ => simp [sameKey, number?]
  | int m =>
    obtain rfl := Option.some.inj ht
    cases s with
    | bool b =>
      simp only [sameKey, number?, beq_iff_eq, Option.some.injEq, Int.cast_inj]
      exact eq_comm
    | int n => simp [sameKey, number?]
    | real x => exact Binary64.equalsInt_iff x _
    | _ => simp [sameKey, number?]
  | real y =>
    have hy : y.value? = some q := ht
    have hwhole : ∀ n : Int, y.equalsInt n = true ↔ some (n : ℚ) = some q := by
      intro n
      rw [Binary64.equalsInt_iff, hy, eq_comm]
    cases s with
    | bool b => exact hwhole _
    | int n => exact hwhole _
    | real x =>
      rw [sameKey, Bool.or_eq_true, beq_iff_eq, Binary64.numericEq_iff hy]
      exact or_iff_right_of_imp fun h => h ▸ hy
    | _ => simp [sameKey, number?]
  | _ => simp [number?] at ht

end Scalar

namespace Document

/-- The number of a version. The second is not 1.1 itself, but the binary number nearest to it. -/
def Version.number : Version → ℚ
  | .one => 1
  | .onePointOne => 4953959590107546 / 2 ^ 52

/-- A value that is equal to the number of a version. -/
def IsVersion (version : Version) (v : Value) : Prop :=
  ∃ s, v = .scalar s ∧ s.number? = some version.number

/-- A map with some property. -/
def MapOf (P : Entries → Prop) (v : Value) : Prop := ∃ es, v = .map es ∧ P es

/-- A value that does not count as given, or a list of values with some property. -/
def ListOf (P : Value → Prop) (v : Value) : Prop :=
  v.isTruthy = false ∨ ∃ items, v = .list items ∧ ∀ item ∈ items, P item

def IsText (v : Value) : Prop := ∃ s, v = .str s

/-- The entries of something with a name, which is a text and not empty. -/
def IsNamed (es : Entries) : Prop := ∃ s, s ≠ "" ∧ Value.field es "name" = .str s

/-- A text or a list of texts. -/
def IsHint (v : Value) : Prop := IsText v ∨ ∃ items, v = .list items ∧ ∀ item ∈ items, IsText item

@[mk_iff] structure IsValueSet (es : Entries) : Prop where
  named : IsNamed es
  values : ListOf (MapOf IsNamed) (Value.field es "values")

@[mk_iff] structure IsEvent (es : Entries) : Prop where
  named : IsNamed es
  type : Value.field es "type" = .null ∨ IsHint (Value.field es "type")

/-- Without a type an attribute may name a value set, and may give values of its own. These are not
looked at if the set is the one without values. -/
@[mk_iff] structure IsUntyped (es : Entries) : Prop where
  type : Value.field es "type" = .null
  valueSet : Value.field es "valueSet" = .null ∨ IsText (Value.field es "valueSet")
  values : Value.field es "valueSet" = .str "v" ∨
    ListOf (MapOf IsNamed) (Value.field es "values")

@[mk_iff] structure IsAttribute (es : Entries) : Prop where
  named : IsNamed es
  type : IsHint (Value.field es "type") ∨ IsUntyped es

@[mk_iff] structure IsTag (version : Version) (es : Entries) : Prop where
  named : IsNamed es
  attributes : ListOf (MapOf IsAttribute) (Value.field es "attributes")
  properties : version = .onePointOne →
    ListOf (MapOf IsAttribute) (Value.field es "properties")
  events : version = .onePointOne → ListOf (MapOf IsEvent) (Value.field es "events")
  slots : version = .onePointOne → ListOf (MapOf IsNamed) (Value.field es "slots")

@[mk_iff] structure IsDocument (version : Version) (es : Entries) : Prop where
  supported : IsVersion version (Value.field es "version")
  valueSets : ListOf (MapOf IsValueSet) (Value.field es "valueSets")
  tags : ListOf (MapOf (IsTag version)) (Value.field es "tags")
  attributes : ListOf (MapOf IsAttribute) (Value.field es "globalAttributes")
  events : version = .onePointOne → ListOf (MapOf IsEvent) (Value.field es "globalEvents")

section Version

theorem value?_onePointOne : onePointOne.value? = some Version.onePointOne.number := by
  have h : onePointOne.ratio? = some (4953959590107546, 2 ^ 52) := rfl
  norm_num [Binary64.value?, h, Version.number]

theorem version?_eq_some_iff {v : Value} {version : Version} :
    version? v = some version ↔ IsVersion version v := by
  cases v with
  | scalar s =>
    have hone : s.sameKey (.int 1) = true ↔ s.number? = some Version.one.number :=
      Scalar.sameKey_iff (by simp [Scalar.number?, Version.number])
    have hother : s.sameKey (.real onePointOne) = true ↔
        s.number? = some Version.onePointOne.number := Scalar.sameKey_iff value?_onePointOne
    have hdiffer : Version.one.number ≠ Version.onePointOne.number := by
      norm_num [Version.number]
    simp only [version?, IsVersion, Value.scalar.injEq, exists_eq_left', hone, hother]
    by_cases h₁ : s.number? = some Version.one.number
    · cases version <;> simp [h₁, hdiffer]
    · by_cases h₂ : s.number? = some Version.onePointOne.number
      · cases version <;> simp [h₂, hdiffer.symm]
      · cases version <;> simp [h₁, h₂]
  | _ => simp [version?, IsVersion]

end Version

section Parts

variable {α β : Type} {es : Entries} {role : Role} {v : Value} {P : Value → Prop} {Q : Prop}

theorem succeeds_readEntries {f : Entries → Except Fault α} :
    Succeeds (readEntries role v >>= f) ↔ MapOf (fun es => Succeeds (f es)) v := by
  cases v with
  | map es => simp [readEntries, MapOf, bind, Except.bind]
  | _ => simp [readEntries, MapOf, bind, Except.bind]

theorem succeeds_nameIn : Succeeds (nameIn role es) ↔ IsNamed es := by
  unfold nameIn IsNamed
  split
  · rename_i s h
    by_cases hs : s = "" <;> simp [hs, h]
  · rename_i h
    simp only [not_succeeds_error, false_iff]
    rintro ⟨s, -, hs⟩
    exact h s hs

theorem section?_eq_ok_iff {key : String} {items : List Value} :
    (section? es key = .ok items) ↔
      ((Value.field es key).isTruthy = false ∧ items = []) ∨
        ((Value.field es key).isTruthy = true ∧ Value.field es key = .list items) := by
  unfold section?
  by_cases h : (Value.field es key).isTruthy = true
  · cases hv : Value.field es key <;> simp_all
  · simp [h, eq_comm]

theorem succeeds_section {key : String} {f : Value → Except Fault α}
    {g : List α → Except Fault β} (hf : ∀ v, Succeeds (f v) ↔ P v)
    (hg : ∀ xs, Succeeds (g xs) ↔ Q) :
    Succeeds (section? es key >>= fun items => items.mapM f >>= g) ↔
      ListOf P (Value.field es key) ∧ Q := by
  have hitems : ∀ items : List Value,
      Succeeds (items.mapM f >>= g) ↔ (∀ item ∈ items, P item) ∧ Q := by
    intro items
    rw [succeeds_bind hg, succeeds_mapM]
    simp only [hf]
  rw [succeeds_bind_iff]
  simp only [hitems, section?_eq_ok_iff, ListOf]
  constructor
  · rintro ⟨items, ⟨hfalse, -⟩ | ⟨-, hlist⟩, hall, hQ⟩
    · exact ⟨.inl hfalse, hQ⟩
    · exact ⟨.inr ⟨items, hlist, hall⟩, hQ⟩
  · rintro ⟨hfalse | ⟨items, hlist, hall⟩, hQ⟩
    · exact ⟨[], .inl ⟨hfalse, rfl⟩, by simp, hQ⟩
    · by_cases h : (Value.field es key).isTruthy = true
      · exact ⟨items, .inr ⟨h, hlist⟩, hall, hQ⟩
      · exact ⟨[], .inl ⟨Bool.not_eq_true _ ▸ h, rfl⟩, by simp, hQ⟩

theorem succeeds_named {f : Entries → String → Except Fault α} {P : Entries → Prop}
    (hf : ∀ es name, P es ↔ IsNamed es ∧ Succeeds (f es name)) :
    Succeeds (readEntries role v >>= fun es => nameIn role es >>= f es) ↔ MapOf P v := by
  rw [succeeds_readEntries]
  refine exists_congr fun es => and_congr_right fun _ => ?_
  refine succeeds_bind_iff.trans ?_
  constructor
  · rintro ⟨name, hname, h⟩
    exact (hf es name).mpr ⟨succeeds_nameIn.mp ⟨name, hname⟩, h⟩
  · intro h
    obtain ⟨name, hname⟩ : Succeeds (nameIn role es) := succeeds_nameIn.mpr ((hf es "").mp h).1
    exact ⟨name, hname, ((hf es name).mp h).2⟩

theorem succeeds_readName : Succeeds (readName role v) ↔ MapOf IsNamed v := by
  unfold readName
  simp only [succeeds_readEntries, succeeds_nameIn]

theorem succeeds_readValueSet : Succeeds (readValueSet v) ↔ MapOf IsValueSet v := by
  refine succeeds_named fun es name => ?_
  rw [isValueSet_iff, succeeds_section (fun _ => succeeds_readName) fun _ =>
    iff_of_true (succeeds_pure _) trivial, and_true]

theorem isSome_texts?_iff {items : List Value} :
    (texts? items).isSome ↔ ∀ item ∈ items, IsText item := by
  induction items with
  | nil => simp [texts?]
  | cons v vs ih =>
    rw [List.forall_mem_cons, ← ih]
    cases v with
    | scalar s => cases s <;> simp [texts?, IsText]
    | _ => simp [texts?, IsText]

theorem statedType_eq_none_iff : statedType es = .ok none ↔ Value.field es "type" = .null := by
  unfold statedType
  cases Value.field es "type" with
  | scalar s => cases s <;> simp
  | list items => cases h : texts? items <;> simp [h]
  | _ => simp

theorem exists_statedType_eq_some_iff :
    (∃ t, statedType es = .ok (some t)) ↔ IsHint (Value.field es "type") := by
  unfold statedType IsHint
  cases Value.field es "type" with
  | scalar s => cases s <;> simp [IsText]
  | list items =>
    simp only [Value.list.injEq, exists_eq_left', ← isSome_texts?_iff]
    cases texts? items <;> simp [IsText]
  | _ => simp [IsText]

theorem succeeds_statedType :
    Succeeds (statedType es) ↔ Value.field es "type" = .null ∨ IsHint (Value.field es "type") := by
  rw [← statedType_eq_none_iff, ← exists_statedType_eq_some_iff, Succeeds, Option.exists]

theorem succeeds_valueSetName :
    Succeeds (valueSetName es) ↔
      Value.field es "valueSet" = .null ∨ IsText (Value.field es "valueSet") := by
  unfold valueSetName IsText
  cases Value.field es "valueSet" with
  | scalar s => cases s <;> simp
  | _ => simp

theorem eq_void_iff {set : Option String} (h : valueSetName es = .ok set) :
    set = some voidValueSet ↔ Value.field es "valueSet" = .str "v" := by
  unfold valueSetName at h
  cases hv : Value.field es "valueSet" with
  | scalar s => cases s <;> simp_all [voidValueSet, eq_comm]
  | _ => simp_all

theorem succeeds_attributeType {sets : ValueSets} :
    Succeeds (attributeType sets es) ↔ IsHint (Value.field es "type") ∨ IsUntyped es := by
  unfold attributeType
  rw [succeeds_bind_iff, Option.exists, or_comm]
  refine or_congr ?_ ?_
  · simp only [succeeds_pure, and_true, exists_statedType_eq_some_iff]
  · rw [isUntyped_iff, statedType_eq_none_iff]
    refine and_congr_right fun _ => ?_
    rw [← succeeds_valueSetName]
    refine succeeds_bind_of_ok fun set hset => ?_
    rw [← eq_void_iff hset]
    by_cases hvoid : set = some voidValueSet
    · simp [hvoid]
    · simp only [hvoid, if_false, false_or]
      rw [succeeds_section (fun _ => succeeds_readName) fun _ =>
        iff_of_true (succeeds_pure _) trivial, and_true]

theorem succeeds_readAttribute {sets : ValueSets} {kind : MemberKind} {owner : Option String} :
    Succeeds (readAttribute sets kind owner v) ↔ MapOf IsAttribute v := by
  refine succeeds_named fun es name => ?_
  rw [isAttribute_iff, succeeds_bind fun _ => iff_of_true (succeeds_pure _) trivial, and_true,
    succeeds_attributeType]

theorem succeeds_readEvent {owner : Option String} :
    Succeeds (readEvent owner v) ↔ MapOf IsEvent v := by
  refine succeeds_named fun es name => ?_
  rw [isEvent_iff, succeeds_bind fun _ => iff_of_true (succeeds_pure _) trivial, and_true,
    succeeds_statedType]

theorem succeeds_readSlot {owner : String} : Succeeds (readSlot owner v) ↔ MapOf IsNamed v :=
  succeeds_named fun _ _ => (and_iff_left (succeeds_pure _)).symm

theorem succeeds_readTag {sets : ValueSets} {version : Version} :
    Succeeds (readTag sets version v) ↔ MapOf (IsTag version) v := by
  refine succeeds_named fun es name => ?_
  rw [isTag_iff]
  refine and_congr_right fun _ => ?_
  cases version with
  | one =>
    rw [succeeds_section (fun _ => succeeds_readAttribute) fun _ =>
      iff_of_true (succeeds_pure _) trivial]
    simp
  | onePointOne =>
    simp only [forall_const]
    symm
    refine succeeds_section (fun _ => succeeds_readAttribute) fun _ => ?_
    refine succeeds_section (fun _ => succeeds_readAttribute) fun _ => ?_
    refine succeeds_section (fun _ => succeeds_readEvent) fun _ => ?_
    refine (succeeds_section (fun _ => succeeds_readSlot) fun _ =>
      iff_of_true (succeeds_pure _) trivial).trans (and_iff_left trivial)

theorem succeeds_sections (version : Version) :
    Succeeds (do
      let sets ← (← section? es "valueSets").mapM readValueSet
      let tags ← (← section? es "tags").mapM (readTag sets version)
      let attributes ← (← section? es "globalAttributes").mapM (readAttribute sets .attribute none)
      match version with
      | .one => return ({ tags, attributes } : Collection)
      | .onePointOne =>
        let events ← (← section? es "globalEvents").mapM (readEvent none)
        return { tags, attributes, events }) ↔
      ListOf (MapOf IsValueSet) (Value.field es "valueSets") ∧
        ListOf (MapOf (IsTag version)) (Value.field es "tags") ∧
        ListOf (MapOf IsAttribute) (Value.field es "globalAttributes") ∧
        (version = .onePointOne → ListOf (MapOf IsEvent) (Value.field es "globalEvents")) := by
  refine succeeds_section (fun _ => succeeds_readValueSet) fun _ => ?_
  refine succeeds_section (fun _ => succeeds_readTag) fun _ => ?_
  refine succeeds_section (fun _ => succeeds_readAttribute) fun _ => ?_
  cases version with
  | one => simp
  | onePointOne =>
    simp only [forall_const]
    exact (succeeds_section (fun _ => succeeds_readEvent) fun _ =>
      iff_of_true (succeeds_pure _) trivial).trans (and_iff_left trivial)

end Parts

/-- A document that belongs to the grammar. -/
def Valid (v : Value) : Prop := MapOf (fun es => ∃ version, IsDocument version es) v

theorem parse_sound {v : Value} {c : Collection} (h : parse v = .ok c) : Valid v := by
  obtain ⟨es, hv, hes⟩ := succeeds_readEntries.mp (⟨c, h⟩ : Succeeds (parse v))
  refine ⟨es, hv, ?_⟩
  cases hversion : version? (Value.field es "version") with
  | none => simp [hversion] at hes
  | some version =>
    simp only [hversion] at hes
    exact ⟨version, (isDocument_iff ..).mpr
      ⟨version?_eq_some_iff.mp hversion, (succeeds_sections version).mp hes⟩⟩

theorem parse_complete {v : Value} (h : Valid v) : Succeeds (parse v) := by
  obtain ⟨es, hv, version, hes⟩ := h
  obtain ⟨hversion, hsections⟩ := (isDocument_iff ..).mp hes
  refine succeeds_readEntries.mpr ⟨es, hv, ?_⟩
  simp only [version?_eq_some_iff.mpr hversion]
  exact (succeeds_sections version).mpr hsections

/-- The reader accepts the documents of the grammar and no other value. -/
theorem parse_accepts_iff (v : Value) : (∃ c, parse v = .ok c) ↔ Valid v := by
  constructor
  · rintro ⟨c, h⟩
    exact parse_sound h
  · exact parse_complete

end Document
end HtmlCatalog
