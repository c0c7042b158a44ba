import HtmlCatalog.Proofs.Grammar

/-! What is read from a document, said part by part. A tag, or a whole collection, is read from a
map of entries if each of its lists is what the section for it gives, item by item. In version 1
the sections that belong to version 1.1 give nothing, whatever stands there. -/
namespace HtmlCatalog

section Steps

variable {ε α β γ : Type}

/-- Readers that go the same way on every item give lists that go the same way. -/
theorem mapM_eq_ok_map {f : α → Except ε β} {g : α → Except ε γ} {k : β → γ} {xs : List α}
    {ys : List β} (hstep : ∀ x ∈ xs, ∀ y, f x = .ok y → g x = .ok (k y))
    (h : xs.mapM f = .ok ys) : xs.mapM g = .ok (ys.map k) := by
  induction xs generalizing ys with
  | nil =>
    obtain rfl := Except.ok.inj h
    rfl
  | cons x xs ih =>
    rw [List.mapM_cons] at h
    obtain ⟨y, hy, zs, hzs, hys⟩ := by simpa only [bind_eq_ok] using h
    obtain rfl := Except.ok.inj hys
    rw [List.forall_mem_cons] at hstep
    rw [List.mapM_cons, hstep.1 y hy, ih hstep.2 hzs]
    rfl

theorem forall_of_mapM_eq_ok {f : α → Except ε β} {P : β → Prop}
    (hf : ∀ x y, f x = .ok y → P y) {xs : List α} {ys : List β} (h : xs.mapM f = .ok ys) :
    ∀ y ∈ ys, P y := by
  induction xs generalizing ys with
  | nil =>
    obtain rfl := Except.ok.inj h
    simp
  | cons x xs ih =>
    rw [List.mapM_cons] at h
    obtain ⟨y, hy, zs, hzs, hys⟩ := by simpa only [bind_eq_ok] using h
    obtain rfl := Except.ok.inj hys
    rw [List.forall_mem_cons]
    exact ⟨hf x y hy, ih hzs⟩

theorem mapM_append_eq_ok_iff {f : α → Except ε β} {xs ys : List α} {zs : List β} :
    (xs ++ ys).mapM f = .ok zs ↔
      ∃ as bs, xs.mapM f = .ok as ∧ ys.mapM f = .ok bs ∧ zs = as ++ bs := by
  rw [List.mapM_append]
  simp only [bind_eq_ok, pure, Except.pure, Except.ok.injEq, eq_comm (a := zs)]
  tauto

end Steps

namespace Document

variable {α β : Type} {es : Entries} {key : String} {sets : ValueSets} {version : Version}
  {v : Value}

/-- The section under a key gives the list, item by item. -/
def Reads (f : Value → Except Fault α) (es : Entries) (key : String) (xs : List α) : Prop :=
  ∃ items, section? es key = .ok items ∧ items.mapM f = .ok xs

/-- The same of a section that is looked at in version 1.1 only. -/
def ReadsSince (version : Version) (f : Value → Except Fault α) (es : Entries) (key : String)
    (xs : List α) : Prop :=
  match version with
  | .one => xs = []
  | .onePointOne => Reads f es key xs

theorem Reads.forall_mem {f : Value → Except Fault α} {P : α → Prop} {xs : List α}
    (h : Reads f es key xs) (hf : ∀ v x, f v = .ok x → P x) : ∀ x ∈ xs, P x := by
  obtain ⟨items, -, hxs⟩ := h
  exact forall_of_mapM_eq_ok hf hxs

theorem ReadsSince.forall_mem {f : Value → Except Fault α} {P : α → Prop} {xs : List α}
    (h : ReadsSince version f es key xs) (hf : ∀ v x, f v = .ok x → P x) : ∀ x ∈ xs, P x := by
  cases version with
  | one =>
    obtain rfl : xs = [] := h
    simp
  | onePointOne => exact Reads.forall_mem h hf

theorem section_eq_ok_iff {f : Value → Except Fault α} {g : List α → Except Fault β} {b : β} :
    (section? es key >>= fun items => items.mapM f >>= g) = .ok b ↔
      ∃ xs, Reads f es key xs ∧ g xs = .ok b := by
  simp only [bind_eq_ok, Reads]
  tauto

/-- A tag is what the entries give. -/
structure ReadsTag (sets : ValueSets) (version : Version) (es : Entries) (t : Tag) : Prop where
  name : nameIn .tag es = .ok t.name
  attributes : Reads (readAttribute sets .attribute (some t.name)) es "attributes" t.attributes
  properties : ReadsSince version (readAttribute sets .property (some t.name)) es "properties"
    t.properties
  events : ReadsSince version (readEvent (some t.name)) es "events" t.events
  slots : ReadsSince version (readSlot t.name) es "slots" t.slots
  description : t.description = description es
  builtIn : t.builtIn = false

theorem readEntries_eq_ok_iff {role : Role} : readEntries role v = .ok es ↔ v = .map es := by
  cases v <;> simp [readEntries]

/-- An attribute or a property takes its name, its type and its description from its entries. -/
theorem readAttribute_eq_ok_iff {kind : MemberKind} {owner : Option String} {m : Member} :
    readAttribute sets kind owner v = .ok m ↔
      ∃ es name type, v = .map es ∧
        nameIn (if kind = .property then .property else .attribute) es = .ok name ∧
        attributeType sets es = .ok type ∧
        m = { name, type, kind, description := description es, fromTag := owner } := by
  simp only [readAttribute, bind_eq_ok, readEntries_eq_ok_iff]
  constructor
  · rintro ⟨es, rfl, name, hname, type, htype, h⟩
    exact ⟨es, name, type, rfl, hname, htype, (Except.ok.inj h).symm⟩
  · rintro ⟨es, name, type, rfl, hname, htype, rfl⟩
    exact ⟨es, rfl, name, hname, type, htype, rfl⟩

theorem readEvent_eq_ok_iff {owner : Option String} {m : Member} :
    readEvent owner v = .ok m ↔
      ∃ es name type, v = .map es ∧ nameIn .event es = .ok name ∧ statedType es = .ok type ∧
        m = { name, type := type.getD .any, kind := .event, description := description es,
              fromTag := owner } := by
  simp only [readEvent, bind_eq_ok, readEntries_eq_ok_iff]
  constructor
  · rintro ⟨es, rfl, name, hname, type, htype, h⟩
    exact ⟨es, name, type, rfl, hname, htype, (Except.ok.inj h).symm⟩
  · rintro ⟨es, name, type, rfl, hname, htype, rfl⟩
    exact ⟨es, rfl, name, hname, type, htype, rfl⟩

theorem readTag_eq_ok_iff {t : Tag} :
    readTag sets version v = .ok t ↔ ∃ es, v = .map es ∧ ReadsTag sets version es t := by
  simp only [readTag, bind_eq_ok (x := readEntries _ _), bind_eq_ok (x := nameIn _ _),
    readEntries_eq_ok_iff, section_eq_ok_iff]
  refine exists_congr fun es => and_congr_right fun _ => ?_
  constructor
  · rintro ⟨name, hname, attributes, ha, h⟩
    cases version with
    | one =>
      obtain rfl := Except.ok.inj h
      exact ⟨hname, ha, rfl, rfl, rfl, rfl, rfl⟩
    | onePointOne =>
      simp only [section_eq_ok_iff] at h
      obtain ⟨properties, hp, events, he, slots, hs, h⟩ := h
      obtain rfl := Except.ok.inj h
      exact ⟨hname, ha, hp, he, hs, rfl, rfl⟩
  · rintro ⟨hname, ha, hp, he, hs, hdescription, hbuiltIn⟩
    obtain ⟨name, attributes, properties, events, slots, description, builtIn⟩ := t
    obtain rfl := hdescription
    obtain rfl := hbuiltIn
    refine ⟨name, hname, attributes, ha, ?_⟩
    cases version with
    | one =>
      obtain ⟨rfl, rfl, rfl⟩ := And.intro hp (And.intro he hs)
      rfl
    | onePointOne =>
      simp only [section_eq_ok_iff]
      exact ⟨properties, hp, events, he, slots, hs, rfl⟩

/-- A collection is what the entries give, with these value sets. -/
@[mk_iff] structure ReadsDocument (version : Version) (sets : ValueSets) (es : Entries)
    (c : Collection) : Prop where
  supported : version? (Value.field es "version") = some version
  valueSets : Reads readValueSet es "valueSets" sets
  tags : Reads (readTag sets version) es "tags" c.tags
  attributes : Reads (readAttribute sets .attribute none) es "globalAttributes" c.attributes
  events : ReadsSince version (readEvent none) es "globalEvents" c.events

theorem parse_eq_ok_iff {c : Collection} :
    parse v = .ok c ↔ ∃ es, v = .map es ∧ ∃ version sets, ReadsDocument version sets es c := by
  simp only [parse, bind_eq_ok (x := readEntries _ _), readEntries_eq_ok_iff]
  refine exists_congr fun es => and_congr_right fun _ => ?_
  constructor
  · intro h
    cases hversion : version? (Value.field es "version") with
    | none => simp [hversion] at h
    | some version =>
      simp only [hversion, section_eq_ok_iff] at h
      obtain ⟨sets, hsets, tags, ht, attributes, ha, h⟩ := h
      refine ⟨version, sets, ?_⟩
      cases version with
      | one =>
        obtain rfl := Except.ok.inj h
        exact ⟨hversion, hsets, ht, ha, rfl⟩
      | onePointOne =>
        simp only [section_eq_ok_iff] at h
        obtain ⟨events, he, h⟩ := h
        obtain rfl := Except.ok.inj h
        exact ⟨hversion, hsets, ht, ha, he⟩
  · rintro ⟨version, sets, hversion, hsets, ht, ha, he⟩
    simp only [hversion, section_eq_ok_iff]
    refine ⟨sets, hsets, c.tags, ht, c.attributes, ha, ?_⟩
    obtain ⟨tags, attributes, events⟩ := c
    cases version with
    | one =>
      obtain rfl := he
      rfl
    | onePointOne =>
      simp only [section_eq_ok_iff]
      exact ⟨events, he, rfl⟩

theorem parse_map_eq_ok_iff {c : Collection} :
    parse (.map es) = .ok c ↔ ∃ version sets, ReadsDocument version sets es c := by
  simp only [parse_eq_ok_iff, Value.map.injEq, exists_eq_left']

end Document
end HtmlCatalog
