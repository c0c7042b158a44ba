import HtmlCatalog.Proofs.Reading
import Mathlib.Data.List.Forall2

/-! What the entries of a document declare. The type of an attribute is that of the first of five
sources that has one: what the entry states, the value set of attributes that take no value, the
values of the entry, those of the value set that it names, and any type at all. An accepted document
gives, entry by entry, members of these names and types. -/
namespace HtmlCatalog
namespace Document

section Entries

def itemsOf (es : Entries) (key : String) : List Value :=
  match Value.field es key with
  | .list items => items
  | _ => []

def entries? : Value → Option Entries
  | .map es => some es
  | _ => none

/-- The maps in the list under a key. -/
def entriesIn (es : Entries) (key : String) : List Entries := (itemsOf es key).filterMap entries?

/-- The same of a section that is looked at in version 1.1 only. -/
def entriesSince (version : Version) (es : Entries) (key : String) : List Entries :=
  match version with
  | .one => []
  | .onePointOne => entriesIn es key

def textOf : Value → String
  | .str s => s
  | _ => ""

def nameOf (es : Entries) : String := textOf (Value.field es "name")

def namesIn (es : Entries) (key : String) : List String := (entriesIn es key).map nameOf

end Entries

section Sources

def typeNamed (name : String) : ValueType :=
  if name = "boolean" then .boolean
  else if name = "number" then .number
  else if name = "string" then .string
  else .any

/-- The type that an entry states by a name, or by texts as alternatives. -/
def stated? (e : Entries) : Option ValueType :=
  match Value.field e "type" with
  | .str name => some (typeNamed name)
  | .list items => some (.ofLiterals (items.map textOf))
  | _ => none

/-- The type of an attribute that takes no value. -/
def void? (e : Entries) : Option ValueType :=
  if Value.field e "valueSet" = .str "v" then some .boolean else none

def alternatives? (values : List String) : Option ValueType :=
  if values = [] then none else some (.ofLiterals values)

def own? (e : Entries) : Option ValueType := alternatives? (namesIn e "values")

def reference? (e : Entries) : Option String :=
  match Value.field e "valueSet" with
  | .str name => some name
  | _ => none

def setsNamed (doc : Entries) (name : String) : List Entries :=
  (entriesIn doc "valueSets").filter (nameOf · == name)

/-- The values of the last value set of a name. -/
def valuesOf (doc : Entries) (name : String) : List String :=
  match (setsNamed doc name).getLast? with
  | some set => namesIn set "values"
  | none => []

def shared? (doc e : Entries) : Option ValueType :=
  (reference? e).bind fun name => alternatives? (valuesOf doc name)

/-- The type of an attribute or a property of a document. -/
def resolvedType (doc e : Entries) : ValueType :=
  ((((stated? e).or (void? e)).or (own? e)).or (shared? doc e)).getD .any

def eventType (e : Entries) : ValueType := (stated? e).getD .any

end Sources

section Declarations

/-- The member has the name that the entry gives and the type that it comes to. -/
structure Declares (type : Entries → ValueType) (e : Entries) (m : Member) : Prop where
  name : m.name = nameOf e
  type : m.type = type e

/-- The members of the tag are declared by the entries, one by each. -/
structure DeclaresTag (version : Version) (doc e : Entries) (t : Tag) : Prop where
  name : t.name = nameOf e
  attributes : List.Forall₂ (Declares (resolvedType doc)) (entriesIn e "attributes") t.attributes
  properties : List.Forall₂ (Declares (resolvedType doc)) (entriesSince version e "properties")
    t.properties
  events : List.Forall₂ (Declares eventType) (entriesSince version e "events") t.events

/-- So are the tags and the global members of the collection. -/
structure DeclaresAll (version : Version) (doc : Entries) (c : Collection) : Prop where
  tags : List.Forall₂ (DeclaresTag version doc) (entriesIn doc "tags") c.tags
  attributes : List.Forall₂ (Declares (resolvedType doc)) (entriesIn doc "globalAttributes")
    c.attributes
  events : List.Forall₂ (Declares eventType) (entriesSince version doc "globalEvents") c.events

end Declarations

variable {α : Type} {es e doc : Entries} {key : String} {sets : ValueSets} {version : Version}
  {role : Role} {kind : MemberKind} {owner : Option String} {v : Value} {m : Member}

section Reading

theorem section?_items {items : List Value} (h : section? es key = .ok items) :
    items = itemsOf es key := by
  unfold itemsOf
  obtain ⟨hfalse, rfl⟩ | ⟨-, hlist⟩ := section?_eq_ok_iff.mp h
  · cases hv : Value.field es key with
    | list items =>
      rw [hv, Value.isTruthy, Bool.not_eq_false', List.isEmpty_iff] at hfalse
      simp only [hfalse]
    | _ => rfl
  · rw [hlist]

theorem Reads.forall₂ {f : Value → Except Fault α} {R : Entries → α → Prop} {xs : List α}
    (h : Reads f es key xs) (hf : ∀ v x, f v = .ok x → ∃ e, v = .map e ∧ R e x) :
    List.Forall₂ R (entriesIn es key) xs := by
  obtain ⟨items, hitems, hxs⟩ := h
  rw [entriesIn, ← section?_items hitems]
  clear hitems
  induction items generalizing xs with
  | nil =>
    obtain rfl := Except.ok.inj hxs
    exact .nil
  | cons v items ih =>
    rw [List.mapM_cons] at hxs
    obtain ⟨x, hx, ys, hys, hcons⟩ := by simpa only [bind_eq_ok] using hxs
    obtain rfl := Except.ok.inj hcons
    obtain ⟨e, rfl, he⟩ := hf v x hx
    exact .cons he (ih hys)

theorem ReadsSince.forall₂ {f : Value → Except Fault α} {R : Entries → α → Prop} {xs : List α}
    (h : ReadsSince version f es key xs)
    (hf : ∀ v x, f v = .ok x → ∃ e, v = .map e ∧ R e x) :
    List.Forall₂ R (entriesSince version es key) xs := by
  cases version with
  | one =>
    obtain rfl : xs = [] := h
    exact .nil
  | onePointOne => exact Reads.forall₂ h hf

theorem Reads.eq_map {f : Value → Except Fault α} {g : Entries → α} {xs : List α}
    (h : Reads f es key xs) (hf : ∀ v x, f v = .ok x → ∃ e, v = .map e ∧ g e = x) :
    xs = (entriesIn es key).map g := by
  have hall := h.forall₂ hf
  rw [← List.forall₂_map_left_iff (R := Eq), List.forall₂_eq_eq_eq] at hall
  exact hall.symm

theorem nameOf_of_nameIn {name : String} (h : nameIn role e = .ok name) : nameOf e = name := by
  unfold nameIn at h
  split at h
  · rename_i s hs
    split_ifs at h
    rw [nameOf, hs]
    exact Except.ok.inj h
  · simp at h

theorem exists_of_readName {name : String} (h : readName role v = .ok name) :
    ∃ e, v = .map e ∧ nameOf e = name := by
  obtain ⟨e, he, hname⟩ := bind_eq_ok.mp h
  exact ⟨e, readEntries_eq_ok_iff.mp he, nameOf_of_nameIn hname⟩

theorem Reads.eq_namesIn {names : List String} (h : Reads (readName role) e key names) :
    names = namesIn e key :=
  h.eq_map fun _ _ => exists_of_readName

theorem exists_of_readValueSet {set : String × List String} (h : readValueSet v = .ok set) :
    ∃ e, v = .map e ∧ (nameOf e, namesIn e "values") = set := by
  obtain ⟨e, he, h⟩ := bind_eq_ok.mp h
  obtain ⟨name, hname, h⟩ := bind_eq_ok.mp h
  obtain ⟨values, hvalues, h⟩ := section_eq_ok_iff.mp h
  obtain rfl := Except.ok.inj h
  refine ⟨e, readEntries_eq_ok_iff.mp he, ?_⟩
  rw [nameOf_of_nameIn hname, hvalues.eq_namesIn]

theorem lookup_eq_valuesOf (h : Reads readValueSet doc "valueSets" sets) :
    sets.lookup = valuesOf doc := by
  funext name
  have hsets := h.eq_map fun _ _ => exists_of_readValueSet
  have hnamed : sets.reverse.find? (·.1 == name) =
      (setsNamed doc name).getLast?.map fun e => (nameOf e, namesIn e "values") := by
    rw [hsets, ← List.getLast?_filter, List.filter_map, List.getLast?_map]
    rfl
  rw [ValueSets.lookup, hnamed, valuesOf]
  cases (setsNamed doc name).getLast? <;> rfl

theorem texts?_eq_some {items : List Value} {values : List String}
    (h : texts? items = some values) : items.map textOf = values := by
  induction items generalizing values with
  | nil => exact Option.some.inj h
  | cons v items ih =>
    cases v with
    | scalar s =>
      cases s with
      | str s =>
        obtain ⟨rest, hrest, rfl⟩ := Option.map_eq_some_iff.mp h
        rw [List.map_cons, ih hrest, textOf]
      | _ => simp [texts?] at h
    | _ => simp [texts?] at h

theorem type_ofName (name : String) : (Hint.ofName name).type = typeNamed name := by
  unfold Hint.ofName typeNamed
  split_ifs <;> rfl

theorem stated?_of_statedType {type : Option ValueType} (h : statedType e = .ok type) :
    stated? e = type := by
  unfold statedType at h
  unfold stated?
  cases hv : Value.field e "type" with
  | scalar s =>
    cases s with
    | str name => simpa [hv, type_ofName] using h
    | _ => simp_all
  | list items =>
    cases htexts : texts? items with
    | none => simp [hv, htexts] at h
    | some values => simpa [hv, htexts, texts?_eq_some htexts] using h
  | _ => simp [hv] at h

theorem reference?_of_valueSetName {set : Option String} (h : valueSetName e = .ok set) :
    reference? e = set := by
  unfold valueSetName at h
  unfold reference?
  cases hv : Value.field e "valueSet" with
  | scalar s => cases s <;> simp_all
  | _ => simp [hv] at h

theorem ofValues_eq (values : List String) :
    ofValues values = (alternatives? values).getD .any := by
  unfold ofValues alternatives?
  split_ifs <;> rfl

theorem resolvedType_of_attributeType {type : ValueType}
    (hsets : Reads readValueSet doc "valueSets" sets) (h : attributeType sets e = .ok type) :
    resolvedType doc e = type := by
  simp only [attributeType, bind_eq_ok (x := statedType e)] at h
  obtain ⟨stated, hstated, h⟩ := h
  rw [resolvedType, stated?_of_statedType hstated]
  cases stated with
  | some t => exact Except.ok.inj h
  | none =>
    obtain ⟨set, hset, h⟩ := bind_eq_ok.mp h
    have hvoid := eq_void_iff hset
    split_ifs at h with hv
    · obtain rfl := Except.ok.inj h
      rw [void?, if_pos (hvoid.mp hv)]
      rfl
    · obtain ⟨own, hown, h⟩ := section_eq_ok_iff.mp h
      obtain rfl := Except.ok.inj h
      rw [void?, if_neg (mt hvoid.mpr hv), lookup_eq_valuesOf hsets, hown.eq_namesIn, own?,
        shared?, ← reference?_of_valueSetName hset, ofValues_eq]
      by_cases hnames : namesIn e "values" = []
      · cases reference? e <;> simp [hnames, alternatives?]
      · simp [hnames, alternatives?]

theorem exists_of_readAttribute (hsets : Reads readValueSet doc "valueSets" sets)
    (h : readAttribute sets kind owner v = .ok m) :
    ∃ e, v = .map e ∧ Declares (resolvedType doc) e m := by
  obtain ⟨e, name, type, rfl, hname, htype, rfl⟩ := readAttribute_eq_ok_iff.mp h
  exact ⟨e, rfl, (nameOf_of_nameIn hname).symm, (resolvedType_of_attributeType hsets htype).symm⟩

theorem exists_of_readEvent (h : readEvent owner v = .ok m) :
    ∃ e, v = .map e ∧ Declares eventType e m := by
  obtain ⟨e, name, type, rfl, hname, htype, rfl⟩ := readEvent_eq_ok_iff.mp h
  refine ⟨e, rfl, (nameOf_of_nameIn hname).symm, ?_⟩
  rw [eventType, stated?_of_statedType htype]

theorem exists_of_readTag {t : Tag} (hsets : Reads readValueSet doc "valueSets" sets)
    (h : readTag sets version v = .ok t) : ∃ e, v = .map e ∧ DeclaresTag version doc e t := by
  obtain ⟨e, hv, he⟩ := readTag_eq_ok_iff.mp h
  refine ⟨e, hv, (nameOf_of_nameIn he.name).symm, ?_, ?_, ?_⟩
  · exact he.attributes.forall₂ fun _ _ => exists_of_readAttribute hsets
  · exact he.properties.forall₂ fun _ _ => exists_of_readAttribute hsets
  · exact he.events.forall₂ fun _ _ => exists_of_readEvent

/-- An accepted document gives what its entries declare. -/
theorem declaresAll_of_readsDocument {c : Collection} (h : ReadsDocument version sets doc c) :
    DeclaresAll version doc c where
  tags := h.tags.forall₂ fun _ _ => exists_of_readTag h.valueSets
  attributes := h.attributes.forall₂ fun _ _ => exists_of_readAttribute h.valueSets
  events := h.events.forall₂ fun _ _ => exists_of_readEvent

end Reading

end Document
end HtmlCatalog
