import HtmlCatalog.Proofs.TypeTexts
import HtmlCatalog.Proofs.Entries
import HtmlCatalog.Proofs.Sections

/-! The forms of the types that documents give: a basic one, one text, or a choice of several. The
alternatives that an entry states as its type may be none at all, and only these: where they come
from values, none are no alternatives. A member of such a type has a row without a type text in the
summary, as otherwise only tags have. -/
namespace HtmlCatalog

/-- A basic type, one text, or a choice of at least two. -/
inductive ValueType.Proper : ValueType → Prop
  | any : Proper .any
  | string : Proper .string
  | number : Proper .number
  | boolean : Proper .boolean
  | literal (s : String) : Proper (.literal s)
  | choice (r s : String) (ss : List String) : Proper (.union ((r :: s :: ss).map .literal))

namespace ValueType

variable {t : ValueType}

theorem proper_ofLiterals {values : List String} (h : values ≠ []) :
    (ofLiterals values).Proper := by
  rcases values with _ | ⟨r, _ | ⟨s, ss⟩⟩
  · exact absurd rfl h
  · exact .literal r
  · exact .choice r s ss

theorem not_proper_union_nil : ¬ Proper (.union []) := by
  intro h
  cases h

theorem Proper.declarable (h : t.Proper) : Declarable t := by
  cases h with
  | any => exact .any
  | string => exact .string
  | number => exact .number
  | boolean => exact .boolean
  | literal s => exact .ofLiterals [s]
  | choice r s ss => exact .ofLiterals (r :: s :: ss)

/-- The choice of nothing is the only type that can be declared and has no text. -/
theorem Proper.text_ne_empty (h : t.Proper) : t.text ≠ "" := by
  intro htext
  obtain rfl : .union [] = t :=
    (Declarable.ofLiterals []).eq_of_text_eq h.declarable rfl htext.symm
  exact not_proper_union_nil h

end ValueType

def Collection.allMembers (c : Collection) : List Member :=
  (c.tags.flatMap fun t => t.attributes ++ t.properties ++ t.events) ++ (c.attributes ++ c.events)

/-- Only rows of tags have no type text if no member has an empty one. -/
theorem Summary.type_eq_empty_iff {c : Collection} :
    (∀ r ∈ rows c, r.type = "" → r.key.kind = .tag) ↔ ∀ m ∈ c.allMembers, m.type.text ≠ "" := by
  have hrows : (Conflict.memberRows c).map (·.type) = c.allMembers.map (·.type.text) := by
    simp [Conflict.memberRows_eq, Collection.allMembers, List.map_flatMap, memberRow,
      Function.comp_def]
  calc (∀ r ∈ rows c, r.type = "" → r.key.kind = .tag)
    _ ↔ ∀ r ∈ Conflict.memberRows c, r.type ≠ "" := by
      simp only [Conflict.memberRows, List.mem_filter, bne_iff_ne, and_imp, ne_eq]
      exact forall₂_congr fun r _ => not_imp_not.symm
    _ ↔ ∀ text ∈ (Conflict.memberRows c).map (·.type), text ≠ "" := by rw [List.forall_mem_map]
    _ ↔ ∀ m ∈ c.allMembers, m.type.text ≠ "" := by rw [hrows, List.forall_mem_map]

namespace Document

open ValueType

/-- The entry states alternatives as its type, but none. -/
def OffersNone (e : Entries) : Prop := Value.field e "type" = .list []

instance (e : Entries) : Decidable (OffersNone e) :=
  inferInstanceAs (Decidable (Value.field e "type" = .list []))

/-- The entries of all members of a document, in the order of the members. -/
def memberEntries (version : Version) (doc : Entries) : List Entries :=
  ((entriesIn doc "tags").flatMap fun t =>
    entriesIn t "attributes" ++ entriesSince version t "properties" ++
      entriesSince version t "events") ++
    (entriesIn doc "globalAttributes" ++ entriesSince version doc "globalEvents")

/-- The type of the member has a proper form, unless its entry offers none. -/
structure GivesForm (e : Entries) (m : Member) : Prop where
  name : m.name = nameOf e
  proper : ¬ OffersNone e → m.type.Proper
  empty : OffersNone e → m.type = .union []

variable {version : Version} {doc e : Entries} {v : Value} {c : Collection} {m : Member}

section Options

variable {α : Type} {P : α → Prop} {first second : Option α}

theorem forall_mem_or (h : ∀ a ∈ first, P a) (h' : ∀ a ∈ second, P a) :
    ∀ a ∈ first.or second, P a := by
  cases first with
  | none => exact h'
  | some a => exact h

theorem getD_of_forall_mem {d : α} (h : ∀ a ∈ first, P a) (hd : P d) : P (first.getD d) := by
  cases first with
  | none => exact hd
  | some a => exact h a rfl

end Options

theorem proper_typeNamed (name : String) : (typeNamed name).Proper := by
  unfold typeNamed
  split_ifs
  · exact .boolean
  · exact .number
  · exact .string
  · exact .any

theorem proper_stated? (h : ¬ OffersNone e) : ∀ t ∈ stated? e, t.Proper := by
  intro t ht
  unfold stated? at ht
  split at ht
  · obtain rfl := Option.some.inj ht
    exact proper_typeNamed _
  · rename_i items hitems
    obtain rfl := Option.some.inj ht
    refine proper_ofLiterals fun hnone => h ?_
    rw [OffersNone, hitems, List.map_eq_nil_iff.mp hnone]
  · simp at ht

theorem proper_void? : ∀ t ∈ void? e, t.Proper := by
  intro t ht
  unfold void? at ht
  split_ifs at ht
  · obtain rfl := Option.some.inj ht
    exact .boolean
  · simp at ht

theorem proper_alternatives? {values : List String} : ∀ t ∈ alternatives? values, t.Proper := by
  intro t ht
  unfold alternatives? at ht
  split_ifs at ht with hvalues
  · simp at ht
  · obtain rfl := Option.some.inj ht
    exact proper_ofLiterals hvalues

theorem proper_shared? : ∀ t ∈ shared? doc e, t.Proper := by
  intro t ht
  obtain ⟨name, -, ht⟩ := Option.bind_eq_some_iff.mp ht
  exact proper_alternatives? t ht

/-- Of the sources of a type only the stated one can come to nothing. -/
theorem proper_resolvedType (h : ¬ OffersNone e) : (resolvedType doc e).Proper := by
  have hvoid : ∀ t ∈ (stated? e).or (void? e), t.Proper :=
    forall_mem_or (proper_stated? h) proper_void?
  have hown : ∀ t ∈ ((stated? e).or (void? e)).or (own? e), t.Proper :=
    forall_mem_or hvoid proper_alternatives?
  exact getD_of_forall_mem (forall_mem_or hown proper_shared?) .any

theorem proper_eventType (h : ¬ OffersNone e) : (eventType e).Proper :=
  getD_of_forall_mem (proper_stated? h) .any

theorem stated?_of_offersNone (h : OffersNone e) : stated? e = some (.union []) := by
  rw [stated?, h]
  rfl

theorem resolvedType_of_offersNone (h : OffersNone e) : resolvedType doc e = .union [] := by
  rw [resolvedType, stated?_of_offersNone h]
  rfl

theorem eventType_of_offersNone (h : OffersNone e) : eventType e = .union [] := by
  rw [eventType, stated?_of_offersNone h]
  rfl

theorem Declares.givesForm {type : Entries → ValueType} (h : Declares type e m)
    (hproper : ¬ OffersNone e → (type e).Proper) (hempty : OffersNone e → type e = .union []) :
    GivesForm e m where
  name := h.name
  proper hsome := by
    rw [h.type]
    exact hproper hsome
  empty hnone := by
    rw [h.type]
    exact hempty hnone

theorem givesForm_of_resolvedType (h : Declares (resolvedType doc) e m) : GivesForm e m :=
  h.givesForm proper_resolvedType resolvedType_of_offersNone

theorem givesForm_of_eventType (h : Declares eventType e m) : GivesForm e m :=
  h.givesForm proper_eventType eventType_of_offersNone

theorem DeclaresTag.givesForm {t : Tag} (h : DeclaresTag version doc e t) :
    List.Forall₂ GivesForm
      (entriesIn e "attributes" ++ entriesSince version e "properties" ++
        entriesSince version e "events") (t.attributes ++ t.properties ++ t.events) := by
  have hattributes := h.attributes.imp fun _ _ => givesForm_of_resolvedType
  have hproperties := h.properties.imp fun _ _ => givesForm_of_resolvedType
  have hevents := h.events.imp fun _ _ => givesForm_of_eventType
  exact List.rel_append (List.rel_append hattributes hproperties) hevents

theorem DeclaresAll.givesForm (h : DeclaresAll version doc c) :
    List.Forall₂ GivesForm (memberEntries version doc) c.allMembers := by
  have htags := List.rel_flatMap h.tags fun _ _ ht => ht.givesForm
  have hattributes := h.attributes.imp fun _ _ => givesForm_of_resolvedType
  have hevents := h.events.imp fun _ _ => givesForm_of_eventType
  exact List.rel_append htags (List.rel_append hattributes hevents)

theorem forall_mem_iff_of_forall₂ {α β : Type} {R : α → β → Prop} {P : α → Prop} {Q : β → Prop}
    {as : List α} {bs : List β} (h : List.Forall₂ R as bs) (hPQ : ∀ a b, R a b → (P a ↔ Q b)) :
    (∀ a ∈ as, P a) ↔ ∀ b ∈ bs, Q b := by
  induction h with
  | nil => simp
  | cons hab _ ih => rw [List.forall_mem_cons, List.forall_mem_cons, hPQ _ _ hab, ih]

theorem GivesForm.proper_iff (h : GivesForm e m) : ¬ OffersNone e ↔ m.type.Proper := by
  refine ⟨h.proper, fun hproper hnone => not_proper_union_nil ?_⟩
  rwa [← h.empty hnone]

theorem GivesForm.text_ne_empty_iff (h : GivesForm e m) :
    ¬ OffersNone e ↔ m.type.text ≠ "" := by
  constructor
  · exact fun hsome => (h.proper hsome).text_ne_empty
  · intro htext hnone
    rw [h.empty hnone] at htext
    exact htext rfl

/-- Every member of an accepted document has a type of a proper form, unless its entry states
alternatives and offers none; then it is the choice of nothing. So all types are proper exactly if
no entry offers none, and exactly then only tags have rows without a type text in the summary. -/
theorem parse_types_proper (h : parse v = .ok c) :
    ∃ version doc, v = .map doc ∧ IsVersion version (Value.field doc "version") ∧
      List.Forall₂ GivesForm (memberEntries version doc) c.allMembers ∧
      ((∀ m ∈ c.allMembers, m.type.Proper) ↔ ∀ e ∈ memberEntries version doc, ¬ OffersNone e) ∧
      ((∀ r ∈ Summary.rows c, r.type = "" → r.key.kind = .tag) ↔
        ∀ e ∈ memberEntries version doc, ¬ OffersNone e) := by
  obtain ⟨doc, rfl, version, sets, hdoc⟩ := parse_eq_ok_iff.mp h
  have hforms := (declaresAll_of_readsDocument hdoc).givesForm
  refine ⟨version, doc, rfl, version?_eq_some_iff.mp hdoc.supported, hforms, ?_, ?_⟩
  · exact (forall_mem_iff_of_forall₂ hforms fun _ _ => GivesForm.proper_iff).symm
  · rw [Summary.type_eq_empty_iff]
    exact (forall_mem_iff_of_forall₂ hforms fun _ _ => GivesForm.text_ne_empty_iff).symm

/-- A document that states one type for members of every kind, of a tag and global. -/
def hinted (hint : Value) : Entries :=
  let entry := Value.list [.map (attributeEntries hint)]
  [(.str "version", .real onePointOne),
    (.str "tags", .list [.map [(.str "name", .str "x-box"), (.str "attributes", entry),
      (.str "properties", entry), (.str "events", entry)]]),
    (.str "globalAttributes", entry), (.str "globalEvents", entry)]

def hintedCollection (type : ValueType) : Collection where
  tags := [{
    name := "x-box"
    attributes := [{ name := "x", type, fromTag := some "x-box" }]
    properties := [{ name := "x", type, kind := .property, fromTag := some "x-box" }]
    events := [{ name := "x", type, kind := .event, fromTag := some "x-box" }] }]
  attributes := [{ name := "x", type }]
  events := [{ name := "x", type, kind := .event }]

theorem parse_types_proper_hinted :
    parse (.map (hinted (.list [.str "dark", .str "light"]))) =
        .ok (hintedCollection (ofLiterals ["dark", "light"])) ∧
      (∀ m ∈ (hintedCollection (ofLiterals ["dark", "light"])).allMembers, m.type.Proper) ∧
      ∀ r ∈ Summary.rows (hintedCollection (ofLiterals ["dark", "light"])),
        r.type = "" → r.key.kind = .tag := by
  have hparse : parse (.map (hinted (.list [.str "dark", .str "light"]))) =
      .ok (hintedCollection (ofLiterals ["dark", "light"])) := rfl
  obtain ⟨version, doc, hdoc, hversion, -, hproper, hrows⟩ := parse_types_proper hparse
  obtain rfl := Value.map.inj hdoc
  obtain rfl := isVersion_unique hversion isVersion_onePointOne
  have hsome : ∀ e ∈ memberEntries .onePointOne (hinted (.list [.str "dark", .str "light"])),
      ¬ OffersNone e := by decide
  exact ⟨hparse, hproper.mpr hsome, hrows.mpr hsome⟩

/-- With the empty list as their type, all members have the choice of nothing as theirs. -/
theorem not_parse_types_proper :
    parse (.map (hinted (.list []))) = .ok (hintedCollection (.union [])) ∧
      (∀ m ∈ (hintedCollection (.union [])).allMembers, ¬ m.type.Proper) ∧
      ¬ ∀ r ∈ Summary.rows (hintedCollection (.union [])), r.type = "" → r.key.kind = .tag := by
  refine ⟨rfl, ?_, by decide⟩
  have htypes : ∀ m ∈ (hintedCollection (.union [])).allMembers, m.type = .union [] := by decide
  intro m hm
  rw [htypes m hm]
  exact not_proper_union_nil

end Document
end HtmlCatalog
