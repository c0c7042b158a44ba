import HtmlCatalog.Builtin
import HtmlCatalog.Proofs.Patches

/-! The baseline has no fault: it belongs to the grammar of documents, and every patch applies to
what is read from it. So the built-in collection is really made of the baseline, for any resolver
and any patches. -/
namespace HtmlCatalog

namespace Baseline

open Document

theorem listOf_list {P : Value → Prop} {items : List Value} (h : ∀ v ∈ items, P v) :
    ListOf P (.list items) := .inr ⟨items, rfl, h⟩

theorem listOf_null {P : Value → Prop} : ListOf P .null := .inl rfl

theorem mapOf_isAttribute {a : AttributeEntry} (h : a.name ≠ "") : MapOf IsAttribute a.value := by
  refine ⟨_, rfl, ⟨a.name, h, by simp [textPair, Value.field_cons]⟩, .inr ⟨?_, ?_, .inr ?_⟩⟩
  · cases a.valueSet <;> cases a.description <;> simp [textPair, Value.field_cons]
  · cases a.valueSet <;> cases a.description <;> simp [textPair, Value.field_cons, IsText]
  · cases a.valueSet <;> cases a.description <;>
      simp [textPair, Value.field_cons, listOf_null]

theorem mapOf_isTag {t : TagEntry} {version : Version} (h : t.name ≠ "")
    (ha : ∀ a ∈ t.attributes, a.name ≠ "") : MapOf (IsTag version) t.value := by
  refine ⟨_, rfl, ⟨t.name, h, rfl⟩, listOf_list ?_, ?_, ?_, ?_⟩
  · intro v hv
    obtain ⟨a, ham, rfl⟩ := List.mem_map.mp hv
    exact mapOf_isAttribute (ha a ham)
  all_goals exact fun _ => listOf_null

theorem mapOf_isValueSet {s : ValueSetEntry} (h : s.name ≠ "") (hv : ∀ v ∈ s.values, v ≠ "") :
    MapOf IsValueSet s.value := by
  refine ⟨_, rfl, ⟨s.name, h, rfl⟩, listOf_list ?_⟩
  intro w hw
  obtain ⟨v, hvm, rfl⟩ := List.mem_map.mp hw
  exact ⟨_, rfl, v, hv v hvm, rfl⟩

theorem names_tags : ∀ t ∈ tags, t.name ≠ "" ∧ ∀ a ∈ t.attributes, a.name ≠ "" := by
  decide +kernel

theorem names_attributes :
    ∀ a ∈ globalAttributes ++ handlers ++ accessibilityAttributes, a.name ≠ "" := by
  decide +kernel

theorem names_valueSets : ∀ s ∈ valueSets, s.name ≠ "" ∧ ∀ v ∈ s.values, v ≠ "" := by
  decide +kernel

theorem isDocument : MapOf (IsDocument .onePointOne) document := by
  refine ⟨_, rfl, ⟨_, rfl, value?_onePointOne⟩, listOf_list ?_, listOf_list ?_, listOf_list ?_,
    fun _ => listOf_null⟩
  · intro v hv
    obtain ⟨s, hs, rfl⟩ := List.mem_map.mp hv
    exact mapOf_isValueSet (names_valueSets s hs).1 (names_valueSets s hs).2
  · intro v hv
    obtain ⟨t, ht, rfl⟩ := List.mem_map.mp hv
    exact mapOf_isTag (names_tags t ht).1 (names_tags t ht).2
  · intro v hv
    rw [attributeValues, handlerValues, ← List.map_append, ← List.map_append] at hv
    obtain ⟨a, ha, rfl⟩ := List.mem_map.mp hv
    exact mapOf_isAttribute (names_attributes a ha)

theorem isHandler_handlerValues : ∀ v ∈ handlerValues, Patch.IsHandler v := by
  intro v hv
  obtain ⟨a, -, rfl⟩ := List.mem_map.mp hv
  exact ⟨_, rfl, a.name, by simp [textPair, Value.field_cons]⟩

end Baseline

namespace Builtin

/-- The collection made of a document that is accepted is what is read from it, patched, marked and
merged. -/
theorem exists_ofDocument_eq {document : Value} {handlers : List Value}
    (hdocument : Succeeds (Document.parse document)) (hnamed : ∀ v ∈ handlers, Patch.IsHandler v)
    (r : Resolver) (ps : List Patch) :
    ∃ c d, Document.parse document = .ok c ∧ Patch.applyAll handlers ps c = .ok d ∧
      ofDocument document handlers r ps = .ok (Collection.merge [mark r d]) := by
  obtain ⟨c, hc⟩ := hdocument
  obtain ⟨events, h⟩ := Patch.exists_applyAll_eq_extend hnamed
  refine ⟨c, _, hc, h ps c, ?_⟩
  simp only [ofDocument, hc, h]

theorem succeeds_parse_baseline : Succeeds (Document.parse Baseline.document) := by
  obtain ⟨es, hes, h⟩ := Baseline.isDocument
  exact Document.parse_complete ⟨es, hes, _, h⟩

/-- The built-in collection is what is read from the baseline, patched, marked and merged. -/
theorem exists_collection_eq (r : Resolver) (ps : List Patch) :
    ∃ c d, Document.parse Baseline.document = .ok c ∧
      Patch.applyAll Baseline.handlerValues ps c = .ok d ∧
      collection r ps = Collection.merge [mark r d] := by
  obtain ⟨c, d, hc, hd, h⟩ :=
    exists_ofDocument_eq succeeds_parse_baseline Baseline.isHandler_handlerValues r ps
  refine ⟨c, d, hc, hd, ?_⟩
  rw [collection, h]
  rfl

end Builtin
end HtmlCatalog
