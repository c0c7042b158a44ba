import HtmlCatalog.Proofs.MergeAlgebra
import HtmlCatalog.Proofs.Reading

/-! Documents compared section by section. Version 1 reads the same as version 1.1, less the
sections that belong to version 1.1, and so accepts whatever version 1.1 accepts. Two documents of
one version that share their value sets read as one whose lists are the lists of both: every item
is read for itself, whatever stands next to it. -/
namespace HtmlCatalog

/-- The tag without what belongs to version 1.1. -/
def Tag.attributesOnly (t : Tag) : Tag := { t with properties := [], events := [], slots := [] }

def Collection.attributesOnly (c : Collection) : Collection :=
  { c with tags := c.tags.map Tag.attributesOnly, events := [] }

namespace Document

variable {α β : Type} {f : Value → Except Fault α} {g : Value → Except Fault β}
  {es fs gs : Entries} {key : String} {xs ys : List α} {sets : ValueSets} {version : Version}
  {v : Value} {t : Tag}

theorem Reads.map {k : α → β} (h : Reads f es key xs)
    (hstep : ∀ items, section? es key = .ok items →
      ∀ v ∈ items, ∀ x, f v = .ok x → g v = .ok (k x)) : Reads g es key (xs.map k) := by
  obtain ⟨items, hitems, hxs⟩ := h
  exact ⟨items, hitems, mapM_eq_ok_map (hstep items hitems) hxs⟩

theorem Reads.unique (hx : Reads f es key xs) (hy : Reads f es key ys) : xs = ys := by
  obtain ⟨items, hitems, hxs⟩ := hx
  obtain ⟨_, hsame, hys⟩ := hy
  obtain rfl := Except.ok.inj (hitems.symm.trans hsame)
  exact Except.ok.inj (hxs.symm.trans hys)

theorem reads_nil (h : (Value.field es key).isTruthy = false) : Reads f es key [] :=
  ⟨[], section?_eq_ok_iff.mpr (.inl ⟨h, rfl⟩), rfl⟩

theorem reads_congr (h : Value.field es key = Value.field fs key) :
    Reads f es key xs ↔ Reads f fs key xs := by
  rw [Reads, Reads, section?, section?, h]

theorem readsSince_congr (h : Value.field es key = Value.field fs key) :
    ReadsSince version f es key xs ↔ ReadsSince version f fs key xs := by
  cases version with
  | one => exact Iff.rfl
  | onePointOne => exact reads_congr h

section Versions

def withVersion (v : Value) (es : Entries) : Entries := Value.insert (.str "version") v es

theorem field_withVersion_self : Value.field (withVersion v es) "version" = v := by
  simp [withVersion, Value.field_insert]

theorem field_withVersion_of_ne (h : "version" ≠ key) :
    Value.field (withVersion v es) key = Value.field es key := by
  simp [withVersion, Value.field_insert, h]

theorem reads_withVersion_iff (h : "version" ≠ key) :
    Reads f (withVersion v es) key xs ↔ Reads f es key xs :=
  reads_congr (field_withVersion_of_ne h)

theorem readsSince_withVersion_iff (h : "version" ≠ key) :
    ReadsSince version f (withVersion v es) key xs ↔ ReadsSince version f es key xs :=
  readsSince_congr (field_withVersion_of_ne h)

theorem readsDocument_withVersion_iff {c : Collection} :
    ReadsDocument version sets (withVersion v es) c ↔
      IsVersion version v ∧ Reads readValueSet es "valueSets" sets ∧
        Reads (readTag sets version) es "tags" c.tags ∧
        Reads (readAttribute sets .attribute none) es "globalAttributes" c.attributes ∧
        ReadsSince version (readEvent none) es "globalEvents" c.events := by
  rw [readsDocument_iff, field_withVersion_self, version?_eq_some_iff,
    reads_withVersion_iff (by decide), reads_withVersion_iff (by decide),
    reads_withVersion_iff (by decide), readsSince_withVersion_iff (by decide)]

/-- Nothing is given where version 1 does not look. -/
structure IsBasic (es : Entries) : Prop where
  events : (Value.field es "globalEvents").isTruthy = false
  tags : ∀ items, Value.field es "tags" = .list items → ∀ t, .map t ∈ items →
    ∀ key ∈ ["properties", "events", "slots"], (Value.field t key).isTruthy = false

theorem readTag_one (h : readTag sets .onePointOne v = .ok t) :
    readTag sets .one v = .ok t.attributesOnly := by
  obtain ⟨es, hv, hes⟩ := readTag_eq_ok_iff.mp h
  exact readTag_eq_ok_iff.mpr ⟨es, hv, hes.name, hes.attributes, rfl, rfl, rfl, hes.description,
    hes.builtIn⟩

theorem readTag_onePointOne
    (hbasic : ∀ es, v = .map es →
      ∀ key ∈ ["properties", "events", "slots"], (Value.field es key).isTruthy = false)
    (h : readTag sets .one v = .ok t) : readTag sets .onePointOne v = .ok t := by
  obtain ⟨es, hv, hname, ha, hp, he, hs, hdescription, hbuiltIn⟩ := readTag_eq_ok_iff.mp h
  have hnone := hbasic es hv
  simp only [List.forall_mem_cons] at hnone
  obtain ⟨hproperties, hevents, hslots, -⟩ := hnone
  refine readTag_eq_ok_iff.mpr ⟨es, hv, hname, ha, ?_, ?_, ?_, hdescription, hbuiltIn⟩
  · exact hp ▸ reads_nil hproperties
  · exact he ▸ reads_nil hevents
  · exact hs ▸ reads_nil hslots

theorem reads_tags_onePointOne {tags : List Tag} (hbasic : IsBasic es)
    (h : Reads (readTag sets .one) es "tags" tags) :
    Reads (readTag sets .onePointOne) es "tags" tags := by
  have hmap : Reads (readTag sets .onePointOne) es "tags" (tags.map id) := by
    refine h.map fun items hitems v hv t => readTag_onePointOne ?_
    rintro fields rfl
    obtain ⟨-, rfl⟩ | ⟨-, hlist⟩ := section?_eq_ok_iff.mp hitems
    · simp at hv
    · exact hbasic.tags items hlist fields hv
  rwa [List.map_id] at hmap

theorem isVersion_unique {w : Version} (h : IsVersion version v) (hw : IsVersion w v) :
    version = w := by
  rw [← version?_eq_some_iff] at h hw
  exact Option.some.inj (h.symm.trans hw)

/-- A document that is accepted in version 1.1 is accepted in version 1, which gives the same less
what belongs to version 1.1. If there is nothing of that in a document, the versions give the
same. -/
theorem parse_withVersion (es : Entries) {one later : Value} (hone : IsVersion .one one)
    (hlater : IsVersion .onePointOne later) :
    (∀ c, parse (.map (withVersion later es)) = .ok c →
      parse (.map (withVersion one es)) = .ok c.attributesOnly) ∧
      (IsBasic es → ∀ c, parse (.map (withVersion one es)) = .ok c →
        parse (.map (withVersion later es)) = .ok c) := by
  simp only [parse_map_eq_ok_iff, readsDocument_withVersion_iff]
  constructor
  · rintro c ⟨version, sets, hversion, hsets, ht, ha, -⟩
    obtain rfl := isVersion_unique hversion hlater
    exact ⟨.one, sets, hone, hsets, ht.map fun _ _ _ _ _ => readTag_one, ha, rfl⟩
  · rintro hbasic c ⟨version, sets, hversion, hsets, ht, ha, he⟩
    obtain rfl := isVersion_unique hversion hone
    have hnone : c.events = [] := he
    refine ⟨.onePointOne, sets, hlater, hsets, reads_tags_onePointOne hbasic ht, ha, ?_⟩
    exact hnone ▸ reads_nil hbasic.events

/-- A tag with something in every section, and a global event. -/
def buttonEntries : Entries :=
  [(.str "tags", .list [.map [(.str "name", .str "x-button"),
      (.str "attributes", .list [.map [(.str "name", .str "label")]]),
      (.str "properties", .list [.map [(.str "name", .str "pressed")]]),
      (.str "events", .list [.map [(.str "name", .str "press")]]),
      (.str "slots", .list [.map [(.str "name", .str "icon")]])]]),
    (.str "globalEvents", .list [.map [(.str "name", .str "press")]])]

/-- A tag that says nothing about the sections of version 1.1, and one that gives nothing there. -/
def labelEntries : Entries :=
  [(.str "tags", .list [.map [(.str "name", .str "x-label")],
    .map [(.str "name", .str "x-text"), (.str "properties", .list []), (.str "events", .int 0)]])]

theorem isVersion_one : IsVersion .one (.int 1) :=
  ⟨.int 1, rfl, by simp [Scalar.number?, Version.number]⟩

theorem isVersion_onePointOne : IsVersion .onePointOne (.real onePointOne) :=
  ⟨.real onePointOne, rfl, value?_onePointOne⟩

theorem isBasic_labelEntries : IsBasic labelEntries where
  events := rfl
  tags items h t ht := by
    obtain rfl := Value.list.inj h
    simp only [List.mem_cons, Value.map.injEq, List.not_mem_nil, or_false] at ht
    obtain rfl | rfl := ht <;> simp [Value.field_cons, Value.isTruthy, Scalar.isTruthy]

theorem parse_withVersion_entries :
    IsVersion .one (.int 1) ∧ IsVersion .onePointOne (.real onePointOne) ∧
      (∃ c, parse (.map (withVersion (.real onePointOne) buttonEntries)) = .ok c ∧
        parse (.map (withVersion (.int 1) buttonEntries)) = .ok c.attributesOnly) ∧
      IsBasic labelEntries ∧
      ∃ c, parse (.map (withVersion (.int 1) labelEntries)) = .ok c ∧
        parse (.map (withVersion (.real onePointOne) labelEntries)) = .ok c :=
  ⟨isVersion_one, isVersion_onePointOne,
    ⟨_, rfl, (parse_withVersion _ isVersion_one isVersion_onePointOne).1 _ rfl⟩,
    isBasic_labelEntries,
    ⟨_, rfl, (parse_withVersion _ isVersion_one isVersion_onePointOne).2
      isBasic_labelEntries _ rfl⟩⟩

end Versions

section Concatenation

/-- The list that stands under a key, which is empty if there is none. -/
def Lists (es : Entries) (key : String) (items : List Value) : Prop :=
  Value.field es key = .list items ∨ Value.field es key = .null ∧ items = []

/-- `gs` is of the version of `es` and `fs`, has their value sets, and otherwise the lists of
both. -/
structure Concatenates (es fs gs : Entries) : Prop where
  version : version? (Value.field es "version") = version? (Value.field gs "version") ∧
    version? (Value.field fs "version") = version? (Value.field gs "version")
  valueSets : Value.field es "valueSets" = Value.field gs "valueSets" ∧
    Value.field fs "valueSets" = Value.field gs "valueSets"
  sections : ∀ key ∈ ["tags", "globalAttributes", "globalEvents"], ∃ items others,
    Lists es key items ∧ Lists fs key others ∧ Lists gs key (items ++ others)

theorem section?_of_lists {items : List Value} (h : Lists es key items) :
    (section? es key = .ok items) := by
  obtain h | ⟨h, rfl⟩ := h
  · cases items with
    | nil => exact section?_eq_ok_iff.mpr (.inl ⟨by rw [h]; rfl, rfl⟩)
    | cons v vs => exact section?_eq_ok_iff.mpr (.inr ⟨by rw [h]; rfl, h⟩)
  · exact section?_eq_ok_iff.mpr (.inl ⟨by rw [h]; rfl, rfl⟩)

theorem reads_iff_of_lists {items : List Value} (h : Lists es key items) :
    Reads f es key xs ↔ items.mapM f = .ok xs := by
  simp only [Reads, section?_of_lists h, Except.ok.injEq, exists_eq_left']

theorem Concatenates.reads_iff (h : Concatenates es fs gs)
    (hkey : key ∈ ["tags", "globalAttributes", "globalEvents"]) :
    Reads f gs key xs ↔ ∃ as bs, Reads f es key as ∧ Reads f fs key bs ∧ xs = as ++ bs := by
  obtain ⟨items, others, hes, hfs, hgs⟩ := h.sections key hkey
  simp only [reads_iff_of_lists hes, reads_iff_of_lists hfs, reads_iff_of_lists hgs,
    mapM_append_eq_ok_iff]

theorem Concatenates.readsSince_iff (h : Concatenates es fs gs)
    (hkey : key ∈ ["tags", "globalAttributes", "globalEvents"]) :
    ReadsSince version f gs key xs ↔
      ∃ as bs, ReadsSince version f es key as ∧ ReadsSince version f fs key bs ∧
        xs = as ++ bs := by
  cases version with
  | one => simp [ReadsSince]
  | onePointOne => exact h.reads_iff hkey

theorem Concatenates.parse_eq_ok_iff (h : Concatenates es fs gs) {c : Collection} :
    parse (.map gs) = .ok c ↔
      ∃ a b, parse (.map es) = .ok a ∧ parse (.map fs) = .ok b ∧
        c = Collection.combine [a, b] := by
  simp only [parse_map_eq_ok_iff]
  constructor
  · rintro ⟨version, sets, hversion, hsets, ht, ha, he⟩
    obtain ⟨ts, us, hts, hus, htags⟩ := (h.reads_iff (by simp)).mp ht
    obtain ⟨as, bs, has, hbs, hattributes⟩ := (h.reads_iff (by simp)).mp ha
    obtain ⟨ds, ks, hds, hks, hevents⟩ := (h.readsSince_iff (by simp)).mp he
    refine ⟨⟨ts, as, ds⟩, ⟨us, bs, ks⟩, ⟨version, sets, ?_⟩, ⟨version, sets, ?_⟩, ?_⟩
    · exact ⟨h.version.1.trans hversion, (reads_congr h.valueSets.1).mpr hsets, hts, has, hds⟩
    · exact ⟨h.version.2.trans hversion, (reads_congr h.valueSets.2).mpr hsets, hus, hbs, hks⟩
    · obtain ⟨tags, attributes, events⟩ := c
      simp_all [Collection.combine]
  · rintro ⟨a, b, ⟨version, sets, ha⟩, ⟨other, others, hb⟩, rfl⟩
    obtain rfl : version = other := by
      have hsame := h.version.1.trans h.version.2.symm
      rw [ha.supported, hb.supported] at hsame
      exact Option.some.inj hsame
    have hsets : Reads readValueSet gs "valueSets" sets :=
      (reads_congr h.valueSets.1).mp ha.valueSets
    obtain rfl : sets = others := hsets.unique ((reads_congr h.valueSets.2).mp hb.valueSets)
    refine ⟨version, sets, h.version.1.symm.trans ha.supported, hsets, ?_, ?_, ?_⟩
    · exact (h.reads_iff (by simp)).mpr ⟨_, _, ha.tags, hb.tags, by simp [Collection.combine]⟩
    · exact (h.reads_iff (by simp)).mpr
        ⟨_, _, ha.attributes, hb.attributes, by simp [Collection.combine]⟩
    · exact (h.readsSince_iff (by simp)).mpr
        ⟨_, _, ha.events, hb.events, by simp [Collection.combine]⟩

/-- A document made of two is accepted if both are, and gives the entities of both. -/
theorem parse_concatenation (h : Concatenates es fs gs) :
    (Succeeds (parse (.map gs)) ↔ Succeeds (parse (.map es)) ∧ Succeeds (parse (.map fs))) ∧
      ∀ a b, parse (.map es) = .ok a → parse (.map fs) = .ok b →
        ∃ c, parse (.map gs) = .ok c ∧ c = Collection.combine [a, b] ∧
          Collection.merge [c] = Collection.merge [a, b] := by
  constructor
  · constructor
    · rintro ⟨c, hc⟩
      obtain ⟨a, b, ha, hb, -⟩ := h.parse_eq_ok_iff.mp hc
      exact ⟨⟨a, ha⟩, ⟨b, hb⟩⟩
    · rintro ⟨⟨a, ha⟩, ⟨b, hb⟩⟩
      exact ⟨_, h.parse_eq_ok_iff.mpr ⟨a, b, ha, hb, rfl⟩⟩
  · intro a b ha hb
    exact ⟨_, h.parse_eq_ok_iff.mpr ⟨a, b, ha, hb, rfl⟩, rfl,
      (Collection.merge_eq_merge_combine [a, b]).symm⟩

/-- Sections of a document of version 1.1 with one set of values. -/
def themed (sections : Entries) : Entries :=
  (.str "version", .real onePointOne) ::
    (.str "valueSets", .list [.map [(.str "name", .str "themes"),
      (.str "values", .list [.map [(.str "name", .str "dark")]])]]) :: sections

def themeAttribute : Value := .map [(.str "name", .str "theme"), (.str "valueSet", .str "themes")]

def pageEntries : Entries :=
  themed [(.str "tags", .list [.map [(.str "name", .str "x-page"),
      (.str "attributes", .list [themeAttribute])]]),
    (.str "globalEvents", .list [.map [(.str "name", .str "press")]])]

/-- The same tag without the attribute, which is global. -/
def plainPageEntries : Entries :=
  themed [(.str "globalAttributes", .list [themeAttribute]),
    (.str "tags", .list [.map [(.str "name", .str "x-page")]])]

def siteEntries : Entries :=
  themed [(.str "tags", .list [.map [(.str "name", .str "x-page"),
        (.str "attributes", .list [themeAttribute])], .map [(.str "name", .str "x-page")]]),
    (.str "globalAttributes", .list [themeAttribute]),
    (.str "globalEvents", .list [.map [(.str "name", .str "press")]])]

theorem concatenates_siteEntries : Concatenates pageEntries plainPageEntries siteEntries where
  version := ⟨rfl, rfl⟩
  valueSets := ⟨rfl, rfl⟩
  sections := by
    simp only [List.forall_mem_cons]
    exact ⟨⟨_, _, .inl rfl, .inl rfl, .inl rfl⟩, ⟨_, _, .inr ⟨rfl, rfl⟩, .inl rfl, .inl rfl⟩,
      ⟨_, _, .inl rfl, .inr ⟨rfl, rfl⟩, .inl rfl⟩, by simp⟩

theorem parse_concatenation_siteEntries :
    Concatenates pageEntries plainPageEntries siteEntries ∧
      Succeeds (parse (.map siteEntries)) ∧
      ∃ a b c, parse (.map pageEntries) = .ok a ∧ parse (.map plainPageEntries) = .ok b ∧
        parse (.map siteEntries) = .ok c ∧ c = Collection.combine [a, b] ∧
        Collection.merge [c] = Collection.merge [a, b] := by
  obtain ⟨haccepted, hparts⟩ := parse_concatenation concatenates_siteEntries
  obtain ⟨c, hc⟩ := hparts _ _ rfl rfl
  exact ⟨concatenates_siteEntries, haccepted.mpr ⟨⟨_, rfl⟩, ⟨_, rfl⟩⟩, _, _, c, rfl, rfl, hc⟩

end Concatenation

end Document
end HtmlCatalog
