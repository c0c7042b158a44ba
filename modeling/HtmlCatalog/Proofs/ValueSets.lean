import HtmlCatalog.Proofs.Entries
import HtmlCatalog.Proofs.Sections

/-! The value sets of a document. An attribute may name a set that stands anywhere in the document,
and of several of one name the last one counts. So the sets may be put into another order, as long
as those of one name keep theirs, and sets may be added that no attribute names: the document gives
the same collection. -/
namespace HtmlCatalog
namespace Document

def valuedEntries (version : Version) (doc : Entries) : List Entries :=
  entriesIn doc "globalAttributes" ++
    (entriesIn doc "tags").flatMap fun t =>
      entriesIn t "attributes" ++ entriesSince version t "properties"

def references (version : Version) (doc : Entries) : List String :=
  (valuedEntries version doc).filterMap reference?

/-- The same entries, but for the value sets, which `later` has in a list. -/
structure SameButSets (doc later : Entries) : Prop where
  others : ∀ key, key ≠ "valueSets" → Value.field later key = Value.field doc key
  listed : ∃ items, Value.field later "valueSets" = .list items

/-- The value sets in another order, those of one name in the same. -/
structure Reorders (doc later : Entries) : Prop where
  perm : (itemsOf later "valueSets").Perm (itemsOf doc "valueSets")
  sameName : ∀ name, setsNamed later name = setsNamed doc name

/-- More value sets, at any places, with names that are not referred to. -/
structure Adds (version : Version) (added : List Entries) (doc later : Entries) : Prop where
  sublist : (itemsOf doc "valueSets").Sublist (itemsOf later "valueSets")
  perm : (itemsOf later "valueSets").Perm (added.map Value.map ++ itemsOf doc "valueSets")
  valid : ∀ set ∈ added, IsValueSet set
  unnamed : ∀ set ∈ added, nameOf set ∉ references version doc

variable {α : Type} {es doc later : Entries} {sets others : ValueSets} {version : Version}
  {added : List Entries} {key name : String} {kind : MemberKind} {owner : Option String}
  {v : Value} {c : Collection}

section Agreement

variable {f g : Value → Except Fault α} {xs : List α}

theorem Reads.imp (h : Reads f es key xs)
    (hfg : ∀ v, (∀ e ∈ entries? v, e ∈ entriesIn es key) → ∀ x, f v = .ok x → g v = .ok x) :
    Reads g es key xs := by
  have hmap : Reads g es key (xs.map id) := by
    refine h.map fun items hitems v hv => hfg v fun e he => ?_
    rw [section?_items hitems] at hv
    exact List.mem_filterMap.mpr ⟨v, hv, he⟩
  rwa [List.map_id] at hmap

theorem ReadsSince.imp (h : ReadsSince version f es key xs)
    (hfg : ∀ v, (∀ e ∈ entries? v, e ∈ entriesSince version es key) →
      ∀ x, f v = .ok x → g v = .ok x) : ReadsSince version g es key xs := by
  cases version with
  | one => exact h
  | onePointOne => exact Reads.imp h hfg

/-- Tables with the same values under every name that the entries refer to. -/
def AgreeOn (attributes : List Entries) (sets others : ValueSets) : Prop :=
  ∀ e ∈ attributes, ∀ name ∈ reference? e, sets.lookup name = others.lookup name

theorem AgreeOn.mono {as bs : List Entries} (h : AgreeOn as sets others) (hsub : bs ⊆ as) :
    AgreeOn bs sets others :=
  fun e he => h e (hsub he)

theorem attributeType_congr {e : Entries}
    (h : ∀ name ∈ reference? e, sets.lookup name = others.lookup name) :
    attributeType sets e = attributeType others e := by
  unfold attributeType
  cases hset : valueSetName e with
  | error f => rfl
  | ok set =>
    have hlookup : set.map sets.lookup = set.map others.lookup := by
      rw [← reference?_of_valueSetName hset]
      exact Option.map_congr h
    simp only [bind, Except.bind, hlookup]

theorem readAttribute_congr (h : AgreeOn (entries? v).toList sets others) :
    readAttribute sets kind owner v = readAttribute others kind owner v := by
  cases v with
  | map e =>
    have htype : attributeType sets e = attributeType others e :=
      attributeType_congr (h e (Option.mem_toList.mpr rfl))
    simp only [readAttribute, readEntries, bind, Except.bind, htype]
  | _ => rfl

theorem readTag_imp {t : Tag}
    (h : ∀ e ∈ entries? v,
      AgreeOn (entriesIn e "attributes" ++ entriesSince version e "properties") sets others)
    (ht : readTag sets version v = .ok t) : readTag others version v = .ok t := by
  obtain ⟨e, rfl, he⟩ := readTag_eq_ok_iff.mp ht
  have hagree := h e rfl
  have hread : ∀ kind v, (∀ a ∈ entries? v,
      a ∈ entriesIn e "attributes" ++ entriesSince version e "properties") → ∀ m,
        readAttribute sets kind (some t.name) v = .ok m →
          readAttribute others kind (some t.name) v = .ok m := by
    intro kind v hv m hm
    rwa [← readAttribute_congr (hagree.mono fun a ha => hv a (Option.mem_toList.mp ha))]
  refine readTag_eq_ok_iff.mpr ⟨e, rfl, { he with attributes := ?_, properties := ?_ }⟩
  · exact he.attributes.imp fun v hv => hread .attribute v fun a ha =>
      List.mem_append_left _ (hv a ha)
  · exact he.properties.imp fun v hv => hread .property v fun a ha =>
      List.mem_append_right _ (hv a ha)

theorem readsDocument_of_agreeOn (h : ReadsDocument version sets doc c)
    (hothers : ∀ key, key ≠ "valueSets" → Value.field later key = Value.field doc key)
    (hsets : Reads readValueSet later "valueSets" others)
    (hagree : AgreeOn (valuedEntries version doc) sets others) :
    ReadsDocument version others later c where
  supported := by rw [hothers "version" (by decide), h.supported]
  valueSets := hsets
  tags := by
    refine (reads_congr (hothers "tags" (by decide))).mpr (h.tags.imp fun v hv t => ?_)
    refine readTag_imp fun e he => hagree.mono fun a ha => ?_
    exact List.mem_append_right _ (List.mem_flatMap.mpr ⟨e, hv e he, ha⟩)
  attributes := by
    refine (reads_congr (hothers "globalAttributes" (by decide))).mpr
      (h.attributes.imp fun v hv m hm => ?_)
    rw [← readAttribute_congr, hm]
    refine hagree.mono fun a ha => ?_
    exact List.mem_append_left _ (hv a (Option.mem_toList.mp ha))
  events := (readsSince_congr (hothers "globalEvents" (by decide))).mpr h.events

end Agreement

section Changes

theorem filterMap_entries?_append (added : List Entries) (items : List Value) :
    (added.map Value.map ++ items).filterMap entries? = added ++ items.filterMap entries? := by
  rw [List.filterMap_append, List.filterMap_map]
  congr 1
  exact List.filterMap_some

theorem isValueSet_of_reads (h : Reads readValueSet doc "valueSets" sets) :
    ∀ v ∈ itemsOf doc "valueSets", MapOf IsValueSet v := by
  obtain ⟨items, hitems, hsets⟩ := h
  rw [← section?_items hitems]
  exact fun v hv => succeeds_readValueSet.mp (succeeds_mapM.mp ⟨sets, hsets⟩ v hv)

theorem exists_reads_valueSets {items : List Value}
    (h : Value.field later "valueSets" = .list items) (hvalid : ∀ v ∈ items, MapOf IsValueSet v) :
    ∃ others, Reads readValueSet later "valueSets" others := by
  have hread : Succeeds (items.mapM readValueSet) :=
    succeeds_mapM.mpr fun v hv => succeeds_readValueSet.mpr (hvalid v hv)
  obtain ⟨others, hothers⟩ := hread
  exact ⟨others, items, section?_of_lists (.inl h), hothers⟩

/-- Valid value sets give the same collection if those of every name that is referred to are the
same and in the same order. -/
theorem parse_of_setsNamed (h : ReadsDocument version sets doc c) (hbut : SameButSets doc later)
    (hvalid : ∀ v ∈ itemsOf later "valueSets", MapOf IsValueSet v)
    (hsame : ∀ name ∈ references version doc, setsNamed later name = setsNamed doc name) :
    parse (.map later) = .ok c := by
  obtain ⟨items, hitems⟩ := hbut.listed
  rw [itemsOf, hitems] at hvalid
  obtain ⟨others, hothers⟩ := exists_reads_valueSets hitems hvalid
  have hagree : AgreeOn (valuedEntries version doc) sets others := by
    intro e he name hname
    have hreferred : name ∈ references version doc := List.mem_filterMap.mpr ⟨e, he, hname⟩
    rw [lookup_eq_valuesOf h.valueSets, lookup_eq_valuesOf hothers, valuesOf, valuesOf,
      hsame name hreferred]
  exact parse_map_eq_ok_iff.mpr
    ⟨version, others, readsDocument_of_agreeOn h hbut.others hothers hagree⟩

/-- Added value sets leave those of a name as they are, if none of them has it. -/
theorem Adds.setsNamed_eq (h : Adds version added doc later)
    (hname : ∀ set ∈ added, nameOf set ≠ name) : setsNamed later name = setsNamed doc name := by
  have hsub : (setsNamed doc name).Sublist (setsNamed later name) :=
    (h.sublist.filterMap entries?).filter _
  have hnone : added.filter (nameOf · == name) = [] := by
    simpa [List.filter_eq_nil_iff] using hname
  have hperm : (setsNamed later name).Perm (setsNamed doc name) := by
    have hentries := (h.perm.filterMap entries?).filter (nameOf · == name)
    rw [filterMap_entries?_append, List.filter_append, hnone, List.nil_append] at hentries
    exact hentries
  exact (hsub.eq_of_length hperm.length_eq.symm).symm

/-- An accepted document gives every attribute and property the type that its entry comes to. The
collection stays the same when the value sets are put into another order that keeps the order of
those of one name, and when value sets are added that are not referred to. -/
theorem parse_resolves (h : parse v = .ok c) :
    ∃ version doc, v = .map doc ∧ IsVersion version (Value.field doc "version") ∧
      DeclaresAll version doc c ∧
      ∀ later, SameButSets doc later →
        (Reorders doc later ∨ ∃ added, Adds version added doc later) →
          parse (.map later) = .ok c := by
  obtain ⟨doc, rfl, version, sets, hdoc⟩ := parse_eq_ok_iff.mp h
  have hvalid := isValueSet_of_reads hdoc.valueSets
  refine ⟨version, doc, rfl, version?_eq_some_iff.mp hdoc.supported,
    declaresAll_of_readsDocument hdoc, fun later hbut hchange => ?_⟩
  rcases hchange with hreorders | ⟨added, hadds⟩
  · refine parse_of_setsNamed hdoc hbut (fun v hv => ?_) fun name _ => hreorders.sameName name
    exact hvalid v (hreorders.perm.mem_iff.mp hv)
  · refine parse_of_setsNamed hdoc hbut (fun v hv => ?_) fun name hname => ?_
    · rcases List.mem_append.mp (hadds.perm.mem_iff.mp hv) with hadded | hold
      · obtain ⟨set, hset, rfl⟩ := List.mem_map.mp hadded
        exact ⟨set, rfl, hadds.valid set hset⟩
      · exact hvalid v hold
    · exact hadds.setsNamed_eq fun set hset he => hadds.unnamed set hset (he ▸ hname)

def namedItems (names : List String) : Value :=
  .list (names.map fun name => .map [(.str "name", .str name)])

def setItem (name : String) (values : List String) : Value :=
  .map [(.str "name", .str name), (.str "values", namedItems values)]

/-- A document with attributes that take their types from everywhere, and with these value sets. -/
def palette (sets : List Value) : Entries :=
  [(.str "version", .real onePointOne), (.str "valueSets", .list sets),
    (.str "tags", .list [.map [(.str "name", .str "x-box"),
      (.str "attributes", .list [
        .map [(.str "name", .str "open"), (.str "valueSet", .str "v"), (.str "values", .int 1)],
        .map [(.str "name", .str "size"), (.str "valueSet", .str "sizes")],
        .map [(.str "name", .str "tone"), (.str "valueSet", .str "tones")],
        .map [(.str "name", .str "side"), (.str "valueSet", .str "tones"),
          (.str "values", namedItems ["left", "right"])]]),
      (.str "properties", .list [
        .map [(.str "name", .str "mode"), (.str "type", .list [.str "on", .str "off"]),
          (.str "valueSet", .str "tones")]])]]),
    (.str "globalAttributes", .list [
      .map [(.str "name", .str "count"), (.str "type", .str "number"), (.str "values", .int 1)],
      .map [(.str "name", .str "note"), (.str "valueSet", .str "notes")]])]

/-- Two sets of one name, the later of which is empty, and one named like the set without values. -/
def paletteSets : List Value :=
  [setItem "sizes" ["s", "m"], setItem "v" ["yes"], setItem "sizes" [], setItem "tones" ["dark"]]

def reorderedSets : List Value :=
  [setItem "tones" ["dark"], setItem "sizes" ["s", "m"], setItem "sizes" [], setItem "v" ["yes"]]

def unusedSet : Entries := [(.str "name", .str "hues"), (.str "values", namedItems ["red"])]

theorem setsNamed_reordered (name : String) :
    setsNamed (palette reorderedSets) name = setsNamed (palette paletteSets) name := by
  have hlisted : ∀ name ∈ ["sizes", "v", "tones"],
      setsNamed (palette reorderedSets) name = setsNamed (palette paletteSets) name := by decide
  by_cases hname : name ∈ ["sizes", "v", "tones"]
  · exact hlisted name hname
  · have hnames : ∀ sets ∈ [reorderedSets, paletteSets],
        ∀ set ∈ entriesIn (palette sets) "valueSets", nameOf set ∈ ["sizes", "v", "tones"] := by
      decide
    have hnone : ∀ sets ∈ [reorderedSets, paletteSets], setsNamed (palette sets) name = [] :=
      fun sets hsets => List.filter_eq_nil_iff.mpr fun set hset he =>
        hname (eq_of_beq he ▸ hnames sets hsets set hset)
    rw [hnone _ (by simp), hnone _ (by simp)]

theorem reorders_palette : Reorders (palette paletteSets) (palette reorderedSets) where
  perm := by decide
  sameName := setsNamed_reordered

theorem adds_palette : Adds .onePointOne [unusedSet] (palette paletteSets)
    (palette (.map unusedSet :: paletteSets)) where
  sublist := List.sublist_cons_self _ _
  perm := List.Perm.refl _
  valid := by
    refine List.forall_mem_singleton.mpr ⟨⟨"hues", by decide, rfl⟩, .inr ⟨_, rfl, ?_⟩⟩
    exact List.forall_mem_singleton.mpr ⟨_, rfl, "red", by decide, rfl⟩
  unnamed := by decide

theorem sameButSets_palette (sets others : List Value) :
    SameButSets (palette sets) (palette others) where
  others key hkey := by
    have hsets : Scalar.str "valueSets" ≠ .str key := by simpa using hkey.symm
    simp only [palette, Value.field_cons, hsets, if_false]
  listed := ⟨others, rfl⟩

theorem parse_resolves_palette :
    ∃ c, parse (.map (palette paletteSets)) = .ok c ∧
      c.tags.flatMap (fun t => (t.attributes ++ t.properties).map (·.type)) =
        [.boolean, .any, .literal "dark", .ofLiterals ["left", "right"],
          .ofLiterals ["on", "off"]] ∧
      DeclaresAll .onePointOne (palette paletteSets) c ∧
      Reorders (palette paletteSets) (palette reorderedSets) ∧
      parse (.map (palette reorderedSets)) = .ok c ∧
      Adds .onePointOne [unusedSet] (palette paletteSets)
        (palette (.map unusedSet :: paletteSets)) ∧
      parse (.map (palette (.map unusedSet :: paletteSets))) = .ok c := by
  obtain ⟨version, doc, hdoc, hversion, hall, hlater⟩ :=
    parse_resolves (v := .map (palette paletteSets)) rfl
  obtain rfl := Value.map.inj hdoc
  obtain rfl := isVersion_unique hversion isVersion_onePointOne
  exact ⟨_, rfl, rfl, hall, reorders_palette,
    hlater _ (sameButSets_palette _ _) (.inl reorders_palette), adds_palette,
    hlater _ (sameButSets_palette _ _) (.inr ⟨_, adds_palette⟩)⟩

end Changes

end Document
end HtmlCatalog
