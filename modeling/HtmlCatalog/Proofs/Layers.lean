import HtmlCatalog.Proofs.Baseline
import HtmlCatalog.Proofs.Lookup
import HtmlCatalog.Proofs.UserSources

/-! The catalogue layer by layer. Lowest is the built-in collection, then come the names that the
settings list, then the sources that can be loaded, in their order. Whatever a layer has is in the
catalogue, and the type of a member is the one given last, in the highest layer that has it. -/
namespace HtmlCatalog

open Summary

namespace Collection

theorem merge_pair_combine (c : Collection) (ds : List Collection) :
    merge [c, combine ds] = merge (c :: ds) := by
  simp [merge, combine]

theorem merge_empty_cons (cs : List Collection) : merge (empty :: cs) = merge cs := by
  simp [merge, empty]

end Collection

namespace UserData

def listedNames (config : Config) : MemberKind → List String
  | .attribute => config.attributes
  | .property => []
  | .event => config.events

theorem globals_listed (config : Config) (kind : MemberKind) :
    (listed config).globals kind =
      (listedNames config kind).map fun name => { name, type := .any, kind } := by
  cases kind <;> rfl

theorem names_globals_listed (config : Config) (kind : MemberKind) :
    ((listed config).globals kind).map (·.name) = listedNames config kind := by
  rw [globals_listed, List.map_map]
  exact List.map_id _

theorem names_tags_listed (config : Config) :
    (listed config).tags.map (·.name) = config.tags := by
  rw [listed, List.map_map]
  exact List.map_id _

theorem declarations_listed_ofTag (config : Config) (tagName : String) (kind : MemberKind)
    (name : String) : (listed config).declarations (.ofTag tagName kind name) = [] := by
  have h : ∀ t ∈ (listed config).tags, t.members kind = [] := by
    intro t ht
    obtain ⟨n, -, rfl⟩ := List.mem_map.mp ht
    cases kind <;> rfl
  simp only [Collection.declarations, Collection.membersAt, Key.ofTag, List.filter_eq_nil_iff,
    List.mem_flatMap, List.mem_filter]
  rintro m ⟨t, ⟨ht, -⟩, hm⟩
  simp [h t ht] at hm

theorem type_listed (config : Config) (kind : MemberKind) (name : String) :
    ((listed config).declarations (.ofGlobal kind name)).getLast?.map (·.type) =
      if name ∈ listedNames config kind then some .any else none := by
  simp only [Collection.declarations, Collection.membersAt, Key.ofGlobal, if_true, globals_listed,
    List.filter_map, Function.comp_def, List.getLast?_map, Option.map_map]
  split_ifs with h
  · have hne : (listedNames config kind).filter (· == name) ≠ [] :=
      List.ne_nil_of_mem (List.mem_filter.mpr ⟨h, beq_self_eq_true name⟩)
    rw [List.getLast?_eq_some_getLast hne, Option.map_some]
  · have hnil : (listedNames config kind).filter (· == name) = [] := by
      rw [List.filter_eq_nil_iff]
      intro n hn hname
      exact h (eq_of_beq hname ▸ hn)
    rw [hnil, List.getLast?_nil, Option.map_none]

end UserData

namespace Catalog

open UserData

def base (includeBuiltin : Bool) : Collection :=
  if includeBuiltin then Builtin.standard.value else .empty

theorem base_true : base true = Builtin.standard.value := if_pos rfl

theorem exists_base_eq_merge (includeBuiltin : Bool) :
    ∃ cs, base includeBuiltin = Collection.merge cs := by
  cases includeBuiltin with
  | false => exact ⟨[], rfl⟩
  | true =>
    obtain ⟨-, c, -, -, h⟩ := Builtin.exists_collection_eq .standard Patch.all
    rw [base_true, Builtin.standard, Builtin.build_value, h]
    exact ⟨_, rfl⟩

/-- The layers of the catalogue, the lowest first. -/
def layers (t : FileTree) (config : Config) (includeBuiltin : Bool) : List Collection :=
  base includeBuiltin :: listed config :: loaded t config.sources

section Build

variable {t : FileTree} {config : Config} {includeBuiltin : Bool}

theorem build_value (t : FileTree) (config : Config) (includeBuiltin : Bool) :
    (build t config includeBuiltin).value = (UserData.collection t config).value.map
      fun user => Collection.merge [base includeBuiltin, user] := by
  cases h : (UserData.collection t config).value with
  | error f =>
    rw [build, Logged.andThen_of_error h]
    rfl
  | ok user =>
    rw [build, Logged.andThen_of_ok h]
    cases includeBuiltin with
    | false =>
      have hbase : base false = .empty := rfl
      rw [hbase, Except.map, Collection.merge_empty_cons]
      rfl
    | true => rfl

/-- The base and what the settings describe are merged layer by layer. -/
theorem merge_base_collection (t : FileTree) (config : Config) (includeBuiltin : Bool) :
    Collection.merge [base includeBuiltin,
        Collection.combine [listed config, Collection.merge (loaded t config.sources)]] =
      Collection.merge (layers t config includeBuiltin) := by
  rw [Collection.merge_pair_combine, layers]
  simpa using Collection.merge_append_merge_cons [base includeBuiltin, listed config]
    (loaded t config.sources) []

theorem build_of_labels (h : ∀ v ∈ config.sources, (Source.label? v).isSome) :
    (build t config includeBuiltin).value =
      .ok (Collection.merge (layers t config includeBuiltin)) := by
  rw [build_value, (collection_of_labels h).1, Except.map, merge_base_collection]

theorem build_of_no_label (h : ∃ v ∈ config.sources, Source.label? v = none) :
    ∃ v ∈ config.sources, (build t config includeBuiltin).value = .error (.unwritable v) := by
  obtain ⟨v, hv, herror⟩ := collection_value_of_no_label (t := t) h
  exact ⟨v, hv, by rw [build, Logged.andThen_of_error herror]⟩

theorem eq_of_build_eq_ok {c : Collection} (h : (build t config includeBuiltin).value = .ok c) :
    c = Collection.merge (layers t config includeBuiltin) := by
  rw [build_value] at h
  cases huser : (UserData.collection t config).value with
  | error f =>
    rw [huser] at h
    exact nomatch h
  | ok user =>
    rw [huser] at h
    rw [← merge_base_collection, ← eq_of_collection_eq_ok huser]
    exact (Except.ok.inj h).symm

end Build

/-- What a collection `c` made of a base, the settings and some sources holds. The type of a member
is that of its last declaration in a source, whatever type that is; failing one, `any` if the
settings list it; failing that, the one in the base. -/
structure Layered (base : Collection) (config : Config) (sources : List Collection)
    (c : Collection) : Prop where
  globals : ∀ kind name, name ∈ (c.globals kind).map (·.name) ↔
    name ∈ (base.globals kind).map (·.name) ∨ name ∈ listedNames config kind ∨
      ∃ s ∈ sources, name ∈ (s.globals kind).map (·.name)
  globalType : ∀ kind, ∀ m ∈ c.globals kind, some m.type =
    ((Collection.lastDeclaration sources (.ofGlobal kind m.name)).map (·.type)).or
      (if m.name ∈ listedNames config kind then some .any
        else (base.member? (.ofGlobal kind m.name)).map (·.type))
  tags : ∀ name, name ∈ c.tags.map (·.name) ↔
    name ∈ base.tags.map (·.name) ∨ name ∈ config.tags ∨
      ∃ s ∈ sources, name ∈ s.tags.map (·.name)
  members : ∀ tag ∈ c.tags, ∀ kind name, name ∈ (tag.members kind).map (·.name) ↔
    (base.member? (.ofTag tag.name kind name)).isSome ∨
      ∃ s ∈ sources, s.declarations (.ofTag tag.name kind name) ≠ []
  memberType : ∀ tag ∈ c.tags, ∀ kind, ∀ m ∈ tag.members kind, some m.type =
    ((Collection.lastDeclaration sources (.ofTag tag.name kind m.name)).map (·.type)).or
      ((base.member? (.ofTag tag.name kind m.name)).map (·.type))

section Merge

variable {base : Collection} (hbase : ∃ cs, base = Collection.merge cs) (config : Config)
  (sources : List Collection)
include hbase

theorem declarations_base (k : Key) : base.declarations k = (base.member? k).toList := by
  obtain ⟨cs, rfl⟩ := hbase
  exact Collection.declarations_merge cs k

theorem type_member?_layers (k : Key) :
    ((Collection.merge (base :: listed config :: sources)).member? k).map (·.type) =
      ((Collection.lastDeclaration sources k).map (·.type)).or
        ((((listed config).declarations k).getLast?.map (·.type)).or
          ((base.member? k).map (·.type))) := by
  have hlast : (base.declarations k).getLast? = base.member? k := by
    rw [declarations_base hbase]
    cases base.member? k <;> rfl
  rw [Collection.type_member?_merge, Collection.lastDeclaration_cons,
    Collection.lastDeclaration_cons, hlast, Option.map_or, Option.map_or, Option.or_assoc]

theorem layered_merge :
    Layered base config sources (Collection.merge (base :: listed config :: sources)) where
  globals kind name := by
    simp only [Collection.mem_names_globals_merge, List.exists_mem_cons_iff, names_globals_listed]
  globalType kind m hm := by
    have hfound := Collection.member?_of_mem_merge (Collection.mem_declarations_ofGlobal hm)
    have htype := type_member?_layers hbase config sources (.ofGlobal kind m.name)
    rw [hfound, type_listed, Option.map_some] at htype
    rw [htype]
    split_ifs <;> rfl
  tags name := by
    simp only [Collection.mem_names_tags_merge, List.exists_mem_cons_iff, names_tags_listed]
  members tag htag kind name := by
    have hsome : base.declarations (.ofTag tag.name kind name) ≠ [] ↔
        (base.member? (.ofTag tag.name kind name)).isSome := by
      obtain ⟨cs, rfl⟩ := hbase
      exact Collection.declarations_merge_ne_nil
    rw [Collection.mem_names_members_merge htag, Collection.isSome_member?_merge]
    simp only [List.exists_mem_cons_iff, hsome, declarations_listed_ofTag, ne_eq, not_true,
      false_or]
  memberType tag htag kind m hm := by
    have hfound := Collection.member?_of_mem_merge (Collection.mem_declarations_ofTag htag hm)
    have htype := type_member?_layers hbase config sources (.ofTag tag.name kind m.name)
    rw [hfound, declarations_listed_ofTag, Option.map_some] at htype
    exact htype

end Merge

/-- The build gives a layered collection. To list other tags than the settings do would neither
remove a member of a tag from it nor change the type of one. -/
def GivesLayers (t : FileTree) (config : Config) (includeBuiltin : Bool) : Prop :=
  ∃ c, (build t config includeBuiltin).value = .ok c ∧
    Layered (base includeBuiltin) config (loaded t config.sources) c ∧
    ∀ names, ∃ d, (build t { config with tags := names } includeBuiltin).value = .ok d ∧
      ∀ tagName kind name, (d.member? (.ofTag tagName kind name)).map (·.type) =
        (c.member? (.ofTag tagName kind name)).map (·.type)

variable {t : FileTree} {config : Config} {includeBuiltin : Bool}

theorem givesLayers_of_labels (h : ∀ v ∈ config.sources, (Source.label? v).isSome) :
    GivesLayers t config includeBuiltin := by
  have hbase := exists_base_eq_merge includeBuiltin
  refine ⟨_, build_of_labels h, layered_merge hbase config _, fun names => ?_⟩
  have hother : ∀ v ∈ ({ config with tags := names } : Config).sources,
      (Source.label? v).isSome := h
  refine ⟨_, build_of_labels hother, ?_⟩
  intro tagName kind name
  rw [layers, layers, type_member?_layers hbase, type_member?_layers hbase,
    declarations_listed_ofTag, declarations_listed_ofTag]
  rfl

/-- The catalogue is built, layer by layer, exactly when every source is a map or holds no number
that is too long to be written. If one is neither, the build ends with a fault about such a
source. -/
theorem givesLayers_iff_isWritable (t : FileTree) (config : Config) (includeBuiltin : Bool) :
    (GivesLayers t config includeBuiltin ↔
        ∀ v ∈ config.sources, v.isWritable = true ∨ ∃ es, v = .map es) ∧
      (¬ GivesLayers t config includeBuiltin →
        ∃ v ∈ config.sources, (build t config includeBuiltin).value = .error (.unwritable v)) := by
  refine iff_isWritable_of_labels givesLayers_of_labels build_of_no_label ?_
  rintro ⟨c, hc, -⟩
  exact ⟨c, hc⟩

theorem build_longNumberOnly (includeBuiltin : Bool) :
    ∃ v, (build emptyTree longNumberOnly includeBuiltin).value = .error (.unwritable v) := by
  obtain ⟨v, -, herror⟩ := build_of_no_label no_label_longNumberOnly
  exact ⟨v, herror⟩

/-- A long number for a source keeps the whole catalogue from being built, though it describes
nothing. -/
theorem not_givesLayers_longNumberOnly :
    (∃ v, (build emptyTree longNumberOnly false).value = .error (.unwritable v)) ∧
      ¬ GivesLayers emptyTree longNumberOnly false := by
  refine ⟨build_longNumberOnly false, ?_⟩
  rintro ⟨c, hc, -⟩
  obtain ⟨v, herror⟩ := build_longNumberOnly false
  rw [herror] at hc
  exact nomatch hc

end Catalog
end HtmlCatalog
