import HtmlCatalog.Proofs.Layers
import HtmlCatalog.Proofs.Loading
import HtmlCatalog.Proofs.Reading

/-! Which entities of the catalogue are built in. The built-in collection is so throughout, what a
source describes or the settings list never is, and merging keeps the flag of an entity only if
every declaration of it has the flag. -/
namespace HtmlCatalog

open Summary

theorem Tag.forall_members_iff {t : Tag} {P : MemberKind → Member → Prop} :
    (∀ kind, ∀ m ∈ t.members kind, P kind m) ↔
      (∀ m ∈ t.attributes, P .attribute m) ∧ (∀ m ∈ t.properties, P .property m) ∧
        ∀ m ∈ t.events, P .event m :=
  ⟨fun h => ⟨h .attribute, h .property, h .event⟩, fun ⟨ha, hp, he⟩ kind => by
    cases kind <;> assumption⟩

namespace Collection

theorem forall_globals_iff {c : Collection} {P : MemberKind → Member → Prop} :
    (∀ kind, ∀ m ∈ c.globals kind, P kind m) ↔
      (∀ m ∈ c.attributes, P .attribute m) ∧ ∀ m ∈ c.events, P .event m := by
  refine ⟨fun h => ⟨h .attribute, h .event⟩, fun ⟨ha, he⟩ kind => ?_⟩
  cases kind
  · exact ha
  · simp [globals]
  · exact he

/-- What holds of the members of all tags and of the global members holds of all declarations. -/
theorem forall_declarations {c : Collection} {k : Key} {P : Member → Prop}
    (hmembers : ∀ t ∈ c.tags, ∀ kind, ∀ m ∈ t.members kind, P m)
    (hglobals : ∀ kind, ∀ m ∈ c.globals kind, P m) : ∀ m ∈ c.declarations k, P m := by
  intro m hm
  rcases k with ⟨_ | _, tagName, name, _ | kind⟩
  · simp [declarations] at hm
  · simp only [declarations, membersAt, List.mem_filter, List.mem_flatMap] at hm
    obtain ⟨⟨t, ⟨ht, -⟩, hmt⟩, -⟩ := hm
    exact hmembers t ht kind m hmt
  · simp [declarations] at hm
  · simp only [declarations, membersAt, List.mem_filter] at hm
    by_cases htag : tagName = ""
    · rw [if_pos htag] at hm
      exact hglobals kind m hm.1
    · simp [htag] at hm

/-- Every tag and every member has the flag `b`. -/
structure Flagged (b : Bool) (c : Collection) : Prop where
  tags : ∀ t ∈ c.tags, t.builtIn = b
  members : ∀ t ∈ c.tags, ∀ kind, ∀ m ∈ t.members kind, m.builtIn = b
  globals : ∀ kind, ∀ m ∈ c.globals kind, m.builtIn = b

variable {b : Bool} {c base : Collection} {cs users : List Collection} {tag : Tag} {m : Member}
  {k : Key}

theorem Flagged.declarations (h : c.Flagged b) (hm : m ∈ c.declarations k) : m.builtIn = b :=
  forall_declarations (P := (·.builtIn = b)) h.members h.globals m hm

theorem builtIn_tag_iff (h : tag ∈ (merge cs).tags) :
    tag.builtIn = true ↔ ∀ c ∈ cs, ∀ u ∈ c.tags, u.name = tag.name → u.builtIn = true := by
  have hfound := tag?_of_mem_merge h
  rw [tag?_merge] at hfound
  have hall : tag.builtIn =
      ((cs.flatMap (·.tags)).filter (·.name == tag.name)).all (·.builtIn) := by
    cases hf : (cs.flatMap (·.tags)).filter (·.name == tag.name) with
    | nil => simp [hf] at hfound
    | cons first rest =>
      simp only [hf, Option.some.injEq] at hfound
      rw [← hfound]
      rfl
  rw [hall, List.all_eq_true]
  simp only [List.mem_filter, List.mem_flatMap, beq_iff_eq]
  constructor
  · intro hu c hc u huc hname
    exact hu u ⟨⟨c, hc, huc⟩, hname⟩
  · rintro hu u ⟨⟨c, hc, huc⟩, hname⟩
    exact hu c hc u huc hname

theorem builtIn_member_iff (h : (merge cs).member? k = some m) :
    m.builtIn = true ↔ ∀ c ∈ cs, ∀ n ∈ c.declarations k, n.builtIn = true := by
  have hne : cs.flatMap (·.declarations k) ≠ [] := by
    intro hnil
    simp [member?_merge, hnil] at h
  have hflag := exists_member?_merge_builtIn cs k true
  rw [h] at hflag
  simpa [hne, allBuiltIn] using hflag

theorem flagged_merge (h : ∀ c ∈ cs, c.Flagged true) : (merge cs).Flagged true where
  tags _ ht := (builtIn_tag_iff ht).mpr fun c hc u hu _ => (h c hc).tags u hu
  members _ ht _ _ hm :=
    (builtIn_member_iff (member?_of_mem_merge (mem_declarations_ofTag ht hm))).mpr
      fun c hc _ hn => (h c hc).declarations hn
  globals _ _ hm :=
    (builtIn_member_iff (member?_of_mem_merge (mem_declarations_ofGlobal hm))).mpr
      fun c hc _ hn => (h c hc).declarations hn

section Users

variable (hbase : base.Flagged true) (husers : ∀ u ∈ users, u.Flagged false)
include hbase husers

theorem builtIn_tag_iff_of_flagged (h : tag ∈ (merge (base :: users)).tags) :
    tag.builtIn = true ↔ tag.name ∈ base.tags.map (·.name) ∧
      ∀ u ∈ users, tag.name ∉ u.tags.map (·.name) := by
  have hname := mem_names_tags_merge.mp (List.mem_map_of_mem h)
  rw [List.exists_mem_cons_iff] at hname
  rw [builtIn_tag_iff h, List.forall_mem_cons]
  constructor
  · rintro ⟨-, hflags⟩
    have hnone : ∀ u ∈ users, tag.name ∉ u.tags.map (·.name) := by
      intro u hu hmem
      obtain ⟨v, hv, hvn⟩ := List.mem_map.mp hmem
      have hfalse := (husers u hu).tags v hv
      simp [hflags u hu v hv hvn] at hfalse
    exact ⟨hname.resolve_right fun ⟨u, hu, hmem⟩ => hnone u hu hmem, hnone⟩
  · rintro ⟨-, hnone⟩
    refine ⟨fun v hv _ => hbase.tags v hv, fun u hu v hv hvn => ?_⟩
    exact absurd (List.mem_map.mpr ⟨v, hv, hvn⟩) (hnone u hu)

theorem builtIn_member_iff_of_flagged (h : (merge (base :: users)).member? k = some m) :
    m.builtIn = true ↔ base.declarations k ≠ [] ∧ ∀ u ∈ users, u.declarations k = [] := by
  have hdeclared := isSome_member?_merge.mp (Option.isSome_of_eq_some h)
  rw [List.exists_mem_cons_iff] at hdeclared
  rw [builtIn_member_iff h, List.forall_mem_cons]
  constructor
  · rintro ⟨-, hflags⟩
    have hnone : ∀ u ∈ users, u.declarations k = [] := by
      intro u hu
      rw [List.eq_nil_iff_forall_not_mem]
      intro n hn
      have hfalse := (husers u hu).declarations hn
      simp [hflags u hu n hn] at hfalse
    exact ⟨hdeclared.resolve_right fun ⟨u, hu, hne⟩ => hne (hnone u hu), hnone⟩
  · rintro ⟨-, hnone⟩
    refine ⟨fun n hn => hbase.declarations hn, fun u hu n hn => ?_⟩
    simp [hnone u hu] at hn

end Users

end Collection

namespace Document

variable {sets : ValueSets} {version : Version} {kind : MemberKind} {owner : Option String}
  {v : Value} {m : Member}

theorem builtIn_readAttribute (h : readAttribute sets kind owner v = .ok m) :
    m.builtIn = false := by
  obtain ⟨es, name, type, -, -, -, rfl⟩ := readAttribute_eq_ok_iff.mp h
  rfl

theorem builtIn_readEvent (h : readEvent owner v = .ok m) : m.builtIn = false := by
  obtain ⟨es, name, type, -, -, -, rfl⟩ := readEvent_eq_ok_iff.mp h
  rfl

theorem builtIn_readTag {t : Tag} (h : readTag sets version v = .ok t) :
    t.builtIn = false ∧ ∀ kind, ∀ m ∈ t.members kind, m.builtIn = false := by
  obtain ⟨es, -, hes⟩ := readTag_eq_ok_iff.mp h
  refine ⟨hes.builtIn, Tag.forall_members_iff.mpr ⟨?_, ?_, ?_⟩⟩
  · exact hes.attributes.forall_mem fun _ _ => builtIn_readAttribute
  · exact hes.properties.forall_mem fun _ _ => builtIn_readAttribute
  · exact hes.events.forall_mem fun _ _ => builtIn_readEvent

theorem flagged_parse {c : Collection} (h : parse v = .ok c) : c.Flagged false := by
  obtain ⟨es, -, version, sets, hes⟩ := parse_eq_ok_iff.mp h
  have htags := hes.tags.forall_mem fun _ _ => builtIn_readTag
  refine ⟨fun t ht => (htags t ht).1, fun t ht => (htags t ht).2,
    Collection.forall_globals_iff.mpr ⟨?_, ?_⟩⟩
  · exact hes.attributes.forall_mem fun _ _ => builtIn_readAttribute
  · exact hes.events.forall_mem fun _ _ => builtIn_readEvent

end Document

namespace UserData

theorem exists_parse_of_load {t : FileTree} {v : Value} {c : Collection}
    (h : Source.load t v = .ok c) : ∃ w, Document.parse w = .ok c := by
  obtain ⟨w, -, hw⟩ := Source.load_eq_ok_iff.mp h
  exact ⟨w, hw⟩

theorem exists_parse_of_mem_loaded {t : FileTree} {sources : List Value} {s : Collection}
    (hs : s ∈ loaded t sources) : ∃ w, Document.parse w = .ok s := by
  obtain ⟨v, -, hv⟩ := List.mem_filterMap.mp hs
  exact exists_parse_of_load (toOption_eq_some_iff.mp hv)

theorem flagged_loaded {t : FileTree} {sources : List Value} :
    ∀ s ∈ loaded t sources, s.Flagged false := by
  intro s hs
  obtain ⟨w, hw⟩ := exists_parse_of_mem_loaded hs
  exact Document.flagged_parse hw

theorem flagged_listed (config : Config) : (listed config).Flagged false where
  tags u hu := by
    obtain ⟨n, -, rfl⟩ := List.mem_map.mp hu
    rfl
  members u hu kind m hm := by
    obtain ⟨n, -, rfl⟩ := List.mem_map.mp hu
    cases kind <;> simp [Tag.members] at hm
  globals kind m hm := by
    rw [globals_listed] at hm
    obtain ⟨n, -, rfl⟩ := List.mem_map.mp hm
    rfl

end UserData

namespace Builtin

theorem builtIn_backfill (r : Resolver) (m : Member) : (backfill r m).builtIn = m.builtIn := by
  unfold backfill
  split <;> rfl

theorem flagged_mark (r : Resolver) (c : Collection) : (mark r c).Flagged true where
  tags t ht := by
    obtain ⟨u, -, rfl⟩ := List.mem_map.mp ht
    rfl
  members t ht := by
    obtain ⟨u, -, rfl⟩ := List.mem_map.mp ht
    rw [Tag.forall_members_iff]
    simp [markTag, markMember, builtIn_backfill]
  globals := by
    rw [Collection.forall_globals_iff]
    simp [mark, markMember, builtIn_backfill]

theorem flagged_collection (r : Resolver) (ps : List Patch) : (collection r ps).Flagged true := by
  obtain ⟨-, d, -, -, h⟩ := exists_collection_eq r ps
  rw [h]
  exact Collection.flagged_merge (by simp [flagged_mark])

end Builtin

namespace Catalog

open UserData

/-- Which entities of a collection `c` are built in, if `c` is made of the built-in collection, the
settings and some sources: those that neither a source declares nor the settings list. A source
that declares a tag takes the flag from the tag, and from no member that no source declares. -/
structure Provenance (builtin : Collection) (config : Config) (sources : List Collection)
    (c : Collection) : Prop where
  tag : ∀ tag ∈ c.tags, tag.builtIn = true ↔
    tag.name ∈ builtin.tags.map (·.name) ∧
      (∀ s ∈ sources, tag.name ∉ s.tags.map (·.name)) ∧ tag.name ∉ config.tags
  global : ∀ kind, ∀ m ∈ c.globals kind, m.builtIn = true ↔
    m.name ∈ (builtin.globals kind).map (·.name) ∧
      (∀ s ∈ sources, m.name ∉ (s.globals kind).map (·.name)) ∧
      m.name ∉ listedNames config kind
  member : ∀ tag ∈ c.tags, ∀ kind, ∀ m ∈ tag.members kind, m.builtIn = true ↔
    (builtin.member? (.ofTag tag.name kind m.name)).isSome ∧
      ∀ s ∈ sources, s.declarations (.ofTag tag.name kind m.name) = []
  redeclared : ∀ tag ∈ builtin.tags, (∃ s ∈ sources, tag.name ∈ s.tags.map (·.name)) →
    ∃ u ∈ c.tags, u.name = tag.name ∧ u.builtIn = false ∧
      ∀ kind, ∀ m ∈ tag.members kind,
        (∀ s ∈ sources, s.declarations (.ofTag tag.name kind m.name) = []) →
          ∃ n ∈ u.members kind, n.name = m.name ∧ n.builtIn = true

/-- A built-in collection with the settings and some sources merged into it has this provenance. -/
theorem provenance_merge {builtin : Collection} {config : Config} {sources : List Collection}
    (hbuiltin : ∃ cs, builtin = Collection.merge cs) (hflag : builtin.Flagged true)
    (hsources : ∀ s ∈ sources, s.Flagged false) :
    Provenance builtin config sources
      (Collection.merge (builtin :: listed config :: sources)) := by
  have husers : ∀ u ∈ listed config :: sources, u.Flagged false :=
    List.forall_mem_cons.mpr ⟨flagged_listed config, hsources⟩
  have hlayers := layered_merge hbuiltin config sources
  have htag : ∀ tag ∈ (Collection.merge (builtin :: listed config :: sources)).tags,
      tag.builtIn = true ↔ tag.name ∈ builtin.tags.map (·.name) ∧
        (∀ s ∈ sources, tag.name ∉ s.tags.map (·.name)) ∧ tag.name ∉ config.tags := by
    intro tag h
    rw [Collection.builtIn_tag_iff_of_flagged hflag husers h, List.forall_mem_cons,
      names_tags_listed, and_comm (a := tag.name ∉ config.tags)]
  have hmember : ∀ tag ∈ (Collection.merge (builtin :: listed config :: sources)).tags,
      ∀ kind, ∀ m ∈ tag.members kind, m.builtIn = true ↔
        (builtin.member? (.ofTag tag.name kind m.name)).isSome ∧
          ∀ s ∈ sources, s.declarations (.ofTag tag.name kind m.name) = [] := by
    intro tag h kind m hm
    have hfound := Collection.member?_of_mem_merge (Collection.mem_declarations_ofTag h hm)
    rw [Collection.builtIn_member_iff_of_flagged hflag husers hfound, List.forall_mem_cons,
      declarations_listed_ofTag]
    obtain ⟨cs, rfl⟩ := hbuiltin
    rw [Collection.declarations_merge_ne_nil]
    simp
  refine ⟨htag, ?_, hmember, ?_⟩
  · intro kind m hm
    have hfound := Collection.member?_of_mem_merge (Collection.mem_declarations_ofGlobal hm)
    rw [Collection.builtIn_member_iff_of_flagged hflag husers hfound, List.forall_mem_cons]
    simp only [ne_eq, Collection.declarations_ofGlobal_eq_nil_iff, names_globals_listed,
      not_not]
    tauto
  · intro tag h ⟨s, hs, hname⟩
    obtain ⟨u, hu, hun⟩ := List.mem_map.mp ((hlayers.tags tag.name).mpr
      (.inr (.inr ⟨s, hs, hname⟩)))
    refine ⟨u, hu, hun, ?_, fun kind m hm hnone => ?_⟩
    · rw [← Bool.not_eq_true, htag u hu, hun]
      exact fun h => h.2.1 s hs hname
    · have hsome : (builtin.member? (.ofTag tag.name kind m.name)).isSome := by
        obtain ⟨cs, rfl⟩ := hbuiltin
        exact Collection.declarations_merge_ne_nil.mp
          (List.ne_nil_of_mem (Collection.mem_declarations_ofTag h hm))
      rw [← hun] at hsome hnone
      obtain ⟨n, hn, hnn⟩ := List.mem_map.mp ((hlayers.members u hu kind m.name).mpr (.inl hsome))
      refine ⟨n, hn, hnn, (hmember u hu kind n hn).mpr ?_⟩
      rw [hnn]
      exact ⟨hsome, hnone⟩

/-- The build gives a collection with this provenance, and the same collection whichever sources
that fail are left out or added. -/
def GivesProvenance (t : FileTree) (config : Config) : Prop :=
  ∃ c, (build t config true).value = .ok c ∧
    Provenance Builtin.standard.value config (loaded t config.sources) c ∧
    ∀ sources, loadable t sources = loadable t config.sources →
      (∀ v ∈ sources, v.isWritable = true ∨ ∃ es, v = .map es) →
      (build t { config with customHtmlData := .list sources } true).value = .ok c

variable {t : FileTree} {config : Config}

theorem givesProvenance_of_labels (h : ∀ v ∈ config.sources, (Source.label? v).isSome) :
    GivesProvenance t config := by
  refine ⟨_, build_of_labels h, ?_, ?_⟩
  · have hflag : Builtin.standard.value.Flagged true := by
      rw [Builtin.standard, Builtin.build_value]
      exact Builtin.flagged_collection .standard Patch.all
    have hbase := exists_base_eq_merge true
    rw [layers]
    rw [base_true] at hbase ⊢
    exact provenance_merge hbase hflag flagged_loaded
  · intro sources hsame hwritable
    have hother : ∀ v ∈ ({ config with customHtmlData := .list sources } : Config).sources,
        (Source.label? v).isSome := fun v hv => label?_isSome_iff.mpr (hwritable v hv)
    have hloaded : loaded t sources = loaded t config.sources := by
      rw [← loaded_loadable t sources, hsame, loaded_loadable]
    rw [build_of_labels hother, layers, layers, ← hloaded]
    rfl

/-- The catalogue is built, with the flags as they should be, exactly when every source is a map or
holds no number that is too long to be written. If one is neither, the build ends with a fault
about such a source. -/
theorem givesProvenance_iff_isWritable (t : FileTree) (config : Config) :
    (GivesProvenance t config ↔
        ∀ v ∈ config.sources, v.isWritable = true ∨ ∃ es, v = .map es) ∧
      (¬ GivesProvenance t config →
        ∃ v ∈ config.sources, (build t config true).value = .error (.unwritable v)) := by
  refine iff_isWritable_of_labels givesProvenance_of_labels build_of_no_label ?_
  rintro ⟨c, hc, -⟩
  exact ⟨c, hc⟩

/-- A long number for a source, which could not change a flag, keeps the catalogue with all its
flags from being built. -/
theorem not_givesProvenance_longNumberOnly :
    (∃ v, (build emptyTree longNumberOnly true).value = .error (.unwritable v)) ∧
      ¬ GivesProvenance emptyTree longNumberOnly := by
  refine ⟨build_longNumberOnly true, ?_⟩
  rintro ⟨c, hc, -⟩
  obtain ⟨v, herror⟩ := build_longNumberOnly true
  rw [herror] at hc
  exact nomatch hc

end Catalog
end HtmlCatalog
