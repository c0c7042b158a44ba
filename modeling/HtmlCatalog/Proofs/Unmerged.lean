import HtmlCatalog.Document
import HtmlCatalog.Proofs.Lookup

/-! Look-ups before and after merging. A collection finds its tags and global members from the end,
so that of several with one name it finds the one that wins when they are merged. A tag finds its
members from the start, and so may find another type than the merged tag has. In a merged
collection every name stands once, and whatever stands there is found under its own name. -/
namespace HtmlCatalog

open Summary

def Tag.lastMember? (t : Tag) (kind : MemberKind) (name : String) : Option Member :=
  (t.members kind).reverse.find? (·.name == name)

theorem Tag.lastMember?_eq_getLast? (t : Tag) (kind : MemberKind) (name : String) :
    t.lastMember? kind name = ((t.members kind).filter (·.name == name)).getLast? :=
  List.getLast?_filter.symm

theorem Tag.isSome_lastMember? (t : Tag) (kind : MemberKind) (name : String) :
    (t.lastMember? kind name).isSome = (t.member? kind name).isSome := by
  rw [Bool.eq_iff_iff, Tag.member?_eq_find?, Tag.lastMember?, List.find?_isSome, List.find?_isSome]
  simp only [List.mem_reverse]

/-- Where every key stands once, it makes no difference from which end it is looked for. -/
theorem Merge.find?_reverse_of_nodup {α : Type} {key : α → String} {xs : List α}
    (h : (xs.map key).Nodup) (k : String) :
    xs.reverse.find? (key · == k) = xs.find? (key · == k) := by
  have hkept : byKey key (fun x _ => x) xs = xs := byKey_of_nodup h
  have hlast := find?_reverse_byKey (fun x _ => rfl : ∀ x y, key ((fun x _ => x) x y) = key x) k xs
  have hfirst := find?_byKey (fun x _ => rfl : ∀ x y, key ((fun x _ => x) x y) = key x) k xs
  rw [hkept] at hlast hfirst
  exact hlast.trans hfirst.symm

theorem Tag.lastMember?_eq_member? {t : Tag} {kind : MemberKind}
    (h : ((t.members kind).map (·.name)).Nodup) (name : String) :
    t.lastMember? kind name = t.member? kind name := by
  rw [Tag.member?_eq_find?, Tag.lastMember?, Merge.find?_reverse_of_nodup h]

namespace Collection

variable {c : Collection} {tag : Tag} {kind : MemberKind} {m : Member} {tagName name : String}

theorem tag?_eq_getLast? (c : Collection) (name : String) :
    c.tag? name = (c.tags.filter (·.name == name)).getLast? :=
  List.getLast?_filter.symm

theorem global?_eq_getLast? (c : Collection) (kind : MemberKind) (name : String) :
    c.global? kind name = (c.declarations (.ofGlobal kind name)).getLast? := by
  cases kind
  · exact List.getLast?_filter.symm
  · rfl
  · exact List.getLast?_filter.symm

theorem member?_ofTag (h : c.tag? tagName = some tag) :
    c.member? (.ofTag tagName kind name) = tag.member? kind name := by
  simp only [member?, Key.ofTag, h, Option.bind_some]

theorem type_global?_merge (cs : List Collection) (kind : MemberKind) (name : String) :
    ((merge cs).global? kind name).map (·.type) =
      ((combine cs).global? kind name).map (·.type) := by
  have hlast := type_member?_merge cs (.ofGlobal kind name)
  rw [lastDeclaration_eq_getLast?, ← declarations_combine, ← global?_eq_getLast?] at hlast
  exact hlast

theorem tag?_merge_eq_none_iff (cs : List Collection) (name : String) :
    (merge cs).tag? name = none ↔ (combine cs).tag? name = none := by
  rw [tag?_merge, tag?_eq_getLast?, List.getLast?_eq_none_iff, combine]
  cases (cs.flatMap (·.tags)).filter (·.name == name) <;> simp

/-- If the last tag of a name has a member, then the last of its declarations there is the last one
in all tags of the name. -/
theorem getLast?_declarations_ofTag (htag : c.tag? tagName = some tag)
    (hm : (tag.member? kind name).isSome) :
    (c.declarations (.ofTag tagName kind name)).getLast? = tag.lastMember? kind name := by
  rw [tag?_eq_getLast?] at htag
  obtain ⟨earlier, htags⟩ := List.getLast?_eq_some_iff.mp htag
  have hdeclarations : c.declarations (.ofTag tagName kind name) =
      (earlier.flatMap (·.members kind)).filter (·.name == name) ++
        (tag.members kind).filter (·.name == name) := by
    simp only [declarations, membersAt, Key.ofTag, htags, List.flatMap_append,
      List.flatMap_singleton, List.filter_append]
  rw [hdeclarations, List.getLast?_append, ← Tag.lastMember?_eq_getLast?]
  rw [← Tag.isSome_lastMember?] at hm
  exact Option.or_of_isSome hm

theorem type_member?_merge_of_tag? (htag : c.tag? tagName = some tag)
    (hm : (tag.member? kind name).isSome) :
    ((merge [c]).member? (.ofTag tagName kind name)).map (·.type) =
      (tag.lastMember? kind name).map (·.type) := by
  rw [type_member?_merge, lastDeclaration_eq_getLast?, List.flatMap_singleton,
    getLast?_declarations_ofTag htag hm]

/-- A member is found with the type that it has once the collection is merged. -/
def FoundAsMerged (c : Collection) (k : Key) : Prop :=
  (c.member? k).map (·.type) = ((merge [c]).member? k).map (·.type)

theorem foundAsMerged_ofGlobal (c : Collection) (kind : MemberKind) (name : String) :
    c.FoundAsMerged (.ofGlobal kind name) := by
  have h := type_global?_merge [c] kind name
  rw [combine_singleton] at h
  exact h.symm

/-- In the last tag of a name, a member is found with the type of the merged one exactly if its
first and its last declaration agree, as they do if the names are distinct. The merged type is that
of the last declaration, so that looking from the end would always find it; global members, which
are looked for from the end, are always found with the type of the merged ones. -/
theorem foundAsMerged_ofTag_iff (htag : c.tag? tagName = some tag)
    (hm : (tag.member? kind name).isSome) :
    (c.FoundAsMerged (.ofTag tagName kind name) ↔
        (tag.member? kind name).map (·.type) = (tag.lastMember? kind name).map (·.type)) ∧
      (((tag.members kind).map (·.name)).Nodup → c.FoundAsMerged (.ofTag tagName kind name)) ∧
      ((merge [c]).member? (.ofTag tagName kind name)).map (·.type) =
        (tag.lastMember? kind name).map (·.type) ∧
      ∀ kind name, c.FoundAsMerged (.ofGlobal kind name) := by
  have hmerged := type_member?_merge_of_tag? htag hm
  have hfound : c.FoundAsMerged (.ofTag tagName kind name) ↔
      (tag.member? kind name).map (·.type) = (tag.lastMember? kind name).map (·.type) := by
    rw [FoundAsMerged, hmerged, member?_ofTag htag]
  refine ⟨hfound, fun hnodup => hfound.mpr ?_, hmerged, foundAsMerged_ofGlobal c⟩
  rw [Tag.lastMember?_eq_member? hnodup]

/-- A tag that declares one attribute several times, with these types. -/
def fieldTag (types : List ValueType) : Tag where
  name := "x-field"
  attributes := types.map fun type => { name := "size", type, fromTag := some "x-field" }

def fields (types : List ValueType) : Collection where
  tags := [fieldTag [.boolean], fieldTag types]

theorem foundAsMerged_ofTag_iff_fields :
    (fields [.number, .string, .number]).tag? "x-field" =
        some (fieldTag [.number, .string, .number]) ∧
      ((fieldTag [.number, .string, .number]).member? .attribute "size").isSome ∧
      (fields [.number, .string, .number]).FoundAsMerged (.ofTag "x-field" .attribute "size") ∧
      (fields [.number]).FoundAsMerged (.ofTag "x-field" .attribute "size") := by
  have hthrice : (fields [.number, .string, .number]).tag? "x-field" =
      some (fieldTag [.number, .string, .number]) := rfl
  have honce : (fields [.number]).tag? "x-field" = some (fieldTag [.number]) := rfl
  refine ⟨hthrice, rfl, ?_, ?_⟩
  · exact (foundAsMerged_ofTag_iff hthrice rfl).1.mpr rfl
  · exact (foundAsMerged_ofTag_iff honce rfl).2.1 (by decide)

/-- A document with two tags of one name, the second of which declares an attribute twice. -/
def fieldDocument : Value :=
  .map [(.str "version", .int 1), (.str "tags", .list [
    .map [(.str "name", .str "x-field"), (.str "attributes", .list [
      .map [(.str "name", .str "size"), (.str "type", .str "boolean")]])],
    .map [(.str "name", .str "x-field"), (.str "attributes", .list [
      .map [(.str "name", .str "size"), (.str "type", .str "number")],
      .map [(.str "name", .str "size"), (.str "type", .str "string")]])]])]

/-- The first declaration of the tag is found, and the last one wins. -/
theorem not_foundAsMerged_fields :
    Document.parse fieldDocument = .ok (fields [.number, .string]) ∧
      ((fields [.number, .string]).member? (.ofTag "x-field" .attribute "size")).map (·.type) =
        some .number ∧
      ((merge [fields [.number, .string]]).member?
        (.ofTag "x-field" .attribute "size")).map (·.type) = some .string ∧
      ¬ (fields [.number, .string]).FoundAsMerged (.ofTag "x-field" .attribute "size") := by
  refine ⟨rfl, rfl, rfl, ?_⟩
  intro h
  exact absurd (Option.some.inj h) (by simp)

theorem member?_eq_of_mem_merge {cs : List Collection} (htag : tag ∈ (merge cs).tags)
    (hm : m ∈ tag.members kind) : tag.member? kind m.name = some m := by
  have hfound := member?_of_mem_merge (mem_declarations_ofTag htag hm)
  rwa [member?_ofTag (tag?_of_mem_merge htag)] at hfound

theorem global?_eq_of_mem_merge {cs : List Collection} (hm : m ∈ (merge cs).globals kind) :
    (merge cs).global? kind m.name = some m :=
  member?_of_mem_merge (mem_declarations_ofGlobal hm)

/-- Collections that are only put together answer like the merged one: the same tags are there, and
the same global attributes and events with the same types. In the merged one every tag, every global
attribute and event, and every member of a tag is what is found under its name. -/
theorem lookups_of_merge (cs : List Collection) :
    (∀ name, ((combine cs).attribute? name).map (·.type) =
        ((merge cs).attribute? name).map (·.type)) ∧
      (∀ name, ((combine cs).event? name).map (·.type) =
        ((merge cs).event? name).map (·.type)) ∧
      (∀ name, (combine cs).tag? name = none ↔ (merge cs).tag? name = none) ∧
      (∀ tag ∈ (merge cs).tags, (merge cs).tag? tag.name = some tag ∧
        (∀ m ∈ tag.attributes, tag.attribute? m.name = some m) ∧
        (∀ m ∈ tag.properties, tag.property? m.name = some m) ∧
        ∀ m ∈ tag.events, tag.event? m.name = some m) ∧
      (∀ m ∈ (merge cs).attributes, (merge cs).attribute? m.name = some m) ∧
      ∀ m ∈ (merge cs).events, (merge cs).event? m.name = some m := by
  refine ⟨fun name => ?_, fun name => ?_, fun name => ?_, fun tag htag => ?_, ?_, ?_⟩
  · exact (type_global?_merge cs .attribute name).symm
  · exact (type_global?_merge cs .event name).symm
  · exact (tag?_merge_eq_none_iff cs name).symm
  · have hmembers : ∀ kind, ∀ m ∈ tag.members kind, tag.member? kind m.name = some m :=
      fun kind m hm => member?_eq_of_mem_merge htag hm
    exact ⟨tag?_of_mem_merge htag, hmembers .attribute, hmembers .property, hmembers .event⟩
  · exact fun m (hm : m ∈ (merge cs).globals .attribute) => global?_eq_of_mem_merge hm
  · exact fun m (hm : m ∈ (merge cs).globals .event) => global?_eq_of_mem_merge hm

def forms : List Collection :=
  [{ tags := [fieldTag [.number, .string]], attributes := [{ name := "theme", type := .any }],
     events := [{ name := "press", type := .any, kind := .event }] },
    { tags := [fieldTag [.boolean]], attributes := [{ name := "theme", type := .string }],
      events := [{ name := "press", type := .string, kind := .event }] }]

theorem lookups_of_merge_forms :
    (∃ tag ∈ (merge forms).tags, ∃ m ∈ tag.attributes, m.type = .boolean ∧
      (merge forms).tag? "x-field" = some tag ∧ tag.attribute? "size" = some m) ∧
    (∃ m ∈ (merge forms).attributes, m.type = .string ∧
      (merge forms).attribute? "theme" = some m) ∧
    ∃ m ∈ (merge forms).events, m.type = .string ∧ (merge forms).event? "press" = some m := by
  obtain ⟨-, -, -, htags, hattributes, hevents⟩ := lookups_of_merge forms
  have htag : fieldTag [.boolean] ∈ (merge forms).tags := by decide
  obtain ⟨hfound, hmembers, -⟩ := htags _ htag
  have hm : (⟨"theme", .string, .attribute, false, .null, none⟩ : Member) ∈
      (merge forms).attributes := by decide
  have he : (⟨"press", .string, .event, false, .null, none⟩ : Member) ∈
      (merge forms).events := by decide
  exact ⟨⟨_, htag, _, List.mem_singleton_self _, rfl, hfound,
      hmembers _ (List.mem_singleton_self _)⟩,
    ⟨_, hm, rfl, hattributes _ hm⟩, ⟨_, he, rfl, hevents _ he⟩⟩

end Collection
end HtmlCatalog
