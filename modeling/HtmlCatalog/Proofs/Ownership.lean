import HtmlCatalog.Proofs.BuiltinTypes

/-! Whom members belong to. Every member and slot of a tag names the tag as its owner, a global
member names none, and each is of the kind of the list it stands in. Reading a document sets this
up, patches and marking keep it, and so does merging, since only tags of one name are joined. -/
namespace HtmlCatalog

section Belonging

variable {kind : MemberKind} {owner : Option String} {m n : Member} {t u : Tag}

/-- A member of a kind, with an owner or with none. -/
structure Member.Belongs (kind : MemberKind) (owner : Option String) (m : Member) : Prop where
  kind : m.kind = kind
  owner : m.fromTag = owner

/-- The members and slots of the tag belong to it. -/
structure Tag.Owned (t : Tag) : Prop where
  members : ∀ kind, ∀ m ∈ t.members kind, m.Belongs kind (some t.name)
  slots : ∀ s ∈ t.slots, s.fromTag = some t.name

/-- What stands in a tag belongs to the tag, and what is global to none. -/
structure Collection.Owned (c : Collection) : Prop where
  tags : ∀ t ∈ c.tags, t.Owned
  globals : ∀ kind, ∀ m ∈ c.globals kind, m.Belongs kind none

theorem Merge.forall_absorb {α : Type} {key : α → String} {join : α → α → α} {P : α → Prop}
    (hjoin : ∀ x y, key x = key y → P x → P y → P (join x y)) {x : α} {ys : List α} (hx : P x)
    (hys : ∀ y ∈ ys, P y) : ∀ y ∈ absorb key join x ys, P y := by
  induction ys with
  | nil => simpa [absorb] using hx
  | cons y ys ih =>
    rw [List.forall_mem_cons] at hys
    simp only [absorb]
    split_ifs with h
    · exact List.forall_mem_cons.mpr ⟨hjoin y x h hys.1 hx, hys.2⟩
    · exact List.forall_mem_cons.mpr ⟨hys.1, ih hys.2⟩

/-- What joining two entries with one key preserves is preserved by merging. -/
theorem Merge.forall_byKey {α : Type} {key : α → String} {join : α → α → α} {P : α → Prop}
    (hjoin : ∀ x y, key x = key y → P x → P y → P (join x y)) {xs : List α}
    (h : ∀ x ∈ xs, P x) : ∀ x ∈ byKey key join xs, P x := by
  induction xs using List.reverseRecOn with
  | nil => simp
  | append_singleton xs x ih =>
    rw [List.forall_mem_append, List.forall_mem_singleton] at h
    rw [byKey_concat]
    exact forall_absorb hjoin h.2 (ih h.1)

theorem Member.Belongs.join (hm : m.Belongs kind owner) (hn : n.Belongs kind owner) :
    (m.join n).Belongs kind owner where
  kind := hm.kind
  owner := by rw [Member.join, hm.owner, hn.owner, Merge.laterOwner_self]

theorem Member.forall_belongs_merge {ms : List Member} (h : ∀ m ∈ ms, m.Belongs kind owner) :
    ∀ m ∈ Member.merge ms, m.Belongs kind owner :=
  Merge.forall_byKey (fun _ _ _ => Member.Belongs.join) h

theorem Slot.forall_fromTag_merge {ss : List Slot} (h : ∀ s ∈ ss, s.fromTag = owner) :
    ∀ s ∈ Slot.merge ss, s.fromTag = owner := by
  refine Merge.forall_byKey (fun s r _ hs hr => ?_) h
  rw [Slot.join, hs, hr, Merge.laterOwner_self]

theorem Tag.Owned.join (hname : t.name = u.name) (ht : t.Owned) (hu : u.Owned) :
    (t.join u).Owned where
  members kind := by
    rw [Tag.members_join]
    refine Member.forall_belongs_merge (List.forall_mem_append.mpr ⟨ht.members kind, ?_⟩)
    rw [Tag.join_name, hname]
    exact hu.members kind
  slots := by
    refine Slot.forall_fromTag_merge (List.forall_mem_append.mpr ⟨ht.slots, ?_⟩)
    rw [Tag.join_name, hname]
    exact hu.slots

theorem Tag.Owned.tidy (ht : t.Owned) : t.tidy.Owned where
  members kind := by
    rw [Tag.members_tidy]
    exact Member.forall_belongs_merge (ht.members kind)
  slots := Slot.forall_fromTag_merge ht.slots

theorem Tag.forall_owned_merge {ts : List Tag} (h : ∀ t ∈ ts, t.Owned) :
    ∀ t ∈ Tag.merge ts, t.Owned := by
  refine Merge.forall_byKey (fun _ _ => Tag.Owned.join) fun t ht => ?_
  obtain ⟨u, hu, rfl⟩ := List.mem_map.mp ht
  exact (h u hu).tidy

end Belonging

namespace Collection

variable {cs : List Collection}

theorem owned_merge (h : ∀ c ∈ cs, c.Owned) : (merge cs).Owned where
  tags := by
    refine Tag.forall_owned_merge fun t ht => ?_
    obtain ⟨c, hc, htc⟩ := List.mem_flatMap.mp ht
    exact (h c hc).tags t htc
  globals kind := by
    rw [globals_merge]
    refine Member.forall_belongs_merge fun m hm => ?_
    obtain ⟨c, hc, hmc⟩ := List.mem_flatMap.mp hm
    exact (h c hc).globals kind m hmc

theorem owned_combine (h : ∀ c ∈ cs, c.Owned) : (combine cs).Owned where
  tags t ht := by
    obtain ⟨c, hc, htc⟩ := List.mem_flatMap.mp ht
    exact (h c hc).tags t htc
  globals kind m hm := by
    rw [globals_combine] at hm
    obtain ⟨c, hc, hmc⟩ := List.mem_flatMap.mp hm
    exact (h c hc).globals kind m hmc

end Collection

namespace Document

variable {sets : ValueSets} {version : Version} {kind : MemberKind} {owner : Option String}
  {v : Value} {m : Member}

theorem belongs_readAttribute (h : readAttribute sets kind owner v = .ok m) :
    m.Belongs kind owner := by
  obtain ⟨es, name, type, -, -, -, rfl⟩ := readAttribute_eq_ok_iff.mp h
  exact ⟨rfl, rfl⟩

theorem belongs_readEvent (h : readEvent owner v = .ok m) : m.Belongs .event owner := by
  obtain ⟨es, name, type, -, -, -, rfl⟩ := readEvent_eq_ok_iff.mp h
  exact ⟨rfl, rfl⟩

theorem fromTag_readSlot {tagName : String} {s : Slot} (h : readSlot tagName v = .ok s) :
    s.fromTag = some tagName := by
  simp only [readSlot, bind_eq_ok] at h
  obtain ⟨es, -, name, -, h⟩ := h
  obtain rfl := Except.ok.inj h
  rfl

theorem owned_readTag {t : Tag} (h : readTag sets version v = .ok t) : t.Owned := by
  obtain ⟨es, -, hes⟩ := readTag_eq_ok_iff.mp h
  refine ⟨Tag.forall_members_iff.mpr ⟨?_, ?_, ?_⟩, ?_⟩
  · exact hes.attributes.forall_mem fun _ _ => belongs_readAttribute
  · exact hes.properties.forall_mem fun _ _ => belongs_readAttribute
  · exact hes.events.forall_mem fun _ _ => belongs_readEvent
  · exact hes.slots.forall_mem fun _ _ => fromTag_readSlot

theorem owned_parse {c : Collection} (h : parse v = .ok c) : c.Owned := by
  obtain ⟨es, -, version, sets, hes⟩ := parse_eq_ok_iff.mp h
  refine ⟨hes.tags.forall_mem fun _ _ => owned_readTag,
    Collection.forall_globals_iff.mpr ⟨?_, ?_⟩⟩
  · exact hes.attributes.forall_mem fun _ _ => belongs_readAttribute
  · exact hes.events.forall_mem fun _ _ => belongs_readEvent

end Document

namespace Patch

variable {handlers : List Value} {c d : Collection} {t : Tag} {members : List Member}
  {tagName : String}

theorem owned_addAttributes (ht : t.Owned)
    (h : ∀ m ∈ members, m.Belongs .attribute (some t.name)) : (addAttributes members t).Owned where
  members := Tag.forall_members_iff.mpr
    ⟨List.forall_mem_append.mpr ⟨ht.members .attribute, h⟩, ht.members .property,
      ht.members .event⟩
  slots := ht.slots

theorem owned_addProperties (ht : t.Owned)
    (h : ∀ m ∈ members, m.Belongs .property (some t.name)) : (addProperties members t).Owned where
  members := Tag.forall_members_iff.mpr
    ⟨ht.members .attribute, List.forall_mem_append.mpr ⟨ht.members .property, h⟩,
      ht.members .event⟩
  slots := ht.slots

theorem owned_updateTags {f : Tag → Tag} (h : c.Owned)
    (hf : ∀ t : Tag, t.name = tagName → t.Owned → (f t).Owned) :
    (updateTags tagName f c).Owned where
  tags t ht := by
    obtain ⟨u, hu, rfl⟩ := List.mem_map.mp ht
    split_ifs with hname
    · exact hf u hname (h.tags u hu)
    · exact h.tags u hu
  globals := h.globals

theorem owned_svgTag : svgTag.Owned where
  members := by simp [Tag.forall_members_iff, svgTag]
  slots := by simp [svgTag]

theorem owned_slotTag : slotTag.Owned where
  members := by
    simp only [Tag.forall_members_iff, slotTag, List.forall_mem_cons]
    exact ⟨⟨⟨rfl, rfl⟩, ⟨rfl, rfl⟩, by simp⟩, by simp, ⟨rfl, rfl⟩, by simp⟩
  slots := by simp [slotTag]

theorem belongs_handledEvent {v : Value} {m : Member} (h : handledEvent v = .ok m) :
    m.Belongs .event none := by
  unfold handledEvent at h
  split at h
  · split at h
    · simp at h
    · obtain rfl := Except.ok.inj h
      exact ⟨rfl, rfl⟩
    · simp at h
  · simp at h

/-- A patch gives what it adds the place where it adds it. -/
theorem owned_apply {p : Patch} (h : c.Owned) (hp : apply handlers c p = .ok d) : d.Owned := by
  cases p with
  | svg =>
    obtain rfl := Except.ok.inj hp
    exact ⟨List.forall_mem_append.mpr ⟨h.tags, List.forall_mem_singleton.mpr owned_svgTag⟩,
      h.globals⟩
  | slot =>
    obtain rfl := Except.ok.inj hp
    exact ⟨List.forall_mem_append.mpr ⟨h.tags, List.forall_mem_singleton.mpr owned_slotTag⟩,
      Collection.forall_globals_iff.mpr ⟨List.forall_mem_append.mpr
        ⟨h.globals .attribute, List.forall_mem_singleton.mpr ⟨rfl, rfl⟩⟩, h.globals .event⟩⟩
  | textareaValue | inputValue =>
    obtain rfl := Except.ok.inj hp
    refine owned_updateTags h fun t hname ht => owned_addProperties ht ?_
    rw [hname]
    exact List.forall_mem_singleton.mpr ⟨rfl, rfl⟩
  | audioAttributes =>
    obtain rfl := Except.ok.inj hp
    refine owned_updateTags h fun t hname ht => owned_addAttributes ht ?_
    rw [hname]
    exact List.forall_mem_singleton.mpr ⟨rfl, rfl⟩
  | videoAttributes =>
    obtain rfl := Except.ok.inj hp
    refine owned_updateTags h fun t hname ht => owned_addAttributes ht ?_
    rw [hname]
    exact List.forall_mem_cons.mpr ⟨⟨rfl, rfl⟩, List.forall_mem_singleton.mpr ⟨rfl, rfl⟩⟩
  | globalEvents =>
    obtain ⟨events, hevents, rfl⟩ : ∃ events, handlers.mapM handledEvent = .ok events ∧
        { c with events := c.events ++ events } = d := by
      cases hmap : handlers.mapM handledEvent with
      | error f => simp [apply, hmap, Except.map] at hp
      | ok events => exact ⟨events, rfl, by simpa [apply, hmap, Except.map] using hp⟩
    exact ⟨h.tags, Collection.forall_globals_iff.mpr ⟨h.globals .attribute,
      List.forall_mem_append.mpr
        ⟨h.globals .event, forall_of_mapM_eq_ok (fun _ _ => belongs_handledEvent) hevents⟩⟩⟩

theorem owned_applyAll {ps : List Patch} (h : c.Owned) (hps : applyAll handlers ps c = .ok d) :
    d.Owned := by
  induction ps generalizing c with
  | nil =>
    obtain rfl := Except.ok.inj hps
    exact h
  | cons p ps ih =>
    rw [applyAll_cons] at hps
    obtain ⟨e, he, hd⟩ := bind_eq_ok.mp hps
    exact ih (owned_apply h he) hd

end Patch

namespace Builtin

variable {r : Resolver}

theorem belongs_settle {kind : MemberKind} {owner : Option String} {m : Member}
    (h : m.Belongs kind owner) : (settle r kind m).Belongs kind owner := by
  have hmarked : (markMember m).Belongs kind owner := ⟨h.kind, h.owner⟩
  rcases kind with _ | _ | _
  · simp only [settle, backfill]
    split_ifs
    · exact ⟨hmarked.kind, hmarked.owner⟩
    · exact hmarked
  all_goals exact hmarked

theorem owned_mark {c : Collection} (h : c.Owned) : (mark r c).Owned where
  tags t ht := by
    obtain ⟨u, hu, rfl⟩ := List.mem_map.mp ht
    refine ⟨fun kind m hm => ?_, (h.tags u hu).slots⟩
    rw [members_markTag] at hm
    obtain ⟨n, hn, rfl⟩ := List.mem_map.mp hm
    exact belongs_settle ((h.tags u hu).members kind n hn)
  globals kind m hm := by
    rw [globals_mark] at hm
    obtain ⟨n, hn, rfl⟩ := List.mem_map.mp hm
    exact belongs_settle (h.globals kind n hn)

theorem owned_collection (r : Resolver) (ps : List Patch) : (collection r ps).Owned := by
  obtain ⟨c, d, hc, hd, hb⟩ := exists_collection_eq r ps
  have hpatched : d.Owned := Patch.owned_applyAll (Document.owned_parse hc) hd
  rw [hb]
  exact Collection.owned_merge (List.forall_mem_singleton.mpr (owned_mark hpatched))

end Builtin

namespace UserData

theorem owned_loaded {t : FileTree} {sources : List Value} : ∀ s ∈ loaded t sources, s.Owned := by
  intro s hs
  obtain ⟨w, hw⟩ := exists_parse_of_mem_loaded hs
  exact Document.owned_parse hw

theorem owned_listed (config : Config) : (listed config).Owned where
  tags t ht := by
    obtain ⟨name, -, rfl⟩ := List.mem_map.mp ht
    exact ⟨fun kind => by cases kind <;> simp [Tag.members], by simp⟩
  globals kind m hm := by
    rw [globals_listed] at hm
    obtain ⟨name, -, rfl⟩ := List.mem_map.mp hm
    exact ⟨rfl, rfl⟩

theorem owned_collection {t : FileTree} {config : Config} {c : Collection}
    (h : (collection t config).value = .ok c) : c.Owned := by
  rw [eq_of_collection_eq_ok h]
  refine Collection.owned_combine (List.forall_mem_cons.mpr ⟨owned_listed config, ?_⟩)
  exact List.forall_mem_singleton.mpr (Collection.owned_merge owned_loaded)

end UserData

namespace Catalog

open UserData

theorem owned_base (includeBuiltin : Bool) : (base includeBuiltin).Owned := by
  cases includeBuiltin with
  | false =>
    have hempty : (Collection.merge []).Owned := Collection.owned_merge (by simp)
    exact hempty
  | true =>
    rw [base_true, Builtin.standard, Builtin.build_value]
    exact Builtin.owned_collection .standard Patch.all

/-- In the built-in collection, in what the settings describe, and in the whole catalogue, members
and slots belong where they stand. -/
theorem builds_owned (t : FileTree) (config : Config) :
    (∀ r ps, (Builtin.build r ps).value.Owned) ∧
      (∀ c, (UserData.collection t config).value = .ok c → c.Owned) ∧
      ∀ includeBuiltin c, (build t config includeBuiltin).value = .ok c → c.Owned := by
  refine ⟨fun r ps => ?_, fun c => owned_collection, fun includeBuiltin c hc => ?_⟩
  · rw [Builtin.build_value]
    exact Builtin.owned_collection r ps
  · rw [eq_of_build_eq_ok hc, layers]
    exact Collection.owned_merge (List.forall_mem_cons.mpr
      ⟨owned_base includeBuiltin, List.forall_mem_cons.mpr ⟨owned_listed config, owned_loaded⟩⟩)

/-- Settings that list a tag which their only source declares as well. -/
def linkConfig : Config where
  customHtmlData := Builtin.linkDocument
  tags := ["a", "x-card"]
  attributes := ["data-id"]
  events := ["press"]

theorem builds_owned_linkConfig :
    (∃ c, (UserData.collection emptyTree linkConfig).value = .ok c ∧ c.Owned ∧
        (c.member? (.ofTag "a" .attribute "href")).isSome) ∧
      ∃ c, (build emptyTree linkConfig true).value = .ok c ∧ c.Owned := by
  have hlabels : ∀ v ∈ linkConfig.sources, (Source.label? v).isSome :=
    List.forall_mem_singleton.mpr rfl
  have huser := (collection_of_labels (t := emptyTree) hlabels).1
  have hcatalog : (build emptyTree linkConfig true).value =
      .ok (Collection.merge (layers emptyTree linkConfig true)) := build_of_labels hlabels
  exact ⟨⟨_, huser, (builds_owned emptyTree linkConfig).2.1 _ huser, by decide +kernel⟩,
    ⟨_, hcatalog, (builds_owned emptyTree linkConfig).2.2 true _ hcatalog⟩⟩

end Catalog
end HtmlCatalog
