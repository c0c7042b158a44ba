import HtmlCatalog.Proofs.Lookup

/-! What merging leaves as it is. A tag that is met alone is joined to itself without its members,
and comes out the same exactly if the names in it are distinct. So the collections that merging does
not change are those in which every name stands once, and no others ever come out of merging. -/
namespace HtmlCatalog

theorem Merge.byKey_eq_self_iff {α : Type} {key : α → String} {join : α → α → α}
    (hkey : ∀ x y, key (join x y) = key x) {xs : List α} :
    byKey key join xs = xs ↔ (xs.map key).Nodup := by
  refine ⟨fun h => ?_, byKey_of_nodup⟩
  rw [← h]
  exact nodup_keys_byKey hkey xs

theorem Member.merge_eq_self_iff {ms : List Member} :
    merge ms = ms ↔ (ms.map (·.name)).Nodup := Merge.byKey_eq_self_iff join_name

theorem Slot.merge_eq_self_iff {ss : List Slot} :
    merge ss = ss ↔ (ss.map (·.name)).Nodup := Merge.byKey_eq_self_iff join_name

namespace Tag

/-- The tag without its members and slots. -/
def bare (t : Tag) : Tag := { t with attributes := [], properties := [], events := [], slots := [] }

/-- Every name stands once among the members of a kind and the slots of the tag. -/
structure Distinct (t : Tag) : Prop where
  members : ∀ kind, ((t.members kind).map (·.name)).Nodup
  slots : (t.slots.map (·.name)).Nodup

/-- To tidy a tag is to join it to its bare form. -/
theorem bare_join (t : Tag) : t.bare.join t = t.tidy := by
  simp [bare, join, tidy]

theorem tidy_eq_self_iff {t : Tag} : t.tidy = t ↔ t.Distinct := by
  constructor
  · intro h
    have hslots : Slot.merge t.slots = t.slots := congrArg slots h
    refine ⟨fun kind => ?_, Slot.merge_eq_self_iff.mp hslots⟩
    rw [← Member.merge_eq_self_iff, ← members_tidy, h]
  · intro h
    refine eq_of_members rfl (fun kind => ?_) (Slot.merge_eq_self_iff.mpr h.slots) rfl rfl
    rw [members_tidy, Member.merge_eq_self_iff.mpr (h.members kind)]

end Tag

namespace Collection

variable {c : Collection}

theorem Distinct.map_tidy (h : c.Distinct) : c.tags.map Tag.tidy = c.tags := by
  have htidy : ∀ t ∈ c.tags, t.tidy = t := by
    intro t ht
    exact Tag.tidy_eq_self_iff.mpr ⟨h.members t ht, h.slots t ht⟩
  rw [List.map_congr_left htidy, List.map_id']

theorem Distinct.merge_singleton (h : c.Distinct) : merge [c] = c := by
  have htags : Tag.merge c.tags = c.tags := by
    rw [Tag.merge, h.map_tidy]
    exact Merge.byKey_of_nodup h.tags
  have hattributes : Member.merge c.attributes = c.attributes :=
    Member.merge_eq_self_iff.mpr (h.globals .attribute)
  have hevents : Member.merge c.events = c.events :=
    Member.merge_eq_self_iff.mpr (h.globals .event)
  simp only [merge, List.flatMap_singleton, htags, hattributes, hevents]

/-- A collection is not changed by merging it exactly when every name in it stands once, and only
such collections come out of merging. A tag by itself is kept in every part under the same
condition. -/
theorem merge_singleton_eq_self_iff (c : Collection) :
    (merge [c] = c ↔ c.Distinct) ∧ ((∃ cs, merge cs = c) ↔ c.Distinct) ∧
      ∀ t : Tag, t.bare.join t = t ↔ t.Distinct := by
  have hmerged : (∃ cs, merge cs = c) → c.Distinct := by
    rintro ⟨cs, rfl⟩
    exact distinct_merge cs
  refine ⟨⟨fun h => hmerged ⟨[c], h⟩, Distinct.merge_singleton⟩,
    ⟨hmerged, fun h => ⟨[c], h.merge_singleton⟩⟩, fun t => ?_⟩
  rw [Tag.bare_join, Tag.tidy_eq_self_iff]

/-- An empty description is kept. -/
example : merge [{ tags := [{ name := "svg", description := .str "" }] }] =
    { tags := [{ name := "svg", description := .str "" }] } := by decide

end Collection
end HtmlCatalog
