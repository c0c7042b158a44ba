import HtmlCatalog.Proofs.Patches

/-! What patches leave in place. Whatever patches are applied, a collection goes on with the global
members that it had, and each of its tags stays where it was and is at most given more attributes or
properties behind its own. Which tags are depends on their names alone. -/
namespace HtmlCatalog
namespace Patch

def medium? : Patch → Option String
  | .audioAttributes => some "audio"
  | .videoAttributes => some "video"
  | _ => none

def textField? : Patch → Option String
  | .textareaValue => some "textarea"
  | .inputValue => some "input"
  | _ => none

/-- What patches make of a tag. It gets attributes exactly if one of them is for a medium of its
name, and properties exactly if one is for a text field of its name. -/
structure Extends (ps : List Patch) (t u : Tag) : Prop where
  name : u.name = t.name
  description : u.description = t.description
  builtIn : u.builtIn = t.builtIn
  events : u.events = t.events
  slots : u.slots = t.slots
  attributes : t.attributes <+: u.attributes
  properties : t.properties <+: u.properties
  moreAttributes : u.attributes ≠ t.attributes ↔ ∃ p ∈ ps, p.medium? = some t.name
  moreProperties : u.properties ≠ t.properties ↔ ∃ p ∈ ps, p.textField? = some t.name

/-- What patches make of a collection: every tag stays in its place, and only tags of two media and
of two text fields change at all. -/
structure Appends (ps : List Patch) (c d : Collection) : Prop where
  attributes : c.attributes <+: d.attributes
  events : c.events <+: d.events
  tagCount : c.tags.length ≤ d.tags.length
  tags : ∀ (i : Nat) (t : Tag), c.tags[i]? = some t → ∃ u, d.tags[i]? = some u ∧ Extends ps t u
  otherTags : ∀ (i : Nat) (t : Tag), c.tags[i]? = some t →
    t.name ∉ ["audio", "video", "textarea", "input"] → d.tags[i]? = some t

variable {ps : List Patch} {events : List Member} {c : Collection} {p : Patch} {name : String}

theorem tagAttributes_ne_nil_iff : tagAttributes name p ≠ [] ↔ p.medium? = some name := by
  have haudio : audioMembers ≠ [] := List.cons_ne_nil _ _
  have hvideo : videoMembers ≠ [] := List.cons_ne_nil _ _
  cases p <;> simp [tagAttributes, medium?, haudio, hvideo, eq_comm]

theorem tagProperties_ne_nil_iff : tagProperties name p ≠ [] ↔ p.textField? = some name := by
  cases p <;> simp [tagProperties, textField?, eq_comm]

theorem append_flatMap_ne_self_iff {α β : Type} {f : α → List β} {xs : List α} {ys : List β} :
    ys ++ xs.flatMap f ≠ ys ↔ ∃ x ∈ xs, f x ≠ [] := by
  simp [List.flatMap_eq_nil_iff]

theorem extends_extendTag (ps : List Patch) (t : Tag) : Extends ps t (extendTag ps t) where
  name := rfl
  description := rfl
  builtIn := rfl
  events := rfl
  slots := rfl
  attributes := List.prefix_append _ _
  properties := List.prefix_append _ _
  moreAttributes := by
    simp only [extendTag, append_flatMap_ne_self_iff, tagAttributes_ne_nil_iff]
  moreProperties := by
    simp only [extendTag, append_flatMap_ne_self_iff, tagProperties_ne_nil_iff]

/-- The tags of a collection are extended where they stand, before the tags that come from
patches. -/
theorem getElem?_tags_extend {i : Nat} {t : Tag} (h : c.tags[i]? = some t) :
    (extend events ps c).tags[i]? = some (extendTag ps t) := by
  obtain ⟨hi, -⟩ := List.getElem?_eq_some_iff.mp h
  rw [extend, List.getElem?_append_left (by simpa using hi), List.getElem?_map, h, Option.map_some]

theorem appends_extend (events : List Member) (ps : List Patch) (c : Collection) :
    Appends ps c (extend events ps c) where
  attributes := List.prefix_append _ _
  events := List.prefix_append _ _
  tagCount := by simp [extend]
  tags i t h := ⟨_, getElem?_tags_extend h, extends_extendTag ps t⟩
  otherTags i t h hname := by
    rw [getElem?_tags_extend h, extendTag_of_notMem hname]

/-- Patches apply to every collection, and only append to it. -/
theorem applyAll_appends (c : Collection) {handlers : List Value}
    (hnamed : ∀ v ∈ handlers, IsHandler v) (ps : List Patch) :
    ∃ d, applyAll handlers ps c = .ok d ∧ Appends ps c d := by
  obtain ⟨events, h⟩ := exists_applyAll_eq_extend hnamed
  exact ⟨_, h ps c, appends_extend events ps c⟩

/-- Of two tags of one name each gets what the patch for it has, the one that has such an attribute
already as well. -/
theorem applyAll_appends_videos :
    (∀ v ∈ clickHandlers, IsHandler v) ∧
      ∃ d, applyAll clickHandlers [videoAttributes, svg, globalEvents, inputValue] twoVideos =
          .ok d ∧
        Appends [videoAttributes, svg, globalEvents, inputValue] twoVideos d ∧
        d.tags.map (fun t => (t.name, t.attributes.length)) =
          [("video", 3), ("video", 2), ("svg", 0)] := by
  refine ⟨isHandler_clickHandlers, ?_⟩
  obtain ⟨d, hd, happends⟩ := applyAll_appends twoVideos isHandler_clickHandlers
    [videoAttributes, svg, globalEvents, inputValue]
  refine ⟨d, hd, happends, ?_⟩
  obtain rfl := Except.ok.inj hd
  rfl

end Patch
end HtmlCatalog
