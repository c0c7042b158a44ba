import HtmlCatalog.Patch
import HtmlCatalog.Proofs.Declared
import HtmlCatalog.Proofs.Grammar

/-! What a sequence of patches adds. Every place of a collection gets what each patch has for it,
in the order of the patches, and the tags that come from patches get nothing. No two patches add to
the same place, except that two of them add tags, of different names. So the order of the patches
can only be seen in the places of these tags, and to repeat the patches adds nothing new. -/
namespace HtmlCatalog
namespace Patch

open Document

def IsHandler (v : Value) : Prop := MapOf (fun es => IsText (Value.field es "name")) v

theorem succeeds_handledEvent {v : Value} : Succeeds (handledEvent v) ↔ IsHandler v := by
  cases v with
  | map es =>
    simp only [handledEvent, IsHandler, MapOf, IsText, Value.map.injEq, exists_eq_left',
      Value.field]
    cases Value.lookup? es (.str "name") with
    | none => simp
    | some w =>
      cases w with
      | scalar s => cases s <;> simp
      | _ => simp
  | _ => simp [handledEvent, IsHandler, MapOf]

section Additions

def addedTags : Patch → List Tag
  | .svg => [svgTag]
  | .slot => [slotTag]
  | _ => []

def addedAttributes : Patch → List Member
  | .slot => [slotAttribute]
  | _ => []

def addedEvents (events : List Member) : Patch → List Member
  | .globalEvents => events
  | _ => []

def tagAttributes (tagName : String) : Patch → List Member
  | .audioAttributes => if tagName = "audio" then audioMembers else []
  | .videoAttributes => if tagName = "video" then videoMembers else []
  | _ => []

def tagProperties (tagName : String) : Patch → List Member
  | .textareaValue => if tagName = "textarea" then [valueProperty "textarea"] else []
  | .inputValue => if tagName = "input" then [valueProperty "input"] else []
  | _ => []

/-- The tag with all members that the patches have for its name. -/
def extendTag (ps : List Patch) (t : Tag) : Tag :=
  { t with
    attributes := t.attributes ++ ps.flatMap (tagAttributes t.name)
    properties := t.properties ++ ps.flatMap (tagProperties t.name) }

/-- The collection with everything that the patches add, if the handler attributes stand for
`events`. -/
def extend (events : List Member) (ps : List Patch) (c : Collection) : Collection where
  tags := c.tags.map (extendTag ps) ++ ps.flatMap addedTags
  attributes := c.attributes ++ ps.flatMap addedAttributes
  events := c.events ++ ps.flatMap (addedEvents events)

@[simp] theorem extendTag_name (ps : List Patch) (t : Tag) : (extendTag ps t).name = t.name := rfl

variable {events : List Member} {ps qs : List Patch} {c : Collection}

theorem extendTag_cons (p : Patch) (t : Tag) :
    extendTag (p :: ps) t = extendTag ps (extendTag [p] t) := by
  simp [extendTag]

theorem extendTag_eq_self {t : Tag}
    (h : ∀ p ∈ ps, tagAttributes t.name p = [] ∧ tagProperties t.name p = []) :
    extendTag ps t = t := by
  have hattributes : ps.flatMap (tagAttributes t.name) = [] :=
    List.flatMap_eq_nil_iff.mpr fun p hp => (h p hp).1
  have hproperties : ps.flatMap (tagProperties t.name) = [] :=
    List.flatMap_eq_nil_iff.mpr fun p hp => (h p hp).2
  rw [extendTag, hattributes, hproperties, List.append_nil, List.append_nil]

/-- Only tags of two media and of two text fields get members. -/
theorem extendTag_of_notMem {t : Tag} (h : t.name ∉ ["audio", "video", "textarea", "input"]) :
    extendTag ps t = t := by
  refine extendTag_eq_self fun p _ => ?_
  cases p <;> simp_all [tagAttributes, tagProperties]

theorem map_extendTag_addedTags (p : Patch) : (addedTags p).map (extendTag ps) = addedTags p := by
  cases p with
  | svg | slot => exact congrArg ([·]) (extendTag_of_notMem (by decide))
  | _ => rfl

theorem extend_nil : extend events [] c = c := by
  rw [extend, List.map_id'' fun t => extendTag_eq_self (by simp)]
  simp

theorem extend_extend (p : Patch) :
    extend events ps (extend events [p] c) = extend events (p :: ps) c := by
  have htags : ∀ t : Tag, extendTag ps (extendTag [p] t) = extendTag (p :: ps) t :=
    fun t => (extendTag_cons p t).symm
  simp [extend, htags, map_extendTag_addedTags, Function.comp_def]

theorem updateTags_eq_extend {p : Patch} {name : String} {f : Tag → Tag}
    (hf : ∀ t : Tag, (if t.name = name then f t else t) = extendTag [p] t)
    (htags : addedTags p = []) (hattributes : addedAttributes p = [])
    (hevents : addedEvents events p = []) : updateTags name f c = extend events [p] c := by
  simp [updateTags, extend, hf, htags, hattributes, hevents]

theorem apply_eq_extend {handlers : List Value} (h : handlers.mapM handledEvent = .ok events)
    (c : Collection) (p : Patch) : apply handlers c p = .ok (extend events [p] c) := by
  cases p with
  | svg | slot =>
    rw [apply, extend,
      List.map_id'' fun t => extendTag_eq_self (List.forall_mem_singleton.mpr ⟨rfl, rfl⟩)]
    simp [addedTags, addedAttributes, addedEvents]
  | globalEvents =>
    rw [apply, h, extend,
      List.map_id'' fun t => extendTag_eq_self (List.forall_mem_singleton.mpr ⟨rfl, rfl⟩)]
    simp [addedTags, addedAttributes, addedEvents, Except.map]
  | textareaValue | inputValue =>
    refine congrArg Except.ok (updateTags_eq_extend (fun t => ?_) rfl rfl rfl)
    split_ifs with hname <;>
      simp [addProperties, extendTag, tagAttributes, tagProperties, hname]
  | audioAttributes | videoAttributes =>
    refine congrArg Except.ok (updateTags_eq_extend (fun t => ?_) rfl rfl rfl)
    split_ifs with hname <;>
      simp [addAttributes, extendTag, tagAttributes, tagProperties, hname]

theorem applyAll_eq_extend {handlers : List Value} (h : handlers.mapM handledEvent = .ok events)
    (ps : List Patch) (c : Collection) : applyAll handlers ps c = .ok (extend events ps c) := by
  induction ps generalizing c with
  | nil => rw [applyAll_nil, extend_nil]
  | cons p ps ih => rw [applyAll_cons, apply_eq_extend h, Except.bind, ih, extend_extend]

/-- Patches apply if every handler attribute has a text for a name. -/
theorem exists_applyAll_eq_extend {handlers : List Value} (hnamed : ∀ v ∈ handlers, IsHandler v) :
    ∃ events, ∀ ps c, applyAll handlers ps c = .ok (extend events ps c) := by
  obtain ⟨events, h⟩ : Succeeds (handlers.mapM handledEvent) :=
    succeeds_mapM.mpr fun v hv => succeeds_handledEvent.mpr (hnamed v hv)
  exact ⟨events, applyAll_eq_extend h⟩

end Additions

section Order

variable {α : Type} {ps qs : List Patch}

def Alone (f : Patch → List α) : Prop := ∀ p q, f p ≠ [] → f q ≠ [] → p = q

/-- What is added where only one patch adds something does not depend on the order of the
patches. -/
theorem flatMap_eq_of_perm {f : Patch → List α} (hf : Alone f) (h : ps.Perm qs) :
    ps.flatMap f = qs.flatMap f := by
  have hcomm : ∀ p q, f p ++ f q = f q ++ f p := by
    intro p q
    by_cases hp : f p = []
    · simp [hp]
    · by_cases hq : f q = []
      · simp [hq]
      · rw [hf p q hp hq]
  -- On the permutation: to swap two patches changes nothing, as one of the two adds nothing or
  -- they are the same.
  induction h with
  | nil => rfl
  | cons p _ ih => rw [List.flatMap_cons, List.flatMap_cons, ih]
  | swap p q ps =>
    simp only [List.flatMap_cons, ← List.append_assoc]
    rw [hcomm]
  | trans _ _ ih₁ ih₂ => exact ih₁.trans ih₂

theorem alone_addedAttributes : Alone addedAttributes := by
  intro p q hp hq
  cases p <;> cases q <;> simp_all [addedAttributes]

theorem alone_addedEvents (events : List Member) : Alone (addedEvents events) := by
  intro p q hp hq
  cases p <;> cases q <;> simp_all [addedEvents]

theorem alone_tagAttributes (tagName : String) : Alone (tagAttributes tagName) := by
  intro p q hp hq
  cases p <;> cases q <;> simp_all [tagAttributes]

theorem alone_tagProperties (tagName : String) : Alone (tagProperties tagName) := by
  intro p q hp hq
  cases p <;> cases q <;> simp_all [tagProperties]

theorem alone_addedTags (k : String) : Alone fun p => Merge.group Tag.name k (addedTags p) := by
  intro p q hp hq
  rw [ne_eq, Merge.group_eq_nil, not_not] at hp hq
  cases p <;> cases q <;> simp_all [addedTags, svgTag, slotTag]

theorem group_flatMap_addedTags (h : ps.Perm qs) (k : String) :
    Merge.group Tag.name k (ps.flatMap addedTags) =
      Merge.group Tag.name k (qs.flatMap addedTags) := by
  simp only [Merge.group, List.filter_flatMap]
  exact flatMap_eq_of_perm (alone_addedTags k) h

theorem extendTag_eq_of_perm (h : ps.Perm qs) : extendTag ps = extendTag qs := by
  funext t
  rw [extendTag, extendTag, flatMap_eq_of_perm (alone_tagAttributes t.name) h,
    flatMap_eq_of_perm (alone_tagProperties t.name) h]

end Order

section Merged

open Collection

/-- Two collections that differ at most in the places of the tags whose names `c` does not have. -/
structure AgreeOver (c a b : Collection) : Prop where
  attributes : a.attributes = b.attributes
  events : a.events = b.events
  tags : ∃ known added added', a.tags = known ++ added ∧ b.tags = known ++ added' ∧
    added.Perm added' ∧ (∀ t ∈ known, t.name ∈ c.tags.map (·.name)) ∧
    ∀ t ∈ added, t.name ∉ c.tags.map (·.name)

variable {events : List Member} {ps qs : List Patch} {c : Collection}

theorem agreeOver_merge_extend (h : ps.Perm qs) :
    AgreeOver c (merge [extend events ps c]) (merge [extend events qs c]) where
  attributes := by
    simp only [merge, List.flatMap_singleton, extend, flatMap_eq_of_perm alone_addedAttributes h]
  events := by
    simp only [merge, List.flatMap_singleton, extend,
      flatMap_eq_of_perm (alone_addedEvents events) h]
  tags := by
    -- The tags of `c` are extended alike, so that the lists differ in the added tags only.
    have hgroup : ∀ k, Merge.group Tag.name k ((ps.flatMap addedTags).map Tag.tidy) =
        Merge.group Tag.name k ((qs.flatMap addedTags).map Tag.tidy) := by
      intro k
      rw [Tag.group_map_tidy, Tag.group_map_tidy, group_flatMap_addedTags h]
    have hnames : ((c.tags.map (extendTag qs)).map Tag.tidy).map Tag.name =
        c.tags.map (·.name) := by
      simp [Function.comp_def]
    have hmerged := Merge.exists_byKey_append_perm Tag.join_name
      ((c.tags.map (extendTag qs)).map Tag.tidy) hgroup
    simpa only [hnames, merge, List.flatMap_singleton, extend, extendTag_eq_of_perm h, Tag.merge,
      List.map_append] using hmerged

theorem tidy_extendTag_append_self (t : Tag) :
    (extendTag (ps ++ ps) t).tidy = (extendTag ps t).tidy := by
  simp [extendTag, Tag.tidy]

theorem merge_extend_append_self :
    merge [extend events (ps ++ ps) c] = merge [extend events ps c] := by
  -- What a tag has twice goes as soon as it is tidied, before tags are joined by name.
  have htags : (c.tags.map (extendTag (ps ++ ps))).map Tag.tidy =
      (c.tags.map (extendTag ps)).map Tag.tidy := by
    simp [tidy_extendTag_append_self]
  simp only [merge, List.flatMap_singleton, extend, List.flatMap_append,
    Member.merge_append_append_self, Tag.merge_append_append_self]
  rw [Tag.merge, List.map_append, htags, ← List.map_append, ← Tag.merge]

/-- The patches are independent of each other, and to apply them once more changes nothing. -/
theorem merge_applyAll_independent (c : Collection) {handlers : List Value}
    (hnamed : ∀ v ∈ handlers, IsHandler v) :
    (∀ ps qs : List Patch, ps.Perm qs →
      ∃ d e, applyAll handlers ps c = .ok d ∧ applyAll handlers qs c = .ok e ∧
        AgreeOver c (merge [d]) (merge [e])) ∧
      ∀ ps : List Patch, ∃ d e, applyAll handlers ps c = .ok d ∧
        applyAll handlers (ps ++ ps) c = .ok e ∧ merge [e] = merge [d] := by
  obtain ⟨events, h⟩ := exists_applyAll_eq_extend hnamed
  simp only [h]
  refine ⟨fun ps qs hperm => ⟨_, _, rfl, rfl, agreeOver_merge_extend hperm⟩, fun ps => ?_⟩
  exact ⟨_, _, rfl, rfl, merge_extend_append_self⟩

/-- Two tags of one name, of which the first has an attribute that a patch adds as well. -/
def twoVideos : Collection where
  tags := [{ name := "video", attributes := [{ name := "controlslist", type := .any }] },
    { name := "video" }]

/-- Handler attributes that stand for one event. -/
def clickHandlers : List Value :=
  [.map [(.str "name", .str "onclick")], .map [(.str "name", .str "click")]]

theorem isHandler_clickHandlers : ∀ v ∈ clickHandlers, IsHandler v := by
  simp only [clickHandlers, List.forall_mem_cons]
  exact ⟨⟨_, rfl, _, rfl⟩, ⟨_, rfl, _, rfl⟩, by simp⟩

theorem merge_applyAll_independent_videos :
    (∀ v ∈ clickHandlers, IsHandler v) ∧
      [videoAttributes, svg, globalEvents, slot].Perm [slot, globalEvents, videoAttributes, svg] ∧
      (∃ d e, applyAll clickHandlers [videoAttributes, svg, globalEvents, slot] twoVideos = .ok d ∧
        applyAll clickHandlers [slot, globalEvents, videoAttributes, svg] twoVideos = .ok e ∧
        AgreeOver twoVideos (merge [d]) (merge [e])) ∧
      ∃ d e, applyAll clickHandlers [videoAttributes, globalEvents] twoVideos = .ok d ∧
        applyAll clickHandlers [videoAttributes, globalEvents, videoAttributes, globalEvents]
          twoVideos = .ok e ∧ merge [e] = merge [d] :=
  ⟨isHandler_clickHandlers, by decide,
    (merge_applyAll_independent twoVideos isHandler_clickHandlers).1 _ _ (by decide),
    (merge_applyAll_independent twoVideos isHandler_clickHandlers).2
      [videoAttributes, globalEvents]⟩

end Merged

end Patch
end HtmlCatalog
