import HtmlCatalog.Proofs.Conflicts
import Mathlib.Data.List.Perm.Basic

/-! The summary as a table with keys. In a merged collection a key has at most one row, and has one
exactly if something is found by looking up its parts; the row then says what is found. When
collections are put together their rows are, though in another order. -/
namespace HtmlCatalog

open Summary

inductive Entity
  | tag (t : Tag)
  | member (m : Member)
  deriving DecidableEq, Repr

/-- The text of the type of an entity; a tag has none. -/
def Entity.typeText : Entity → String
  | .tag _ => ""
  | .member m => m.type.text

def Entity.builtIn : Entity → Bool
  | .tag t => t.builtIn
  | .member m => m.builtIn

def Summary.Key.ofTagAlone (name : String) : Key := ⟨.tag, name, name, .tag⟩

def Summary.Key.row (k : Key) (e : Entity) : Row := ⟨k, e.typeText, e.builtIn⟩

/-- The entity that is found by looking up the parts of a key. Only the key of a tag by itself leads
to a tag. -/
def Collection.entity? (c : Collection) (k : Key) : Option Entity :=
  match k.kind with
  | .tag => if k = .ofTagAlone k.tagName then (c.tag? k.tagName).map .tag else none
  | .member _ => (c.member? k).map .member

namespace Summary

variable {c : Collection} {cs : List Collection} {k : Key}

theorem filter_rows_tags (c : Collection) :
    (rows c).filter (·.key.kind == .tag) = c.tags.map tagRow := by
  have hmembers : ∀ (scope : Scope) (tagName : String) (ms : List Member),
      (ms.map (memberRow scope tagName)).filter (·.key.kind == .tag) = [] := by
    intro scope tagName ms
    rw [List.filter_eq_nil_iff]
    intro r hr
    obtain ⟨m, -, rfl⟩ := List.mem_map.mp hr
    simp [memberRow]
  have htag : ∀ t : Tag, (tagRows t).filter (·.key.kind == .tag) = [tagRow t] := by
    intro t
    rw [tagRows, List.filter_cons_of_pos (by simp [tagRow]), hmembers]
  rw [rows, List.filter_append, hmembers, List.append_nil, List.filter_flatMap]
  simp only [htag]
  exact List.map_eq_flatMap.symm

/-- Among the rows whose keys pass a test are all rows with a key that does. -/
theorem filter_key_filter {p : Key → Bool} (h : p k = true) (rs : List Row) :
    (rs.filter fun r => p r.key).filter (·.key == k) = rs.filter (·.key == k) := by
  rw [List.filter_filter]
  refine List.filter_congr fun r _ => ?_
  by_cases hr : r.key = k
  · simp [hr, h]
  · simp [hr]

theorem filter_eq_map_row {α : Type} {f : α → Row} {e : α → Entity} {rs : List Row} {xs : List α}
    (hf : ∀ x, f x = (f x).key.row (e x)) (h : rs.filter (·.key == k) = xs.map f) :
    rs.filter (·.key == k) = xs.map fun x => k.row (e x) := by
  rw [h]
  refine List.map_congr_left fun x hx => ?_
  have hkey : (f x).key = k := by
    have hmem : f x ∈ rs.filter (·.key == k) := h ▸ List.mem_map_of_mem hx
    exact eq_of_beq (List.mem_filter.mp hmem).2
  rw [hf x, hkey]

theorem filter_rows_ofTag (c : Collection) (hk : k.kind = .tag) :
    (rows c).filter (·.key == k) =
      if k = .ofTagAlone k.tagName then
        (c.tags.filter (·.name == k.tagName)).map fun t => k.row (.tag t)
      else [] := by
  have htags : (rows c).filter (·.key == k) =
      (c.tags.filter fun t => Key.ofTagAlone t.name == k).map tagRow := by
    rw [← filter_key_filter (p := fun k => k.kind == .tag) (by simp [hk]), filter_rows_tags,
      List.filter_map]
    rfl
  split_ifs with halone
  · have hname : ∀ t : Tag, (Key.ofTagAlone t.name == k) = (t.name == k.tagName) := by
      intro t
      rw [halone]
      simp [Key.ofTagAlone]
    simp only [hname] at htags
    exact filter_eq_map_row (fun _ => rfl) htags
  · have hother : ∀ t ∈ c.tags, ¬ (Key.ofTagAlone t.name == k) := by
      intro t _ hkey
      rw [beq_iff_eq] at hkey
      exact halone (hkey ▸ rfl)
    rw [htags, List.filter_eq_nil_iff.mpr hother, List.map_nil]

/-- The rows with the key of a member are those of its declarations, in their order. -/
theorem filter_rows_ofMember (h : c.OwnKinds) (hk : k.kind ≠ .tag) :
    (rows c).filter (·.key == k) = (c.declarations k).map fun m => k.row (.member m) := by
  refine filter_eq_map_row (f := memberRow k.scope k.tagName) (fun _ => rfl) ?_
  rw [← Conflict.filter_memberRows h, Conflict.memberRows,
    filter_key_filter (p := fun k => k.kind != .tag) (by simp [hk])]

/-- In a merged collection the rows with a key are the row of what is found under it, or none. -/
theorem filter_rows_merge (h : (Collection.merge cs).OwnKinds) (k : Key) :
    (rows (Collection.merge cs)).filter (·.key == k) =
      (((Collection.merge cs).entity? k).map k.row).toList := by
  cases hk : k.kind with
  | tag =>
    rw [filter_rows_ofTag _ hk, Collection.entity?, hk, Collection.tags_filter_merge]
    split_ifs with halone
    · cases (Collection.merge cs).tag? k.tagName <;> rfl
    · rfl
  | member kind =>
    rw [filter_rows_ofMember h (by simp [hk]), Collection.declarations_merge, Collection.entity?,
      hk]
    cases (Collection.merge cs).member? k <;> rfl

theorem length_filter_rows_merge_le (h : (Collection.merge cs).OwnKinds) (k : Key) :
    ((rows (Collection.merge cs)).filter (·.key == k)).length ≤ 1 := by
  rw [filter_rows_merge h]
  cases (Collection.merge cs).entity? k <;> simp

theorem nodup_keys_rows_merge (h : (Collection.merge cs).OwnKinds) :
    ((rows (Collection.merge cs)).map (·.key)).Nodup := by
  rw [List.nodup_iff_count_le_one]
  intro k
  rw [List.count_eq_countP, List.countP_map, List.countP_eq_length_filter]
  exact length_filter_rows_merge_le h k

theorem length_rows (c : Collection) :
    (rows c).length = c.tags.length + (c.tags.flatMap (·.attributes)).length +
      (c.tags.flatMap (·.properties)).length + (c.tags.flatMap (·.events)).length +
        c.attributes.length + c.events.length := by
  have htags : ∀ ts : List Tag, (ts.flatMap tagRows).length =
      ts.length + (ts.flatMap (·.attributes)).length + (ts.flatMap (·.properties)).length +
        (ts.flatMap (·.events)).length := by
    intro ts
    induction ts with
    | nil => rfl
    | cons t ts ih =>
      simp only [List.flatMap_cons, List.length_append, List.length_cons, length_tagRows, ih]
      omega
  simp only [rows, List.length_append, List.length_map, htags, Nat.add_assoc]

/-- An entity that stands in a collection, with its key. -/
inductive Stands (c : Collection) : Key → Entity → Prop
  | tag {t : Tag} (ht : t ∈ c.tags) : Stands c (.ofTagAlone t.name) (.tag t)
  | ofTag {t : Tag} {kind : MemberKind} {m : Member} (ht : t ∈ c.tags) (hm : m ∈ t.members kind) :
      Stands c (.ofTag t.name kind m.name) (.member m)
  | ofGlobal {kind : MemberKind} {m : Member} (hm : m ∈ c.globals kind) :
      Stands c (.ofGlobal kind m.name) (.member m)

theorem stands_of_mem_declarations {m : Member} (hm : m ∈ c.declarations k) :
    Stands c k (.member m) := by
  rcases k with ⟨scope, tagName, name, _ | kind⟩
  · simp [Collection.declarations] at hm
  · obtain ⟨hplace, hname⟩ := List.mem_filter.mp hm
    obtain rfl : m.name = name := eq_of_beq hname
    cases scope with
    | tag =>
      obtain ⟨t, hnamed, hmt⟩ := List.mem_flatMap.mp hplace
      obtain ⟨ht, htag⟩ := List.mem_filter.mp hnamed
      obtain rfl : t.name = tagName := eq_of_beq htag
      exact .ofTag ht hmt
    | global =>
      by_cases htag : tagName = ""
      · subst htag
        exact .ofGlobal (by simpa [Collection.membersAt] using hplace)
      · simp [Collection.membersAt, htag] at hplace

theorem kind_of_mem_declarations (h : c.OwnKinds) {m : Member} (hm : m ∈ c.declarations k) :
    k.kind = .member m.kind := by
  cases stands_of_mem_declarations hm with
  | ofTag ht hmt => exact congrArg RowKind.member (h.ofTag _ ht _ m hmt).symm
  | ofGlobal hmg => exact congrArg RowKind.member (h.ofGlobals _ m hmg).symm

theorem kind_of_member?_merge (h : ∀ c ∈ cs, c.OwnKinds) {m : Member}
    (hm : (Collection.merge cs).member? k = some m) : k.kind = .member m.kind := by
  rw [Collection.member?_merge] at hm
  cases hd : cs.flatMap (·.declarations k) with
  | nil => simp [hd] at hm
  | cons first rest =>
    rw [hd, Merge.joinAll_cons, Member.foldl_join] at hm
    have hfirst : first ∈ cs.flatMap (·.declarations k) := hd ▸ List.mem_cons_self
    obtain ⟨c, hc, hdeclared⟩ := List.mem_flatMap.mp hfirst
    have hkind : m.kind = first.kind := Option.some.inj hm ▸ rfl
    rw [hkind]
    exact kind_of_mem_declarations (h c hc) hdeclared

theorem ownKinds_merge (h : ∀ c ∈ cs, c.OwnKinds) : (Collection.merge cs).OwnKinds where
  ofTag t ht kind m hm := by
    have hfound := Collection.member?_of_mem_merge (Collection.mem_declarations_ofTag ht hm)
    exact (RowKind.member.inj (kind_of_member?_merge h hfound)).symm
  ofGlobals kind m hm := by
    have hfound := Collection.member?_of_mem_merge (Collection.mem_declarations_ofGlobal hm)
    exact (RowKind.member.inj (kind_of_member?_merge h hfound)).symm

/-- What is found in a merged collection is what stands there, under the same key. -/
theorem entity?_merge_eq_some_iff {e : Entity} :
    (Collection.merge cs).entity? k = some e ↔ Stands (Collection.merge cs) k e := by
  constructor
  · intro h
    cases hk : k.kind with
    | tag =>
      rw [Collection.entity?, hk] at h
      split_ifs at h with halone
      · obtain ⟨t, hfound, rfl⟩ := Option.map_eq_some_iff.mp h
        have hmem : t ∈ (Collection.merge cs).tags.filter (·.name == k.tagName) := by
          rw [Collection.tags_filter_merge, hfound]
          exact List.mem_singleton_self t
        obtain ⟨ht, hname⟩ := List.mem_filter.mp hmem
        rw [halone, ← eq_of_beq hname]
        exact .tag ht
    | member kind =>
      rw [Collection.entity?, hk] at h
      obtain ⟨m, hfound, rfl⟩ := Option.map_eq_some_iff.mp h
      refine stands_of_mem_declarations ?_
      rw [Collection.declarations_merge, hfound]
      exact List.mem_singleton_self m
  · intro h
    cases h with
    | tag ht => simp [Collection.entity?, Key.ofTagAlone, Collection.tag?_of_mem_merge ht]
    | ofTag ht hm =>
      have hfound := Collection.member?_of_mem_merge (Collection.mem_declarations_ofTag ht hm)
      exact congrArg (Option.map Entity.member) hfound
    | ofGlobal hm =>
      have hfound := Collection.member?_of_mem_merge (Collection.mem_declarations_ofGlobal hm)
      exact congrArg (Option.map Entity.member) hfound

theorem rows_combine_perm (cs : List Collection) :
    (rows (Collection.combine cs)).Perm (cs.flatMap rows) := by
  have hsplit : rows (Collection.combine cs) =
      cs.flatMap (fun c => c.tags.flatMap tagRows) ++
        (cs.flatMap (fun c => c.attributes.map (memberRow .global "")) ++
          cs.flatMap fun c => c.events.map (memberRow .global "")) := by
    simp only [rows, Collection.combine, List.flatMap_assoc, List.map_append, List.map_flatMap]
  have hrows : rows = fun c => c.tags.flatMap tagRows ++
      (c.attributes.map (memberRow .global "") ++ c.events.map (memberRow .global "")) := by
    funext c
    rw [rows, List.map_append]
  -- The global members of each collection are brought together first, and then with its tags.
  rw [hsplit, hrows]
  exact ((List.flatMap_append_perm cs _ _).append_left _).trans (List.flatMap_append_perm cs _ _)

/-- The rows of a collection are a table of it: no key has two rows, everything that stands in the
collection has one, and the row says what is found by looking up its key. -/
structure Tabulated (c : Collection) : Prop where
  keys : ((rows c).map (·.key)).Nodup
  rowOf : ∀ k e, Stands c k e → (rows c).filter (·.key == k) = [k.row e]
  length : (rows c).length = c.tags.length + (c.tags.flatMap (·.attributes)).length +
    (c.tags.flatMap (·.properties)).length + (c.tags.flatMap (·.events)).length +
      c.attributes.length + c.events.length
  found : ∀ r ∈ rows c, ∃ e, c.entity? r.key = some e ∧ Stands c r.key e ∧
    r.type = e.typeText ∧ r.builtIn = e.builtIn

theorem tabulated_of_ownKinds (h : (Collection.merge cs).OwnKinds) :
    Tabulated (Collection.merge cs) where
  keys := nodup_keys_rows_merge h
  rowOf k e hstands := by
    rw [filter_rows_merge h, entity?_merge_eq_some_iff.mpr hstands]
    rfl
  length := length_rows _
  found r hr := by
    have hmem : r ∈ (rows (Collection.merge cs)).filter (·.key == r.key) :=
      List.mem_filter.mpr ⟨hr, beq_self_eq_true r.key⟩
    rw [filter_rows_merge h, Option.mem_toList] at hmem
    obtain ⟨e, he, hrow⟩ := Option.map_eq_some_iff.mp hmem
    refine ⟨e, he, entity?_merge_eq_some_iff.mp he, ?_, ?_⟩
    · rw [← hrow]
      rfl
    · rw [← hrow]
      rfl

/-- The summary of a merged collection whose lists hold members of their own kind is a table of it,
and of two collections that are put together, merged or not, the rows are those of both. -/
theorem tabulated_merge (cs : List Collection) :
    ((Collection.merge cs).OwnKinds → Tabulated (Collection.merge cs)) ∧
      ∀ a b, (rows (Collection.combine [a, b])).Perm (rows a ++ rows b) := by
  refine ⟨tabulated_of_ownKinds, fun a b => ?_⟩
  simpa using rows_combine_perm [a, b]

/-- Collections in which one name stands for a tag, for members of every kind of a tag without a
name, and for global members. -/
def doors : List Collection :=
  [{ tags := [{
       name := "", builtIn := true,
       attributes := [{ name := "open", type := .boolean, builtIn := true }],
       properties := [{ name := "open", type := .string, kind := .property }],
       events := [{ name := "open", type := .any, kind := .event }] }],
     attributes := [{ name := "open", type := .string, builtIn := true }],
     events := [{ name := "open", type := .any, kind := .event }] },
    { tags := [{ name := "", attributes := [{ name := "open", type := .number }] }] },
    { tags := [{ name := "open" }],
      attributes := [{ name := "open", type := .boolean, builtIn := true }] }]

theorem ownKinds_doors : ∀ c ∈ doors, c.OwnKinds := by
  intro c hc
  simp only [doors, List.mem_cons, List.not_mem_nil, or_false] at hc
  refine ⟨fun t ht kind m hm => ?_, fun kind m hm => ?_⟩
  · rcases hc with rfl | rfl | rfl <;> cases kind <;> simp_all [Tag.members]
  · rcases hc with rfl | rfl | rfl <;> cases kind <;> simp_all [Collection.globals]

theorem tabulated_merge_doors :
    (Collection.merge doors).OwnKinds ∧ Tabulated (Collection.merge doors) ∧
      (rows (Collection.merge doors)).length = 7 := by
  have hkinds := ownKinds_merge ownKinds_doors
  have htable := (tabulated_merge doors).1 hkinds
  exact ⟨hkinds, htable, htable.length⟩

end Summary
end HtmlCatalog
