import HtmlCatalog.Proofs.Lookup

/-! Merging in another order. What there is in the end, and whether it is built in, does not depend
on the order in which collections are merged. Types, descriptions and places do; and so do the kind
of a member and the owner of a member or a slot, but only where two declarations differ in them. -/
namespace HtmlCatalog

section EachOnce

variable {α β : Type} {key : α → String} {entry : α → List α → α} {xs ys : List α} {x : α}

/-- Two lists have entries for the same keys, and the two entries for a key are related, as may
depend on what was declared for the key. -/
structure Matched (key : α → String) (R : List α → α → α → Prop) (declared xs ys : List α) :
    Prop where
  keys : ∀ k, k ∈ xs.map key ↔ k ∈ ys.map key
  entries : ∀ x ∈ xs, ∀ y ∈ ys, key x = key y → R (declared.filter (key · == key x)) x y

theorem mem_of_filter_eq_cons {k : String} {rest : List α}
    (h : xs.filter (key · == k) = x :: rest) : x ∈ xs ∧ key x = k := by
  have hx : x ∈ xs.filter (key · == k) := h ▸ List.mem_cons_self
  simpa using hx

section KeptKey

variable (hkey : ∀ x xs, key (entry x xs) = key x)
include hkey

theorem mem_eachOnce_iff :
    x ∈ eachOnce key entry xs ↔
      ∃ first rest, xs.filter (key · == key x) = first :: rest ∧ entry first rest = x := by
  simp only [eachOnce, List.mem_filterMap, List.mem_eraseDups]
  constructor
  · rintro ⟨k, -, hk⟩
    cases hf : xs.filter (key · == k) with
    | nil => simp [hf] at hk
    | cons first rest =>
      rw [hf] at hk
      have hx : entry first rest = x := Option.some.inj hk
      have hxk : key x = k := by rw [← hx, hkey, (mem_of_filter_eq_cons hf).2]
      exact ⟨first, rest, hxk ▸ hf, hx⟩
  · rintro ⟨first, rest, hf, hx⟩
    have hfirst := mem_of_filter_eq_cons hf
    exact ⟨key x, List.mem_map.mpr ⟨first, hfirst⟩, by simp [hf, hx]⟩

theorem mem_keys_eachOnce {k : String} :
    k ∈ (eachOnce key entry xs).map key ↔ k ∈ xs.map key := by
  simp only [List.mem_map]
  constructor
  · rintro ⟨x, hx, rfl⟩
    obtain ⟨first, rest, hf, -⟩ := (mem_eachOnce_iff hkey).mp hx
    exact ⟨first, mem_of_filter_eq_cons hf⟩
  · rintro ⟨y, hy, rfl⟩
    cases hf : xs.filter (key · == key y) with
    | nil => simpa using List.filter_eq_nil_iff.mp hf y hy
    | cons first rest =>
      have hk : key (entry first rest) = key y := by
        rw [hkey, (mem_of_filter_eq_cons hf).2]
      exact ⟨entry first rest, (mem_eachOnce_iff hkey).mpr ⟨first, rest, hk ▸ hf, rfl⟩, hk⟩

theorem matched_eachOnce {R : List α → α → α → Prop}
    (hentry : ∀ x xs y ys, (x :: xs).Perm (y :: ys) → R (x :: xs) (entry x xs) (entry y ys))
    (h : xs.Perm ys) : Matched key R xs (eachOnce key entry xs) (eachOnce key entry ys) where
  keys k := by
    rw [mem_keys_eachOnce hkey, mem_keys_eachOnce hkey]
    exact (h.map key).mem_iff
  entries x hx y hy hxy := by
    obtain ⟨p, ps, hp, hpx⟩ := (mem_eachOnce_iff hkey).mp hx
    obtain ⟨q, qs, hq, hqy⟩ := (mem_eachOnce_iff hkey).mp hy
    -- Both entries are made of what was declared for their key, in one order and in the other.
    have hperm : (xs.filter (key · == key x)).Perm (ys.filter (key · == key x)) := h.filter _
    rw [hxy, hq, ← hxy, hp] at hperm
    rw [hp, ← hpx, ← hqy]
    exact hentry p ps q qs hperm

end KeptKey

/-- Two values that are taken from the same declarations in some order are equal, or two of the
declarations differ. -/
theorem eq_or_exists_ne {f : α → β} {a b : β} (h : xs.Perm ys) (ha : a ∈ xs.map f)
    (hb : b ∈ ys.map f) : a = b ∨ ∃ x ∈ xs, ∃ y ∈ xs, f x ≠ f y := by
  rw [← (h.map f).mem_iff] at hb
  obtain ⟨x, hx, rfl⟩ := List.mem_map.mp ha
  obtain ⟨y, hy, rfl⟩ := List.mem_map.mp hb
  by_cases hxy : f x = f y
  · exact .inl hxy
  · exact .inr ⟨x, hx, y, hy, hxy⟩

end EachOnce

namespace Member

/-- Members that were made of the same declarations: they agree on whether they are built in, and
on their kind and owner unless the declarations do not. -/
structure Alike (declared : List Member) (m n : Member) : Prop where
  builtIn : m.builtIn = n.builtIn
  kind : m.kind = n.kind ∨ ∃ p ∈ declared, ∃ q ∈ declared, p.kind ≠ q.kind
  owner : m.fromTag = n.fromTag ∨ ∃ p ∈ declared, ∃ q ∈ declared, p.fromTag ≠ q.fromTag

theorem alike_ofDeclared (m : Member) (ms : List Member) (n : Member) (ns : List Member)
    (h : (m :: ms).Perm (n :: ns)) : Alike (m :: ms) (ofDeclared m ms) (ofDeclared n ns) where
  builtIn := h.all_eq
  kind := eq_or_exists_ne (f := Member.kind) h List.mem_cons_self List.mem_cons_self
  owner := eq_or_exists_ne (f := Member.fromTag) h
    (lastGiven_mem isOwner m.fromTag (ms.map Member.fromTag))
    (lastGiven_mem isOwner n.fromTag (ns.map Member.fromTag))

theorem matched_merge {ms ns : List Member} (h : ms.Perm ns) :
    Matched Member.name Alike ms (merge ms) (merge ns) := by
  rw [merge_eq_declared, merge_eq_declared]
  exact matched_eachOnce name_ofDeclared alike_ofDeclared h

end Member

namespace Slot

/-- Slots that were made of the same declarations: they have one owner unless the declarations
have not. -/
structure Alike (declared : List Slot) (s r : Slot) : Prop where
  owner : s.fromTag = r.fromTag ∨ ∃ p ∈ declared, ∃ q ∈ declared, p.fromTag ≠ q.fromTag

theorem alike_ofDeclared (s : Slot) (ss : List Slot) (r : Slot) (rs : List Slot)
    (h : (s :: ss).Perm (r :: rs)) : Alike (s :: ss) (ofDeclared s ss) (ofDeclared r rs) where
  owner := eq_or_exists_ne (f := Slot.fromTag) h
    (lastGiven_mem isOwner s.fromTag (ss.map Slot.fromTag))
    (lastGiven_mem isOwner r.fromTag (rs.map Slot.fromTag))

theorem matched_merge {ss rs : List Slot} (h : ss.Perm rs) :
    Matched Slot.name Alike ss (merge ss) (merge rs) := by
  rw [merge_eq_declared, merge_eq_declared]
  exact matched_eachOnce name_ofDeclared alike_ofDeclared h

end Slot

section Alike

/-- Two tags that are both built in or both not, and have the same names of members and slots; what
stands under one name is related by `R` and `S`. -/
structure Tag.Alike (R : List Member → Member → Member → Prop)
    (S : List Slot → Slot → Slot → Prop) (declared : List Tag) (t u : Tag) : Prop where
  builtIn : t.builtIn = u.builtIn
  members : ∀ kind, Matched Member.name R (declared.flatMap (·.members kind)) (t.members kind)
    (u.members kind)
  slots : Matched Slot.name S (declared.flatMap (·.slots)) t.slots u.slots

/-- Two collections with the same names of tags and of global members, and under each name what is
alike. -/
structure Collection.Alike (R : List Member → Member → Member → Prop)
    (S : List Slot → Slot → Slot → Prop) (declared c d : Collection) : Prop where
  tags : Matched Tag.name (Tag.Alike R S) declared.tags c.tags d.tags
  globals : ∀ kind, Matched Member.name R (declared.globals kind) (c.globals kind)
    (d.globals kind)

theorem Tag.alike_ofDeclared (t : Tag) (ts : List Tag) (u : Tag) (us : List Tag)
    (h : (t :: ts).Perm (u :: us)) :
    Alike Member.Alike Slot.Alike (t :: ts) (ofDeclared t ts) (ofDeclared u us) where
  builtIn := h.all_eq
  members kind := by
    rw [members_ofDeclared, members_ofDeclared]
    exact Member.matched_merge (h.flatMap_right _)
  slots := by
    rw [slots_ofDeclared, slots_ofDeclared]
    exact Slot.matched_merge (h.flatMap_right _)

theorem Tag.matched_merge {ts us : List Tag} (h : ts.Perm us) :
    Matched Tag.name (Alike Member.Alike Slot.Alike) ts (merge ts) (merge us) := by
  rw [merge_eq_declared, merge_eq_declared]
  exact matched_eachOnce name_ofDeclared alike_ofDeclared h

end Alike

namespace Collection

/-- The same collections in any order merge to the same names, and under each name to what is built
in in both or in neither and has one kind and owner, unless two declarations differ in these. -/
theorem merge_alike_of_perm {cs ds : List Collection} (h : cs.Perm ds) :
    Alike Member.Alike Slot.Alike (combine cs) (merge cs) (merge ds) where
  tags := Tag.matched_merge (h.flatMap_right _)
  globals kind := by
    rw [globals_combine, globals_merge, globals_merge]
    exact Member.matched_merge (h.flatMap_right _)

def card (owner : String) (kind : MemberKind) (builtIn : Bool) : Collection where
  tags := [{ name := "x-card", slots := [{ name := "body", fromTag := some owner }], builtIn }]
  attributes := [{ name := "theme", type := .any, kind, builtIn, fromTag := some owner }]

/-- Two collections of this form that agree in nothing but names. -/
def cards : List Collection :=
  [card "x-card" .attribute true, card "x-panel" .property false]

theorem merge_alike_of_perm_cards :
    cards.Perm cards.reverse ∧
      Alike Member.Alike Slot.Alike (combine cards) (merge cards) (merge cards.reverse) := by
  have hperm : cards.Perm cards.reverse := cards.reverse_perm.symm
  exact ⟨hperm, merge_alike_of_perm hperm⟩

end Collection

def Member.SameButType (m n : Member) : Prop :=
  n = { m with type := n.type, description := n.description }

def Slot.SameButDescription (s r : Slot) : Prop := r = { s with description := r.description }

/-- The kind is that of the first declaration, and the owner that of the last one, so that both
depend on the order. -/
theorem Collection.not_sameButType_cards :
    cards.Perm cards.reverse ∧
      (merge cards).attributes = [⟨"theme", .any, .attribute, false, .null, some "x-panel"⟩] ∧
      (merge cards.reverse).attributes =
        [⟨"theme", .any, .property, false, .null, some "x-card"⟩] ∧
      (merge cards).tags.flatMap (·.slots) = [⟨"body", .null, some "x-panel"⟩] ∧
      (merge cards.reverse).tags.flatMap (·.slots) = [⟨"body", .null, some "x-card"⟩] ∧
      ¬ Alike (fun _ => Member.SameButType) (fun _ => Slot.SameButDescription) (combine cards)
        (merge cards) (merge cards.reverse) := by
  refine ⟨cards.reverse_perm.symm, rfl, rfl, rfl, rfl, fun h => ?_⟩
  have hsame := (h.globals .attribute).entries _ List.mem_cons_self _ List.mem_cons_self rfl
  have howner : some "x-card" = some "x-panel" := congrArg Member.fromTag hsame
  exact absurd howner (by decide)

end HtmlCatalog
