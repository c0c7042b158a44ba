import HtmlCatalog.Proofs.Groups

/-! Merging is associative on every level: of the fields of one member, of the lists of a tag, of
tags, and of collections. So collections may be merged in any grouping, and a collection that is
merged already is not changed by merging it again. -/
namespace HtmlCatalog

theorem Value.orElse_assoc (u v w : Value) : (u.orElse v).orElse w = u.orElse (v.orElse w) := by
  by_cases h : u.isTruthy <;> simp [orElse, h]

@[simp] theorem Value.orElse_self (v : Value) : v.orElse v = v := ite_self v

@[simp] theorem Merge.laterOwner_self (o : Option String) : laterOwner o o = o := by
  rcases o with _ | s
  · rfl
  · exact ite_self _

theorem Merge.laterOwner_assoc (o p q : Option String) :
    laterOwner (laterOwner o p) q = laterOwner o (laterOwner p q) := by
  rcases q with _ | q
  · rfl
  · by_cases h : q = "" <;> simp [laterOwner, h]

namespace Member

instance : Std.Associative join where
  assoc l m n := by
    simp only [join, Member.mk.injEq, true_and]
    exact ⟨Bool.and_assoc .., (Value.orElse_assoc ..).symm, Merge.laterOwner_assoc ..⟩

@[simp] theorem merge_merge_append (ls ms : List Member) :
    merge (merge ls ++ ms) = merge (ls ++ ms) :=
  Merge.byKey_append_byKey_append join_name [] ls ms

@[simp] theorem merge_append_merge (ls ms : List Member) :
    merge (ls ++ merge ms) = merge (ls ++ ms) :=
  Merge.byKey_append_byKey join_name ls ms

@[simp] theorem merge_merge (ms : List Member) : merge (merge ms) = merge ms :=
  Merge.byKey_byKey join_name ms

@[simp] theorem join_self (m : Member) : m.join m = m := by
  simp [join]

/-- Members that are given twice come to the same as given once. -/
@[simp] theorem merge_append_append_self (ls ms : List Member) :
    merge (ls ++ (ms ++ ms)) = merge (ls ++ ms) :=
  Merge.byKey_append_append_self join_name ls fun m _ => join_self m

@[simp] theorem merge_append_self (ms : List Member) : merge (ms ++ ms) = merge ms :=
  merge_append_append_self [] ms

end Member

namespace Slot

instance : Std.Associative join where
  assoc s t u := by
    simp only [join, Slot.mk.injEq, true_and]
    exact ⟨(Value.orElse_assoc ..).symm, Merge.laterOwner_assoc ..⟩

@[simp] theorem merge_merge_append (ss ts : List Slot) :
    merge (merge ss ++ ts) = merge (ss ++ ts) :=
  Merge.byKey_append_byKey_append join_name [] ss ts

@[simp] theorem merge_append_merge (ss ts : List Slot) :
    merge (ss ++ merge ts) = merge (ss ++ ts) :=
  Merge.byKey_append_byKey join_name ss ts

@[simp] theorem merge_merge (ss : List Slot) : merge (merge ss) = merge ss :=
  Merge.byKey_byKey join_name ss

@[simp] theorem join_self (s : Slot) : s.join s = s := by
  simp [join]

@[simp] theorem merge_append_self (ss : List Slot) : merge (ss ++ ss) = merge ss :=
  Merge.byKey_append_self join_name fun s _ => join_self s

end Slot

namespace Tag

instance : Std.Associative join where
  assoc t u v := by
    simp only [join, Tag.mk.injEq, true_and, List.append_assoc, Member.merge_merge_append,
      Member.merge_append_merge, Slot.merge_merge_append, Slot.merge_append_merge]
    exact ⟨(Value.orElse_assoc ..).symm, Bool.and_assoc ..⟩

/-- Tags that are joined come out tidy. -/
@[simp] theorem tidy_join (t u : Tag) : (t.join u).tidy = t.join u := by
  simp [tidy, join]

@[simp] theorem tidy_tidy (t : Tag) : t.tidy.tidy = t.tidy := by
  simp [tidy]

theorem join_self (t : Tag) : t.join t = t.tidy := by
  simp [join, tidy]

theorem tidy_absorb {x : Tag} {ts : List Tag} (hx : x.tidy = x) (hts : ts.map tidy = ts) :
    (Merge.absorb Tag.name join x ts).map tidy = Merge.absorb Tag.name join x ts := by
  induction ts with
  | nil => simp [Merge.absorb, hx]
  | cons t ts ih =>
    obtain ⟨ht, hts⟩ := List.cons.inj hts
    simp only [Merge.absorb]
    split_ifs
    · simp only [List.map_cons, tidy_join, hts]
    · simp only [List.map_cons, ht, ih hts]

@[simp] theorem map_tidy_merge (ts : List Tag) : (merge ts).map tidy = merge ts := by
  simp only [merge]
  induction ts using List.reverseRecOn with
  | nil => rfl
  | append_singleton ts t ih =>
    rw [List.map_append, List.map_singleton, Merge.byKey_concat]
    exact tidy_absorb (tidy_tidy t) ih

theorem tidy_of_mem_merge {t : Tag} {ts : List Tag} (h : t ∈ merge ts) : t.tidy = t :=
  List.map_eq_map_iff.mp ((map_tidy_merge ts).trans (List.map_id _).symm) t h

theorem merge_append_append_self (ts us : List Tag) :
    merge (ts ++ (us ++ us)) = merge (ts ++ us) := by
  simp only [merge, List.map_append]
  refine Merge.byKey_append_append_self join_name _ fun t ht => ?_
  rw [join_self, tidy_of_mem_merge ht]

theorem merge_append_merge_append (ts us vs : List Tag) :
    merge (ts ++ merge us ++ vs) = merge (ts ++ us ++ vs) := by
  simp only [merge, List.map_append]
  rw [← merge, map_tidy_merge, merge, Merge.byKey_append_byKey_append join_name]

end Tag

namespace Collection

theorem merge_append_merge_cons (bs cs ds : List Collection) :
    merge (bs ++ merge cs :: ds) = merge (bs ++ cs ++ ds) := by
  simp only [merge, List.flatMap_append, List.flatMap_cons, ← List.append_assoc, Member.merge,
    Tag.merge_append_merge_append, Merge.byKey_append_byKey_append Member.join_name]

@[simp] theorem merge_singleton_merge (cs : List Collection) : merge [merge cs] = merge cs := by
  simpa using merge_append_merge_cons [] cs []

theorem merge_pair_merge (cs : List Collection) (d : Collection) :
    merge [merge cs, d] = merge (cs ++ [d]) := by
  simpa using merge_append_merge_cons [] cs [d]

/-- Collections merged one after the other come to the same as all at once. -/
theorem foldl_merge (cs : List Collection) :
    cs.foldl (fun c d => merge [c, d]) empty = merge cs := by
  induction cs using List.reverseRecOn with
  | nil => rfl
  | append_singleton cs d ih =>
    rw [List.foldl_append, ih, List.foldl_cons, List.foldl_nil, merge_pair_merge]

/-- Merging may be grouped in any way. -/
theorem merge_grouping (bs cs ds : List Collection) :
    merge (bs ++ merge cs :: ds) = merge (bs ++ cs ++ ds) ∧
      merge [merge cs] = merge cs ∧
      cs.foldl (fun c d => merge [c, d]) empty = merge cs :=
  ⟨merge_append_merge_cons bs cs ds, merge_singleton_merge cs, foldl_merge cs⟩

end Collection
end HtmlCatalog
