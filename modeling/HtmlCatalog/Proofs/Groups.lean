import HtmlCatalog.Merge
import Mathlib.Data.List.Induction
import Mathlib.Data.List.Nodup

/-! Merging by key, group by group. A merged list has one entry for each key, at the place of the
first entry with that key, and this entry is all entries with the key joined in their order. So a
list that is merged by an associative rule may be merged in parts. -/
namespace HtmlCatalog

section FirstOccurrences

variable {α : Type} [BEq α] [LawfulBEq α]

theorem eraseDups_concat (xs : List α) (x : α) :
    (xs ++ [x]).eraseDups = if x ∈ xs then xs.eraseDups else xs.eraseDups ++ [x] := by
  rw [List.eraseDups_append]
  split_ifs with h
  · simp [List.removeAll, h]
  · simp [List.removeAll, h, List.eraseDups_cons]

theorem nodup_eraseDups (xs : List α) : xs.eraseDups.Nodup := by
  induction xs using List.reverseRecOn with
  | nil => simp
  | append_singleton xs x ih =>
    rw [eraseDups_concat]
    split_ifs with h
    · exact ih
    · rw [List.nodup_append]
      refine ⟨ih, by simp, ?_⟩
      rintro y hy z hz rfl
      rw [List.mem_singleton] at hz
      exact h (hz ▸ List.mem_eraseDups.mp hy)

theorem eraseDups_filter (p : α → Bool) (xs : List α) :
    (xs.filter p).eraseDups = xs.eraseDups.filter p := by
  induction xs using List.reverseRecOn with
  | nil => simp
  | append_singleton xs x ih =>
    rw [eraseDups_concat, List.filter_append]
    by_cases hp : p x
    · have hx : [x].filter p = [x] := by simp [hp]
      rw [hx, eraseDups_concat, ih]
      by_cases h : x ∈ xs <;> simp [h, hp]
    · by_cases h : x ∈ xs <;> simp [h, hp, ih]

theorem eraseDups_of_nodup {xs : List α} (h : xs.Nodup) : xs.eraseDups = xs := by
  induction xs using List.reverseRecOn with
  | nil => simp
  | append_singleton xs x ih =>
    obtain ⟨hxs, -, hd⟩ := List.nodup_append.mp h
    have hx : x ∉ xs := fun hx => hd x hx x (by simp) rfl
    rw [eraseDups_concat, if_neg hx, ih hxs]

theorem eraseDups_append_eraseDups (xs ys : List α) :
    (xs ++ ys.eraseDups).eraseDups = (xs ++ ys).eraseDups := by
  rw [List.eraseDups_append, List.eraseDups_append]
  simp only [List.removeAll, eraseDups_filter, eraseDups_of_nodup (nodup_eraseDups ys)]

end FirstOccurrences

namespace Merge

variable {α : Type} {key : α → String} {join : α → α → α}

/-- The entries with one key. -/
def group (key : α → String) (k : String) (xs : List α) : List α := xs.filter (key · == k)

def joinAll (join : α → α → α) : List α → Option α
  | [] => none
  | x :: xs => some (xs.foldl join x)

@[simp] theorem joinAll_nil : joinAll join [] = none := rfl

@[simp] theorem joinAll_cons (x : α) (xs : List α) :
    joinAll join (x :: xs) = some (xs.foldl join x) := rfl

theorem joinAll_concat (xs : List α) (x : α) :
    joinAll join (xs ++ [x]) = some (((joinAll join xs).map (join · x)).getD x) := by
  cases xs <;> simp

theorem group_append (k : String) (xs ys : List α) :
    group key k (xs ++ ys) = group key k xs ++ group key k ys := List.filter_append ..

theorem group_eq_nil {k : String} {xs : List α} : group key k xs = [] ↔ k ∉ xs.map key := by
  simp only [group, List.filter_eq_nil_iff, beq_iff_eq, List.mem_map, not_exists, not_and]

theorem absorb_of_notMem {x : α} {ys : List α} (h : key x ∉ ys.map key) :
    absorb key join x ys = ys ++ [x] := by
  induction ys with
  | nil => rfl
  | cons y ys ih =>
    rw [List.map_cons, List.mem_cons, not_or] at h
    have hy : key y ≠ key x := fun e => h.1 e.symm
    simp [absorb, hy, ih h.2]

theorem byKey_of_nodup {xs : List α} (h : (xs.map key).Nodup) : byKey key join xs = xs := by
  induction xs using List.reverseRecOn with
  | nil => rfl
  | append_singleton xs x ih =>
    rw [List.map_append, List.nodup_append] at h
    have hx : key x ∉ xs.map key := fun hx => h.2.2 _ hx (key x) (by simp) rfl
    rw [byKey_concat, ih h.1, absorb_of_notMem hx]

section KeptKey

variable (hkey : ∀ x y, key (join x y) = key x)
include hkey

theorem keys_absorb (x : α) (ys : List α) :
    (absorb key join x ys).map key =
      if key x ∈ ys.map key then ys.map key else ys.map key ++ [key x] := by
  induction ys with
  | nil => simp [absorb]
  | cons y ys ih =>
    simp only [absorb]
    by_cases h : key y = key x
    · simp [h, hkey]
    · have hx : key x ≠ key y := fun e => h e.symm
      simp only [if_neg h, List.map_cons, ih, List.mem_cons, hx, false_or]
      split_ifs <;> simp

theorem keys_byKey (xs : List α) :
    (byKey key join xs).map key = (xs.map key).eraseDups := by
  induction xs using List.reverseRecOn with
  | nil => simp
  | append_singleton xs x ih =>
    have hx : key x ∈ (byKey key join xs).map key ↔ key x ∈ xs.map key := by
      rw [ih, List.mem_eraseDups]
    rw [byKey_concat, keys_absorb hkey, List.map_append, List.map_singleton, eraseDups_concat, ih]
    simp only [List.mem_eraseDups]

theorem nodup_keys_byKey (xs : List α) : ((byKey key join xs).map key).Nodup := by
  rw [keys_byKey hkey]
  exact nodup_eraseDups _

theorem group_absorb_of_ne {k : String} {x : α} (h : key x ≠ k) (ys : List α) :
    group key k (absorb key join x ys) = group key k ys := by
  induction ys with
  | nil => simp [absorb, group, h]
  | cons y ys ih =>
    simp only [absorb]
    by_cases hy : key y = key x
    · simp [group, hy, hkey, h]
    · rw [if_neg hy]
      simp only [group, List.filter_cons] at ih ⊢
      rw [ih]

theorem group_absorb_self (x : α) (ys : List α) :
    group key (key x) (absorb key join x ys) =
      match group key (key x) ys with
      | [] => [x]
      | y :: rest => join y x :: rest := by
  induction ys with
  | nil => simp [absorb, group]
  | cons y ys ih =>
    simp only [absorb]
    by_cases hy : key y = key x
    · simp [group, hy, hkey]
    · rw [if_neg hy]
      simpa [group, hy] using ih

/-- Of all entries with a key a merged list keeps one, which is all of them joined. -/
theorem group_byKey (k : String) (xs : List α) :
    group key k (byKey key join xs) = (joinAll join (group key k xs)).toList := by
  induction xs using List.reverseRecOn with
  | nil => rfl
  | append_singleton xs x ih =>
    rw [byKey_concat, group_append]
    by_cases h : key x = k
    · subst h
      have hx : group key (key x) [x] = [x] := by simp [group]
      rw [group_absorb_self hkey, ih, hx, joinAll_concat]
      cases joinAll join (group key (key x) xs) <;> rfl
    · have hx : group key k [x] = [] := by simp [group, h]
      rw [group_absorb_of_ne hkey h, ih, hx, List.append_nil]

end KeptKey

/-- A list without repeated keys is its groups in the order of its keys. -/
theorem flatMap_group_of_nodup {xs : List α} (h : (xs.map key).Nodup) :
    (xs.map key).flatMap (group key · xs) = xs := by
  induction xs with
  | nil => rfl
  | cons x xs ih =>
    rw [List.map_cons, List.nodup_cons] at h
    have hx : group key (key x) (x :: xs) = [x] := by
      have hrest : group key (key x) xs = [] := group_eq_nil.mpr h.1
      simpa [group] using hrest
    have hxs : ∀ k ∈ xs.map key, group key k (x :: xs) = group key k xs := by
      intro k hk
      have hne : key x ≠ k := fun e => h.1 (e ▸ hk)
      simp [group, hne]
    rw [List.map_cons, List.flatMap_cons, hx, List.flatMap_congr hxs, ih h.2]
    rfl

/-- The keys in the second list that are not in the first, each once. -/
def newKeys (key : α → String) (xs ys : List α) : List String :=
  ((ys.map key).removeAll (xs.map key)).eraseDups

theorem mem_newKeys {xs ys : List α} {k : String} :
    k ∈ newKeys key xs ys ↔ k ∈ ys.map key ∧ k ∉ xs.map key := by
  simp [newKeys, List.removeAll]

section KeptKey

variable (hkey : ∀ x y, key (join x y) = key x)
include hkey

theorem mem_of_mem_joinAll_group {k : String} {x : α} {xs : List α}
    (h : x ∈ joinAll join (group key k xs)) : x ∈ byKey key join xs ∧ key x = k := by
  have hx : x ∈ group key k (byKey key join xs) := by
    rwa [group_byKey hkey, Option.mem_toList]
  rwa [group, List.mem_filter, beq_iff_eq] at hx

theorem byKey_eq_filterMap (xs : List α) :
    byKey key join xs =
      (xs.map key).eraseDups.filterMap fun k => joinAll join (group key k xs) := by
  rw [← flatMap_group_of_nodup (nodup_keys_byKey hkey xs), keys_byKey hkey,
    List.filterMap_eq_flatMap_toList]
  exact List.flatMap_congr fun k _ => group_byKey hkey k xs

/-- Lists whose keys come in the same order and whose groups come to the same merge alike. -/
theorem byKey_congr {xs ys : List α} (hk : (xs.map key).eraseDups = (ys.map key).eraseDups)
    (hg : ∀ k, joinAll join (group key k xs) = joinAll join (group key k ys)) :
    byKey key join xs = byKey key join ys := by
  simp only [byKey_eq_filterMap hkey, hk, hg]

/-- After a merge the keys of the first list come first, then the new ones. -/
theorem byKey_append (xs ys : List α) :
    byKey key join (xs ++ ys) =
      ((xs.map key).eraseDups.filterMap fun k => joinAll join (group key k (xs ++ ys))) ++
        (newKeys key xs ys).filterMap fun k => joinAll join (group key k (xs ++ ys)) := by
  rw [byKey_eq_filterMap hkey, List.map_append, List.eraseDups_append, List.filterMap_append,
    newKeys]

/-- If what follows a list has the same groups, only the places of the new keys can differ. -/
theorem exists_byKey_append_perm (xs : List α) {ys zs : List α}
    (h : ∀ k, group key k ys = group key k zs) :
    ∃ known added added', byKey key join (xs ++ ys) = known ++ added ∧
      byKey key join (xs ++ zs) = known ++ added' ∧ added.Perm added' ∧
      (∀ x ∈ known, key x ∈ xs.map key) ∧ ∀ x ∈ added, key x ∉ xs.map key := by
  have hgroup : ∀ k, group key k (xs ++ ys) = group key k (xs ++ zs) := by
    intro k
    rw [group_append, group_append, h]
  have hmem : ∀ k, k ∈ ys.map key ↔ k ∈ zs.map key := by
    intro k
    rw [← not_iff_not, ← group_eq_nil, ← group_eq_nil, h]
  -- Each new key stands once on both sides, so that only their order is left open.
  have hnew : (newKeys key xs ys).Perm (newKeys key xs zs) := by
    refine (List.perm_ext_iff_of_nodup (nodup_eraseDups _) (nodup_eraseDups _)).mpr fun k => ?_
    exact mem_newKeys.trans ((and_congr_left' (hmem k)).trans mem_newKeys.symm)
  refine ⟨_, _, _, byKey_append hkey xs ys, byKey_append hkey xs zs |>.trans ?_,
    hnew.filterMap _, ?_, ?_⟩
  · simp only [hgroup]
  · intro x hx
    obtain ⟨k, hk, hkx⟩ := List.mem_filterMap.mp hx
    rw [(mem_of_mem_joinAll_group hkey hkx).2]
    exact List.mem_eraseDups.mp hk
  · intro x hx
    obtain ⟨k, hk, hkx⟩ := List.mem_filterMap.mp hx
    rw [(mem_of_mem_joinAll_group hkey hkx).2]
    exact (mem_newKeys.mp hk).2

end KeptKey

theorem joinAll_append_joinAll [Std.Associative join] (xs ys : List α) :
    joinAll join (xs ++ (joinAll join ys).toList) = joinAll join (xs ++ ys) := by
  cases ys with
  | nil => rfl
  | cons y ys =>
    cases xs with
    | nil => rfl
    | cons x xs => simp [List.foldl_append, List.foldl_assoc]

theorem byKey_append_byKey [Std.Associative join] (hkey : ∀ x y, key (join x y) = key x)
    (xs ys : List α) : byKey key join (xs ++ byKey key join ys) = byKey key join (xs ++ ys) := by
  apply byKey_congr hkey
  · rw [List.map_append, keys_byKey hkey, eraseDups_append_eraseDups, List.map_append]
  · intro k
    rw [group_append, group_byKey hkey, joinAll_append_joinAll, group_append]

/-- A part of a list may be merged before the whole. -/
theorem byKey_append_byKey_append [Std.Associative join]
    (hkey : ∀ x y, key (join x y) = key x) (xs ys zs : List α) :
    byKey key join (xs ++ byKey key join ys ++ zs) = byKey key join (xs ++ ys ++ zs) := by
  have h : byKey key join (xs ++ byKey key join ys) = byKey key join (xs ++ ys) :=
    byKey_append_byKey hkey xs ys
  simp only [byKey, List.foldl_append] at h ⊢
  rw [h]

theorem byKey_byKey (hkey : ∀ x y, key (join x y) = key x) (xs : List α) :
    byKey key join (byKey key join xs) = byKey key join xs :=
  byKey_of_nodup (nodup_keys_byKey hkey xs)

section Repeated

variable [Std.Associative join]

theorem joinAll_append_self {xs : List α} (h : ∀ x ∈ joinAll join xs, join x x = x) :
    joinAll join (xs ++ xs) = joinAll join xs := by
  rw [← joinAll_append_joinAll]
  cases xs with
  | nil => rfl
  | cons x xs => simpa [List.foldl_append] using h _ rfl

variable (hkey : ∀ x y, key (join x y) = key x)
include hkey

/-- A list that says everything twice merges to the same as once, if no merged entry is changed by
joining it with itself. -/
theorem byKey_append_self {xs : List α} (h : ∀ x ∈ byKey key join xs, join x x = x) :
    byKey key join (xs ++ xs) = byKey key join xs := by
  apply byKey_congr hkey
  · have hnone : (xs.map key).removeAll (xs.map key) = [] := by
      simp only [List.removeAll, List.filter_eq_nil_iff]
      simp
    rw [List.map_append, List.eraseDups_append, hnone, List.eraseDups_nil, List.append_nil]
  · intro k
    rw [group_append]
    exact joinAll_append_self fun x hx => h x (mem_of_mem_joinAll_group hkey hx).1

theorem byKey_append_append_self (xs : List α) {ys : List α}
    (h : ∀ y ∈ byKey key join ys, join y y = y) :
    byKey key join (xs ++ (ys ++ ys)) = byKey key join (xs ++ ys) := by
  rw [← byKey_append_byKey hkey, byKey_append_self hkey h, byKey_append_byKey hkey]

end Repeated

end Merge
end HtmlCatalog
