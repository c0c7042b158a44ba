import HtmlCatalog.Proofs.MergeAlgebra

/-! What merging comes to, said all at once. Every name has one entry, at the place of its first
declaration; what the entry holds is read off all declarations of the name in their order, and the
members and slots of a tag are so read off those of all tags of its name. Merging one collection
after the other into what is there already gives just this. -/
namespace HtmlCatalog

section Declared

variable {α : Type}

/-- The last value that counts as given, or the first value if none does. -/
def lastGiven (isGiven : α → Bool) (first : α) (rest : List α) : α :=
  ((first :: rest).reverse.find? isGiven).getD first

@[simp] theorem lastGiven_nil (isGiven : α → Bool) (x : α) : lastGiven isGiven x [] = x := by
  by_cases h : isGiven x <;> simp [lastGiven, h]

@[simp] theorem lastGiven_concat (isGiven : α → Bool) (x : α) (xs : List α) (y : α) :
    lastGiven isGiven x (xs ++ [y]) = if isGiven y then y else lastGiven isGiven x xs := by
  by_cases h : isGiven y <;> simp [lastGiven, h]

theorem lastGiven_mem (isGiven : α → Bool) (x : α) (xs : List α) :
    lastGiven isGiven x xs ∈ x :: xs := by
  rw [lastGiven]
  cases h : (x :: xs).reverse.find? isGiven with
  | none => exact List.mem_cons_self
  | some y => exact List.mem_reverse.mp (List.mem_of_find?_eq_some h)

/-- One entry for each key, in the order of the first ones, made of all entries with the key. -/
def eachOnce (key : α → String) (entry : α → List α → α) (xs : List α) : List α :=
  (xs.map key).eraseDups.filterMap fun k =>
    match xs.filter (key · == k) with
    | [] => none
    | first :: rest => some (entry first rest)

theorem byKey_eq_eachOnce {key : α → String} {join : α → α → α} {entry : α → List α → α}
    (hkey : ∀ x y, key (join x y) = key x)
    (hentry : ∀ x xs, xs.foldl join x = entry x xs) (xs : List α) :
    Merge.byKey key join xs = eachOnce key entry xs := by
  rw [Merge.byKey_eq_filterMap hkey, eachOnce]
  congr 1
  funext k
  change Merge.joinAll join (xs.filter (key · == k)) = _
  cases xs.filter (key · == k) with
  | nil => rfl
  | cons x rest => rw [Merge.joinAll_cons, hentry]

end Declared

def isOwner (owner : Option String) : Bool := owner.any (· != "")

theorem Value.orElse_eq_ite (v w : Value) : v.orElse w = if v.isTruthy then v else w := rfl

theorem Merge.laterOwner_eq_ite (o p : Option String) :
    laterOwner o p = if isOwner p then p else o := by
  rcases p with _ | s
  · rfl
  · by_cases h : s = "" <;> simp [laterOwner, isOwner, h]

namespace Member

/-- The member that all declarations of one name stand for. -/
def ofDeclared (first : Member) (rest : List Member) : Member where
  name := first.name
  type := (rest.getLastD first).type
  kind := first.kind
  builtIn := (first :: rest).all (·.builtIn)
  description := lastGiven Value.isTruthy first.description (rest.map (·.description))
  fromTag := lastGiven isOwner first.fromTag (rest.map (·.fromTag))

@[simp] theorem name_ofDeclared (first : Member) (rest : List Member) :
    (ofDeclared first rest).name = first.name := rfl

def declared (members : List Member) : List Member := eachOnce Member.name ofDeclared members

theorem foldl_join (m : Member) (ms : List Member) : ms.foldl join m = ofDeclared m ms := by
  induction ms using List.reverseRecOn with
  | nil => simp [ofDeclared]
  | append_singleton ms n ih =>
    rw [List.foldl_append, ih]
    simp [ofDeclared, join, Value.orElse_eq_ite, Merge.laterOwner_eq_ite, Bool.and_assoc]

theorem merge_eq_declared (ms : List Member) : merge ms = declared ms :=
  byKey_eq_eachOnce join_name foldl_join ms

end Member

namespace Slot

/-- The slot that all declarations of one name stand for. -/
def ofDeclared (first : Slot) (rest : List Slot) : Slot where
  name := first.name
  description := lastGiven Value.isTruthy first.description (rest.map (·.description))
  fromTag := lastGiven isOwner first.fromTag (rest.map (·.fromTag))

@[simp] theorem name_ofDeclared (first : Slot) (rest : List Slot) :
    (ofDeclared first rest).name = first.name := rfl

def declared (slots : List Slot) : List Slot := eachOnce Slot.name ofDeclared slots

theorem foldl_join (s : Slot) (ss : List Slot) : ss.foldl join s = ofDeclared s ss := by
  induction ss using List.reverseRecOn with
  | nil => simp [ofDeclared]
  | append_singleton ss t ih =>
    rw [List.foldl_append, ih]
    simp [ofDeclared, join, Value.orElse_eq_ite, Merge.laterOwner_eq_ite]

theorem merge_eq_declared (ss : List Slot) : merge ss = declared ss :=
  byKey_eq_eachOnce join_name foldl_join ss

end Slot

namespace Tag

/-- The tag that all declarations of one name stand for. -/
def ofDeclared (first : Tag) (rest : List Tag) : Tag where
  name := first.name
  attributes := Member.declared ((first :: rest).flatMap (·.attributes))
  properties := Member.declared ((first :: rest).flatMap (·.properties))
  events := Member.declared ((first :: rest).flatMap (·.events))
  slots := Slot.declared ((first :: rest).flatMap (·.slots))
  description := lastGiven Value.isTruthy first.description (rest.map (·.description))
  builtIn := (first :: rest).all (·.builtIn)

@[simp] theorem name_ofDeclared (first : Tag) (rest : List Tag) :
    (ofDeclared first rest).name = first.name := rfl

def declared (tags : List Tag) : List Tag := eachOnce Tag.name ofDeclared tags

theorem foldl_join_tidy (t : Tag) (ts : List Tag) :
    (ts.map tidy).foldl join t.tidy = ofDeclared t ts := by
  induction ts using List.reverseRecOn with
  | nil => simp [ofDeclared, tidy, ← Member.merge_eq_declared, ← Slot.merge_eq_declared]
  | append_singleton ts u ih =>
    rw [List.map_append, List.foldl_append, ih]
    simp [ofDeclared, tidy, join, Value.orElse_eq_ite, Bool.and_assoc,
      ← Member.merge_eq_declared, ← Slot.merge_eq_declared]

theorem group_map_tidy (k : String) (ts : List Tag) :
    Merge.group Tag.name k (ts.map tidy) = (Merge.group Tag.name k ts).map tidy := by
  simp [Merge.group, List.filter_map, Function.comp_def]

theorem names_merge (ts : List Tag) :
    (merge ts).map (·.name) = (ts.map (·.name)).eraseDups := by
  have h := Merge.keys_byKey join_name (ts.map tidy)
  rw [List.map_map] at h
  exact h

theorem merge_eq_declared (ts : List Tag) : merge ts = declared ts := by
  rw [merge, Merge.byKey_eq_filterMap join_name, declared, eachOnce, List.map_map]
  congr 1
  funext k
  rw [group_map_tidy, Merge.group]
  cases ts.filter (Tag.name · == k) with
  | nil => rfl
  | cons t rest => rw [List.map_cons, Merge.joinAll_cons, foldl_join_tidy]

end Tag

namespace Collection

/-- The collection that all declarations in some collections stand for. -/
def declared (cs : List Collection) : Collection where
  tags := Tag.declared (cs.flatMap (·.tags))
  attributes := Member.declared (cs.flatMap (·.attributes))
  events := Member.declared (cs.flatMap (·.events))

/-- Merging gives what all declarations stand for, each name once and in the order of its first
declaration. -/
theorem merge_reads_declarations (cs : List Collection) :
    merge cs = declared cs ∧
      (merge cs).tags.map (·.name) = ((cs.flatMap (·.tags)).map (·.name)).eraseDups ∧
      (merge cs).attributes.map (·.name) =
        ((cs.flatMap (·.attributes)).map (·.name)).eraseDups ∧
      (merge cs).events.map (·.name) = ((cs.flatMap (·.events)).map (·.name)).eraseDups := by
  refine ⟨?_, Tag.names_merge _, Merge.keys_byKey Member.join_name _,
    Merge.keys_byKey Member.join_name _⟩
  simp only [merge, declared, Tag.merge_eq_declared, Member.merge_eq_declared]

end Collection
end HtmlCatalog
