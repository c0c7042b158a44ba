import HtmlCatalog.Proofs.Declared
import HtmlCatalog.Summary

/-! Members under a key. A collection that is not merged may declare a member several times, in one
tag or in several of one name. In a merged collection the member found under a key is all its
declarations joined, whatever the lists they stood in. -/
namespace HtmlCatalog

open Summary

def Summary.Key.ofTag (tagName : String) (kind : MemberKind) (name : String) : Key :=
  ⟨.tag, tagName, name, .member kind⟩

def Summary.Key.ofGlobal (kind : MemberKind) (name : String) : Key :=
  ⟨.global, "", name, .member kind⟩

namespace Tag

def members (t : Tag) : MemberKind → List Member
  | .attribute => t.attributes
  | .property => t.properties
  | .event => t.events

def member? (t : Tag) (kind : MemberKind) (name : String) : Option Member :=
  match kind with
  | .attribute => t.attribute? name
  | .property => t.property? name
  | .event => t.event? name

theorem member?_eq_find? (t : Tag) (kind : MemberKind) (name : String) :
    t.member? kind name = (t.members kind).find? (·.name == name) := by
  cases kind <;> rfl

/-- Two tags are equal if they have the same members of every kind and agree in all the rest. -/
theorem eq_of_members {t u : Tag} (hname : t.name = u.name)
    (hmembers : ∀ kind, t.members kind = u.members kind) (hslots : t.slots = u.slots)
    (hdescription : t.description = u.description) (hbuiltIn : t.builtIn = u.builtIn) : t = u := by
  have hattributes : t.attributes = u.attributes := hmembers .attribute
  have hproperties : t.properties = u.properties := hmembers .property
  have hevents : t.events = u.events := hmembers .event
  rw [Tag.mk.injEq]
  exact ⟨hname, hattributes, hproperties, hevents, hslots, hdescription, hbuiltIn⟩

theorem members_join (t u : Tag) (kind : MemberKind) :
    (t.join u).members kind = Member.merge (t.members kind ++ u.members kind) := by
  cases kind <;> rfl

theorem members_tidy (t : Tag) (kind : MemberKind) :
    t.tidy.members kind = Member.merge (t.members kind) := by
  cases kind <;> rfl

theorem members_ofDeclared (first : Tag) (rest : List Tag) (kind : MemberKind) :
    (ofDeclared first rest).members kind =
      Member.merge ((first :: rest).flatMap (·.members kind)) := by
  cases kind <;> exact (Member.merge_eq_declared _).symm

theorem slots_ofDeclared (first : Tag) (rest : List Tag) :
    (ofDeclared first rest).slots = Slot.merge ((first :: rest).flatMap (·.slots)) :=
  (Slot.merge_eq_declared _).symm

end Tag

namespace Collection

def globals (c : Collection) : MemberKind → List Member
  | .attribute => c.attributes
  | .property => []
  | .event => c.events

/-- All members of one kind that stand in one place, a tag or the collection itself. -/
def membersAt (c : Collection) (scope : Scope) (tagName : String) (kind : MemberKind) :
    List Member :=
  match scope with
  | .tag => (c.tags.filter (·.name == tagName)).flatMap (·.members kind)
  | .global => if tagName = "" then c.globals kind else []

/-- The members with a key, in the order of the collection. -/
def declarations (c : Collection) (k : Key) : List Member :=
  match k.kind with
  | .tag => []
  | .member kind => (c.membersAt k.scope k.tagName kind).filter (·.name == k.name)

def global? (c : Collection) (kind : MemberKind) (name : String) : Option Member :=
  match kind with
  | .attribute => c.attribute? name
  | .property => none
  | .event => c.event? name

/-- The member that is found by looking up the parts of a key. -/
def member? (c : Collection) (k : Key) : Option Member :=
  match k.scope, k.kind with
  | _, .tag => none
  | .tag, .member kind => (c.tag? k.tagName).bind (·.member? kind k.name)
  | .global, .member kind => if k.tagName = "" then c.global? kind k.name else none

/-- Every list of members holds members of its own kind only. -/
structure OwnKinds (c : Collection) : Prop where
  ofTag : ∀ t ∈ c.tags, ∀ kind, ∀ m ∈ t.members kind, m.kind = kind
  ofGlobals : ∀ kind, ∀ m ∈ c.globals kind, m.kind = kind

theorem globals_combine (cs : List Collection) (kind : MemberKind) :
    (combine cs).globals kind = cs.flatMap (·.globals kind) := by
  cases kind <;> simp [globals, combine]

theorem membersAt_combine (cs : List Collection) (scope : Scope) (tagName : String)
    (kind : MemberKind) :
    (combine cs).membersAt scope tagName kind =
      cs.flatMap (·.membersAt scope tagName kind) := by
  cases scope with
  | tag => simp only [membersAt, combine, List.filter_flatMap, List.flatMap_assoc]
  | global =>
    by_cases h : tagName = ""
    · simp only [membersAt, h, if_true, globals_combine]
    · simp [membersAt, h]

theorem declarations_combine (cs : List Collection) (k : Key) :
    (combine cs).declarations k = cs.flatMap (·.declarations k) := by
  rcases k with ⟨scope, tagName, name, _ | kind⟩
  · simp [declarations]
  · simp only [declarations, membersAt_combine, List.filter_flatMap]

end Collection

theorem Merge.find?_byKey {α : Type} {key : α → String} {join : α → α → α}
    (hkey : ∀ x y, key (join x y) = key x) (k : String) (xs : List α) :
    (byKey key join xs).find? (key · == k) = joinAll join (group key k xs) := by
  rw [← List.head?_filter]
  change (group key k (byKey key join xs)).head? = _
  rw [group_byKey hkey]
  cases joinAll join (group key k xs) <;> rfl

theorem Merge.find?_reverse_byKey {α : Type} {key : α → String} {join : α → α → α}
    (hkey : ∀ x y, key (join x y) = key x) (k : String) (xs : List α) :
    (byKey key join xs).reverse.find? (key · == k) = joinAll join (group key k xs) := by
  rw [← List.head?_filter, List.filter_reverse, List.head?_reverse]
  change (group key k (byKey key join xs)).getLast? = _
  rw [group_byKey hkey]
  cases joinAll join (group key k xs) <;> rfl

namespace Collection

theorem tag?_merge (cs : List Collection) (name : String) :
    (merge cs).tag? name =
      match (cs.flatMap (·.tags)).filter (·.name == name) with
      | [] => none
      | first :: rest => some (Tag.ofDeclared first rest) := by
  have h := Merge.find?_reverse_byKey Tag.join_name name ((cs.flatMap (·.tags)).map Tag.tidy)
  rw [Tag.group_map_tidy, Merge.group] at h
  refine h.trans ?_
  cases (cs.flatMap (·.tags)).filter (·.name == name) with
  | nil => rfl
  | cons t rest => rw [List.map_cons, Merge.joinAll_cons, Tag.foldl_join_tidy]

theorem global?_merge (cs : List Collection) (kind : MemberKind) (name : String) :
    (merge cs).global? kind name =
      Merge.joinAll Member.join
        ((cs.flatMap (·.globals kind)).filter (·.name == name)) := by
  cases kind
  · exact Merge.find?_reverse_byKey Member.join_name name _
  · have h : cs.flatMap (·.globals .property) = [] := by
      simp [List.flatMap_eq_nil_iff, globals]
    rw [h]
    rfl
  · exact Merge.find?_reverse_byKey Member.join_name name _

/-- What is found in a merged collection is all that was declared, joined. -/
theorem member?_merge (cs : List Collection) (k : Key) :
    (merge cs).member? k = Merge.joinAll Member.join (cs.flatMap (·.declarations k)) := by
  rw [← declarations_combine]
  rcases k with ⟨_ | _, tagName, name, _ | kind⟩
  · rfl
  · simp only [member?, declarations, membersAt, combine, tag?_merge]
    cases (cs.flatMap (·.tags)).filter (·.name == tagName) with
    | nil => rfl
    | cons first rest =>
      rw [Option.bind_some, Tag.member?_eq_find?, Tag.members_ofDeclared, Member.merge,
        Merge.find?_byKey Member.join_name, Merge.group]
  · rfl
  · by_cases h : tagName = ""
    · simp only [member?, declarations, membersAt, h, if_true, global?_merge, globals_combine]
    · simp [member?, declarations, membersAt, h]

theorem tags_filter_merge (cs : List Collection) (name : String) :
    (merge cs).tags.filter (·.name == name) = ((merge cs).tag? name).toList := by
  have hgroup := Merge.group_byKey Tag.join_name name ((cs.flatMap (·.tags)).map Tag.tidy)
  have hfind := Merge.find?_reverse_byKey Tag.join_name name ((cs.flatMap (·.tags)).map Tag.tidy)
  exact hgroup.trans (congrArg Option.toList hfind.symm)

theorem globals_merge (cs : List Collection) (kind : MemberKind) :
    (merge cs).globals kind = Member.merge (cs.flatMap (·.globals kind)) := by
  cases kind
  · rfl
  · have h : cs.flatMap (·.globals .property) = [] := by
      simp [List.flatMap_eq_nil_iff, globals]
    rw [h]
    rfl
  · rfl

/-- A merged collection declares a member at most once, and that is the one found. -/
theorem declarations_merge (cs : List Collection) (k : Key) :
    (merge cs).declarations k = ((merge cs).member? k).toList := by
  have hmembers : ∀ (ms : List Member) (name : String),
      (Member.merge ms).filter (·.name == name) =
        (Merge.joinAll Member.join (ms.filter (·.name == name))).toList :=
    fun ms name => Merge.group_byKey Member.join_name name ms
  rcases k with ⟨_ | _, tagName, name, _ | kind⟩
  · rfl
  · simp only [declarations, membersAt, member?, tags_filter_merge, tag?_merge]
    cases (cs.flatMap (·.tags)).filter (·.name == tagName) with
    | nil => rfl
    | cons first rest =>
      rw [Option.toList_some, List.flatMap_singleton, Option.bind_some, Tag.member?_eq_find?,
        Tag.members_ofDeclared, hmembers, Member.merge, Merge.find?_byKey Member.join_name,
        Merge.group]
  · rfl
  · by_cases h : tagName = ""
    · simp only [declarations, membersAt, member?, h, if_true, globals_merge, hmembers,
        global?_merge]
    · simp [declarations, membersAt, member?, h]

section Found

variable {cs : List Collection} {tag : Tag} {kind : MemberKind} {m : Member} {name : String}

theorem tag?_of_mem_merge (h : tag ∈ (merge cs).tags) :
    (merge cs).tag? tag.name = some tag := by
  have hmem : tag ∈ (merge cs).tags.filter (·.name == tag.name) := by simp [h]
  rwa [tags_filter_merge, Option.mem_toList] at hmem

theorem member?_of_mem_merge {k : Key} (h : m ∈ (merge cs).declarations k) :
    (merge cs).member? k = some m := by
  rwa [declarations_merge, Option.mem_toList] at h

theorem mem_declarations_ofTag {c : Collection} (htag : tag ∈ c.tags)
    (hm : m ∈ tag.members kind) : m ∈ c.declarations (.ofTag tag.name kind m.name) := by
  simp only [declarations, membersAt, Key.ofTag, List.mem_filter, List.mem_flatMap, beq_iff_eq,
    and_true]
  exact ⟨tag, ⟨htag, rfl⟩, hm⟩

theorem mem_declarations_ofGlobal {c : Collection} (hm : m ∈ c.globals kind) :
    m ∈ c.declarations (.ofGlobal kind m.name) := by
  simp [declarations, membersAt, Key.ofGlobal, hm]

theorem declarations_ofGlobal_eq_nil_iff {c : Collection} :
    c.declarations (.ofGlobal kind name) = [] ↔ name ∉ (c.globals kind).map (·.name) := by
  simp [declarations, membersAt, Key.ofGlobal, List.filter_eq_nil_iff]

theorem declarations_merge_ne_nil {k : Key} :
    (merge cs).declarations k ≠ [] ↔ ((merge cs).member? k).isSome := by
  rw [declarations_merge]
  cases (merge cs).member? k <;> simp

/-- A merged tag has the members that are found under its name. -/
theorem mem_names_members_merge (h : tag ∈ (merge cs).tags) :
    name ∈ (tag.members kind).map (·.name) ↔
      ((merge cs).member? (.ofTag tag.name kind name)).isSome := by
  simp only [member?, Key.ofTag, tag?_of_mem_merge h, Option.bind_some, Tag.member?_eq_find?,
    List.find?_isSome, List.mem_map, beq_iff_eq]

theorem isSome_member?_merge {k : Key} :
    ((merge cs).member? k).isSome ↔ ∃ c ∈ cs, c.declarations k ≠ [] := by
  have h : cs.flatMap (·.declarations k) ≠ [] ↔ ∃ c ∈ cs, c.declarations k ≠ [] := by
    simp [List.flatMap_eq_nil_iff]
  rw [member?_merge, ← h]
  cases cs.flatMap (·.declarations k) <;> simp

theorem mem_names_tags_merge :
    name ∈ (merge cs).tags.map (·.name) ↔ ∃ c ∈ cs, name ∈ c.tags.map (·.name) := by
  simp only [merge, Tag.names_merge, List.mem_eraseDups, List.map_flatMap, List.mem_flatMap]

theorem mem_names_globals_merge :
    name ∈ ((merge cs).globals kind).map (·.name) ↔
      ∃ c ∈ cs, name ∈ (c.globals kind).map (·.name) := by
  rw [globals_merge, Member.merge, Merge.keys_byKey Member.join_name, List.mem_eraseDups]
  simp only [List.map_flatMap, List.mem_flatMap]

end Found

/-- Every name stands once: among the tags, the global members of a kind, and the members of a kind
and the slots of a tag. -/
structure Distinct (c : Collection) : Prop where
  tags : (c.tags.map (·.name)).Nodup
  globals : ∀ kind, ((c.globals kind).map (·.name)).Nodup
  members : ∀ t ∈ c.tags, ∀ kind, ((t.members kind).map (·.name)).Nodup
  slots : ∀ t ∈ c.tags, (t.slots.map (·.name)).Nodup

theorem distinct_merge (cs : List Collection) : (merge cs).Distinct where
  tags := by
    rw [merge, Tag.names_merge]
    exact nodup_eraseDups _
  globals kind := by
    rw [globals_merge]
    exact Merge.nodup_keys_byKey Member.join_name _
  members t ht kind := by
    rw [← Tag.tidy_of_mem_merge ht]
    cases kind <;> exact Merge.nodup_keys_byKey Member.join_name _
  slots t ht := by
    rw [← Tag.tidy_of_mem_merge ht]
    exact Merge.nodup_keys_byKey Slot.join_name _

def lastDeclaration (cs : List Collection) (k : Key) : Option Member :=
  cs.reverse.findSome? fun c => (c.declarations k).getLast?

theorem lastDeclaration_eq_getLast? (cs : List Collection) (k : Key) :
    lastDeclaration cs k = (cs.flatMap (·.declarations k)).getLast? :=
  List.getLast?_flatMap.symm

theorem lastDeclaration_cons (c : Collection) (cs : List Collection) (k : Key) :
    lastDeclaration (c :: cs) k = (lastDeclaration cs k).or (c.declarations k).getLast? := by
  rw [lastDeclaration_eq_getLast?, List.flatMap_cons, List.getLast?_append,
    ← lastDeclaration_eq_getLast?]

/-- A merged member has the type of its last declaration. -/
theorem type_member?_merge (cs : List Collection) (k : Key) :
    ((merge cs).member? k).map (·.type) = (lastDeclaration cs k).map (·.type) := by
  rw [member?_merge, lastDeclaration_eq_getLast?]
  cases cs.flatMap (·.declarations k) with
  | nil => rfl
  | cons m ms =>
    rw [Merge.joinAll_cons, Member.foldl_join, List.getLast?_cons, ← List.getLastD_eq_getLast?]
    rfl

def allBuiltIn (c : Collection) (k : Key) : Bool := (c.declarations k).all (·.builtIn)

/-- A merged member is built in if all its declarations are. -/
theorem exists_member?_merge_builtIn (cs : List Collection) (k : Key) (b : Bool) :
    (∃ m ∈ (merge cs).member? k, m.builtIn = b) ↔
      cs.flatMap (·.declarations k) ≠ [] ∧ cs.all (·.allBuiltIn k) = b := by
  rw [member?_merge]
  have hall : cs.all (·.allBuiltIn k) = (cs.flatMap (·.declarations k)).all (·.builtIn) := by
    simp [allBuiltIn, List.all_flatMap]
  rw [hall]
  cases cs.flatMap (·.declarations k) with
  | nil => simp
  | cons m ms => simp [Member.foldl_join, Member.ofDeclared]

end Collection
end HtmlCatalog
