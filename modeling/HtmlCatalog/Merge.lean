import HtmlCatalog.Collection

/-! Merging by name. Entries with one name become one entry, at the place of the first; what the
later says wins, except that a description or an owner is only replaced by one that is given, and
that the result is built in only if all its parts are. The members and slots of a tag are merged
by the same rule. -/
namespace HtmlCatalog
namespace Merge

variable {α : Type}

/-- Puts `x` to the entry with its key, or at the end. -/
def absorb (key : α → String) (join : α → α → α) (x : α) : List α → List α
  | [] => [x]
  | y :: ys => if key y = key x then join y x :: ys else y :: absorb key join x ys

/-- One entry for each key, in the order of the first entries. -/
def byKey (key : α → String) (join : α → α → α) (xs : List α) : List α :=
  xs.foldl (fun done x => absorb key join x done) []

@[simp] theorem byKey_nil (key : α → String) (join : α → α → α) : byKey key join [] = [] := rfl

theorem byKey_concat (key : α → String) (join : α → α → α) (xs : List α) (x : α) :
    byKey key join (xs ++ [x]) = absorb key join x (byKey key join xs) := by
  simp [byKey]

/-- The owner given last; an empty name does not count as given. -/
def laterOwner (earlier later : Option String) : Option String :=
  match later with
  | some s => if s = "" then earlier else some s
  | none => earlier

end Merge

namespace Member

def join (earlier later : Member) : Member :=
  { earlier with
    type := later.type
    description := later.description.orElse earlier.description
    fromTag := Merge.laterOwner earlier.fromTag later.fromTag
    builtIn := earlier.builtIn && later.builtIn }

@[simp] theorem join_name (m n : Member) : (m.join n).name = m.name := rfl
@[simp] theorem join_type (m n : Member) : (m.join n).type = n.type := rfl

def merge (members : List Member) : List Member := Merge.byKey Member.name Member.join members

end Member

namespace Slot

def join (earlier later : Slot) : Slot :=
  { earlier with
    description := later.description.orElse earlier.description
    fromTag := Merge.laterOwner earlier.fromTag later.fromTag }

@[simp] theorem join_name (s t : Slot) : (s.join t).name = s.name := rfl

def merge (slots : List Slot) : List Slot := Merge.byKey Slot.name Slot.join slots

end Slot

namespace Tag

/-- One tag out of an earlier and a later one, with the members and slots of both. -/
def join (earlier later : Tag) : Tag where
  name := earlier.name
  attributes := Member.merge (earlier.attributes ++ later.attributes)
  properties := Member.merge (earlier.properties ++ later.properties)
  events := Member.merge (earlier.events ++ later.events)
  slots := Slot.merge (earlier.slots ++ later.slots)
  description := later.description.orElse earlier.description
  builtIn := earlier.builtIn && later.builtIn

def tidy (t : Tag) : Tag :=
  { t with
    attributes := Member.merge t.attributes
    properties := Member.merge t.properties
    events := Member.merge t.events
    slots := Slot.merge t.slots }

@[simp] theorem join_name (t u : Tag) : (t.join u).name = t.name := rfl
@[simp] theorem tidy_name (t : Tag) : t.tidy.name = t.name := rfl

def merge (tags : List Tag) : List Tag := Merge.byKey Tag.name Tag.join (tags.map tidy)

end Tag

namespace Collection

def merge (cs : List Collection) : Collection where
  tags := Tag.merge (cs.flatMap (·.tags))
  attributes := Member.merge (cs.flatMap (·.attributes))
  events := Member.merge (cs.flatMap (·.events))

theorem merge_eq_merge_combine (cs : List Collection) : merge cs = merge [combine cs] := by
  simp [merge, combine]

end Collection
end HtmlCatalog
