import HtmlCatalog.Proofs.Provenance

/-! What the built-in collection holds, for any table of hints, any patches, and any document in
the place of the baseline. Every name stands once and everything is built in. An attribute has the
type that the table has for its name, or the type of texts if it is an event handler that the table
leaves out; any other attribute, and every property and event, has the type of its last declaration
in the patched document. -/
namespace HtmlCatalog

open Summary

namespace Resolver

def NamesHandler (name : String) : Prop := ∃ event, event ≠ "" ∧ name = "on" ++ event

theorem isHandlerName_iff {name : String} : isHandlerName name = true ↔ NamesHandler name := by
  unfold isHandlerName NamesHandler
  constructor
  · intro h
    split at h
    · rename_i a rest hname
      refine ⟨String.ofList (a :: rest), by simp, ?_⟩
      simp [← String.toList_inj, hname]
    · simp at h
  · rintro ⟨event, hevent, rfl⟩
    have hchars : event.toList ≠ [] := fun h => hevent (String.toList_eq_nil_iff.mp h)
    obtain ⟨a, rest, hrest⟩ := List.exists_cons_of_ne_nil hchars
    rw [String.toList_append, hrest]
    rfl

end Resolver

namespace Builtin

open Resolver

variable {table : List (String × Hint)} {r : Resolver} {c : Collection} {kind : MemberKind}

/-- What becomes of a member of a kind when it is marked. -/
def settle (r : Resolver) : MemberKind → Member → Member
  | .attribute, m => backfill r (markMember m)
  | _, m => markMember m

@[simp] theorem settle_name (m : Member) : (settle r kind m).name = m.name := by
  cases kind <;> simp [settle, markMember]

theorem members_markTag (t : Tag) :
    (markTag r t).members kind = (t.members kind).map (settle r kind) := by
  cases kind <;> rfl

theorem globals_mark : (mark r c).globals kind = (c.globals kind).map (settle r kind) := by
  cases kind <;> rfl

theorem membersAt_mark (scope : Scope) (tagName : String) :
    (mark r c).membersAt scope tagName kind =
      (c.membersAt scope tagName kind).map (settle r kind) := by
  cases scope with
  | tag =>
    simp only [Collection.membersAt, mark, List.filter_map, List.flatMap_map, List.map_flatMap,
      members_markTag]
    rfl
  | global =>
    simp only [Collection.membersAt, globals_mark]
    split_ifs <;> rfl

theorem declarations_mark (scope : Scope) (tagName name : String) :
    (mark r c).declarations ⟨scope, tagName, name, .member kind⟩ =
      (c.declarations ⟨scope, tagName, name, .member kind⟩).map (settle r kind) := by
  simp [Collection.declarations, membersAt_mark, List.filter_map, Function.comp_def]

theorem type_backfill_ofHints (m : Member) :
    (backfill (.ofHints table) m).type =
      match hint? table m.name with
      | some h => h.type
      | none => if isHandlerName m.name then .string else m.type := by
  cases hhint : hint? table m.name with
  | some h => simp [backfill, isResolved, ofHints, hhint]
  | none =>
    by_cases hhandler : isHandlerName m.name
    · simp [backfill, isResolved, ofHints, hhint, hhandler]
    · by_cases hany : m.type = .any <;>
        simp [backfill, isResolved, ofHints, hhint, hhandler, hany]

/-- How the type of a member comes about, if `declared` is the type of its last declaration. -/
structure TypeSettled (table : List (String × Hint)) (kind : MemberKind) (name : String)
    (declared type : ValueType) : Prop where
  hinted : kind = .attribute → ∀ h, hint? table name = some h → type = h.type
  handler : kind = .attribute → hint? table name = none → NamesHandler name → type = .string
  kept : kind ≠ .attribute ∨ hint? table name = none ∧ ¬ NamesHandler name → type = declared

theorem typeSettled_settle (m : Member) :
    TypeSettled table kind m.name m.type (settle (.ofHints table) kind m).type := by
  by_cases hkind : kind = .attribute
  · subst hkind
    have hname : (markMember m).name = m.name := rfl
    rw [settle, type_backfill_ofHints, hname]
    refine ⟨fun _ h hhint => ?_, fun _ hhint hhandler => ?_, fun hkept => ?_⟩
    · rw [hhint]
    · rw [hhint]
      exact if_pos (isHandlerName_iff.mpr hhandler)
    · obtain ⟨hhint, hhandler⟩ := hkept.resolve_left (not_not_intro rfl)
      rw [hhint]
      exact if_neg fun h => hhandler (isHandlerName_iff.mp h)
  · refine ⟨fun h => absurd h hkind, fun h => absurd h hkind, fun _ => ?_⟩
    rcases kind with _ | _ | _
    · exact absurd rfl hkind
    all_goals rfl

/-- `c` is what becomes of a patched collection in the end: it has the same names, each once, and
everything in it is built in. -/
structure Settled (table : List (String × Hint)) (patched c : Collection) : Prop where
  distinct : c.Distinct
  builtIn : c.Flagged true
  tags : ∀ name, name ∈ c.tags.map (·.name) ↔ name ∈ patched.tags.map (·.name)
  members : ∀ k, (c.member? k).isSome ↔ patched.declarations k ≠ []
  globalTypes : ∀ kind, ∀ m ∈ c.globals kind, ∃ n,
    (patched.declarations (.ofGlobal kind m.name)).getLast? = some n ∧
      TypeSettled table kind m.name n.type m.type
  memberTypes : ∀ t ∈ c.tags, ∀ kind, ∀ m ∈ t.members kind, ∃ n,
    (patched.declarations (.ofTag t.name kind m.name)).getLast? = some n ∧
      TypeSettled table kind m.name n.type m.type

theorem exists_typeSettled {patched : Collection} {scope : Scope} {tagName name : String}
    {m : Member} (h : (Collection.merge [mark (.ofHints table) patched]).member?
      ⟨scope, tagName, name, .member kind⟩ = some m) :
    ∃ n, (patched.declarations ⟨scope, tagName, name, .member kind⟩).getLast? = some n ∧
      TypeSettled table kind name n.type m.type := by
  have htype := Collection.type_member?_merge [mark (.ofHints table) patched]
    ⟨scope, tagName, name, .member kind⟩
  rw [h, Collection.lastDeclaration_eq_getLast?, List.flatMap_singleton, declarations_mark,
    List.getLast?_map] at htype
  cases hlast : (patched.declarations ⟨scope, tagName, name, .member kind⟩).getLast? with
  | none => simp [hlast] at htype
  | some n =>
    have hn : n.name = name := by
      have hmem := List.mem_of_getLast? hlast
      simp only [Collection.declarations, List.mem_filter, beq_iff_eq] at hmem
      exact hmem.2
    simp only [hlast, Option.map_some, Option.some.injEq] at htype
    refine ⟨n, rfl, ?_⟩
    rw [htype, ← hn]
    exact typeSettled_settle n

theorem settled_merge_mark (patched : Collection) :
    Settled table patched (Collection.merge [mark (.ofHints table) patched]) where
  distinct := Collection.distinct_merge _
  builtIn := Collection.flagged_merge (by simp [flagged_mark])
  tags name := by
    simp [Collection.mem_names_tags_merge, mark, markTag]
  members k := by
    rw [Collection.isSome_member?_merge]
    rcases k with ⟨scope, tagName, name, _ | kind⟩
    · simp [Collection.declarations]
    · simp [declarations_mark]
  globalTypes kind m hm :=
    exists_typeSettled (Collection.member?_of_mem_merge (Collection.mem_declarations_ofGlobal hm))
  memberTypes t ht kind m hm :=
    exists_typeSettled (Collection.member?_of_mem_merge (Collection.mem_declarations_ofTag ht hm))

theorem exists_settled_ofDocument (table : List (String × Hint)) (ps : List Patch)
    {document : Value} {handlers : List Value} (hdocument : Succeeds (Document.parse document))
    (hnamed : ∀ v ∈ handlers, Patch.IsHandler v) :
    ∃ c d b, Document.parse document = .ok c ∧ Patch.applyAll handlers ps c = .ok d ∧
      ofDocument document handlers (.ofHints table) ps = .ok b ∧ Settled table d b := by
  obtain ⟨c, d, hc, hd, hb⟩ := exists_ofDocument_eq hdocument hnamed (.ofHints table) ps
  exact ⟨c, d, _, hc, hd, hb, settled_merge_mark d⟩

/-- The built-in collection is settled, and so is what is made of any other document that is
accepted and of any handler attributes with names. -/
theorem build_settled (table : List (String × Hint)) (ps : List Patch) :
    (∃ c d, Document.parse Baseline.document = .ok c ∧
      Patch.applyAll Baseline.handlerValues ps c = .ok d ∧
      Settled table d (build (.ofHints table) ps).value) ∧
      ∀ document handlers, Succeeds (Document.parse document) →
        (∀ v ∈ handlers, Patch.IsHandler v) →
          ∃ c d b, Document.parse document = .ok c ∧ Patch.applyAll handlers ps c = .ok d ∧
            ofDocument document handlers (.ofHints table) ps = .ok b ∧ Settled table d b := by
  refine ⟨?_, fun _ _ => exists_settled_ofDocument table ps⟩
  obtain ⟨c, d, hc, hd, hb⟩ := exists_collection_eq (.ofHints table) ps
  refine ⟨c, d, hc, hd, ?_⟩
  rw [build_value, hb]
  exact settled_merge_mark d

def linkDocument : Value :=
  .map [(.str "version", .int 1),
    (.str "tags", .list [.map [(.str "name", .str "a"),
      (.str "attributes", .list [.map [(.str "name", .str "href")],
        .map [(.str "name", .str "href"), (.str "type", .str "number")],
        .map [(.str "name", .str "onclick")]])]])]

theorem succeeds_parse_linkDocument : Succeeds (Document.parse linkDocument) := ⟨_, rfl⟩

/-- A table whose only hint, for the name of a handler, says nothing. -/
theorem build_settled_linkDocument :
    Succeeds (Document.parse linkDocument) ∧ (∀ v ∈ Patch.clickHandlers, Patch.IsHandler v) ∧
      ∃ c d b, Document.parse linkDocument = .ok c ∧
        Patch.applyAll Patch.clickHandlers Patch.all c = .ok d ∧
        ofDocument linkDocument Patch.clickHandlers (.ofHints [("onclick", .unknown)]) Patch.all =
          .ok b ∧ Settled [("onclick", .unknown)] d b :=
  ⟨succeeds_parse_linkDocument, Patch.isHandler_clickHandlers,
    (build_settled [("onclick", .unknown)] Patch.all).2 _ _ succeeds_parse_linkDocument
      Patch.isHandler_clickHandlers⟩

end Builtin
end HtmlCatalog
