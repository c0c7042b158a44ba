import HtmlCatalog.Proofs.Ownership

/-! Types from a resolver, before a merge or after it. What a resolver makes of a member depends on
its name and its type only; the last of several members with one name has the type of them all, so
that it makes no difference whether it is asked about each of them or about the merged one. The
same holds of everything that is done to a collection to make it the built-in one. -/
namespace HtmlCatalog

namespace Merge

variable {α : Type} {key : α → String} {join : α → α → α} {f : α → α}

section Carried

variable (hkey : ∀ x, key (f x) = key x)
  (hjoin : ∀ x y, key x = key y → f (join x y) = join (f x) (f y))
include hkey hjoin

theorem absorb_map (x : α) (ys : List α) :
    absorb key join (f x) (ys.map f) = (absorb key join x ys).map f := by
  induction ys with
  | nil => rfl
  | cons y ys ih =>
    simp only [absorb, List.map_cons, hkey]
    by_cases h : key y = key x
    · rw [if_pos h, if_pos h, List.map_cons, hjoin y x h]
    · rw [if_neg h, if_neg h, List.map_cons, ih]

/-- What keeps the keys and can be done to entries with one key before they are joined or after can
be done before merging or after. -/
theorem byKey_map (xs : List α) : byKey key join (xs.map f) = (byKey key join xs).map f := by
  induction xs using List.reverseRecOn with
  | nil => rfl
  | append_singleton xs x ih =>
    rw [List.map_append, List.map_singleton, byKey_concat, byKey_concat, ih,
      absorb_map hkey hjoin]

end Carried

end Merge

namespace Builtin

variable {r : Resolver} {kind : MemberKind} {m n : Member}

def filledType (r : Resolver) (name : String) (type : ValueType) : ValueType :=
  if r.knows name || type.isAny then r.typeOf name else type

theorem backfill_eq (r : Resolver) (m : Member) :
    backfill r m = { m with type := filledType r m.name m.type } := by
  by_cases h : isResolved r m
  · have hfilled : filledType r m.name m.type = r.typeOf m.name := if_pos h
    rw [backfill, if_pos h, hfilled]
  · have hfilled : filledType r m.name m.type = m.type := if_neg h
    rw [backfill, if_neg h, hfilled]

/-- A resolver that is asked twice does not change its mind, even if it answers `any`. -/
theorem filledType_filledType (r : Resolver) (name : String) (type : ValueType) :
    filledType r name (filledType r name type) = filledType r name type := by
  by_cases h : r.knows name || type.isAny
  · have hfilled : filledType r name type = r.typeOf name := if_pos h
    rw [hfilled]
    exact ite_self _
  · have hfilled : filledType r name type = type := if_neg h
    rw [hfilled, hfilled]

theorem backfill_backfill (r : Resolver) (m : Member) :
    backfill r (backfill r m) = backfill r m := by
  rw [backfill_eq r m, backfill_eq, filledType_filledType]

theorem backfill_join (h : m.name = n.name) :
    backfill r (m.join n) = (backfill r m).join (backfill r n) := by
  simp only [backfill_eq, Member.join, h]

theorem merge_map_backfill (r : Resolver) (ms : List Member) :
    Member.merge (ms.map (backfill r)) = (Member.merge ms).map (backfill r) :=
  Merge.byKey_map (backfill_name r) (fun _ _ => backfill_join) ms

/-- How a member may be changed by a resolver: its type becomes the answer for its own name, if
there is one or the type says nothing, and all the rest stays. -/
structure Backfilled (r : Resolver) (m n : Member) : Prop where
  rest : n = { m with type := n.type }
  answered : r.knows m.name = true ∨ m.type = .any → n.type = r.typeOf m.name
  kept : r.knows m.name = false → m.type ≠ .any → n.type = m.type

theorem backfilled_backfill (r : Resolver) (m : Member) : Backfilled r m (backfill r m) := by
  rw [backfill_eq]
  refine ⟨rfl, fun h => ?_, fun hname htype => ?_⟩
  · have hresolved : (r.knows m.name || m.type.isAny) = true := by simpa using h
    exact if_pos hresolved
  · have hresolved : ¬ (r.knows m.name || m.type.isAny) = true := by simp [hname, htype]
    exact if_neg hresolved

theorem markMember_join (m n : Member) :
    markMember (m.join n) = (markMember m).join (markMember n) := rfl

theorem settle_join (h : m.name = n.name) :
    settle r kind (m.join n) = (settle r kind m).join (settle r kind n) := by
  have hmark := markMember_join m n
  have hname : (markMember m).name = (markMember n).name := h
  rcases kind with _ | _ | _
  · change backfill r (markMember (m.join n)) = _
    rw [hmark, backfill_join hname]
    rfl
  · exact hmark
  · exact hmark

theorem merge_map_settle (r : Resolver) (kind : MemberKind) (ms : List Member) :
    Member.merge (ms.map (settle r kind)) = (Member.merge ms).map (settle r kind) :=
  Merge.byKey_map (fun _ => settle_name _) (fun _ _ => settle_join) ms

theorem markTag_join (t u : Tag) : markTag r (t.join u) = (markTag r t).join (markTag r u) := by
  refine Tag.eq_of_members rfl (fun kind => ?_) rfl rfl rfl
  rw [members_markTag, Tag.members_join, Tag.members_join, members_markTag, members_markTag,
    ← merge_map_settle, List.map_append]

theorem markTag_tidy (t : Tag) : markTag r t.tidy = (markTag r t).tidy := by
  refine Tag.eq_of_members rfl (fun kind => ?_) rfl rfl rfl
  rw [members_markTag, Tag.members_tidy, Tag.members_tidy, members_markTag, merge_map_settle]

theorem merge_map_markTag (r : Resolver) (ts : List Tag) :
    Tag.merge (ts.map (markTag r)) = (Tag.merge ts).map (markTag r) := by
  have htidy : (ts.map (markTag r)).map Tag.tidy = (ts.map Tag.tidy).map (markTag r) := by
    simp only [List.map_map, Function.comp_def, markTag_tidy]
  rw [Tag.merge, Tag.merge, htidy]
  exact Merge.byKey_map (f := markTag r) (fun _ => rfl) (fun t u _ => markTag_join t u) _

/-- A collection may be marked before it is merged or after. -/
theorem merge_mark (r : Resolver) (c : Collection) :
    Collection.merge [mark r c] = mark r (Collection.merge [c]) := by
  have hmerge : ∀ d : Collection, Collection.merge [d] =
      ⟨Tag.merge d.tags, Member.merge d.attributes, Member.merge d.events⟩ := by
    intro d
    simp [Collection.merge]
  have htags := merge_map_markTag r c.tags
  have hattributes := merge_map_settle r .attribute c.attributes
  have hevents := merge_map_settle r .event c.events
  rw [hmerge, hmerge]
  simp only [mark, Collection.mk.injEq]
  exact ⟨htags, hattributes, hevents⟩

/-- Whatever a resolver answers, to fill in types and then to merge is to merge and then to fill
them in; once filled in they stay; and nothing but types is changed, each to the answer for the
member's own name. So the built-in collection might as well be merged before it is marked. -/
theorem backfill_commutes (r : Resolver) (ms : List Member) :
    Member.merge (ms.map (backfill r)) = (Member.merge ms).map (backfill r) ∧
      (ms.map (backfill r)).map (backfill r) = ms.map (backfill r) ∧
      List.Forall₂ (Backfilled r) ms (ms.map (backfill r)) ∧
      ∀ c, Collection.merge [mark r c] = mark r (Collection.merge [c]) := by
  refine ⟨merge_map_backfill r ms, ?_, ?_, merge_mark r⟩
  · rw [List.map_map]
    exact List.map_congr_left fun m _ => backfill_backfill r m
  · rw [List.forall₂_map_right_iff, List.forall₂_same]
    exact fun m _ => backfilled_backfill r m

end Builtin
end HtmlCatalog
