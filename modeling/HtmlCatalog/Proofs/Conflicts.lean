import HtmlCatalog.Conflict
import HtmlCatalog.Proofs.Lookup

/-! The reports of overrides against the collections that merging makes. -/
namespace HtmlCatalog
namespace Conflict

open Summary

theorem memberRows_eq (c : Collection) :
    memberRows c =
      c.tags.flatMap
          (fun t => (t.attributes ++ t.properties ++ t.events).map (memberRow .tag t.name)) ++
        (c.attributes ++ c.events).map (memberRow .global "") := by
  have hmap : ∀ (scope : Scope) (tagName : String) (ms : List Member),
      (ms.map (memberRow scope tagName)).filter (fun r => r.key.kind != .tag) =
        ms.map (memberRow scope tagName) := by
    intro scope tagName ms
    rw [List.filter_eq_self]
    intro r hr
    obtain ⟨m, -, rfl⟩ := List.mem_map.mp hr
    rfl
  rw [memberRows, rows, List.filter_append, hmap, List.filter_flatMap]
  congr 2
  funext t
  rw [tagRows, List.filter_cons_of_neg (by simp [tagRow]), hmap]

theorem filter_map_memberRow {kind : MemberKind} {ms : List Member}
    (h : ∀ m ∈ ms, m.kind = kind) (scope : Scope) (tagName : String) (k : Key) :
    (ms.map (memberRow scope tagName)).filter (·.key == k) =
      if scope = k.scope ∧ tagName = k.tagName ∧ .member kind = k.kind then
        (ms.filter (·.name == k.name)).map (memberRow scope tagName)
      else [] := by
  rw [List.filter_map]
  have hkey : ∀ m ∈ ms, ((·.key == k) ∘ memberRow scope tagName) m =
      (decide (scope = k.scope ∧ tagName = k.tagName ∧ .member kind = k.kind) &&
        (m.name == k.name)) := by
    intro m hm
    rcases k with ⟨s, t, n, κ⟩
    rw [Bool.eq_iff_iff]
    simp only [Function.comp_apply, memberRow, h m hm, beq_iff_eq, Key.mk.injEq,
      Bool.and_eq_true, decide_eq_true_eq]
    tauto
  rw [List.filter_congr hkey]
  split_ifs with hc <;> simp [hc]

theorem filter_rows_of_tags {ts : List Tag}
    (h : ∀ t ∈ ts, ∀ kind, ∀ m ∈ t.members kind, m.kind = kind)
    (tagName name : String) (kind : MemberKind) :
    (ts.flatMap fun t => (t.attributes ++ t.properties ++ t.events).map
        (memberRow .tag t.name)).filter (·.key == ⟨.tag, tagName, name, .member kind⟩) =
      (((ts.filter (·.name == tagName)).flatMap (·.members kind)).filter (·.name == name)).map
        (memberRow .tag tagName) := by
  induction ts with
  | nil => rfl
  | cons t ts ih =>
    have ha : ∀ m ∈ t.attributes, m.kind = .attribute := h t (by simp) .attribute
    have hp : ∀ m ∈ t.properties, m.kind = .property := h t (by simp) .property
    have he : ∀ m ∈ t.events, m.kind = .event := h t (by simp) .event
    rw [List.flatMap_cons, List.filter_append, ih fun u hu => h u (by simp [hu]),
      List.map_append, List.map_append, List.filter_append, List.filter_append,
      filter_map_memberRow ha, filter_map_memberRow hp, filter_map_memberRow he]
    by_cases hn : t.name = tagName
    · cases kind <;> simp [hn, Tag.members]
    · simp [hn]

/-- The rows with a key are those of the declarations of the member, in their order. -/
theorem filter_memberRows {c : Collection} (h : c.OwnKinds) (k : Key) :
    (memberRows c).filter (·.key == k) =
      (c.declarations k).map (memberRow k.scope k.tagName) := by
  rcases k with ⟨scope, tagName, name, _ | kind⟩
  · rw [Collection.declarations, List.map_nil, List.filter_eq_nil_iff]
    intro r hr hk
    have hkind := (List.mem_filter.mp hr).2
    simp [eq_of_beq hk] at hkind
  · have ha : ∀ m ∈ c.attributes, m.kind = .attribute := h.ofGlobals .attribute
    have he : ∀ m ∈ c.events, m.kind = .event := h.ofGlobals .event
    rw [memberRows_eq, List.filter_append, List.map_append, List.filter_append,
      filter_map_memberRow ha, filter_map_memberRow he]
    cases scope with
    | tag =>
      rw [filter_rows_of_tags h.ofTag]
      simp [Collection.declarations, Collection.membersAt]
    | global =>
      have htags : (c.tags.flatMap fun t => (t.attributes ++ t.properties ++ t.events).map
          (memberRow .tag t.name)).filter
            (·.key == ⟨.global, tagName, name, .member kind⟩) = [] := by
        rw [List.filter_eq_nil_iff]
        intro r hr hk
        obtain ⟨t, -, hr⟩ := List.mem_flatMap.mp hr
        obtain ⟨m, -, rfl⟩ := List.mem_map.mp hr
        simp [memberRow] at hk
      rw [htags]
      by_cases hn : tagName = ""
      · cases kind <;> simp [Collection.declarations, Collection.membersAt, Collection.globals, hn]
      · simp [Collection.declarations, Collection.membersAt, hn, Ne.symm hn]

section LastRows

theorem mem_keys_lastRows {k : Key} {rs : List Summary.Row} :
    k ∈ (lastRows rs).map (·.key) ↔ k ∈ rs.map (·.key) := by
  induction rs with
  | nil => rfl
  | cons r rs ih =>
    simp only [lastRows]
    split_ifs with h
    · obtain ⟨s, hs, hk⟩ := List.any_eq_true.mp h
      have hr : r.key ∈ rs.map (·.key) := List.mem_map.mpr ⟨s, hs, eq_of_beq hk⟩
      rw [ih, List.map_cons, List.mem_cons]
      exact ⟨Or.inr, fun hk => hk.elim (fun e => e ▸ hr) id⟩
    · rw [List.map_cons, List.map_cons, List.mem_cons, List.mem_cons, ih]

theorem nodup_keys_lastRows (rs : List Summary.Row) : ((lastRows rs).map (·.key)).Nodup := by
  induction rs with
  | nil => exact List.nodup_nil
  | cons r rs ih =>
    simp only [lastRows]
    split_ifs with h
    · exact ih
    · rw [List.map_cons, List.nodup_cons, mem_keys_lastRows]
      refine ⟨fun hr => h ?_, ih⟩
      obtain ⟨s, hs, hk⟩ := List.mem_map.mp hr
      exact List.any_eq_true.mpr ⟨s, hs, by simpa using hk⟩

theorem filter_lastRows (k : Key) (rs : List Summary.Row) :
    (lastRows rs).filter (·.key == k) = (rs.filter (·.key == k)).getLast?.toList := by
  induction rs with
  | nil => rfl
  | cons r rs ih =>
    simp only [lastRows]
    by_cases hk : r.key = k
    · subst hk
      have hany : rs.any (·.key == r.key) = !(rs.filter (·.key == r.key)).isEmpty := by
        rw [Bool.eq_iff_iff]
        simp
      rw [hany, List.filter_cons_of_pos (by simp)]
      cases hg : rs.filter (·.key == r.key) with
      | nil =>
        rw [hg] at ih
        simpa using ih
      | cons s ss =>
        rw [hg] at ih
        simpa [List.getLast?_cons_cons] using ih
    · split_ifs with h <;> simp [hk, ih]

theorem mem_joinRows_lastRows {r : Row} {bs os : List Summary.Row} :
    r ∈ joinRows (lastRows bs) (lastRows os) ↔
      ∃ b ∈ (bs.filter (·.key == r.key)).getLast?,
        ∃ o ∈ (os.filter (·.key == r.key)).getLast?,
          r = ⟨r.key, b.type, b.builtIn, o.type, o.builtIn⟩ := by
  have hfind : ∀ k, (lastRows os).find? (·.key == k) = (os.filter (·.key == k)).getLast? := by
    intro k
    rw [← List.head?_filter, filter_lastRows]
    cases (os.filter (·.key == k)).getLast? <;> rfl
  have hmem : ∀ b, b ∈ lastRows bs ↔ b ∈ (bs.filter (·.key == b.key)).getLast? := by
    intro b
    have h : b ∈ (lastRows bs).filter (·.key == b.key) ↔ b ∈ lastRows bs := by simp
    rw [← h, filter_lastRows, Option.mem_toList, Option.mem_def]
  simp only [joinRows, List.mem_filterMap, hmem, hfind, Option.map_eq_some_iff]
  constructor
  · rintro ⟨b, hb, o, ho, rfl⟩
    exact ⟨b, hb, o, ho, rfl⟩
  · rintro ⟨b, hb, o, ho, hr⟩
    have hk : b.key = r.key := by
      have h := List.mem_of_getLast? hb
      simpa using (List.mem_filter.mp h).2
    exact ⟨b, hk ▸ hb, o, hk ▸ ho, by rw [hk]; exact hr.symm⟩

end LastRows

/-- The joined rows of two collections, read off the last declarations of each member. -/
theorem mem_joined {base override : Collection} (hb : base.OwnKinds) (ho : override.OwnKinds)
    {r : Row} :
    r ∈ joinRows (lastRows (memberRows base)) (lastRows (memberRows override)) ↔
      ∃ m ∈ (base.declarations r.key).getLast?,
        ∃ n ∈ (override.declarations r.key).getLast?,
          r = ⟨r.key, m.type.text, m.builtIn, n.type.text, n.builtIn⟩ := by
  rw [mem_joinRows_lastRows, filter_memberRows hb, filter_memberRows ho]
  simp only [List.getLast?_map, Option.mem_def, Option.map_eq_some_iff]
  constructor
  · rintro ⟨_, ⟨m, hm, rfl⟩, _, ⟨n, hn, rfl⟩, h⟩
    exact ⟨m, hm, n, hn, h⟩
  · rintro ⟨m, hm, n, hn, h⟩
    exact ⟨_, ⟨m, hm, rfl⟩, _, ⟨n, hn, rfl⟩, h⟩

def lastBuiltIn (c : Collection) (k : Key) : Option Bool :=
  (c.declarations k).getLast?.map (·.builtIn)

theorem mem_provenanceChanges {base override : Collection} (hb : base.OwnKinds)
    (ho : override.OwnKinds) (k : Key) :
    (∃ r ∈ (detect base override).provenanceChanges, r.key = k) ↔
      lastBuiltIn base k = some true ∧ lastBuiltIn override k = some false := by
  simp only [detect, List.mem_filter, mem_joined hb ho, lastBuiltIn, Option.map_eq_some_iff,
    Bool.and_eq_true, Bool.not_eq_true', Option.mem_def]
  constructor
  · rintro ⟨r, ⟨⟨m, hm, n, hn, hr⟩, h⟩, rfl⟩
    rw [hr] at h
    exact ⟨⟨m, hm, h.1⟩, n, hn, h.2⟩
  · rintro ⟨⟨m, hm, hmb⟩, n, hn, hnb⟩
    exact ⟨⟨k, m.type.text, m.builtIn, n.type.text, n.builtIn⟩,
      ⟨⟨m, hm, n, hn, rfl⟩, hmb, hnb⟩, rfl⟩

/-- A member that the second collection declares, and that is built in when the first is merged
and not when both are. -/
def LosesProvenance (base override : Collection) (k : Key) : Prop :=
  override.declarations k ≠ [] ∧
    (∃ m ∈ (Collection.merge [base]).member? k, m.builtIn = true) ∧
    ∃ m ∈ (Collection.merge [base, override]).member? k, m.builtIn = false

theorem losesProvenance_iff (base override : Collection) (k : Key) :
    LosesProvenance base override k ↔
      override.declarations k ≠ [] ∧ base.declarations k ≠ [] ∧
        base.allBuiltIn k = true ∧ override.allBuiltIn k = false := by
  simp only [LosesProvenance, Collection.exists_member?_merge_builtIn, List.flatMap_cons,
    List.flatMap_nil, List.append_nil, List.all_cons, List.all_nil, Bool.and_true]
  constructor
  · rintro ⟨ho, ⟨hb, hall⟩, -, hand⟩
    rw [hall, Bool.true_and] at hand
    exact ⟨ho, hb, hall, hand⟩
  · rintro ⟨ho, hb, hall, hov⟩
    refine ⟨ho, ⟨hb, hall⟩, by simp [hb], by rw [hall, hov]; rfl⟩

theorem lastBuiltIn_of_allBuiltIn {c : Collection} {k : Key} (hne : c.declarations k ≠ [])
    (h : c.allBuiltIn k = true) : lastBuiltIn c k = some true := by
  have hlast := List.getLast_mem hne
  rw [lastBuiltIn, List.getLast?_eq_some_getLast hne, Option.map_some]
  exact congrArg some (List.all_eq_true.mp h _ hlast)

theorem ne_nil_of_lastBuiltIn {c : Collection} {k : Key} {b : Bool}
    (h : lastBuiltIn c k = some b) : c.declarations k ≠ [] := by
  intro hnil
  simp [lastBuiltIn, hnil] at h

theorem allBuiltIn_of_lastBuiltIn_false {c : Collection} {k : Key}
    (h : lastBuiltIn c k = some false) : c.allBuiltIn k = false := by
  have hne := ne_nil_of_lastBuiltIn h
  by_contra hall
  rw [Bool.not_eq_false] at hall
  simp [lastBuiltIn_of_allBuiltIn hne hall] at h

/-- The report of lost provenance goes by the last declaration on either side, and merging by all
of them. Where it matters, the last one must speak for all. -/
theorem provenanceChanges_exact {base override : Collection} (hb : base.OwnKinds)
    (ho : override.OwnKinds) (k : Key) :
    ((∃ r ∈ (detect base override).provenanceChanges, r.key = k) ↔
        LosesProvenance base override k) ↔
      (lastBuiltIn base k = some true → lastBuiltIn override k = some false →
          base.allBuiltIn k = true) ∧
        (base.declarations k ≠ [] → base.allBuiltIn k = true →
          lastBuiltIn override k = some true → override.allBuiltIn k = true) := by
  rw [mem_provenanceChanges hb ho, losesProvenance_iff]
  constructor
  · intro h
    constructor
    · intro hbl hol
      exact (h.mp ⟨hbl, hol⟩).2.2.1
    · intro hne hall hol
      by_contra hov
      rw [Bool.not_eq_true] at hov
      have hlast := (h.mpr ⟨ne_nil_of_lastBuiltIn hol, hne, hall, hov⟩).2
      simp [hol] at hlast
  · rintro ⟨h₁, h₂⟩
    constructor
    · rintro ⟨hbl, hol⟩
      exact ⟨ne_nil_of_lastBuiltIn hol, ne_nil_of_lastBuiltIn hbl, h₁ hbl hol,
        allBuiltIn_of_lastBuiltIn_false hol⟩
    · rintro ⟨hone, hbne, hall, hov⟩
      refine ⟨lastBuiltIn_of_allBuiltIn hbne hall, ?_⟩
      obtain ⟨b, hol⟩ : ∃ b, lastBuiltIn override k = some b := by
        rw [lastBuiltIn, List.getLast?_eq_some_getLast hone]
        exact ⟨_, rfl⟩
      cases b with
      | false => exact hol
      | true => simp [h₂ hbne hall hol] at hov

/-- Tags of one name that declare one attribute each, built in or not. -/
def videos (flags : List Bool) : Collection where
  tags := flags.map fun flag =>
    { name := "video", attributes := [{ name := "muted", type := .boolean, builtIn := flag }] }

def mutedKey : Key := ⟨.tag, "video", "muted", .member .attribute⟩

theorem ownKinds_videos (flags : List Bool) : (videos flags).OwnKinds where
  ofTag t ht kind m hm := by
    obtain ⟨flag, -, rfl⟩ := List.mem_map.mp ht
    cases kind <;> simp_all [Tag.members]
  ofGlobals kind m hm := by
    cases kind <;> simp_all [Collection.globals, videos]

theorem provenanceChanges_exact_videos :
    (videos [true, true]).OwnKinds ∧ (videos [true, false]).OwnKinds ∧
      ((∃ r ∈ (detect (videos [true, true]) (videos [true, false])).provenanceChanges,
          r.key = mutedKey) ↔
        LosesProvenance (videos [true, true]) (videos [true, false]) mutedKey) :=
  ⟨ownKinds_videos _, ownKinds_videos _,
    (provenanceChanges_exact (ownKinds_videos _) (ownKinds_videos _) mutedKey).mpr
      ⟨fun _ _ => by decide, fun _ _ h => absurd h (by decide)⟩⟩

/-- A change is reported for a member that was not built in before, and one that was and no longer
is goes unreported, as soon as the last of several declarations is built in and an earlier one is
not. -/
theorem provenanceChanges_of_last_declaration :
    ((∃ r ∈ (detect (videos [false, true]) (videos [false])).provenanceChanges,
        r.key = mutedKey) ∧
      ¬ LosesProvenance (videos [false, true]) (videos [false]) mutedKey) ∧
    (¬ (∃ r ∈ (detect (videos [true]) (videos [false, true])).provenanceChanges,
        r.key = mutedKey) ∧
      LosesProvenance (videos [true]) (videos [false, true]) mutedKey) := by
  simp only [losesProvenance_iff]
  decide

def typeText (c : Collection) (k : Key) : Option String := (c.member? k).map (·.type.text)

theorem typeText_merge (cs : List Collection) (k : Key) :
    typeText (Collection.merge cs) k =
      (Collection.lastDeclaration cs k).map (·.type.text) := by
  have h := congrArg (Option.map ValueType.text) (Collection.type_member?_merge cs k)
  simpa only [typeText, Option.map_map, Function.comp_def] using h

/-- A member of both collections whose type reads differently once the second is merged in. -/
def Retyped (base override : Collection) (k : Key) : Prop :=
  base.declarations k ≠ [] ∧ override.declarations k ≠ [] ∧
    typeText (Collection.merge [base]) k ≠ typeText (Collection.merge [base, override]) k

section LastDeclarations

variable {base override : Collection} {k : Key} {m n : Member}

theorem typeText_merge_base (hm : (base.declarations k).getLast? = some m) :
    typeText (Collection.merge [base]) k = some m.type.text := by
  simp [typeText_merge, Collection.lastDeclaration, hm]

theorem typeText_merge_both (hn : (override.declarations k).getLast? = some n) :
    typeText (Collection.merge [base, override]) k = some n.type.text := by
  simp [typeText_merge, Collection.lastDeclaration, hn]

theorem retyped_iff (hm : (base.declarations k).getLast? = some m)
    (hn : (override.declarations k).getLast? = some n) :
    Retyped base override k ↔ m.type.text ≠ n.type.text := by
  have hb : base.declarations k ≠ [] := fun h => by simp [h] at hm
  have ho : override.declarations k ≠ [] := fun h => by simp [h] at hn
  simp [Retyped, hb, ho, typeText_merge_base hm, typeText_merge_both hn]

end LastDeclarations

theorem keys_joinRows_sublist (bs os : List Summary.Row) :
    ((joinRows bs os).map (·.key)).Sublist (bs.map (·.key)) := by
  induction bs with
  | nil => exact List.Sublist.refl _
  | cons b bs ih =>
    rw [joinRows, List.filterMap_cons]
    cases os.find? (·.key == b.key) with
    | none => exact ih.cons _
    | some o => exact ih.cons_cons _

theorem mem_typeOverrides {base override : Collection} (hb : base.OwnKinds)
    (ho : override.OwnKinds) {r : Row} :
    r ∈ (detect base override).typeOverrides ↔
      ∃ m ∈ (base.declarations r.key).getLast?,
        ∃ n ∈ (override.declarations r.key).getLast?,
          r = ⟨r.key, m.type.text, m.builtIn, n.type.text, n.builtIn⟩ ∧
            m.type.text ≠ n.type.text := by
  simp only [detect, List.mem_filter, mem_joined hb ho, bne_iff_ne]
  constructor
  · rintro ⟨⟨m, hm, n, hn, hr⟩, hne⟩
    rw [hr] at hne
    exact ⟨m, hm, n, hn, hr, hne⟩
  · rintro ⟨m, hm, n, hn, hr, hne⟩
    refine ⟨⟨m, hm, n, hn, hr⟩, ?_⟩
    rw [hr]
    exact hne

/-- The report of overridden types has one row for each member whose type reads differently once
the second collection is merged in, and no other, and the row has the text from before and the
text from after. -/
theorem typeOverrides_exact {base override : Collection} (hb : base.OwnKinds)
    (ho : override.OwnKinds) :
    ((detect base override).typeOverrides.map (·.key)).Nodup ∧
      (∀ k, k ∈ (detect base override).typeOverrides.map (·.key) ↔ Retyped base override k) ∧
      ∀ r ∈ (detect base override).typeOverrides,
        typeText (Collection.merge [base]) r.key = some r.type ∧
          typeText (Collection.merge [base, override]) r.key = some r.newType := by
  refine ⟨?_, ?_, ?_⟩
  · have hsub : ((detect base override).typeOverrides.map (·.key)).Sublist
        ((lastRows (memberRows base)).map (·.key)) :=
      (List.filter_sublist.map Row.key).trans (keys_joinRows_sublist _ _)
    exact hsub.nodup (nodup_keys_lastRows _)
  · intro k
    rw [List.mem_map]
    constructor
    · rintro ⟨r, hr, rfl⟩
      obtain ⟨m, hm, n, hn, -, hne⟩ := (mem_typeOverrides hb ho).mp hr
      exact (retyped_iff hm hn).mpr hne
    · intro h
      have hm := List.getLast?_eq_some_getLast h.1
      have hn := List.getLast?_eq_some_getLast h.2.1
      exact ⟨⟨k, _, _, _, _⟩,
        (mem_typeOverrides hb ho).mpr ⟨_, hm, _, hn, rfl, (retyped_iff hm hn).mp h⟩, rfl⟩
  · intro r hr
    obtain ⟨m, hm, n, hn, hrow, -⟩ := (mem_typeOverrides hb ho).mp hr
    rw [hrow]
    exact ⟨typeText_merge_base hm, typeText_merge_both hn⟩

def players (types : List ValueType) : Collection where
  tags := types.map fun type =>
    { name := "video", attributes := [{ name := "muted", type }] }

theorem ownKinds_players (types : List ValueType) : (players types).OwnKinds where
  ofTag t ht kind m hm := by
    obtain ⟨type, -, rfl⟩ := List.mem_map.mp ht
    cases kind <;> simp_all [Tag.members]
  ofGlobals kind m hm := by
    cases kind <;> simp_all [Collection.globals, players]

theorem typeOverrides_exact_players :
    (players [.boolean, .any]).OwnKinds ∧ (players [.any, .string]).OwnKinds ∧
      Retyped (players [.boolean, .any]) (players [.any, .string]) mutedKey :=
  ⟨ownKinds_players _, ownKinds_players _,
    ((typeOverrides_exact (ownKinds_players _) (ownKinds_players _)).2.1 mutedKey).mp
      (by decide)⟩

end Conflict
end HtmlCatalog
