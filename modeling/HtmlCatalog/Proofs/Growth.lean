import HtmlCatalog.Proofs.Ownership

/-! Merging more. What has been said once may be said again, and nothing changes. What is said for
the first time only adds names, and behind those that are there: the names of the tags and of the
global members, and in every tag those of its members and slots, keep their places whatever comes
later. So nothing that a source says can take anything away from the built-in collection. -/
namespace HtmlCatalog

/-- A tag of the same name that goes on with the names of its members, kind by kind, and slots. -/
structure Tag.GrowsInto (t u : Tag) : Prop where
  name : u.name = t.name
  members : ∀ kind, (t.members kind).map (·.name) <+: (u.members kind).map (·.name)
  slots : t.slots.map (·.name) <+: u.slots.map (·.name)

/-- A collection that goes on with the names of tags and of global members, and has all tags of the
first, each grown. -/
structure Collection.GrowsInto (c d : Collection) : Prop where
  tags : c.tags.map (·.name) <+: d.tags.map (·.name)
  globals : ∀ kind, (c.globals kind).map (·.name) <+: (d.globals kind).map (·.name)
  eachTag : ∀ t ∈ c.tags, ∃ u, d.tag? t.name = some u ∧ t.GrowsInto u

theorem Merge.keys_byKey_prefix {α : Type} {key : α → String} {join : α → α → α}
    (hkey : ∀ x y, key (join x y) = key x) (xs ys : List α) :
    (byKey key join xs).map key <+: (byKey key join (xs ++ ys)).map key := by
  rw [keys_byKey hkey, keys_byKey hkey, List.map_append, List.eraseDups_append]
  exact List.prefix_append _ _

theorem Member.names_merge_prefix (ms ns : List Member) :
    (merge ms).map (·.name) <+: (merge (ms ++ ns)).map (·.name) :=
  Merge.keys_byKey_prefix join_name ms ns

theorem Slot.names_merge_prefix (ss rs : List Slot) :
    (merge ss).map (·.name) <+: (merge (ss ++ rs)).map (·.name) :=
  Merge.keys_byKey_prefix join_name ss rs

theorem Tag.names_merge_prefix (ts us : List Tag) :
    (merge ts).map (·.name) <+: (merge (ts ++ us)).map (·.name) := by
  rw [merge, merge, List.map_append]
  exact Merge.keys_byKey_prefix join_name _ _

theorem Tag.growsInto_ofDeclared (first : Tag) (rest more : List Tag) :
    (ofDeclared first rest).GrowsInto (ofDeclared first (rest ++ more)) where
  name := rfl
  members kind := by
    rw [members_ofDeclared, members_ofDeclared, ← List.cons_append, List.flatMap_append]
    exact Member.names_merge_prefix _ _
  slots := by
    rw [slots_ofDeclared, slots_ofDeclared, ← List.cons_append, List.flatMap_append]
    exact Slot.names_merge_prefix _ _

namespace Collection

variable {cs : List Collection} {tag : Tag}

theorem exists_growsInto_of_tag? {name : String} (h : (merge cs).tag? name = some tag)
    (ds : List Collection) :
    ∃ u, (merge (cs ++ ds)).tag? name = some u ∧ tag.GrowsInto u := by
  rw [tag?_merge] at h
  rw [tag?_merge, List.flatMap_append, List.filter_append]
  cases hf : (cs.flatMap (·.tags)).filter (·.name == name) with
  | nil => simp [hf] at h
  | cons first rest =>
    -- Under the name stand these tags and then others, so that the first one is the same.
    rw [hf] at h
    have htag : Tag.ofDeclared first rest = tag := Option.some.inj h
    rw [← htag]
    exact ⟨_, rfl, Tag.growsInto_ofDeclared first rest _⟩

/-- Whatever is merged in later, a merged collection grows. -/
theorem growsInto_merge_append (cs ds : List Collection) :
    (merge cs).GrowsInto (merge (cs ++ ds)) where
  tags := by
    rw [merge, merge, List.flatMap_append]
    exact Tag.names_merge_prefix _ _
  globals kind := by
    rw [globals_merge, globals_merge, List.flatMap_append]
    exact Member.names_merge_prefix _ _
  eachTag t ht := exists_growsInto_of_tag? (tag?_of_mem_merge ht) ds

theorem foldl_merge_append (cs ds : List Collection) :
    ds.foldl (fun c d => merge [c, d]) (merge cs) = merge (cs ++ ds) := by
  rw [← foldl_merge cs, ← List.foldl_append, foldl_merge]

theorem growsInto_merge_cons {c : Collection} (hc : ∃ cs, c = merge cs) (ds : List Collection) :
    c.GrowsInto (merge (c :: ds)) := by
  obtain ⟨cs, rfl⟩ := hc
  have hgroup : merge (merge cs :: ds) = merge (cs ++ ds) := by
    simpa using merge_append_merge_cons [] cs ds
  rw [hgroup]
  exact growsInto_merge_append cs ds

theorem merge_append_append_self (bs cs : List Collection) :
    merge (bs ++ (cs ++ cs)) = merge (bs ++ cs) := by
  simp only [merge, List.flatMap_append, Tag.merge_append_append_self,
    Member.merge_append_append_self]

theorem merge_flatten_replicate (cs : List Collection) (n : Nat) :
    merge (List.replicate (n + 1) cs).flatten = merge cs := by
  induction n with
  | zero => simp
  | succ n ih =>
    -- The last two repeats stand at the end, and the second of them adds nothing.
    have honce : (List.replicate (n + 1) cs).flatten = (List.replicate n cs).flatten ++ cs := by
      simp [List.replicate_succ']
    have htwice : (List.replicate (n + 2) cs).flatten =
        (List.replicate n cs).flatten ++ (cs ++ cs) := by
      simp [List.replicate_succ']
    rw [htwice, merge_append_append_self, ← honce, ih]

/-- A sequence of collections merges to the same if it is repeated, however often. In particular a
document adds nothing to itself. -/
theorem merge_repeated (cs : List Collection) :
    merge (cs ++ cs) = merge cs ∧
      (∀ n, merge (List.replicate (n + 1) cs).flatten = merge cs) ∧
      ∀ document c, Document.parse document = .ok c → merge [c, c] = merge [c] :=
  ⟨merge_append_append_self [] cs, merge_flatten_replicate cs,
    fun _ c _ => merge_append_append_self [] [c]⟩

/-- A document that declares an attribute of its tag twice, with different types. -/
theorem merge_repeated_linkDocument :
    ∃ c, Document.parse Builtin.linkDocument = .ok c ∧ merge [c] ≠ c ∧
      merge [c, c] = merge [c] := by
  obtain ⟨c, hc⟩ : ∃ c, Document.parse Builtin.linkDocument = .ok c ∧ merge [c] ≠ c :=
    ⟨_, rfl, by decide +kernel⟩
  exact ⟨c, hc.1, hc.2, (merge_repeated []).2.2 _ c hc.1⟩

end Collection

namespace Catalog

open UserData

variable {t : FileTree} {config : Config} {includeBuiltin : Bool}

def withSources (config : Config) (more : List Value) : Config :=
  { config with customHtmlData := .list (config.sources ++ more) }

theorem layers_withSources (t : FileTree) (config : Config) (includeBuiltin : Bool)
    (more : List Value) :
    layers t (withSources config more) includeBuiltin =
      layers t config includeBuiltin ++ loaded t more := by
  have hsources : (withSources config more).sources = config.sources ++ more := rfl
  have hloaded : loaded t (config.sources ++ more) = loaded t config.sources ++ loaded t more :=
    List.filterMap_append
  have hlisted : listed (withSources config more) = listed config := rfl
  rw [layers, layers, hsources, hloaded, hlisted, List.cons_append, List.cons_append]

theorem growsInto_build {c : Collection} (h : (build t config includeBuiltin).value = .ok c) :
    (base includeBuiltin).GrowsInto c := by
  rw [eq_of_build_eq_ok h, layers]
  exact Collection.growsInto_merge_cons (exists_base_eq_merge includeBuiltin) _

theorem growsInto_build_withSources {c d : Collection} {more : List Value}
    (hc : (build t config includeBuiltin).value = .ok c)
    (hd : (build t (withSources config more) includeBuiltin).value = .ok d) : c.GrowsInto d := by
  rw [eq_of_build_eq_ok hc, eq_of_build_eq_ok hd, layers_withSources]
  exact Collection.growsInto_merge_append _ _

/-- One more collection, and any run of them, only adds names at the ends. So the built-in
collection stands at the front of every catalogue, and every catalogue at the front of the one with
more sources. -/
theorem merge_adds_names (cs : List Collection) :
    (∀ d, (Collection.merge cs).GrowsInto (Collection.merge (cs ++ [d]))) ∧
      (∀ ds : List Collection, (Collection.merge cs).GrowsInto
        (ds.foldl (fun c d => Collection.merge [c, d]) (Collection.merge cs))) ∧
      ∀ t config includeBuiltin c, (build t config includeBuiltin).value = .ok c →
        (base includeBuiltin).GrowsInto c ∧
          ∀ more d, (build t (withSources config more) includeBuiltin).value = .ok d →
            c.GrowsInto d := by
  refine ⟨fun d => Collection.growsInto_merge_append cs [d], fun ds => ?_, ?_⟩
  · rw [Collection.foldl_merge_append]
    exact Collection.growsInto_merge_append cs ds
  · intro t config includeBuiltin c hc
    exact ⟨growsInto_build hc, fun more d hd => growsInto_build_withSources hc hd⟩

def panelDocument : Value :=
  .map [(.str "version", .int 1),
    (.str "tags", .list [.map [(.str "name", .str "x-panel")],
      .map [(.str "name", .str "a"),
        (.str "attributes", .list [.map [(.str "name", .str "rel")],
          .map [(.str "name", .str "onclick"), (.str "type", .str "string")]])]])]

theorem merge_adds_names_linkConfig :
    (∃ c d, (build emptyTree linkConfig false).value = .ok c ∧
        (build emptyTree (withSources linkConfig [panelDocument]) false).value = .ok d ∧
        c.tags.map (·.name) = ["a", "x-card"] ∧ d.tags.map (·.name) = ["a", "x-card", "x-panel"] ∧
        c.GrowsInto d) ∧
      ∃ c, (build emptyTree linkConfig true).value = .ok c ∧ (base true).GrowsInto c := by
  have hlink : ∀ v ∈ linkConfig.sources, (Source.label? v).isSome :=
    List.forall_mem_singleton.mpr rfl
  have hpanel : ∀ v ∈ (withSources linkConfig [panelDocument]).sources,
      (Source.label? v).isSome := List.forall_mem_cons.mpr ⟨rfl, List.forall_mem_singleton.mpr rfl⟩
  have hc : (build emptyTree linkConfig false).value =
      .ok (Collection.merge (layers emptyTree linkConfig false)) := build_of_labels hlink
  have hd : (build emptyTree (withSources linkConfig [panelDocument]) false).value = .ok
      (Collection.merge (layers emptyTree (withSources linkConfig [panelDocument]) false)) :=
    build_of_labels hpanel
  have hwhole : (build emptyTree linkConfig true).value =
      .ok (Collection.merge (layers emptyTree linkConfig true)) := build_of_labels hlink
  refine ⟨⟨_, _, hc, hd, by decide +kernel, by decide +kernel, ?_⟩, ⟨_, hwhole, ?_⟩⟩
  · exact ((merge_adds_names []).2.2 _ _ _ _ hc).2 _ _ hd
  · exact ((merge_adds_names []).2.2 _ _ _ _ hwhole).1

end Catalog
end HtmlCatalog
