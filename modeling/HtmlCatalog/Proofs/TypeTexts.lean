import HtmlCatalog.Proofs.Conflicts
import HtmlCatalog.Proofs.Provenance

/-! What the text of a type tells about it. A literal stands in quotes that nothing inside it is
kept apart from, so a literal may read like several; but only types that are made of literals can
read alike, and they do so exactly if their literals come to the same when they are joined. Types
whose literals hold no quotes never read alike. The report of overridden types, which compares
texts, is exact to the same extent. -/
namespace HtmlCatalog
namespace ValueType

def literal? : ValueType → Option String
  | .literal s => some s
  | _ => none

def literals : ValueType → List String
  | .literal s => [s]
  | .union ts => ts.filterMap literal?
  | _ => []

def separator : String := "\" | \""

def joined (t : ValueType) : String := separator.intercalate t.literals

/-- Both types have literals only if these differ when they are joined. -/
def ToldApart (t u : ValueType) : Prop :=
  t.literals = [] ∨ u.literals = [] ∨ t.joined ≠ u.joined

def Unquoted (t : ValueType) : Prop := ∀ s ∈ t.literals, '"' ∉ s.toList

instance (t : ValueType) : Decidable t.Unquoted :=
  inferInstanceAs (Decidable (∀ s ∈ t.literals, '"' ∉ s.toList))

/-- A type that can be declared: a basic one, or any texts as alternatives. -/
inductive Declarable : ValueType → Prop
  | any : Declarable .any
  | string : Declarable .string
  | number : Declarable .number
  | boolean : Declarable .boolean
  | ofLiterals (values : List String) : Declarable (ofLiterals values)

theorem literals_ofLiterals (values : List String) : (ofLiterals values).literals = values := by
  rcases values with _ | ⟨s, _ | ⟨r, ss⟩⟩
  · rfl
  · rfl
  · simp [literals, literal?, List.filterMap_map, Function.comp_def]

section Join

variable {α : Type}

/-- Parts that stand between the same marks are marked at the ends and between them. -/
theorem intercalate_map_marked (mark middle : List α) {xs : List (List α)} (h : xs ≠ []) :
    middle.intercalate (xs.map fun x => mark ++ x ++ mark) =
      mark ++ (mark ++ middle ++ mark).intercalate xs ++ mark := by
  induction xs with
  | nil => exact absurd rfl h
  | cons x xs ih =>
    cases xs with
    | nil => simp
    | cons y ys =>
      have hrest := ih (by simp)
      simp only [List.map_cons, List.intercalate_cons_cons] at hrest ⊢
      rw [hrest]
      simp

theorem append_cons_inj_of_notMem {mark : α} {xs ys as bs : List α} (hx : mark ∉ xs)
    (hy : mark ∉ ys) (h : xs ++ mark :: as = ys ++ mark :: bs) : xs = ys ∧ as = bs := by
  induction xs generalizing ys with
  | nil =>
    cases ys with
    | nil => exact ⟨rfl, (List.cons.inj h).2⟩
    | cons y ys => exact absurd ((List.cons.inj h).1 ▸ List.mem_cons_self) hy
  | cons x xs ih =>
    cases ys with
    | nil => exact absurd ((List.cons.inj h).1 ▸ List.mem_cons_self) hx
    | cons y ys =>
      obtain ⟨rfl, htail⟩ := List.cons.inj h
      have hxs : mark ∉ xs := fun hmem => hx (List.mem_cons_of_mem x hmem)
      have hys : mark ∉ ys := fun hmem => hy (List.mem_cons_of_mem x hmem)
      obtain ⟨rfl, rfl⟩ := ih hxs hys htail
      exact ⟨rfl, rfl⟩

/-- After its first part a joined list goes on with the mark, whether parts follow or not. -/
theorem intercalate_cons_concat (mark : α) (rest x : List α) (xs : List (List α)) :
    (mark :: rest).intercalate (x :: xs) ++ [mark] =
      x ++ mark :: match xs with
        | [] => []
        | y :: ys => rest ++ ((mark :: rest).intercalate (y :: ys) ++ [mark]) := by
  cases xs <;> simp [List.intercalate_cons_cons]

/-- Parts that do not hold the mark are known from the joined list with the mark at its end, if
what separates them begins with the mark and is longer. -/
theorem eq_of_intercalate_eq {mark : α} {rest : List α} (hrest : rest ≠ [])
    {xs ys : List (List α)} (hx : ∀ x ∈ xs, mark ∉ x) (hy : ∀ y ∈ ys, mark ∉ y) (hxs : xs ≠ [])
    (hys : ys ≠ [])
    (h : (mark :: rest).intercalate xs ++ [mark] = (mark :: rest).intercalate ys ++ [mark]) :
    xs = ys := by
  induction xs generalizing ys with
  | nil => exact absurd rfl hxs
  | cons x xs ih =>
    obtain ⟨y, ys, rfl⟩ := List.exists_cons_of_ne_nil hys
    rw [List.forall_mem_cons] at hx hy
    rw [intercalate_cons_concat, intercalate_cons_concat] at h
    obtain ⟨rfl, htail⟩ := append_cons_inj_of_notMem hx.1 hy.1 h
    cases xs with
    | nil =>
      cases ys with
      | nil => rfl
      | cons w ws => simp [hrest] at htail
    | cons z zs =>
      cases ys with
      | nil => simp [hrest] at htail
      | cons w ws => rw [ih hx.2 hy.2 (by simp) (by simp) (List.append_cancel_left htail)]

end Join

section Text

variable {t u : ValueType}

theorem toList_joined (t : ValueType) :
    t.joined.toList = separator.toList.intercalate (t.literals.map String.toList) := by
  rw [joined, String.toList_intercalate]

theorem text_ofLiterals {values : List String} (h : values ≠ []) :
    (ofLiterals values).text = "\"" ++ (ofLiterals values).joined ++ "\"" := by
  have hunion : ∀ ss : List String, (ValueType.union (ss.map .literal)).text.toList =
      " | ".toList.intercalate ((ss.map String.toList).map fun s => ['"'] ++ s ++ ['"']) := by
    intro ss
    simp [text, String.toList_intercalate, Function.comp_def]
  rcases values with _ | ⟨s, _ | ⟨r, ss⟩⟩
  · exact absurd rfl h
  · simp [text, joined, literals]
  · have hne : (s :: r :: ss).map String.toList ≠ [] := by simp
    have hmarked := intercalate_map_marked ['"'] " | ".toList hne
    rw [← hunion] at hmarked
    rw [← String.toList_inj, String.toList_append, String.toList_append, toList_joined,
      literals_ofLiterals]
    exact hmarked

theorem Declarable.eq_ofLiterals (ht : Declarable t) (h : t.literals ≠ []) :
    t = ValueType.ofLiterals t.literals := by
  cases ht with
  | ofLiterals values => rw [literals_ofLiterals]
  | _ => exact absurd rfl h

theorem Declarable.text_eq (ht : Declarable t) (h : t.literals ≠ []) :
    t.text = "\"" ++ t.joined ++ "\"" := by
  have htext := text_ofLiterals h
  rwa [← ht.eq_ofLiterals h] at htext

def bare : List ValueType := [.any, .string, .number, .boolean, .union []]

theorem Declarable.mem_bare (ht : Declarable t) (h : t.literals = []) : t ∈ bare := by
  cases ht with
  | ofLiterals values =>
    rw [literals_ofLiterals] at h
    subst h
    decide
  | _ => decide

theorem Declarable.eq_of_text_eq (ht : Declarable t) (hu : Declarable u) (h : t.literals = [])
    (htext : t.text = u.text) : t = u := by
  by_cases hlit : u.literals = []
  · have hbare : ∀ t ∈ bare, ∀ u ∈ bare, t.text = u.text → t = u := by decide
    exact hbare t (ht.mem_bare h) u (hu.mem_bare hlit) htext
  · -- A type that is made of literals begins with a quote, and no other does.
    have hbare : ∀ t ∈ bare, t.text.toList.head? ≠ some '"' := by decide
    refine absurd ?_ (hbare t (ht.mem_bare h))
    rw [htext, hu.text_eq hlit]
    simp

/-- Types that can be declared read alike only if they are the same or are not told apart by their
literals. -/
theorem text_eq_text_iff (ht : Declarable t) (hu : Declarable u) :
    t.text = u.text ↔ t = u ∨ ¬ ToldApart t u := by
  simp only [ToldApart, not_or, not_not]
  constructor
  · intro htext
    by_cases h : t.literals = []
    · exact .inl (ht.eq_of_text_eq hu h htext)
    · by_cases h' : u.literals = []
      · exact .inl (hu.eq_of_text_eq ht h' htext.symm).symm
      · rw [ht.text_eq h, hu.text_eq h'] at htext
        simp only [String.append_right_inj, String.append_left_inj] at htext
        exact .inr ⟨h, h', htext⟩
  · rintro (rfl | ⟨h, h', hjoined⟩)
    · rfl
    · rw [ht.text_eq h, hu.text_eq h', hjoined]

theorem toldApart_of_unquoted (ht : Declarable t) (hu : Declarable u) (hqt : t.Unquoted)
    (hqu : u.Unquoted) (hne : t ≠ u) : ToldApart t u := by
  by_contra h
  simp only [ToldApart, not_or, not_not] at h
  obtain ⟨h, h', hjoined⟩ := h
  refine hne ?_
  have hseparator : separator.toList = '"' :: [' ', '|', ' ', '"'] := by decide
  have hmarked : ('"' :: [' ', '|', ' ', '"']).intercalate (t.literals.map String.toList) ++ ['"'] =
      ('"' :: [' ', '|', ' ', '"']).intercalate (u.literals.map String.toList) ++ ['"'] := by
    rw [← hseparator, ← toList_joined, ← toList_joined, hjoined]
  have hliterals : t.literals.map String.toList = u.literals.map String.toList := by
    refine eq_of_intercalate_eq (by simp) ?_ ?_ (by simpa using h) (by simpa using h') hmarked
    · simpa [Unquoted] using hqt
    · simpa [Unquoted] using hqu
  rw [ht.eq_ofLiterals h, hu.eq_ofLiterals h',
    List.map_injective_iff.mpr (fun _ _ => String.toList_inj.mp) hliterals]

end Text

end ValueType

namespace Document

open ValueType

variable {es : Entries} {sets : ValueSets} {kind : MemberKind} {owner : Option String} {v : Value}
  {m : Member} {type : ValueType}

theorem declarable_ofName (name : String) : Declarable (Hint.ofName name).type := by
  unfold Hint.ofName
  split_ifs
  · exact .boolean
  · exact .number
  · exact .string
  · exact .any

theorem declarable_statedType (h : statedType es = .ok (some type)) : Declarable type := by
  unfold statedType at h
  split at h
  · simp at h
  · obtain rfl := Option.some.inj (Except.ok.inj h)
    exact declarable_ofName _
  · split at h
    · obtain rfl := Option.some.inj (Except.ok.inj h)
      exact .ofLiterals _
    · simp at h
  · simp at h

theorem declarable_ofValues (values : List String) : Declarable (ofValues values) := by
  unfold ofValues
  split_ifs
  · exact .any
  · exact .ofLiterals values

theorem declarable_attributeType (h : attributeType sets es = .ok type) : Declarable type := by
  simp only [attributeType, bind_eq_ok (x := statedType es)] at h
  obtain ⟨stated, hstated, h⟩ := h
  cases stated with
  | some t =>
    obtain rfl := Except.ok.inj h
    exact declarable_statedType hstated
  | none =>
    simp only [bind_eq_ok (x := valueSetName es)] at h
    obtain ⟨set, -, h⟩ := h
    split_ifs at h
    · obtain rfl := Except.ok.inj h
      exact .boolean
    · obtain ⟨own, -, h⟩ := section_eq_ok_iff.mp h
      obtain rfl := Except.ok.inj h
      exact declarable_ofValues _

theorem declarable_readAttribute (h : readAttribute sets kind owner v = .ok m) :
    Declarable m.type := by
  obtain ⟨es, name, type, -, -, htype, rfl⟩ := readAttribute_eq_ok_iff.mp h
  exact declarable_attributeType htype

theorem declarable_readEvent (h : readEvent owner v = .ok m) : Declarable m.type := by
  obtain ⟨es, name, type, -, -, htype, rfl⟩ := readEvent_eq_ok_iff.mp h
  cases type with
  | some t => exact declarable_statedType htype
  | none => exact .any

theorem declarable_parse {c : Collection} {k : Summary.Key} (h : parse v = .ok c)
    (hm : m ∈ c.declarations k) : Declarable m.type := by
  obtain ⟨es, -, version, sets, hes⟩ := parse_eq_ok_iff.mp h
  refine Collection.forall_declarations (P := (Declarable ·.type)) ?_ ?_ m hm
  · refine hes.tags.forall_mem fun v t ht => ?_
    obtain ⟨fields, -, hfields⟩ := readTag_eq_ok_iff.mp ht
    refine Tag.forall_members_iff.mpr ⟨?_, ?_, ?_⟩
    · exact hfields.attributes.forall_mem fun _ _ => declarable_readAttribute
    · exact hfields.properties.forall_mem fun _ _ => declarable_readAttribute
    · exact hfields.events.forall_mem fun _ _ => declarable_readEvent
  · refine Collection.forall_globals_iff.mpr ⟨?_, ?_⟩
    · exact hes.attributes.forall_mem fun _ _ => declarable_readAttribute
    · exact hes.events.forall_mem fun _ _ => declarable_readEvent

/-- A type that a member of some accepted document has. -/
def Gives (type : ValueType) : Prop :=
  ∃ v c, parse v = .ok c ∧ ∃ k, ∃ m ∈ c.declarations k, m.type = type

def attributeEntries (hint : Value) : Entries := [(.str "name", .str "x"), (.str "type", hint)]

def attributeDocument (hint : Value) : Value :=
  .map [(.str "version", .int 1),
    (.str "globalAttributes", .list [.map (attributeEntries hint)])]

theorem parse_attributeDocument {hint : Value}
    (h : statedType (attributeEntries hint) = .ok (some type)) :
    parse (attributeDocument hint) = .ok { attributes := [{ name := "x", type }] } := by
  have htype : attributeType [] (attributeEntries hint) = .ok type := by
    rw [attributeType, h]
    rfl
  have hattribute : readAttribute [] .attribute none (.map (attributeEntries hint)) =
      .ok { name := "x", type } :=
    readAttribute_eq_ok_iff.mpr ⟨_, "x", type, rfl, rfl, htype, rfl⟩
  refine parse_map_eq_ok_iff.mpr ⟨.one, [], rfl, ⟨[], rfl, rfl⟩, ⟨[], rfl, rfl⟩, ?_, rfl⟩
  refine ⟨_, rfl, ?_⟩
  rw [List.mapM_cons, hattribute]
  rfl

theorem texts?_map_str (values : List String) : texts? (values.map .str) = some values := by
  induction values with
  | nil => rfl
  | cons s ss ih => rw [List.map_cons, texts?, ih, Option.map_some]

theorem gives_of_statedType (hint : Value)
    (h : statedType (attributeEntries hint) = .ok (some type)) : Gives type :=
  ⟨_, _, parse_attributeDocument h, .ofGlobal .attribute "x", _, List.mem_singleton_self _, rfl⟩

theorem gives_iff_declarable : Gives type ↔ Declarable type := by
  constructor
  · rintro ⟨v, c, hc, k, m, hm, rfl⟩
    exact declarable_parse hc hm
  · intro h
    cases h with
    | any => exact gives_of_statedType (.str "any") rfl
    | string => exact gives_of_statedType (.str "string") rfl
    | number => exact gives_of_statedType (.str "number") rfl
    | boolean => exact gives_of_statedType (.str "boolean") rfl
    | ofLiterals values =>
      have hfield : Value.field (attributeEntries (.list (values.map .str))) "type" =
          .list (values.map .str) := rfl
      refine gives_of_statedType (.list (values.map .str)) ?_
      simp only [statedType, hfield, texts?_map_str]

end Document

namespace Conflict

open Summary ValueType Document

variable {c base override : Collection} {k : Key} {m n : Member}

theorem exists_declaration_of_member? (h : (Collection.merge [c]).member? k = some m) :
    ∃ d, (c.declarations k).getLast? = some d ∧ d.type = m.type := by
  have htype := Collection.type_member?_merge [c] k
  rw [h, Collection.lastDeclaration_eq_getLast?, List.flatMap_singleton, Option.map_some] at htype
  exact Option.map_eq_some_iff.mp htype.symm

theorem mem_keys_typeOverrides_iff (hb : base.OwnKinds) (ho : override.OwnKinds)
    (hm : (Collection.merge [base]).member? k = some m)
    (hn : (Collection.merge [override]).member? k = some n) :
    k ∈ (detect base override).typeOverrides.map (·.key) ↔ m.type.text ≠ n.type.text := by
  obtain ⟨d, hd, hdm⟩ := exists_declaration_of_member? hm
  obtain ⟨e, he, hen⟩ := exists_declaration_of_member? hn
  rw [← hdm, ← hen, List.mem_map]
  constructor
  · rintro ⟨r, hr, rfl⟩
    obtain ⟨d', hd', e', he', -, hne⟩ := (mem_typeOverrides hb ho).mp hr
    obtain rfl := Option.some.inj (hd.symm.trans hd')
    obtain rfl := Option.some.inj (he.symm.trans he')
    exact hne
  · intro hne
    exact ⟨⟨k, _, _, _, _⟩, (mem_typeOverrides hb ho).mpr ⟨d, hd, e, he, rfl, hne⟩, rfl⟩

/-- Two types that documents give have different texts if they differ, unless both are made of
literals that come to the same when they are joined; with no quote in a literal they never do. The
report of overridden types lists the keys whose types differ with the same exception. -/
theorem text_determines_type {t u : ValueType} (ht : Gives t) (hu : Gives u) :
    ((t.text = u.text → t = u) ↔ t = u ∨ ToldApart t u) ∧
      (Unquoted t → Unquoted u → t.text = u.text → t = u) ∧
      ∀ base override : Collection, base.OwnKinds → override.OwnKinds → ∀ k m n,
        (Collection.merge [base]).member? k = some m →
        (Collection.merge [override]).member? k = some n → m.type = t → n.type = u →
          ((t ≠ u → k ∈ (detect base override).typeOverrides.map (·.key)) ↔
            t = u ∨ ToldApart t u) := by
  rw [gives_iff_declarable] at ht hu
  have htext : (t.text = u.text → t = u) ↔ t = u ∨ ToldApart t u := by
    rw [text_eq_text_iff ht hu]
    by_cases htu : t = u <;> simp [htu]
  refine ⟨htext, fun hqt hqu => ?_, ?_⟩
  · refine htext.mpr ?_
    by_cases htu : t = u
    · exact .inl htu
    · exact .inr (toldApart_of_unquoted ht hu hqt hqu htu)
  · rintro base override hb ho k m n hm hn rfl rfl
    rw [mem_keys_typeOverrides_iff hb ho hm hn, ← htext]
    exact not_imp_not

def attributeOfType (type : ValueType) : Collection where
  attributes := [{ name := "x", type }]

theorem ownKinds_attributeOfType (type : ValueType) : (attributeOfType type).OwnKinds where
  ofTag t ht := by simp [attributeOfType] at ht
  ofGlobals kind m hm := by
    cases kind <;> simp_all [Collection.globals, attributeOfType]

theorem text_determines_type_themes :
    Gives (ofLiterals ["dark"]) ∧ Gives (ofLiterals ["dark", "light"]) ∧
      ((ofLiterals ["dark"]).text = (ofLiterals ["dark", "light"]).text →
        ofLiterals ["dark"] = ofLiterals ["dark", "light"]) ∧
      Key.ofGlobal .attribute "x" ∈ (detect (attributeOfType (ofLiterals ["dark"]))
        (attributeOfType (ofLiterals ["dark", "light"]))).typeOverrides.map (·.key) := by
  have hone : Gives (ofLiterals ["dark"]) := gives_iff_declarable.mpr (.ofLiterals _)
  have htwo : Gives (ofLiterals ["dark", "light"]) := gives_iff_declarable.mpr (.ofLiterals _)
  have hunquoted : ∀ values ∈ [["dark"], ["dark", "light"]], Unquoted (ofLiterals values) := by
    decide
  obtain ⟨-, htext, hreport⟩ := text_determines_type hone htwo
  refine ⟨hone, htwo, htext (hunquoted _ (by simp)) (hunquoted _ (by simp)), ?_⟩
  refine (hreport _ _ (ownKinds_attributeOfType _) (ownKinds_attributeOfType _)
    (.ofGlobal .attribute "x") _ _ rfl rfl rfl rfl).mpr ?_ ?_
  · exact .inr (.inr (.inr (by decide)))
  · decide

/-- One text that looks like two, as the only alternative, and the two that it looks like. -/
theorem not_text_determines_type :
    Gives (ofLiterals ["a\" | \"b"]) ∧ Gives (ofLiterals ["a", "b"]) ∧
      (ofLiterals ["a\" | \"b"]).text = (ofLiterals ["a", "b"]).text ∧
      ofLiterals ["a\" | \"b"] ≠ ofLiterals ["a", "b"] ∧
      parse (attributeDocument (.list [.str "a\" | \"b"])) =
        .ok (attributeOfType (ofLiterals ["a\" | \"b"])) ∧
      parse (attributeDocument (.list [.str "a", .str "b"])) =
        .ok (attributeOfType (ofLiterals ["a", "b"])) ∧
      (detect (attributeOfType (ofLiterals ["a\" | \"b"]))
        (attributeOfType (ofLiterals ["a", "b"]))).typeOverrides = [] :=
  ⟨gives_iff_declarable.mpr (.ofLiterals _), gives_iff_declarable.mpr (.ofLiterals _),
    by decide, by decide, rfl, rfl, by decide⟩

end Conflict
end HtmlCatalog
