import HtmlCatalog.Proofs.Layers
import HtmlCatalog.Proofs.Loading
import HtmlCatalog.Proofs.RelativeSources

/-! The forms in which a source may be given. A document may stand in the settings themselves or in
a file that they name, and the file may hold its list of tags alone; one source need not stand in a
list. What the settings describe is the same in every form, and parsing alone decides which sources
count. -/
namespace HtmlCatalog

variable {t : FileTree} {v w : Value} {c : Collection}

namespace Source

/-- A text that names a file in which a value stands in object notation. -/
def NamesFileOf (t : FileTree) (s : String) (v : Value) : Prop :=
  ∃ bytes cs, t.lookup (.ofText s) = .ok (.file bytes) ∧ Utf8.decode bytes = .ok cs ∧
    Json.read (Text.normalizeLines cs) = .ok v

theorem NamesFileOf.origin {s : String} (h : NamesFileOf t s v) :
    (Source.value (.str s)).origin t = .ok (.file (.ofText s)) := by
  obtain ⟨bytes, -, hfile, -⟩ := h
  have hisFile : t.isFile (.ofText s) = true := by rw [FileTree.isFile, hfile]
  rw [Config.origin_str, if_pos hisFile]

theorem NamesFileOf.read {s : String} (h : NamesFileOf t s v) :
    (Origin.file (.ofText s)).read t = .ok v := by
  obtain ⟨bytes, cs, hfile, hdecode, hread⟩ := h
  simp only [Origin.read, hfile, Origin.readFile, hdecode, hread]

/-- Two sources that give the same document in different forms: as it is, and by naming a file in
which it stands, or in which its list of tags stands alone. -/
inductive SameDocument (t : FileTree) : Value → Value → Prop
  | refl (v : Value) : SameDocument t v v
  | file {es : List (Scalar × Value)} {s : String} (h : NamesFileOf t s (.map es)) :
      SameDocument t (.map es) (.str s)
  | tagList {tags : List Value} {s : String} (h : NamesFileOf t s (.list tags)) :
      SameDocument t (Origin.ofTagList tags) (.str s)

theorem SameDocument.data?_eq (h : SameDocument t v w) : data? t w = data? t v := by
  cases h with
  | refl => rfl
  | file h => rw [Source.data?_eq h.origin h.read]; rfl
  | tagList h => rw [Source.data?_eq h.origin h.read]; rfl

theorem SameDocument.parsed?_eq (h : SameDocument t v w) : parsed? t w = parsed? t v := by
  rw [parsed?, parsed?, h.data?_eq]

theorem SameDocument.eq_or_isSome_label? (h : SameDocument t v w) :
    w = v ∨ (label? v).isSome = true ∧ (label? w).isSome = true := by
  cases h with
  | refl => exact .inl rfl
  | file h => exact .inr ⟨rfl, by simp [label?]⟩
  | tagList h => exact .inr ⟨rfl, by simp [label?]⟩

end Source

namespace UserData

open Source

variable {config other : Config}

/-- What a step comes to depends on what is parsed and on whether the source can be written. -/
theorem step_value_eq (t : FileTree) (p : Progress) (v : Value) :
    (step t p v).value =
      match parsed? t v with
      | some c => .ok { p with collection := Collection.merge [p.collection, c] }
      | none =>
        if (label? v).isSome then .ok { p with skipped := p.skipped + 1 }
        else .error (.unwritable v) := by
  rw [← toOption_load]
  cases hload : load t v with
  | ok c => rw [step_of_ok p hload]; rfl
  | error f =>
    cases hlabel : label? v with
    | none => rw [step_of_unwritable p hlabel]; rfl
    | some label => rw [step_of_error p hload hlabel]; rfl

theorem step_value_of_sameDocument (h : SameDocument t v w) (p : Progress) :
    (step t p w).value = (step t p v).value := by
  rcases h.eq_or_isSome_label? with rfl | ⟨hv, hw⟩
  · rfl
  · simp only [step_value_eq, h.parsed?_eq, hv, hw, if_true]

theorem value_readAll_cons (t : FileTree) (p : Progress) (v : Value) (rest : List Value) :
    (readAll t p (v :: rest)).value =
      (step t p v).value.bind fun q => (readAll t q rest).value := by
  rw [readAll, Logged.value_andThen]

/-- A run goes the same way if documents in it are given in other forms. -/
theorem readAll_value_of_sameDocuments {vs ws : List Value}
    (h : List.Forall₂ (SameDocument t) vs ws) (p : Progress) :
    (readAll t p ws).value = (readAll t p vs).value := by
  induction h generalizing p with
  | nil => rfl
  | cons hstep _ ih =>
    rw [value_readAll_cons, value_readAll_cons, step_value_of_sameDocument hstep]
    congr 1
    funext q
    exact ih q

theorem collection_value_eq (t : FileTree) (config : Config) :
    (collection t config).value = (readAll t {} config.sources).value.bind fun p =>
      .ok (Collection.combine [listed config, p.collection]) := by
  rw [collection, Logged.value_andThen]

/-- Settings that list the same names and give the same documents describe the same. -/
theorem collection_value_of_sameDocuments (hlisted : listed other = listed config)
    (h : List.Forall₂ (SameDocument t) config.sources other.sources) :
    (collection t other).value = (collection t config).value := by
  rw [collection_value_eq, collection_value_eq, hlisted, readAll_value_of_sameDocuments h]

def withData (config : Config) (data : Value) : Config := { config with customHtmlData := data }

/-- A source by itself counts as a list of one. Nothing at all counts as no source, where in a list
it would be one that fails. -/
theorem collection_value_withData (config : Config) (hv : ∀ items, v ≠ .list items) :
    (collection t (withData config v)).value =
      (collection t (withData config (.list [v]))).value := by
  by_cases hnull : v = .null
  · subst hnull
    rfl
  · have hsources : (withData config v).sources = [v] := by
      change Config.sourcesOf v = [v]
      unfold Config.sourcesOf
      split
      · exact absurd rfl hnull
      · exact absurd rfl (hv _)
      · rfl
    rw [collection_value_eq, collection_value_eq, hsources]
    rfl

theorem collection_eq_ok_iff :
    (collection t config).value = .ok c ↔
      (∀ v ∈ config.sources, v.isWritable = true ∨ ∃ es, v = .map es) ∧
        c = Collection.combine [listed config,
          Collection.merge (config.sources.filterMap (parsed? t))] := by
  have hloaded : loaded t config.sources = config.sources.filterMap (parsed? t) := by
    rw [loaded]
    simp only [toOption_load]
  have hgiven : (∃ c, (collection t config).value = .ok c) ↔
      ∀ v ∈ config.sources, v.isWritable = true ∨ ∃ es, v = .map es :=
    (iff_isWritable_of_labels (fun h => ⟨_, (collection_of_labels h).1⟩)
      collection_value_of_no_label id).1
  rw [← hloaded]
  constructor
  · intro h
    exact ⟨hgiven.mp ⟨c, h⟩, eq_of_collection_eq_ok h⟩
  · rintro ⟨hwritable, rfl⟩
    obtain ⟨d, hd⟩ := hgiven.mpr hwritable
    rw [hd, eq_of_collection_eq_ok hd]

/-- It makes no difference in which form sources are given: a document at any place among the
others, as it is or in a file, and one source in a list or by itself. A path that is given as one
leads to the same file as its text. -/
structure AnyForm (t : FileTree) : Prop where
  document : ∀ (config : Config) (before after : List Value) (v w : Value),
    config.sources = before ++ v :: after → SameDocument t v w →
      (collection t (withData config (.list (before ++ w :: after)))).value =
        (collection t config).value
  single : ∀ (config : Config) (v : Value), (∀ items, v ≠ .list items) →
    (collection t (withData config v)).value =
      (collection t (withData config (.list [v]))).value
  path : ∀ s, t.isFile (.ofText s) = true →
    (Source.path (.ofText s)).origin t = (Source.value (.str s)).origin t

/-- It is for parsing alone to say which sources count. What is refused for its form could not be
parsed, and a source is loaded if what was read and repaired can be. If the build gives a collection
it is made of the listed names and of all that could be parsed; the build gives one unless there is
a source, and no map, that cannot be written in a report. -/
structure ParsingDecides (t : FileTree) : Prop where
  refused : ∀ v, Origin.isDocument v = false → ∃ f, Document.parse v = .error f
  loads : ∀ v c, load t v = .ok c ↔ ∃ w, data? t v = some w ∧ Document.parse w = .ok c
  builds : ∀ config c, (collection t config).value = .ok c ↔
    (∀ v ∈ config.sources, v.isWritable = true ∨ ∃ es, v = .map es) ∧
      c = Collection.combine [listed config,
        Collection.merge (config.sources.filterMap (parsed? t))]

theorem anyForm (t : FileTree) : AnyForm t where
  document config before after v w hsources h := by
    refine collection_value_of_sameDocuments rfl ?_
    rw [hsources]
    exact List.rel_append (List.forall₂_same.mpr fun u _ => .refl u)
      (.cons h (List.forall₂_same.mpr fun u _ => .refl u))
  single config v hv := collection_value_withData config hv
  path s hs := by
    rw [Config.origin_str, if_pos hs, Source.origin, if_pos hs]

theorem parsingDecides (t : FileTree) : ParsingDecides t where
  refused v hform := by
    cases hparse : Document.parse v with
    | error f => exact ⟨f, rfl⟩
    | ok c => simp [Document.isDocument_of_parse hparse] at hform
  loads v c := load_eq_ok_iff
  builds config c := collection_eq_ok_iff

/-- The form in which sources are given makes no difference, and what counts is what can be parsed,
whatever the files hold. -/
theorem given_in_any_form (t : FileTree) : AnyForm t ∧ ParsingDecides t :=
  ⟨anyForm t, parsingDecides t⟩

def noteText : String :=
  "\x7b\"version\": 1.1, \"tags\": [\x7b\"name\": \"x-note\"\x7d]\x7d"

def panelText : String := "[\x7b\"name\": \"x-panel\"\x7d]"

def formTree : FileTree :=
  FileTree.empty ⟨"/", ["w"]⟩
    |>.put ["w", "note.json"] (.file (Report.bytesOf noteText))
    |>.put ["w", "panel.json"] (.file (Report.bytesOf panelText))

def noteDocument : Value :=
  .map [(.str "version", .real Document.onePointOne),
    (.str "tags", .list [.map [(.str "name", .str "x-note")]])]

def panelTags : List Value := [.map [(.str "name", .str "x-panel")]]

def formConfig : Config where
  customHtmlData := .list [.int 7, noteDocument, .str "nowhere", Origin.ofTagList panelTags]

theorem namesFileOf_note : NamesFileOf formTree "note.json" noteDocument :=
  ⟨Report.bytesOf noteText, noteText.toList, by decide +kernel, by decide +kernel,
    by decide +kernel⟩

theorem namesFileOf_panel : NamesFileOf formTree "panel.json" (.list panelTags) :=
  ⟨Report.bytesOf panelText, panelText.toList, by decide +kernel, by decide +kernel,
    by decide +kernel⟩

/-- Both documents may be given by their files, one after the other. -/
theorem given_in_any_form_files :
    ∃ c, (collection formTree formConfig).value = .ok c ∧
      (collection formTree (withData formConfig
        (.list [.int 7, .str "note.json", .str "nowhere", .str "panel.json"]))).value = .ok c ∧
      c.tags.map (·.name) = ["x-note", "x-panel"] := by
  obtain ⟨hforms, hparsing⟩ := given_in_any_form formTree
  have hwritable : ∀ v ∈ formConfig.sources, v.isWritable = true ∨ ∃ es, v = .map es := by
    simp only [← label?_isSome_iff]
    decide +kernel
  have hnote := hforms.document formConfig [.int 7] _ _ _ rfl (.file namesFileOf_note)
  have hpanel := hforms.document
    (withData formConfig (.list [.int 7, .str "note.json", .str "nowhere",
      Origin.ofTagList panelTags]))
    [.int 7, .str "note.json", .str "nowhere"] [] _ _ rfl (.tagList namesFileOf_panel)
  have hvalue := (hparsing.builds formConfig _).mpr ⟨hwritable, rfl⟩
  exact ⟨_, hvalue, hpanel.trans (hnote.trans hvalue), by decide +kernel⟩

end UserData
end HtmlCatalog
