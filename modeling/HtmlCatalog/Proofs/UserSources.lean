import HtmlCatalog.UserData
import HtmlCatalog.Proofs.MergeAlgebra

/-! Reading the sources of the settings one after the other. Sources that fail leave no trace but a
report each: what the others describe comes out merged as if it had been merged at once. The run
stops early for one reason only, a source that fails and cannot be written in its report. -/
namespace HtmlCatalog
namespace UserData

variable {t : FileTree} {v : Value} {sources : List Value}

/-- The sources that can be loaded. -/
def loadable (t : FileTree) (sources : List Value) : List Value :=
  sources.filter fun v => (Source.load t v).isOk

/-- What they describe. -/
def loaded (t : FileTree) (sources : List Value) : List Collection :=
  sources.filterMap fun v => (Source.load t v).toOption

def failing (t : FileTree) (sources : List Value) : List Value :=
  sources.filter fun v => !(Source.load t v).isOk

/-- Whether an entry is the report about a source that fails. -/
def Reports (t : FileTree) (v : Value) (e : LogEntry) : Prop :=
  ∃ label f, Source.label? v = some label ∧ Source.load t v = .error f ∧
    e = failureReport label f

def atLevel (level : LogLevel) (log : List LogEntry) : List LogEntry :=
  log.filter (·.level == level)

theorem atLevel_append (level : LogLevel) (log log' : List LogEntry) :
    atLevel level (log ++ log') = atLevel level log ++ atLevel level log' := List.filter_append ..

theorem atLevel_resolve {level : LogLevel} (h : level ≠ .debug) (s : Source) :
    atLevel level (s.resolve t).log = [] := by
  cases hp : s.path? with
  | none => simp [Source.resolve, hp, atLevel]
  | some p => simp [Source.resolve, hp, atLevel, h.symm]

theorem loaded_loadable (t : FileTree) (sources : List Value) :
    loaded t (loadable t sources) = loaded t sources := by
  simp only [loaded, loadable, List.filterMap_filter]
  congr 1
  funext v
  cases Source.load t v <;> rfl

/-- A source that cannot be written in a report is no document and names no file. -/
theorem load_of_label?_eq_none (h : Source.label? v = none) :
    Source.load t v = .error (.notADocument (Origin.inline v).label) := by
  cases v with
  | map es => simp [Source.label?] at h
  | scalar s =>
    cases s with
    | str s => simp [Source.label?] at h
    | _ => rfl
  | _ => rfl

section Step

variable (p : Progress)

theorem step_of_ok {c : Collection} (h : Source.load t v = .ok c) :
    step t p v = ⟨.ok { p with collection := Collection.merge [p.collection, c] },
      (Source.resolve t (.value v)).log⟩ := by
  simp [step, h]

theorem step_of_error {f : Source.Fault} {label : String} (h : Source.load t v = .error f)
    (hl : Source.label? v = some label) :
    step t p v = ⟨.ok { p with skipped := p.skipped + 1 },
      (Source.resolve t (.value v)).log ++ [failureReport label f]⟩ := by
  simp [step, h, hl]

theorem step_of_unwritable (h : Source.label? v = none) :
    (step t p v).value = .error (.unwritable v) := by
  simp [step, load_of_label?_eq_none h, h]

end Step

section Cons

variable (rest : List Value)

theorem loaded_cons_of_ok {c : Collection} (h : Source.load t v = .ok c) :
    loaded t (v :: rest) = c :: loaded t rest := by
  simp [loaded, h, Except.toOption]

theorem failing_cons_of_ok {c : Collection} (h : Source.load t v = .ok c) :
    failing t (v :: rest) = failing t rest := by
  simp [failing, h, Except.isOk, Except.toBool]

theorem loaded_cons_of_error {f : Source.Fault} (h : Source.load t v = .error f) :
    loaded t (v :: rest) = loaded t rest := by
  simp [loaded, h, Except.toOption]

theorem failing_cons_of_error {f : Source.Fault} (h : Source.load t v = .error f) :
    failing t (v :: rest) = v :: failing t rest := by
  simp [failing, h, Except.isOk, Except.toBool]

end Cons

theorem readAll_of_labels (h : ∀ v ∈ sources, (Source.label? v).isSome) (p : Progress) :
    ∃ log,
      readAll t p sources =
        ⟨.ok ⟨(loaded t sources).foldl (fun c d => Collection.merge [c, d]) p.collection,
          p.skipped + (failing t sources).length⟩, log⟩ ∧
      List.Forall₂ (Reports t) (failing t sources) (atLevel .error log) ∧
      atLevel .warning log = [] := by
  induction sources generalizing p with
  | nil => exact ⟨[], rfl, .nil, rfl⟩
  | cons v rest ih =>
    have hrest := fun w hw => h w (List.mem_cons_of_mem v hw)
    have herror : atLevel .error (Source.resolve t (.value v)).log = [] :=
      atLevel_resolve (by decide) _
    have hwarning : atLevel .warning (Source.resolve t (.value v)).log = [] :=
      atLevel_resolve (by decide) _
    cases hv : Source.load t v with
    | ok c =>
      obtain ⟨log, hrun, he, hw⟩ :=
        ih hrest { p with collection := Collection.merge [p.collection, c] }
      refine ⟨(Source.resolve t (.value v)).log ++ log, ?_, ?_, ?_⟩
      · rw [readAll, step_of_ok p hv, Logged.andThen_of_ok rfl, hrun, loaded_cons_of_ok rest hv,
          failing_cons_of_ok rest hv, List.foldl_cons]
      · rw [atLevel_append, herror, failing_cons_of_ok rest hv]
        exact he
      · rw [atLevel_append, hwarning]
        exact hw
    | error f =>
      obtain ⟨label, hl⟩ := Option.isSome_iff_exists.mp (h v (by simp))
      obtain ⟨log, hrun, he, hw⟩ := ih hrest { p with skipped := p.skipped + 1 }
      have hreport : atLevel .error [failureReport label f] = [failureReport label f] := rfl
      refine ⟨(Source.resolve t (.value v)).log ++ [failureReport label f] ++ log, ?_, ?_, ?_⟩
      · rw [readAll, step_of_error p hv hl, Logged.andThen_of_ok rfl, hrun,
          loaded_cons_of_error rest hv, failing_cons_of_error rest hv, List.length_cons,
          Nat.add_assoc, Nat.add_comm 1]
      · rw [atLevel_append, atLevel_append, herror, hreport, failing_cons_of_error rest hv]
        exact .cons ⟨label, f, hl, hv, rfl⟩ he
      · rw [atLevel_append, atLevel_append, hwarning, hw]
        rfl

theorem readAll_of_unwritable (h : ∃ v ∈ sources, Source.label? v = none) (p : Progress) :
    ∃ v ∈ sources, (readAll t p sources).value = .error (.unwritable v) := by
  induction sources generalizing p with
  | nil => simp at h
  | cons v rest ih =>
    cases hl : Source.label? v with
    | none =>
      refine ⟨v, by simp, ?_⟩
      rw [readAll, Logged.andThen_of_error (step_of_unwritable p hl)]
    | some label =>
      obtain ⟨w, hw, hnone⟩ := h
      have hrest : w ∈ rest := by
        rcases List.mem_cons.mp hw with rfl | hw
        · simp [hnone] at hl
        · exact hw
      obtain ⟨q, hq⟩ : ∃ q, (step t p v).value = .ok q := by
        cases hv : Source.load t v with
        | ok c => exact ⟨_, by rw [step_of_ok p hv]⟩
        | error f => exact ⟨_, by rw [step_of_error p hv hl]⟩
      obtain ⟨u, hu, herror⟩ := ih ⟨w, hrest, hnone⟩ q
      refine ⟨u, List.mem_cons_of_mem v hu, ?_⟩
      rw [readAll, Logged.andThen_of_ok hq]
      exact herror

theorem atLevel_error_skippedReport (n : Nat) : atLevel .error (skippedReport n) = [] := by
  unfold skippedReport
  split_ifs <;> rfl

theorem atLevel_warning_skippedReport (n : Nat) :
    atLevel .warning (skippedReport n) = skippedReport n := by
  unfold skippedReport
  split_ifs <;> rfl

/-- The build goes through: it gives the listed names and then the sources that can be loaded, all
merged at once, and it reports every source that fails and, if there is one, their number. Other
settings with the same names and the same sources that can be loaded give the same. -/
structure GoesThrough (t : FileTree) (config : Config) : Prop where
  value : (collection t config).value =
    .ok (Collection.combine [listed config, Collection.merge (loaded t config.sources)])
  errors : List.Forall₂ (Reports t) (failing t config.sources)
    (atLevel .error (collection t config).log)
  warnings : atLevel .warning (collection t config).log =
    skippedReport (failing t config.sources).length
  unaffected : ∀ other : Config, listed other = listed config →
    loadable t other.sources = loadable t config.sources →
    (∀ v ∈ other.sources, (Source.label? v).isSome) →
    (collection t other).value = (collection t config).value

theorem collection_of_labels {config : Config}
    (h : ∀ v ∈ config.sources, (Source.label? v).isSome) :
    (collection t config).value =
        .ok (Collection.combine [listed config, Collection.merge (loaded t config.sources)]) ∧
      List.Forall₂ (Reports t) (failing t config.sources)
        (atLevel .error (collection t config).log) ∧
      atLevel .warning (collection t config).log =
        skippedReport (failing t config.sources).length := by
  obtain ⟨log, hrun, he, hw⟩ : ∃ log, _ := readAll_of_labels h {}
  have hvalue : collection t config =
      ⟨.ok (Collection.combine [listed config, Collection.merge (loaded t config.sources)]),
        log ++ skippedReport (failing t config.sources).length⟩ := by
    rw [collection, hrun, Logged.andThen_of_ok rfl, Collection.foldl_merge, Nat.zero_add]
  rw [hvalue]
  refine ⟨rfl, ?_, ?_⟩
  · rw [atLevel_append, atLevel_error_skippedReport, List.append_nil]
    exact he
  · rw [atLevel_append, hw, atLevel_warning_skippedReport, List.nil_append]

theorem label?_isSome_iff :
    (Source.label? v).isSome ↔ v.isWritable = true ∨ ∃ es, v = .map es := by
  cases v with
  | map es => simp [Source.label?]
  | list items => by_cases h : (Value.list items).isWritable <;> simp [Source.label?, h]
  | set items => by_cases h : (Value.set items).isWritable <;> simp [Source.label?, h]
  | scalar s => by_cases h : (Value.scalar s).isWritable <;> simp [Source.label?, h]

theorem exists_no_label (h : ¬ ∀ v ∈ sources, (Source.label? v).isSome) :
    ∃ v ∈ sources, Source.label? v = none := by
  simpa only [not_forall, Option.not_isSome_iff_eq_none, exists_prop] using h

/-- What holds when every source can be written in a report, and only if there is a value, holds
exactly then. -/
theorem iff_isWritable_of_labels {α : Type} {P : Prop} {value : Except Fault α}
    (hok : (∀ v ∈ sources, (Source.label? v).isSome) → P)
    (herror : (∃ v ∈ sources, Source.label? v = none) →
      ∃ v ∈ sources, value = .error (.unwritable v))
    (hvalue : P → ∃ a, value = .ok a) :
    (P ↔ ∀ v ∈ sources, v.isWritable = true ∨ ∃ es, v = .map es) ∧
      (¬ P → ∃ v ∈ sources, value = .error (.unwritable v)) := by
  simp only [← label?_isSome_iff]
  refine ⟨⟨fun h => ?_, hok⟩, fun h => herror (exists_no_label (mt hok h))⟩
  by_contra hnone
  obtain ⟨a, ha⟩ := hvalue h
  obtain ⟨w, -, hw⟩ := herror (exists_no_label hnone)
  rw [ha] at hw
  exact nomatch hw

theorem collection_value_of_no_label {config : Config}
    (h : ∃ v ∈ config.sources, Source.label? v = none) :
    ∃ v ∈ config.sources, (collection t config).value = .error (.unwritable v) := by
  obtain ⟨v, hv, herror⟩ := readAll_of_unwritable (t := t) h {}
  exact ⟨v, hv, by rw [collection, Logged.andThen_of_error herror]⟩

theorem eq_of_collection_eq_ok {config : Config} {c : Collection}
    (h : (collection t config).value = .ok c) :
    c = Collection.combine [listed config, Collection.merge (loaded t config.sources)] := by
  by_cases hlabels : ∀ v ∈ config.sources, (Source.label? v).isSome
  · rw [(collection_of_labels hlabels).1] at h
    exact (Except.ok.inj h).symm
  · obtain ⟨w, -, herror⟩ := collection_value_of_no_label (t := t) (exists_no_label hlabels)
    rw [herror] at h
    exact nomatch h

theorem goesThrough_of_labels {config : Config}
    (h : ∀ v ∈ config.sources, (Source.label? v).isSome) : GoesThrough t config := by
  obtain ⟨hvalue, he, hw⟩ := collection_of_labels (t := t) h
  refine ⟨hvalue, he, hw, ?_⟩
  intro other hlisted hsame hother
  rw [(collection_of_labels hother).1, hvalue, hlisted, ← loaded_loadable t other.sources,
    hsame, loaded_loadable]

/-- The build goes through exactly when every source is a map or holds no number that is too long
to be written. If one is neither, the build ends with a fault about such a source. -/
theorem goesThrough_iff_isWritable (t : FileTree) (config : Config) :
    (GoesThrough t config ↔
        ∀ v ∈ config.sources, v.isWritable = true ∨ ∃ es, v = .map es) ∧
      (¬ GoesThrough t config →
        ∃ v ∈ config.sources, (collection t config).value = .error (.unwritable v)) := by
  refine iff_isWritable_of_labels goesThrough_of_labels collection_value_of_no_label fun h => ?_
  exact ⟨_, h.value⟩

/-- Settings with one source, a number with more digits than may be written. -/
def longNumberOnly : Config where
  customHtmlData := .list [.int (Int.ofNat (Nat.pow 10 Digits.limit))]

def emptyTree : FileTree := .empty ⟨"/", []⟩

theorem no_label_longNumberOnly : ∃ v ∈ longNumberOnly.sources, Source.label? v = none :=
  ⟨_, List.mem_singleton_self _, by decide +kernel⟩

/-- A number for a source should only be left out, but a long one ends the build. -/
theorem not_goesThrough_longNumberOnly :
    (∃ v, (collection emptyTree longNumberOnly).value = .error (.unwritable v)) ∧
      ¬ GoesThrough emptyTree longNumberOnly := by
  obtain ⟨v, -, herror⟩ := collection_value_of_no_label (t := emptyTree) no_label_longNumberOnly
  refine ⟨⟨v, herror⟩, fun h => ?_⟩
  rw [h.value] at herror
  exact nomatch herror

end UserData
end HtmlCatalog
