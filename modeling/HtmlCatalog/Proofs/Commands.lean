import HtmlCatalog.Command
import HtmlCatalog.Proofs.Layers
import HtmlCatalog.Proofs.Tables

/-! What the command makes of a file tree. It merges its collections in another way than the
catalogue does, with the same result. If the settings cannot be read, or a source cannot be
reported, it ends before anything is written; otherwise the summary of the catalogue and the
reports that have rows are put into the report directory, and nothing else is. -/
namespace HtmlCatalog

namespace Command

open Report

variable {r : Yaml.Reader} {t u : FileTree} {o : CommandLine.Options} {config : Config}
  {words : List String}

theorem builtin_value (o : CommandLine.Options) :
    (builtin o).value = Catalog.base o.includeBuiltin := by
  unfold builtin Catalog.base
  split_ifs <;> rfl

theorem build_of_user {user : Collection} (h : (UserData.collection t config).value = .ok user) :
    (build t o config).value = .ok ⟨Catalog.base o.includeBuiltin, user,
      Collection.merge [Catalog.base o.includeBuiltin, user]⟩ := by
  rw [build, Logged.andThen_of_ok h, ← builtin_value]

theorem build_of_user_error {f : UserData.Fault}
    (h : (UserData.collection t config).value = .error f) :
    (build t o config).value = .error f := by
  rw [build, Logged.andThen_of_error h]

/-- The reports are written without a fault exactly if all of them can be put into the
directory. -/
theorem writeReports_value_iff {d : Path} {b : Built} :
    (writeReports t d b).value = (u, none) ↔
      deposit d (allSheets b.merged (Conflict.detect b.builtin b.user)) t = .ok () u := by
  have hname : ∀ s ∈ [summarySheet b.merged], s.name ≠ ".." := by simp [summarySheet]
  rw [allSheets, ← List.singleton_append, deposit_append_eq_ok_iff hname, ← exportSummary_eq]
  simp only [← exists_exportConflicts_iff]
  unfold writeReports
  cases hsummary : exportSummary d b.merged t with
  | error f v => simp
  | ok x v =>
    obtain ⟨⟩ := x
    cases hconflicts : exportConflicts d (Conflict.detect b.builtin b.user) v with
    | error f w => simp [hconflicts]
    | ok x w => simp [hconflicts]

/-- The command ends with a fault and leaves the tree as it was. -/
structure Stops (f : Fault) (t : FileTree) (outcome : Outcome) : Prop where
  fault : outcome.fault = some f
  exitCode : outcome.exitCode = 1
  tree : outcome.tree = t

def reported (o : CommandLine.Options) (c user : Collection) : List Sheet :=
  allSheets c (Conflict.detect (Catalog.base o.includeBuiltin) user)

/-- The command reports a catalogue and what the settings describe. Without a report directory the
tree is left as it was; with one the tables are put into it, if it can be written in. -/
structure Completes (o : CommandLine.Options) (c user : Collection) (t : FileTree)
    (outcome : Outcome) : Prop where
  unreported : o.reportDir = none → outcome.fault = none ∧ outcome.tree = t
  succeeds : ∀ d, o.reportDir = some d →
    (outcome.fault = none ↔ Writable d ((reported o c user).map (·.name)) t)
  deposits : ∀ d, o.reportDir = some d → outcome.fault = none →
    ∃ l, Deposited d (reported o c user) t outcome.tree l

theorem proper_reported (o : CommandLine.Options) (c user : Collection) :
    Proper (reported o c user) := proper_allSheets _ _

section Run

variable {d : Path} {user : Collection} (h : CommandLine.parse words = .ok (.run o))
include h

theorem run_of_parse (r : Yaml.Reader) (t : FileTree) :
    (run r t words).fault = (perform r t o).value.2 ∧ (run r t words).tree = (perform r t o).value.1 ∧
      (run r t words).exitCode = if (perform r t o).value.2.isSome then 1 else 0 := by
  simp [run, h]

theorem stops_of_perform {f : Fault} (hp : (perform r t o).value = (t, some f)) :
    Stops f t (run r t words) := by
  obtain ⟨hfault, htree, hexit⟩ := run_of_parse h r t
  exact ⟨by rw [hfault, hp], by rw [hexit, hp]; rfl, by rw [htree, hp]⟩

theorem stops_of_config {f : Config.Fault} (hconfig : (loadConfig r t o).value = .error f) :
    Stops (.config f) t (run r t words) :=
  stops_of_perform h (by simp [perform, hconfig])

theorem stops_of_user {f : UserData.Fault} (hconfig : (loadConfig r t o).value = .ok config)
    (huser : (UserData.collection t config).value = .error f) :
    Stops (.user f) t (run r t words) :=
  stops_of_perform h (by simp [perform, hconfig, build_of_user_error huser])

variable (hconfig : (loadConfig r t o).value = .ok config)
  (huser : (UserData.collection t config).value = .ok user)
include hconfig huser

theorem run_reports_iff (hd : o.reportDir = some d) :
    ((run r t words).fault = none ∧ (run r t words).tree = u) ↔
      deposit d (reported o (Collection.merge [Catalog.base o.includeBuiltin, user]) user) t =
        .ok () u := by
  obtain ⟨hfault, htree, -⟩ := run_of_parse h r t
  have hwritten : (writeReports t d ⟨Catalog.base o.includeBuiltin, user,
      Collection.merge [Catalog.base o.includeBuiltin, user]⟩).value = (u, none) ↔ _ :=
    writeReports_value_iff
  rw [reported, ← hwritten, hfault, htree]
  simp [perform, hconfig, build_of_user huser, hd, Prod.ext_iff, and_comm]

theorem completes_of_user :
    Completes o (Collection.merge [Catalog.base o.includeBuiltin, user]) user t
      (run r t words) where
  unreported hnone := by
    obtain ⟨hfault, htree, -⟩ := run_of_parse h r t
    rw [hfault, htree]
    simp [perform, hconfig, build_of_user huser, hnone]
  succeeds d hd := by
    rw [← exists_deposit_iff (proper_reported _ _ _).names]
    constructor
    · intro hfault
      exact ⟨_, (run_reports_iff h hconfig huser hd).mp ⟨hfault, rfl⟩⟩
    · rintro ⟨u, hu⟩
      exact ((run_reports_iff h hconfig huser hd).mpr hu).1
  deposits d hd hfault :=
    deposited_of_deposit (proper_reported _ _ _)
      ((run_reports_iff h hconfig huser hd).mp ⟨hfault, rfl⟩)

end Run

def reportNames : List String :=
  ["collection_summary.csv", "type_overrides.csv", "provenance_changes.csv"]

/-- The command does what reading the settings, building the catalogue and looking for conflicts do
one after another. It ends with the fault of the settings and writes nothing, or it reports what the
others give; with a directory in which all reports can be written, they give something. -/
structure Agrees (r : Yaml.Reader) (t : FileTree) (o : CommandLine.Options) (outcome : Outcome) :
    Prop where
  fails : ∀ f, (loadConfig r t o).value = .error f → Stops (.config f) t outcome
  builds : ∀ config d, (loadConfig r t o).value = .ok config → o.reportDir = some d →
    Writable d reportNames t → ∃ c user,
      (Catalog.build t config o.includeBuiltin).value = .ok c ∧
      (UserData.collection t config).value = .ok user
  reports : ∀ config c user, (loadConfig r t o).value = .ok config →
    (Catalog.build t config o.includeBuiltin).value = .ok c →
    (UserData.collection t config).value = .ok user → Completes o c user t outcome

theorem builds_iff_isWritable (t : FileTree) (config : Config) (includeBuiltin : Bool) :
    ((∃ c user, (Catalog.build t config includeBuiltin).value = .ok c ∧
        (UserData.collection t config).value = .ok user) ↔
      ∀ v ∈ config.sources, v.isWritable = true ∨ ∃ es, v = .map es) ∧
    (¬ (∃ c user, (Catalog.build t config includeBuiltin).value = .ok c ∧
        (UserData.collection t config).value = .ok user) →
      ∃ v ∈ config.sources, (UserData.collection t config).value = .error (.unwritable v)) :=
  UserData.iff_isWritable_of_labels
    (fun h => ⟨_, _, Catalog.build_of_labels h, (UserData.collection_of_labels h).1⟩)
    UserData.collection_value_of_no_label fun ⟨_, user, _, huser⟩ => ⟨user, huser⟩

theorem completes_of_build {c user : Collection} (h : CommandLine.parse words = .ok (.run o))
    (hconfig : (loadConfig r t o).value = .ok config)
    (hc : (Catalog.build t config o.includeBuiltin).value = .ok c)
    (huser : (UserData.collection t config).value = .ok user) :
    Completes o c user t (run r t words) := by
  rw [Catalog.build_value, huser, Except.map] at hc
  obtain rfl := Except.ok.inj hc
  exact completes_of_user h hconfig huser

/-- With any reader of the settings, the command agrees with the library exactly when in settings
whose reports can be written every source is a map or holds no number that is too long to be
written. A source that is neither ends it before it writes anything. -/
theorem agrees_iff_isWritable (h : CommandLine.parse words = .ok (.run o)) :
    (Agrees r t o (run r t words) ↔
      ∀ config d, (loadConfig r t o).value = .ok config → o.reportDir = some d →
        Writable d reportNames t →
        ∀ v ∈ config.sources, v.isWritable = true ∨ ∃ es, v = .map es) ∧
    ∀ config, (loadConfig r t o).value = .ok config →
      ¬ (∀ v ∈ config.sources, v.isWritable = true ∨ ∃ es, v = .map es) →
      ∃ v ∈ config.sources, Stops (.user (.unwritable v)) t (run r t words) := by
  have hbuilds : ∀ config : Config, _ := fun config =>
    builds_iff_isWritable t config o.includeBuiltin
  refine ⟨⟨fun hagrees config d hconfig hd hdir => ?_, fun hwritable => ?_⟩,
    fun config hconfig hnot => ?_⟩
  · exact (hbuilds config).1.mp (hagrees.builds config d hconfig hd hdir)
  · exact {
      fails := fun f => stops_of_config h
      builds := fun config d hconfig hd hdir =>
        (hbuilds config).1.mpr (hwritable config d hconfig hd hdir)
      reports := fun config c user => completes_of_build h }
  · obtain ⟨v, hv, herror⟩ := (hbuilds config).2 (mt (hbuilds config).1.mp hnot)
    exact ⟨v, hv, stops_of_user h hconfig herror⟩

/-- A tree with settings that list one attribute. -/
def listingTree : FileTree :=
  UserData.emptyTree.put ["c.json"]
    (.file (bytesOf "\x7b\"globalHtmlAttributes\": [\"data-id\"]\x7d"))

def listingWords : List String := ["--config", "/c.json", "--report-dir=/out", "--no-b"]

def listingOptions : CommandLine.Options where
  config := some ⟨"/", ["c.json"]⟩
  reportDir := some ⟨"/", ["out"]⟩
  includeBuiltin := false

theorem agrees_iff_isWritable_listing :
    (∃ l, Holds (run Yaml.standard listingTree listingWords).tree
        (l ++ ["collection_summary.csv"])
        [Summary.header, ["global", "", "data-id", "attribute", "any", "false"]]) ∧
      Stops (.config (.missing ⟨"/", ["c.yml"]⟩)) listingTree
        (run Yaml.standard listingTree ["--config", "/c.yml"]) := by
  have hparse : CommandLine.parse listingWords = .ok (.run listingOptions) := by decide +kernel
  have hmissing : CommandLine.parse ["--config", "/c.yml"] =
      .ok (.run { config := some ⟨"/", ["c.yml"]⟩ }) := by decide +kernel
  have hconfig : (loadConfig Yaml.standard listingTree listingOptions).value =
      .ok { attributes := ["data-id"] } := by decide +kernel
  have hcatalog : (Catalog.build listingTree { attributes := ["data-id"] } false).value =
      .ok { attributes := [{ name := "data-id", type := .any }] } := by decide +kernel
  have huser : (UserData.collection listingTree { attributes := ["data-id"] }).value =
      .ok { attributes := [{ name := "data-id", type := .any }] } := by decide +kernel
  have hfault : (run Yaml.standard listingTree listingWords).fault = none := by decide +kernel
  have hnone : (loadConfig Yaml.standard listingTree
      { config := some ⟨"/", ["c.yml"]⟩ }).value = .error (.missing ⟨"/", ["c.yml"]⟩) := by
    decide +kernel
  have hagrees : Agrees Yaml.standard listingTree listingOptions
      (run Yaml.standard listingTree listingWords) := by
    refine (agrees_iff_isWritable hparse).1.mpr fun config d hread _ _ => ?_
    obtain rfl := Except.ok.inj (hconfig.symm.trans hread)
    exact fun v hv => absurd hv List.not_mem_nil
  have hstops : Agrees Yaml.standard listingTree { config := some ⟨"/", ["c.yml"]⟩ }
      (run Yaml.standard listingTree ["--config", "/c.yml"]) := by
    refine (agrees_iff_isWritable hmissing).1.mpr fun config d hread hd => ?_
    cases hd
  obtain ⟨l, hl⟩ := (hagrees.reports _ _ _ hconfig hcatalog huser).deposits _ rfl hfault
  exact ⟨⟨l, hl.sheets _ List.mem_cons_self⟩, hstops.fails _ hnone⟩

/-- Settings with one source, a whole number in base sixteen with more digits in base ten than may
be written. -/
def longNumberFile : List UInt8 :=
  bytesOf "customHtmlData: [0x1" ++ List.replicate 3572 0x30 ++ bytesOf "]\n"

def longNumberValue : Value :=
  .map [(.str "customHtmlData", .list [.int (Int.ofNat (Nat.pow 16 3572))])]

theorem isText_longNumberFile : Utf8.IsText longNumberFile := by
  refine Utf8.isText_of_forall_lt fun b hb => ?_
  simp only [longNumberFile, List.mem_append, List.mem_replicate] at hb
  rcases hb with (hb | ⟨-, rfl⟩) | hb
  · revert b
    decide +kernel
  · decide
  · revert b
    decide +kernel

/-- A reader of these settings alone. -/
def longNumberReader : Yaml.Reader where
  load bytes := if bytes = longNumberFile then .ok longNumberValue else .error .malformed
  isText_of_load h := by
    split_ifs at h with hbytes
    exact hbytes ▸ isText_longNumberFile

def longNumberTree : FileTree := UserData.emptyTree.put ["c.yml"] (.file longNumberFile)

def longNumberWords : List String := ["--config", "/c.yml", "--report-dir", "/out", "--no-builtin"]

def longNumberOptions : CommandLine.Options where
  config := some ⟨"/", ["c.yml"]⟩
  reportDir := some ⟨"/", ["out"]⟩
  includeBuiltin := false

/-- The settings are read and all reports could be written, but a long number ends the command
without a summary. -/
theorem not_agrees_longNumber :
    CommandLine.parse longNumberWords = .ok (.run longNumberOptions) ∧
      (∃ config, (loadConfig longNumberReader longNumberTree longNumberOptions).value =
        .ok config) ∧
      Writable ⟨"/", ["out"]⟩ reportNames longNumberTree ∧
      ¬ Agrees longNumberReader longNumberTree longNumberOptions
        (run longNumberReader longNumberTree longNumberWords) := by
  have hparse : CommandLine.parse longNumberWords = .ok (.run longNumberOptions) := by
    decide +kernel
  have hconfig : (loadConfig longNumberReader longNumberTree longNumberOptions).value =
      .ok { customHtmlData := .list [.int (Int.ofNat (Nat.pow 16 3572))] } := by
    decide +kernel
  have hdir : Writable ⟨"/", ["out"]⟩ reportNames longNumberTree := by
    refine ⟨_, rfl, ?_⟩
    simp only [reportNames, List.forall_mem_cons]
    exact ⟨⟨_, rfl⟩, ⟨_, rfl⟩, ⟨_, rfl⟩, by simp⟩
  refine ⟨hparse, ⟨_, hconfig⟩, hdir, fun hagrees => ?_⟩
  have hwritable := (builds_iff_isWritable _ _ _).1.mp (hagrees.builds _ _ hconfig rfl hdir)
  rcases hwritable _ (List.mem_singleton_self _) with hshort | ⟨es, hes⟩
  · revert hshort
    decide +kernel
  · cases hes

end Command
end HtmlCatalog
