import HtmlCatalog.Proofs.Commands
import HtmlCatalog.Proofs.Conflicts

/-! What stands in a report directory after several runs. A report is only written if it has rows,
and one that was written before is not taken away when it has none. So a report in the directory is
that of the last run in which it had rows, which need not be the last run. -/
namespace HtmlCatalog
namespace Report

open FileTree Conflict

variable {t u v : FileTree} {d : Path} {l : Location} {r : Conflict.Reports} {ss : List Sheet}
  {c : Collection} {k : Kind}

/-- A run that writes the reports of overrides into the directory at a location, either alone or as
the command does, with any reader of its settings. -/
inductive Run (l : Location) (t : FileTree) : Conflict.Reports → FileTree → Prop
  | exported {base override : Collection} {d : Path} {w : Written} {u : FileTree}
      (hexport : exportConflicts d (detect base override) t = .ok w u)
      (hl : u.locate d = .ok l) : Run l t (detect base override) u
  | command {yaml : Yaml.Reader} {words : List String} {o : CommandLine.Options} {d : Path}
      {config : Config} {user : Collection} (hparse : CommandLine.parse words = .ok (.run o))
      (hd : o.reportDir = some d) (hconfig : (Command.loadConfig yaml t o).value = .ok config)
      (huser : (UserData.collection t config).value = .ok user)
      (hfault : (Command.run yaml t words).fault = none)
      (hl : (Command.run yaml t words).tree.locate d = .ok l) :
      Run l t (detect (Catalog.base o.includeBuiltin) user) (Command.run yaml t words).tree

inductive Runs (l : Location) : FileTree → List Conflict.Reports → FileTree → Prop
  | nil (t : FileTree) : Runs l t [] t
  | cons {t u v : FileTree} {r : Conflict.Reports} {rs : List Conflict.Reports}
      (hrun : Run l t r u) (hrest : Runs l u rs v) : Runs l t (r :: rs) v

def Kind.rows? (k : Kind) (r : Conflict.Reports) : Option (List Row) :=
  if k.rows r = [] then none else some (k.rows r)

/-- The rows of a report in the last of several runs in which it had any. -/
def Kind.lastRows? (k : Kind) (rs : List Conflict.Reports) : Option (List Row) :=
  (rs.filterMap k.rows?).getLast?

/-- With rows, the file of a report holds them in the tree that is left; without, it is as it
was. -/
def Kind.Left (k : Kind) (l : Location) (t u : FileTree) : Option (List Row) → Prop
  | some rows => Holds u (l ++ [k.fileName]) (Conflict.table rows)
  | none => u.file? (l ++ [k.fileName]) = t.file? (l ++ [k.fileName])

theorem Holds.of_file?_eq {rows : List (List String)} (h : Holds t l rows)
    (hfile : u.file? l = t.file? l) : Holds u l rows := by
  obtain ⟨text, htext, hread⟩ := h
  exact ⟨text, hfile.trans htext, hread⟩

theorem left_of_deposited (h : Deposited d ss t u l) (hss : sheets r ⊆ ss)
    (hnames : ∀ s ∈ ss, s ∈ sheets r ∨ s.name ≠ k.fileName) : k.Left l t u (k.rows? r) := by
  unfold Kind.rows?
  split_ifs with hrows
  · refine (h.others _ fun s hs heq => ?_).file?
    obtain ⟨-, hname⟩ := List.append_inj' heq rfl
    have hfile : k.fileName = s.name := (List.cons.inj hname).1
    rcases hnames s hs with hmem | hne
    · obtain ⟨j, hj, rfl⟩ := mem_sheets.mp hmem
      exact hj (fileName_injective hfile ▸ hrows)
    · exact hne hfile.symm
  · exact h.sheets _ (hss (mem_sheets.mpr ⟨k, hrows, rfl⟩))

theorem left_of_exportConflicts {w : Written} (h : exportConflicts d r t = .ok w u) :
    ∃ l, Leads u d l ∧ ∀ k : Kind, k.Left l t u (k.rows? r) := by
  have hdeposit := exists_exportConflicts_iff.mp ⟨w, h⟩
  obtain ⟨l, hl⟩ := deposited_of_deposit (proper_sheets r) hdeposit
  exact ⟨l, hl.leads, fun k => left_of_deposited hl (List.Subset.refl _) fun s hs => .inl hs⟩

theorem left_of_run (h : Run l t r u) : k.Left l t u (k.rows? r) := by
  cases h with
  | exported hexport hl =>
    obtain ⟨m, hm, hleft⟩ := left_of_exportConflicts hexport
    obtain rfl := Except.ok.inj (hm.locate.symm.trans hl)
    exact hleft k
  | command hparse hd hconfig huser hfault hl =>
    obtain ⟨m, hm⟩ :=
      (Command.completes_of_user hparse hconfig huser).deposits _ hd hfault
    obtain rfl := Except.ok.inj (hm.leads.locate.symm.trans hl)
    refine left_of_deposited hm (List.subset_cons_self _ _) fun s hs => ?_
    rcases List.mem_cons.mp hs with rfl | hs
    · exact .inr (fileName_ne_summary k).symm
    · exact .inl hs

theorem Kind.lastRows?_cons (k : Kind) (r : Conflict.Reports) (rs : List Conflict.Reports) :
    k.lastRows? (r :: rs) = (k.lastRows? rs).or (k.rows? r) := by
  unfold Kind.lastRows?
  cases h : k.rows? r with
  | none => rw [List.filterMap_cons_none h, Option.or_none]
  | some rows => rw [List.filterMap_cons_some h, List.getLast?_cons, Option.or_some]

theorem Kind.Left.trans {first last : Option (List Row)} (h : k.Left l t u first)
    (h' : k.Left l u v last) : k.Left l t v (last.or first) := by
  cases last with
  | some rows => exact h'
  | none =>
    cases first with
    | some rows => exact Holds.of_file?_eq h h'
    | none => exact Eq.trans h' h

/-- By induction on the runs, each leaving what the earlier ones did where it has no rows. -/
theorem left_of_runs {rs : List Conflict.Reports} (h : Runs l t rs u) :
    k.Left l t u (k.lastRows? rs) := by
  induction h with
  | nil t => exact rfl
  | cons hrun hrest ih =>
    rw [Kind.lastRows?_cons]
    exact (left_of_run hrun).trans ih

/-- After a call the reports with rows are in the directory, and the others are as they were
before. So after any runs into one directory each report is that of the last run in which it had
rows, or what it was at the start. -/
theorem reports_last_with_rows :
    (∀ base override d t w u, exportConflicts d (detect base override) t = .ok w u →
        ∃ l, Leads u d l ∧ ∀ k : Kind, k.Left l t u (k.rows? (detect base override))) ∧
      ∀ l t rs u, Runs l t rs u → ∀ k : Kind, k.Left l t u (k.lastRows? rs) :=
  ⟨fun _ _ _ _ _ _ h => left_of_exportConflicts h, fun _ _ _ _ h _ => left_of_runs h⟩

def treeAfter {α : Type} (x : Work α) (t : FileTree) : FileTree :=
  match x t with
  | .ok _ u => u
  | .error _ u => u

def out : Path := ⟨"/", ["out"]⟩

def retyped : Conflict.Reports := detect (players [.any]) (players [.string])

def repeated : Conflict.Reports := detect (players [.any]) (players [.any])

/-- A tree with settings, and with the report of an earlier run. -/
def reportedTree : FileTree := treeAfter (exportConflicts out retyped) Command.listingTree

theorem exportConflicts_retyped : exportConflicts out retyped Command.listingTree =
    .ok ⟨some (out.child "type_overrides.csv"), none⟩ reportedTree := rfl

theorem reports_last_with_rows_listing :
    (∃ l, Leads reportedTree out l ∧
        Kind.Left .typeOverrides l Command.listingTree reportedTree (some retyped.typeOverrides)) ∧
      Kind.Left .typeOverrides ["out"] Command.listingTree
        (Command.run Yaml.standard reportedTree Command.listingWords).tree
        (some retyped.typeOverrides) := by
  have hfirst : Run ["out"] Command.listingTree retyped reportedTree :=
    .exported exportConflicts_retyped (by decide +kernel)
  have hparse : CommandLine.parse Command.listingWords = .ok (.run Command.listingOptions) := by
    decide +kernel
  have hconfig : (Command.loadConfig Yaml.standard reportedTree Command.listingOptions).value =
      .ok { attributes := ["data-id"] } := by decide +kernel
  have huser : (UserData.collection reportedTree { attributes := ["data-id"] }).value =
      .ok { attributes := [{ name := "data-id", type := .any }] } := by decide +kernel
  have hsecond : Run ["out"] reportedTree
      (detect .empty { attributes := [{ name := "data-id", type := .any }] })
      (Command.run Yaml.standard reportedTree Command.listingWords).tree :=
    .command hparse rfl hconfig huser (by decide +kernel) (by decide +kernel)
  obtain ⟨l, hl, hleft⟩ := reports_last_with_rows.1 _ _ _ _ _ _ exportConflicts_retyped
  exact ⟨⟨l, hl, hleft .typeOverrides⟩,
    reports_last_with_rows.2 _ _ _ _ (.cons hfirst (.cons hsecond (.nil _))) .typeOverrides⟩

/-- A call without any rows leaves the report of an earlier one where it was. -/
theorem earlier_report_stays :
    exportConflicts out repeated reportedTree = .ok ⟨none, none⟩ reportedTree ∧
      repeated.typeOverrides = [] ∧
      reportedTree.lookup (out.child "type_overrides.csv") =
        .ok (.file (bytesOf (Csv.render (Conflict.table retyped.typeOverrides)))) ∧
      retyped.typeOverrides ≠ [] :=
  ⟨rfl, by decide, by decide +kernel, by decide⟩

end Report
end HtmlCatalog
