import HtmlCatalog.Proofs.Directories
import HtmlCatalog.Report
import Mathlib.Data.List.Nodup

/-! Tables as files of a directory. The text of a table reads back as its rows, whatever their
fields hold. The reports of overrides are written into their directory one table after another, and
what is left of it is the same in any order: each table stands at its own name, and everything else
is as it was. -/
namespace HtmlCatalog
namespace Csv

variable {cs done rest : List Char} {fields r : List String} {rows : List (List String)}

theorem readRows_plain (h : ∀ c ∈ cs, isSpecial c = false) :
    readRows fields done false (cs ++ rest) =
      readRows fields (cs.reverse ++ done) false rest := by
  induction cs generalizing done with
  | nil => rfl
  | cons c cs ih =>
    rw [List.forall_mem_cons] at h
    have hc : c ≠ ',' ∧ c ≠ '"' ∧ c ≠ '\n' := by
      have hspecial := h.1
      simp only [isSpecial, Bool.or_eq_false_iff, beq_eq_false_iff_ne] at hspecial
      exact ⟨hspecial.1.1.1, hspecial.1.1.2, hspecial.1.2⟩
    have hstep : readRows fields done false (c :: (cs ++ rest)) =
        readRows fields (c :: done) false (cs ++ rest) := by
      rw [readRows]
      · exact hc.2.1
      · exact hc.1
      · exact hc.2.2
    rw [List.cons_append, hstep, ih h.2]
    simp

/-- A quoted text ends at the first quote that is not one of two. -/
theorem readRows_doubleQuotes (hrest : rest.head? ≠ some '"') :
    readRows fields done true (doubleQuotes cs ++ '"' :: rest) =
      readRows fields (cs.reverse ++ done) false rest := by
  induction cs generalizing done with
  | nil =>
    rw [doubleQuotes, List.nil_append, readRows]
    · rfl
    · rintro ds rfl
      exact hrest rfl
  | cons c cs ih =>
    by_cases hc : c = '"'
    · subst hc
      rw [doubleQuotes, List.cons_append, List.cons_append, readRows, ih]
      simp
    · have hstep : readRows fields done true (c :: (doubleQuotes cs ++ '"' :: rest)) =
          readRows fields (c :: done) true (doubleQuotes cs ++ '"' :: rest) := by
        rw [readRows] <;> simp [hc]
      rw [doubleQuotes, List.cons_append, hstep, ih]
      · simp
      · exact hc

theorem readRows_field (hrest : rest.head? ≠ some '"') :
    readRows fields [] false (field cs ++ rest) = readRows fields cs.reverse false rest := by
  unfold field
  split_ifs with h
  · rw [List.cons_append, List.cons_append, readRows, List.append_assoc, List.singleton_append,
      readRows_doubleQuotes hrest, List.append_nil]
  · have hplain : ∀ c ∈ cs, isSpecial c = false := by simp_all
    rw [readRows_plain hplain, List.append_nil]

theorem readRows_row (h : r ≠ []) :
    readRows fields [] false (row r ++ rest) =
      (fields.reverse ++ r) :: readRows [] [] false rest := by
  induction r generalizing fields with
  | nil => exact absurd rfl h
  | cons f fs ih =>
    cases fs with
    | nil =>
      rw [row, List.append_assoc, readRows_field (by simp), List.singleton_append, readRows]
      simp
    | cons g gs =>
      rw [row, List.append_assoc, readRows_field (by simp), List.cons_append, readRows,
        ih (by simp)]
      · simp
      · simp

/-- The text of a table reads back as the table. -/
theorem read_render (h : ∀ r ∈ rows, r ≠ []) : read (render rows) = rows := by
  rw [read, render, String.toList_ofList]
  induction rows with
  | nil => rfl
  | cons r rows ih =>
    rw [List.forall_mem_cons] at h
    rw [List.flatMap_cons, readRows_row h.1, ih h.2]
    rfl

end Csv

namespace Report

open FileTree

structure Sheet where
  name : String
  rows : List (List String)

def Sheet.bytes (s : Sheet) : List UInt8 := bytesOf (Csv.render s.rows)

/-- The file at a location has a table for its text. -/
def Holds (t : FileTree) (l : Location) (rows : List (List String)) : Prop :=
  ∃ text, t.file? l = some (bytesOf text) ∧ Csv.read text = rows

def writeSheets (d : Path) : List Sheet → Work Unit
  | [] => return ()
  | s :: ss => do
    writeTable (d.child s.name) s.rows
    writeSheets d ss

def putSheets (l : Location) (ss : List Sheet) (t : FileTree) : FileTree :=
  ss.foldl (fun t s => t.put (l ++ [s.name]) (.file s.bytes)) t

/-- A path leads to the directory at a location. -/
structure Leads (t : FileTree) (d : Path) (l : Location) : Prop where
  locate : t.locate d = .ok l
  directory : t.get? l = some .directory

/-- A name in the directory at a location can be that of a file. -/
structure Free (t : FileTree) (d : Path) (l : Location) (name : String) : Prop where
  locate : t.locate (d.child name) = .ok (l ++ [name])
  noDirectory : t.get? (l ++ [name]) ≠ some .directory

variable {t u v : FileTree} {d : Path} {l : Location} {name other : String} {bytes : List UInt8}
  {s : Sheet} {ss ss' : List Sheet} {r : Conflict.Reports}

theorem leads_of_lookup (h : t.lookup d = .ok .directory) : ∃ l, Leads t d l := by
  obtain ⟨l, hl, hdirectory⟩ := lookup_eq_ok_iff.mp h
  exact ⟨l, hl, hdirectory⟩

theorem Leads.lookup (h : Leads t d l) : t.lookup d = .ok .directory :=
  lookup_eq_ok_iff.mpr ⟨l, h.locate, h.directory⟩

theorem Leads.of_keeps (h : Leads t d l) (hk : t.Keeps u) : Leads u d l :=
  ⟨hk.locate h.locate, hk.directories l h.directory⟩

/-- A file is written to a name in a directory exactly if the name is free for it. -/
theorem write_child_eq_ok_iff (hd : Leads t d l) (hname : name ≠ "..") :
    t.write (d.child name) bytes = .ok u ↔
      Free t d l name ∧ u = t.put (l ++ [name]) (.file bytes) := by
  rw [write_eq_ok_iff]
  constructor
  · rintro ⟨k, hk, hnone, -, hu⟩
    obtain rfl := eq_of_locate_child hd.locate hname hk
    exact ⟨⟨hk, hnone⟩, hu⟩
  · rintro ⟨hfree, hu⟩
    refine ⟨_, hfree.locate, hfree.noDirectory, fun _ => ?_, hu⟩
    rw [List.dropLast_concat]
    exact hd.directory

theorem Leads.put (hd : Leads t d l) (h : Free t d l name) :
    Leads (t.put (l ++ [name]) (.file bytes)) d l :=
  hd.of_keeps (keeps_put h.noDirectory)

theorem free_put_iff (h : Free t d l name) :
    Free (t.put (l ++ [name]) (.file bytes)) d l other ↔ Free t d l other := by
  have hkeeps : t.Keeps (t.put (l ++ [name]) (.file bytes)) := keeps_put h.noDirectory
  have hkept : (t.put (l ++ [name]) (.file bytes)).Keeps t := put_file_keeps h.noDirectory
  exact ⟨fun ho => ⟨hkept.locate ho.locate, fun hdir => ho.noDirectory (hkeeps.directories _ hdir)⟩,
    fun ho => ⟨hkeeps.locate ho.locate, fun hdir => ho.noDirectory (hkept.directories _ hdir)⟩⟩

theorem writeSheets_eq_ok_iff (hd : Leads t d l) (hnames : ∀ s ∈ ss, s.name ≠ "..") :
    writeSheets d ss t = .ok () u ↔
      (∀ s ∈ ss, Free t d l s.name) ∧ u = putSheets l ss t := by
  induction ss generalizing t with
  | nil =>
    rw [writeSheets, work_pure_eq_ok_iff]
    simp [putSheets, eq_comm (a := u)]
  | cons s ss ih =>
    rw [List.forall_mem_cons] at hnames
    rw [writeSheets, work_bind_eq_ok_iff, List.forall_mem_cons]
    simp only [writeTable, attempt_eq_ok_iff, write_child_eq_ok_iff hd hnames.1]
    constructor
    · rintro ⟨-, v, ⟨hfree, rfl⟩, hrest⟩
      obtain ⟨hothers, hu⟩ := (ih (hd.put hfree) hnames.2).mp hrest
      exact ⟨⟨hfree, fun r hr => (free_put_iff hfree).mp (hothers r hr)⟩, hu⟩
    · rintro ⟨⟨hfree, hothers⟩, hu⟩
      refine ⟨(), _, ⟨hfree, rfl⟩, (ih (hd.put hfree) hnames.2).mpr ⟨?_, hu⟩⟩
      exact fun r hr => (free_put_iff hfree).mpr (hothers r hr)

theorem get?_putSheets_of_forall_ne {k : Location} (h : ∀ s ∈ ss, k ≠ l ++ [s.name]) :
    (putSheets l ss t).get? k = t.get? k := by
  induction ss generalizing t with
  | nil => rfl
  | cons s ss ih =>
    rw [List.forall_mem_cons] at h
    rw [putSheets, List.foldl_cons, ← putSheets, ih h.2, get?_put_of_ne t h.1]

theorem get?_putSheets_of_mem (hnodup : (ss.map (·.name)).Nodup) (hs : s ∈ ss) :
    (putSheets l ss t).get? (l ++ [s.name]) = some (.file s.bytes) := by
  induction ss generalizing t with
  | nil => exact nomatch hs
  | cons r ss ih =>
    obtain ⟨hr, hnodup⟩ := List.nodup_cons.mp hnodup
    rw [putSheets, List.foldl_cons, ← putSheets]
    rcases List.mem_cons.mp hs with rfl | hs
    · rw [get?_putSheets_of_forall_ne, get?_put_self t (by simp)]
      rintro q hq heq
      obtain ⟨-, hname⟩ := List.append_inj' heq rfl
      exact hr (List.mem_map.mpr ⟨q, hq, (List.cons.inj hname).1.symm⟩)
    · exact ih hnodup hs

theorem Leads.putSheets (hd : Leads t d l) (h : ∀ s ∈ ss, Free t d l s.name) :
    Leads (putSheets l ss t) d l := by
  induction ss generalizing t with
  | nil => exact hd
  | cons s ss ih =>
    rw [List.forall_mem_cons] at h
    refine ih (hd.put h.1) ?_
    exact fun r hr => (free_put_iff h.1).mpr (h.2 r hr)

def deposit (d : Path) (ss : List Sheet) : Work Unit := do
  ensureDirectory d
  writeSheets d ss

/-- Tables with names of their own that text can be made of. -/
structure Proper (ss : List Sheet) : Prop where
  unique : (ss.map (·.name)).Nodup
  names : ∀ s ∈ ss, s.name ≠ ".."
  rows : ∀ s ∈ ss, ∀ r ∈ s.rows, r ≠ []

/-- The directory is there or can be made, and files with these names can be written in it. -/
def Writable (d : Path) (names : List String) (t : FileTree) : Prop :=
  ∃ u, ensureDirectory d t = .ok () u ∧ ∀ name ∈ names, ∃ v, u.write (d.child name) [] = .ok v

/-- What is left when tables were put into a directory: they are there, and nothing else has
changed but that directories may have been made. -/
structure Deposited (d : Path) (ss : List Sheet) (t u : FileTree) (l : Location) : Prop where
  leads : Leads u d l
  sheets : ∀ s ∈ ss, Holds u (l ++ [s.name]) s.rows
  others : ∀ k, (∀ s ∈ ss, k ≠ l ++ [s.name]) → t.Stays u k
  workingDirectory : u.workingDirectory = t.workingDirectory

theorem putSheets_workingDirectory (l : Location) (ss : List Sheet) (t : FileTree) :
    (putSheets l ss t).workingDirectory = t.workingDirectory := by
  induction ss generalizing t with
  | nil => rfl
  | cons s ss ih => exact ih _

theorem deposit_eq_ok_iff (hnames : ∀ s ∈ ss, s.name ≠ "..") :
    deposit d ss t = .ok () u ↔ ∃ l v, ensureDirectory d t = .ok () v ∧ Leads v d l ∧
      (∀ s ∈ ss, Free v d l s.name) ∧ u = putSheets l ss v := by
  rw [deposit, work_bind_eq_ok_iff]
  constructor
  · rintro ⟨⟨⟩, v, hv, hwrite⟩
    obtain ⟨l, hl⟩ := leads_of_lookup (made_of_ensureDirectory hv).directory
    exact ⟨l, v, hv, hl, (writeSheets_eq_ok_iff hl hnames).mp hwrite⟩
  · rintro ⟨l, v, hv, hl, hwrite⟩
    exact ⟨(), v, hv, (writeSheets_eq_ok_iff hl hnames).mpr hwrite⟩

theorem deposited_of_deposit (hss : Proper ss) (h : deposit d ss t = .ok () u) :
    ∃ l, Deposited d ss t u l := by
  obtain ⟨l, v, hv, hl, hfree, rfl⟩ := (deposit_eq_ok_iff hss.names).mp h
  have hgains := (made_of_ensureDirectory hv).gains
  refine ⟨l, hl.putSheets hfree, fun s hs => ?_, fun k hk => ?_, ?_⟩
  · refine ⟨Csv.render s.rows, ?_, Csv.read_render (hss.rows s hs)⟩
    rw [file?, get?_putSheets_of_mem hss.unique hs, Sheet.bytes]
  · rw [Stays, get?_putSheets_of_forall_ne hk]
    exact hgains.entries k
  · rw [putSheets_workingDirectory, hgains.workingDirectory]

/-- Tables can be put into a directory exactly if it can be written in. -/
theorem exists_deposit_iff (hnames : ∀ s ∈ ss, s.name ≠ "..") :
    (∃ u, deposit d ss t = .ok () u) ↔ Writable d (ss.map (·.name)) t := by
  simp only [deposit_eq_ok_iff hnames, Writable, List.forall_mem_map]
  constructor
  · rintro ⟨u, l, v, hv, hl, hfree, -⟩
    exact ⟨v, hv, fun s hs =>
      ⟨_, (write_child_eq_ok_iff hl (hnames s hs)).mpr ⟨hfree s hs, rfl⟩⟩⟩
  · rintro ⟨v, hv, hwrite⟩
    obtain ⟨l, hl⟩ := leads_of_lookup (made_of_ensureDirectory hv).directory
    refine ⟨_, l, v, hv, hl, fun s hs => ?_, rfl⟩
    obtain ⟨w, hw⟩ := hwrite s hs
    exact ((write_child_eq_ok_iff hl (hnames s hs)).mp hw).1

theorem exists_leads_of_deposit (hnames : ∀ s ∈ ss, s.name ≠ "..")
    (h : deposit d ss t = .ok () u) : ∃ l, Leads u d l := by
  obtain ⟨l, v, -, hl, hfree, rfl⟩ := (deposit_eq_ok_iff hnames).mp h
  exact ⟨l, hl.putSheets hfree⟩

theorem writeSheets_append (d : Path) (ss ss' : List Sheet) :
    writeSheets d (ss ++ ss') = writeSheets d ss >>= fun _ => writeSheets d ss' := by
  induction ss with
  | nil => simp [writeSheets]
  | cons s ss ih => simp [writeSheets, ih]

theorem deposit_of_lookup (h : t.lookup d = .ok .directory) :
    deposit d ss t = writeSheets d ss t := by
  have hstay := ensureDirectory_of_lookup h
  change EStateM.bind (ensureDirectory d) (fun _ => writeSheets d ss) t = _
  simp only [EStateM.bind, hstay]

/-- Tables may be put into a directory in two parts. -/
theorem deposit_append_eq_ok_iff (hnames : ∀ s ∈ ss, s.name ≠ "..") :
    deposit d (ss ++ ss') t = .ok () v ↔
      ∃ u, deposit d ss t = .ok () u ∧ deposit d ss' u = .ok () v := by
  -- The first part leaves the directory there, so that the second has none to make.
  have hsecond : ∀ u, deposit d ss t = .ok () u → deposit d ss' u = writeSheets d ss' u := by
    intro u hu
    obtain ⟨l, hl⟩ := exists_leads_of_deposit hnames hu
    exact deposit_of_lookup hl.lookup
  have hassoc : deposit d (ss ++ ss') = deposit d ss >>= fun _ => writeSheets d ss' := by
    simp only [deposit, writeSheets_append, bind_assoc]
  rw [hassoc, work_bind_eq_ok_iff]
  constructor
  · rintro ⟨⟨⟩, u, hu, hv⟩
    exact ⟨u, hu, by rwa [hsecond u hu]⟩
  · rintro ⟨u, hu, hv⟩
    exact ⟨(), u, hu, by rwa [← hsecond u hu]⟩

section Reports

inductive Kind
  | typeOverrides | provenanceChanges
  deriving DecidableEq, Repr

def Kind.rows (r : Conflict.Reports) : Kind → List Conflict.Row
  | .typeOverrides => r.typeOverrides
  | .provenanceChanges => r.provenanceChanges

def Kind.fileName : Kind → String
  | .typeOverrides => Report.fileName typeOverridesName
  | .provenanceChanges => Report.fileName provenanceChangesName

def Kind.sheet (r : Conflict.Reports) (k : Kind) : Sheet :=
  ⟨k.fileName, Conflict.table (k.rows r)⟩

/-- The reports that have rows. -/
def sheets (r : Conflict.Reports) : List Sheet :=
  ([Kind.typeOverrides, Kind.provenanceChanges].filter fun k => k.rows r ≠ []).map (Kind.sheet r)

def Kind.path (d : Path) (r : Conflict.Reports) (k : Kind) : Option Path :=
  if k.rows r = [] then none else some (d.child k.fileName)

theorem mem_sheets : s ∈ sheets r ↔ ∃ k : Kind, k.rows r ≠ [] ∧ k.sheet r = s := by
  simp only [sheets, List.mem_map, List.mem_filter, decide_eq_true_eq]
  constructor
  · rintro ⟨k, ⟨-, hk⟩, hs⟩
    exact ⟨k, hk, hs⟩
  · rintro ⟨k, hk, hs⟩
    exact ⟨k, ⟨by cases k <;> simp, hk⟩, hs⟩

theorem fileName_injective : Function.Injective Kind.fileName := by
  intro j k h
  cases j <;> cases k <;> first | rfl | exact absurd h (by decide)

theorem fileName_ne_up (k : Kind) : k.fileName ≠ ".." := by
  cases k <;> decide

theorem table_rows_ne_nil {rs : List Conflict.Row} : ∀ r ∈ Conflict.table rs, r ≠ [] := by
  simp [Conflict.table, Conflict.header, Summary.header, Conflict.Row.fields]

theorem proper_sheets (r : Conflict.Reports) : Proper (sheets r) where
  unique := by
    have hnames : (sheets r).map (·.name) =
        ([Kind.typeOverrides, Kind.provenanceChanges].filter fun k => k.rows r ≠ []).map
          Kind.fileName := by
      rw [sheets, List.map_map]
      rfl
    rw [hnames]
    exact (List.Nodup.filter _ (by decide)).map fileName_injective
  names s hs := by
    obtain ⟨k, -, rfl⟩ := mem_sheets.mp hs
    exact fileName_ne_up k
  rows s hs := by
    obtain ⟨k, -, rfl⟩ := mem_sheets.mp hs
    exact table_rows_ne_nil

theorem exportConflicts_eq (d : Path) (r : Conflict.Reports) :
    exportConflicts d r = do
      deposit d (sheets r)
      return ⟨Kind.path d r .typeOverrides, Kind.path d r .provenanceChanges⟩ := by
  by_cases htypes : r.typeOverrides = [] <;> by_cases hprovenance : r.provenanceChanges = [] <;>
    simp [exportConflicts, writeRows, deposit, sheets, writeSheets, Kind.sheet, Kind.path,
      Kind.rows, Kind.fileName, htypes, hprovenance]

def summarySheet (c : Collection) : Sheet := ⟨"collection_summary.csv", Summary.table c⟩

theorem exportSummary_eq (d : Path) (c : Collection) :
    exportSummary d c = deposit d [summarySheet c] := by
  simp [exportSummary, deposit, writeSheets, summarySheet, summaryPath]

/-- All that is put into a directory for a collection: the summary, and the reports that have
rows. -/
def allSheets (c : Collection) (r : Conflict.Reports) : List Sheet := summarySheet c :: sheets r

theorem fileName_ne_summary (k : Kind) : k.fileName ≠ "collection_summary.csv" := by
  cases k <;> decide

theorem summary_rows_ne_nil {c : Collection} : ∀ r ∈ Summary.table c, r ≠ [] := by
  simp [Summary.table, Summary.header, Summary.Row.fields, Summary.Key.fields]

theorem proper_allSheets (c : Collection) (r : Conflict.Reports) : Proper (allSheets c r) where
  unique := by
    refine List.nodup_cons.mpr ⟨fun hmem => ?_, (proper_sheets r).unique⟩
    obtain ⟨s, hs, hname⟩ := List.mem_map.mp hmem
    obtain ⟨k, -, rfl⟩ := mem_sheets.mp hs
    exact fileName_ne_summary k hname
  names := List.forall_mem_cons.mpr ⟨by simp [summarySheet], (proper_sheets r).names⟩
  rows := List.forall_mem_cons.mpr ⟨summary_rows_ne_nil, (proper_sheets r).rows⟩

theorem exists_exportConflicts_iff :
    (∃ w, exportConflicts d r t = .ok w u) ↔ deposit d (sheets r) t = .ok () u := by
  simp only [exportConflicts_eq, work_bind_eq_ok_iff]
  constructor
  · rintro ⟨w, ⟨⟩, v, hv, hreturn⟩
    obtain ⟨-, rfl⟩ := work_pure_eq_ok_iff.mp hreturn
    exact hv
  · intro h
    exact ⟨_, (), u, h, rfl⟩

end Reports

end Report
end HtmlCatalog
