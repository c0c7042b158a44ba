import HtmlCatalog.Conflict
import HtmlCatalog.Csv
import HtmlCatalog.File.Tree

/-! Reports as files in a directory, which is made if it is not there. A report of overrides is
only written if it has rows. -/
namespace HtmlCatalog
namespace Report

/-- The paths of the reports of overrides that were written. -/
structure Written where
  typeOverrides : Option Path
  provenanceChanges : Option Path
  deriving DecidableEq, Repr

def typeOverridesName : String := "type_overrides"

def provenanceChangesName : String := "provenance_changes"

def fileName (report : String) : String := report ++ ".csv"

def bytesOf (s : String) : List UInt8 := s.toUTF8.toList

def writeTable (p : Path) (rows : List (List String)) : FileTree.Work Unit :=
  FileTree.attempt (·.write p (bytesOf (Csv.render rows)))

def writeRows (p : Path) (rows : List Conflict.Row) : FileTree.Work (Option Path) := do
  if rows = [] then return none
  writeTable p (Conflict.table rows)
  return some p

def exportConflicts (directory : Path) (r : Conflict.Reports) : FileTree.Work Written := do
  FileTree.ensureDirectory directory
  let types ← writeRows (directory.child (fileName typeOverridesName)) r.typeOverrides
  let provenance ←
    writeRows (directory.child (fileName provenanceChangesName)) r.provenanceChanges
  return ⟨types, provenance⟩

def summaryPath (directory : Path) : Path := directory.child "collection_summary.csv"

def exportSummary (directory : Path) (c : Collection) : FileTree.Work Unit := do
  FileTree.ensureDirectory directory
  writeTable (summaryPath directory) (Summary.table c)

end Report
end HtmlCatalog
