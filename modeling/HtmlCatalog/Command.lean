import HtmlCatalog.CommandLine
import HtmlCatalog.Report
import HtmlCatalog.UserData

/-! The command as a function of a file tree and the words of the command line: what it prints,
how it ends, and the file tree it leaves. It reads settings by any reader of YAML. -/
namespace HtmlCatalog
namespace Command

inductive Fault
  | config (fault : Config.Fault)
  | user (fault : UserData.Fault)
  | file (fault : FileTree.Fault)
  deriving DecidableEq, Repr

def Fault.message : Fault → String
  | .config fault => fault.message
  | .user fault => fault.message
  | .file fault => fault.message

structure Outcome where
  exitCode : Nat
  stdout : String := ""
  stderr : String := ""
  fault : Option Fault := none
  tree : FileTree

variable (r : Yaml.Reader)

def loadConfig (t : FileTree) (o : CommandLine.Options) : Logged (Except Config.Fault Config) :=
  match o.config with
  | some p => Config.load r t p
  | none => ⟨.ok {}, []⟩

def builtin (o : CommandLine.Options) : Logged Collection :=
  if o.includeBuiltin then Builtin.standard else ⟨.empty, []⟩

structure Built where
  builtin : Collection
  user : Collection
  merged : Collection

def completeReport (c : Collection) : LogEntry :=
  ⟨.info, "[COMPLETE] HTML collection: " ++ Builtin.sizesText c⟩

def build (t : FileTree) (o : CommandLine.Options) (config : Config) :
    Logged (Except UserData.Fault Built) :=
  (UserData.collection t config).andThen fun user =>
    let base := builtin o
    let merged := Collection.merge [base.value, user]
    ⟨.ok ⟨base.value, user, merged⟩, base.log ++ [completeReport merged]⟩

def overrideReport (name : String) (p : Option Path) : List LogEntry :=
  match p with
  | some p => [⟨.info, "Override report (" ++ name ++ "): " ++ p.text⟩]
  | none => []

/-- Writes the reports into a directory: the tree that is left, and the fault, if one came up. -/
def writeReports (t : FileTree) (directory : Path) (b : Built) :
    Logged (FileTree × Option FileTree.Fault) :=
  match Report.exportSummary directory b.merged t with
  | .error f t => ⟨(t, some f), []⟩
  | .ok _ t =>
    let summary : LogEntry :=
      ⟨.info, "Collection summary: " ++ (Report.summaryPath directory).text⟩
    match Report.exportConflicts directory (Conflict.detect b.builtin b.user) t with
    | .error f t => ⟨(t, some f), [summary]⟩
    | .ok w t =>
      ⟨(t, none), summary :: overrideReport Report.typeOverridesName w.typeOverrides ++
        overrideReport Report.provenanceChangesName w.provenanceChanges⟩

def logText (verbose : Bool) (log : List LogEntry) : String :=
  String.join ((log.filter fun e => verbose || e.level != .debug).map fun e =>
    e.level.text ++ " " ++ e.text ++ "\n")

/-- The work of the command once its options are known: the tree that it leaves, and how it
ends. -/
def perform (t : FileTree) (o : CommandLine.Options) : Logged (FileTree × Option Fault) :=
  let config := loadConfig r t o
  match config.value with
  | .error f => ⟨(t, some (.config f)), config.log⟩
  | .ok c =>
    let built := build t o c
    match built.value, o.reportDir with
    | .error f, _ => ⟨(t, some (.user f)), config.log ++ built.log⟩
    | .ok _, none => ⟨(t, none), config.log ++ built.log⟩
    | .ok b, some d =>
      let written := writeReports t d b
      { log := config.log ++ built.log ++ written.log
        value := (written.value.1, written.value.2.map .file) }

/-- The paths that the settings at a path lead to, themselves first. -/
def sourcePaths (t : FileTree) (p : Path) : List Path :=
  match Config.read r t p with
  | .error _ => [p]
  | .ok c =>
    let named := c.sources.filterMap fun v => (Source.value v).path?
    p :: named.flatMap fun q => [q, p.parent.join q]

def reportPaths (directory : Path) : List Path :=
  Report.summaryPath directory ::
    [Report.typeOverridesName, Report.provenanceChangesName].map fun name =>
      directory.child (Report.fileName name)

/-- The paths that matter to the command, as far as the files known so far tell. -/
def consulted (t : FileTree) (words : List String) : List Path :=
  match CommandLine.parse words with
  | .ok (.run o) =>
    (o.config.toList.flatMap (sourcePaths r t)) ++ (o.reportDir.toList.flatMap reportPaths)
  | _ => []

def run (t : FileTree) (words : List String) : Outcome :=
  match CommandLine.parse words with
  | .error f => { exitCode := 2, stderr := f.report, tree := t }
  | .ok .help => { exitCode := 0, stdout := CommandLine.help, tree := t }
  | .ok (.run o) =>
    let done := perform r t o
    { exitCode := if done.value.2.isSome then 1 else 0
      stderr := logText o.verbose done.log
      fault := done.value.2
      tree := done.value.1 }

end Command
end HtmlCatalog
