import HtmlCatalog.Command

/-! The command on the file system. What is at the paths that matter is read into a file tree, the
command is run on it, and what has changed in the tree is written back. -/
namespace HtmlCatalog
namespace Main

def nameOf (l : FileTree.Location) : String := "/" ++ "/".intercalate l

def entryAt (l : FileTree.Location) : IO (Option FileEntry) := do
  let file := System.mkFilePath [nameOf l]
  match ← file.metadata.toBaseIO with
  | .error _ => return none
  | .ok m =>
    match m.type with
    | .dir => return some .directory
    | .file => return some (.file (← IO.FS.readBinFile file).toList)
    | _ => return none

/-- Follows a path name by name and takes in all that is on the way. -/
def observe (t : FileTree) (p : Path) : IO FileTree := do
  let follow (s : FileTree × FileTree.Location) (name : String) :
      IO (FileTree × FileTree.Location) := do
    let l := if name = ".." then s.2.dropLast else s.2 ++ [name]
    match ← entryAt l with
    | some e => return (s.1.put l e, l)
    | none => return (s.1, l)
  return (← p.parts.foldlM follow (t, t.start p)).1

def observeAll (t : FileTree) (ps : List Path) : IO FileTree := ps.foldlM observe t

/-- Writes what is new in a tree. A directory is put into a tree before what is in it. -/
def writeBack (before after : FileTree) : IO Unit :=
  after.entries.forM fun (l, e) => do
    if before.get? l ≠ some e then
      match e with
      | .directory => IO.FS.createDirAll (nameOf l)
      | .file bytes => IO.FS.writeBinFile (nameOf l) ⟨bytes.toArray⟩

def run (words : List String) : IO UInt32 := do
  let t := FileTree.empty (.ofText (← IO.currentDir).toString)
  let t ← observeAll t (Command.consulted Yaml.standard t words)
  let t ← observeAll t (Command.consulted Yaml.standard t words)
  let o := Command.run Yaml.standard t words
  writeBack t o.tree
  IO.print o.stdout
  IO.eprint o.stderr
  match o.fault with
  | some f => IO.eprintln f.message
  | none => pure ()
  return UInt32.ofNat o.exitCode

end Main
end HtmlCatalog

def main (words : List String) : IO UInt32 := HtmlCatalog.Main.run words
