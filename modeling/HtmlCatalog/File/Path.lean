import HtmlCatalog.Text.Split

/-! Paths as text and as names in sequence. A path keeps its `..` parts and loses empty ones and
`.`; it is absolute if it starts with a slash, and two slashes at the start, no more, stay two. -/
namespace HtmlCatalog

structure Path where
  root : String
  parts : List String
  deriving DecidableEq, Repr, Inhabited

namespace Path

def rootOf : List Char → String
  | '/' :: '/' :: '/' :: _ => "/"
  | '/' :: '/' :: _ => "//"
  | '/' :: _ => "/"
  | _ => ""

def ofText (s : String) : Path where
  root := rootOf s.toList
  parts := ((Text.splitOn '/' s.toList).filter fun p => p != [] && p != ['.']).map String.ofList

def isAbsolute (p : Path) : Bool := p.root != ""

/-- The text of a path; the empty one is a dot. -/
def text (p : Path) : String :=
  if p.root = "" ∧ p.parts = [] then "." else p.root ++ "/".intercalate p.parts

def join (p q : Path) : Path :=
  if q.isAbsolute then q else { p with parts := p.parts ++ q.parts }

def parent (p : Path) : Path := { p with parts := p.parts.dropLast }

def child (p : Path) (name : String) : Path := { p with parts := p.parts ++ [name] }

end Path
end HtmlCatalog
