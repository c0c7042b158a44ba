import HtmlCatalog.File.Path

/-! Paths that are written out and read back. A path that was read from a text, and any path that
is put together from such paths, is the path that its own text stands for. -/
namespace HtmlCatalog

namespace Text

variable {separator : Char} {cs part : List Char}

end Text

namespace Path

variable {p q : Path} {s name : String} {names : List String} {cs : List Char}

/-- A name that can stand between the slashes of a path. -/
def IsName (name : String) : Prop := '/' ∉ name.toList ∧ name ≠ "" ∧ name ≠ "."

/-- A path as one that is read from a text. -/
structure IsClean (p : Path) : Prop where
  root : p.root = "" ∨ p.root = "/" ∨ p.root = "//"
  parts : ∀ name ∈ p.parts, IsName name

theorem IsClean.parent (h : p.IsClean) : p.parent.IsClean where
  root := h.root
  parts := fun name hname => h.parts name (List.dropLast_subset _ hname)

theorem IsClean.join (hp : p.IsClean) (hq : q.IsClean) : (p.join q).IsClean := by
  unfold Path.join
  split
  · exact hq
  · exact ⟨hp.root, List.forall_mem_append.mpr ⟨hp.parts, hq.parts⟩⟩

end Path
end HtmlCatalog
