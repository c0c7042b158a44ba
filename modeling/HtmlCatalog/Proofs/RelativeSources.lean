import HtmlCatalog.Proofs.Layers
import HtmlCatalog.Proofs.Paths
import HtmlCatalog.Proofs.Settings

/-! Sources that are named in a file of settings. They are looked for twice: beside the file when
the settings are read, and from the working directory when the catalogue is built. The path that
the first search writes down is the one that the second follows, so a file beside the settings
comes before one in the working directory, and a text that names neither is no document. -/
namespace HtmlCatalog

open Config UserData

variable {t : FileTree} {directory : Path} {v : Value} {s : String} {given : List Value}
  {c : Config}

namespace Config

theorem origin_str (t : FileTree) (s : String) :
    (Source.value (.str s)).origin t =
      .ok (if t.isFile (.ofText s) then .file (.ofText s) else .inline (.str s)) := by
  simp only [Source.origin, Source.path?]
  split <;> rfl

end Config
end HtmlCatalog
