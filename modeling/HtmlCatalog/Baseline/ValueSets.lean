import HtmlCatalog.Baseline.Entry

/-! The named sets of values that attributes of the baseline refer to. -/
namespace HtmlCatalog
namespace Baseline

def valueSets : List ValueSetEntry := [
  ⟨"b",
    ["true", "false"]⟩,
  ⟨"u",
    ["true", "false", "undefined"]⟩,
  ⟨"o",
    ["on", "off"]⟩,
  ⟨"y",
    ["yes", "no"]⟩,
  ⟨"w",
    ["soft", "hard"]⟩,
  ⟨"d",
    ["ltr", "rtl", "auto"]⟩,
  ⟨"m",
    ["get", "post", "dialog"]⟩,
  ⟨"fm",
    ["get", "post"]⟩,
  ⟨"s",
    ["row", "col", "rowgroup", "colgroup"]⟩,
  ⟨"t",
    ["hidden", "text", "search", "tel", "url", "email", "password", "datetime", "date", "month",
    "week", "time", "datetime-local", "number", "range", "color", "checkbox", "radio", "file",
    "submit", "image", "reset", "button"]⟩,
  ⟨"im",
    ["none", "text", "decimal", "numeric", "tel", "search", "email", "url"]⟩,
  ⟨"bt",
    ["button", "submit", "reset"]⟩,
  ⟨"lt",
    ["1", "a", "A", "i", "I"]⟩,
  ⟨"et",
    ["application/x-www-form-urlencoded", "multipart/form-data", "text/plain"]⟩,
  ⟨"tk",
    ["subtitles", "captions", "descriptions", "chapters", "metadata"]⟩,
  ⟨"pl",
    ["none", "metadata", "auto"]⟩,
  ⟨"sh",
    ["circle", "default", "poly", "rect"]⟩,
  ⟨"xo",
    ["anonymous", "use-credentials"]⟩,
  ⟨"sb",
    ["allow-forms", "allow-modals", "allow-pointer-lock", "allow-popups",
    "allow-popups-to-escape-sandbox", "allow-same-origin", "allow-scripts",
    "allow-top-navigation"]⟩,
  ⟨"rp",
    ["no-referrer", "no-referrer-when-downgrade", "origin", "origin-when-cross-origin",
    "same-origin", "strict-origin", "strict-origin-when-cross-origin", "unsafe-url"]⟩,
  ⟨"ekh",
    ["enter", "done", "go", "next", "previous", "search", "send"]⟩,
  ⟨"decoding",
    ["sync", "async", "auto"]⟩,
  ⟨"loading",
    ["eager", "lazy"]⟩,
  ⟨"inputautocomplete",
    ["off", "on", "name", "username", "new-password", "current-password", "email", "tel", "url",
    "street-address", "postal-code", "country", "one-time-code"]⟩,
  ⟨"autocomplete",
    ["inline", "list", "both", "none"]⟩,
  ⟨"current",
    ["page", "step", "location", "date", "time", "true", "false"]⟩,
  ⟨"haspopup",
    ["false", "true", "menu", "listbox", "tree", "grid", "dialog"]⟩,
  ⟨"invalid",
    ["grammar", "false", "spelling", "true"]⟩,
  ⟨"live",
    ["off", "polite", "assertive"]⟩,
  ⟨"orientation",
    ["vertical", "horizontal", "undefined"]⟩,
  ⟨"sort",
    ["ascending", "descending", "none", "other"]⟩,
  ⟨"tristate",
    ["true", "false", "mixed", "undefined"]⟩,
  ⟨"roles",
    ["alert", "alertdialog", "button", "checkbox", "dialog", "gridcell", "link", "log",
    "marquee", "menuitem", "menuitemcheckbox", "menuitemradio", "option", "progressbar",
    "radio", "scrollbar", "searchbox", "slider", "spinbutton", "status", "switch", "tab",
    "tabpanel", "textbox", "timer", "tooltip", "treeitem", "combobox", "grid", "listbox",
    "menu", "menubar", "radiogroup", "tablist", "tree", "treegrid", "application", "article",
    "cell", "columnheader", "definition", "directory", "document", "feed", "figure", "group",
    "heading", "img", "list", "listitem", "math", "none", "note", "presentation", "region",
    "row", "rowgroup", "rowheader", "separator", "table", "term", "text", "toolbar", "banner",
    "complementary", "contentinfo", "form", "main", "navigation", "search"]⟩]

end Baseline
end HtmlCatalog
