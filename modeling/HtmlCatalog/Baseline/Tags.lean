import HtmlCatalog.Baseline.Entry

/-! The tags of the markup standard with their own attributes, in four parts. -/
namespace HtmlCatalog
namespace Baseline

def tagsFirst : List TagEntry := [
  ⟨"html",
    "The html element represents the root of an HTML document.",
    [plain "manifest", plain "version", plain "xmlns"]⟩,
  ⟨"head",
    "The head element represents a collection of metadata for the Document.",
    []⟩,
  ⟨"title",
    "The title element represents the document's title or name.",
    []⟩,
  ⟨"base",
    "The base element allows authors to specify the document base URL.",
    [plain "href", plain "target"]⟩,
  ⟨"link",
    "The link element allows authors to link their document to other resources.",
    [plain "href", ofSet "crossorigin" "xo", plain "rel", plain "media", plain "hreflang",
    plain "type", plain "sizes", plain "as", plain "integrity", ofSet "referrerpolicy" "rp"]⟩,
  ⟨"meta",
    "The meta element represents various kinds of metadata that cannot be expressed using the other metadata elements.",
    [plain "name", plain "http-equiv", plain "content", plain "charset"]⟩,
  ⟨"style",
    "The style element allows authors to embed style information in their documents.",
    [plain "media", plain "nonce"]⟩,
  ⟨"body",
    "The body element represents the content of the document.",
    [plain "onafterprint", plain "onbeforeprint", plain "onbeforeunload", plain "onhashchange",
    plain "onlanguagechange", plain "onmessage", plain "onoffline", plain "ononline",
    plain "onpagehide", plain "onpageshow", plain "onpopstate", plain "onstorage",
    plain "onunload"]⟩,
  ⟨"article",
    "The article element represents a complete, or self-contained, composition in a document.",
    []⟩,
  ⟨"section",
    "The section element represents a generic section of a document or application.",
    []⟩,
  ⟨"nav",
    "The nav element represents a section of a page that links to other pages or to parts within the page.",
    []⟩,
  ⟨"aside",
    "The aside element represents a section of a page that consists of content that is tangentially related to the content around it.",
    []⟩,
  ⟨"h1",
    "The h1 element represents a section heading.",
    []⟩,
  ⟨"h2",
    "The h2 element represents a section heading.",
    []⟩,
  ⟨"h3",
    "The h3 element represents a section heading.",
    []⟩,
  ⟨"h4",
    "The h4 element represents a section heading.",
    []⟩,
  ⟨"h5",
    "The h5 element represents a section heading.",
    []⟩,
  ⟨"h6",
    "The h6 element represents a section heading.",
    []⟩,
  ⟨"header",
    "The header element represents introductory content.",
    []⟩,
  ⟨"footer",
    "The footer element represents a footer for its nearest ancestor sectioning content.",
    []⟩,
  ⟨"address",
    "The address element represents the contact information for its nearest article or body element ancestor.",
    []⟩,
  ⟨"p",
    "The p element represents a paragraph.",
    []⟩,
  ⟨"hr",
    "The hr element represents a paragraph-level thematic break.",
    []⟩,
  ⟨"pre",
    "The pre element represents a block of preformatted text.",
    []⟩]

def tagsSecond : List TagEntry := [
  ⟨"blockquote",
    "The blockquote element represents content that is quoted from another source.",
    [plain "cite"]⟩,
  ⟨"ol",
    "The ol element represents a list of items, where the items have been intentionally ordered.",
    [ofSet "reversed" "v", plain "start", ofSet "type" "lt"]⟩,
  ⟨"ul",
    "The ul element represents a list of items, where the order of the items is not important.",
    []⟩,
  ⟨"li",
    "The li element represents a list item.",
    [plain "value"]⟩,
  ⟨"dl",
    "The dl element represents an association list consisting of zero or more name-value groups.",
    []⟩,
  ⟨"dt",
    "The dt element represents the term, or name, part of a term-description group.",
    []⟩,
  ⟨"dd",
    "The dd element represents the description, definition, or value, part of a term-description group.",
    []⟩,
  ⟨"figure",
    "The figure element represents some flow content, optionally with a caption.",
    []⟩,
  ⟨"figcaption",
    "The figcaption element represents a caption or legend for the rest of the contents of the figcaption element's parent figure element.",
    []⟩,
  ⟨"main",
    "The main element represents the main content of the body of a document or application.",
    []⟩,
  ⟨"div",
    "The div element has no special meaning at all.",
    []⟩,
  ⟨"a",
    "If the a element has an href attribute, then it represents a hyperlink.",
    [plain "href", plain "target", plain "download", plain "ping", plain "rel", plain "hreflang",
    plain "type", ofSet "referrerpolicy" "rp"]⟩,
  ⟨"em",
    "The em element represents stress emphasis of its contents.",
    []⟩,
  ⟨"strong",
    "The strong element represents strong importance, seriousness, or urgency for its contents.",
    []⟩,
  ⟨"small",
    "The small element represents side comments such as small print.",
    []⟩,
  ⟨"s",
    "The s element represents contents that are no longer accurate or no longer relevant.",
    []⟩,
  ⟨"cite",
    "The cite element represents a reference to a creative work.",
    []⟩,
  ⟨"q",
    "The q element represents some phrasing content quoted from another source.",
    [plain "cite"]⟩,
  ⟨"code",
    "The code element represents a fragment of computer code.",
    []⟩,
  ⟨"sub",
    "The sub element represents a subscript.",
    []⟩,
  ⟨"sup",
    "The sup element represents a superscript.",
    []⟩,
  ⟨"i",
    "The i element represents a span of text in an alternate voice or mood.",
    []⟩,
  ⟨"b",
    "The b element represents a span of text to which attention is being drawn for utilitarian purposes.",
    []⟩,
  ⟨"u",
    "The u element represents a span of text with an unarticulated, though explicitly rendered, non-textual annotation.",
    []⟩]

def tagsThird : List TagEntry := [
  ⟨"mark",
    "The mark element represents a run of text in one document marked or highlighted for reference purposes.",
    []⟩,
  ⟨"span",
    "The span element doesn't mean anything on its own.",
    []⟩,
  ⟨"br",
    "The br element represents a line break.",
    []⟩,
  ⟨"wbr",
    "The wbr element represents a line break opportunity.",
    []⟩,
  ⟨"ins",
    "The ins element represents an addition to the document.",
    [plain "cite", plain "datetime"]⟩,
  ⟨"del",
    "The del element represents a removal from the document.",
    [plain "cite", plain "datetime"]⟩,
  ⟨"picture",
    "The picture element is a container which provides multiple sources to its contained img element.",
    []⟩,
  ⟨"source",
    "The source element allows authors to specify multiple alternative source sets for img elements or multiple alternative media resources for media elements.",
    [plain "src", plain "type", plain "sizes", plain "srcset", plain "media"]⟩,
  ⟨"img",
    "An img element represents an image.",
    [plain "alt", plain "src", plain "srcset", ofSet "crossorigin" "xo", plain "usemap",
    ofSet "ismap" "v", plain "width", plain "height", ofSet "decoding" "decoding",
    ofSet "loading" "loading", ofSet "referrerpolicy" "rp", plain "sizes"]⟩,
  ⟨"iframe",
    "The iframe element represents a nested browsing context.",
    [plain "src", plain "srcdoc", plain "name", ofSet "sandbox" "sb", plain "allow",
    ofSet "allowfullscreen" "v", plain "width", plain "height", ofSet "referrerpolicy" "rp",
    ofSet "loading" "loading"]⟩,
  ⟨"embed",
    "The embed element provides an integration point for an external (typically non-HTML) application or interactive content.",
    [plain "src", plain "type", plain "width", plain "height"]⟩,
  ⟨"object",
    "The object element can represent an external resource.",
    [plain "data", plain "type", plain "name", plain "form", plain "width", plain "height"]⟩,
  ⟨"video",
    "A video element is used for playing videos or movies, and audio files with captions.",
    [plain "src", ofSet "crossorigin" "xo", plain "poster", ofSet "preload" "pl",
    ofSet "autoplay" "v", ofSet "loop" "v", ofSet "muted" "v", ofSet "controls" "v",
    plain "width", plain "height"]⟩,
  ⟨"audio",
    "An audio element represents a sound or audio stream.",
    [plain "src", ofSet "crossorigin" "xo", ofSet "preload" "pl", ofSet "autoplay" "v",
    ofSet "loop" "v", ofSet "muted" "v", ofSet "controls" "v"]⟩,
  ⟨"track",
    "The track element allows authors to specify explicit external timed text tracks for media elements.",
    [ofSet "default" "v", ofSet "kind" "tk", plain "label", plain "src", plain "srclang"]⟩,
  ⟨"map",
    "The map element, in conjunction with an img element and any area element descendants, defines an image map.",
    [plain "name"]⟩,
  ⟨"area",
    "The area element represents either a hyperlink with some text and a corresponding area on an image map, or a dead area on an image map.",
    [plain "alt", plain "coords", ofSet "shape" "sh", plain "href", plain "target",
    plain "download", plain "ping", plain "rel", ofSet "referrerpolicy" "rp"]⟩,
  ⟨"table",
    "The table element represents data with more than one dimension, in the form of a table.",
    []⟩,
  ⟨"caption",
    "The caption element represents the title of the table that is its parent.",
    []⟩,
  ⟨"colgroup",
    "The colgroup element represents a group of one or more columns in the table that is its parent.",
    [plain "span"]⟩,
  ⟨"col",
    "The col element represents one or more columns in the column group represented by that colgroup.",
    [plain "span"]⟩,
  ⟨"tbody",
    "The tbody element represents a block of rows that consist of a body of data for the parent table element.",
    []⟩,
  ⟨"thead",
    "The thead element represents the block of rows that consist of the column labels (headers) for the parent table element.",
    []⟩,
  ⟨"tfoot",
    "The tfoot element represents the block of rows that consist of the column summaries (footers) for the parent table element.",
    []⟩]

def tagsFourth : List TagEntry := [
  ⟨"tr",
    "The tr element represents a row of cells in a table.",
    []⟩,
  ⟨"td",
    "The td element represents a data cell in a table.",
    [plain "colspan", plain "rowspan", plain "headers"]⟩,
  ⟨"th",
    "The th element represents a header cell in a table.",
    [plain "colspan", plain "rowspan", plain "headers", ofSet "scope" "s", plain "abbr"]⟩,
  ⟨"form",
    "The form element represents a collection of form-associated elements.",
    [plain "accept-charset", plain "action", ofSet "autocomplete" "o", ofSet "enctype" "et",
    ofSet "method" "m", plain "name", ofSet "novalidate" "v", plain "target"]⟩,
  ⟨"label",
    "The label element represents a caption in a user interface.",
    [plain "form", plain "for"]⟩,
  ⟨"input",
    "The input element represents a typed data field, usually with a form control to allow the user to edit the data.",
    [plain "accept", plain "alt", ofSet "autocomplete" "inputautocomplete",
    ofSet "autofocus" "v", ofSet "checked" "v", plain "dirname", ofSet "disabled" "v",
    plain "form", plain "formaction", ofSet "formenctype" "et", ofSet "formmethod" "fm",
    ofSet "formnovalidate" "v", plain "formtarget", plain "height", ofSet "inputmode" "im",
    plain "list", plain "max", plain "maxlength", plain "min", plain "minlength",
    ofSet "multiple" "v", plain "name", plain "pattern", plain "placeholder",
    ofSet "readonly" "v", ofSet "required" "v", plain "size", plain "src", plain "step",
    ofSet "type" "t", plain "value", plain "width"]⟩,
  ⟨"button",
    "The button element represents a button labeled by its contents.",
    [ofSet "autofocus" "v", ofSet "disabled" "v", plain "form", plain "formaction",
    ofSet "formenctype" "et", ofSet "formmethod" "fm", ofSet "formnovalidate" "v",
    plain "formtarget", plain "name", ofSet "type" "bt", plain "value"]⟩,
  ⟨"select",
    "The select element represents a control for selecting amongst a set of options.",
    [ofSet "autocomplete" "inputautocomplete", ofSet "autofocus" "v", ofSet "disabled" "v",
    plain "form", ofSet "multiple" "v", plain "name", ofSet "required" "v", plain "size"]⟩,
  ⟨"datalist",
    "The datalist element represents a set of option elements that represent predefined options for other controls.",
    []⟩,
  ⟨"optgroup",
    "The optgroup element represents a group of option elements with a common label.",
    [ofSet "disabled" "v", plain "label"]⟩,
  ⟨"option",
    "The option element represents an option in a select element or as part of a list of suggestions in a datalist element.",
    [ofSet "disabled" "v", plain "label", ofSet "selected" "v", plain "value"]⟩,
  ⟨"textarea",
    "The textarea element represents a multiline plain text edit control for the element's raw value.",
    [ofSet "autocomplete" "inputautocomplete", ofSet "autofocus" "v", plain "cols",
    plain "dirname", ofSet "disabled" "v", plain "form", ofSet "inputmode" "im",
    plain "maxlength", plain "minlength", plain "name", plain "placeholder",
    ofSet "readonly" "v", ofSet "required" "v", plain "rows", ofSet "wrap" "w"]⟩,
  ⟨"output",
    "The output element represents the result of a calculation performed by the application, or the result of a user action.",
    [plain "for", plain "form", plain "name"]⟩,
  ⟨"progress",
    "The progress element represents the completion progress of a task.",
    [plain "value", plain "max"]⟩,
  ⟨"meter",
    "The meter element represents a scalar measurement within a known range, or a fractional value.",
    [plain "value", plain "min", plain "max", plain "low", plain "high", plain "optimum"]⟩,
  ⟨"fieldset",
    "The fieldset element represents a set of form controls optionally grouped under a common name.",
    [ofSet "disabled" "v", plain "form", plain "name"]⟩,
  ⟨"legend",
    "The legend element represents a caption for the rest of the contents of the legend element's parent fieldset element.",
    []⟩,
  ⟨"details",
    "The details element represents a disclosure widget from which the user can obtain additional information or controls.",
    [ofSet "open" "v"]⟩,
  ⟨"summary",
    "The summary element represents a summary, caption, or legend for the rest of the contents of the summary element's parent details element.",
    []⟩,
  ⟨"dialog",
    "The dialog element represents a part of an application that a user interacts with to perform a task.",
    [plain "open"]⟩,
  ⟨"script",
    "The script element allows authors to include dynamic script and data blocks in their documents.",
    [plain "src", plain "type", ofSet "nomodule" "v", ofSet "async" "v", ofSet "defer" "v",
    ofSet "crossorigin" "xo", plain "integrity", ofSet "referrerpolicy" "rp"]⟩,
  ⟨"noscript",
    "The noscript element represents nothing if scripting is enabled, and represents its children if scripting is disabled.",
    []⟩,
  ⟨"template",
    "The template element is used to declare fragments of HTML that can be cloned and inserted in the document by script.",
    []⟩,
  ⟨"canvas",
    "The canvas element provides scripts with a resolution-dependent bitmap canvas.",
    [plain "width", plain "height"]⟩]

def tags : List TagEntry := tagsFirst ++ tagsSecond ++ tagsThird ++ tagsFourth

end Baseline
end HtmlCatalog
