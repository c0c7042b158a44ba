import HtmlCatalog.Baseline.Entry

/-! The attributes that every tag has: those of the markup standard and those for assistive
technologies. -/
namespace HtmlCatalog
namespace Baseline

def globalAttributes : List AttributeEntry := [
  described "accesskey"
    "Provides a hint for generating a keyboard shortcut for the current element.",
  described "autocapitalize"
    "Controls whether and how text input is automatically capitalized as it is entered/edited by the user.",
  described "class"
    "A space-separated list of the classes of the element.",
  described "contenteditable"
    "An enumerated attribute indicating if the element should be editable by the user.",
  describedOfSet "dir" "d"
    "An enumerated attribute indicating the directionality of the element's text.",
  describedOfSet "draggable" "b"
    "An enumerated attribute indicating whether the element can be dragged.",
  describedOfSet "enterkeyhint" "ekh"
    "Hints what action label (or icon) to present for the enter key on virtual keyboards.",
  describedOfSet "hidden" "v"
    "A Boolean attribute indicates that the element is not yet, or is no longer, relevant.",
  described "id"
    "Defines a unique identifier (ID) which must be unique in the whole document.",
  describedOfSet "inert" "v"
    "A boolean value that makes the browser disregard user input events for the element.",
  describedOfSet "inputmode" "im"
    "Provides a hint as to the type of data that might be entered by the user while editing the element or its contents.",
  described "is"
    "Allows you to specify that a standard HTML element should behave like a registered custom built-in element.",
  described "itemid"
    "The unique, global identifier of an item.",
  described "itemprop"
    "Used to add properties to an item.",
  described "itemref"
    "Properties that are not descendants of an element with the itemscope attribute can be associated with the item using an itemref.",
  describedOfSet "itemscope" "v"
    "itemscope (usually) works along with itemtype to specify that the HTML contained in a block is about a particular item.",
  described "itemtype"
    "Specifies the URL of the vocabulary that will be used to define itemprops in the data structure.",
  described "lang"
    "Helps define the language of an element.",
  described "nonce"
    "A cryptographic nonce that can be used by Content Security Policy.",
  described "part"
    "A space-separated list of the part names of the element.",
  ofSet "role" "roles",
  describedOfSet "spellcheck" "b"
    "An enumerated attribute defines whether the element may be checked for spelling errors.",
  described "style"
    "Contains CSS styling declarations to be applied to the element.",
  described "tabindex"
    "An integer attribute indicating if the element can take input focus (is focusable).",
  described "title"
    "Contains a text representing advisory information related to the element it belongs to.",
  describedOfSet "translate" "y"
    "An enumerated attribute that is used to specify whether an element's attribute values and the values of its Text node children are to be translated when the page is localized."]

def accessibilityAttributes : List AttributeEntry := [
  described "aria-activedescendant"
    "Identifies the currently active element when DOM focus is on a composite widget, textbox, group, or application.",
  describedOfSet "aria-atomic" "b"
    "Indicates whether assistive technologies will present all, or only parts of, the changed region based on the change notifications defined by the aria-relevant attribute.",
  describedOfSet "aria-autocomplete" "autocomplete"
    "Indicates whether inputting text could trigger display of one or more predictions of the user's intended value.",
  describedOfSet "aria-busy" "b"
    "Indicates an element is being modified and that assistive technologies may want to wait until the modifications are complete before exposing them to the user.",
  describedOfSet "aria-checked" "tristate"
    "Indicates the current \"checked\" state of checkboxes, radio buttons, and other widgets.",
  described "aria-controls"
    "Identifies the element (or elements) whose contents or presence are controlled by the current element.",
  describedOfSet "aria-current" "current"
    "Indicates the element that represents the current item within a container or set of related elements.",
  described "aria-describedby"
    "Identifies the element (or elements) that describes the object.",
  describedOfSet "aria-disabled" "b"
    "Indicates that the element is perceivable but disabled, so it is not editable or otherwise operable.",
  describedOfSet "aria-expanded" "u"
    "Indicates whether the element, or another grouping element it controls, is currently expanded or collapsed.",
  describedOfSet "aria-haspopup" "haspopup"
    "Indicates the availability and type of interactive popup element that can be triggered by an element.",
  describedOfSet "aria-hidden" "b"
    "Indicates whether the element is exposed to an accessibility API.",
  describedOfSet "aria-invalid" "invalid"
    "Indicates the entered value does not conform to the format expected by the application.",
  described "aria-label"
    "Defines a string value that labels the current element.",
  described "aria-labelledby"
    "Identifies the element (or elements) that labels the current element.",
  described "aria-level"
    "Defines the hierarchical level of an element within a structure.",
  describedOfSet "aria-live" "live"
    "Indicates that an element will be updated, and describes the types of updates the user agents, assistive technologies, and user can expect from the live region.",
  describedOfSet "aria-modal" "b"
    "Indicates whether an element is modal when displayed.",
  describedOfSet "aria-multiline" "b"
    "Indicates whether a text box accepts multiple lines of input or only a single line.",
  describedOfSet "aria-orientation" "orientation"
    "Indicates whether the element's orientation is horizontal, vertical, or unknown/ambiguous.",
  described "aria-placeholder"
    "Defines a short hint intended to aid the user with data entry when the control has no value.",
  describedOfSet "aria-pressed" "tristate"
    "Indicates the current \"pressed\" state of toggle buttons.",
  describedOfSet "aria-readonly" "b"
    "Indicates that the element is not editable, but is otherwise operable.",
  describedOfSet "aria-required" "b"
    "Indicates that user input is required on the element before a form may be submitted.",
  describedOfSet "aria-selected" "u"
    "Indicates the current \"selected\" state of various widgets.",
  describedOfSet "aria-sort" "sort"
    "Indicates if items in a table or grid are sorted in ascending or descending order.",
  described "aria-valuemax"
    "Defines the maximum allowed value for a range widget.",
  described "aria-valuemin"
    "Defines the minimum allowed value for a range widget.",
  described "aria-valuenow"
    "Defines the current value for a range widget.",
  described "aria-valuetext"
    "Defines the human readable text alternative of aria-valuenow for a range widget."]

end Baseline
end HtmlCatalog
