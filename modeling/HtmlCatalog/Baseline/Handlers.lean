import HtmlCatalog.Baseline.Entry

/-! The event handler attributes that every tag has. -/
namespace HtmlCatalog
namespace Baseline

def handlers : List AttributeEntry := [
  described "onabort"
    "The loading of a resource has been aborted.",
  described "onblur"
    "An element has lost focus (does not bubble).",
  described "oncanplay"
    "The user agent can play the media, but estimates that not enough data has been loaded to play the media up to its end.",
  described "oncanplaythrough"
    "The user agent can play the media up to its end without having to stop for further buffering of content.",
  described "onchange"
    "The change event is fired for input, select, and textarea elements when a change to the element's value is committed by the user.",
  described "onclick"
    "A pointing device button has been pressed and released on an element.",
  described "oncontextmenu"
    "The right button of the mouse is clicked (before the context menu is displayed).",
  described "oncopy"
    "The text selection has been added to the clipboard.",
  described "oncut"
    "The text selection has been removed from the document and added to the clipboard.",
  described "ondblclick"
    "A pointing device button is clicked twice on an element.",
  described "ondrag"
    "An element or text selection is being dragged.",
  described "ondragend"
    "A drag operation is being ended.",
  described "ondragenter"
    "A dragged element or text selection enters a valid drop target.",
  described "ondragleave"
    "A dragged element or text selection leaves a valid drop target.",
  described "ondragover"
    "An element or text selection is being dragged over a valid drop target.",
  described "ondragstart"
    "The user starts dragging an element or text selection.",
  described "ondrop"
    "An element is dropped on a valid drop target.",
  described "ondurationchange"
    "The duration attribute has been updated.",
  described "onemptied"
    "The media has become empty.",
  described "onended"
    "Playback has stopped because the end of the media was reached.",
  described "onerror"
    "A resource failed to load.",
  described "onfocus"
    "An element has received focus (does not bubble).",
  described "onformdata"
    "The form data has been constructed.",
  described "oninput"
    "The value of an element changes or the content of an element with the attribute contenteditable is modified.",
  described "oninvalid"
    "A submittable element has been checked and doesn't satisfy its constraints.",
  described "onkeydown"
    "A key is pressed down.",
  described "onkeypress"
    "A key is pressed down and that key normally produces a character value.",
  described "onkeyup"
    "A key is released.",
  described "onload"
    "A resource and its dependent resources have finished loading.",
  described "onloadeddata"
    "The first frame of the media has finished loading.",
  described "onloadedmetadata"
    "The metadata has been loaded.",
  described "onloadstart"
    "Progress has begun.",
  described "onmousedown"
    "A pointing device button (usually a mouse) is pressed on an element.",
  described "onmouseenter"
    "A pointing device is moved onto the element that has the listener attached.",
  described "onmouseleave"
    "A pointing device is moved off the element that has the listener attached.",
  described "onmousemove"
    "A pointing device is moved over an element.",
  described "onmouseout"
    "A pointing device is moved off the element that has the listener attached or off one of its children.",
  described "onmouseover"
    "A pointing device is moved onto the element that has the listener attached or onto one of its children.",
  described "onmouseup"
    "A pointing device button is released over an element.",
  described "onpaste"
    "Data has been transferred from the system clipboard to the document.",
  described "onpause"
    "Playback has been paused.",
  described "onplay"
    "Playback has begun.",
  described "onplaying"
    "Playback is ready to start after having been paused or delayed due to lack of data.",
  described "onprogress"
    "In progress.",
  described "onratechange"
    "The playback rate has changed.",
  described "onreset"
    "A form is reset.",
  described "onresize"
    "The document view has been resized.",
  described "onscroll"
    "The document view or an element has been scrolled.",
  described "onseeked"
    "A seek operation completed.",
  described "onseeking"
    "A seek operation began.",
  described "onselect"
    "Some text is being selected.",
  described "onstalled"
    "The user agent is trying to fetch media data, but data is unexpectedly not forthcoming.",
  described "onsubmit"
    "A form is submitted.",
  described "onsuspend"
    "Media data loading has been suspended.",
  described "ontimeupdate"
    "The time indicated by the currentTime attribute has been updated.",
  described "ontoggle"
    "The open state of a details element has been toggled.",
  described "onvolumechange"
    "The volume has changed.",
  described "onwaiting"
    "Playback has stopped because of a temporary lack of data.",
  described "onwheel"
    "A wheel button of a pointing device is rotated in any direction."]

end Baseline
end HtmlCatalog
