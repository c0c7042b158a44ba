import HtmlCatalog.Baseline.Attributes
import HtmlCatalog.Baseline.Handlers
import HtmlCatalog.Baseline.Tags
import HtmlCatalog.Baseline.ValueSets
import HtmlCatalog.Document

/-! The markup standard as one HTML data document of version 1.1. Its global attributes are the
common ones, the event handlers, and those for assistive technologies, in this order. -/
namespace HtmlCatalog
namespace Baseline

def version : Value := .real Document.onePointOne

def tagValues : List Value := tags.map (·.value)

def handlerValues : List Value := handlers.map (·.value)

def attributeValues : List Value :=
  globalAttributes.map (·.value) ++ handlerValues ++ accessibilityAttributes.map (·.value)

def valueSetValues : List Value := valueSets.map (·.value)

def document : Value :=
  .map [pair "version" version, pair "tags" (.list tagValues),
    pair "globalAttributes" (.list attributeValues), pair "valueSets" (.list valueSetValues)]

end Baseline
end HtmlCatalog
