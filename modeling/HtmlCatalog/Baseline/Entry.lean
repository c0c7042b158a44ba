import HtmlCatalog.Value

/-! The entries of the baseline as data: what each gives of a name, a value set and a
description, and the map that it stands for in a document. -/
namespace HtmlCatalog
namespace Baseline

structure AttributeEntry where
  name : String
  valueSet : Option String := none
  description : Option String := none

structure TagEntry where
  name : String
  description : String
  attributes : List AttributeEntry

structure ValueSetEntry where
  name : String
  values : List String

def plain (name : String) : AttributeEntry := { name }

def ofSet (name valueSet : String) : AttributeEntry := { name, valueSet }

def described (name description : String) : AttributeEntry := { name, description }

def describedOfSet (name valueSet description : String) : AttributeEntry :=
  { name, valueSet, description }

def pair (key : String) (value : Value) : Scalar × Value := (.str key, value)

def textPair (key value : String) : Scalar × Value := (.str key, .str value)

def AttributeEntry.value (a : AttributeEntry) : Value :=
  .map (textPair "name" a.name ::
    (a.valueSet.toList.map (textPair "valueSet") ++
      a.description.toList.map (textPair "description")))

def TagEntry.value (t : TagEntry) : Value :=
  .map [textPair "name" t.name, textPair "description" t.description,
    pair "attributes" (.list (t.attributes.map (·.value)))]

def ValueSetEntry.value (s : ValueSetEntry) : Value :=
  .map [textPair "name" s.name,
    pair "values" (.list (s.values.map fun v => .map [textPair "name" v]))]

end Baseline
end HtmlCatalog
