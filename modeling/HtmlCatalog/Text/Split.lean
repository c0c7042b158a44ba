/-! Cutting a text at every occurrence of a separator. -/
namespace HtmlCatalog
namespace Text

/-- The parts between separators, at least one. -/
def splitOn (separator : Char) : List Char → List (List Char)
  | [] => [[]]
  | c :: cs =>
    match splitOn separator cs with
    | [] => [[]]
    | part :: rest => if c = separator then [] :: part :: rest else (c :: part) :: rest

end Text
end HtmlCatalog
