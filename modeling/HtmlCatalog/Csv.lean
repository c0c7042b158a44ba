/-! Tables as text: fields separated by commas, a line feed after every row. A field stands in
quotes if it is empty or holds a comma, a quote or the end of a line, and a quote inside it is
written twice. -/
namespace HtmlCatalog
namespace Csv

def isSpecial (c : Char) : Bool := c == ',' || c == '"' || c == '\n' || c == '\r'

def doubleQuotes : List Char → List Char
  | [] => []
  | '"' :: cs => '"' :: '"' :: doubleQuotes cs
  | c :: cs => c :: doubleQuotes cs

def field (cs : List Char) : List Char :=
  if cs.isEmpty || cs.any isSpecial then '"' :: doubleQuotes cs ++ ['"'] else cs

def row : List String → List Char
  | [] => ['\n']
  | [f] => field f.toList ++ ['\n']
  | f :: fs => field f.toList ++ ',' :: row fs

def render (rows : List (List String)) : String := String.ofList (rows.flatMap row)

/-- The rows of a text. The arguments are the fields of the row so far and the characters of the
field so far, both in reverse, and whether a quote is open. -/
def readRows (fields : List String) (done : List Char) : Bool → List Char → List (List String)
  | true, '"' :: '"' :: cs => readRows fields ('"' :: done) true cs
  | true, '"' :: cs => readRows fields done false cs
  | true, c :: cs => readRows fields (c :: done) true cs
  | false, '"' :: cs => readRows fields done true cs
  | false, ',' :: cs => readRows (String.ofList done.reverse :: fields) [] false cs
  | false, '\n' :: cs => (String.ofList done.reverse :: fields).reverse :: readRows [] [] false cs
  | false, c :: cs => readRows fields (c :: done) false cs
  | _, [] =>
    if fields = [] ∧ done = [] then [] else [(String.ofList done.reverse :: fields).reverse]

def read (s : String) : List (List String) := readRows [] [] false s.toList

end Csv
end HtmlCatalog
