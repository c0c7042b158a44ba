import HtmlCatalog.File.Path
import HtmlCatalog.Text.Plain
import HtmlCatalog.Text.Quoted

/-! Reading the words of a command line. An option may be cut short as long as it can only be
one, and its argument may follow an equals sign or be the next word. Two dashes alone end the
options; words that are neither options nor their arguments are not accepted, but an option that
asks for help is answered before they are complained of. -/
namespace HtmlCatalog
namespace CommandLine

inductive Action
  | help | config | reportDir | noBuiltin | verbose
  deriving DecidableEq, Repr

structure Options where
  config : Option Path := none
  reportDir : Option Path := none
  includeBuiltin : Bool := true
  verbose : Bool := false
  deriving DecidableEq, Repr

inductive Fault
  | unrecognized (words : List String)
  | expectedArgument (action : Action)
  | ignoredArgument (action : Action) (argument : String)
  | ambiguous (word : String) (candidates : List String)
  deriving DecidableEq, Repr

def optionNames : List (String × Action) :=
  [("-h", .help), ("--help", .help), ("--config", .config), ("--report-dir", .reportDir),
    ("--no-builtin", .noBuiltin), ("--verbose", .verbose)]

def takesArgument : Action → Bool
  | .config | .reportDir => true
  | _ => false

def Action.label (a : Action) : String :=
  "/".intercalate ((optionNames.filter (·.2 == a)).map (·.1))

def Fault.message : Fault → String
  | .unrecognized words => "unrecognized arguments: " ++ " ".intercalate words
  | .expectedArgument a => "argument " ++ a.label ++ ": expected one argument"
  | .ignoredArgument a s =>
    "argument " ++ a.label ++ ": ignored explicit argument " ++ Text.quoted s
  | .ambiguous word candidates =>
    "ambiguous option: " ++ word ++ " could match " ++ ", ".intercalate candidates

def usage : String :=
  "usage: html-data-collection [-h] [--config CONFIG] [--report-dir REPORT_DIR]\n" ++
  "                            [--no-builtin] [--verbose]\n"

def help : String :=
  usage ++
  "\n" ++
  "Build the HTML knowledge collection\n" ++
  "\n" ++
  "options:\n" ++
  "  -h, --help            show this help message and exit\n" ++
  "  --config CONFIG       User config file (YAML or JSON with customHtmlData /\n" ++
  "                        globalHtml* keys)\n" ++
  "  --report-dir REPORT_DIR\n" ++
  "                        Report output directory (collection_summary.csv and\n" ++
  "                        override reports)\n" ++
  "  --no-builtin          Do not include the built-in HTML5 baseline\n" ++
  "  --verbose             Enable debug logging\n"

def Fault.report (f : Fault) : String :=
  usage ++ "html-data-collection: error: " ++ f.message ++ "\n"

/-- What stands after the name of an option in the same word: a text after an equals sign, or
letters right after a short name. -/
inductive Attachment
  | nothing
  | value (s : String)
  | letters (cs : List Char)
  deriving DecidableEq, Repr

inductive Word
  | argument
  | unknownOption
  | option (action : Action) (attached : Attachment)
  deriving DecidableEq, Repr

def splitAtEquals (cs : List Char) : String × Attachment :=
  match cs.span (· != '=') with
  | (name, _ :: value) => (String.ofList name, .value (String.ofList value))
  | (name, []) => (String.ofList name, .nothing)

def isEnd (cs : List Char) : Bool := cs == [] || cs == ['\n']

/-- Digits, with a point before the last of them or without; a line end may follow. -/
def isNegativeNumber : List Char → Bool
  | '-' :: cs =>
    match cs.span Text.isDecimalDigit with
    | (_, '.' :: fraction) =>
      match fraction.span Text.isDecimalDigit with
      | (ds, rest) => ds != [] && isEnd rest
    | (ds, rest) => ds != [] && isEnd rest
  | _ => false

def action? (name : String) : Option Action :=
  (optionNames.find? (·.1 == name)).map (·.2)

def candidates (word : String) : List (String × Word) :=
  match word.toList with
  | '-' :: '-' :: _ =>
    let (name, attached) := splitAtEquals word.toList
    (optionNames.filter fun p => p.1.startsWith name).map fun p => (p.1, .option p.2 attached)
  | '-' :: c :: rest =>
    (optionNames.filter fun p => p.1.toList == ['-', c]).map fun p =>
      (p.1, .option p.2 (.letters rest))
  | _ => []

def classifyDashed (word : String) : Except Fault Word :=
  let (name, attached) := splitAtEquals word.toList
  match action? word, action? name with
  | some a, _ => .ok (.option a .nothing)
  | none, some a => .ok (.option a attached)
  | none, none =>
    match candidates word with
    | [(_, w)] => .ok w
    | [] =>
      if isNegativeNumber word.toList ∨ ' ' ∈ word.toList then .ok .argument
      else .ok .unknownOption
    | several => .error (.ambiguous word (several.map (·.1)))

def classify (word : String) : Except Fault Word :=
  match word.toList with
  | '-' :: _ :: _ => classifyDashed word
  | _ => .ok .argument

def optionsEnd : String := "--"

/-- The words with what they are taken for; after the end of the options all are arguments, and
the end itself is accepted nowhere. -/
def classifyAll : List String → Except Fault (List (String × Word))
  | [] => .ok []
  | word :: rest =>
    if word = optionsEnd then
      .ok ((word, .unknownOption) :: rest.map fun w => (w, .argument))
    else
      match classify word with
      | .error f => .error f
      | .ok w => (classifyAll rest).map ((word, w) :: ·)

inductive Outcome
  | help
  | run (options : Options)
  deriving DecidableEq, Repr

def Options.setPath (o : Options) (a : Action) (p : Path) : Options :=
  match a with
  | .config => { o with config := some p }
  | .reportDir => { o with reportDir := some p }
  | _ => o

def Options.set (o : Options) : Action → Options
  | .noBuiltin => { o with includeBuiltin := false }
  | .verbose => { o with verbose := true }
  | _ => o

/-- What is wrong with the letters after a short name. They are short names themselves, so one
that is none is not complained of before the names ahead of it are answered. -/
def lettersFault (a : Action) : List Char → Option Fault
  | '-' :: cs => some (.ignoredArgument a (String.ofList ('-' :: cs)))
  | 'h' :: '=' :: cs => some (.ignoredArgument a (String.ofList cs))
  | 'h' :: cs => lettersFault a cs
  | _ => none

def attachedFault (a : Action) : Attachment → Option Fault
  | .nothing => none
  | .value s => some (.ignoredArgument a s)
  | .letters cs => lettersFault a cs

/-- Takes the words in order; `extra` are those not accepted so far, the last first. -/
def interpret (o : Options) (extra : List String) :
    List (String × Word) → Except Fault Outcome
  | [] => if extra = [] then .ok (.run o) else .error (.unrecognized extra.reverse)
  | (_, .option a attached) :: rest =>
    if takesArgument a then
      match attached, rest with
      | .value s, rest => interpret (o.setPath a (.ofText s)) extra rest
      | _, (s, .argument) :: rest => interpret (o.setPath a (.ofText s)) extra rest
      | _, _ => .error (.expectedArgument a)
    else
      match attachedFault a attached with
      | some f => .error f
      | none => if a = .help then .ok .help else interpret (o.set a) extra rest
  | (word, _) :: rest => interpret o (word :: extra) rest

def parse (words : List String) : Except Fault Outcome :=
  match classifyAll words with
  | .error f => .error f
  | .ok ws => interpret {} [] ws

end CommandLine
end HtmlCatalog
