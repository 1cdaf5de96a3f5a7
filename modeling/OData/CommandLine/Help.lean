import OData.CommandLine.Arguments

/-!
# Help

The text that explains the arguments.
-/

set_option autoImplicit false

namespace OData.CommandLine

def programName : String := "odata-cli"

/-- An option, its value, and what it is for. -/
structure Entry where
  form : String
  /-- The explanation; no text is a line that is not even indented. -/
  lines : List (Option String)

def Entry.ofLine (form about : String) : Entry := ⟨form, [some about]⟩

def configEntry : Entry := Entry.ofLine "-c, --config <CONFIG>" "Path to engine configuration file"

def modelEntry : Entry := Entry.ofLine "-m, --model <MODEL>" "Path to the model definition (YAML)"

def dataEntry : Entry := Entry.ofLine "-d, --data <DATA>" "Dataset keyed by entity set name (JSON)"

def formatLine : String := "Shape of error bodies printed on failure"

def formatForm : String := "    --error-format <ERROR_FORMAT>"

def shortFormatEntry : Entry :=
  Entry.ofLine formatForm (formatLine ++ " [default: problem] [possible values: problem, odata]")

def longFormatEntry : Entry :=
  ⟨formatForm, [some formatLine, none, some "Possible values:",
    some "- problem: RFC 9457 problem details",
    some "- odata:   OData v4 `\x7b\"error\": \x7b...\x7d\x7d` body", some "",
    some "[default: problem]"]⟩

def verboseEntry : Entry :=
  Entry.ofLine "-v, --verbose..." "Log verbosity level (-v info, -vv debug, -vvv trace)"

def helpEntry (about : String) : Entry := Entry.ofLine "-h, --help" about

def indented (depth : Nat) (line : String) : String :=
  String.ofList (List.replicate depth ' ') ++ line

/-- An entry with its explanation below it. -/
def Entry.stacked (entry : Entry) : List String :=
  indented 2 entry.form :: entry.lines.map fun line => (line.map (indented 10)).getD ""

/-- An entry with its explanation beside it. -/
def Entry.beside (width : Nat) (entry : Entry) : String :=
  indented 2 (entry.form ++ String.ofList (List.replicate (width - entry.form.length) ' ')
    ++ "  " ++ " ".intercalate (entry.lines.map (·.getD "")))

def table (entries : List Entry) : List String :=
  entries.map (Entry.beside (entries.foldl (fun width e => max width e.form.length) 0))

def commandEntries : List Entry :=
  [Entry.ofLine "request" "Execute one request and print the response body",
    Entry.ofLine "sql" "Print the SQL a collection query translates to",
    Entry.ofLine "check" "Validate configuration, model and dataset, then exit",
    Entry.ofLine "help" "Print this message or the help of the given subcommand(s)"]

def spaced : List (List String) → List String
  | [] => []
  | [block] => block
  | block :: rest => block ++ [""] ++ spaced rest

def generalEntries (long : Bool) : List String :=
  if long then
    spaced ([configEntry, modelEntry, dataEntry, longFormatEntry, verboseEntry,
      helpEntry "Print help (see a summary with '-h')"].map Entry.stacked)
  else
    [configEntry, modelEntry, dataEntry, shortFormatEntry, verboseEntry,
      helpEntry "Print help (see more with '--help')"].flatMap Entry.stacked

def generalHelp (long : Bool) : List String :=
  ["Query a YAML-defined OData model backed by in-memory data", "",
    "Usage: " ++ programName ++ " [OPTIONS] --model <MODEL> <COMMAND>", "", "Commands:"]
    ++ table commandEntries ++ ["", "Options:"] ++ generalEntries long

def usageLine (rest : String) : String := "Usage: " ++ programName ++ " --model <MODEL> " ++ rest

def requestHelp : List String :=
  ["Execute one request and print the response body", "", usageLine "request [OPTIONS] <URI>",
    "", "Arguments:", "  <URI>  Request URI, absolute or relative to the service root", "",
    "Options:"]
    ++ table [Entry.ofLine "-X, --method <METHOD>" "HTTP method [default: GET]",
      Entry.ofLine "    --body <BODY>" "JSON request body", helpEntry "Print help"]

def sqlHelp : List String :=
  ["Print the SQL a collection query translates to", "", usageLine "sql <URI>", "", "Arguments:",
    "  <URI>  Collection URI such as `/Pets?$filter=...`", "", "Options:"]
    ++ table [helpEntry "Print help"]

def checkHelp : List String :=
  ["Validate configuration, model and dataset, then exit", "", usageLine "check", "", "Options:"]
    ++ table [helpEntry "Print help"]

def helpHelp : List String :=
  ["Print this message or the help of the given subcommand(s)", "",
    usageLine "help [COMMAND]...", "", "Arguments:",
    "  [COMMAND]...  Print help for the subcommand(s)"]

def helpLines (long : Bool) : Option Command → List String
  | none => generalHelp long
  | some .request => requestHelp
  | some .sql => sqlHelp
  | some .check => checkHelp
  | some .help => helpHelp

def helpText (topic : Option Command) (long : Bool) : String :=
  String.join ((helpLines long topic).map (· ++ "\n"))

end OData.CommandLine
