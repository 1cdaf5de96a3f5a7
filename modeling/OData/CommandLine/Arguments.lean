import OData.Text.Pieces

/-!
# Command-line arguments

Arguments are taken one after the other: an option with its value, the name of a command, or what
the command works on.  The options before the name of the command say which files to use, those
after it belong to the command.  Everything after a lone `--` is no option, and neither is anything
after the name of the command that explains the others.
-/

set_option autoImplicit false

namespace OData.CommandLine

inductive Command where
  | request
  | sql
  | check
  | help
  deriving DecidableEq, Repr

def Command.ofName? : String → Option Command
  | "request" => some request
  | "sql" => some sql
  | "check" => some check
  | "help" => some help
  | _ => none

/-- What the value of an option is. -/
inductive OptionKind where
  | file
  | word (allowed : List String)
  | text
  /-- No value, and the option may be repeated. -/
  | tally
  /-- No value, and nothing else is done. -/
  | help
  deriving DecidableEq, Repr

structure OptionSpec where
  name : String
  letter : Option Char
  kind : OptionKind
  deriving DecidableEq, Repr

def helpOption : OptionSpec := ⟨"help", some 'h', .help⟩

def generalOptions : List OptionSpec :=
  [⟨"config", some 'c', .file⟩, ⟨"model", some 'm', .file⟩, ⟨"data", some 'd', .file⟩,
    ⟨"error-format", none, .word ["problem", "odata"]⟩, ⟨"verbose", some 'v', .tally⟩,
    helpOption]

def Command.options : Command → List OptionSpec
  | request => [⟨"method", some 'X', .text⟩, ⟨"body", none, .text⟩, helpOption]
  | sql | check => [helpOption]
  | help => []

/-- How many operands a command has room for. -/
def Command.room : Command → Nat
  | request | sql | help => 1
  | check => 0

def OptionKind.admits : OptionKind → String → Bool
  | .file, value => !value.isEmpty
  | .word allowed, value => allowed.contains value
  | _, _ => true

/-- Why the arguments give nothing to run. -/
inductive Stop where
  | help (topic : Option Command) (long : Bool)
  | misuse (reason : String)
  deriving DecidableEq, Repr

def misuse {α : Type} (reason : String) : Except Stop α := .error (.misuse reason)

/-- The arguments read so far. -/
structure Scan where
  command : Option Command
  /-- The values of the options. -/
  values : List (String × String)
  operands : List String
  /-- The option whose value is the next argument. -/
  pending : Option OptionSpec
  /-- The latest general option whose value was an argument of its own.  The value is looked at
  when the next general option comes or when all is read, so that a command can explain itself
  after a bad value. -/
  held : Option (OptionSpec × String)
  /-- Whether no more options follow. -/
  ended : Bool

namespace Scan

def start : Scan := ⟨none, [], [], none, none, false⟩

def options (s : Scan) : List OptionSpec :=
  match s.command with
  | none => generalOptions
  | some command => command.options

def value? (s : Scan) (name : String) : Option String :=
  (s.values.find? (·.1 == name)).map (·.2)

/-- Takes the value of an option. -/
def accept (s : Scan) (o : OptionSpec) (value : String) : Except Stop Scan :=
  if (s.value? o.name).isSome then
    misuse ("the argument '--" ++ o.name ++ "' cannot be used multiple times")
  else if o.kind.admits value then
    .ok { s with values := s.values ++ [(o.name, value)], pending := none }
  else misuse ("invalid value '" ++ value ++ "' for '--" ++ o.name ++ "'")

/-- Takes the value that is held. -/
def settle (s : Scan) : Except Stop Scan :=
  match s.held with
  | none => .ok s
  | some (o, value) => ({ s with held := none } : Scan).accept o value

/-- Takes the value of an option that waits for it; that of a general option is held. -/
def hold (s : Scan) (o : OptionSpec) (value : String) : Except Stop Scan :=
  match s.command with
  | none => .ok { s with pending := none, held := some (o, value) }
  | some _ => s.accept o value

/-- What comes before an option is taken: the options of a command leave the held value alone. -/
def beforeOption (s : Scan) : Except Stop Scan :=
  match s.command with
  | none => s.settle
  | some _ => .ok s

/-- Takes options that are written as letters, the last one with its value if it has one. -/
def letters (s : Scan) : List Char → Except Stop Scan
  | [] => .ok s
  | c :: rest =>
    match s.options.find? (·.letter == some c) with
    | none => misuse ("unexpected argument '-" ++ String.singleton c ++ "' found")
    | some o =>
      match o.kind, rest with
      | .help, _ => .error (.help s.command false)
      | .tally, _ => s.letters rest
      | _, [] => .ok { s with pending := some o }
      | _, '=' :: value => s.accept o (String.ofList value)
      | _, value => s.accept o (String.ofList value)

/-- Takes an option that is written as a word, with the value after an equals sign. -/
def word (s : Scan) (text : List Char) : Except Stop Scan :=
  let (name, value) := match Text.splitFirst? '=' text with
    | some (name, value) => (String.ofList name, some (String.ofList value))
    | none => (String.ofList text, none)
  match s.options.find? (·.name == name) with
  | none => misuse ("unexpected argument '--" ++ name ++ "' found")
  | some o =>
    match o.kind, value with
    | .help, none => .error (.help s.command true)
    | .tally, none => .ok s
    | .help, some value | .tally, some value =>
      misuse ("unexpected value '" ++ value ++ "' for '--" ++ name ++ "' found")
    | _, none => .ok { s with pending := some o }
    | _, some value => s.accept o value

/-- Takes the name of the command, or what it works on. -/
def operand (s : Scan) (text : String) : Except Stop Scan :=
  match s.command with
  | some command =>
    if s.operands.length < command.room then .ok { s with operands := s.operands ++ [text] }
    else misuse ("unexpected argument '" ++ text ++ "' found")
  | none =>
    match Command.ofName? text with
    | some command =>
      if s.ended then misuse ("unexpected argument '" ++ text ++ "' found")
      else .ok { s with command := some command }
    | none => misuse ("unrecognized subcommand '" ++ text ++ "'")

/-- A lone hyphen is no option. -/
def isOption (argument : String) : Bool :=
  match argument.toList with
  | '-' :: _ :: _ => true
  | _ => false

def step (s : Scan) (argument : String) : Except Stop Scan :=
  match s.pending with
  | some o =>
    if isOption argument then misuse ("a value is required for '--" ++ o.name ++ "'")
    else s.hold o argument
  | none =>
    if s.ended || s.command == some .help then s.operand argument
    else match argument.toList with
      | ['-', '-'] => .ok { s with ended := true }
      | '-' :: '-' :: rest => do (← s.beforeOption).word rest
      | '-' :: c :: rest => do (← s.beforeOption).letters (c :: rest)
      | _ => s.operand argument

end Scan

/-- What a command does with its files. -/
inductive Job where
  | request (method : String) (uri : String) (body : Option String)
  | sql (uri : String)
  | check
  deriving DecidableEq, Repr

/-- A run of the program. -/
structure Invocation where
  config : Option String
  model : String
  data : Option String
  /-- Whether problems are shown as the error body of the protocol. -/
  errorBody : Bool
  job : Job
  deriving DecidableEq, Repr

namespace Scan

def missing {α : Type} (what : String) : Except Stop α :=
  misuse ("the following required arguments were not provided: " ++ what)

def uri (s : Scan) : Except Stop String :=
  match s.operands with
  | uri :: _ => .ok uri
  | [] => missing "<URI>"

def topic (s : Scan) : Except Stop (Option Command) :=
  match s.operands with
  | [] => .ok none
  | name :: _ =>
    match Command.ofName? name with
    | some command => .ok (some command)
    | none => misuse ("unrecognized subcommand '" ++ name ++ "'")

def job (s : Scan) : Command → Except Stop Job
  | .request => do pure (.request ((s.value? "method").getD "GET") (← s.uri) (s.value? "body"))
  | .sql => do pure (.sql (← s.uri))
  | .check => .ok .check
  | .help => do throw (.help (← s.topic) true)

/-- What all arguments together say. -/
def finish (s : Scan) : Except Stop Invocation :=
  match s.pending, s.command with
  | some o, _ => misuse ("a value is required for '--" ++ o.name ++ "'")
  | none, none => misuse "a subcommand is required"
  | none, some command => do
    let job ← s.job command
    let s ← s.settle
    match s.value? "model" with
    | none => missing "--model <MODEL>"
    | some model =>
      pure ⟨s.value? "config", model, s.value? "data",
        s.value? "error-format" == some "odata", job⟩

end Scan

def Invocation.ofArguments (arguments : List String) : Except Stop Invocation := do
  (← arguments.foldlM Scan.step Scan.start).finish

end OData.CommandLine
