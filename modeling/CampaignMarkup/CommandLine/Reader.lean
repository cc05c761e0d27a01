import CampaignMarkup.Assoc
import CampaignMarkup.CommandLine.Grammar
import CampaignMarkup.Text.Split

/-! # Reading the command line

`--name value`, `--name=value`, `-n value`, `-nvalue` and `-n=value` give an option a value,
options without one may be put together as in `-vq`, and everything behind `--` is a path. An
option waits for its value, and is looked at closely only when the next argument has been seen
not to belong to it.
-/
namespace CampaignMarkup

inductive UsageError where
  | unknownArgument (argument : String)
  | missingValue (option : String)
  | unexpectedValue (option : String)
  | invalidValue (name value : String)
  | repeated (option : String)
  | conflict (option other : String)
  | missingPaths (name : String)
  | missingCommand
  | unknownCommand (name : String)
deriving DecidableEq, Repr, Inhabited

/-- Why there is nothing to run. -/
inductive Stop where
  /-- Help was asked for, for a command or for the program. -/
  | help (command : Option CommandRule)
  | version
  | usage (error : UsageError)
deriving DecidableEq, Repr, Inhabited

/-- What the arguments of one command have said so far. -/
structure Given where
  /-- Values of the options that were given, by name. -/
  options : List (String × List String) := []
  paths : List String := []
  /-- An option that waits for its value, or has just got one. -/
  pending : Option (OptionRule × List String) := none
  /-- Whether `--` was seen. -/
  pathsOnly : Bool := false
deriving DecidableEq, Repr, Inhabited

namespace Given

/-- Whether the next argument is the value of an option. -/
def isWaiting (g : Given) : Bool :=
  match g.pending with
  | some (_, []) => true
  | _ => false

def values (g : Given) (name : String) : List String :=
  (Assoc.get? name g.options).getD []

def has (g : Given) (name : String) : Bool :=
  Assoc.contains name g.options

/-- The values that a text stands for. -/
def readValue (name : String) (kind : ValueKind) (text : String) : Except Stop (List String) :=
  let invalid := Except.error (Stop.usage (.invalidValue name text))
  match kind with
  | .text => .ok [text]
  | .path => if text = "" then invalid else .ok [text]
  | .oneOf choices => if choices.contains text then .ok [text] else invalid
  | .texts => .ok (Text.splitOn ',' text)

/-- Takes an option in with its texts. -/
def record (g : Given) (o : OptionRule) (texts : List String) : Except Stop Given :=
  let again := Except.error (Stop.usage (.repeated o.name))
  match o.kind, texts with
  | .help, _ => .error (.help none)
  | .version, _ => .error .version
  | .flag, _ => if g.has o.name then again else .ok { g with options := g.options ++ [(o.name, [])] }
  | .counter, _ => .ok { g with options := Assoc.insert o.name [] g.options }
  | .value kind repeatable, [text] => do
    let values ← readValue o.name kind text
    if g.has o.name && !repeatable then again
    else .ok { g with options := Assoc.insert o.name (g.values o.name ++ values) g.options }
  | .value _ _, _ => .error (.usage (.missingValue o.name))

/-- Takes the pending option in. -/
def settle (g : Given) : Except Stop Given :=
  match g.pending with
  | none => .ok g
  | some (o, texts) => { g with pending := none }.record o texts

/-- Takes an option in, after the pending one. -/
def add (g : Given) (o : OptionRule) (texts : List String) : Except Stop Given := do
  (← g.settle).record o texts

/-- An option begins to wait for its value. -/
def await (g : Given) (o : OptionRule) : Except Stop Given := do
  return { ← g.settle with pending := some (o, []) }

def addLong (rule : CommandRule) (g : Given) (name : String) (value : Option String) :
    Except Stop Given :=
  match rule.options.find? (·.name = name), value with
  | none, _ => .error (.usage (.unknownArgument ("--" ++ name)))
  | some o, some text =>
    if o.takesValue then g.add o [text] else .error (.usage (.unexpectedValue name))
  | some o, none => if o.takesValue then g.await o else g.add o []

/-- Options of one letter each, of which the last may have its value attached. -/
def addShort (rule : CommandRule) : List Char → Given → Except Stop Given
  | [], g => .ok g
  | c :: cs, g =>
    match rule.options.find? (·.short = some c) with
    | none => .error (.usage (.unknownArgument (String.ofList ['-', c])))
    | some o =>
      if o.takesValue then
        match cs with
        | [] => g.await o
        | '=' :: attached => g.add o [String.ofList attached]
        | attached => g.add o [String.ofList attached]
      else do addShort rule cs (← g.add o [])

def addPath (rule : CommandRule) (g : Given) (text : String) : Except Stop Given := do
  let g ← g.settle
  match rule.paths with
  | none => .error (.usage (.unknownArgument text))
  | some paths =>
    if !paths.many && !g.paths.isEmpty then .error (.usage (.unknownArgument text))
    else if text = "" then .error (.usage (.invalidValue paths.name text))
    else .ok { g with paths := g.paths ++ [text] }

/-- One argument that is no command's name. -/
def addArgument (rule : CommandRule) (g : Given) (argument : String) : Except Stop Given :=
  if g.pathsOnly then g.addPath rule argument
  else
    match argument.toList with
    | ['-', '-'] => .ok { g with pathsOnly := true }
    | '-' :: '-' :: long =>
      match Chars.splitOnce '=' long with
      | some (name, value) => g.addLong rule (String.ofList name) (some (String.ofList value))
      | none => g.addLong rule (String.ofList long) none
    | '-' :: c :: cs => addShort rule (c :: cs) g
    | _ =>
      match g.pending with
      | some (o, []) => .ok { g with pending := some (o, [argument]) }
      | _ => g.addPath rule argument

/-- Reads arguments up to the name of a command; what follows it is left. -/
def read (rule : CommandRule) (names : List String) :
    List String → Given → Except Stop (Given × List String)
  | [], g => .ok (g, [])
  | argument :: rest, g =>
    if !g.pathsOnly && !g.isWaiting && names.contains argument then .ok (g, argument :: rest)
    else do read rule names rest (← g.addArgument rule argument)

/-- What holds of all arguments of a command together. -/
def check (rule : CommandRule) (g : Given) : Except Stop Given :=
  if g.has "quiet" && g.has "verbose" then .error (.usage (.conflict "quiet" "verbose"))
  else
    match rule.paths with
    | some paths => if g.paths.isEmpty then .error (.usage (.missingPaths paths.name)) else .ok g
    | none => .ok g

/-- Help that is asked for in a command is help for the command. -/
def within (rule : CommandRule) (result : Except Stop Given) : Except Stop Given :=
  match result with
  | .error (.help none) => .error (.help (some rule))
  | result => result

def readCommand (rule : CommandRule) (arguments : List String) : Except Stop Given :=
  within rule do
    let (g, _) ← read rule [] arguments {}
    (← g.settle).check rule

end Given

namespace CommandLine

/-- The command that help is asked for by name. -/
def helpFor : List String → Stop
  | [] => .help none
  | [name] =>
    if name = helpCommand then .help none
    else
      match commands.find? (·.name = name) with
      | some rule => .help (some rule)
      | none => .usage (.unknownCommand name)
  | _ :: name :: _ => .usage (.unknownCommand name)

/-- The command, with what was given before it and behind it. -/
def read (arguments : List String) : Except Stop (CommandRule × Given × Given) := do
  let names := commands.map (·.name) ++ [helpCommand]
  let (before, rest) ← Given.read program names arguments {}
  match rest with
  | [] =>
    let _ ← (← before.settle).check program
    .error (.usage .missingCommand)
  | name :: rest =>
    match commands.find? (·.name = name) with
    | none => .error (helpFor rest)
    | some rule =>
      let behind ← Given.readCommand rule rest
      let before ← (← before.settle).check program
      return (rule, before, behind)

end CommandLine

end CampaignMarkup
