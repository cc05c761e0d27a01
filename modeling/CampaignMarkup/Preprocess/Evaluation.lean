import CampaignMarkup.Document.Reader
import CampaignMarkup.Path.Resolver
import CampaignMarkup.Preprocess.Failure
import CampaignMarkup.Preprocess.Options
import CampaignMarkup.Preprocess.Output
import CampaignMarkup.Preprocess.Session

/-! # Evaluation

The nodes of a text are evaluated in order against a session. A macro call becomes the text of
its definition, and a call that names a place becomes the texts of the files there; either text is
evaluated one level deeper, and the number of levels left is what the evaluation of a text recurses
on. A failure ends the run, and everything done before it stays done.
-/
namespace CampaignMarkup

/-- What a run takes for granted. -/
structure Environment where
  tree : FileTree
  resolver : Resolver := {}
  options : Options := {}
deriving DecidableEq, Repr, Inhabited

/-- Where the text being evaluated comes from. Inside an expansion every line is reported as the
line of the outermost call, the anchor. -/
structure Origin where
  file : Option Path := none
  anchor : Option Nat := none
deriving DecidableEq, Repr, Inhabited

namespace Origin

def site (o : Origin) (line : Nat) : Site :=
  ⟨o.file, o.anchor.getD line⟩

/-- What relative paths start from. -/
def current (o : Origin) : Path :=
  o.file.getD ⟨"."⟩

end Origin

/-- A run on its way. -/
structure Evaluation where
  session : Session := {}
  output : Output := {}
  warnings : List Warning := []
deriving Inhabited

/-- A run on its way, and why it ended if it did. -/
abbrev Outcome := Evaluation × Option Failure

namespace Evaluation

def fail (e : Evaluation) (f : Failure) : Outcome :=
  (e, some f)

def proceed (e : Evaluation) : Outcome :=
  (e, none)

def warn (e : Evaluation) (site : Site) (text : String) : Evaluation :=
  { e with warnings := e.warnings ++ [⟨site, text⟩] }

def write (e : Evaluation) (s : String) : Evaluation :=
  { e with output := e.output.write s }

/-- Registers the binary paths found in the output. -/
def collectBinaryPaths (e : Evaluation) : Evaluation :=
  { e with
    session := e.output.found.foldl Session.addBinaryPath e.session
    output := { e.output with found := [] } }

def setConditionals (e : Evaluation) (c : Conditionals) : Evaluation :=
  { e with session := { e.session with conditionals := c } }

/-- Adds a definition to the table. -/
def define (e : Evaluation) (origin : Origin) (block : DefineBlock) : Outcome :=
  let site := origin.site block.line
  match block.header.args with
  | [] => e.fail (.invalidDirective .define .macroName site)
  | name :: params =>
    let keywords := params.filterMap (Text.splitOnce '=')
    let definition : Definition := {
      name
      body := block.body
      params := params.filter fun p => (Text.splitOnce '=' p).isNone
      defaults := Assoc.insertAll block.argDefaults (Assoc.insertAll keywords [])
      doc := block.doc
      textdomain := e.session.textdomain
      site }
    proceed { e with session := { e.session with macros := e.session.macros.define definition } }

/-- The first argument of a directive. -/
def argument (d : Directive) (expected : Expectation) (site : Site) : Except Failure String :=
  match d.args with
  | arg :: _ => .ok arg
  | [] => .error (.invalidDirective d.kind expected site)

/-- `OP VERSION` compares the reference version, `MACRO OP VERSION` the body of a macro. The
answer for a macro that is not defined is no. -/
def testVersion (env : Environment) (e : Evaluation) (d : Directive) (site : Site) :
    Except Failure Bool :=
  let compare (lhs : Except VersionError Version) (op rhs : String) : Except Failure Bool :=
    let answer : Except VersionError Bool := do
      let lhs ← lhs
      let op ← Comparison.read op
      let rhs ← Version.read rhs
      return op.holds lhs rhs
    answer.mapError (.invalidVersion · site)
  match d.args with
  | [op, rhs] => compare (.ok env.options.referenceVersion) op rhs
  | [name, op, rhs] =>
    match e.session.macros.lookup name with
    | some definition => compare (Version.read definition.body) op rhs
    | none => .ok false
  | _ => .error (.invalidDirective d.kind .operatorAndVersion site)

/-- The answer to what a conditional asks. -/
def test (env : Environment) (e : Evaluation) (origin : Origin) (question : Question)
    (d : Directive) (site : Site) : Except Failure Bool :=
  match question with
  | .defined => do
    let name ← argument d .macroName site
    return e.session.macros.contains name
  | .present => do
    let path ← argument d .path site
    return env.tree.has
      (env.resolver.resolve env.tree e.session.binaryPaths origin.current path)
  | .version => e.testVersion env d site

/-- Opens a conditional. Inside a skipped region nothing is asked. -/
def openConditional (env : Environment) (e : Evaluation) (origin : Origin)
    (kind : ConditionalKind) (d : Directive) (site : Site) : Outcome :=
  let opened (active : Bool) : Outcome :=
    proceed (e.setConditionals (e.session.conditionals.push ⟨kind, active, false, site⟩))
  if e.session.conditionals.isActive then
    match e.test env origin kind.question d site with
    | .ok answer => opened (answer != kind.negated)
    | .error f => e.fail f
  else opened false

/-- A directive other than the opening of a conditional, in a region that counts. -/
def obey (e : Evaluation) (d : Directive) (site : Site) : Outcome :=
  match d.kind with
  | .undef =>
    match argument d .macroName site with
    | .ok name =>
      proceed { e with session := { e.session with macros := e.session.macros.undef name } }
    | .error f => e.fail f
  | .textdomain =>
    match argument d .domainName site with
    | .ok domain => proceed { e with session := { e.session with textdomain := some domain } }
    | .error f => e.fail f
  | .error => e.fail (.userError d.rest site)
  | .warning | .deprecated => proceed (e.warn site (d.kind.display ++ " " ++ d.rest))
  | .define | .enddef | .arg | .endarg => e.fail (.strayDirective d.kind site)
  | .elseBranch | .endif | .ifdef | .ifndef | .ifhave | .ifnhave | .ifver | .ifnver => e.proceed

/-- A directive. Conditionals open below `floor` belong to another text and are out of reach. -/
def directive (env : Environment) (e : Evaluation) (origin : Origin) (floor : Nat)
    (d : Directive) (site : Site) : Outcome :=
  match ConditionalKind.ofDirective? d.kind with
  | some kind => e.openConditional env origin kind d site
  | none =>
    match d.kind with
    | .elseBranch =>
      if e.session.conditionals.depth ≤ floor then e.fail (.strayDirective d.kind site)
      else
        match e.session.conditionals.flip? with
        | some flipped => proceed (e.setConditionals flipped)
        | none => e.fail (.strayDirective d.kind site)
    | .endif =>
      if e.session.conditionals.depth ≤ floor then e.fail (.strayDirective d.kind site)
      else proceed (e.setConditionals e.session.conditionals.pop)
    | _ => if e.session.conditionals.isActive then e.obey d site else e.proceed

end Evaluation

/-- Evaluates a text of some origin. -/
abbrev Runner := Origin → String → Evaluation → Outcome

namespace Evaluation

/-- Takes steps in order until one fails. -/
def each {α : Type} (step : α → Evaluation → Outcome) : List α → Evaluation → Outcome
  | [], e => e.proceed
  | x :: xs, e =>
    match step x e with
    | (e, none) => each step xs e
    | failed => failed

/-- Evaluates a file, unless it is being read already. -/
def includeFile (env : Environment) (run : Runner) (source : Site) (path : Path)
    (e : Evaluation) : Outcome :=
  let identity := path.identity env.tree.workdir
  if e.session.isReading identity then e.fail (.includeCycle path source)
  else
    match env.tree.read path with
    | .error error => e.fail (.unreadable path (.file error))
    | .ok text =>
      let entered :=
        { e with session := { e.session with includes := identity :: e.session.includes } }
      let (e, failure) := run { file := some path } text entered
      ({ e with session := { e.session with includes := e.session.includes.tail } }, failure)

/-- Evaluates a file, or the files of a directory that have a wanted extension. A directory is
walked before any of its files is read. -/
def includePath (env : Environment) (run : Runner) (source : Site) (path : Path)
    (e : Evaluation) : Outcome :=
  if env.tree.isDirectory path then
    match env.tree.filesBelow path with
    | .error error => e.fail (.unreadable path (.walk error))
    | .ok files =>
      each (includeFile env run source)
        (files.filter (hasExtension env.options.includeExtensions)) e
  else includeFile env run source path e

/-- What becomes of a call that names nothing. -/
def leaveUndefined (env : Environment) (e : Evaluation) (call : MacroCall) (raw : String)
    (site : Site) : Outcome :=
  match env.options.undefinedMacro with
  | .error => e.fail (.undefinedMacro call.name site)
  | .passthrough =>
    proceed ((e.warn site ("undefined macro left in place (" ++ call.name ++ ")")).write
      ("\x7b" ++ raw ++ "\x7d"))

/-- Expands a call. `deeper` evaluates texts on the next level, if there is one left. -/
def expand (env : Environment) (deeper : Option Runner) (origin : Origin) (call : MacroCall)
    (raw : String) (site : Site) (e : Evaluation) : Outcome :=
  if call.name = "" then proceed (e.write ("\x7b" ++ raw ++ "\x7d"))
  else
    match deeper with
    | none => e.fail (.depthExceeded call.name env.options.maxDepth site)
    | some run =>
      match e.session.macros.lookup call.name with
      | some definition =>
        let bound := call.bind definition
        if bound.positional.length ≠ definition.arity then
          e.fail (.argumentCount call.name definition.arity bound.positional.length site)
        else
          run { origin with anchor := some site.line }
            (definition.substitute bound.positional bound.keywords) e
      | none =>
        let target :=
          env.resolver.resolve env.tree e.session.binaryPaths origin.current call.name
        if call.args.isEmpty && env.tree.has target then e.includePath env run site target
        else e.leaveUndefined env call raw site

/-- Evaluates a node. In a skipped region only conditionals are followed. -/
def node (env : Environment) (deeper : Option Runner) (origin : Origin) (floor : Nat)
    (n : Node) (e : Evaluation) : Outcome :=
  let active := e.session.conditionals.isActive
  match n with
  | .token t => if active then proceed { e with output := e.output.writeToken t } else e.proceed
  | .call call raw line =>
    if active then e.expand env deeper origin call raw (origin.site line) else e.proceed
  | .define block => if active then e.define origin block else e.proceed
  | .directive d line => e.directive env origin floor d (origin.site line)

/-- A node, after which the binary paths in the output count. -/
def nodeAndPaths (env : Environment) (deeper : Option Runner) (origin : Origin) (floor : Nat)
    (n : Node) (e : Evaluation) : Outcome :=
  match e.node env deeper origin floor n with
  | (e, none) => proceed e.collectBinaryPaths
  | failed => failed

/-- The failure that a fault in a text's structure is. -/
def structureFailure (origin : Origin) : StructureError → Failure
  | .unterminatedDefine name line => .unterminatedDefine name (origin.site line)
  | .missingArgName line => .invalidDirective .arg .parameterName (origin.site line)

/-- Evaluates the nodes of one text. Conditionals opened in the text have to be closed in it. -/
def nodes (env : Environment) (deeper : Option Runner) (origin : Origin) (ns : List Node)
    (e : Evaluation) : Outcome :=
  let floor := e.session.conditionals.depth
  let (e, failure) := each (nodeAndPaths env deeper origin floor) ns e
  let unclosed := e.session.conditionals.openAbove? floor
  let e := e.setConditionals (e.session.conditionals.truncate floor)
  match failure, unclosed with
  | some f, _ => e.fail f
  | none, some frame => e.fail (.unterminatedConditional frame.kind frame.site)
  | none, none => e.proceed

/-- Evaluates a text on a level below which `deeper` lies. -/
def text (env : Environment) (deeper : Option Runner) : Runner := fun origin source e =>
  match Node.ofSource source with
  | .error error => e.fail (structureFailure origin error)
  | .ok ns => e.nodes env deeper origin ns

/-- Evaluates a text with so many levels left below it. -/
def run (env : Environment) : Nat → Runner
  | 0 => text env none
  | levels + 1 => text env (some (run env levels))

end Evaluation

end CampaignMarkup
