import CampaignMarkup.Preprocess.Evaluation
import CampaignMarkup.Record.Extraction

/-! # Runs

A run evaluates a text or what lies at a path, from the top level down. Its macros, binary paths
and text domain stay in the session also when it fails; its records are added only when it
succeeds.
-/
namespace CampaignMarkup

structure Report where
  session : Session
  warnings : List Warning
  result : Except Failure String
deriving Inhabited

namespace Report

/-- What a finished evaluation leaves. -/
def ofOutcome (options : Options) (outcome : Outcome) : Report :=
  let (e, failure) := outcome
  let e := e.collectBinaryPaths
  match failure with
  | some f => ⟨e.session, e.warnings, .error f⟩
  | none =>
    let records := if options.extractRecords then extractRecords e.output.text else []
    ⟨{ e.session with records := e.session.records ++ records }, e.warnings, .ok e.output.text⟩

end Report

/-- Preprocesses a file, or the files below a directory. -/
def subparse (env : Environment) (path : Path) (session : Session) : Report :=
  Report.ofOutcome env.options
    (Evaluation.includePath env (Evaluation.run env env.options.maxDepth) {} path { session })

/-- Preprocesses a text. The file says where the text belongs, for relative paths and messages;
it need not exist. -/
def preprocess (env : Environment) (file : Option Path) (source : String) (session : Session) :
    Report :=
  let run := Evaluation.run env env.options.maxDepth
  match file with
  | none => Report.ofOutcome env.options (run {} source { session })
  | some path =>
    let identity := path.identity env.tree.workdir
    let entered := { session with includes := identity :: session.includes }
    let (e, failure) := run { file := some path } source { session := entered }
    Report.ofOutcome env.options
      ({ e with session := { e.session with includes := e.session.includes.tail } }, failure)

/-- Preprocesses paths in order with one session, up to the first that fails. The texts are put
together. -/
def subparseAll (env : Environment) (paths : List Path) (session : Session) : Report :=
  match paths with
  | [] => ⟨session, [], .ok ""⟩
  | path :: rest =>
    let first := subparse env path session
    match first.result with
    | .error failure => ⟨first.session, first.warnings, .error failure⟩
    | .ok text =>
      let others := subparseAll env rest first.session
      ⟨others.session, first.warnings ++ others.warnings, others.result.map (text ++ ·)⟩

end CampaignMarkup
