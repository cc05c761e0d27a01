import CampaignMarkup.Editor.Query
import CampaignMarkup.Editor.Utf16
import CampaignMarkup.Editor.Workspace

/-! # The editor's server

A server keeps the texts of open documents, the macros of the last parse that succeeded, and the
document that holds the diagnostic of the last parse if that failed. Every request is answered
with a new server and with what is sent to the client.
-/
namespace CampaignMarkup

inductive MessageLevel where
  | error
  | info
deriving DecidableEq, Repr, Inhabited

/-- The number that stands for the level in an editor's protocol. -/
def MessageLevel.code : MessageLevel → Nat
  | .error => 1
  | .info => 3

/-- What a server sends on its own account. -/
inductive ServerEvent where
  | message (level : MessageLevel) (text : String)
  /-- All diagnostics that a document now has. -/
  | diagnostics (uri : Uri) (diagnostics : List Diagnostic)
deriving DecidableEq, Repr, Inhabited

/-- A stretch of a document, as an editor counts it. -/
structure TextRange where
  start : Position
  stop : Position
deriving DecidableEq, Repr, Inhabited

/-- A stretch of one line. What is sent to an editor are numbers of 32 bits. -/
def TextRange.inLine (line start stop : Nat) : TextRange :=
  ⟨⟨line % UInt32.size, start % UInt32.size⟩, ⟨line % UInt32.size, stop % UInt32.size⟩⟩

/-- A diagnostic covers its line. -/
def Diagnostic.range (d : Diagnostic) : TextRange :=
  ⟨⟨d.line % UInt32.size, 0⟩, ⟨(d.line + 1) % UInt32.size, 0⟩⟩

/-- The first character of a definition's line. -/
def Target.range (t : Target) : TextRange :=
  .inLine t.line 0 1

/-- The stretch of a word of `source`. -/
def Word.range (source : String) (w : Word) : TextRange :=
  .inLine w.line (Utf16.ofPosition source ⟨w.line, w.start⟩).column
    (Utf16.ofPosition source ⟨w.line, w.stop⟩).column

/-- How documents are kept in step with the editor's. -/
inductive DocumentSync where
  | none
  | full
  | incremental
deriving DecidableEq, Repr, Inhabited

def DocumentSync.code : DocumentSync → Nat
  | .none => 0
  | .full => 1
  | .incremental => 2

/-- What a server tells about itself. -/
structure Capabilities where
  name : String := "wml-lsp"
  version : String := "0.1.0"
  sync : DocumentSync := .full
  openClose : Bool := true
  save : Bool := true
  hover : Bool := true
  definition : Bool := true
  resolveCompletion : Bool := false
  triggerCharacters : List String := Trigger.characters
deriving DecidableEq, Repr, Inhabited

structure Server where
  workspace : Workspace := {}
  documents : List (Uri × String) := []
  /-- The table of the last parse that succeeded. -/
  macros : Option MacroTable := none
  /-- The document that shows the failure of the last parse. -/
  failed : Option Uri := none
deriving Inhabited

/-- The server after a request, with what it sent and what the run warned of. -/
structure ServerReply where
  server : Server
  events : List ServerEvent := []
  warnings : List Warning := []
deriving Inhabited

namespace Server

/-- A client connects. -/
def connect (s : Server) (options : Option JsonValue) : Server :=
  { s with workspace := s.workspace.apply (ClientOptions.ofJson options) }

def parsedMessage (count : Nat) : String :=
  "Parsed, total " ++ toString count ++ " macros defined."

def failedMessage (f : Failure) : String :=
  "Parsing error: " ++ f.message

def readyMessage : String :=
  "WML LSP Server ready!"

/-- Takes in the result of a parse. After a failure the previous table stays, and the diagnostic
of an earlier failure is taken back unless the new one replaces it. -/
def conclude (s : Server) (workdir : Location) :
    Except Failure MacroTable → Server × List ServerEvent
  | .ok macros =>
    ({ s with macros := some macros, failed := none },
      s.failed.toList.map (.diagnostics · []) ++ [.message .info (parsedMessage macros.size)])
  | .error failure =>
    let uri := failure.uri? workdir
    ({ s with failed := uri },
      [.message .error (failedMessage failure)]
        ++ (s.failed.toList.filter (some · ≠ uri)).map (.diagnostics · [])
        ++ uri.toList.map (.diagnostics · [failure.diagnostic]))

/-- Parses the workspace again, if there is anything to parse. -/
def reparse (s : Server) (tree : FileTree) : ServerReply :=
  if s.workspace.isConfigured then
    let report := s.workspace.parse tree
    let (server, events) :=
      s.conclude tree.workdir (report.result.map fun _ => report.session.macros)
    ⟨server, events, report.warnings⟩
  else ⟨s, [], []⟩

/-- The client is ready for messages. -/
def ready (s : Server) (tree : FileTree) : ServerReply :=
  let reply := s.reparse tree
  { reply with events := .message .info readyMessage :: reply.events }

def openDocument (s : Server) (uri : Uri) (text : String) : Server :=
  { s with documents := Assoc.insert uri text s.documents }

/-- Every change carries the whole text, so the last one counts. -/
def changeDocument (s : Server) (uri : Uri) (texts : List String) : Server :=
  match texts.getLast? with
  | some text => s.openDocument uri text
  | none => s

def closeDocument (s : Server) (uri : Uri) : Server :=
  { s with documents := s.documents.filter (·.1 ≠ uri) }

/-- The text of an open document, or else of the file. -/
def documentText? (s : Server) (tree : FileTree) (uri : Uri) : Option String :=
  match Assoc.get? uri s.documents with
  | some text => some text
  | none => uri.path?.bind fun path => (tree.read path).toOption

/-- Help for the macro under the cursor, with the stretch of the document it is for. -/
def hover? (s : Server) (tree : FileTree) (uri : Uri) (p : Position) :
    Option (Hover × TextRange) := do
  let macros ← s.macros
  let text ← s.documentText? tree uri
  let hover ← macros.hover? text (Utf16.toPosition text p)
  return (hover, hover.word.range text)

def definition? (s : Server) (tree : FileTree) (uri : Uri) (p : Position) : Option Target := do
  let macros ← s.macros
  let text ← s.documentText? tree uri
  macros.target? tree.workdir text (Utf16.toPosition text p)

/-- What asked for a completion: a character that was typed, or the user. -/
inductive CompletionContext where
  | invoked
  | typed (character : Option String)
deriving DecidableEq, Repr, Inhabited

def CompletionContext.trigger? : CompletionContext → Option Trigger
  | .invoked => some .invoked
  | .typed character => Trigger.ofCharacter? character

/-- Candidates, if the context asks for any. Directives are known before the first parse. -/
def complete? (s : Server) (context : CompletionContext) : Option (List Candidate) :=
  context.trigger?.map (s.macros.getD {}).candidates

end Server

end CampaignMarkup
