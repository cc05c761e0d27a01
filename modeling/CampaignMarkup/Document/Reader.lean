import CampaignMarkup.Document.Capture

/-! # Reading nodes

Directives count on lines that hold nothing else. Those lines, and lines with only a comment,
leave no token behind; elsewhere comments are dropped from their line. Comment lines directly
above a `#define` are its documentation.
-/
namespace CampaignMarkup

namespace Token

/-- The tokens up to and with the next line break, and those behind it. -/
def splitLine : List Token → List Token × List Token
  | [] => ([], [])
  | t :: ts => if t.isLineBreak then ([t], ts) else (t :: (splitLine ts).1, (splitLine ts).2)

theorem splitLine_append (ts : List Token) : (splitLine ts).1 ++ (splitLine ts).2 = ts := by
  fun_induction splitLine ts <;> simp_all

theorem splitLine_length_le (t : Token) (ts : List Token) :
    (splitLine (t :: ts)).2.length ≤ ts.length := by
  induction ts generalizing t with
  | nil =>
    unfold splitLine
    split <;> simp [splitLine]
  | cons u us ih =>
    unfold splitLine
    split
    · simp
    · have := ih u
      simp only [List.length_cons]
      omega

end Token

namespace Node

/-- The node of a token outside comment lines. -/
def ofToken? (lines : LineMap) (t : Token) : Option Node :=
  match t.kind with
  | .comment => none
  | .macroCall => some (.call (MacroCall.read t.content) t.content (lines.lineOf t.span.start))
  | _ => some (.token t)

/-- What a comment says about the definition below it. -/
def docText (comment : String) : String :=
  String.ofList (Chars.trim (comment.toList.dropWhile (· = '#')))

/-- Documentation lines as one text. -/
def joinDocs (docs : List String) : Option String :=
  if docs.isEmpty then none else some (String.intercalate "\n" docs)

end Node

namespace Capture

theorem read_length_le {source : List Char} {lines : LineMap} {c c' : Capture}
    {ts rest : List Token} (h : read source lines c ts = .ok (some (c', rest))) :
    rest.length ≤ ts.length := by
  fun_induction read source lines c ts <;> simp_all <;> grind

/-- The block of a `#define` line, from the tokens below it. -/
def block (source : List Char) (lines : LineMap) (header : Directive) (docs : List String)
    (line : Nat) (ts : List Token) : Except StructureError (DefineBlock × List Token) :=
  match read source lines (begin (Token.offsetOf (Chars.byteSize source) ts)) ts with
  | .error e => .error e
  | .ok none => .error (.unterminatedDefine (header.args.head?.getD "") line)
  | .ok (some (c, rest)) => .ok (⟨header, c.body, c.defaults, Node.joinDocs docs, line⟩, rest)

theorem block_length_le {source : List Char} {lines : LineMap} {header : Directive}
    {docs : List String} {line : Nat} {ts rest : List Token} {b : DefineBlock}
    (h : block source lines header docs line ts = .ok (b, rest)) : rest.length ≤ ts.length := by
  unfold block at h
  split at h
  · simp at h
  · simp at h
  next c more hread =>
    have := read_length_le hread
    cases h
    exact this

end Capture

namespace Node

/-- The nodes of tokens that begin at the start of a line; `docs` are the comment lines directly
above it. -/
def ofTokens (source : List Char) (lines : LineMap) (docs : List String) (tokens : List Token) :
    Except StructureError (List Node) :=
  match tokens with
  | [] => .ok []
  | t :: ts =>
    match hdrop : (t :: ts).dropWhile Token.isWhitespace with
    | comment :: rest =>
      have hlen : rest.length < (t :: ts).length := by
        have h := (List.dropWhile_sublist Token.isWhitespace (l := t :: ts)).length_le
        rw [hdrop] at h
        exact h
      if comment.kind = .comment then
        let line := lines.lineOf comment.span.start
        have hafter := Token.skipLineBreak_length_le rest
        match Directive.ofComment? comment.content with
        | none => ofTokens source lines (docs ++ [docText comment.content])
            (Token.skipLineBreak rest)
        | some d =>
          if d.kind = .define then
            match hblock : Capture.block source lines d docs line (Token.skipLineBreak rest) with
            | .error e => .error e
            | .ok (b, more) =>
              have hmore := Capture.block_length_le hblock
              (ofTokens source lines [] more).map (.define b :: ·)
          else (ofTokens source lines [] (Token.skipLineBreak rest)).map (.directive d line :: ·)
      else
        have hline := Token.splitLine_length_le t ts
        (ofTokens source lines [] (Token.splitLine (t :: ts)).2).map
          ((Token.splitLine (t :: ts)).1.filterMap (ofToken? lines) ++ ·)
    | [] =>
      have hline := Token.splitLine_length_le t ts
      (ofTokens source lines [] (Token.splitLine (t :: ts)).2).map
        ((Token.splitLine (t :: ts)).1.filterMap (ofToken? lines) ++ ·)
termination_by tokens.length
decreasing_by
  all_goals simp only [List.length_cons] at *
  all_goals omega

/-- The nodes of a source text. -/
def ofSource (source : String) : Except StructureError (List Node) :=
  ofTokens source.toList (LineMap.ofText source) [] (lex source)

end Node

end CampaignMarkup
