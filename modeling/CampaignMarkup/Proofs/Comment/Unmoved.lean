import CampaignMarkup.Proofs.Comment.Tokens
import CampaignMarkup.Proofs.Document.Directives

/-! # What spacing leaves unmoved

Spacing keeps every token and every directive in its place. It goes by lines and knows nothing of
strings that run over several of them, so that it also changes a string, a raw string or a call when
one of their lines looks like a comment. -/
namespace CampaignMarkup

namespace Comment

open LineMap

theorem directives_spaced {source source' : String} (h : space? source = some source') :
    Node.directives source' = Node.directives source := by
  have hheeded : List.Forall₂ (Token.Heeded (ofText source) (ofText source')) (lex source)
      (lex source') := (twins_lex h).imp fun a b hab => ⟨hab.kind, hab.line, hab.directive⟩
  exact (Node.ofTokens_directives hheeded [] []).symm

/-- What holds of a token and its counterpart in the spaced text. -/
structure Kept (source : String) (a b : Token) : Prop where
  kind : a.kind = b.kind
  plain : a.kind = .text ∨ a.kind = .whitespace ∨ a.kind = .endOfLine → a.content = b.content
  content : a.content = b.content ↔
    ∀ n ∈ hashes source, ¬ (a.span.start ≤ n ∧ n < a.span.stop)

theorem Twin.kept {source source' : String} {a b : Token} (h : Twin source source' a b) :
    Kept source a b := by
  refine ⟨h.kind, fun hkind => ?_, ?_⟩
  · rcases hkind with hk | hk | hk <;>
      exact h.plain (by rw [hk]; simp) (by rw [hk]; rfl)
  · rw [← hashesIn_eq_zero_iff, ← h.spread.eq_iff, String.toList_inj]

/-- The spaced text has the same tokens, kind by kind, and the same directives. A token says what it
said before just when no hash that gets a blank lies in its span. -/
theorem spacing_keeps_kinds_and_directives {source source' : String}
    (h : space? source = some source') :
    List.Forall₂ (Kept source) (lex source) (lex source') ∧
      Node.directives source' = Node.directives source :=
  ⟨(twins_lex h).imp fun _ _ hab => hab.kept, directives_spaced h⟩

theorem remark_spaced_keeps_kinds_and_directives :
    space? "#ifdef A\n#todo\nx=<<a>>\n#endif" = some "#ifdef A\n# todo\nx=<<a>>\n#endif" ∧
      List.Forall₂ (Kept "#ifdef A\n#todo\nx=<<a>>\n#endif")
        (lex "#ifdef A\n#todo\nx=<<a>>\n#endif") (lex "#ifdef A\n# todo\nx=<<a>>\n#endif") ∧
      Node.directives "#ifdef A\n# todo\nx=<<a>>\n#endif" =
        Node.directives "#ifdef A\n#todo\nx=<<a>>\n#endif" := by
  have hspaced : space? "#ifdef A\n#todo\nx=<<a>>\n#endif" =
      some "#ifdef A\n# todo\nx=<<a>>\n#endif" := by
    decide +kernel
  exact ⟨hspaced, spacing_keeps_kinds_and_directives hspaced⟩

/-- A line of a string that begins with a hash gets its blank like a comment. -/
theorem string_line_spaced :
    space? "\"\n#foo\n\"" = some "\"\n# foo\n\"" ∧
      (lex "\"\n#foo\n\"").map (fun t => (t.kind, t.content)) = [(.quoted, "\n#foo\n")] ∧
      (lex "\"\n# foo\n\"").map (fun t => (t.kind, t.content)) = [(.quoted, "\n# foo\n")] := by
  decide +kernel

end Comment

end CampaignMarkup
