import CampaignMarkup.Proofs.Text.Delimiters
import CampaignMarkup.Proofs.Text.Lines
import CampaignMarkup.Proofs.Token.Lossless

/-! # The strings a line begins in

A reader of delimiters knows nothing of tokens, and a scanner cuts whole forms. At the beginning of
a line the two agree on whether a string is open, as long as no line of a call or of a comment, in
which the scanner sees no strings, leaves one open for the reader. -/
namespace CampaignMarkup

open Text Chars

namespace TokenKind

def isString : TokenKind → Bool
  | .quoted | .rawQuoted => true
  | .text | .whitespace | .endOfLine | .comment | .macroCall => false

/-- The forms whose quotes and angles are characters like any other to the scanner. -/
def hidesQuotes : TokenKind → Bool
  | .macroCall | .comment => true
  | .text | .whitespace | .endOfLine | .quoted | .rawQuoted => false

end TokenKind

/-- A string begins before the offset and goes on behind it. -/
def insideString (ts : List Token) (offset : Nat) : Bool :=
  ts.any fun t => t.kind.isString && (t.span.start < offset && offset < t.span.stop)

/-- Where lines begin that follow one another from byte `offset` on. -/
def lineStarts (offset : Nat) : List (List Char) → List Nat
  | [] => []
  | line :: rest => offset :: lineStarts (offset + byteSize line) rest

/-- Of each line of a text, whether it begins inside a string. -/
def stringLines (source : String) : List Bool :=
  (lineStarts 0 (linesInclusive source.toList)).map (insideString (tokenize source))

/-- No line of the text leaves a string open. -/
def LinesClosed (cs : List Char) : Prop :=
  ∀ line ∈ splitOn '\n' cs, Delimiter.closed line

namespace LinesClosed

open Delimiter

theorem of_break {line rest : List Char} (h : LinesClosed (line ++ '\n' :: rest))
    (hline : '\n' ∉ line) :
    (line ++ ['\n']).foldl step .plain = .plain ∧ LinesClosed rest := by
  rw [LinesClosed, splitOn_append hline, List.forall_mem_cons] at h
  refine ⟨?_, h.2⟩
  rw [List.foldl_append]
  exact step_of_isOutside h.1 (by decide) (by decide)

theorem foldl_break {before rest : List Char} (h : LinesClosed (before ++ '\n' :: rest)) :
    (before ++ ['\n']).foldl step .plain = .plain := by
  induction before using line_induction with
  | last line hline => exact (h.of_break hline).1
  | cons line more hline ih =>
    rw [List.append_assoc, List.cons_append] at h
    obtain ⟨hplain, hmore⟩ := h.of_break hline
    rw [List.append_assoc, List.cons_append, List.append_cons, List.foldl_append, hplain, ih hmore]

theorem closed {cs : List Char} (h : LinesClosed cs) : Delimiter.closed cs := by
  induction cs using line_induction with
  | last line hline =>
    apply h
    rw [splitOn_of_not_mem hline]
    exact List.mem_singleton_self line
  | cons line rest hline ih =>
    obtain ⟨hplain, hrest⟩ := h.of_break hline
    rw [Delimiter.closed, List.append_cons, List.foldl_append, hplain]
    exact ih hrest

end LinesClosed

namespace Delimiter

/-- The reader is outside strings, and no string begins with an angle it has just read. -/
def Clear (d : Delimiter) (ahead : List Char) : Prop :=
  d = .plain ∨ d = .angle ∧ ahead.head? ≠ some '<'

namespace Clear

variable {d : Delimiter} {ahead : List Char}

theorem isOutside (h : d.Clear ahead) : d.isOutside := by
  rcases h with rfl | ⟨rfl, -⟩
  · rfl
  · rfl

theorem of_isOutside (h : d.isOutside) (hahead : ahead.head? ≠ some '<') : d.Clear ahead := by
  cases d with
  | plain => exact .inl rfl
  | angle => exact .inr ⟨rfl, hahead⟩
  | quoted => cases h
  | raw => cases h
  | rawClosing => cases h

theorem eq_plain {cs : List Char} (h : d.Clear ('<' :: cs)) : d = .plain := by
  rcases h with hplain | ⟨-, hne⟩
  · exact hplain
  · exact absurd rfl hne

theorem word {w rest : List Char} (h : d.Clear (w ++ rest)) (hquote : '"' ∉ w)
    (hw : Undoubled '<' w) (hangle : w.getLast? = some '<' → rest.head? ≠ some '<') :
    (w.foldl step d).Clear rest := by
  induction w generalizing d with
  | nil => exact h
  | cons c w ih =>
    obtain ⟨hc, hwq⟩ : '"' ≠ c ∧ '"' ∉ w := by simpa using hquote
    obtain ⟨hpair, hrest⟩ := undoubled_cons.mp hw
    have hlast : w.getLast? = some '<' → rest.head? ≠ some '<' := by
      intro hlast
      apply hangle
      rw [List.getLast?_cons, hlast]
      rfl
    refine ih ?_ hwq hrest hlast
    by_cases hlt : c = '<'
    · subst hlt
      rw [h.eq_plain]
      refine .inr ⟨rfl, ?_⟩
      cases w with
      | nil => exact hangle rfl
      | cons e w => exact hpair rfl
    · exact .inl (step_of_isOutside h.isOutside (Ne.symm hc) hlt)

end Clear

end Delimiter

namespace Chars

theorem exists_cons_break {c : Char} (hc : c ≠ '\n') {cs before after : List Char}
    (h : c :: cs = before ++ '\n' :: after) :
    ∃ inner, before = c :: inner ∧ cs = inner ++ '\n' :: after := by
  cases before with
  | nil =>
    cases h
    exact absurd rfl hc
  | cons b inner =>
    rw [List.cons_append, List.cons.injEq] at h
    obtain ⟨rfl, h⟩ := h
    exact ⟨inner, rfl, h⟩

theorem exists_concat_break {c : Char} {cs before after : List Char} (hafter : after ≠ [])
    (h : cs ++ [c] = before ++ '\n' :: after) : ∃ inner, cs = before ++ '\n' :: inner := by
  refine ⟨after.dropLast, ?_⟩
  have hdrop := congrArg List.dropLast h
  rw [List.dropLast_concat, List.dropLast_append_of_ne_nil (by simp)] at hdrop
  rw [hdrop, List.dropLast_cons_of_ne_nil hafter]

theorem singleton_ne_break {c : Char} {before after : List Char} (hafter : after ≠ []) :
    [c] ≠ before ++ '\n' :: after := by
  intro h
  obtain ⟨inner, hinner⟩ := @exists_concat_break c [] before after hafter h
  simp at hinner

/-- A break inside a string whose quotes are doubled is a break of the string. -/
theorem exists_doubleQuotes_break {before rest content : List Char}
    (h : doubleQuotes content = before ++ '\n' :: rest) :
    ∃ first, before = doubleQuotes first := by
  induction content generalizing before with
  | nil => simp [doubleQuotes] at h
  | cons c content ih =>
    cases before with
    | nil => exact ⟨[], rfl⟩
    | cons b before =>
      by_cases hc : c = '"'
      · rw [doubleQuotes, if_pos hc, List.cons_append, List.cons.injEq] at h
        obtain ⟨rfl, h⟩ := h
        cases before with
        | nil => simp at h
        | cons b before =>
          rw [List.cons_append, List.cons.injEq] at h
          obtain ⟨rfl, h⟩ := h
          obtain ⟨first, rfl⟩ := ih h
          exact ⟨'"' :: first, by simp [doubleQuotes]⟩
      · rw [doubleQuotes, if_neg hc, List.cons_append, List.cons.injEq] at h
        obtain ⟨rfl, h⟩ := h
        obtain ⟨first, rfl⟩ := ih h
        exact ⟨c :: first, by rw [doubleQuotes, if_neg hc]⟩

end Chars

namespace Lexeme

open Delimiter

/-- The piece leaves no string open in any of its lines, unless the scanner sees the string too. -/
def Paired (x : Lexeme) : Prop :=
  x.shape.kind.hidesQuotes → LinesClosed x.chars

theorem not_break_of_word {w : List Char} (hw : IsWord w) : '\n' ∉ w ∧ '"' ∉ w := by
  constructor
  · intro hmem
    rcases hw.chars _ hmem with hplain | heq
    · exact absurd (isPlain_iff.mp hplain).1 (by decide)
    · cases heq
  · intro hmem
    rcases hw.chars _ hmem with hplain | heq
    · exact (isPlain_iff.mp hplain).2.2.2.1 rfl
    · cases heq

/-- A piece that is not the last leaves the reader outside strings. -/
theorem PieceBefore.clear {x : Lexeme} {rest : List Char} (h : x.PieceBefore rest)
    (hpaired : x.Paired) (hrest : rest ≠ []) {d : Delimiter} (hd : d.Clear (x.chars ++ rest)) :
    (x.chars.foldl step d).Clear rest := by
  have hout := hd.isOutside
  cases h with
  | word hw _ hangle => exact hd.word (not_break_of_word hw).2 hw.undoubled hangle
  | form hcut htext =>
    cases hcut with
    | comment hbody hbreak =>
      refine .of_isOutside ?_ ?_
      · rw [foldl_of_isOutside hout (by decide)]
        exact (hpaired rfl).closed
      · intro hlt
        exact absurd (hbreak _ hlt) (by decide)
    | returnAndFeed =>
      have hblank : ['\r', '\n'].all isBlank = true := by decide
      exact .inl (foldl_blanks hout (by simp) (List.all_eq_true.mp hblank))
    | lineBreak hc _ =>
      exact .inl (foldl_blanks hout (by simp) (by simpa using isBlank_of_isLineBreak hc))
    | whitespace hne hgap _ =>
      refine .inl (foldl_blanks hout hne ?_)
      intro c hc
      exact (Bool.and_eq_true_iff.mp (hgap c hc)).1
    | quoted _ => exact .inl (foldl_quoted hout _)
    | rawQuoted hcontent =>
      rw [hd.eq_plain]
      exact .inl (foldl_rawQuoted hcontent)
    | @macroCall content _ _ =>
      have hclosed := (hpaired rfl).closed
      rw [Delimiter.closed, ← foldl_of_isOutside hout (by decide)] at hclosed
      have hbrace : ('{' :: (content ++ ['}'])).foldl step d =
          (('{' :: content).foldl step d).step '}' := by
        rw [← List.cons_append, List.foldl_append]
        rfl
      rw [hbrace] at hclosed
      refine .inl ?_
      rw [hbrace]
      exact step_eq_plain hclosed (by decide)
    | openQuoted => exact absurd rfl hrest
    | openRawQuoted _ => exact absurd rfl hrest
    | openMacroCall _ => exact absurd rfl hrest
    | loneAngle _ => cases htext
    | text _ _ _ => cases htext

theorem foldl_quoted_break {d : Delimiter} (h : d.isOutside) {content before after : List Char}
    (hcontent : doubleQuotes content = before ++ '\n' :: after) :
    ('"' :: (before ++ ['\n'])).foldl step d = .quoted := by
  obtain ⟨first, rfl⟩ := exists_doubleQuotes_break hcontent
  rw [← List.cons_append, List.foldl_append, foldl_openQuoted h]
  rfl

theorem foldl_raw_break {before : List Char} (h : Undoubled '>' (before ++ ['\n'])) :
    ('<' :: '<' :: (before ++ ['\n'])).foldl step .plain = .raw := by
  have hraw := foldl_raw h
  rw [List.getLast?_concat] at hraw
  exact hraw

theorem foldl_paired_break {d : Delimiter} (h : d.isOutside) {c : Char} (hc : c ≠ '<')
    {before after : List Char} (hlines : LinesClosed (c :: (before ++ '\n' :: after))) :
    (c :: (before ++ ['\n'])).foldl step d = .plain := by
  rw [foldl_of_isOutside h hc]
  exact @LinesClosed.foldl_break (c :: before) after hlines

/-- At a break inside a piece the reader is inside a string exactly if the piece is one. -/
theorem PieceBefore.isOutside_break {x : Lexeme} {rest : List Char} (h : x.PieceBefore rest)
    (hpaired : x.Paired) {before after : List Char} (hx : x.chars = before ++ '\n' :: after)
    (hafter : after ≠ []) {d : Delimiter} (hd : d.Clear (x.chars ++ rest)) :
    ((before ++ ['\n']).foldl step d).isOutside = !x.shape.kind.isString := by
  have hout := hd.isOutside
  have hmem : '\n' ∈ x.chars := by simp [hx]
  cases h with
  | word hw _ _ => exact absurd hmem (not_break_of_word hw).1
  | form hcut htext =>
    cases hcut with
    | comment hbody _ =>
      rcases List.mem_cons.mp hmem with heq | hmem
      · cases heq
      · exact absurd (hbody _ hmem) (by decide)
    | returnAndFeed =>
      obtain ⟨inner, -, hinner⟩ := exists_cons_break (by decide) hx
      exact absurd hinner (singleton_ne_break hafter)
    | lineBreak _ _ => exact absurd hx (singleton_ne_break hafter)
    | whitespace _ hgap _ => exact absurd (hgap _ hmem) (by decide)
    | quoted _ =>
      obtain ⟨inner, rfl, hinner⟩ := exists_cons_break (by decide) hx
      obtain ⟨_, hcontent⟩ := exists_concat_break hafter hinner
      exact congrArg isOutside (foldl_quoted_break hout hcontent)
    | openQuoted =>
      obtain ⟨inner, rfl, hinner⟩ := exists_cons_break (by decide) hx
      exact congrArg isOutside (foldl_quoted_break hout hinner)
    | rawQuoted hcontent =>
      obtain ⟨_, rfl, hangle⟩ := exists_cons_break (by decide) hx
      obtain ⟨inner, rfl, hinner⟩ := exists_cons_break (by decide) hangle
      obtain ⟨_, hcut⟩ :=
        @exists_concat_break '>' (_ ++ ['>']) inner after hafter (by simpa using hinner)
      rw [hcut, List.append_cons] at hcontent
      rw [hd.eq_plain]
      exact congrArg isOutside (foldl_raw_break (undoubled_append.mp hcontent).1)
    | openRawQuoted hcontent =>
      obtain ⟨_, rfl, hangle⟩ := exists_cons_break (by decide) hx
      obtain ⟨inner, rfl, hinner⟩ := exists_cons_break (by decide) hangle
      rw [hinner, List.append_cons] at hcontent
      rw [hd.eq_plain]
      exact congrArg isOutside (foldl_raw_break (undoubled_append.mp hcontent).1)
    | macroCall _ =>
      obtain ⟨inner, rfl, hinner⟩ := exists_cons_break (by decide) hx
      have hlines := hpaired rfl
      rw [hinner] at hlines
      exact congrArg isOutside (foldl_paired_break hout (by decide) hlines)
    | openMacroCall _ =>
      obtain ⟨inner, rfl, hinner⟩ := exists_cons_break (by decide) hx
      have hlines := hpaired rfl
      rw [hinner] at hlines
      exact congrArg isOutside (foldl_paired_break hout (by decide) hlines)
    | loneAngle _ => cases htext
    | text _ _ _ => cases htext

end Lexeme

namespace Token

open Delimiter Lexeme

theorem insideString_cons (start offset : Nat) (x : Lexeme) (xs : List Lexeme) :
    insideString (ofLexemes start (x :: xs)) offset =
      (x.shape.kind.isString && (start < offset && offset < start + byteSize x.chars) ||
        insideString (ofLexemes (start + byteSize x.chars) xs) offset) :=
  rfl

theorem insideString_of_le {offset start : Nat} (h : offset ≤ start) (xs : List Lexeme) :
    insideString (ofLexemes start xs) offset = false := by
  induction xs generalizing start with
  | nil => rfl
  | cons x xs ih =>
    rw [insideString_cons, ih (by omega), decide_eq_false (by omega : ¬ start < offset)]
    simp

/-- By induction on the pieces: a line that begins behind the first piece begins in the rest, and
one that begins inside it begins behind one of its breaks. -/
theorem isOutside_foldl {text : List Char} {xs : List Lexeme} (h : Pieces text xs)
    (hpaired : ∀ x ∈ xs, x.Paired) {before rest : List Char} (htext : text = before ++ rest)
    (hrest : rest ≠ []) (hbreak : before = [] ∨ before.getLast? = some '\n') {d : Delimiter}
    (hd : d.Clear text) (start : Nat) :
    (before.foldl step d).isOutside =
      !insideString (ofLexemes start xs) (start + byteSize before) := by
  induction h generalizing before d start with
  | nil => simp [hrest] at htext
  | @cons x ahead xs hx hahead ih =>
    obtain ⟨hxpaired, hxspaired⟩ := List.forall_mem_cons.mp hpaired
    rcases hbreak with rfl | hbreak
    · rw [byteSize_nil, insideString_of_le (by omega)]
      exact hd.isOutside
    have hbehind : ∀ more, before = x.chars ++ more → ahead = more ++ rest →
        (before.foldl step d).isOutside =
          !insideString (ofLexemes start (x :: xs)) (start + byteSize before) := by
      rintro more rfl hmore
      have hne : ahead ≠ [] := by simp [hmore, hrest]
      have hends : more = [] ∨ more.getLast? = some '\n' := by
        rcases List.eq_nil_or_concat more with rfl | ⟨front, c, rfl⟩
        · exact .inl rfl
        · exact .inr (by simpa using hbreak)
      have hpast : ¬ start + byteSize (x.chars ++ more) < start + byteSize x.chars := by
        rw [byteSize_append]
        omega
      rw [List.foldl_append, ih hxspaired hmore hends (hx.clear hxpaired hne hd)
        (start + byteSize x.chars), insideString_cons, decide_eq_false hpast, byteSize_append]
      simp [Nat.add_assoc]
    rcases List.append_eq_append_iff.mp htext with ⟨more, hbefore, hmore⟩ | ⟨after, hafter, hmore⟩
    · exact hbehind more hbefore hmore
    by_cases hnil : after = []
    · subst hnil
      exact hbehind [] (by simpa using hafter.symm) (by simpa using hmore.symm)
    · obtain ⟨front, rfl⟩ := List.getLast?_eq_some_iff.mp hbreak
      have hchars : x.chars = front ++ '\n' :: after := by rw [hafter, ← List.append_cons]
      have hsize : byteSize x.chars = byteSize (front ++ ['\n']) + byteSize after := by
        rw [hafter, byteSize_append]
      have hpos := byteSize_pos hnil
      have hfront := @byteSize_pos (front ++ ['\n']) (by simp)
      rw [hx.isOutside_break hxpaired hchars hnil hd, insideString_cons,
        insideString_of_le (by omega), decide_eq_true (by omega), decide_eq_true (by omega)]
      simp

end Token

/-- Where a reader stands behind a line and its end. -/
def Delimiter.afterLine (d : Delimiter) (line : List Char) : Delimiter :=
  (line.foldl step d).step '\n'

/-- Of each line, whether a reader that stands at `d` in front of the first begins it in a
string. -/
def openLines (d : Delimiter) : List (List Char) → List Bool
  | [] => []
  | line :: rest => (!d.isOutside) :: openLines (d.afterLine line) rest

/-- A carriage return before a line feed makes no difference. -/
theorem afterLine_dropEnding (d : Delimiter) (line : List Char) :
    d.afterLine (dropEnding ['\r'] line) = d.afterLine line := by
  unfold Delimiter.afterLine
  by_cases h : ['\r'] <:+ line
  · obtain ⟨front, rfl⟩ := h
    rw [dropEnding_append, List.foldl_append]
    exact (Delimiter.step_break_inert (by decide) _).symm
  · rw [dropEnding_of_not_suffix h]

theorem openLines_lines {text : List Char} {xs : List Lexeme} (h : Lexeme.Pieces text xs)
    (hpaired : ∀ x ∈ xs, x.Paired) {before rest : List Char} (htext : text = before ++ rest)
    (hbreak : before = [] ∨ before.getLast? = some '\n') :
    openLines (before.foldl Delimiter.step .plain) (lines rest) =
      (lineStarts (byteSize before) (linesInclusive rest)).map
        (insideString (Token.ofLexemes 0 xs)) := by
  induction rest using line_induction generalizing before with
  | last line hline =>
    by_cases hnil : line = []
    · subst hnil
      rfl
    · have hhere := Token.isOutside_foldl h hpaired htext hnil hbreak (.inl rfl) 0
      rw [Nat.zero_add] at hhere
      simp [lines_of_not_mem hnil hline, linesInclusive_of_not_mem hnil hline, openLines,
        lineStarts, hhere]
  | cons line more hline ih =>
    have hhere := Token.isOutside_foldl h hpaired htext (by simp) hbreak (.inl rfl) 0
    have hmore := @ih (before ++ (line ++ ['\n'])) (by simp [htext]) (.inr (by simp))
    rw [List.foldl_append, List.foldl_append, byteSize_append] at hmore
    rw [Nat.zero_add] at hhere
    rw [lines_append hline, linesInclusive_append hline, openLines, lineStarts, List.map_cons,
      afterLine_dropEnding, hhere, ← hmore]
    simp [Delimiter.afterLine]

/-- No line of a call or of a comment leaves a string open. -/
def QuotesPaired (source : String) : Prop :=
  ∀ t ∈ tokenize source, t.kind.hidesQuotes → LinesClosed (t.slice source)

instance (source : String) : Decidable (QuotesPaired source) :=
  inferInstanceAs (Decidable (∀ t ∈ tokenize source, t.kind.hidesQuotes →
    ∀ line ∈ splitOn '\n' (t.slice source), Delimiter.closed line))

theorem QuotesPaired.lexemes {source : String} (h : QuotesPaired source) :
    ∀ x ∈ Lexeme.fuse (Lexeme.scan source.toList), x.Paired := by
  intro x hx hhides
  have hmem := List.mem_map_of_mem (f := fun x : Lexeme =>
    (x.shape.kind, String.ofList x.content, x.chars)) hx
  rw [← map_tokenize] at hmem
  obtain ⟨t, ht, heq⟩ := List.mem_map.mp hmem
  obtain ⟨hkind, -, hslice⟩ : t.kind = x.shape.kind ∧ t.content = String.ofList x.content ∧
      t.slice source = x.chars := by simpa using heq
  have hlines := h t ht (by rw [hkind]; exact hhides)
  rwa [hslice] at hlines

/-- Reader and scanner agree at the beginning of every line. -/
theorem QuotesPaired.stringLines_eq {source : String} (h : QuotesPaired source) :
    stringLines source = openLines .plain (lines source.toList) :=
  (@openLines_lines _ _ (Lexeme.pieces_fuse_scan source.toList) h.lexemes [] _ rfl (.inl rfl)).symm

end CampaignMarkup
