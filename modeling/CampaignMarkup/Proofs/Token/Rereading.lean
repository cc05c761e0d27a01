import CampaignMarkup.Proofs.Token.Reading

/-! # Rendered tokens read again

What a reader finds in the markup that joined tokens are written as. Texts fall apart into their
words again. Two quoted tokens that touch become one, because the quote that closes the first and
the quote that opens the second read as a doubled quote, and an unclosed raw string that ends in an
angle loses it to the delimiter behind. All else is read as it was. -/
namespace CampaignMarkup

open Chars Lexeme

namespace Token

/-! ## What becomes of the tokens -/

def word (w : List Char) : Token :=
  ⟨.text, String.ofList w, default⟩

def blank : Token :=
  ⟨.whitespace, " ", default⟩

/-- The words of a text and the blanks between them. -/
def phrase (content : List Char) : List Token :=
  ((content.splitOn ' ').map word).intersperse blank

/-- A quoted token in front of the tokens that are read behind it. -/
def glue (t : Token) : List Token → List Token
  | [] => [t]
  | u :: us =>
    if u.kind = .quoted then ⟨.quoted, t.content ++ "\"" ++ u.content, default⟩ :: us
    else t :: u :: us

/-- The tokens read from the markup of a token and what is read behind it. -/
def resume (t : Token) (us : List Token) : List Token :=
  match t.kind with
  | .text => phrase t.content.toList ++ us
  | .quoted => glue t us
  | .rawQuoted =>
    match dropEnding? ['>'] t.content.toList with
    | some content => ⟨.rawQuoted, String.ofList content, default⟩ :: word ['>'] :: us
    | none => t :: us
  | .whitespace | .endOfLine | .comment | .macroCall => t :: us

def reread (ts : List Token) : List Token :=
  ts.foldr resume []

/-- The markup of tokens. -/
def markup (ts : List Token) : List Char :=
  ts.flatMap fun t => t.kind.write t.content.toList

/-! ## The words of a joined text -/

/-- Words with one blank between each two, none of them a bare `+`. -/
inductive Phrase : List Char → Prop where
  | word {w} : IsWord w → w ≠ ['+'] → Phrase w
  | more {w p} : IsWord w → w ≠ ['+'] → Phrase p → Phrase (w ++ ' ' :: p)

theorem Phrase.snoc {p w : List Char} (hp : Phrase p) (hw : IsWord w) (hplus : w ≠ ['+']) :
    Phrase (p ++ ' ' :: w) := by
  induction hp with
  | word hv hvplus => exact .more hv hvplus (.word hw hplus)
  | more hv hvplus _ ih =>
    rw [List.append_assoc, List.cons_append]
    exact .more hv hvplus ih

theorem Phrase.ne_nil {p : List Char} (hp : Phrase p) : p ≠ [] := by
  cases hp with
  | word hw => exact hw.ne_nil
  | more hw => simp [hw.ne_nil]

theorem blank_not_mem_word {w : List Char} (hw : IsWord w) : ∀ c ∈ w, (c == ' ') = false := by
  intro c hc
  rcases hw.chars c hc with hc | rfl
  · have hne : c ≠ ' ' := by
      rintro rfl
      exact absurd hc (by decide)
    simpa using hne
  · decide

theorem phrase_word {w : List Char} (hw : IsWord w) : phrase w = [word w] := by
  rw [phrase, List.splitOn, List.splitOnP_eq_singleton (blank_not_mem_word hw)]
  rfl

theorem phrase_more {w : List Char} (hw : IsWord w) (p : List Char) :
    phrase (w ++ ' ' :: p) = word w :: blank :: phrase p := by
  have hsplit : (w ++ ' ' :: p).splitOn ' ' = w :: p.splitOn ' ' :=
    List.splitOnP_append_cons_of_forall_mem (blank_not_mem_word hw) ' ' (by simp) p
  rw [phrase, phrase, hsplit, List.map_cons]
  cases hp : p.splitOn ' ' with
  | nil => exact absurd hp (List.splitOn_ne_nil ' ' p)
  | cons v vs => rw [List.map_cons, List.intersperse_cons_cons]

/-- The text ends where it did: no more text follows, and no raw string is opened by accident. -/
structure Stops (p rest : List Char) : Prop where
  no_text : firstKind rest ≠ some .text
  no_angle : p.getLast? = some '<' → rest.head? ≠ some '<'

theorem reads_word {w rest : List Char} {us : List Token} (hw : IsWord w) (hstop : Stops w rest)
    (hrest : Reads rest us) : Reads (w ++ rest) (word w :: us) := by
  have hpiece : PieceBefore ⟨wordShape w, w⟩ rest := .word hw hstop.no_text hstop.no_angle
  have hkind := kind_wordShape w
  refine .cons ⟨hpiece, hkind.symm, ?_⟩ hrest
  rw [hpiece.content_eq (by rw [hkind]; rfl)]
  exact String.toList_ofList

theorem reads_blank {rest : List Char} {us : List Token}
    (h : ∀ c ∈ rest.head?, Text.isGap c = false) (hrest : Reads rest us) :
    Reads (' ' :: rest) (blank :: us) := by
  have hcut : CutBefore ⟨.whitespace, [' ']⟩ rest :=
    .whitespace (by simp) (List.forall_mem_singleton.mpr (by decide)) h
  exact .cons ⟨.form hcut rfl, rfl, rfl⟩ hrest

theorem stops_blank (p rest : List Char) : Stops p (' ' :: rest) := by
  refine ⟨?_, by simp⟩
  rw [firstKind, scan, next_gap (by decide)]
  simp [Shape.kind]

theorem not_gap_of_word {w : List Char} (hw : IsWord w) (rest : List Char) :
    ∀ c ∈ (w ++ rest).head?, Text.isGap c = false := by
  intro c hc
  rw [List.head?_append_of_ne_nil _ hw.ne_nil] at hc
  rcases hw.chars c (List.mem_of_mem_head? hc) with hc | rfl
  · exact (isPlain_iff.mp hc).2.1
  · decide

/-- A phrase begins with a word that can be joined. -/
theorem Phrase.exists_word {p : List Char} (hp : Phrase p) : ∃ w more ts,
    p = w ++ more ∧ phrase p = Token.word w :: ts ∧ IsWord w ∧ w ≠ ['+'] := by
  cases hp with
  | word hw hplus => exact ⟨p, [], [], by simp, phrase_word hw, hw, hplus⟩
  | more hw hplus _ => exact ⟨_, _, _, rfl, phrase_more hw _, hw, hplus⟩

theorem reads_phrase {p rest : List Char} {us : List Token} (hp : Phrase p) (hstop : Stops p rest)
    (hrest : Reads rest us) : Reads (p ++ rest) (phrase p ++ us) := by
  induction hp with
  | @word w hw _ =>
    rw [phrase_word hw]
    exact reads_word hw hstop hrest
  | @more w p hw _ hp ih =>
    have hlast : (w ++ ' ' :: p).getLast? = p.getLast? := by
      rw [List.getLast?_append_of_ne_nil _ (by simp), List.getLast?_cons_of_ne_nil hp.ne_nil]
    have hbehind := ih ⟨hstop.no_text, hlast ▸ hstop.no_angle⟩
    obtain ⟨v, more, -, rfl, -, hv, -⟩ := hp.exists_word
    have hgap : ∀ c ∈ (v ++ more ++ rest).head?, Text.isGap c = false := by
      rw [List.append_assoc]
      exact not_gap_of_word hv _
    rw [phrase_more hw, List.append_assoc, List.cons_append]
    exact reads_word hw (stops_blank w _) (reads_blank hgap hbehind)

/-! ## What follows stays in view -/

/-- A chain in front of the one list goes on just when it goes on in front of the other. -/
structure SameAhead (ts us : List Token) : Prop where
  next : (nextOperand? ts).isSome = (nextOperand? us).isSome
  operand : operandAhead ts = operandAhead us

theorem SameAhead.nextOperand?_eq_none {ts us : List Token} (h : SameAhead ts us)
    (hnext : nextOperand? ts = none) : nextOperand? us = none := by
  have hsome := h.next
  rw [hnext] at hsome
  simpa using hsome.symm

theorem SameAhead.cons {t u : Token} {ts us : List Token} (hkind : t.kind = u.kind)
    (hplus : t.isPlus = u.isPlus) (h : SameAhead ts us) : SameAhead (t :: ts) (u :: us) := by
  have hgap : t.isWhitespace = u.isWhitespace := by rw [isWhitespace, isWhitespace, hkind]
  have hspacing : t.isSpacing = u.isSpacing := by
    rw [isSpacing, isSpacing, hgap, isLineBreak, isLineBreak, hkind]
  have hoperand : t.isOperand = u.isOperand := by rw [isOperand, isOperand, hkind, hplus]
  constructor
  · cases hg : t.isWhitespace with
    | true => rw [nextOperand?_whitespace hg, nextOperand?_whitespace (hgap ▸ hg), h.next]
    | false =>
      cases hp : t.isPlus with
      | true => rw [isSome_nextOperand?_plus hp, isSome_nextOperand?_plus (hplus ▸ hp), h.operand]
      | false =>
        rw [nextOperand?_other hg hp, nextOperand?_other (hgap ▸ hg) (hplus ▸ hp)]
  · cases hs : t.isSpacing with
    | true => rw [operandAhead_spacing hs, operandAhead_spacing (hspacing ▸ hs), h.operand]
    | false => rw [operandAhead_other hs, operandAhead_other (hspacing ▸ hs), hoperand]

/-- Two operands, or two tokens that are neither operands nor on the way to one. -/
theorem SameAhead.stop {t u : Token} (hoperand : t.isOperand = u.isOperand)
    (ht : t.isSpacing = false ∧ t.isPlus = false) (hu : u.isSpacing = false ∧ u.isPlus = false)
    (ts us : List Token) : SameAhead (t :: ts) (u :: us) := by
  have hgap : ∀ {v : Token}, v.isSpacing = false → v.isWhitespace = false := by
    intro v hv
    exact (Bool.or_eq_false_iff.mp hv).1
  constructor
  · rw [nextOperand?_other (hgap ht.1) ht.2, nextOperand?_other (hgap hu.1) hu.2]
  · rw [operandAhead_other ht.1, operandAhead_other hu.1, hoperand]

theorem stops_of_isOperand {t : Token} (h : t.isOperand) :
    t.isSpacing = false ∧ t.isPlus = false := by
  refine ⟨isSpacing_eq_false_of_isOperand h, ?_⟩
  by_contra hplus
  rw [isOperand_eq_false_of_isPlus (by simpa using hplus)] at h
  cases h

theorem isOperand_word {w : List Char} (h : w ≠ ['+']) : (word w).isOperand := by
  have hplus : String.ofList w ≠ "+" := by
    intro heq
    exact h (by rw [← String.toList_ofList (l := w), heq]; rfl)
  simp [isOperand, word, isPlus, hplus]

theorem settled_phrase {p : List Char} {us : List Token} (hp : Phrase p)
    (hnext : nextOperand? us = none) (hus : Settled us) : Settled (phrase p ++ us) := by
  induction hp with
  | @word w hw _ =>
    rw [phrase_word hw]
    exact ⟨fun _ => hnext, hus⟩
  | @more w p hw _ hp ih =>
    -- a blank and a word that is no `+` do not carry the chain on
    have hstop : nextOperand? (blank :: (phrase p ++ us)) = none := by
      rw [nextOperand?_whitespace rfl]
      obtain ⟨v, -, vs, -, heq, -, hplus⟩ := hp.exists_word
      have hv := stops_of_isOperand (isOperand_word hplus)
      rw [heq]
      exact nextOperand?_other rfl hv.2 _
    rw [phrase_more hw]
    exact ⟨fun _ => hstop, fun h => absurd h (by decide), ih⟩

/-! ## One piece at a time -/

/-- The markup begins as the text does, or with a quote where a text has become part of a string. -/
inductive Begins : List Char → List Char → Prop where
  | nil : Begins [] []
  | same {c cs ds} : firstKind (c :: cs) = firstKind (c :: ds) → Begins (c :: cs) (c :: ds)
  | quote {c cs ds} : firstKind (c :: cs) = some .text → isPlain c ∨ c = '<' →
      Begins (c :: cs) ('"' :: ds)

theorem Begins.stops {p rest markup : List Char} (h : Begins rest markup) (hstop : Stops p rest) :
    Stops p markup := by
  cases h with
  | nil => exact hstop
  | same hkind => exact ⟨hkind ▸ hstop.no_text, hstop.no_angle⟩
  | quote hkind _ => exact absurd hkind hstop.no_text

/-- Only a quoted piece can be touched by the quote. -/
theorem Begins.pieceBefore {x : Lexeme} {rest markup : List Char} (h : Begins rest markup)
    (hx : x.PieceBefore rest) (hkind : x.shape.kind ≠ .quoted) : x.PieceBefore markup := by
  cases hx with
  | word hw htext hangle =>
    have hstop := h.stops ⟨htext, hangle⟩
    exact .word hw hstop.no_text hstop.no_angle
  | form hcut hform =>
    refine .form ?_ hform
    cases h with
    | nil => exact hcut
    | same _ => exact hcut.of_head (by simp) rfl
    | @quote c cs ds _ hc =>
      cases hcut with
      | comment hbody hrest =>
        have hbreak : Text.isLineBreak c := hrest c rfl
        rcases hc with hc | rfl
        · simp [(isPlain_iff.mp hc).1] at hbreak
        · exact absurd hbreak (by decide)
      | returnAndFeed => exact .returnAndFeed
      | lineBreak hc _ => exact .lineBreak hc (by simp)
      | whitespace hne hgap _ => exact .whitespace hne hgap (by simp; decide)
      | quoted _ => exact absurd rfl hkind
      | rawQuoted hcontent => exact .rawQuoted hcontent
      | macroCall hcontent => exact .macroCall hcontent
      | loneAngle _ => cases hform
      | text => cases hform

theorem not_brace_mem_content {x : Lexeme} {rest : List Char} (h : x.PieceBefore rest)
    (hkind : x.shape.kind = .macroCall) : '}' ∉ x.content := by
  cases h with
  | word => simp at hkind
  | form hcut =>
    cases hcut with
    | macroCall hcontent => rwa [content_macroCall]
    | openMacroCall hcontent => rwa [content_openMacroCall hcontent]
    | _ => cases hkind

/-- Only behind an unclosed raw string can its content end in an angle. -/
theorem undoubled_content {x : Lexeme} {rest : List Char} (h : x.PieceBefore rest)
    (hkind : x.shape.kind = .rawQuoted) :
    Undoubled '>' x.content ∧ (x.content.getLast? = some '>' → rest = []) := by
  cases h with
  | word => simp at hkind
  | form hcut =>
    cases hcut with
    | rawQuoted hcontent =>
      obtain ⟨hundoubled, -, hlast⟩ := undoubled_append.mp hcontent
      rw [content_rawQuoted]
      exact ⟨hundoubled, fun h => absurd rfl (hlast h)⟩
    | openRawQuoted hcontent =>
      rw [content_openRawQuoted hcontent]
      exact ⟨hcontent, fun _ => rfl⟩
    | _ => cases hkind

theorem reads_macroCall {t : Token} {rest : List Char} {us : List Token}
    (hkind : t.kind = .macroCall) (h : '}' ∉ t.content.toList) (hus : Reads rest us) :
    Reads (t.kind.write t.content.toList ++ rest) (t :: us) := by
  rw [hkind]
  exact .cons ⟨.form (.macroCall h) rfl, hkind, (content_macroCall _).symm⟩ hus

theorem reads_rawQuoted {t : Token} {rest : List Char} {us : List Token}
    (hkind : t.kind = .rawQuoted) (h : Undoubled '>' (t.content.toList ++ ['>']))
    (hus : Reads rest us) : Reads (t.kind.write t.content.toList ++ rest) (t :: us) := by
  rw [hkind]
  exact .cons ⟨.form (.rawQuoted h) rfl, hkind, (content_rawQuoted _).symm⟩ hus

theorem reads_quoted {t : Token} {rest : List Char} {us : List Token} (hkind : t.kind = .quoted)
    (h : rest.head? ≠ some '"') (hus : Reads rest us) :
    Reads (t.kind.write t.content.toList ++ rest) (t :: us) := by
  rw [hkind]
  exact .cons ⟨.form (.quoted h) rfl, hkind, (content_quoted _).symm⟩ hus

theorem firstKind_quote (cs : List Char) : firstKind ('"' :: cs) = some .quoted := by
  rw [firstKind, scan]
  rfl

/-- A quoted token in front of a string: the quotes between the two contents read as one. -/
theorem reads_glue {t : Token} {rest : List Char} {us : List Token} (hkind : t.kind = .quoted)
    (hus : Reads rest us) : Reads (t.kind.write t.content.toList ++ rest) (glue t us) := by
  cases hus with
  | nil => exact reads_quoted hkind (by simp) .nil
  | @cons x after u us hx hafter =>
    by_cases hq : u.kind = .quoted
    · have hglued : ∀ content, u.content.toList = content →
          (t.content ++ "\"" ++ u.content).toList = t.content.toList ++ '"' :: content := by
        rintro _ rfl
        simp
      rw [glue, if_pos hq, hkind]
      obtain ⟨hbefore, hu, hcontent⟩ := hx
      rw [hu] at hq
      cases hbefore with
      | word => simp at hq
      | form hcut =>
        cases hcut with
        | @quoted content _ hrest =>
          rw [content_quoted] at hcontent
          have hread : ReadAs
              ⟨.quoted, '"' :: (doubleQuotes (t.content.toList ++ '"' :: content) ++ ['"'])⟩ after
              ⟨.quoted, t.content ++ "\"" ++ u.content, default⟩ :=
            ⟨.form (.quoted hrest) rfl, rfl,
              (hglued content hcontent).trans (content_quoted _).symm⟩
          simpa [TokenKind.write, doubleQuotes_append, doubleQuotes] using Reads.cons hread hafter
        | @openQuoted content =>
          rw [content_openQuoted] at hcontent
          have hread : ReadAs
              ⟨.quoted, '"' :: doubleQuotes (t.content.toList ++ '"' :: content)⟩ []
              ⟨.quoted, t.content ++ "\"" ++ u.content, default⟩ :=
            ⟨.form .openQuoted rfl, rfl,
              (hglued content hcontent).trans (content_openQuoted _).symm⟩
          simpa [TokenKind.write, doubleQuotes_append, doubleQuotes] using Reads.cons hread hafter
        | _ => cases hq
    · rw [glue, if_neg hq]
      refine reads_quoted hkind ?_ (.cons hx hafter)
      intro hhead
      obtain ⟨cs, hcs⟩ := List.head?_eq_some_iff.mp hhead
      have hfirst := (Reads.cons hx hafter).firstKind_eq
      rw [hcs, firstKind_quote] at hfirst
      exact hq (Option.some.inj hfirst).symm

/-! ## The whole text -/

/-- The tokens `ts` of `text` are written as `markup`, which is read as `us`. The markup begins as
the text does, and a chain in front goes on here just when it goes on there. -/
structure Rereads (text : List Char) (ts : List Token) (markup : List Char) (us : List Token) :
    Prop where
  reads : Reads markup us
  begins : Begins text markup
  settled : Settled us
  ahead : SameAhead ts us

theorem rereads_nil : Rereads [] [] [] [] :=
  ⟨.nil, .nil, trivial, rfl, rfl⟩

/-- Texts that are read as tokens of one kind and start with the same character. -/
theorem begins_of_reads {text text' : List Char} {t u : Token} {ts us : List Token}
    (ht : Reads text (t :: ts)) (hu : Reads text' (u :: us)) (hkind : t.kind = u.kind)
    (hhead : text.head? = text'.head?) : Begins text text' := by
  have hfirst : firstKind text = firstKind text' := by
    rw [ht.firstKind_eq, hu.firstKind_eq, hkind]
  cases text with
  | nil => cases ht.nil_eq
  | cons c cs =>
    obtain ⟨ds, rfl⟩ := List.head?_eq_some_iff.mp hhead.symm
    exact .same hfirst

theorem ReadAs.head?_write {x : Lexeme} {rest : List Char} {t : Token} (h : ReadAs x rest t)
    (after : List Char) :
    (x.chars ++ rest).head? = (t.kind.write t.content.toList ++ after).head? := by
  rw [h.kind, h.content, h.before.write_content, List.append_assoc,
    List.head?_append_of_ne_nil _ h.before.ne_nil, List.head?_append_of_ne_nil _ h.before.ne_nil]

section Other

variable {x : Lexeme} {rest markup : List Char} {t : Token} {ts us : List Token}

/-- A token that cannot be joined and is read as one token again. -/
theorem rereads_kept (hx : ReadAs x rest t) (hts : Reads rest ts) (hoperand : t.isOperand = false)
    (h : Rereads rest ts markup us) {u : Token} (hkind : u.kind = t.kind)
    (hplus : u.isPlus = t.isPlus)
    (hreads : Reads (t.kind.write t.content.toList ++ markup) (u :: us)) :
    Rereads (x.chars ++ rest) (t :: ts) (t.kind.write t.content.toList ++ markup) (u :: us) := by
  have hother : u.isOperand = false := by
    rw [← hoperand, isOperand, isOperand, hkind, hplus]
  have hsource := Reads.cons hx hts
  exact ⟨hreads, begins_of_reads hsource hreads hkind.symm (hx.head?_write _),
    ⟨fun h => absurd h (by simp [hother]), h.settled⟩, h.ahead.cons hkind.symm hplus.symm⟩

theorem rereads_undelimited (hx : ReadAs x rest t) (hts : Reads rest ts)
    (hoperand : t.isOperand = false) (h : Rereads rest ts markup us)
    (hkind : t.kind.isDelimited = false) {u : Token} (hu : u.kind = t.kind)
    (hcontent : u.content = t.content) :
    Rereads (x.chars ++ rest) (t :: ts) (t.kind.write t.content.toList ++ markup) (u :: us) := by
  have hplus : u.isPlus = t.isPlus := by rw [isPlus, isPlus, hu, hcontent]
  have hquoted : x.shape.kind ≠ .quoted := by
    intro hq
    rw [hx.kind, hq] at hkind
    cases hkind
  refine rereads_kept hx hts hoperand h hu hplus ?_
  have hchars : t.kind.write t.content.toList = x.chars := by
    rw [TokenKind.write_of_not_delimited hkind, hx.content, hx.before.content_eq (hx.kind ▸ hkind)]
  rw [hchars]
  exact .cons ⟨h.begins.pieceBefore hx.before hquoted, hu.trans hx.kind, hcontent ▸ hx.content⟩
    h.reads

/-- A raw string, with the angle at its end read as a text of its own. -/
theorem rereads_rawQuoted (hx : ReadAs x rest t) (hts : Reads rest ts)
    (h : Rereads rest ts markup us) (hkind : t.kind = .rawQuoted) :
    Rereads (x.chars ++ rest) (t :: ts) (t.kind.write t.content.toList ++ markup)
      (resume t us) := by
  have hoperand : t.isOperand = false := by simp [isOperand, hkind]
  obtain ⟨hundoubled, hlast⟩ := undoubled_content hx.before (hx.kind ▸ hkind)
  rw [← hx.content] at hundoubled hlast
  unfold resume
  rw [hkind]
  dsimp only
  split
  · next content hending =>
    rw [dropEnding?_eq_some] at hending
    -- the raw string was never closed, so that nothing follows it
    obtain rfl : rest = [] := hlast (by simp [hending])
    obtain rfl : markup = [] := by
      cases h.begins
      rfl
    obtain rfl : us = [] := h.reads.nil_eq
    have hword : IsWord ['>'] :=
      isWord_of_plain (by simp) (List.forall_mem_singleton.mpr (by decide))
    have hangle : Reads (['>'] ++ []) [word ['>']] :=
      reads_word hword ⟨by simp [firstKind_nil], by simp⟩ .nil
    have hraw := reads_rawQuoted (t := ⟨.rawQuoted, String.ofList content, default⟩) rfl
      (by rwa [String.toList_ofList, ← hending]) hangle
    have hsplit : TokenKind.write .rawQuoted t.content.toList ++ [] =
        TokenKind.write .rawQuoted (String.ofList content).toList ++ ['>'] := by
      simp [TokenKind.write, hending]
    have hhead := hx.head?_write []
    rw [hkind, hsplit] at hhead
    rw [hsplit]
    exact ⟨hraw, begins_of_reads (.cons hx hts) hraw hkind hhead,
      ⟨fun h => absurd h (by simp [isOperand]), fun _ => rfl, trivial⟩,
      .stop hoperand
        ⟨by simp [isSpacing, isWhitespace, isLineBreak, hkind], by simp [isPlus, hkind]⟩
        ⟨rfl, rfl⟩ _ _⟩
  · next hending =>
    have hclosed : Undoubled '>' (t.content.toList ++ ['>']) := by
      refine undoubled_append.mpr ⟨hundoubled, .singleton _, fun hangle => ?_⟩
      obtain ⟨body, hbody⟩ := List.getLast?_eq_some_iff.mp hangle
      rw [dropEnding?_eq_some.mpr hbody] at hending
      cases hending
    have hreads := reads_rawQuoted hkind hclosed h.reads
    rw [← hkind]
    exact rereads_kept hx hts hoperand h rfl rfl hreads

theorem rereads_macroCall (hx : ReadAs x rest t) (hts : Reads rest ts)
    (h : Rereads rest ts markup us) (hkind : t.kind = .macroCall) :
    Rereads (x.chars ++ rest) (t :: ts) (t.kind.write t.content.toList ++ markup) (t :: us) := by
  have hbrace := not_brace_mem_content hx.before (hx.kind ▸ hkind)
  rw [← hx.content] at hbrace
  exact rereads_kept hx hts (by simp [isOperand, hkind]) h rfl rfl
    (reads_macroCall hkind hbrace h.reads)

theorem rereads_other (hx : ReadAs x rest t) (hts : Reads rest ts) (hoperand : t.isOperand = false)
    (h : Rereads rest ts markup us) :
    Rereads (x.chars ++ rest) (t :: ts) (t.kind.write t.content.toList ++ markup)
      (resume t us) := by
  cases hkind : t.kind with
  | text =>
    have hplus : t.isPlus := by simpa [isOperand, hkind] using hoperand
    have hcontent := (isPlus_iff.mp hplus).2
    have hresume : resume t us = word ['+'] :: us := by
      rw [resume, hkind, hcontent]
      rfl
    rw [hresume, ← hkind]
    exact rereads_undelimited hx hts hoperand h (by rw [hkind]; rfl) hkind.symm hcontent.symm
  | quoted => simp [isOperand, hkind] at hoperand
  | rawQuoted => exact hkind ▸ rereads_rawQuoted hx hts h hkind
  | macroCall =>
    have hresume : resume t us = t :: us := by rw [resume, hkind]
    rw [hresume, ← hkind]
    exact rereads_macroCall hx hts h hkind
  | whitespace | endOfLine | comment =>
    have hresume : resume t us = t :: us := by rw [resume, hkind]
    rw [hresume, ← hkind]
    exact rereads_undelimited hx hts hoperand h (by rw [hkind]; rfl) rfl rfl

end Other

/-! ## Chains -/

theorem ReadAs.isWord {x : Lexeme} {rest : List Char} {t : Token} (h : ReadAs x rest t)
    (hkind : t.kind = .text) :
    IsWord t.content.toList ∧ Stops t.content.toList rest ∧ t.content.toList = x.chars := by
  have hx : x.shape.kind = .text := h.kind ▸ hkind
  have hcontent : t.content.toList = x.chars := by
    rw [h.content, h.before.content_eq (by rw [hx]; rfl)]
  obtain ⟨hbefore, -, -⟩ := h
  cases hbefore with
  | form _ hform => simp [isText, hx] at hform
  | word hw htext hangle =>
    rw [hcontent]
    exact ⟨hw, ⟨htext, hangle⟩, rfl⟩

theorem toList_ne_plus {t : Token} (h : t.isOperand) (hkind : t.kind = .text) :
    t.content.toList ≠ ['+'] := by
  intro heq
  have hcontent : t.content = "+" := String.toList_injective heq
  simp [isOperand, isPlus, hkind, hcontent] at h

/-- A chain that was begun at `text` and has come as far as `rest`. So long as its operands are
texts, it is a phrase. -/
structure ChainAt (text : List Char) (chain : Token) (last : TokenKind) (rest : List Char) :
    Prop where
  kind : chain.kind = .text ∨ chain.kind = .quoted
  last_eq : chain.kind = .text → last = .text
  phrase : chain.kind = .text → Phrase chain.content.toList
  stops : chain.kind = .text → Stops chain.content.toList rest
  head : chain.kind = .text → text.head? = chain.content.toList.head?
  firstKind_eq : chain.kind = .text → firstKind text = some .text

section Chains

variable {x : Lexeme} {text rest markup : List Char} {t chain : Token} {last : TokenKind}
  {ts us : List Token}

theorem chainAt_operand (hx : ReadAs x rest t) (hts : Reads rest ts) (hoperand : t.isOperand) :
    ChainAt (x.chars ++ rest) t t.kind rest := by
  refine ⟨kind_of_isOperand hoperand, id, fun hkind => ?_, fun hkind => ?_, fun hkind => ?_,
    fun hkind => ?_⟩
  · exact .word (hx.isWord hkind).1 (toList_ne_plus hoperand hkind)
  · exact (hx.isWord hkind).2.1
  · rw [(hx.isWord hkind).2.2, List.head?_append_of_ne_nil _ hx.before.ne_nil]
  · rw [(Reads.cons hx hts).firstKind_eq, hkind]

theorem ChainAt.append {y : Lexeme} {after : List Char} {operand : Token}
    (h : ChainAt text chain last rest) (hy : ReadAs y after operand)
    (hoperand : operand.isOperand) :
    ChainAt text (append chain last operand) operand.kind after := by
  rcases kind_of_isOperand hoperand with hkind | hkind
  · have happend : (chain.append last operand).kind = chain.kind := by
      simp [Token.append, hkind]
    have hcontent : chain.kind = .text → (chain.append last operand).content.toList =
        chain.content.toList ++ ' ' :: operand.content.toList := by
      intro hc
      simp [Token.append, hkind, h.last_eq hc]
    obtain ⟨hword, hstops, -⟩ := hy.isWord hkind
    have hlast : ∀ p : List Char, (p ++ ' ' :: operand.content.toList).getLast? =
        operand.content.toList.getLast? := by
      intro p
      rw [List.getLast?_append_of_ne_nil _ (by simp), List.getLast?_cons_of_ne_nil hword.ne_nil]
    constructor <;> rw [happend]
    · exact h.kind
    · exact fun _ => hkind
    · intro hc
      rw [hcontent hc]
      exact (h.phrase hc).snoc hword (toList_ne_plus hoperand hkind)
    · intro hc
      rw [hcontent hc]
      exact ⟨hstops.no_text, hlast _ ▸ hstops.no_angle⟩
    · intro hc
      rw [hcontent hc, List.head?_append_of_ne_nil _ (h.phrase hc).ne_nil, h.head hc]
    · exact h.firstKind_eq
  · have happend : (chain.append last operand).kind = .quoted := by
      simp [Token.append, hkind]
    constructor <;> rw [happend] <;> simp

/-- A chain is followed up to where nothing more can be joined. -/
theorem ChainAt.extend (h : ChainAt text chain last rest) (hts : Reads rest ts) :
    ∃ last' rest', ChainAt text (extend chain last ts).1 last' rest' ∧
      Reads rest' (extend chain last ts).2 ∧ nextOperand? (extend chain last ts).2 = none := by
  fun_induction Token.extend chain last ts generalizing rest with
  | case1 chain last ts operand more hnext _ ih =>
    obtain ⟨gap, plus, spacing, hbridge, rfl⟩ := exists_bridge hnext
    obtain ⟨_, hplus⟩ := hts.of_append
    obtain ⟨_, _, -, -, hspacing⟩ := hplus.cons_inv
    obtain ⟨_, hoperand⟩ := hspacing.of_append
    obtain ⟨y, after, -, hy, hmore⟩ := hoperand.cons_inv
    exact ih (h.append hy hbridge.isOperand) hmore
  | case2 chain last ts hnext => exact ⟨last, rest, h, hts, hnext⟩

theorem rereads_phrase (hx : ReadAs x rest t) (hts : Reads rest ts) (hoperand : t.isOperand)
    {after : List Char} {more : List Token} (hchain : ChainAt (x.chars ++ rest) chain last after)
    (hkind : chain.kind = .text) (hnext : nextOperand? more = none)
    (h : Rereads after more markup us) :
    Rereads (x.chars ++ rest) (t :: ts) (chain.kind.write chain.content.toList ++ markup)
      (resume chain us) := by
  have hresume : resume chain us = phrase chain.content.toList ++ us := by rw [resume, hkind]
  have hwrite : chain.kind.write chain.content.toList = chain.content.toList := by
    rw [hkind]
    rfl
  have hphrase := hchain.phrase hkind
  have hstop := h.ahead.nextOperand?_eq_none hnext
  rw [hresume, hwrite]
  have hreads := reads_phrase hphrase (h.begins.stops (hchain.stops hkind)) h.reads
  have hsettled := settled_phrase hphrase hstop h.settled
  have hhead : (x.chars ++ rest).head? = (chain.content.toList ++ markup).head? := by
    rw [hchain.head hkind, List.head?_append_of_ne_nil _ hphrase.ne_nil]
  have htext : t.kind = .text := by
    have hfirst := hchain.firstKind_eq hkind
    rw [(Reads.cons hx hts).firstKind_eq] at hfirst
    exact Option.some.inj hfirst
  obtain ⟨w, -, ws, -, heq, -, hplus⟩ := hphrase.exists_word
  rw [heq] at hreads hsettled ⊢
  have hword := isOperand_word hplus
  exact ⟨hreads, begins_of_reads (.cons hx hts) hreads htext hhead, hsettled,
    .stop (by rw [hoperand, hword]) (stops_of_isOperand hoperand) (stops_of_isOperand hword) _ _⟩

theorem isOperand_of_quoted {u : Token} (h : u.kind = .quoted) : u.isOperand := by
  simp [isOperand, h]

theorem settled_glue (t : Token) (hnext : nextOperand? us = none) (hus : Settled us) :
    Settled (glue t us) := by
  cases us with
  | nil => exact ⟨fun _ => hnext, trivial⟩
  | cons u us =>
    by_cases hu : u.kind = .quoted
    · rw [glue, if_pos hu]
      exact ⟨fun _ => hus.1 (isOperand_of_quoted hu), hus.2⟩
    · rw [glue, if_neg hu]
      exact ⟨fun _ => hnext, hus⟩

theorem exists_glue (hkind : chain.kind = .quoted) (us : List Token) :
    ∃ u more, glue chain us = u :: more ∧ u.kind = .quoted := by
  cases us with
  | nil => exact ⟨chain, [], rfl, hkind⟩
  | cons u us =>
    by_cases hu : u.kind = .quoted
    · exact ⟨_, us, by rw [glue, if_pos hu], rfl⟩
    · exact ⟨chain, u :: us, by rw [glue, if_neg hu], hkind⟩

theorem rereads_quoted (hx : ReadAs x rest t) (hts : Reads rest ts) (hoperand : t.isOperand)
    {after : List Char} {more : List Token} (hkind : chain.kind = .quoted)
    (hnext : nextOperand? more = none) (h : Rereads after more markup us) :
    Rereads (x.chars ++ rest) (t :: ts) (chain.kind.write chain.content.toList ++ markup)
      (resume chain us) := by
  have hresume : resume chain us = glue chain us := by rw [resume, hkind]
  have hstop := h.ahead.nextOperand?_eq_none hnext
  have hreads := reads_glue hkind h.reads
  have hsettled := settled_glue chain hstop h.settled
  have hsource := Reads.cons hx hts
  obtain ⟨u, vs, heq, hu⟩ := exists_glue hkind us
  have hquote : (chain.kind.write chain.content.toList ++ markup).head? = some '"' := by
    rw [hkind]
    rfl
  rw [hresume]
  rw [heq] at hreads hsettled ⊢
  refine ⟨hreads, ?_, hsettled, .stop (by rw [hoperand, isOperand_of_quoted hu])
    (stops_of_isOperand hoperand) (stops_of_isOperand (isOperand_of_quoted hu)) _ _⟩
  rcases kind_of_isOperand hoperand with ht | ht
  · obtain ⟨hword, -, hchars⟩ := hx.isWord ht
    rw [hchars] at hword
    obtain ⟨c, cs, hcs⟩ := List.exists_cons_of_ne_nil hword.ne_nil
    have hfirst := hsource.firstKind_eq
    obtain ⟨ds, hds⟩ := List.head?_eq_some_iff.mp hquote
    rw [hds]
    rw [hcs, List.cons_append, ht] at hfirst
    rw [hcs]
    exact .quote hfirst (hword.chars c (by simp [hcs]))
  · refine begins_of_reads hsource hreads (ht.trans hu.symm) ?_
    rw [hquote, hx.head?_write [], ht]
    rfl

end Chains

/-- What becomes of the tokens of any text. -/
theorem rereads_merge {text : List Char} {ts : List Token} (h : Reads text ts) :
    Rereads text ts (markup (mergeConcatenations ts)) (reread (mergeConcatenations ts)) := by
  induction hn : ts.length using Nat.strong_induction_on generalizing text ts with
  | _ n ih =>
    cases h with
    | nil =>
      rw [mergeConcatenations]
      exact rereads_nil
    | @cons x rest t ts hx hts =>
      rw [List.length_cons] at hn
      cases hoperand : t.isOperand with
      | true =>
        have hle := extend_length_le t t.kind ts
        obtain ⟨last, after, hchain, hafter, hnext⟩ := (chainAt_operand hx hts hoperand).extend hts
        have hrest := ih _ (by omega) hafter rfl
        rw [merge_operand hoperand]
        rcases hchain.kind with hkind | hkind
        · exact rereads_phrase hx hts hoperand hchain hkind hnext hrest
        · exact rereads_quoted hx hts hoperand hkind hnext hrest
      | false =>
        rw [merge_other hoperand]
        exact rereads_other hx hts hoperand (ih _ (by omega) hts rfl)

end Token

open Token

/-- The tokens of rendered tokens. -/
theorem map_bare_lex_detokenize (source : String) :
    (lex (detokenize (lex source))).map bare = (reread (lex source)).map bare := by
  have hrereads := rereads_merge (reads_tokenize source)
  have hreads : Reads (detokenize (lex source)).toList (reread (lex source)) := by
    rw [toList_detokenize]
    exact hrereads.reads
  have hsettled : mergeConcatenations (reread (lex source)) = reread (lex source) :=
    merge_of_settled hrereads.settled
  rw [lex, map_bare_merge hreads.map_bare_tokenize, hsettled]

end CampaignMarkup
