import CampaignMarkup.Proofs.Comment.Tokens
import CampaignMarkup.Proofs.Token.Layout

/-! # Lines of a text and of its tokens

The lines of a text are counted without a look at its tokens. Still every line break is a token of
its own or stands inside a string, a raw string or a call: no token ends between a carriage return
and its line feed. -/
namespace CampaignMarkup

open Chars Text

/-! ## Lines and offsets -/

namespace LineMap

variable {m : LineMap} {line other offset : Nat}

/-- The offset is in this line: not before its start, and before the start of the next one. -/
def Holds (m : LineMap) (line offset : Nat) : Prop :=
  ∃ start, m.starts[line]? = some start ∧ start ≤ offset ∧
    ∀ next, m.starts[line + 1]? = some next → offset < next

theorem startsFrom_increasing (offset : Nat) (cs : List Char) :
    (startsFrom offset cs).Pairwise (· < ·) := by
  fun_induction startsFrom offset cs with
  | case1 => exact .nil
  | case2 offset cs ih => exact List.pairwise_cons.mpr ⟨fun _ => lt_of_mem_startsFrom, ih⟩
  | case3 offset c cs _ after _ ih =>
    exact List.pairwise_cons.mpr ⟨fun _ => lt_of_mem_startsFrom, ih⟩
  | case4 offset c cs _ after _ ih => exact ih

theorem starts_increasing (source : String) : (ofText source).starts.Pairwise (· < ·) :=
  List.pairwise_cons.mpr ⟨fun _ => lt_of_mem_startsFrom, startsFrom_increasing 0 _⟩

/-- There is a line at or before every offset, so that the count of the starts can be lowered. -/
theorem length_takeWhile_starts_pos (source : String) (offset : Nat) :
    0 < ((ofText source).starts.takeWhile (· ≤ offset)).length := by
  rw [ofText, List.takeWhile_cons_of_pos (by simp), List.length_cons]
  exact Nat.succ_pos _

theorem holds_lineOf (hpos : 0 < (m.starts.takeWhile (· ≤ offset)).length) :
    m.Holds (m.lineOf offset) offset := by
  obtain ⟨before, start, hbefore⟩ :=
    (List.eq_nil_or_concat (m.starts.takeWhile (· ≤ offset))).resolve_left
      (List.length_pos_iff.mp hpos)
  have hstarts := List.takeWhile_append_dropWhile (p := (· ≤ offset)) (l := m.starts)
  have hstart : start ≤ offset := by
    have hmem : start ∈ m.starts.takeWhile (· ≤ offset) := by simp [hbefore]
    simpa using List.mem_takeWhile_imp hmem
  have hline : m.lineOf offset = before.length := by simp [lineOf, hbefore]
  rw [hbefore] at hstarts
  refine ⟨start, ?_, hstart, fun next hnext => ?_⟩
  · rw [hline, ← hstarts]
    simp
  · rw [hline, ← hstarts, List.getElem?_append_right (by simp)] at hnext
    have hhead : (m.starts.dropWhile (· ≤ offset)).head? = some next := by
      simpa [List.head?_eq_getElem?] using hnext
    have hnot := List.head?_dropWhile_not (· ≤ offset) m.starts
    rw [hhead] at hnot
    simpa using hnot

theorem Holds.not_lt (hm : m.starts.Pairwise (· < ·)) (h : m.Holds line offset)
    (h' : m.Holds other offset) : ¬ line < other := by
  intro hlt
  obtain ⟨-, -, -, hnext⟩ := h
  obtain ⟨start, hstart, hle, -⟩ := h'
  obtain ⟨hother, rfl⟩ := List.getElem?_eq_some_iff.mp hstart
  have hbetween : offset < m.starts[line + 1] :=
    hnext _ (List.getElem?_eq_getElem (Nat.lt_of_le_of_lt hlt hother))
  have hordered : m.starts[line + 1] ≤ m.starts[other] := by
    rcases Nat.lt_or_eq_of_le (show line + 1 ≤ other from hlt) with hlt | rfl
    · exact Nat.le_of_lt (List.pairwise_iff_getElem.mp hm _ _ _ hother hlt)
    · exact Nat.le_refl _
  omega

/-- An offset is in one line. -/
theorem Holds.unique (hm : m.starts.Pairwise (· < ·)) (h : m.Holds line offset)
    (h' : m.Holds other offset) : line = other :=
  Nat.le_antisymm (Nat.le_of_not_lt (h'.not_lt hm h)) (Nat.le_of_not_lt (h.not_lt hm h'))

theorem holds_iff (source : String) :
    (ofText source).Holds line offset ↔ ((ofText source).position offset).line = line := by
  have hholds := holds_lineOf (length_takeWhile_starts_pos source offset)
  constructor
  · exact fun h => hholds.unique (starts_increasing source) h
  · rintro rfl
    exact hholds

/-- The column is what is left of the offset behind the start of its line. -/
theorem start_add_column (source : String) (offset : Nat) :
    ∃ start, (ofText source).starts[((ofText source).position offset).line]? = some start ∧
      start + ((ofText source).position offset).column = offset := by
  obtain ⟨start, hstart, hle, -⟩ := holds_lineOf (length_takeWhile_starts_pos source offset)
  refine ⟨start, hstart, ?_⟩
  rw [position, List.getD_eq_getElem?_getD, hstart, Option.getD_some]
  exact Nat.add_sub_cancel' hle

/-- A start is found in its own line. -/
theorem holds_of_found {source : String}
    (h : (ofText source).starts[line]? = some offset) : (ofText source).Holds line offset := by
  refine ⟨offset, h, Nat.le_refl offset, fun next hnext => ?_⟩
  obtain ⟨hline, rfl⟩ := List.getElem?_eq_some_iff.mp h
  obtain ⟨hafter, rfl⟩ := List.getElem?_eq_some_iff.mp hnext
  exact List.pairwise_iff_getElem.mp (starts_increasing source) line (line + 1) hline hafter
    (Nat.lt_succ_self line)

/-- An offset that would be put in between two starts, or behind the last one, is in the line before
that place. -/
theorem holds_of_missing {source : String} {place : Nat}
    (hplace : place ≤ (ofText source).starts.length)
    (hbefore : ∀ start ∈ (ofText source).starts.take place, start < offset)
    (hafter : ∀ start ∈ (ofText source).starts.drop place, offset < start) :
    ∃ line, place = line + 1 ∧ (ofText source).Holds line offset := by
  cases place with
  | zero =>
    have hzero : 0 ∈ (ofText source).starts.drop 0 := List.mem_cons_self
    exact absurd (hafter 0 hzero) (Nat.not_lt_zero offset)
  | succ line =>
    have hstart := List.getElem?_eq_getElem (Nat.lt_of_succ_le hplace)
    refine ⟨line, rfl, _, hstart, Nat.le_of_lt (hbefore _ ?_), fun next hnext => hafter _ ?_⟩
    · rw [List.mem_take_iff_getElem]
      exact ⟨line, by omega, rfl⟩
    · rw [List.mem_iff_getElem?]
      exact ⟨0, by rw [List.getElem?_drop]; exact hnext⟩

end LineMap

/-! ## Line breaks -/

/-- The bytes of a line break in a text that begins at byte `offset`. The feed of a pair is no break
of its own. -/
def BreakAt (offset : Nat) (cs : List Char) (span : Span) : Prop :=
  ∃ before piece rest, cs = before ++ (piece ++ rest) ∧ IsBreak piece rest ∧
    (piece = ['\n'] → before.getLast? ≠ some '\r') ∧
    span = ⟨offset + byteSize before, offset + byteSize before + byteSize piece⟩

/-- The byte lies inside the span, so that a cut there would tear the span apart. -/
def Span.Straddles (span : Span) (n : Nat) : Prop :=
  span.start < n ∧ n < span.stop

/-- No return is cut off its feed here. -/
def Seam (front after : List Char) : Prop :=
  front.getLast? = some '\r' → after.head? ≠ some '\n'

section Breaks

variable {front before piece after rest cs : List Char} {span span' : Span} {c : Char}
  {offset n : Nat}

theorem Seam.right (h : Seam (front ++ piece) after) : Seam piece after := by
  intro hlast
  exact h (by rw [List.getLast?_append, hlast, Option.some_or])

theorem Seam.left (h : Seam piece after) (hne : piece ≠ []) : Seam (front ++ piece) after := by
  rw [Seam, List.getLast?_append_of_ne_nil _ hne]
  exact h

theorem seam_nil_right : Seam front [] := by
  simp [Seam]

theorem seam_of_not_mem (h : '\r' ∉ front) : Seam front after :=
  fun hlast => absurd (List.mem_of_getLast? hlast) h

theorem seam_closed (opening content closing : List Char) (hne : closing ≠ [])
    (h : '\r' ∉ closing) : Seam (opening ++ (content ++ closing)) after := by
  rw [← List.append_assoc]
  exact (seam_of_not_mem h).left hne

theorem IsBreak.ne_nil (h : IsBreak piece rest) : piece ≠ [] := by
  cases h <;> simp

theorem IsBreak.seam (h : IsBreak piece rest) : Seam piece rest := by
  cases h with
  | returnAndFeed => exact fun hlast => absurd hlast (by decide)
  | single _ hpair => exact fun hlast => hpair (by simpa using hlast)

theorem IsBreak.exists_mem (h : IsBreak piece rest) : ∃ c ∈ piece, isLineBreak c := by
  cases h with
  | returnAndFeed => exact ⟨'\r', by simp, by decide⟩
  | single hc _ => exact ⟨_, List.mem_singleton_self _, hc⟩

theorem IsBreak.append (h : IsBreak piece rest) (hseam : Seam (piece ++ rest) after) :
    IsBreak piece (rest ++ after) := by
  cases h with
  | returnAndFeed => exact .returnAndFeed
  | single hc hpair =>
    refine .single hc fun hreturn hhead => ?_
    cases rest with
    | nil => exact hseam (by simp [hreturn]) hhead
    | cons d rest => exact hpair hreturn hhead

/-- A break that begins in front of a seam ends there. -/
theorem IsBreak.split (h : IsBreak piece rest) (htext : front ++ after = piece ++ rest)
    (hne : front ≠ []) (hseam : Seam front after) :
    ∃ inner, front = piece ++ inner ∧ IsBreak piece inner := by
  obtain ⟨d, front, rfl⟩ := List.exists_cons_of_ne_nil hne
  cases h with
  | returnAndFeed =>
    obtain ⟨rfl, hfeed⟩ : d = '\r' ∧ front ++ after = '\n' :: rest := by simpa using htext
    cases front with
    | nil => exact absurd (congrArg List.head? hfeed) (hseam rfl)
    | cons e front =>
      obtain rfl : e = '\n' := (List.cons.inj hfeed).1
      exact ⟨front, rfl, .returnAndFeed⟩
  | single hc hpair =>
    obtain ⟨rfl, rfl⟩ : d = _ ∧ front ++ after = rest := by simpa using htext
    refine ⟨front, rfl, .single hc fun hreturn hhead => hpair hreturn ?_⟩
    rw [List.head?_append, hhead, Option.some_or]

/-- At a seam the breaks of a text fall into those in front and those behind. -/
theorem breakAt_append (h : Seam front after) :
    BreakAt offset (front ++ after) span ↔
      BreakAt offset front span ∨ BreakAt (offset + byteSize front) after span := by
  constructor
  · rintro ⟨before, piece, rest, htext, hbreak, hlone, rfl⟩
    have hbehind : ∀ gap, before = front ++ gap → after = gap ++ (piece ++ rest) →
        BreakAt (offset + byteSize front) after
          ⟨offset + byteSize before, offset + byteSize before + byteSize piece⟩ := by
      rintro gap rfl rfl
      refine ⟨gap, piece, rest, rfl, hbreak, fun hfeed hlast => hlone hfeed ?_, ?_⟩
      · rw [List.getLast?_append, hlast, Option.some_or]
      · simp only [byteSize_append, Nat.add_assoc]
    rcases List.append_eq_append_iff.mp htext with ⟨gap, hbefore, hafter⟩ | ⟨tail, rfl, htail⟩
    · exact .inr (hbehind gap hbefore hafter)
    by_cases hnil : tail = []
    · subst hnil
      exact .inr (hbehind [] (by simp) (by simpa using htail.symm))
    · obtain ⟨inner, rfl, hinner⟩ := hbreak.split htail.symm hnil h.right
      exact .inl ⟨before, piece, inner, rfl, hinner, hlone, rfl⟩
  · rintro (⟨before, piece, rest, rfl, hbreak, hlone, rfl⟩ |
      ⟨gap, piece, rest, rfl, hbreak, hlone, rfl⟩)
    · exact ⟨before, piece, rest ++ after, by simp, hbreak.append h.right, hlone, rfl⟩
    · refine ⟨front ++ gap, piece, rest, by simp, hbreak, fun hfeed hlast => ?_, ?_⟩
      · subst hfeed
        cases gap with
        | nil => exact h (by simpa using hlast) rfl
        | cons d gap =>
          rw [List.getLast?_append_of_ne_nil _ (by simp)] at hlast
          exact hlone rfl hlast
      · simp only [byteSize_append, Nat.add_assoc]

theorem not_breakAt (h : ∀ c ∈ cs, isLineBreak c = false) : ¬ BreakAt offset cs span := by
  rintro ⟨before, piece, rest, rfl, hbreak, -, -⟩
  obtain ⟨c, hc, hline⟩ := hbreak.exists_mem
  rw [h c (by simp [hc])] at hline
  cases hline

/-- A break is the only one in itself. -/
theorem breakAt_self (h : IsBreak piece rest) :
    BreakAt offset piece span ↔ span = ⟨offset, offset + byteSize piece⟩ := by
  constructor
  · rintro ⟨before, inner, behind, htext, hinner, hlone, rfl⟩
    cases before with
    | nil =>
      have hsame : inner = piece := by
        cases h with
        | returnAndFeed =>
          cases hinner with
          | returnAndFeed => rfl
          | single _ hpair =>
            obtain ⟨rfl, rfl⟩ : '\r' = _ ∧ ['\n'] = behind := by simpa using htext
            exact absurd rfl (hpair rfl)
        | single _ _ =>
          cases hinner with
          | returnAndFeed => simp at htext
          | single _ _ => rw [(List.cons.inj htext).1]
      rw [hsame, byteSize_nil, Nat.add_zero]
    | cons d before =>
      -- behind the first character of a break stands a feed at most
      obtain ⟨e, inner, rfl⟩ := List.exists_cons_of_ne_nil hinner.ne_nil
      cases h with
      | returnAndFeed =>
        obtain ⟨rfl, hfeed⟩ : d = '\r' ∧ before ++ e :: (inner ++ behind) = ['\n'] := by
          simpa using htext.symm
        obtain ⟨rfl, rfl, rfl, -⟩ : before = [] ∧ e = '\n' ∧ inner = [] ∧ behind = [] := by
          simpa [List.append_eq_singleton_iff] using hfeed
        exact absurd rfl (hlone rfl)
      | single _ _ => simp at htext
  · rintro rfl
    have hwhole : IsBreak piece [] := by
      cases h with
      | returnAndFeed => exact .returnAndFeed
      | single hc _ => exact .single hc (by simp)
    exact ⟨[], piece, [], by simp, hwhole, by simp, by simp⟩

theorem BreakAt.bounds (h : BreakAt offset cs span) :
    offset ≤ span.start ∧ span.start < span.stop ∧ span.stop ≤ offset + byteSize cs := by
  obtain ⟨before, piece, rest, rfl, hbreak, -, rfl⟩ := h
  have hpos := byteSize_pos hbreak.ne_nil
  simp only [byteSize_append]
  omega

/-- A feed behind a return does not stand alone. -/
theorem not_half {before before' : List Char} (htext : before ++ ['\r', '\n'] = before' ++ [c])
    (hlone : [c] = ['\n'] → before'.getLast? ≠ some '\r') : False := by
  obtain ⟨rfl, hfeed⟩ : before ++ ['\r'] = before' ∧ ['\n'] = [c] :=
    List.append_inj' (by simpa using htext) rfl
  exact hlone hfeed.symm (by simp)

/-- No break lies across a seam. -/
theorem BreakAt.not_straddles (h : BreakAt 0 (front ++ after) span) (hseam : Seam front after) :
    ¬ span.Straddles (byteSize front) := by
  rintro ⟨hstart, hstop⟩
  rcases (breakAt_append hseam).mp h with hfront | hafter
  · have := hfront.bounds
    omega
  · have := hafter.bounds
    omega

/-- Breaks that end at the same byte are the same. -/
theorem BreakAt.eq_of_stop (h : BreakAt offset cs span) (h' : BreakAt offset cs span')
    (hstop : span.stop = span'.stop) : span = span' := by
  obtain ⟨before, piece, rest, rfl, hbreak, hlone, rfl⟩ := h
  obtain ⟨before', piece', rest', htext, hbreak', hlone', rfl⟩ := h'
  have hsize : byteSize (before ++ piece) = byteSize (before' ++ piece') := by
    simp only [byteSize_append] at hstop ⊢
    omega
  have hfront : before ++ piece = before' ++ piece' := by
    have htaken := takeBytes_append (before ++ piece) rest
    rw [hsize, List.append_assoc, htext, ← List.append_assoc, takeBytes_append] at htaken
    exact htaken.symm
  have hsame : piece = piece' := by
    cases hbreak with
    | returnAndFeed =>
      cases hbreak' with
      | returnAndFeed => rfl
      | single _ _ => exact absurd hlone' (not_half hfront)
    | single _ _ =>
      cases hbreak' with
      | returnAndFeed => exact absurd hlone (not_half hfront.symm)
      | single _ _ => exact (List.append_inj' hfront rfl).2
  subst hsame
  rw [List.append_left_injective piece hfront]

end Breaks

namespace LineMap

theorem exists_breakAt_append {piece rest : List Char} {offset n : Nat}
    (h : IsBreak piece rest) :
    (∃ start, BreakAt offset (piece ++ rest) ⟨start, n⟩) ↔ n = offset + byteSize piece ∨
      ∃ start, BreakAt (offset + byteSize piece) rest ⟨start, n⟩ := by
  simp only [breakAt_append h.seam, breakAt_self h, Span.mk.injEq, exists_or, exists_eq_left]

/-- A line starts behind each break of the text. -/
theorem mem_startsFrom {offset n : Nat} {cs : List Char} :
    n ∈ startsFrom offset cs ↔ ∃ start, BreakAt offset cs ⟨start, n⟩ := by
  fun_induction startsFrom offset cs with
  | case1 => simp [not_breakAt]
  | case2 offset cs ih =>
    rw [List.mem_cons, ih]
    exact (exists_breakAt_append .returnAndFeed).symm
  | case3 offset c cs hpair after hc ih =>
    have hbreak : IsBreak [c] cs := by
      refine .single hc fun hreturn hhead => ?_
      obtain ⟨rest, rfl⟩ := List.head?_eq_some_iff.mp hhead
      exact hpair rest hreturn rfl
    rw [List.mem_cons, ih]
    exact (exists_breakAt_append hbreak).symm
  | case4 offset c cs hpair after hc ih =>
    have hplain : ∀ d ∈ [c], isLineBreak d = false := by simpa using hc
    have hseam : Seam [c] cs := seam_of_not_mem fun hmem => absurd (hplain _ hmem) (by decide)
    rw [ih]
    refine exists_congr fun start => ?_
    exact ((breakAt_append hseam).trans (or_iff_right (not_breakAt hplain))).symm

end LineMap

/-! ## Breaks in tokens -/

namespace Lexeme

variable {x : Lexeme} {rest : List Char}

theorem IsWord.unbroken {w : List Char} (h : IsWord w) : ∀ c ∈ w, isLineBreak c = false := by
  intro c hc
  rcases h.chars c hc with hplain | rfl
  · exact (isPlain_iff.mp hplain).1
  · decide

/-- A piece is a line break, or holds none, or stands between delimiters. -/
theorem PieceBefore.breaks (h : x.PieceBefore rest) :
    match x.shape.kind with
    | .endOfLine => IsBreak x.chars rest
    | .comment | .whitespace | .text => ∀ c ∈ x.chars, isLineBreak c = false
    | .quoted | .rawQuoted | .macroCall => Seam x.chars rest := by
  cases h with
  | word hw _ _ =>
    rw [kind_wordShape]
    exact hw.unbroken
  | form hcut htext =>
    cases hcut with
    | comment hbody _ => exact List.forall_mem_cons.mpr ⟨by decide, hbody⟩
    | returnAndFeed => exact IsBreak.returnAndFeed
    | lineBreak hbreak hpair => exact IsBreak.single hbreak hpair
    | whitespace _ hgap _ => exact fun c hc => Token.isLineBreak_of_isGap (hgap c hc)
    | loneAngle _ => cases htext
    | text _ _ _ => cases htext
    | quoted _ => exact seam_closed ['"'] _ ['"'] (by simp) (by decide)
    | rawQuoted _ => exact seam_closed ['<', '<'] _ ['>', '>'] (by simp) (by decide)
    | macroCall _ => exact seam_closed ['{'] _ ['}'] (by simp) (by decide)
    | openQuoted => exact seam_nil_right
    | openRawQuoted _ => exact seam_nil_right
    | openMacroCall _ => exact seam_nil_right

theorem PieceBefore.seam (h : x.PieceBefore rest) : Seam x.chars rest := by
  have hbreaks := h.breaks
  have hplain : (∀ c ∈ x.chars, isLineBreak c = false) → Seam x.chars rest :=
    fun hplain => seam_of_not_mem fun hmem => absurd (hplain _ hmem) (by decide)
  split at hbreaks
  · exact hbreaks.seam
  all_goals first | exact hbreaks | exact hplain hbreaks

end Lexeme

namespace Token

/-- The line breaks of a token of the source: the token itself, or those between its delimiters. -/
def BreakIn (source : String) (t : Token) (span : Span) : Prop :=
  match t.kind with
  | .endOfLine => span = t.span
  | .quoted | .rawQuoted | .macroCall => BreakAt t.span.start (t.slice source) span
  | .comment | .whitespace | .text => False

variable {source : String} {before text : List Char} {x : Lexeme} {xs : List Lexeme} {span : Span}

theorem breakIn_ofLexeme {rest : List Char} {start : Nat} (h : x.PieceBefore rest)
    (hslice : (ofLexeme x start (start + x.byteSize)).slice source = x.chars) :
    (ofLexeme x start (start + x.byteSize)).BreakIn source span ↔ BreakAt start x.chars span := by
  have hbreaks := h.breaks
  have hkind : (ofLexeme x start (start + x.byteSize)).kind = x.shape.kind := rfl
  rw [BreakIn, hkind, hslice]
  revert hbreaks
  cases x.shape.kind with
  | endOfLine => exact fun hbreak => (breakAt_self hbreak).symm
  | comment | whitespace | text => exact fun hplain => (iff_false_intro (not_breakAt hplain)).symm
  | quoted | rawQuoted | macroCall => exact fun _ => Iff.rfl

/-- Piece by piece: each break of the text is one of its own piece. -/
theorem breakAt_ofLexemes (h : Lexeme.Pieces text xs) (hsource : source.toList = before ++ text) :
    BreakAt (byteSize before) text span ↔
      ∃ t ∈ ofLexemes (byteSize before) xs, t.BreakIn source span := by
  induction h generalizing before with
  | nil => simp [ofLexemes, not_breakAt]
  | @cons x rest xs hx hrest ih =>
    have hslice : (ofLexeme x (byteSize before) (byteSize before + x.byteSize)).slice source =
        x.chars := by
      rw [slice, hsource]
      exact cut_append before x.chars rest
    have hnext := @ih (before ++ x.chars) (by rw [hsource, List.append_assoc])
    rw [byteSize_append] at hnext
    rw [breakAt_append hx.seam, hnext, ← breakIn_ofLexeme hx hslice]
    simp only [ofLexemes, List.mem_cons, exists_eq_or_imp]
    rfl

theorem breakAt_tokenize (source : String) (span : Span) :
    BreakAt 0 source.toList span ↔ ∃ t ∈ tokenize source, t.BreakIn source span :=
  breakAt_ofLexemes (Lexeme.pieces_fuse_scan source.toList) (List.nil_append _).symm

/-- No token begins or ends inside a break. -/
theorem not_straddles_ofLexemes (h : Lexeme.Pieces text xs) (hseam : Seam before text)
    (hbreak : BreakAt 0 (before ++ text) span) :
    ∀ t ∈ ofLexemes (byteSize before) xs,
      ¬ span.Straddles t.span.start ∧ ¬ span.Straddles t.span.stop := by
  induction h generalizing before with
  | nil => simp [ofLexemes]
  | @cons x rest xs hx hrest ih =>
    have hnext : Seam (before ++ x.chars) rest := hx.seam.left hx.ne_nil
    have hbehind : BreakAt 0 (before ++ x.chars ++ rest) span := by rwa [List.append_assoc]
    rw [ofLexemes]
    refine List.forall_mem_cons.mpr ⟨⟨hbreak.not_straddles hseam, ?_⟩, ?_⟩
    · have hstop := hbehind.not_straddles hnext
      rwa [byteSize_append] at hstop
    · have hrest := ih hnext hbehind
      rwa [byteSize_append] at hrest

theorem not_straddles_tokenize {source : String} (h : BreakAt 0 source.toList span) :
    ∀ t ∈ tokenize source, ¬ span.Straddles t.span.start ∧ ¬ span.Straddles t.span.stop := by
  have hseam : Seam [] source.toList := fun hlast => absurd hlast (by decide)
  exact not_straddles_ofLexemes (Lexeme.pieces_fuse_scan source.toList) hseam h

end Token

/-- The lines of a text start at increasing places, the first at 0 and the others behind its breaks,
one behind each. A position names the line that holds the offset, and the bytes behind its start:
that is the line found among the starts, or else the one before the place where the offset would
stand. The breaks are the tokens of that kind with the breaks between delimiters, and none lies
across the ends of a token. -/
theorem line_positions_agree_with_tokens (source : String) :
    ((LineMap.ofText source).starts.head? = some 0 ∧
      (LineMap.ofText source).starts.Pairwise (· < ·)) ∧
    (∀ offset line, ((LineMap.ofText source).position offset).line = line ↔
      (LineMap.ofText source).Holds line offset) ∧
    (∀ offset, ∃ start,
      (LineMap.ofText source).starts[((LineMap.ofText source).position offset).line]? =
        some start ∧
      start + ((LineMap.ofText source).position offset).column = offset) ∧
    (∀ offset line, (LineMap.ofText source).starts[line]? = some offset →
      ((LineMap.ofText source).position offset).line = line) ∧
    (∀ offset place, place ≤ (LineMap.ofText source).starts.length →
      (∀ start ∈ (LineMap.ofText source).starts.take place, start < offset) →
      (∀ start ∈ (LineMap.ofText source).starts.drop place, offset < start) →
      place = ((LineMap.ofText source).position offset).line + 1) ∧
    (∀ n, n ∈ (LineMap.ofText source).starts.tail ↔
      ∃ start, BreakAt 0 source.toList ⟨start, n⟩) ∧
    (∀ span span', BreakAt 0 source.toList span → BreakAt 0 source.toList span' →
      span.stop = span'.stop → span = span') ∧
    (∀ span, BreakAt 0 source.toList span ↔ ∃ t ∈ tokenize source, t.BreakIn source span) ∧
    ∀ span, BreakAt 0 source.toList span → ∀ t ∈ tokenize source,
      ¬ span.Straddles t.span.start ∧ ¬ span.Straddles t.span.stop := by
  refine ⟨⟨rfl, LineMap.starts_increasing source⟩, ?_, LineMap.start_add_column source, ?_, ?_,
    fun _ => LineMap.mem_startsFrom, fun _ _ h h' => h.eq_of_stop h',
    Token.breakAt_tokenize source, fun _ => Token.not_straddles_tokenize⟩
  · exact fun _ _ => (LineMap.holds_iff source).symm
  · exact fun _ _ hfound => (LineMap.holds_iff source).mp (LineMap.holds_of_found hfound)
  · intro offset place hplace hbefore hafter
    obtain ⟨line, rfl, hholds⟩ := LineMap.holds_of_missing hplace hbefore hafter
    rw [(LineMap.holds_iff source).mp hholds]

/-- A pair between lines and one in a string: the string holds the second break. -/
theorem string_over_two_lines :
    (LineMap.ofText "a\r\n\"b\r\n\"").starts = [0, 3, 7] ∧
      BreakAt 0 "a\r\n\"b\r\n\"".toList ⟨5, 7⟩ ∧
      ∃ t ∈ tokenize "a\r\n\"b\r\n\"", t.BreakIn "a\r\n\"b\r\n\"" ⟨5, 7⟩ := by
  have hbreak : BreakAt 0 "a\r\n\"b\r\n\"".toList ⟨5, 7⟩ :=
    ⟨"a\r\n\"b".toList, ['\r', '\n'], ['"'], rfl, .returnAndFeed, by decide, by decide⟩
  obtain ⟨-, -, -, -, -, -, -, htokens, -⟩ :=
    line_positions_agree_with_tokens "a\r\n\"b\r\n\""
  exact ⟨by decide, hbreak, (htokens _).mp hbreak⟩

end CampaignMarkup
