import CampaignMarkup.Proofs.Comment.Marks

/-! # Lexemes with marks

A blank behind a `#` ends no lexeme and begins none: the marked text is cut into lexemes once, and
both the plain and the spaced text fall into the same lexemes. Only comments, strings, raw strings
and calls can hold a mark. -/
namespace CampaignMarkup

namespace Comment

open Chars Text Lexeme

/-- `v` is `u` with `n` more characters in it. -/
structure Spread (n : Nat) (u v : List Char) : Prop where
  sublist : u.Sublist v
  length : v.length = u.length + n

namespace Spread

theorem refl (u : List Char) : Spread 0 u u :=
  ⟨.refl u, rfl⟩

theorem cons {n : Nat} {u v : List Char} (c : Char) (h : Spread n u v) :
    Spread n (c :: u) (c :: v) := by
  refine ⟨h.sublist.cons_cons c, ?_⟩
  rw [List.length_cons, List.length_cons, h.length]
  omega

theorem insert {n : Nat} {u v : List Char} (c d : Char) (h : Spread n u v) :
    Spread (n + 1) (c :: u) (c :: d :: v) := by
  refine ⟨(h.sublist.cons d).cons_cons c, ?_⟩
  rw [List.length_cons, List.length_cons, List.length_cons, h.length]
  omega

theorem append {k n : Nat} {u v s t : List Char} (h : Spread k u v) (h' : Spread n s t) :
    Spread (k + n) (u ++ s) (v ++ t) := by
  refine ⟨h.sublist.append h'.sublist, ?_⟩
  rw [List.length_append, List.length_append, h.length, h'.length]
  omega

theorem eq_iff {n : Nat} {u v : List Char} (h : Spread n u v) : u = v ↔ n = 0 := by
  constructor
  · rintro rfl
    have := h.length
    omega
  · rintro rfl
    exact h.sublist.eq_of_length h.length.symm

end Spread

namespace Marked

/-- Only `#`s are marked. -/
def Hashed (m : Marked) : Prop :=
  ∀ p ∈ m, p.2 → p.1 = '#'

theorem hashed_cons {p : Char × Bool} {m : Marked} :
    Hashed (p :: m) ↔ (p.2 → p.1 = '#') ∧ Hashed m :=
  List.forall_mem_cons

theorem hashed_append {m n : Marked} : Hashed (m ++ n) ↔ Hashed m ∧ Hashed n :=
  List.forall_mem_append

theorem Hashed.eq_unmarked {m : Marked} (h : Hashed m) (hno : '#' ∉ plain m) :
    m = unmarked (plain m) := by
  refine Marked.eq_unmarked fun p hp => ?_
  by_contra hmarked
  have hhash := h p hp (by simpa using hmarked)
  exact hno (hhash ▸ List.mem_map_of_mem hp)

@[simp] theorem count_unmarked (cs : List Char) : count (unmarked cs) = 0 := by
  simp [count, unmarked]

theorem spread_spaced (m : Marked) : Spread (count m) (plain m) (spaced m) := by
  induction m with
  | nil => exact .refl []
  | cons p m ih =>
    obtain ⟨c, marked⟩ := p
    cases marked with
    | true =>
      rw [count_cons_true]
      exact ih.insert c ' '
    | false =>
      rw [count_cons_false]
      exact ih.cons c

theorem mem_spaced {c : Char} {m : Marked} (h : c ∈ spaced m) : c ∈ plain m ∨ c = ' ' := by
  obtain ⟨p, hp, hc⟩ := List.mem_flatMap.mp h
  have hmem : p.1 ∈ plain m := List.mem_map_of_mem hp
  split at hc
  · rcases List.mem_pair.mp hc with rfl | rfl
    · exact .inl hmem
    · exact .inr rfl
  · rw [List.mem_singleton.mp hc]
    exact .inl hmem

theorem head?_spaced (m : Marked) : (spaced m).head? = (plain m).head? := by
  cases m with
  | nil => rfl
  | cons p m =>
    obtain ⟨c, marked⟩ := p
    cases marked <;> rfl

theorem undoubled_spaced {m : Marked} (hm : Hashed m) {cs : List Char}
    (h : Undoubled '>' (plain m ++ cs)) : Undoubled '>' (spaced m ++ cs) := by
  induction m with
  | nil => exact h
  | cons p m ih =>
    obtain ⟨c, marked⟩ := p
    obtain ⟨hp, hm'⟩ := hashed_cons.mp hm
    rw [plain_cons, List.cons_append] at h
    obtain ⟨hc, hrest⟩ := undoubled_cons.mp h
    cases marked with
    | true =>
      obtain rfl : c = '#' := hp rfl
      exact undoubled_cons.mpr ⟨by simp, undoubled_cons.mpr ⟨by simp, ih hm' hrest⟩⟩
    | false =>
      rw [spaced_cons_false, List.cons_append]
      refine undoubled_cons.mpr ⟨fun hangle => ?_, ih hm' hrest⟩
      rw [List.head?_append, head?_spaced, ← List.head?_append]
      exact hc hangle

theorem exists_cons_of_plain {m : Marked} {c : Char} {cs : List Char} (h : plain m = c :: cs) :
    ∃ marked m', m = (c, marked) :: m' ∧ plain m' = cs := by
  obtain ⟨⟨d, marked⟩, m', rfl, hd, hm'⟩ := List.map_eq_cons_iff.mp h
  cases hd
  exact ⟨marked, m', rfl, hm'⟩

theorem exists_doubleQuotes {m : Marked} (hm : Hashed m) {content : List Char}
    (h : plain m = doubleQuotes content) :
    ∃ content', spaced m = doubleQuotes content' ∧ Spread (count m) content content' := by
  induction content generalizing m with
  | nil =>
    obtain rfl := List.map_eq_nil_iff.mp h
    exact ⟨[], rfl, .refl []⟩
  | cons c content ih =>
    by_cases hc : c = '"'
    · subst hc
      obtain ⟨first, _, rfl, hfirst⟩ := exists_cons_of_plain h
      obtain ⟨second, m', rfl, hsecond⟩ := exists_cons_of_plain hfirst
      obtain ⟨h₁, hm₁⟩ := hashed_cons.mp hm
      obtain ⟨h₂, hm₂⟩ := hashed_cons.mp hm₁
      obtain rfl : first = false := by simpa using h₁
      obtain rfl : second = false := by simpa using h₂
      obtain ⟨content', hspaced, hspread⟩ := ih hm₂ hsecond
      refine ⟨'"' :: content', ?_, ?_⟩
      · rw [spaced_cons_false, spaced_cons_false, hspaced]
        rfl
      · rw [count_cons_false, count_cons_false]
        exact hspread.cons '"'
    · rw [doubleQuotes, if_neg hc] at h
      obtain ⟨marked, m', rfl, hm'⟩ := exists_cons_of_plain h
      obtain ⟨hmarked, hinner⟩ := hashed_cons.mp hm
      obtain ⟨content', hspaced, hspread⟩ := ih hinner hm'
      cases marked with
      | true =>
        obtain rfl : c = '#' := hmarked rfl
        refine ⟨'#' :: ' ' :: content', ?_, ?_⟩
        · rw [spaced_cons_true, hspaced]
          rfl
        · rw [count_cons_true]
          exact hspread.insert '#' ' '
      | false =>
        refine ⟨c :: content', ?_, ?_⟩
        · rw [spaced_cons_false, hspaced, doubleQuotes, if_neg hc]
        · rw [count_cons_false]
          exact hspread.cons c

/-- Delimiters hold no mark. -/
theorem exists_inner {m : Marked} (hm : Hashed m) {opening content closing : List Char}
    (hopening : '#' ∉ opening) (hclosing : '#' ∉ closing)
    (h : plain m = opening ++ (content ++ closing)) :
    ∃ inner, Hashed inner ∧ plain inner = content ∧
      spaced m = opening ++ (spaced inner ++ closing) ∧ count m = count inner := by
  obtain ⟨front, back, rfl, hfront, hback⟩ := List.map_eq_append_iff.mp h
  obtain ⟨inner, last, rfl, hinner, hlast⟩ := List.map_eq_append_iff.mp hback
  obtain ⟨hm₁, hm₂⟩ := hashed_append.mp hm
  obtain ⟨hm₂, hm₃⟩ := hashed_append.mp hm₂
  have hfront' := hm₁.eq_unmarked (by rwa [plain, hfront])
  have hlast' := hm₃.eq_unmarked (by rwa [plain, hlast])
  rw [plain, hfront] at hfront'
  rw [plain, hlast] at hlast'
  refine ⟨inner, hm₂, hinner, ?_, ?_⟩
  · rw [hfront', hlast', spaced_append, spaced_append, spaced_unmarked, spaced_unmarked]
  · rw [hfront', hlast', count_append, count_append, count_unmarked, count_unmarked]
    omega

end Marked

open Marked

theorem hashed_mark (fresh : Bool) (cs : List Char) : Hashed (mark fresh cs) := by
  obtain ⟨m, fresh', heq, -, hhash⟩ := mark_append fresh cs []
  rw [List.append_nil, mark, List.append_nil] at heq
  rw [heq]
  exact hhash

/-- The lexeme `x`, its characters marked as in `m`, keeps its end when the marks get their blanks,
and what it says is spread by them. -/
structure Keeps (x : Lexeme) (m : Marked) (rest : List Char) : Prop where
  cut : CutBefore ⟨x.shape, spaced m⟩ rest
  content : Spread (count m) x.content (Lexeme.content ⟨x.shape, spaced m⟩)

theorem keeps_unmarked {x : Lexeme} {rest rest' : List Char} (h : x.CutBefore rest)
    (hhead : rest'.head? = rest.head?) : Keeps x (unmarked x.chars) rest' := by
  have hcut : x.CutBefore rest' := by
    by_cases hne : rest = []
    · subst hne
      rwa [List.head?_eq_none_iff.mp hhead]
    · exact h.of_head hne hhead
  constructor
  · rw [spaced_unmarked]
    exact hcut
  · rw [spaced_unmarked, count_unmarked]
    exact .refl _

theorem not_hash_mem {x : Lexeme} {rest : List Char} (h : x.CutBefore rest)
    (hcomment : x.shape ≠ .comment) (hkind : x.shape.kind.isDelimited = false) :
    '#' ∉ x.chars := by
  cases h with
  | comment => exact absurd rfl hcomment
  | returnAndFeed => decide
  | lineBreak hc _ =>
    simp only [List.mem_singleton]
    rintro rfl
    exact absurd hc (by decide)
  | whitespace _ hgap _ => exact fun hmem => absurd (hgap _ hmem) (by decide)
  | loneAngle _ => decide
  | text _ hrun _ => exact fun hmem => absurd (hrun _ hmem) (by decide)
  | _ => cases hkind

theorem keeps_comment {body rest rest' : List Char} {m : Marked}
    (hbody : ∀ c ∈ body, isLineBreak c = false) (hrest : ∀ c ∈ rest.head?, isLineBreak c)
    (hm : plain m = '#' :: body) (hhead : rest'.head? = rest.head?) :
    Keeps ⟨.comment, '#' :: body⟩ m rest' := by
  obtain ⟨marked, m', rfl, hm'⟩ := exists_cons_of_plain hm
  have hinner : ∀ c ∈ spaced m', isLineBreak c = false := by
    intro c hc
    rcases mem_spaced hc with hc | rfl
    · exact hbody c (hm' ▸ hc)
    · decide
  refine ⟨?_, ?_⟩
  · cases marked with
    | true =>
      have hall : ∀ c ∈ ' ' :: spaced m', isLineBreak c = false :=
        List.forall_mem_cons.mpr ⟨by decide, hinner⟩
      exact .comment hall (hhead ▸ hrest)
    | false => exact .comment hinner (hhead ▸ hrest)
  · have hspread := spread_spaced ((('#', marked) :: m' : Marked))
    rw [hm] at hspread
    exact hspread

theorem keeps_quoted {content rest : List Char} {m : Marked} (hm : Hashed m) {closing : List Char}
    (hclosing : closing = ['"'] ∧ rest.head? ≠ some '"' ∨ closing = [] ∧ rest = [])
    (h : plain m = '"' :: (doubleQuotes content ++ closing)) :
    Keeps ⟨.quoted, '"' :: (doubleQuotes content ++ closing)⟩ m rest := by
  have hno : '#' ∉ closing := by
    rcases hclosing with ⟨rfl, -⟩ | ⟨rfl, -⟩ <;> decide
  have h : plain m = ['"'] ++ (doubleQuotes content ++ closing) := h
  obtain ⟨inner, hinner, hplain, hspaced, hcount⟩ := exists_inner hm (by decide) hno h
  obtain ⟨content', hquotes, hspread⟩ := exists_doubleQuotes hinner hplain
  rw [hquotes] at hspaced
  rcases hclosing with ⟨rfl, hrest⟩ | ⟨rfl, rfl⟩
  · constructor
    · rw [hspaced]
      exact .quoted hrest
    · rw [hspaced, hcount, content_quoted]
      exact (content_quoted content').symm ▸ hspread
  · rw [List.append_nil] at hspaced
    constructor
    · rw [hspaced]
      exact .openQuoted
    · rw [hspaced, hcount, List.append_nil, content_openQuoted]
      exact (content_openQuoted content').symm ▸ hspread

theorem keeps_rawQuoted {content rest : List Char} {m : Marked} (hm : Hashed m)
    {closing : List Char}
    (hclosing : closing = ['>', '>'] ∧ Undoubled '>' (content ++ ['>']) ∨
      closing = [] ∧ Undoubled '>' content ∧ rest = [])
    (h : plain m = '<' :: '<' :: (content ++ closing)) :
    Keeps ⟨.rawQuoted, '<' :: '<' :: (content ++ closing)⟩ m rest := by
  have hno : '#' ∉ closing := by
    rcases hclosing with ⟨rfl, -⟩ | ⟨rfl, -⟩ <;> decide
  have h : plain m = ['<', '<'] ++ (content ++ closing) := h
  obtain ⟨inner, hinner, rfl, hspaced, hcount⟩ := exists_inner hm (by decide) hno h
  have hspread := spread_spaced inner
  rcases hclosing with ⟨rfl, hcontent⟩ | ⟨rfl, hcontent, rfl⟩
  · constructor
    · rw [hspaced]
      exact .rawQuoted (undoubled_spaced hinner hcontent)
    · rw [hspaced, hcount, content_rawQuoted]
      exact (content_rawQuoted (spaced inner)).symm ▸ hspread
  · have hopen : Undoubled '>' (spaced inner) := by
      have hnil : Undoubled '>' (spaced inner ++ []) :=
        undoubled_spaced hinner (by rwa [List.append_nil])
      rwa [List.append_nil] at hnil
    rw [List.append_nil] at hspaced
    constructor
    · rw [hspaced]
      exact .openRawQuoted hopen
    · rw [hspaced, hcount, List.append_nil, content_openRawQuoted hcontent]
      exact (content_openRawQuoted hopen).symm ▸ hspread

theorem keeps_macroCall {content rest : List Char} {m : Marked} (hm : Hashed m)
    (hcontent : '}' ∉ content) {closing : List Char}
    (hclosing : closing = ['}'] ∨ closing = [] ∧ rest = [])
    (h : plain m = '{' :: (content ++ closing)) :
    Keeps ⟨.macroCall, '{' :: (content ++ closing)⟩ m rest := by
  have hno : '#' ∉ closing := by
    rcases hclosing with rfl | ⟨rfl, -⟩ <;> decide
  have h : plain m = ['{'] ++ (content ++ closing) := h
  obtain ⟨inner, hinner, rfl, hspaced, hcount⟩ := exists_inner hm (by decide) hno h
  have hspread := spread_spaced inner
  have hbrace : '}' ∉ spaced inner := by
    intro hmem
    rcases mem_spaced hmem with hmem | hblank
    · exact hcontent hmem
    · cases hblank
  rcases hclosing with rfl | ⟨rfl, rfl⟩
  · constructor
    · rw [hspaced]
      exact .macroCall hbrace
    · rw [hspaced, hcount, content_macroCall]
      exact (content_macroCall (spaced inner)).symm ▸ hspread
  · rw [List.append_nil] at hspaced
    constructor
    · rw [hspaced]
      exact .openMacroCall hbrace
    · rw [hspaced, hcount, List.append_nil, content_openMacroCall hcontent]
      exact (content_openMacroCall hbrace).symm ▸ hspread

/-- Blanks behind `#`s leave every lexeme its end. -/
theorem keeps_cut {x : Lexeme} {rest rest' : List Char} {m : Marked} (h : x.CutBefore rest)
    (hm : Hashed m) (hplain : plain m = x.chars) (hhead : rest'.head? = rest.head?) :
    Keeps x m rest' := by
  have hnil : rest = [] → rest' = [] := by
    rintro rfl
    exact List.head?_eq_none_iff.mp hhead
  by_cases hkeep : x.shape = .comment ∨ x.shape.kind.isDelimited
  · cases h with
    | comment hbody hrest => exact keeps_comment hbody hrest hplain hhead
    | quoted hrest => exact keeps_quoted hm (.inl ⟨rfl, hhead ▸ hrest⟩) hplain
    | openQuoted =>
      have hkeeps := keeps_quoted hm (.inr ⟨rfl, hnil rfl⟩) (by rwa [List.append_nil])
      rwa [List.append_nil] at hkeeps
    | rawQuoted hcontent => exact keeps_rawQuoted hm (.inl ⟨rfl, hcontent⟩) hplain
    | openRawQuoted hcontent =>
      have hkeeps := keeps_rawQuoted hm (.inr ⟨rfl, hcontent, hnil rfl⟩) (by rwa [List.append_nil])
      rwa [List.append_nil] at hkeeps
    | macroCall hcontent => exact keeps_macroCall hm hcontent (.inl rfl) hplain
    | openMacroCall hcontent =>
      have hkeeps := keeps_macroCall hm hcontent (.inr ⟨rfl, hnil rfl⟩) (by rwa [List.append_nil])
      rwa [List.append_nil] at hkeeps
    | _ => simp [Shape.kind, TokenKind.isDelimited] at hkeep
  · have hno := not_hash_mem h (fun hc => hkeep (.inl hc)) (by
      simpa using fun hd => hkeep (.inr hd))
    rw [hm.eq_unmarked (by rwa [hplain]), hplain]
    exact keeps_unmarked h hhead

/-! ## The lexemes of a marked text -/

structure MarkedLexeme where
  shape : Shape
  marks : Marked

namespace MarkedLexeme

def plain (z : MarkedLexeme) : Lexeme :=
  ⟨z.shape, z.marks.plain⟩

def spaced (z : MarkedLexeme) : Lexeme :=
  ⟨z.shape, z.marks.spaced⟩

/-- The blanks spread what a lexeme says, leave plain text and spacing alone, and neither make a
directive nor unmake one. -/
structure Sound (z : MarkedLexeme) : Prop where
  content : Spread (count z.marks) z.plain.content z.spaced.content
  unmarked : z.shape ≠ .comment → z.shape.kind.isDelimited = false →
    z.marks = Marked.unmarked z.marks.plain
  directive : z.shape = .comment →
    Directive.ofComment? (String.ofList z.marks.plain) =
      Directive.ofComment? (String.ofList z.marks.spaced)

end MarkedLexeme

theorem ofComment?_blank (cs : List Char) :
    Directive.ofComment? (String.ofList ('#' :: ' ' :: cs)) = none := by
  have hword : (' ' :: cs).takeWhile (!isBlank ·) = [] :=
    List.takeWhile_cons_of_neg (by decide)
  simp only [Directive.ofComment?, String.toList_ofList, hword]
  rfl

/-- The marks of the lexeme in front of a text. A comment is marked at its `#` or not at all. -/
theorem exists_marked {x : Lexeme} {rest : List Char} (h : x.CutBefore rest) (fresh : Bool) :
    ∃ (m : Marked) (fresh' : Bool), mark fresh (x.chars ++ rest) = m ++ mark fresh' rest ∧
      m.plain = x.chars ∧ Hashed m ∧ (x.shape = .comment →
        Directive.ofComment? (String.ofList m.plain) =
          Directive.ofComment? (String.ofList m.spaced)) := by
  by_cases hcomment : x.shape = .comment
  · cases h with
    | @comment body rest hbody hrest =>
      have hfeed : '\n' ∉ body := fun hmem => by simpa [isLineBreak] using hbody _ hmem
      have hmark : mark fresh ('#' :: body ++ rest) =
          (('#', fresh && lacksBlank (body ++ rest)) :: unmarked body) ++ mark false rest := by
        have hstale : ('#' == '\n' || fresh && isBlank '#') = false := by
          cases fresh <;> decide
        rw [List.cons_append, mark, hstale, mark_stale hfeed, List.cons_append]
        simp
      refine ⟨_, false, hmark, by simp, ?_, fun _ => ?_⟩
      · exact hashed_cons.mpr ⟨fun _ => rfl, fun p hp => by
          obtain ⟨c, -, rfl⟩ := List.mem_map.mp hp
          simp⟩
      · cases hlacks : fresh && lacksBlank (body ++ rest) with
        | false => simp
        | true =>
          -- the keyword ends before the line does
          have hword : (body ++ rest).takeWhile (!isBlank ·) = body.takeWhile (!isBlank ·) :=
            takeWhile_append_blank fun c hc => isBlank_of_isLineBreak (hrest c hc)
          have hnone : (Directive.ofComment? (String.ofList ('#' :: body))).isNone := by
            rw [isNone_ofComment?_hash, ← hword]
            have hlack := (Bool.and_eq_true_iff.mp hlacks).2
            unfold lacksBlank at hlack
            split at hlack
            · cases hlack
            · next heq =>
              rw [heq]
              simp only [Bool.and_eq_true] at hlack
              exact hlack.2
          rw [plain_cons, plain_unmarked, spaced_cons_true, spaced_unmarked, ofComment?_blank]
          exact Option.isNone_iff_eq_none.mp hnone
    | _ => cases hcomment
  · obtain ⟨m, fresh', hmark, hplain, hhash⟩ := mark_append fresh x.chars rest
    exact ⟨m, fresh', hmark, hplain, hhash, fun hc => absurd hc hcomment⟩

/-- The plain and the spaced text are cut in the same places. -/
theorem exists_scan (cs : List Char) (fresh : Bool) : ∃ zs : List MarkedLexeme,
    zs.flatMap (·.marks) = mark fresh cs ∧ zs.map (·.plain) = scan cs ∧
      zs.map (·.spaced) = scan (mark fresh cs).spaced ∧ ∀ z ∈ zs, z.Sound := by
  induction cs using scan_induction generalizing fresh with
  | nil => exact ⟨[], rfl, by simp, by simp [mark, Marked.spaced], by simp⟩
  | cut x rest h ih =>
    obtain ⟨m, fresh', hmark, hplain, hhash, hdirective⟩ := exists_marked h fresh
    obtain ⟨zs, hmarks, hscan, hspaced, hsound⟩ := ih fresh'
    have hhead : (mark fresh' rest).spaced.head? = rest.head? := by
      rw [head?_spaced, plain_mark]
    have hkeeps := keeps_cut h hhash hplain hhead
    refine ⟨⟨x.shape, m⟩ :: zs, ?_, ?_, ?_, ?_⟩
    · rw [List.flatMap_cons, hmarks, hmark]
    · rw [List.map_cons, hscan, h.scan_eq, MarkedLexeme.plain, hplain]
    · rw [List.map_cons, hspaced, hmark, spaced_append, MarkedLexeme.spaced]
      exact hkeeps.cut.scan_eq.symm
    · refine List.forall_mem_cons.mpr ⟨⟨?_, fun hc hd => ?_, hdirective⟩, hsound⟩
      · have hcontent := hkeeps.content
        rwa [← show (MarkedLexeme.plain ⟨x.shape, m⟩) = x by rw [MarkedLexeme.plain, hplain]]
          at hcontent
      · exact hhash.eq_unmarked (by rw [hplain]; exact not_hash_mem h hc hd)

theorem sound_text {m : Marked} (h : m = unmarked m.plain) : MarkedLexeme.Sound ⟨.text, m⟩ := by
  refine ⟨?_, fun _ _ => h, fun hc => by cases hc⟩
  have hspread := spread_spaced m
  exact hspread

/-- Plain texts that touch hold no mark, so that both texts are fused in the same places. -/
theorem exists_fuse (zs : List MarkedLexeme) (hsound : ∀ z ∈ zs, z.Sound) :
    ∃ ys : List MarkedLexeme, ys.flatMap (·.marks) = zs.flatMap (·.marks) ∧
      ys.map (·.plain) = fuse (zs.map (·.plain)) ∧
      ys.map (·.spaced) = fuse (zs.map (·.spaced)) ∧ ∀ y ∈ ys, y.Sound := by
  induction zs with
  | nil => exact ⟨[], rfl, rfl, rfl, hsound⟩
  | cons z zs ih =>
    obtain ⟨hz, hzs⟩ := List.forall_mem_cons.mp hsound
    obtain ⟨ys, hmarks, hplain, hspaced, hys⟩ := ih hzs
    rw [List.map_cons, List.map_cons, fuse, fuse, ← hplain, ← hspaced]
    cases ys with
    | nil =>
      refine ⟨[z], ?_, rfl, rfl, by simpa using hz⟩
      rw [List.flatMap_cons, List.flatMap_cons, hmarks]
    | cons y ys =>
      obtain ⟨hy, hys⟩ := List.forall_mem_cons.mp hys
      have hsame : (z.spaced.isText && y.spaced.isText) = (z.plain.isText && y.plain.isText) := rfl
      simp only [List.map_cons, hsame]
      split
      · next htexts =>
        have hunmarked : ∀ w : MarkedLexeme, w.Sound → w.plain.isText →
            w.marks = unmarked w.marks.plain := by
          intro w hw ht
          have hkind : w.shape.kind = .text := by simpa [isText, MarkedLexeme.plain] using ht
          refine hw.unmarked (fun hc => ?_) (by rw [hkind]; rfl)
          rw [hc] at hkind
          cases hkind
        obtain ⟨hzt, hyt⟩ := Bool.and_eq_true_iff.mp htexts
        refine ⟨⟨.text, z.marks ++ y.marks⟩ :: ys, ?_, ?_, ?_, ?_⟩
        · rw [List.flatMap_cons, List.flatMap_cons, ← hmarks, List.flatMap_cons, List.append_assoc]
        · simp [MarkedLexeme.plain]
        · simp [MarkedLexeme.spaced]
        · refine List.forall_mem_cons.mpr ⟨sound_text ?_, hys⟩
          rw [plain_append, unmarked_append, ← hunmarked z hz hzt, ← hunmarked y hy hyt]
      · refine ⟨z :: y :: ys, by rw [List.flatMap_cons, hmarks, List.flatMap_cons], rfl, rfl, ?_⟩
        simpa using ⟨hz, hy, hys⟩

/-- The marked pieces of a source. -/
theorem exists_pieces (cs : List Char) : ∃ zs : List MarkedLexeme,
    zs.flatMap (·.marks) = mark true cs ∧ zs.map (·.plain) = fuse (scan cs) ∧
      zs.map (·.spaced) = fuse (scan (mark true cs).spaced) ∧ ∀ z ∈ zs, z.Sound := by
  obtain ⟨zs, hmarks, hplain, hspaced, hsound⟩ := exists_scan cs true
  obtain ⟨ys, hmarks', hplain', hspaced', hsound'⟩ := exists_fuse zs hsound
  exact ⟨ys, hmarks'.trans hmarks, by rw [hplain', hplain], by rw [hspaced', hspaced], hsound'⟩

end Comment

end CampaignMarkup
