import CampaignMarkup.Token.Lexer
import Mathlib.Data.List.Chain
import Mathlib.Data.List.TakeWhile

/-! # Where a lexeme ends

One rule for each form a lexeme can have says how it is written and what must not follow it. Cutting
a lexeme off the front of a text is the same as finding a rule that fits, so that everything else
can be argued from the rules. -/
namespace CampaignMarkup

namespace Chars

/-- The character nowhere stands twice in a row. -/
def Undoubled (c : Char) (cs : List Char) : Prop :=
  cs.IsChain fun a b => ¬ (a = c ∧ b = c)

theorem undoubled_cons {c d : Char} {cs : List Char} :
    Undoubled c (d :: cs) ↔ (d = c → cs.head? ≠ some c) ∧ Undoubled c cs := by
  rw [Undoubled, List.isChain_cons]
  refine and_congr_left' ⟨fun h hd hc => h c hc ⟨hd, rfl⟩, ?_⟩
  rintro h _ hc ⟨hd, rfl⟩
  exact h hd hc

theorem undoubled_append {c : Char} {cs ds : List Char} :
    Undoubled c (cs ++ ds) ↔ Undoubled c cs ∧ Undoubled c ds ∧
      (cs.getLast? = some c → ds.head? ≠ some c) := by
  rw [Undoubled, List.isChain_append]
  refine and_congr_right' (and_congr_right' ⟨fun h hl hh => h c hl c hh ⟨rfl, rfl⟩, ?_⟩)
  rintro h _ hl _ hh ⟨rfl, rfl⟩
  exact h hl hh

theorem takeWhile_run {p : Char → Bool} {run rest : List Char} (hrun : ∀ c ∈ run, p c)
    (hrest : ∀ c ∈ rest.head?, p c = false) : (run ++ rest).takeWhile p = run := by
  rw [List.takeWhile_append_of_pos hrun]
  cases rest with
  | nil => simp
  | cons c rest => simp [hrest c rfl]

theorem dropWhile_run {p : Char → Bool} {run rest : List Char} (hrun : ∀ c ∈ run, p c)
    (hrest : ∀ c ∈ rest.head?, p c = false) : (run ++ rest).dropWhile p = rest := by
  rw [List.dropWhile_append_of_pos hrun]
  cases rest with
  | nil => rfl
  | cons c rest => simp [hrest c rfl]

theorem head?_dropWhile {p : Char → Bool} {cs : List Char} :
    ∀ c ∈ (cs.dropWhile p).head?, p c = false := by
  intro c hc
  have h := List.head?_dropWhile_not p cs
  rw [Option.mem_def.mp hc] at h
  exact h

theorem dropStart?_append (start cs : List Char) : dropStart? start (start ++ cs) = some cs := by
  induction start with
  | nil => simp [dropStart?]
  | cons c start ih => simp [dropStart?, ih]

theorem dropStart?_eq_some {start cs rest : List Char} :
    dropStart? start cs = some rest ↔ cs = start ++ rest := by
  constructor
  · intro h
    induction start generalizing cs with
    | nil => simpa [dropStart?] using h
    | cons c start ih =>
      cases cs with
      | nil => simp [dropStart?] at h
      | cons d cs =>
        simp only [dropStart?] at h
        split at h
        · next heq => rw [heq, ih h, List.cons_append]
        · cases h
  · rintro rfl
    exact dropStart?_append start rest

theorem dropEnding?_eq_some {ending cs rest : List Char} :
    dropEnding? ending cs = some rest ↔ cs = rest ++ ending := by
  simp only [dropEnding?, Option.map_eq_some_iff, dropStart?_eq_some]
  constructor
  · rintro ⟨tser, hcs, rfl⟩
    rw [← List.reverse_reverse cs, hcs, List.reverse_append, List.reverse_reverse]
  · rintro rfl
    exact ⟨rest.reverse, by simp, by simp⟩

theorem dropEnding_append (cs ending : List Char) : dropEnding ending (cs ++ ending) = cs := by
  rw [dropEnding, dropEnding?_eq_some.mpr rfl]
  rfl

theorem dropEnding_of_not_suffix {ending cs : List Char} (h : ¬ ending <:+ cs) :
    dropEnding ending cs = cs := by
  have hnone : dropEnding? ending cs = none := by
    rw [Option.eq_none_iff_forall_not_mem]
    intro rest hrest
    exact h ⟨rest, (dropEnding?_eq_some.mp hrest).symm⟩
  rw [dropEnding, hnone]
  rfl

theorem unwrap_closed (opening closing cs : List Char) :
    unwrap opening closing (opening ++ (cs ++ closing)) = cs := by
  rw [unwrap, dropStart?_append]
  exact dropEnding_append cs closing

theorem unwrap_open (opening : List Char) {closing cs : List Char} (h : ¬ closing <:+ cs) :
    unwrap opening closing (opening ++ cs) = cs := by
  rw [unwrap, dropStart?_append]
  exact dropEnding_of_not_suffix h

end Chars

namespace Lexeme

open Text Chars

theorem quotedTail_closed {content rest : List Char} (h : rest.head? ≠ some '"') :
    quotedTail (doubleQuotes content ++ '"' :: rest) = (doubleQuotes content ++ ['"'], rest) := by
  induction content with
  | nil =>
    cases rest with
    | nil => rfl
    | cons c rest =>
      have hc : c ≠ '"' := by simpa using h
      simp [doubleQuotes, quotedTail, hc]
  | cons c content ih =>
    by_cases hc : c = '"'
    · simp [doubleQuotes, hc, quotedTail, ih]
    · simp [doubleQuotes, hc, quotedTail, ih]

theorem quotedTail_open (content : List Char) :
    quotedTail (doubleQuotes content) = (doubleQuotes content, []) := by
  induction content with
  | nil => rfl
  | cons c content ih =>
    by_cases hc : c = '"'
    · simp [doubleQuotes, hc, quotedTail, ih]
    · simp [doubleQuotes, hc, quotedTail, ih]

/-- A string is closed by the first quote that has no other behind it, or never. -/
theorem quotedTail_cases (cs : List Char) :
    (∃ content rest, rest.head? ≠ some '"' ∧ cs = doubleQuotes content ++ '"' :: rest) ∨
      ∃ content, cs = doubleQuotes content := by
  fun_induction quotedTail cs with
  | case1 => exact .inr ⟨[], rfl⟩
  | case2 cs _ _ _ ih =>
    obtain ⟨content, rest, hrest, rfl⟩ | ⟨content, rfl⟩ := ih
    · exact .inl ⟨'"' :: content, rest, hrest, by simp [doubleQuotes]⟩
    · exact .inr ⟨'"' :: content, by simp [doubleQuotes]⟩
  | case3 cs hcs =>
    refine .inl ⟨[], cs, ?_, rfl⟩
    cases cs with
    | nil => simp
    | cons c cs => simpa using fun hc => hcs cs (by rw [hc])
  | case4 c cs _ hc _ _ _ ih =>
    obtain ⟨content, rest, hrest, rfl⟩ | ⟨content, rfl⟩ := ih
    · exact .inl ⟨c :: content, rest, hrest, by rw [doubleQuotes, if_neg hc]; rfl⟩
    · exact .inr ⟨c :: content, by rw [doubleQuotes, if_neg hc]⟩

theorem rawTail_closed {content rest : List Char} (h : Undoubled '>' (content ++ ['>'])) :
    rawTail (content ++ '>' :: '>' :: rest) = (content ++ ['>', '>'], rest) := by
  induction content with
  | nil => rfl
  | cons c content ih =>
    obtain ⟨hc, h⟩ := undoubled_cons.mp h
    have hpair : ∀ cs, c = '>' → content ++ '>' :: '>' :: rest = '>' :: cs → False := by
      intro cs hcs heq
      cases content with
      | nil => exact hc hcs rfl
      | cons d content => exact hc hcs (by simpa using (List.cons.inj heq).1)
    rw [List.cons_append, rawTail, ih h]
    · rfl
    · exact hpair

theorem rawTail_open {content : List Char} (h : Undoubled '>' content) :
    rawTail content = (content, []) := by
  induction content with
  | nil => rfl
  | cons c content ih =>
    obtain ⟨hc, h⟩ := undoubled_cons.mp h
    rw [rawTail, ih h]
    intro cs hcs heq
    exact hc hcs (by simp [heq])

theorem rawTail_cases (cs : List Char) :
    (∃ content rest, Undoubled '>' (content ++ ['>']) ∧ cs = content ++ '>' :: '>' :: rest) ∨
      Undoubled '>' cs := by
  fun_induction rawTail cs with
  | case1 => exact .inr .nil
  | case2 cs => exact .inl ⟨[], cs, .singleton _, rfl⟩
  | case3 c cs hc _ _ _ ih =>
    have hpair : c = '>' → cs.head? ≠ some '>' := by
      rintro hcs hhead
      obtain ⟨ds, rfl⟩ := List.head?_eq_some_iff.mp hhead
      exact hc ds hcs rfl
    obtain ⟨content, rest, hcontent, rfl⟩ | hopen := ih
    · refine .inl ⟨c :: content, rest, undoubled_cons.mpr ⟨?_, hcontent⟩, rfl⟩
      intro hcs hhead
      refine hpair hcs ?_
      cases content with
      | nil => rfl
      | cons d content => simpa using hhead
    · exact .inr (undoubled_cons.mpr ⟨hpair, hopen⟩)

theorem callTail_closed {content : List Char} (h : '}' ∉ content) (rest : List Char) :
    callTail (content ++ '}' :: rest) = (content ++ ['}'], rest) := by
  induction content with
  | nil => simp [callTail]
  | cons c content ih =>
    obtain ⟨hc, h⟩ : '}' ≠ c ∧ '}' ∉ content := by simpa using h
    simp [callTail, hc.symm, ih h]

theorem callTail_open {content : List Char} (h : '}' ∉ content) :
    callTail content = (content, []) := by
  induction content with
  | nil => rfl
  | cons c content ih =>
    obtain ⟨hc, h⟩ : '}' ≠ c ∧ '}' ∉ content := by simpa using h
    simp [callTail, hc.symm, ih h]

theorem callTail_cases (cs : List Char) :
    (∃ content rest, '}' ∉ content ∧ cs = content ++ '}' :: rest) ∨ '}' ∉ cs := by
  by_cases h : '}' ∈ cs
  · obtain ⟨content, rest, heq, hcontent⟩ := List.eq_append_cons_of_mem h
    exact .inl ⟨content, rest, hcontent, heq⟩
  · exact .inr h

/-- The lexeme can be cut off in front of this rest. -/
inductive CutBefore : Lexeme → List Char → Prop where
  | comment {body rest} : (∀ c ∈ body, isLineBreak c = false) →
      (∀ c ∈ rest.head?, isLineBreak c) → CutBefore ⟨.comment, '#' :: body⟩ rest
  | returnAndFeed {rest} : CutBefore ⟨.endOfLine, ['\r', '\n']⟩ rest
  | lineBreak {c rest} : isLineBreak c → (c = '\r' → rest.head? ≠ some '\n') →
      CutBefore ⟨.endOfLine, [c]⟩ rest
  | whitespace {gap rest} : gap ≠ [] → (∀ c ∈ gap, isGap c) →
      (∀ c ∈ rest.head?, isGap c = false) → CutBefore ⟨.whitespace, gap⟩ rest
  | quoted {content rest} : rest.head? ≠ some '"' →
      CutBefore ⟨.quoted, '"' :: (doubleQuotes content ++ ['"'])⟩ rest
  | openQuoted {content} : CutBefore ⟨.quoted, '"' :: doubleQuotes content⟩ []
  | rawQuoted {content rest} : Undoubled '>' (content ++ ['>']) →
      CutBefore ⟨.rawQuoted, '<' :: '<' :: (content ++ ['>', '>'])⟩ rest
  | openRawQuoted {content} : Undoubled '>' content →
      CutBefore ⟨.rawQuoted, '<' :: '<' :: content⟩ []
  | macroCall {content rest} : '}' ∉ content →
      CutBefore ⟨.macroCall, '{' :: (content ++ ['}'])⟩ rest
  | openMacroCall {content} : '}' ∉ content → CutBefore ⟨.macroCall, '{' :: content⟩ []
  | loneAngle {rest} : rest.head? ≠ some '<' → CutBefore ⟨.loneAngle, ['<']⟩ rest
  | text {run rest} : run ≠ [] → (∀ c ∈ run, isPlain c) → (∀ c ∈ rest.head?, isPlain c = false) →
      CutBefore ⟨.text, run⟩ rest

theorem isBlank_of_isLineBreak {c : Char} (h : isLineBreak c) : isBlank c := by
  have hc : c = '\n' ∨ c = '\r' ∨ c = '\u2028' ∨ c = '\u2029' := by
    simpa [isLineBreak, or_assoc] using h
  rcases hc with rfl | rfl | rfl | rfl <;> decide

/-- A character that is not plain begins some other form. -/
theorem isPlain_iff {c : Char} :
    isPlain c ↔
      isLineBreak c = false ∧ isGap c = false ∧ c ≠ '#' ∧ c ≠ '"' ∧ c ≠ '<' ∧ c ≠ '{' := by
  by_cases hb : isBlank c
  · have hno : isPlain c = false := by simp [isPlain, hb]
    simp only [hno, Bool.false_eq_true, false_iff]
    rintro ⟨hl, hg, -⟩
    simp [isGap, hb, hl] at hg
  · have hl : isLineBreak c = false := by
      by_contra hl
      exact hb (isBlank_of_isLineBreak (by simpa using hl))
    have hg : isGap c = false := by simp [isGap, hb]
    simp [isPlain, hb, hl, hg, and_assoc]

theorem cutBefore_next (c : Char) (cs : List Char) :
    CutBefore (next c cs).1 (next c cs).2 := by
  unfold next
  split
  · next hc =>
    subst hc
    refine .comment (fun c hc => ?_) (fun c hc => ?_)
    · simpa using List.mem_takeWhile_imp hc
    · simpa using head?_dropWhile c hc
  split
  · next hc =>
    subst hc
    split
    · exact .returnAndFeed
    · next hcs =>
      refine .lineBreak rfl (fun _ hhead => ?_)
      obtain ⟨ds, rfl⟩ := List.head?_eq_some_iff.mp hhead
      exact hcs ds rfl
  split
  · next hr hl => exact .lineBreak hl (fun h => absurd h hr)
  split
  · next hg =>
    refine .whitespace (List.cons_ne_nil _ _) (fun d hd => ?_) head?_dropWhile
    rcases List.mem_cons.mp hd with rfl | hd
    · exact hg
    · exact List.mem_takeWhile_imp hd
  split
  · next hc =>
    subst hc
    dsimp only
    obtain ⟨content, rest, hrest, rfl⟩ | ⟨content, rfl⟩ := quotedTail_cases cs
    · rw [quotedTail_closed hrest]
      exact .quoted hrest
    · rw [quotedTail_open]
      exact .openQuoted
  split
  · next hc =>
    subst hc
    dsimp only
    obtain ⟨content, rest, hcontent, rfl⟩ | hopen := callTail_cases cs
    · rw [callTail_closed hcontent]
      exact .macroCall hcontent
    · rw [callTail_open hopen]
      exact .openMacroCall hopen
  split
  · next hc =>
    subst hc
    split
    · next cs =>
      dsimp only
      obtain ⟨content, rest, hcontent, rfl⟩ | hopen := rawTail_cases cs
      · rw [rawTail_closed hcontent]
        exact .rawQuoted hcontent
      · rw [rawTail_open hopen]
        exact .openRawQuoted hopen
    · next hcs =>
      refine .loneAngle (fun hhead => ?_)
      obtain ⟨ds, rfl⟩ := List.head?_eq_some_iff.mp hhead
      exact hcs ds rfl
  · next h₁ h₂ h₃ h₄ h₅ h₆ h₇ =>
    have hc : isPlain c := isPlain_iff.mpr ⟨by simpa using h₃, by simpa using h₄, h₁, h₅, h₇, h₆⟩
    refine .text (List.cons_ne_nil _ _) (fun d hd => ?_) head?_dropWhile
    rcases List.mem_cons.mp hd with rfl | hd
    · exact hc
    · exact List.mem_takeWhile_imp hd

theorem CutBefore.ne_nil {x : Lexeme} {rest : List Char} (h : x.CutBefore rest) :
    x.chars ≠ [] := by
  cases h with
  | whitespace hne => exact hne
  | text hne => exact hne
  | _ => exact List.cons_ne_nil _ _

/-- Only the first character behind a lexeme decides whether it ends there. -/
theorem CutBefore.of_head {x : Lexeme} {rest rest' : List Char} (h : x.CutBefore rest)
    (hne : rest ≠ []) (hhead : rest'.head? = rest.head?) : x.CutBefore rest' := by
  cases h with
  | comment hbody hrest => exact .comment hbody (hhead ▸ hrest)
  | returnAndFeed => exact .returnAndFeed
  | lineBreak hc hrest => exact .lineBreak hc (hhead ▸ hrest)
  | whitespace hgap hall hrest => exact .whitespace hgap hall (hhead ▸ hrest)
  | quoted hrest => exact .quoted (hhead ▸ hrest)
  | rawQuoted hcontent => exact .rawQuoted hcontent
  | macroCall hcontent => exact .macroCall hcontent
  | loneAngle hrest => exact .loneAngle (hhead ▸ hrest)
  | text hrun hall hrest => exact .text hrun hall (hhead ▸ hrest)
  | openQuoted => exact absurd rfl hne
  | openRawQuoted _ => exact absurd rfl hne
  | openMacroCall _ => exact absurd rfl hne

theorem next_gap {c : Char} (h : isGap c) (cs : List Char) :
    next c cs = (⟨.whitespace, c :: cs.takeWhile isGap⟩, cs.dropWhile isGap) := by
  have hhash : c ≠ '#' := by
    rintro rfl
    exact absurd h (by decide)
  have hr : c ≠ '\r' := by
    rintro rfl
    exact absurd h (by decide)
  have hl : isLineBreak c = false := by
    simp only [isGap, Bool.and_eq_true, Bool.not_eq_true'] at h
    exact h.2
  simp only [next.eq_def, hhash, hr, hl, h, if_true, if_false]
  rfl

theorem next_plain {c : Char} (h : isPlain c) (cs : List Char) :
    next c cs = (⟨.text, c :: cs.takeWhile isPlain⟩, cs.dropWhile isPlain) := by
  obtain ⟨hl, hg, hhash, hq, ha, hb⟩ := isPlain_iff.mp h
  have hr : c ≠ '\r' := by
    rintro rfl
    exact absurd hl (by decide)
  simp only [next.eq_def, hhash, hr, hl, hg, hq, ha, hb, if_false]
  rfl

theorem next_lineBreak {c : Char} (h : isLineBreak c) {cs : List Char}
    (hcs : c = '\r' → cs.head? ≠ some '\n') : next c cs = (⟨.endOfLine, [c]⟩, cs) := by
  have hhash : c ≠ '#' := by
    rintro rfl
    exact absurd h (by decide)
  by_cases hr : c = '\r'
  · subst hr
    cases cs with
    | nil => rfl
    | cons d cs =>
      have hd : d ≠ '\n' := by simpa using hcs rfl
      unfold next
      simp [hd]
  · simp only [next.eq_def, hhash, hr, h, if_true, if_false]

theorem next_loneAngle {cs : List Char} (h : cs.head? ≠ some '<') :
    next '<' cs = (⟨.loneAngle, ['<']⟩, cs) := by
  cases cs with
  | nil => rfl
  | cons d cs =>
    have hd : d ≠ '<' := by simpa using h
    unfold next
    simp [hd, isLineBreak, isGap, isBlank]

/-- The rules leave no choice: where one fits, that is where the lexeme is cut. -/
theorem CutBefore.next_eq {x : Lexeme} {rest : List Char} (h : x.CutBefore rest) :
    ∃ c cs, x.chars ++ rest = c :: cs ∧ next c cs = (x, rest) := by
  cases h with
  | @comment body rest hbody hrest =>
    have hbody' : ∀ d ∈ body, (!isLineBreak d) = true := fun d hd => by simp [hbody d hd]
    have hrest' : ∀ d ∈ rest.head?, (!isLineBreak d) = false := fun d hd => by simp [hrest d hd]
    refine ⟨'#', body ++ rest, rfl, ?_⟩
    change ((⟨.comment, '#' :: (body ++ rest).takeWhile (!isLineBreak ·)⟩ : Lexeme),
      (body ++ rest).dropWhile (!isLineBreak ·)) = _
    rw [takeWhile_run hbody' hrest', dropWhile_run hbody' hrest']
  | returnAndFeed => exact ⟨'\r', _, rfl, rfl⟩
  | lineBreak hc hrest => exact ⟨_, _, rfl, next_lineBreak hc hrest⟩
  | @whitespace gap rest hne hgap hrest =>
    obtain ⟨c, gap, rfl⟩ := List.exists_cons_of_ne_nil hne
    have hrun : ∀ d ∈ gap, isGap d := fun d hd => hgap d (List.mem_cons_of_mem _ hd)
    refine ⟨c, gap ++ rest, rfl, ?_⟩
    rw [next_gap (hgap c List.mem_cons_self), takeWhile_run hrun hrest,
      dropWhile_run hrun hrest]
  | @quoted content rest hrest =>
    refine ⟨'"', doubleQuotes content ++ '"' :: rest, by simp, ?_⟩
    change ((⟨.quoted, '"' :: (quotedTail _).1⟩ : Lexeme), (quotedTail _).2) = _
    rw [quotedTail_closed hrest]
  | @openQuoted content =>
    refine ⟨'"', doubleQuotes content, by simp, ?_⟩
    change ((⟨.quoted, '"' :: (quotedTail _).1⟩ : Lexeme), (quotedTail _).2) = _
    rw [quotedTail_open]
  | @rawQuoted content rest hcontent =>
    refine ⟨'<', '<' :: (content ++ '>' :: '>' :: rest), by simp, ?_⟩
    change ((⟨.rawQuoted, '<' :: '<' :: (rawTail _).1⟩ : Lexeme), (rawTail _).2) = _
    rw [rawTail_closed hcontent]
  | @openRawQuoted content hcontent =>
    refine ⟨'<', '<' :: content, by simp, ?_⟩
    change ((⟨.rawQuoted, '<' :: '<' :: (rawTail _).1⟩ : Lexeme), (rawTail _).2) = _
    rw [rawTail_open hcontent]
  | @macroCall content rest hcontent =>
    refine ⟨'{', content ++ '}' :: rest, by simp, ?_⟩
    change ((⟨.macroCall, '{' :: (callTail _).1⟩ : Lexeme), (callTail _).2) = _
    rw [callTail_closed hcontent]
  | @openMacroCall content hcontent =>
    refine ⟨'{', content, by simp, ?_⟩
    change ((⟨.macroCall, '{' :: (callTail _).1⟩ : Lexeme), (callTail _).2) = _
    rw [callTail_open hcontent]
  | loneAngle hrest => exact ⟨'<', _, rfl, next_loneAngle hrest⟩
  | @text run rest hne hrun hrest =>
    obtain ⟨c, run, rfl⟩ := List.exists_cons_of_ne_nil hne
    have hplain : ∀ d ∈ run, isPlain d := fun d hd => hrun d (List.mem_cons_of_mem _ hd)
    refine ⟨c, run ++ rest, rfl, ?_⟩
    rw [next_plain (hrun c List.mem_cons_self), takeWhile_run hplain hrest,
      dropWhile_run hplain hrest]

@[simp] theorem scan_nil : scan [] = [] := by
  rw [scan]

theorem CutBefore.scan_eq {x : Lexeme} {rest : List Char} (h : x.CutBefore rest) :
    scan (x.chars ++ rest) = x :: scan rest := by
  obtain ⟨c, cs, heq, hnext⟩ := h.next_eq
  rw [heq, scan, hnext]

/-- Induction along the lexemes of a text. -/
theorem scan_induction {P : List Char → Prop} (nil : P [])
    (cut : ∀ (x : Lexeme) (rest : List Char), x.CutBefore rest → P rest → P (x.chars ++ rest))
    (cs : List Char) : P cs := by
  fun_induction scan cs with
  | case1 => exact nil
  | case2 c cs ih =>
    rw [← next_append c cs]
    exact cut _ _ (cutBefore_next c cs) ih

end Lexeme

end CampaignMarkup
