import CampaignMarkup.Proofs.Record.Statements
import CampaignMarkup.Proofs.Text.Delimiters
import CampaignMarkup.Proofs.Text.Lines
import CampaignMarkup.Proofs.Token.Written

/-! # Quoted values

A block with one attribute whose value stands in quotes, its own quotes doubled. The value comes
back as it was, whatever it holds, but for one thing: the line with the key is trimmed before
anything knows that its string goes on, so that a value of several lines loses the blanks at the end
of the first. -/
namespace CampaignMarkup

open Text Chars

namespace Chars

theorem doubleQuotes_eq_self {cs : List Char} (h : '"' ∉ cs) : doubleQuotes cs = cs := by
  induction cs with
  | nil => rfl
  | cons c cs ih =>
    obtain ⟨hc, hcs⟩ : '"' ≠ c ∧ '"' ∉ cs := by simpa using h
    rw [doubleQuotes, if_neg (Ne.symm hc), ih hcs]

theorem doubleQuotes_break (cs ds : List Char) :
    doubleQuotes (cs ++ '\n' :: ds) = doubleQuotes cs ++ '\n' :: doubleQuotes ds := by
  rw [doubleQuotes_append, doubleQuotes, if_neg (by decide)]

theorem mem_doubleQuotes {c : Char} {cs : List Char} : c ∈ doubleQuotes cs ↔ c ∈ cs := by
  induction cs with
  | nil => simp [doubleQuotes]
  | cons d cs ih =>
    by_cases hd : d = '"'
    · simp [doubleQuotes, hd, ih]
    · simp [doubleQuotes, hd, ih]

theorem getLast?_doubleQuotes (cs : List Char) : (doubleQuotes cs).getLast? = cs.getLast? := by
  rcases List.eq_nil_or_concat cs with rfl | ⟨front, c, rfl⟩
  · rfl
  · by_cases hc : c = '"'
    · simp [doubleQuotes_append, doubleQuotes, hc]
    · simp [doubleQuotes_append, doubleQuotes, hc]

/-- Doubling the quotes has no part in trimming: a quote is not blank. -/
theorem trimEnd_doubleQuotes (cs : List Char) :
    trimEnd (doubleQuotes cs) = doubleQuotes (trimEnd cs) := by
  obtain ⟨blanks, hcs, hblank, hlast⟩ := exists_trimEnd cs
  have hquote : '"' ∉ blanks := by
    intro hmem
    have := hblank _ hmem
    revert this
    decide
  calc trimEnd (doubleQuotes cs)
      = trimEnd (doubleQuotes (trimEnd cs) ++ blanks) := by
        rw [← doubleQuotes_eq_self hquote, ← doubleQuotes_append, ← hcs]
    _ = doubleQuotes (trimEnd cs) := trimEnd_append (by rwa [getLast?_doubleQuotes]) hblank

theorem head?_doubleQuotes (cs : List Char) : (doubleQuotes cs).head? = cs.head? := by
  cases cs with
  | nil => rfl
  | cons c cs =>
    by_cases hc : c = '"'
    · simp [doubleQuotes, hc]
    · simp [doubleQuotes, hc]

theorem unquoteTail_before {rest : List Char} (h : rest.head? ≠ some '"') (content : List Char) :
    unquoteTail (doubleQuotes content ++ '"' :: rest) = content := by
  induction content with
  | nil =>
    cases rest with
    | nil => rfl
    | cons c rest =>
      have hc : c ≠ '"' := fun heq => h (by rw [heq]; rfl)
      simp [doubleQuotes, unquoteTail, hc]
  | cons c content ih =>
    by_cases hc : c = '"'
    · simp [doubleQuotes, hc, unquoteTail, ih]
    · simp [doubleQuotes, hc, unquoteTail, ih]

theorem unreturned_doubleQuotes (cs : List Char) :
    unreturned (doubleQuotes cs) = doubleQuotes (unreturned cs) := by
  induction cs with
  | nil => rfl
  | cons c cs ih =>
    by_cases hc : c = '"'
    · simp [doubleQuotes, unreturned, hc, ih]
    · by_cases hpair : c = '\r' ∧ cs.head? = some '\n'
      · simp [doubleQuotes, unreturned, hpair, head?_doubleQuotes, ih]
      · simp [doubleQuotes, unreturned, hc, hpair, head?_doubleQuotes, ih]

theorem unreturned_append_quote (cs ds : List Char) :
    unreturned (cs ++ '"' :: ds) = unreturned cs ++ '"' :: unreturned ds := by
  induction cs with
  | nil => simp [unreturned]
  | cons c cs ih =>
    have hhead : (cs ++ '"' :: ds).head? = some '\n' ↔ cs.head? = some '\n' := by
      cases cs <;> simp
    simp only [List.cons_append, unreturned, hhead, ih]
    split <;> rfl

theorem head?_of_unreturned {cs : List Char} (h : (unreturned cs).head? = some '"') :
    cs.head? = some '"' := by
  cases cs with
  | nil => exact h
  | cons c cs =>
    rw [unreturned] at h
    split at h
    · next hpair =>
      obtain ⟨ds, rfl⟩ : ∃ ds, cs = '\n' :: ds := List.head?_eq_some_iff.mp hpair.2
      simp [unreturned] at h
    · exact h

end Chars

namespace AttributeValue

/-- A value that begins with a quoted string says what was quoted, whatever follows it. -/
theorem read_quoted {rest : List Char} (h : rest.head? ≠ some '"') (v : List Char) :
    read (String.ofList ('"' :: (doubleQuotes v ++ '"' :: rest))) = .string (String.ofList v) := by
  have hblank : isBlank '"' = false := by decide
  have htrim : Chars.trim ('"' :: (doubleQuotes v ++ '"' :: rest)) =
      '"' :: (doubleQuotes v ++ '"' :: trimEnd rest) := by
    have hlast := @not_blank_of_concat ('"' :: doubleQuotes v) '"' hblank
    have hend := @trimEnd_append_left _ rest hlast
    rw [Chars.trim, trimStart_eq_self (fun c hc => by cases hc; exact hblank)]
    simpa using hend
  have hhead : (trimEnd rest).head? ≠ some '"' := by
    obtain ⟨blanks, hcut, -, -⟩ := exists_trimEnd rest
    intro hquote
    rw [hcut, List.head?_append, hquote] at h
    exact h rfl
  obtain ⟨c, cs, hcons⟩ : ∃ c cs, doubleQuotes v ++ '"' :: trimEnd rest = c :: cs :=
    List.exists_cons_of_ne_nil (by simp)
  have hread : read (String.ofList ('"' :: (doubleQuotes v ++ '"' :: rest))) =
      .string (String.ofList (unquote ('"' :: (doubleQuotes v ++ '"' :: trimEnd rest)))) := by
    rw [read, String.toList_ofList, htrim, hcons]
    rfl
  rw [hread]
  exact congrArg (fun cs => AttributeValue.string (String.ofList cs))
    (unquoteTail_before hhead v)

/-- Blanks behind a value are no part of it. -/
theorem read_append_blanks (cs : List Char) {blanks : List Char} (h : ∀ c ∈ blanks, isBlank c) :
    read (String.ofList (cs ++ blanks)) = read (String.ofList cs) := by
  unfold read
  rw [String.toList_ofList, String.toList_ofList, trim_append_blanks cs h]

end AttributeValue

namespace MarkupLine

theorem isBlank_of_isNameChar {c : Char} (h : isNameChar c) : isBlank c = false := by
  have hbounds : 33 ≤ c.toNat ∧ c.toNat ≤ 126 := by
    simp only [isNameChar, Bool.or_eq_true, beq_iff_eq] at h
    rcases h with h | rfl
    · delta Char.isAlphanum Char.isAlpha Char.isUpper Char.isLower Char.isDigit at h
      simp only [Bool.or_eq_true, Bool.and_eq_true, decide_eq_true_eq, UInt32.le_iff_toNat_le,
        ge_iff_le] at h
      change ((65 ≤ c.toNat ∧ c.toNat ≤ 90) ∨ 97 ≤ c.toNat ∧ c.toNat ≤ 122) ∨
        48 ≤ c.toNat ∧ c.toNat ≤ 57 at h
      omega
    · decide
  simp only [isBlank, Bool.or_eq_false_iff, Bool.and_eq_false_iff, decide_eq_false_iff_not,
    beq_eq_false_iff_ne]
  omega

theorem read_congr {line line' : List Char} (h : Chars.trim line = Chars.trim line') :
    read line = read line' := by
  unfold read
  rw [h]

theorem read_dropEnding_return (line : List Char) : read (dropEnding ['\r'] line) = read line :=
  read_congr (trim_dropEnding_return line)

theorem trim_of_brackets (inner : List Char) :
    trim ('[' :: (inner ++ [']'])) = '[' :: (inner ++ [']']) :=
  trim_delimited (by decide) (by decide) inner

theorem read_opening_line {tag : String} (h : IsName tag.toList) :
    read ('[' :: (tag.toList ++ [']'])) = .opening tag := by
  rw [read_eq_opening, trim_of_brackets, opening?_eq_some]
  exact ⟨h, .inl rfl⟩

theorem read_closing_line {tag : String} (h : IsName tag.toList) :
    read ('[' :: ('/' :: tag.toList ++ [']'])) = .closing tag := by
  rw [read_eq_closing, trim_of_brackets, closing?_eq_some]
  exact ⟨h, rfl⟩

/-- A key is cut off at its equals sign, and both sides lose the blanks at their edges. -/
theorem read_spaced_key {key : String} (h : IsName key.toList) {gap : List Char}
    (hgap : ∀ c ∈ gap, isBlank c) (value : List Char) :
    read (key.toList ++ gap ++ '=' :: value) = .assignment key (trimStart (trimEnd value)) := by
  obtain ⟨first, name, hfirst⟩ := List.exists_cons_of_ne_nil h.ne_nil
  have hname : ∀ c ∈ key.toList, isBlank c = false :=
    fun c hc => isBlank_of_isNameChar (h.chars c hc)
  have htrim : trim (key.toList ++ gap ++ '=' :: value) =
      key.toList ++ gap ++ '=' :: trimEnd value := by
    have hstart : trimStart (key.toList ++ gap ++ '=' :: value) =
        (key.toList ++ gap ++ ['=']) ++ value := by
      rw [trimStart_eq_self]
      · simp
      · intro c hc
        rw [hfirst] at hc hname
        cases hc
        exact hname first List.mem_cons_self
    rw [Chars.trim, hstart, trimEnd_append_left (not_blank_of_concat (by decide)),
      List.append_assoc]
    rfl
  have hequals : '=' ∉ key.toList ++ gap := by
    intro hmem
    rcases List.mem_append.mp hmem with hmem | hmem
    · exact h.not_mem (by decide) hmem
    · exact absurd (hgap _ hmem) (by decide)
  have hkey : trim (key.toList ++ gap) = key.toList := by
    rw [trim_append_blanks _ hgap, trim_eq_self]
    · exact fun c hc => hname c (List.mem_of_head? hc)
    · exact fun c hc => hname c (List.mem_of_getLast? hc)
  rw [read_eq_assignment, htrim, assignment?_eq_some]
  exact ⟨_, _, rfl, hequals, h, hkey, rfl⟩

theorem read_key_line {key : String} (h : IsName key.toList) (value : List Char) :
    read (key.toList ++ '=' :: value) = .assignment key (trimStart (trimEnd value)) := by
  have hread := @read_spaced_key key h [] (by simp) value
  rwa [List.append_nil] at hread

end MarkupLine

/-- What is kept of a quoted value. -/
def keptOf (v : List Char) : List Char :=
  match splitOnce '\n' v with
  | none => v
  | some (first, rest) => trimEnd first ++ '\n' :: rest

theorem keptOf_of_not_mem {v : List Char} (h : '\n' ∉ v) : keptOf v = v := by
  rw [keptOf, splitOnce_eq_none.mpr h]

theorem keptOf_break {first : List Char} (h : '\n' ∉ first) (rest : List Char) :
    keptOf (first ++ '\n' :: rest) = trimEnd first ++ '\n' :: rest := by
  rw [keptOf, splitOnce_eq_some.mpr ⟨rfl, h⟩]

theorem keptOf_unreturned_break {first : List Char} (h : '\n' ∉ first) (rest : List Char) :
    keptOf (unreturned (first ++ '\n' :: rest)) = trimEnd first ++ '\n' :: unreturned rest := by
  have hdropped : '\n' ∉ dropEnding ['\r'] first := by
    obtain ⟨blanks, hfirst, -⟩ := exists_dropEnding_return first
    rw [hfirst, List.mem_append, not_or] at h
    exact h.1
  rw [unreturned_append h, keptOf_break hdropped, trimEnd_dropEnding_return]

/-- The end of the first line is all that may be lost, be it in front of a quote or behind it. -/
theorem keptOf_append_quote (cs ds : List Char) :
    keptOf (cs ++ '"' :: ds) =
      keptOf cs ++ '"' :: if '\n' ∈ cs then ds else keptOf ds := by
  induction cs using line_induction with
  | last cs hcs =>
    rw [keptOf_of_not_mem hcs, if_neg hcs]
    induction ds using line_induction with
    | last ds hds =>
      rw [keptOf_of_not_mem hds, keptOf_of_not_mem (by simp [hcs, hds])]
    | cons line more hline _ =>
      have hfirst : '\n' ∉ cs ++ '"' :: line := by simp [hcs, hline]
      have htrim := @trimEnd_append_left (cs ++ ['"']) line (not_blank_of_concat (by decide))
      rw [List.append_assoc, List.append_assoc] at htrim
      rw [← List.cons_append, ← List.append_assoc, keptOf_break hfirst, keptOf_break hline]
      simpa using congrArg (· ++ '\n' :: more) htrim
  | cons line more hline _ =>
    rw [List.append_assoc, List.cons_append, keptOf_break hline, keptOf_break hline]
    simp

theorem keptOf_doubleQuotes (v : List Char) :
    keptOf (doubleQuotes v) = doubleQuotes (keptOf v) := by
  induction v using line_induction with
  | last v hv => rw [keptOf_of_not_mem hv, keptOf_of_not_mem (by simpa [mem_doubleQuotes] using hv)]
  | cons line more hline _ =>
    have hdoubled : '\n' ∉ doubleQuotes line := by rwa [mem_doubleQuotes]
    rw [doubleQuotes_break, keptOf_break hdoubled, keptOf_break hline, trimEnd_doubleQuotes,
      doubleQuotes_break]

theorem head?_of_keptOf {v : List Char} (h : (keptOf v).head? = some '"') :
    v.head? = some '"' := by
  induction v using line_induction with
  | last v hv => rwa [keptOf_of_not_mem hv] at h
  | cons line more hline _ =>
    obtain ⟨blanks, hcut, -, -⟩ := exists_trimEnd line
    rw [keptOf_break hline, List.head?_append] at h
    rw [hcut, List.append_assoc, List.head?_append]
    cases hhead : (trimEnd line).head? with
    | none => simp [hhead] at h
    | some c => simpa [hhead] using h

namespace AttributeValue

/-- What is kept of a value that begins with a quoted string says what is kept of the string. -/
theorem read_kept_quoted {rest : List Char} (h : rest.head? ≠ some '"') (v : List Char) :
    read (String.ofList (keptOf (unreturned ('"' :: (doubleQuotes v ++ '"' :: rest))))) =
      .string (String.ofList (keptOf (unreturned v))) := by
  have hreturns : unreturned ('"' :: (doubleQuotes v ++ '"' :: rest)) =
      '"' :: (doubleQuotes (unreturned v) ++ '"' :: unreturned rest) := by
    rw [← unreturned_doubleQuotes, ← unreturned_append_quote]
    exact unreturned_append_quote [] _
  have hlines : ∀ ds, keptOf ('"' :: ds) = '"' :: keptOf ds := fun ds => keptOf_append_quote [] ds
  rw [hreturns, hlines, keptOf_append_quote, keptOf_doubleQuotes]
  apply read_quoted
  intro hquote
  apply h
  split at hquote
  · exact head?_of_unreturned hquote
  · exact head?_of_unreturned (head?_of_keptOf hquote)

end AttributeValue

namespace Pending

theorem unfinished_eq_none {key : String} {value : List Char} :
    unfinished key value = none ↔ Delimiter.closed value := by
  unfold unfinished
  split <;> simp_all

theorem said_congr {line line' : List Char} (h : Chars.trim line = Chars.trim line') :
    said none line = said none line' := by
  unfold said
  rw [MarkupLine.read_congr h]

theorem after_congr {line line' : List Char} (h : Chars.trim line = Chars.trim line') :
    after none line = after none line' := by
  unfold after
  rw [MarkupLine.read_congr h]

section Blanks

variable {blanks : List Char} (h : ∀ c ∈ blanks, isBlank c)
include h

theorem closed_append_blanks (cs : List Char) :
    Delimiter.closed (cs ++ blanks) = Delimiter.closed cs :=
  Delimiter.closed_append_inert cs fun c hc => Delimiter.isInert_of_isBlank (h c hc)

theorem said_append_blanks (p : Pending) (line : List Char) :
    p.said (line ++ blanks) = p.said line := by
  cases p with
  | none => exact said_congr (trim_append_blanks line h)
  | some pending =>
    obtain ⟨key, value⟩ := pending
    have hjoin : value ++ '\n' :: (line ++ blanks) = (value ++ '\n' :: line) ++ blanks := by simp
    simp only [said, Statement.completed, hjoin, closed_append_blanks h,
      AttributeValue.read_append_blanks _ h]

theorem after_append_blanks (p : Pending) (line : List Char) :
    p.after (line ++ blanks) = none ↔ p.after line = none := by
  cases p with
  | none => rw [after_congr (trim_append_blanks line h)]
  | some pending =>
    obtain ⟨key, value⟩ := pending
    have hjoin : value ++ '\n' :: (line ++ blanks) = (value ++ '\n' :: line) ++ blanks := by simp
    simp only [after, unfinished_eq_none, hjoin, closed_append_blanks h]

end Blanks

theorem said_dropEnding_return (p : Pending) (line : List Char) :
    p.said (dropEnding ['\r'] line) = p.said line := by
  obtain ⟨blanks, hline, hblanks⟩ := exists_dropEnding_return line
  have hsaid := said_append_blanks hblanks p (dropEnding ['\r'] line)
  rw [← hline] at hsaid
  exact hsaid.symm

theorem after_dropEnding_return (p : Pending) (line : List Char) :
    p.after (dropEnding ['\r'] line) = none ↔ p.after line = none := by
  obtain ⟨blanks, hline, hblanks⟩ := exists_dropEnding_return line
  have hafter := after_append_blanks hblanks p (dropEnding ['\r'] line)
  rw [← hline] at hafter
  exact hafter.symm

theorem statements_ended_line (p : Pending) {line : List Char} (hfeed : '\n' ∉ line)
    (rest : List Char) :
    p.statements (lines (line ++ '\n' :: rest)) =
      p.said (dropEnding ['\r'] line) ++
        (p.after (dropEnding ['\r'] line)).statements (lines rest) := by
  rw [lines_append hfeed, statements]

theorem statements_line (p : Pending) {line : List Char} (hfeed : '\n' ∉ line)
    (hreturn : '\r' ∉ line) (rest : List Char) :
    p.statements (lines (line ++ '\n' :: rest)) =
      p.said line ++ (p.after line).statements (lines rest) := by
  rw [statements_ended_line p hfeed, dropEnding_of_not_mem hreturn]

/-- The lines of a value that is pending, if all its line feeds stand in strings. -/
theorem statements_pending {key : String} {value w : List Char} {d : Delimiter}
    (hstate : (value.foldl Delimiter.step .plain).step '\n' = d) (hhidden : d.hidesFeeds w)
    (hclosed : (w.foldl Delimiter.step d).isOutside) (rest : List Char) :
    statements (some (key, value)) (lines (w ++ '\n' :: rest)) =
      .giving key (AttributeValue.read (String.ofList (value ++ '\n' :: unreturned w))) ::
        statements none (lines rest) := by
  have hfold : ∀ cs, (value ++ '\n' :: cs).foldl Delimiter.step .plain =
      cs.foldl Delimiter.step d := by
    intro cs
    rw [List.foldl_append, List.foldl_cons, hstate]
  induction w using line_induction generalizing value d with
  | last w hfeed =>
    have hdone : Delimiter.closed (value ++ '\n' :: w) := by
      rw [Delimiter.closed, hfold, hclosed]
    have hafter : after (some (key, value)) w = none := unfinished_eq_none.mpr hdone
    rw [statements_ended_line _ hfeed, said_dropEnding_return,
      (after_dropEnding_return _ w).mpr hafter, unreturned_of_not_mem hfeed, said,
      Statement.completed, if_pos hdone]
    rfl
  | cons line more hfeed ih =>
    obtain ⟨-, hinside, hmore⟩ := Delimiter.hidesFeeds_append.mp hhidden
    obtain ⟨blanks, hline, hblanks⟩ := exists_dropEnding_return line
    have hgoes : Delimiter.closed (value ++ '\n' :: line) = false := by
      rw [Delimiter.closed, hfold, hinside rfl]
    have hkept : Delimiter.closed (value ++ '\n' :: dropEnding ['\r'] line) = false := by
      rw [← hgoes, ← closed_append_blanks hblanks, List.append_assoc, List.cons_append, ← hline]
    have hstate' : ((value ++ '\n' :: dropEnding ['\r'] line).foldl Delimiter.step .plain).step
        '\n' = (line.foldl Delimiter.step d).step '\n' := by
      have hinert := fun c hc => Delimiter.isInert_of_isBlank (hblanks c hc)
      rw [hfold]
      conv_rhs => rw [hline, List.foldl_append, Delimiter.step_break_foldl_inert hinert]
    rw [List.foldl_append, List.foldl_cons] at hclosed
    rw [List.append_assoc, List.cons_append, statements_ended_line _ hfeed, said, after,
      Statement.completed, unfinished, hkept, unreturned_append hfeed]
    have hrest := ih hstate' hmore hclosed (fun cs => by
      rw [List.foldl_append, List.foldl_cons, hstate'])
    simpa using hrest

theorem statements_key_line {key : String} (hkey : MarkupLine.IsName key.toList)
    {value : List Char} (hfeed : '\n' ∉ value) (rest : List Char) :
    statements none (lines (key.toList ++ '=' :: value ++ '\n' :: rest)) =
      Statement.completed key (trimStart (trimEnd value)) ++
        (unfinished key (trimStart (trimEnd value))).statements (lines rest) := by
  have hname := hkey.not_mem (show MarkupLine.isNameChar '\n' = false by decide)
  rw [statements_ended_line none (by simp [hname, hfeed])]
  simp only [said, after, MarkupLine.read_dropEnding_return, MarkupLine.read_key_line hkey]

/-- A value of any number of lines, from the line with its key on. That line is trimmed before the
value is known to go on. -/
theorem statements_value {key : String} (hkey : MarkupLine.IsName key.toList) {w : List Char}
    (hhead : ∀ c ∈ w.head?, isBlank c = false) (hhidden : Delimiter.plain.hidesFeeds w)
    (hclosed : Delimiter.closed w) (rest : List Char) :
    statements none (lines (key.toList ++ '=' :: w ++ '\n' :: rest)) =
      .giving key (AttributeValue.read (String.ofList (keptOf (unreturned w)))) ::
        statements none (lines rest) := by
  induction w using line_induction with
  | last w hfeed =>
    obtain ⟨blanks, hw, hblanks, -⟩ := exists_trimEnd w
    have hdone : Delimiter.closed (trimEnd w) := by
      rwa [← closed_append_blanks hblanks, ← hw]
    have hread : AttributeValue.read (String.ofList (trimEnd w)) =
        AttributeValue.read (String.ofList w) := by
      rw [← AttributeValue.read_append_blanks _ hblanks, ← hw]
    rw [statements_key_line hkey hfeed, trimStart_trimEnd hhead, unreturned_of_not_mem hfeed,
      keptOf_of_not_mem hfeed, Statement.completed, if_pos hdone, unfinished_eq_none.mpr hdone,
      hread]
    rfl
  | cons first more hfeed _ =>
    obtain ⟨-, hinside, hmore⟩ := Delimiter.hidesFeeds_append.mp hhidden
    obtain ⟨blanks, hfirst, hblanks, -⟩ := exists_trimEnd first
    have hopen : Delimiter.closed (trimEnd first) = false := by
      rw [← closed_append_blanks hblanks, ← hfirst]
      exact hinside rfl
    have hstate : ((trimEnd first).foldl Delimiter.step .plain).step '\n' =
        (first.foldl Delimiter.step .plain).step '\n' := by
      have hinert := fun c hc => Delimiter.isInert_of_isBlank (hblanks c hc)
      conv_rhs => rw [hfirst, List.foldl_append, Delimiter.step_break_foldl_inert hinert]
    have hfirstHead : ∀ c ∈ first.head?, isBlank c = false := by
      intro c hc
      apply hhead c
      rw [List.head?_append, Option.mem_def.mp hc]
      rfl
    have hpending := @statements_pending key _ _ _ hstate hmore
      (by rwa [Delimiter.closed, List.foldl_append, List.foldl_cons] at hclosed) rest
    rw [List.append_assoc, List.cons_append, List.append_assoc, List.cons_append,
      ← List.cons_append, ← List.append_assoc, statements_key_line hkey hfeed,
      trimStart_trimEnd hfirstHead, keptOf_unreturned_break hfeed, Statement.completed, unfinished,
      hopen, ← hpending]
    rfl

theorem statements_keyed {key : String} (hkey : MarkupLine.IsName key.toList)
    (v rest : List Char) :
    statements none (lines (key.toList ++ '=' :: '"' :: (doubleQuotes v ++ '"' :: '\n' :: rest))) =
      .giving key (.string (String.ofList (keptOf (unreturned v)))) ::
        statements none (lines rest) := by
  have hvalue := @statements_value key hkey ('"' :: (doubleQuotes v ++ ['"']))
    (fun c hc => by cases hc; decide) (Delimiter.hidesFeeds_quoted v) (Delimiter.closed_quoted v)
    rest
  rw [AttributeValue.read_kept_quoted (by simp)] at hvalue
  simpa using hvalue

end Pending

/-- A block with one attribute, whose value is quoted. -/
def quotedBlock (tag key v : String) : String :=
  "[" ++ tag ++ "]\n" ++ key ++ "=\"" ++ String.ofList (doubleQuotes v.toList) ++ "\"\n[/" ++ tag ++
    "]"

theorem toList_quotedBlock (tag key v ending : String) :
    (quotedBlock tag key v ++ ending).toList =
      ('[' :: (tag.toList ++ [']'])) ++ '\n' :: (key.toList ++ '=' :: '"' ::
        (doubleQuotes v.toList ++ '"' :: '\n' :: ('[' :: ('/' :: tag.toList ++ [']']) ++
          ending.toList))) := by
  simp [quotedBlock]

theorem lines_ended {line ending : List Char} (hne : line ≠ []) (hfeed : '\n' ∉ line)
    (hreturn : '\r' ∉ line) (hending : ending = [] ∨ ending = ['\n']) :
    lines (line ++ ending) = [line] := by
  rcases hending with rfl | rfl
  · rw [List.append_nil, lines_of_not_mem hne hfeed]
  · rw [lines_append hfeed, dropEnding_of_not_mem hreturn, lines_nil]

theorem statementsOf_quotedBlock {tag key v ending : String} (htag : MarkupLine.IsName tag.toList)
    (hkey : MarkupLine.IsName key.toList) (hv : '\r' ∉ v.toList)
    (hending : ending = "" ∨ ending = "\n") :
    statementsOf (quotedBlock tag key v ++ ending) =
      [.opening tag, .giving key (.string (String.ofList (keptOf v.toList))), .closing tag] := by
  have hopening : Pending.said none ('[' :: (tag.toList ++ [']'])) = [.opening tag] ∧
      Pending.after none ('[' :: (tag.toList ++ [']'])) = none := by
    simp only [Pending.said, Pending.after, MarkupLine.read_opening_line htag, and_self]
  have hclosing : Pending.said none ('[' :: ('/' :: tag.toList ++ [']'])) = [.closing tag] ∧
      Pending.after none ('[' :: ('/' :: tag.toList ++ [']'])) = none := by
    simp only [Pending.said, Pending.after, MarkupLine.read_closing_line htag, and_self]
  have hnone : ¬ ['\r', '\n'] <:+: v.toList := fun hpair => hv (hpair.subset List.mem_cons_self)
  have hfeed := htag.not_mem (show MarkupLine.isNameChar '\n' = false by decide)
  have hreturn := htag.not_mem (show MarkupLine.isNameChar '\r' = false by decide)
  have hlast := @lines_ended ('[' :: ('/' :: tag.toList ++ [']'])) ending.toList (by simp)
    (by simp [hfeed]) (by simp [hreturn]) (by rcases hending with rfl | rfl <;> simp)
  rw [statementsOf, toList_quotedBlock,
    Pending.statements_line _ (by simp [hfeed]) (by simp [hreturn]), hopening.1, hopening.2,
    Pending.statements_keyed hkey, unreturned_eq_self_iff.mpr hnone, hlast, Pending.statements,
    hclosing.1, hclosing.2]
  rfl

theorem extractRecords_quotedBlock {tag key v ending : String}
    (htag : MarkupLine.IsName tag.toList) (hkey : MarkupLine.IsName key.toList)
    (hv : '\r' ∉ v.toList) (hending : ending = "" ∨ ending = "\n") :
    extractRecords (quotedBlock tag key v ++ ending) =
      [{ tag := tag, attributes := [(key, .string (String.ofList (keptOf v.toList)))] }] := by
  rw [extractRecords_eq, statementsOf_quotedBlock htag hkey hv hending]
  simp [Extraction.obey, Extraction.set, Extraction.close, Extraction.closeThrough,
    Extraction.finish, Extraction.closeAll, Record.setAttribute, Assoc.insert]

theorem keptOf_eq_self_iff {v : List Char} :
    keptOf v = v ↔ ∀ first rest, v = first ++ '\n' :: rest → '\n' ∉ first →
      ∀ c ∈ first.getLast?, isBlank c = false := by
  unfold keptOf
  constructor
  · intro h first rest hv hfeed
    rw [splitOnce_eq_some.mpr ⟨hv, hfeed⟩, hv] at h
    exact trimEnd_eq_self_iff.mp (List.append_cancel_right h)
  · intro h
    cases hcut : splitOnce '\n' v with
    | none => rfl
    | some cut =>
      obtain ⟨first, rest⟩ := cut
      obtain ⟨rfl, hfeed⟩ := splitOnce_eq_some.mp hcut
      exact congrArg (· ++ '\n' :: rest)
        (trimEnd_eq_self_iff.mpr (h first rest rfl hfeed))

/-- Extraction gives a quoted value back as it was, unless the value has several lines and the first
ends in a blank. -/
theorem quoted_value_kept_but_for_first_line_end {tag key v : String}
    (htag : MarkupLine.IsName tag.toList) (hkey : MarkupLine.IsName key.toList)
    (hv : '\r' ∉ v.toList) :
    (∀ ending ∈ ["", "\n"], extractRecords (quotedBlock tag key v ++ ending) =
      [{ tag := tag, attributes := [(key, .string (String.ofList (keptOf v.toList)))] }]) ∧
    (keptOf v.toList = v.toList ↔ ∀ first rest, v.toList = first ++ '\n' :: rest → '\n' ∉ first →
      ∀ c ∈ first.getLast?, isBlank c = false) := by
  refine ⟨?_, keptOf_eq_self_iff⟩
  intro ending hending
  exact extractRecords_quotedBlock htag hkey hv (by simpa using hending)

theorem speech_kept :
    '\r' ∉ "<<\"Halt!\"\n [/unit] \n\n#".toList ∧
      extractRecords (quotedBlock "unit" "cry_1" "<<\"Halt!\"\n [/unit] \n\n#") =
        [{ tag := "unit", attributes := [("cry_1", .string "<<\"Halt!\"\n [/unit] \n\n#")] }] := by
  have hv : '\r' ∉ "<<\"Halt!\"\n [/unit] \n\n#".toList := by decide
  have hkept := (@quoted_value_kept_but_for_first_line_end "unit" "cry_1" _ (by decide) (by decide)
    hv).1 "" (by simp)
  exact ⟨hv, hkept⟩

theorem blank_before_second_line_lost :
    (∀ ending ∈ ["", "\n"], extractRecords (quotedBlock "t" "k" "a \nb" ++ ending) =
      [{ tag := "t", attributes := [("k", .string "a\nb")] }]) ∧
    extractRecords (quotedBlock "t" "k" "a \nb") ≠
      [{ tag := "t", attributes := [("k", .string "a \nb")] }] := by
  have hlost : ∀ ending ∈ ["", "\n"], extractRecords (quotedBlock "t" "k" "a \nb" ++ ending) =
      [{ tag := "t", attributes := [("k", .string "a\nb")] }] := by
    intro ending hending
    exact extractRecords_quotedBlock (by decide) (by decide) (by decide) (by simpa using hending)
  refine ⟨hlost, ?_⟩
  have hextracted := hlost "" (by simp)
  rw [String.append_empty] at hextracted
  rw [hextracted]
  simp

end CampaignMarkup
