import CampaignMarkup.Proofs.Token.Cuts
import Mathlib.Computability.Language

/-! # The patterns of the lexemes

Each shape as the language of the texts that have it. The scanner cuts the longest match of any
pattern off the front, again and again, and no other list of lexemes does that. -/
namespace CampaignMarkup

namespace Lexeme

open Text Chars
open scoped Computability

/-- One character of a class. -/
def one (p : Char → Bool) : Language Char :=
  {w | ∃ c, p c ∧ w = [c]}

def pattern : Shape → Language Char
  | .comment => {['#']} * (one (!isLineBreak ·))∗
  | .endOfLine => {['\r', '\n']} + one isLineBreak
  | .whitespace => one isGap * (one isGap)∗
  | .quoted => {['"']} * (one (· ≠ '"') + {['"', '"']})∗ * ({['"']} + 1)
  | .rawQuoted => {['<', '<']} * (one (· ≠ '>') + {['>']} * one (· ≠ '>'))∗ *
      ({['>', '>']} + {['>']} + 1)
  | .macroCall => {['{']} * (one (· ≠ '}'))∗ * ({['}']} + 1)
  | .loneAngle => {['<']}
  | .text => one isPlain * (one isPlain)∗

theorem append_mem_kstar {l : Language Char} {u v : List Char} (hu : u ∈ l) (hv : v ∈ l∗) :
    u ++ v ∈ l∗ := by
  obtain ⟨parts, rfl, hparts⟩ := Language.mem_kstar.mp hv
  exact Language.mem_kstar.mpr ⟨u :: parts, rfl, by simpa using ⟨hu, hparts⟩⟩

theorem kstar_induction {l : Language Char} {P : List Char → Prop} (nil : P [])
    (append : ∀ u ∈ l, ∀ v, P v → P (u ++ v)) {w : List Char} (hw : w ∈ l∗) : P w := by
  obtain ⟨parts, rfl, hparts⟩ := Language.mem_kstar.mp hw
  clear hw
  induction parts with
  | nil => exact nil
  | cons u parts ih =>
    have hrest : ∀ y ∈ parts, y ∈ l := fun y hy => hparts y (List.mem_cons_of_mem _ hy)
    exact append u (hparts u List.mem_cons_self) _ (ih hrest)

theorem mem_kstar_one {p : Char → Bool} {w : List Char} :
    w ∈ (one p)∗ ↔ ∀ c ∈ w, p c := by
  constructor
  · intro hw
    refine kstar_induction (P := fun w => ∀ c ∈ w, p c) (by simp) ?_ hw
    rintro _ ⟨c, hc, rfl⟩ v hv
    simpa using ⟨hc, hv⟩
  · intro hw
    induction w with
    | nil => exact Language.nil_mem_kstar _
    | cons c w ih =>
      exact append_mem_kstar (u := [c]) ⟨c, hw c List.mem_cons_self, rfl⟩
        (ih fun d hd => hw d (List.mem_cons_of_mem _ hd))

theorem mem_kstar_quoted {w : List Char} :
    w ∈ (one (· ≠ '"') + {['"', '"']})∗ ↔ ∃ content, w = doubleQuotes content := by
  constructor
  · intro hw
    refine kstar_induction (P := fun w => ∃ content, w = doubleQuotes content) ⟨[], rfl⟩ ?_ hw
    rintro u (⟨c, hc, rfl⟩ | rfl) v ⟨content, rfl⟩
    · have hc : c ≠ '"' := by simpa using hc
      exact ⟨c :: content, by rw [doubleQuotes, if_neg hc]; rfl⟩
    · exact ⟨'"' :: content, rfl⟩
  · rintro ⟨content, rfl⟩
    induction content with
    | nil => exact Language.nil_mem_kstar _
    | cons c content ih =>
      by_cases hc : c = '"'
      · subst hc
        exact append_mem_kstar (u := ['"', '"']) (.inr rfl) ih
      · rw [doubleQuotes, if_neg hc]
        exact append_mem_kstar (u := [c]) (.inl ⟨c, by simpa using hc, rfl⟩) ih

/-- The angles of a raw string stand alone, also the last one before the end. -/
theorem mem_kstar_rawQuoted {w : List Char} :
    w ∈ (one (· ≠ '>') + {['>']} * one (· ≠ '>'))∗ ↔ Undoubled '>' (w ++ ['>']) := by
  constructor
  · intro hw
    refine kstar_induction (P := fun w => Undoubled '>' (w ++ ['>'])) (.singleton _) ?_ hw
    rintro u (⟨c, hc, rfl⟩ | ⟨_, rfl, _, ⟨c, hc, rfl⟩, rfl⟩) v hv
    · have hc : c ≠ '>' := by simpa using hc
      exact undoubled_cons.mpr ⟨fun h => absurd h hc, hv⟩
    · have hc : c ≠ '>' := by simpa using hc
      exact undoubled_cons.mpr ⟨fun _ => by simpa using hc,
        undoubled_cons.mpr ⟨fun h => absurd h hc, hv⟩⟩
  · intro hw
    -- an angle is taken together with the character behind it
    induction hn : w.length using Nat.strong_induction_on generalizing w with
    | _ n ih =>
      cases w with
      | nil => exact Language.nil_mem_kstar _
      | cons c w =>
        obtain ⟨hc, hw⟩ := undoubled_cons.mp hw
        by_cases hangle : c = '>'
        · cases w with
          | nil => exact absurd rfl (hc hangle)
          | cons d w =>
            have hd : d ≠ '>' := by simpa using hc hangle
            have hlen : w.length < n := by
              simp only [← hn, List.length_cons]
              omega
            have hpair : ['>'] ++ [d] ∈ ({['>']} * one (· ≠ '>') : Language Char) :=
              Language.append_mem_mul rfl ⟨d, by simpa using hd, rfl⟩
            have htail : Undoubled '>' (w ++ ['>']) := (undoubled_cons.mp hw).2
            subst hangle
            exact append_mem_kstar (.inr hpair) (ih w.length hlen htail rfl)
        · exact append_mem_kstar (u := [c]) (.inl ⟨c, by simpa using hangle, rfl⟩)
            (ih w.length (by simp [← hn]) hw rfl)

/-- A text that has a shape is, alone, one lexeme. -/
theorem cutBefore_of_mem_pattern {shape : Shape} {w : List Char} :
    w ∈ pattern shape → CutBefore ⟨shape, w⟩ [] := by
  cases shape with
  | comment =>
    rintro ⟨_, rfl, body, hbody, rfl⟩
    exact .comment (fun c hc => by simpa using mem_kstar_one.mp hbody c hc) (by simp)
  | endOfLine =>
    rintro (rfl | ⟨c, hc, rfl⟩)
    · exact .returnAndFeed
    · exact .lineBreak hc (by simp)
  | whitespace =>
    rintro ⟨_, ⟨c, hc, rfl⟩, gap, hgap, rfl⟩
    exact .whitespace (by simp) (by simpa using ⟨hc, mem_kstar_one.mp hgap⟩) (by simp)
  | quoted =>
    rintro ⟨_, ⟨_, rfl, body, hbody, rfl⟩, ending, hending, rfl⟩
    obtain ⟨content, rfl⟩ := mem_kstar_quoted.mp hbody
    rcases hending with rfl | rfl
    · exact .quoted (by simp)
    · have hopen : CutBefore ⟨.quoted, '"' :: doubleQuotes content⟩ [] := .openQuoted
      simpa using hopen
  | rawQuoted =>
    rintro ⟨_, ⟨_, rfl, body, hbody, rfl⟩, ending, hending, rfl⟩
    have hbody := mem_kstar_rawQuoted.mp hbody
    rcases hending with (rfl | rfl) | rfl
    · have hclosed : CutBefore ⟨.rawQuoted, '<' :: '<' :: (body ++ ['>', '>'])⟩ [] :=
        .rawQuoted hbody
      simpa using hclosed
    · exact .openRawQuoted hbody
    · simpa using CutBefore.openRawQuoted (undoubled_append.mp hbody).1
  | macroCall =>
    rintro ⟨_, ⟨_, rfl, body, hbody, rfl⟩, ending, hending, rfl⟩
    have hbody : '}' ∉ body := fun h => by simpa using mem_kstar_one.mp hbody _ h
    rcases hending with rfl | rfl
    · exact .macroCall hbody
    · simpa using CutBefore.openMacroCall hbody
  | loneAngle =>
    rintro rfl
    exact .loneAngle (by simp)
  | text =>
    rintro ⟨_, ⟨c, hc, rfl⟩, run, hrun, rfl⟩
    exact .text (by simp) (by simpa using ⟨hc, mem_kstar_one.mp hrun⟩) (by simp)

theorem CutBefore.mem_pattern {x : Lexeme} {rest : List Char} (h : x.CutBefore rest) :
    x.chars ∈ pattern x.shape := by
  cases h with
  | comment hbody _ =>
    exact ⟨_, rfl, _, mem_kstar_one.mpr fun c hc => by simp [hbody c hc], rfl⟩
  | returnAndFeed => exact .inl rfl
  | lineBreak hc _ => exact .inr ⟨_, hc, rfl⟩
  | @whitespace gap _ hne hgap =>
    obtain ⟨c, gap, rfl⟩ := List.exists_cons_of_ne_nil hne
    obtain ⟨hc, hgap⟩ := List.forall_mem_cons.mp hgap
    exact ⟨_, ⟨c, hc, rfl⟩, gap, mem_kstar_one.mpr hgap, rfl⟩
  | quoted _ => exact ⟨_, ⟨_, rfl, _, mem_kstar_quoted.mpr ⟨_, rfl⟩, rfl⟩, _, .inl rfl, rfl⟩
  | @openQuoted content =>
    exact ⟨_, ⟨_, rfl, _, mem_kstar_quoted.mpr ⟨content, rfl⟩, rfl⟩, [], .inr rfl, by simp⟩
  | @rawQuoted content _ hcontent =>
    exact ⟨_, ⟨_, rfl, _, mem_kstar_rawQuoted.mpr hcontent, rfl⟩, _, .inl (.inl rfl), rfl⟩
  | @openRawQuoted content hcontent =>
    -- a last angle is no part of the repetition
    by_cases hlast : content.getLast? = some '>'
    · obtain ⟨body, rfl⟩ := List.getLast?_eq_some_iff.mp hlast
      exact ⟨_, ⟨_, rfl, body, mem_kstar_rawQuoted.mpr hcontent, rfl⟩, _, .inl (.inr rfl), rfl⟩
    · have hbody : Undoubled '>' (content ++ ['>']) :=
        undoubled_append.mpr ⟨hcontent, .singleton _, fun h => absurd h hlast⟩
      exact ⟨_, ⟨_, rfl, content, mem_kstar_rawQuoted.mpr hbody, rfl⟩, [], .inr rfl, by simp⟩
  | @macroCall content _ hcontent =>
    have hbody : ∀ c ∈ content, decide (c ≠ '}') := by
      simpa using fun c hc h => hcontent (by rwa [← h])
    exact ⟨_, ⟨_, rfl, _, mem_kstar_one.mpr hbody, rfl⟩, _, .inl rfl, rfl⟩
  | @openMacroCall content hcontent =>
    have hbody : ∀ c ∈ content, decide (c ≠ '}') := by
      simpa using fun c hc h => hcontent (by rwa [← h])
    exact ⟨_, ⟨_, rfl, content, mem_kstar_one.mpr hbody, rfl⟩, [], .inr rfl, by simp⟩
  | loneAngle _ => exact rfl
  | @text run _ hne hrun =>
    obtain ⟨c, run, rfl⟩ := List.exists_cons_of_ne_nil hne
    obtain ⟨hc, hrun⟩ := List.forall_mem_cons.mp hrun
    exact ⟨_, ⟨c, hc, rfl⟩, run, mem_kstar_one.mpr hrun, rfl⟩

/-- Two lexemes that can be cut off the same text are one. -/
theorem CutBefore.unique {x y : Lexeme} {rest rest' : List Char} (hx : x.CutBefore rest)
    (hy : y.CutBefore rest') (h : x.chars ++ rest = y.chars ++ rest') : x = y ∧ rest = rest' := by
  obtain ⟨c, cs, hcs, hnext⟩ := hx.next_eq
  obtain ⟨d, ds, hds, hnext'⟩ := hy.next_eq
  rw [hcs, hds] at h
  obtain ⟨rfl, rfl⟩ := List.cons.inj h
  exact Prod.mk.inj (hnext.symm.trans hnext')

/-- The lexeme is a match at the front of the text, and no pattern matches more. -/
structure LongestMatch (text : List Char) (x : Lexeme) : Prop where
  mem_pattern : x.chars ∈ pattern x.shape
  isPrefix : x.chars <+: text
  longest : ∀ shape, ∀ w ∈ pattern shape, w <+: text → w.length ≤ x.chars.length

/-- A longer match would be a lexeme by itself, while what the cut leaves of it cannot begin where
the cut was made. -/
theorem CutBefore.longestMatch {x : Lexeme} {rest : List Char} (h : x.CutBefore rest) :
    LongestMatch (x.chars ++ rest) x := by
  refine ⟨h.mem_pattern, List.prefix_append _ _, fun shape w hw hprefix => ?_⟩
  by_contra hlonger
  obtain ⟨more, rfl⟩ := List.prefix_of_prefix_length_le (List.prefix_append x.chars rest) hprefix
    (by omega)
  have hmore : more ≠ [] := by
    rintro rfl
    simp at hlonger
  obtain ⟨c, more, rfl⟩ := List.exists_cons_of_ne_nil hmore
  obtain ⟨after, rfl⟩ := (List.prefix_append_right_inj x.chars).mp hprefix
  have hcut : x.CutBefore (c :: more) := h.of_head (by simp) rfl
  have hwhole := cutBefore_of_mem_pattern hw
  have hnil := (hcut.unique hwhole (by simp)).2
  cases hnil

/-- The longest matches, one behind the other. -/
inductive Munches : List Char → List Lexeme → Prop where
  | done : Munches [] []
  | cut {x rest xs} : LongestMatch (x.chars ++ rest) x → Munches rest xs →
      Munches (x.chars ++ rest) (x :: xs)

theorem LongestMatch.eq {text : List Char} {x y : Lexeme} (hx : LongestMatch text x)
    (hy : LongestMatch text y) : x = y := by
  have hlen : x.chars.length = y.chars.length :=
    Nat.le_antisymm (hy.longest _ _ hx.mem_pattern hx.isPrefix)
      (hx.longest _ _ hy.mem_pattern hy.isPrefix)
  have hchars : x.chars = y.chars :=
    (List.prefix_of_prefix_length_le hx.isPrefix hy.isPrefix hlen.le).eq_of_length hlen
  have hone := (cutBefore_of_mem_pattern hx.mem_pattern).unique
    (cutBefore_of_mem_pattern hy.mem_pattern) (by rw [hchars])
  exact hone.1

theorem munches_scan (text : List Char) : Munches text (scan text) := by
  induction text using scan_induction with
  | nil => rw [scan_nil]; exact .done
  | cut x rest h ih =>
    rw [h.scan_eq]
    exact .cut h.longestMatch ih

/-- The scanner is the longest-match scanner of the patterns. -/
theorem munches_iff {text : List Char} {xs : List Lexeme} : Munches text xs ↔ xs = scan text := by
  constructor
  · intro h
    induction h with
    | done => rw [scan_nil]
    | @cut x rest xs hx _ ih =>
      have hne := (cutBefore_of_mem_pattern hx.mem_pattern).ne_nil
      obtain ⟨c, cs, hcs⟩ := List.exists_cons_of_ne_nil (List.append_ne_nil_of_left_ne_nil hne rest)
      have hcut := cutBefore_next c cs
      have hlongest := hcut.longestMatch
      rw [next_append] at hlongest
      rw [hcs] at hx
      have hsame := hx.eq hlongest
      have hrest : rest = (next c cs).2 := by
        have htext := hcs.trans (next_append c cs).symm
        rw [hsame] at htext
        exact List.append_cancel_left htext
      rw [hcs, scan, ← hsame, ← hrest, ih]
  · rintro rfl
    exact munches_scan text

end Lexeme

end CampaignMarkup
