import CampaignMarkup.Directive.Basic
import CampaignMarkup.Proofs.Text.Lines

/-! # Words

A directive is followed by words. Words have no blank in them, and if they are written with one
blank in front of each they are read back. -/
namespace CampaignMarkup

namespace Chars

open Text

/-- A text that can be a word. -/
structure Unbroken (w : List Char) : Prop where
  ne_nil : w ≠ []
  chars : ∀ c ∈ w, isBlank c = false

theorem Unbroken.isLineBreak {w : List Char} (h : Unbroken w) :
    ∀ c ∈ w, isLineBreak c = false := by
  intro c hc
  by_contra hbreak
  have hblank := Lexeme.isBlank_of_isLineBreak (by simpa using hbreak)
  rw [h.chars c hc] at hblank
  cases hblank

theorem unbroken_of_mem_wordsFrom {word cs : List Char} (hword : ∀ c ∈ word, isBlank c = false) :
    ∀ w ∈ wordsFrom word cs, Unbroken w := by
  have hdone : word.isEmpty = false → Unbroken word.reverse := by
    intro hne
    constructor
    · simpa using hne
    · simpa using hword
  induction cs generalizing word with
  | nil =>
    rw [wordsFrom]
    cases hne : word.isEmpty with
    | true => simp
    | false => simpa using hdone hne
  | cons c cs ih =>
    have hnext : ∀ w ∈ wordsFrom [] cs, Unbroken w := ih (by simp) (by simp)
    rw [wordsFrom]
    cases hc : isBlank c with
    | true =>
      cases hne : word.isEmpty with
      | true => simpa using hnext
      | false => simpa using ⟨hdone hne, hnext⟩
    | false =>
      have hmore : ∀ d ∈ c :: word, isBlank d = false :=
        List.forall_mem_cons.mpr ⟨hc, hword⟩
      simp only [Bool.false_eq_true, if_false]
      refine ih hmore (fun _ => ⟨by simp, fun d hd => hmore d ?_⟩)
      exact List.mem_reverse.mp hd

theorem unbroken_of_mem_words {cs w : List Char} (h : w ∈ words cs) : Unbroken w :=
  unbroken_of_mem_wordsFrom (by simp) w h

theorem wordsFrom_append {w : List Char} (hw : ∀ c ∈ w, isBlank c = false)
    (word rest : List Char) : wordsFrom word (w ++ rest) = wordsFrom (w.reverse ++ word) rest := by
  induction w generalizing word with
  | nil => rfl
  | cons c w ih =>
    obtain ⟨hc, hw⟩ := List.forall_mem_cons.mp hw
    rw [List.cons_append, wordsFrom, if_neg (by simp [hc]), ih hw]
    simp

/-- Words with a blank in front of each. -/
def listed (ws : List (List Char)) : List Char :=
  ws.flatMap (' ' :: ·)

theorem listed_cons (w : List Char) (ws : List (List Char)) :
    listed (w :: ws) = ' ' :: (w ++ listed ws) := rfl

theorem isLineBreak_of_mem_listed {ws : List (List Char)} (h : ∀ w ∈ ws, Unbroken w) :
    ∀ c ∈ listed ws, isLineBreak c = false := by
  intro c hc
  obtain ⟨w, hw, hc⟩ := List.mem_flatMap.mp hc
  rcases List.mem_cons.mp hc with rfl | hc
  · decide
  · exact (h w hw).isLineBreak c hc

theorem words_append_listed {w : List Char} {ws : List (List Char)} (hw : Unbroken w)
    (hws : ∀ v ∈ ws, Unbroken v) : words (w ++ listed ws) = w :: ws := by
  have hne : ¬ w.reverse.isEmpty := by simp [hw.ne_nil]
  rw [words, wordsFrom_append hw.chars, List.append_nil]
  induction ws generalizing w with
  | nil =>
    rw [listed, List.flatMap_nil, wordsFrom, if_neg hne, List.reverse_reverse]
  | cons v ws ih =>
    obtain ⟨hv, hws⟩ := List.forall_mem_cons.mp hws
    have hrest := ih hv hws (by simp [hv.ne_nil])
    rw [listed_cons, wordsFrom, if_pos (by decide), if_neg hne, wordsFrom_append hv.chars,
      List.append_nil, hrest, List.reverse_reverse]

theorem getLast?_append_listed {w : List Char} {ws : List (List Char)} (hw : Unbroken w)
    (hws : ∀ v ∈ ws, Unbroken v) : ∀ c ∈ (w ++ listed ws).getLast?, isBlank c = false := by
  induction ws generalizing w with
  | nil =>
    intro c hc
    rw [listed, List.flatMap_nil, List.append_nil] at hc
    exact hw.chars c (List.mem_of_getLast? hc)
  | cons v ws ih =>
    obtain ⟨hv, hws⟩ := List.forall_mem_cons.mp hws
    have hne : v ++ listed ws ≠ [] := by simp [hv.ne_nil]
    intro c hc
    apply ih hv hws
    rwa [listed_cons, List.append_cons, List.getLast?_append_of_ne_nil _ hne] at hc

theorem words_trim_listed {ws : List (List Char)} (h : ∀ w ∈ ws, Unbroken w) :
    words (trim (listed ws)) = ws := by
  cases ws with
  | nil => rfl
  | cons w ws =>
    obtain ⟨hw, hws⟩ := List.forall_mem_cons.mp h
    have htrim : trim (listed (w :: ws)) = w ++ listed ws := by
      have hblank : ∀ c ∈ [' '], isBlank c := List.forall_mem_singleton.mpr rfl
      calc trim (listed (w :: ws))
          = trim ([' '] ++ (w ++ listed ws)) := rfl
        _ = trim (w ++ listed ws) := trim_blanks_append hblank _
        _ = w ++ listed ws := by
          refine trim_eq_self ?_ (getLast?_append_listed hw hws)
          intro c hc
          rw [List.head?_append_of_ne_nil _ hw.ne_nil] at hc
          exact hw.chars c (List.mem_of_mem_head? hc)
    rw [htrim, words_append_listed hw hws]

end Chars

open Chars

theorem Directive.unbroken_of_mem_args {comment : String} {d : Directive}
    (h : Directive.ofComment? comment = some d) : ∀ a ∈ d.args, Unbroken a.toList := by
  unfold Directive.ofComment? at h
  split at h
  · obtain ⟨kind, -, rfl⟩ := Option.map_eq_some_iff.mp h
    intro a ha
    obtain ⟨w, hw, rfl⟩ := List.mem_map.mp ha
    rw [String.toList_ofList]
    exact unbroken_of_mem_words hw
  · cases h

theorem DirectiveKind.ofKeyword?_keyword (kind : DirectiveKind) :
    ofKeyword? kind.keyword = some kind := by
  cases kind <;> decide

theorem DirectiveKind.unbroken_keyword (kind : DirectiveKind) : Unbroken kind.keyword.toList := by
  have hall : kind.keyword.toList.all fun c => !Text.isBlank c := by
    cases kind <;> decide
  constructor
  · cases kind <;> decide
  · simpa using hall

theorem toList_listed (names : List String) :
    (String.join (names.map (" " ++ ·))).toList = listed (names.map String.toList) := by
  induction names with
  | nil => rfl
  | cons name names ih => simp [listed, ih]

theorem toList_display_listed (kind : DirectiveKind) (names : List String) :
    (kind.display ++ String.join (names.map (" " ++ ·))).toList =
      '#' :: (kind.keyword.toList ++ listed (names.map String.toList)) := by
  rw [String.toList_append, toList_listed, DirectiveKind.display, String.toList_append]
  rfl

/-- A directive that is written out is read back. -/
theorem Directive.ofComment?_listed (kind : DirectiveKind) {names : List String}
    (h : ∀ name ∈ names, Unbroken name.toList) :
    ∃ rest, Directive.ofComment? (kind.display ++ String.join (names.map (" " ++ ·))) =
      some ⟨kind, names, rest⟩ := by
  have hkeyword := kind.unbroken_keyword.chars
  have hwords : ∀ w ∈ names.map String.toList, Unbroken w := by simpa using h
  have hhead : ∀ c ∈ (listed (names.map String.toList)).head?, (!Text.isBlank c) = false := by
    intro c hc
    cases names with
    | nil => cases hc
    | cons name names =>
      cases hc
      decide
  simp only [Directive.ofComment?, toList_display_listed,
    takeWhile_run (by simpa using hkeyword) hhead, dropWhile_run (by simpa using hkeyword) hhead,
    String.ofList_toList, kind.ofKeyword?_keyword, words_trim_listed hwords]
  simp

end CampaignMarkup
