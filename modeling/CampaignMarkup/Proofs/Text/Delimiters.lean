import CampaignMarkup.Text.Blank
import CampaignMarkup.Text.Delimiter
import CampaignMarkup.Proofs.Token.Cuts

/-! # Following quotes and raw stretches

Most characters mean nothing to a reader of delimiters. It leaves a string where the string is
closed, and a raw stretch behind the first pair of closing brackets. -/
namespace CampaignMarkup

namespace Delimiter

open Text Chars

/-- The characters that delimit nothing. -/
def isInert (c : Char) : Bool :=
  c != '"' && c != '<' && c != '>'

theorem isInert_of_isBlank {c : Char} (h : isBlank c) : isInert c := by
  have hne : ∀ d, isBlank d = false → c ≠ d := by
    rintro _ hd rfl
    simp [h] at hd
  simp [isInert, hne '"' (by decide), hne '<' (by decide), hne '>' (by decide)]

theorem step_inert {c : Char} (h : isInert c) (d : Delimiter) : d.step c = d.step '\n' := by
  simp only [isInert, Bool.and_eq_true, bne_iff_ne] at h
  obtain ⟨⟨hquote, hopen⟩, hclose⟩ := h
  cases d <;> simp [step, hquote, hopen, hclose]

/-- Behind a character that means nothing the reader stands where it stands behind any other. -/
theorem step_break_inert {c : Char} (h : isInert c) (d : Delimiter) :
    (d.step c).step '\n' = d.step '\n' := by
  rw [step_inert h]
  cases d <;> rfl

theorem isOutside_step_inert {c : Char} (h : isInert c) (d : Delimiter) :
    (d.step c).isOutside = d.isOutside := by
  rw [step_inert h]
  cases d <;> rfl

theorem isOutside_foldl_inert {cs : List Char} (h : ∀ c ∈ cs, isInert c) (d : Delimiter) :
    (cs.foldl step d).isOutside = d.isOutside := by
  induction cs generalizing d with
  | nil => rfl
  | cons c cs ih =>
    obtain ⟨hc, hcs⟩ := List.forall_mem_cons.mp h
    rw [List.foldl_cons, ih hcs, isOutside_step_inert hc]

theorem closed_append_inert (cs : List Char) {ds : List Char} (h : ∀ c ∈ ds, isInert c) :
    closed (cs ++ ds) = closed cs := by
  rw [closed, closed, List.foldl_append, isOutside_foldl_inert h]

theorem step_break_foldl_inert {cs : List Char} (h : ∀ c ∈ cs, isInert c) (d : Delimiter) :
    (cs.foldl step d).step '\n' = d.step '\n' := by
  induction cs generalizing d with
  | nil => rfl
  | cons c cs ih =>
    obtain ⟨hc, hcs⟩ := List.forall_mem_cons.mp h
    rw [List.foldl_cons, ih hcs, step_break_inert hc]

theorem foldl_inert {cs : List Char} (h : ∀ c ∈ cs, isInert c) :
    cs.foldl step .plain = .plain := by
  induction cs with
  | nil => rfl
  | cons c cs ih =>
    obtain ⟨hc, hcs⟩ := List.forall_mem_cons.mp h
    rw [List.foldl_cons, step_inert hc]
    exact ih hcs

theorem foldl_doubleQuotes (content : List Char) :
    (doubleQuotes content).foldl step .quoted = .quoted := by
  induction content with
  | nil => rfl
  | cons c content ih =>
    by_cases hc : c = '"'
    · simpa [doubleQuotes, hc, step] using ih
    · simpa [doubleQuotes, hc, step] using ih

theorem foldl_raw {content : List Char} (h : Undoubled '>' content) :
    content.foldl step .raw = if content.getLast? = some '>' then .rawClosing else .raw := by
  induction content using List.reverseRecOn with
  | nil => rfl
  | append_singleton content c ih =>
    obtain ⟨hcontent, -, hpair⟩ := undoubled_append.mp h
    rw [List.foldl_append, ih hcontent, List.getLast?_concat]
    by_cases hlast : content.getLast? = some '>'
    · have hc : c ≠ '>' := by simpa using hpair hlast
      simp [hlast, hc, step]
    · by_cases hc : c = '>'
      · simp [hlast, hc, step]
      · simp [hlast, hc, step]

theorem step_of_isOutside {d : Delimiter} (h : d.isOutside) {c : Char} (hquote : c ≠ '"')
    (hangle : c ≠ '<') : d.step c = .plain := by
  cases d with
  | plain => simp [step, hquote, hangle]
  | angle => simp [step, hquote, hangle]
  | quoted => cases h
  | raw => cases h
  | rawClosing => cases h

theorem step_ne_angle (d : Delimiter) {c : Char} (hc : c ≠ '<') : d.step c ≠ .angle := by
  cases d with
  | plain => by_cases hquote : c = '"' <;> simp [step, hquote, hc]
  | angle => by_cases hquote : c = '"' <;> simp [step, hquote, hc]
  | quoted => by_cases hquote : c = '"' <;> simp [step, hquote]
  | raw => by_cases hclose : c = '>' <;> simp [step, hclose]
  | rawClosing => by_cases hclose : c = '>' <;> simp [step, hclose]

theorem step_eq_plain {d : Delimiter} {c : Char} (h : (d.step c).isOutside) (hc : c ≠ '<') :
    d.step c = .plain := by
  have hangle := d.step_ne_angle hc
  cases hd : d.step c with
  | plain => rfl
  | angle => exact absurd hd hangle
  | quoted => simp [hd, isOutside] at h
  | raw => simp [hd, isOutside] at h
  | rawClosing => simp [hd, isOutside] at h

/-- Outside strings, only an angle makes a difference to an angle behind it. -/
theorem foldl_of_isOutside {d : Delimiter} (h : d.isOutside) {c : Char} (hc : c ≠ '<')
    (cs : List Char) : (c :: cs).foldl step d = (c :: cs).foldl step .plain := by
  have hstep : d.step c = step .plain c := by
    cases d with
    | plain => rfl
    | angle => simp [step, hc]
    | quoted => cases h
    | raw => cases h
    | rawClosing => cases h
  rw [List.foldl_cons, List.foldl_cons, hstep]

theorem foldl_blanks {d : Delimiter} (h : d.isOutside) {cs : List Char} (hne : cs ≠ [])
    (hcs : ∀ c ∈ cs, isBlank c) : cs.foldl step d = .plain := by
  obtain ⟨c, cs, rfl⟩ := List.exists_cons_of_ne_nil hne
  obtain ⟨hc, hrest⟩ := List.forall_mem_cons.mp hcs
  rw [List.foldl_cons, step_inert (isInert_of_isBlank hc),
    step_of_isOutside h (by decide) (by decide)]
  exact foldl_inert fun b hb => isInert_of_isBlank (hrest b hb)

theorem foldl_openQuoted {d : Delimiter} (h : d.isOutside) (content : List Char) :
    ('"' :: doubleQuotes content).foldl step d = .quoted := by
  rw [foldl_of_isOutside h (by decide)]
  exact foldl_doubleQuotes content

theorem foldl_quoted {d : Delimiter} (h : d.isOutside) (content : List Char) :
    ('"' :: (doubleQuotes content ++ ['"'])).foldl step d = .plain := by
  rw [← List.cons_append, List.foldl_append, foldl_openQuoted h]
  rfl

theorem foldl_rawQuoted {content : List Char} (h : Undoubled '>' (content ++ ['>'])) :
    ('<' :: '<' :: (content ++ ['>', '>'])).foldl step .plain = .plain := by
  have hcontent := foldl_raw h
  rw [List.getLast?_concat, if_pos rfl] at hcontent
  rw [show ['>', '>'] = ['>'] ++ ['>'] from rfl, ← List.append_assoc, ← List.cons_append,
    ← List.cons_append, List.foldl_append]
  exact congrArg (step · '>') hcontent

theorem closed_quoted (content : List Char) :
    closed ('"' :: (doubleQuotes content ++ ['"'])) = true :=
  congrArg isOutside (foldl_quoted rfl content)

/-- Every line feed stands inside a string. -/
def hidesFeeds (d : Delimiter) : List Char → Prop
  | [] => True
  | c :: cs => (c = '\n' → d.isOutside = false) ∧ (d.step c).hidesFeeds cs

theorem hidesFeeds_append {d : Delimiter} {cs ds : List Char} :
    d.hidesFeeds (cs ++ ds) ↔ d.hidesFeeds cs ∧ (cs.foldl step d).hidesFeeds ds := by
  induction cs generalizing d with
  | nil => simp [hidesFeeds]
  | cons c cs ih => simp only [List.cons_append, hidesFeeds, ih, List.foldl_cons, and_assoc]

theorem hidesFeeds_of_not_mem {cs : List Char} (h : '\n' ∉ cs) (d : Delimiter) :
    d.hidesFeeds cs := by
  induction cs generalizing d with
  | nil => trivial
  | cons c cs ih =>
    obtain ⟨hc, hcs⟩ : '\n' ≠ c ∧ '\n' ∉ cs := by simpa using h
    exact ⟨fun heq => absurd heq.symm hc, ih hcs _⟩

theorem hidesFeeds_doubleQuotes (content : List Char) :
    quoted.hidesFeeds (doubleQuotes content) := by
  induction content with
  | nil => trivial
  | cons c content ih =>
    by_cases hc : c = '"'
    · simpa [doubleQuotes, hc, hidesFeeds, step] using ih
    · simpa [doubleQuotes, hc, hidesFeeds, step, isOutside] using ih

theorem hidesFeeds_quoted (content : List Char) :
    plain.hidesFeeds ('"' :: (doubleQuotes content ++ ['"'])) := by
  refine ⟨by decide, ?_⟩
  rw [show plain.step '"' = quoted from rfl, hidesFeeds_append]
  exact ⟨hidesFeeds_doubleQuotes content, hidesFeeds_of_not_mem (by decide) _⟩

/-- All that the text opens it closes, and no line feed stands outside its strings. -/
structure Sealed (cs : List Char) : Prop where
  hidden : plain.hidesFeeds cs
  shut : cs.foldl step .plain = .plain

theorem Sealed.append {cs ds : List Char} (h : Sealed cs) (h' : Sealed ds) : Sealed (cs ++ ds) := by
  constructor
  · rw [hidesFeeds_append, h.shut]
    exact ⟨h.hidden, h'.hidden⟩
  · rw [List.foldl_append, h.shut, h'.shut]

theorem sealed_inert {cs : List Char} (h : ∀ c ∈ cs, isInert c) (hfeed : '\n' ∉ cs) : Sealed cs :=
  ⟨hidesFeeds_of_not_mem hfeed _, foldl_inert h⟩

theorem sealed_quoted (content : List Char) : Sealed ('"' :: (doubleQuotes content ++ ['"'])) :=
  ⟨hidesFeeds_quoted content, foldl_quoted rfl content⟩

theorem Sealed.closed {cs : List Char} (h : Sealed cs) : Delimiter.closed cs :=
  congrArg isOutside h.shut

end Delimiter

end CampaignMarkup
