import CampaignMarkup.Proofs.Text.Lines
import CampaignMarkup.Record.Extraction

/-! # What the lines of a text say

Which lines are read by themselves, and which attributes they complete, depends on the lines alone
and not on the blocks that are open. So a text is a list of statements, each of which opens a block,
closes blocks or gives the innermost block an attribute, and extraction carries them out in
order. -/
namespace CampaignMarkup

namespace MarkupLine

/-- One or more letters, digits and underscores. -/
structure IsName (cs : List Char) : Prop where
  ne_nil : cs ≠ []
  chars : ∀ c ∈ cs, isNameChar c

instance (cs : List Char) : Decidable (IsName cs) :=
  decidable_of_iff (cs.isEmpty = false ∧ cs.all isNameChar = true)
    ⟨fun h => ⟨by simpa using h.1, List.all_eq_true.mp h.2⟩,
      fun h => ⟨by simpa using h.ne_nil, List.all_eq_true.mpr h.chars⟩⟩

theorem name?_eq_some {cs : List Char} {s : String} :
    name? cs = some s ↔ IsName cs ∧ cs = s.toList := by
  unfold name?
  constructor
  · intro h
    split at h
    · cases h
    · next hname =>
      simp only [Bool.or_eq_true, List.isEmpty_iff, Bool.not_eq_true', not_or] at hname
      cases h
      exact ⟨⟨hname.1, by simpa using hname.2⟩, by simp⟩
  · rintro ⟨⟨hne, hchars⟩, rfl⟩
    have hall : s.toList.all isNameChar = true := List.all_eq_true.mpr hchars
    simp [hall, hne]

theorem bracketed?_eq_some {cs inner : List Char} :
    bracketed? cs = some inner ↔ cs = '[' :: (inner ++ [']']) := by
  simp only [bracketed?, Option.bind_eq_some_iff, Chars.dropStart?_eq_some,
    Chars.dropEnding?_eq_some]
  constructor
  · rintro ⟨_, rfl, rfl⟩
    rfl
  · rintro rfl
    exact ⟨_, rfl, rfl⟩

theorem IsName.not_mem {cs : List Char} (h : IsName cs) {c : Char} (hc : isNameChar c = false) :
    c ∉ cs := by
  intro hmem
  rw [h.chars c hmem] at hc
  cases hc

theorem IsName.dropStart?_eq_none {cs : List Char} (h : IsName cs) {c : Char}
    (hc : isNameChar c = false) : Chars.dropStart? [c] cs = none := by
  rw [Option.eq_none_iff_forall_not_mem]
  intro rest hrest
  apply h.not_mem hc
  rw [Chars.dropStart?_eq_some.mp hrest]
  exact List.mem_cons_self

/-- The lines that open a block are `[tag]` and `[+tag]`. -/
theorem opening?_eq_some {cs : List Char} {tag : String} :
    opening? cs = some tag ↔ IsName tag.toList ∧
      (cs = '[' :: (tag.toList ++ [']']) ∨ cs = '[' :: '+' :: (tag.toList ++ [']'])) := by
  simp only [opening?, Option.bind_eq_some_iff, bracketed?_eq_some, name?_eq_some]
  constructor
  · rintro ⟨inner, rfl, hname, hinner⟩
    cases hplus : Chars.dropStart? ['+'] inner with
    | none =>
      rw [hplus, Option.getD_none] at hname hinner
      exact ⟨hinner ▸ hname, .inl (by rw [hinner])⟩
    | some rest =>
      rw [hplus, Option.getD_some] at hname hinner
      have hrest := Chars.dropStart?_eq_some.mp hplus
      exact ⟨hinner ▸ hname, .inr (by rw [hrest, hinner]; rfl)⟩
  · rintro ⟨hname, rfl | rfl⟩
    · refine ⟨tag.toList, rfl, ?_⟩
      rw [hname.dropStart?_eq_none (by decide), Option.getD_none]
      exact ⟨hname, rfl⟩
    · refine ⟨'+' :: tag.toList, rfl, ?_⟩
      rw [show '+' :: tag.toList = ['+'] ++ tag.toList from rfl, Chars.dropStart?_append,
        Option.getD_some]
      exact ⟨hname, rfl⟩

theorem closing?_eq_some {cs : List Char} {tag : String} :
    closing? cs = some tag ↔
      IsName tag.toList ∧ cs = '[' :: '/' :: (tag.toList ++ [']']) := by
  simp only [closing?, Option.bind_eq_some_iff, bracketed?_eq_some, name?_eq_some,
    Chars.dropStart?_eq_some]
  constructor
  · rintro ⟨_, rfl, _, rfl, hname, rfl⟩
    exact ⟨hname, rfl⟩
  · rintro ⟨hname, rfl⟩
    exact ⟨_, rfl, _, rfl, hname, rfl⟩

/-- The lines that set an attribute have a name in front of their first equals sign. -/
theorem assignment?_eq_some {cs value : List Char} {key : String} :
    assignment? cs = some (key, value) ↔ ∃ name raw, cs = name ++ '=' :: raw ∧ '=' ∉ name ∧
      IsName key.toList ∧ Chars.trim name = key.toList ∧ value = Chars.trimStart raw := by
  simp only [assignment?, Option.bind_eq_some_iff, Option.map_eq_some_iff, Prod.exists,
    Chars.splitOnce_eq_some, name?_eq_some]
  constructor
  · rintro ⟨name, raw, ⟨rfl, hequals⟩, _, ⟨hname, htrim⟩, heq⟩
    cases heq
    exact ⟨name, raw, rfl, hequals, htrim ▸ hname, htrim, rfl⟩
  · rintro ⟨name, raw, rfl, hequals, hname, htrim, rfl⟩
    exact ⟨name, raw, ⟨rfl, hequals⟩, key, ⟨htrim ▸ hname, htrim⟩, rfl⟩

theorem opening?_eq_none_of_closing {cs : List Char} {tag : String} (h : closing? cs = some tag) :
    opening? cs = none := by
  obtain ⟨-, rfl⟩ := closing?_eq_some.mp h
  rw [Option.eq_none_iff_forall_not_mem]
  intro other hother
  obtain ⟨hname, heq | heq⟩ := opening?_eq_some.mp hother
  · have hmem : '/' ∈ other.toList ++ [']'] := by
      rw [← (List.cons.inj heq).2]
      exact List.mem_cons_self
    have hslash := hname.not_mem (show isNameChar '/' = false by decide)
    simp [hslash] at hmem
  · simp at heq

/-- A line in brackets has no name in front of an equals sign. -/
theorem bracketed?_eq_none_of_assignment {cs value : List Char} {key : String}
    (h : assignment? cs = some (key, value)) : bracketed? cs = none := by
  obtain ⟨name, raw, rfl, -, hname, htrim, -⟩ := assignment?_eq_some.mp h
  obtain ⟨before, after, hsplit, hbefore, -⟩ := Chars.exists_trim name
  rw [htrim] at hsplit
  obtain ⟨first, others, hfirst⟩ := List.exists_cons_of_ne_nil hname.ne_nil
  rw [Option.eq_none_iff_forall_not_mem]
  intro inner hinner
  have hcs := bracketed?_eq_some.mp hinner
  rw [hsplit, hfirst] at hcs
  cases before with
  | nil =>
    obtain ⟨rfl, -⟩ := List.cons.inj hcs
    exact hname.not_mem (show isNameChar '[' = false by decide) (hfirst ▸ List.mem_cons_self)
  | cons c before =>
    obtain ⟨rfl, -⟩ := List.cons.inj hcs
    exact absurd (hbefore '[' List.mem_cons_self) (by decide)

theorem read_eq_opening {line : List Char} {tag : String} :
    read line = .opening tag ↔ opening? (Chars.trim line) = some tag := by
  simp only [read]
  cases opening? (Chars.trim line) with
  | some t => simp
  | none =>
    cases closing? (Chars.trim line) with
    | some t => simp
    | none => cases assignment? (Chars.trim line) <;> simp

theorem read_eq_closing {line : List Char} {tag : String} :
    read line = .closing tag ↔ closing? (Chars.trim line) = some tag := by
  constructor
  · intro h
    simp only [read] at h
    split at h
    · cases h
    · split at h
      · next hclosing =>
        cases h
        exact hclosing
      · split at h <;> cases h
  · intro h
    simp only [read, opening?_eq_none_of_closing h, h]

theorem read_eq_assignment {line value : List Char} {key : String} :
    read line = .assignment key value ↔ assignment? (Chars.trim line) = some (key, value) := by
  constructor
  · intro h
    simp only [read] at h
    split at h
    · cases h
    · split at h
      · cases h
      · split at h
        · next hassignment =>
          cases h
          exact hassignment
        · cases h
  · intro h
    simp only [read, opening?, closing?, bracketed?_eq_none_of_assignment h, Option.bind_none, h]

end MarkupLine

/-- What a line, or several lines together, have to say about the blocks. -/
inductive Statement where
  | opening (tag : String)
  | closing (tag : String)
  | giving (key : String) (value : AttributeValue)
deriving DecidableEq, Repr, Inhabited

/-- What a line says about the blocks themselves. -/
def MarkupLine.statement? : MarkupLine → Option Statement
  | .opening tag => some (.opening tag)
  | .closing tag => some (.closing tag)
  | .assignment _ _ | .other => none

namespace Statement

def tagOpened? : Statement → Option String
  | .opening tag => some tag
  | .closing _ | .giving _ _ => none

/-- The attribute, if its value is finished. -/
def completed (key : String) (value : List Char) : List Statement :=
  if Delimiter.closed value then [.giving key (AttributeValue.read (String.ofList value))]
  else []

end Statement

/-- An attribute whose value goes on in the next line, with the value so far. -/
abbrev Pending := Option (String × List Char)

namespace Pending

/-- The attribute, unless its value is finished. -/
def unfinished (key : String) (value : List Char) : Pending :=
  if Delimiter.closed value then none else some (key, value)

/-- What is pending behind a line. -/
def after (p : Pending) (line : List Char) : Pending :=
  match p with
  | some (key, value) => unfinished key (value ++ '\n' :: line)
  | none =>
    match MarkupLine.read line with
    | .assignment key value => unfinished key value
    | .opening _ | .closing _ | .other => none

/-- What a line says, together with the lines before it in which its value began. -/
def said (p : Pending) (line : List Char) : List Statement :=
  match p with
  | some (key, value) => Statement.completed key (value ++ '\n' :: line)
  | none =>
    match MarkupLine.read line with
    | .opening tag => [.opening tag]
    | .closing tag => [.closing tag]
    | .assignment key value => Statement.completed key value
    | .other => []

/-- What the lines are read as, where `p` is pending in front of them. -/
def readings (p : Pending) : List (List Char) → List (Option MarkupLine)
  | [] => []
  | line :: rest =>
    (if p.isSome then none else some (MarkupLine.read line)) :: readings (p.after line) rest

/-- What the lines say. A value that is never finished is a string as far as it goes. -/
def statements (p : Pending) : List (List Char) → List Statement
  | [] =>
    match p with
    | some (key, value) => [.giving key (.string (String.ofList value))]
    | none => []
  | line :: rest => p.said line ++ statements (p.after line) rest

/-- The tag that a line opens, if it is read as that. -/
def tagRead? (reading : Option MarkupLine) : Option String :=
  (reading.bind MarkupLine.statement?).bind Statement.tagOpened?

/-- Blocks are opened and closed by the lines that are read as that. -/
theorem filterMap_statements {α : Type} {f : Statement → Option α}
    (hf : ∀ key value, f (.giving key value) = none) (p : Pending) (lines : List (List Char)) :
    (p.statements lines).filterMap f =
      (p.readings lines).filterMap fun reading => (reading.bind MarkupLine.statement?).bind f := by
  have hcompleted : ∀ key value, (Statement.completed key value).filterMap f = [] := by
    intro key value
    unfold Statement.completed
    split
    · simp [hf]
    · rfl
  induction lines generalizing p with
  | nil =>
    cases p with
    | none => rfl
    | some pending => simp [statements, readings, hf]
  | cons line rest ih =>
    have hsaid : (p.said line).filterMap f =
        [if p.isSome then none else some (MarkupLine.read line)].filterMap
          fun reading => (reading.bind MarkupLine.statement?).bind f := by
      unfold said
      cases p with
      | some pending => exact hcompleted _ _
      | none =>
        dsimp only
        cases MarkupLine.read line with
        | assignment key value => exact hcompleted _ _
        | opening tag => rfl
        | closing tag => rfl
        | other => rfl
    rw [statements, List.filterMap_append, hsaid, ih, ← List.filterMap_append]
    rfl

end Pending

namespace Extraction

/-- Carries a statement out. -/
def obey (e : Extraction) : Statement → Extraction
  | .opening tag => { e with stack := { tag } :: e.stack }
  | .closing tag => e.close tag
  | .giving key value => e.set key value

theorem obey_pending (e : Extraction) (s : Statement) : (e.obey s).pending = e.pending := by
  cases s with
  | opening tag => rfl
  | closing tag =>
    rw [obey, close]
    split <;> rfl
  | giving key value =>
    rw [obey, set]
    split <;> rfl

theorem foldl_obey_pending (ss : List Statement) (e : Extraction) :
    (ss.foldl obey e).pending = e.pending := by
  induction ss generalizing e with
  | nil => rfl
  | cons s ss ih => rw [List.foldl_cons, ih, obey_pending]

theorem assign_eq (stack roots : List Record) (key : String) (value : List Char) :
    assign ⟨stack, roots, none⟩ key value =
      { (Statement.completed key value).foldl obey ⟨stack, roots, none⟩ with
        pending := Pending.unfinished key value } := by
  unfold assign Statement.completed Pending.unfinished
  split
  · have hset := obey_pending ⟨stack, roots, none⟩
      (.giving key (AttributeValue.read (String.ofList value)))
    exact congrArg (Extraction.mk _ _) hset
  · rfl

/-- One line: what it says is carried out, and what is pending is remembered. -/
theorem line_eq (stack roots : List Record) (p : Pending) (text : List Char) :
    line ⟨stack, roots, p⟩ text =
      { (p.said text).foldl obey ⟨stack, roots, none⟩ with pending := p.after text } := by
  unfold line Pending.said Pending.after
  cases p with
  | some pending => exact assign_eq _ _ _ _
  | none =>
    dsimp only
    cases MarkupLine.read text with
    | assignment key value => exact assign_eq _ _ _ _
    | opening tag => rfl
    | closing tag => exact congrArg (Extraction.mk _ _) (obey_pending _ (.closing tag))
    | other => rfl

/-- What the lines are read as, each by itself; a line in which a value goes on is read as
nothing. -/
def readings (e : Extraction) : List (List Char) → List (Option MarkupLine)
  | [] => []
  | text :: rest =>
    (if e.pending.isSome then none else some (MarkupLine.read text)) :: readings (e.line text) rest

theorem readings_eq (e : Extraction) (lines : List (List Char)) :
    e.readings lines = Pending.readings e.pending lines := by
  induction lines generalizing e with
  | nil => rfl
  | cons text rest ih =>
    have hline := congrArg pending (line_eq e.stack e.roots e.pending text)
    rw [readings, Pending.readings, ih, hline]

/-- All lines: what they say is carried out in order. -/
theorem finish_foldl_line (lines : List (List Char)) (stack roots : List Record) (p : Pending) :
    (lines.foldl line ⟨stack, roots, p⟩).finish =
      ((p.statements lines).foldl obey ⟨stack, roots, none⟩).finish := by
  induction lines generalizing stack roots p with
  | nil =>
    cases p with
    | none => rfl
    | some pending => cases stack <;> rfl
  | cons text rest ih =>
    have hnone : ((p.said text).foldl obey ⟨stack, roots, none⟩).pending = none :=
      foldl_obey_pending _ _
    rw [List.foldl_cons, line_eq, ih, Pending.statements, List.foldl_append]
    generalize (p.said text).foldl obey ⟨stack, roots, none⟩ = said at hnone
    cases said
    cases hnone
    rfl

end Extraction

/-- The statements of a text. -/
def statementsOf (text : String) : List Statement :=
  Pending.statements none (Chars.lines text.toList)

theorem extractRecords_eq (text : String) :
    extractRecords text = ((statementsOf text).foldl Extraction.obey {}).finish :=
  Extraction.finish_foldl_line _ _ _ _

/-- What the lines of a text are read as. -/
def readingsOf (text : String) : List (Option MarkupLine) :=
  Extraction.readings {} (Chars.lines text.toList)

theorem readingsOf_eq (text : String) :
    readingsOf text = Pending.readings none (Chars.lines text.toList) :=
  Extraction.readings_eq _ _

end CampaignMarkup
