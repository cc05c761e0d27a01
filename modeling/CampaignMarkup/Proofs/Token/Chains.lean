import CampaignMarkup.Proofs.Token.Rereading

/-! # Chains of strings and calls

A concatenation whose operands are strings, some of them written out and some as calls of macros.
The tokens of the strings are joined where two of them stand side by side; a call is no operand, and
the `+` beside it stays. -/
namespace CampaignMarkup

open Text Chars Lexeme

/-! ## Blanks between tokens -/

namespace Lexeme

theorem isBlank_of_isGap {c : Char} (h : isGap c) : isBlank c := by
  simp only [isGap, Bool.and_eq_true] at h
  exact h.1

theorem not_mem_of_gap {cs : List Char} (h : ∀ c ∈ cs, isGap c) : '\n' ∉ cs := by
  intro hmem
  exact absurd (h '\n' hmem) (by decide)

/-- Only white space and line breaks are blank. They end where they did if no blank follows. -/
theorem PieceBefore.of_blank {x : Lexeme} {rest : List Char} (h : x.PieceBefore rest)
    (hblank : ∀ c ∈ x.chars, isBlank c) :
    (x.shape = .whitespace ∨ x.shape = .endOfLine ∧ ¬ ∀ c ∈ x.chars, isGap c) ∧
      ∀ more : List Char, (∀ c ∈ more.head?, isBlank c = false) → x.PieceBefore (rest ++ more) := by
  have hhead : ∀ more : List Char, (∀ c ∈ more.head?, isBlank c = false) →
      ∀ c ∈ (rest ++ more).head?, c ∈ rest.head? ∨ isBlank c = false := by
    intro more hmore c hc
    cases rest with
    | nil => exact .inr (hmore c hc)
    | cons d rest => exact .inl hc
  cases h with
  | word hw =>
    obtain ⟨c, w, rfl⟩ := List.exists_cons_of_ne_nil hw.ne_nil
    have hc := hblank c List.mem_cons_self
    rcases hw.chars c List.mem_cons_self with hplain | rfl
    · simp [isPlain, hc] at hplain
    · exact absurd hc (by decide)
  | form hcut htext =>
    cases hcut with
    | whitespace hne hgap hstop =>
      refine ⟨.inl rfl, fun more hmore => .form (.whitespace hne hgap ?_) rfl⟩
      intro c hc
      rcases hhead more hmore c hc with hc | hc
      · exact hstop c hc
      · simp [isGap, hc]
    | returnAndFeed =>
      have hreturn : ¬ ∀ c ∈ ['\r', '\n'], isGap c :=
        fun hall => absurd (hall '\r' List.mem_cons_self) (by decide)
      exact ⟨.inr ⟨rfl, hreturn⟩, fun more _ => .form .returnAndFeed rfl⟩
    | @lineBreak d _ hd hstop =>
      refine ⟨.inr ⟨rfl, by simp [isGap, hd]⟩, fun more hmore => .form (.lineBreak hd ?_) rfl⟩
      intro hreturn hfeed
      rcases hhead more hmore '\n' hfeed with hc | hc
      · exact hstop hreturn hc
      · exact absurd hc (by decide)
    | text => cases htext
    | loneAngle => cases htext
    | _ => exact absurd (hblank _ List.mem_cons_self) (by decide)

end Lexeme

namespace Token.Reads

variable {text rest : List Char} {ts us : List Token}

theorem isSpacing_of_blank (h : Reads text ts) (hblank : ∀ c ∈ text, isBlank c) :
    ∀ t ∈ ts, t.isSpacing := by
  induction h with
  | nil => simp
  | cons hx _ ih =>
    obtain ⟨hfirst, hmore⟩ := List.forall_mem_append.mp hblank
    refine List.forall_mem_cons.mpr ⟨?_, ih hmore⟩
    rcases (hx.before.of_blank hfirst).1 with hshape | ⟨hshape, -⟩
    · simp [isSpacing, isWhitespace, hx.kind, hshape, Shape.kind]
    · simp [isSpacing, isLineBreak, hx.kind, hshape, Shape.kind]

theorem isWhitespace_of_gap (h : Reads text ts) (hgap : ∀ c ∈ text, isGap c) :
    ∀ t ∈ ts, t.isWhitespace := by
  induction h with
  | nil => simp
  | cons hx _ ih =>
    obtain ⟨hfirst, hmore⟩ := List.forall_mem_append.mp hgap
    refine List.forall_mem_cons.mpr ⟨?_, ih hmore⟩
    rcases (hx.before.of_blank fun c hc => isBlank_of_isGap (hfirst c hc)).1 with
      hshape | ⟨-, hno⟩
    · simp [isWhitespace, hx.kind, hshape, Shape.kind]
    · exact absurd hfirst hno

theorem append_blanks (h : Reads text ts) (hblank : ∀ c ∈ text, isBlank c)
    (hrest : Reads rest us) (hhead : ∀ c ∈ rest.head?, isBlank c = false) :
    Reads (text ++ rest) (ts ++ us) := by
  induction h with
  | nil => exact hrest
  | cons hx _ ih =>
    obtain ⟨hfirst, hmore⟩ := List.forall_mem_append.mp hblank
    have hpiece := (hx.before.of_blank hfirst).2 rest hhead
    rw [List.append_assoc]
    exact .cons ⟨hpiece, hx.kind, hx.content⟩ (ih hmore)

/-- What stands in front of spacing or of no text at all ends there. -/
theorem stops {p : List Char} (h : Reads text ts) (hts : ∀ t ∈ ts.head?, t.kind ≠ .text)
    (hp : p.getLast? ≠ some '<') : Stops p text := by
  refine ⟨?_, fun hlast => absurd hlast hp⟩
  cases ts with
  | nil =>
    rw [h.eq_nil, firstKind_nil]
    simp
  | cons t ts =>
    rw [h.firstKind_eq]
    simpa using hts t rfl

end Token.Reads

/-! ## Joining in front of a call -/

namespace Token

theorem nextOperand?_barred {gap spacing : List Token} {plus t : Token}
    (hgap : ∀ u ∈ gap, u.isWhitespace) (hplus : plus.isPlus) (hspacing : ∀ u ∈ spacing, u.isSpacing)
    (ht : t.isSpacing = false) (hoperand : t.isOperand = false) (rest : List Token) :
    nextOperand? (gap ++ plus :: (spacing ++ t :: rest)) = none := by
  have hstop := isWhitespace_eq_false_of_isPlus hplus
  rw [nextOperand?, List.dropWhile_append_of_pos hgap]
  simp only [List.dropWhile_cons, hstop, hplus, if_true, Bool.false_eq_true, if_false]
  rw [List.dropWhile_append_of_pos hspacing]
  simp only [List.dropWhile_cons, ht, hoperand, Bool.false_eq_true, if_false]

end Token

open Token

theorem merge_append_of_not_operand {ts : List Token} (h : ∀ t ∈ ts, t.isOperand = false)
    (us : List Token) : mergeConcatenations (ts ++ us) = ts ++ mergeConcatenations us := by
  induction ts with
  | nil => rfl
  | cons t ts ih =>
    obtain ⟨ht, hts⟩ := List.forall_mem_cons.mp h
    rw [List.cons_append, merge_other ht, ih hts, List.cons_append]

theorem Token.isOperand_of_isSpacing {t : Token} (h : t.isSpacing) : t.isOperand = false := by
  by_contra hoperand
  rw [isSpacing_eq_false_of_isOperand (by simpa using hoperand)] at h
  cases h

/-- A joined pair of strings is joined on as if it had been one string. -/
theorem merge_bridge {t u plus : Token} {gap spacing : List Token} (ht : t.kind = .quoted)
    (hu : u.kind = .quoted) (h : Bridge gap plus spacing u) (rest : List Token) :
    mergeConcatenations (t :: (gap ++ plus :: (spacing ++ u :: rest))) =
      mergeConcatenations (append t .quoted u :: rest) := by
  have hkind : (append t .quoted u).kind = .quoted := if_pos hu
  rw [merge_operand (isOperand_of_quoted ht), merge_operand (isOperand_of_quoted hkind),
    extend_of_some (h.nextOperand?_eq rest), ht, hkind, hu]

/-! ## Chains -/

/-- A string as an operand: written out, or a call of a macro that stands for it. -/
structure Operand where
  content : String
  call : Option String := none
deriving DecidableEq, Repr, Inhabited

namespace Operand

def isLiteral (o : Operand) : Bool :=
  o.call.isNone

def token (o : Operand) : Token :=
  match o.call with
  | none => ⟨.quoted, o.content, default⟩
  | some name => ⟨.macroCall, name, default⟩

/-- The operand in a source text. -/
def source (o : Operand) : List Char :=
  o.token.kind.write o.token.content.toList

/-- The string of the operand, in quotes. -/
def quoted (o : Operand) : List Char :=
  TokenKind.quoted.write o.content.toList

@[simp] theorem isLiteral_mk (content : String) : (⟨content, none⟩ : Operand).isLiteral :=
  rfl

theorem eq_of_isLiteral {o : Operand} (h : o.isLiteral) : o = ⟨o.content, none⟩ := by
  obtain ⟨content, call⟩ := o
  cases call with
  | none => rfl
  | some name => cases h

theorem token_of_isLiteral {o : Operand} (h : o.isLiteral) :
    o.token = ⟨.quoted, o.content, default⟩ := by
  rw [eq_of_isLiteral h]
  rfl

theorem isOperand_token (o : Operand) : o.token.isOperand = o.isLiteral := by
  obtain ⟨content, call⟩ := o
  cases call <;> rfl

theorem isSpacing_token (o : Operand) : o.token.isSpacing = false := by
  obtain ⟨content, call⟩ := o
  cases call <;> rfl

theorem kind_token (o : Operand) : o.token.kind ≠ .text := by
  obtain ⟨content, call⟩ := o
  cases call <;> simp [token]

theorem reads_source {o : Operand} (hname : ∀ name ∈ o.call, '}' ∉ name.toList) {rest : List Char}
    {us : List Token} (hhead : rest.head? ≠ some '"') (hrest : Reads rest us) :
    Reads (o.source ++ rest) (o.token :: us) := by
  obtain ⟨content, call⟩ := o
  cases call with
  | none => exact reads_quoted rfl hhead hrest
  | some name => exact reads_macroCall rfl (hname name rfl) hrest

/-- An operand begins with a quote or a brace. -/
theorem head?_source (o : Operand) (rest : List Char) :
    (o.source ++ rest).head? = some (if o.isLiteral then '"' else '{') := by
  obtain ⟨content, call⟩ := o
  cases call <;> rfl

end Operand

/-- A further operand, with the blanks around the `+` in front of it. -/
structure Link where
  before : String := ""
  after : String := ""
  operand : Operand
deriving DecidableEq, Repr, Inhabited

namespace Link

def tokens (l : Link) : List Token :=
  tokenize l.before ++ word ['+'] :: (tokenize l.after ++ [l.operand.token])

def spell (f : Operand → List Char) (l : Link) : List Char :=
  l.before.toList ++ '+' :: (l.after.toList ++ f l.operand)

end Link

structure Chain where
  first : Operand
  links : List Link
deriving DecidableEq, Repr, Inhabited

namespace Chain

def tokens (c : Chain) : List Token :=
  c.first.token :: c.links.flatMap Link.tokens

def spell (f : Operand → List Char) (c : Chain) : List Char :=
  f c.first ++ c.links.flatMap (Link.spell f)

def operands (c : Chain) : List Operand :=
  c.first :: c.links.map Link.operand

/-- The chain in which strings that stand side by side are one string. -/
def join (first : Operand) : List Link → Chain
  | [] => ⟨first, []⟩
  | l :: ls =>
    if first.isLiteral && l.operand.isLiteral then
      join ⟨first.content ++ l.operand.content, none⟩ ls
    else
      ⟨first, { l with operand := (join l.operand ls).first } :: (join l.operand ls).links⟩

def joined (c : Chain) : Chain :=
  join c.first c.links

/-- What the operands say, one behind the other. -/
def contents (c : Chain) : String :=
  String.join (c.operands.map Operand.content)

/-- What the strings up to the first call say, or what the call says if the chain begins with it. -/
def leading (c : Chain) : String :=
  if c.first.isLiteral then
    String.join ((c.operands.takeWhile Operand.isLiteral).map Operand.content)
  else c.first.content

/-- What the operands behind those say. -/
def trailing (c : Chain) : String :=
  if c.first.isLiteral then
    String.join ((c.operands.dropWhile Operand.isLiteral).map Operand.content)
  else String.join (c.links.map (·.operand.content))

theorem contents_eq (c : Chain) : c.contents = c.leading ++ c.trailing := by
  rw [contents, leading, trailing]
  split
  · rw [← String.join_append, ← List.map_append, List.takeWhile_append_dropWhile]
  · simp [operands, Function.comp_def]

theorem trailing_of_isLiteral {c : Chain} (h : ∀ o ∈ c.operands, o.isLiteral) :
    c.trailing = "" := by
  rw [trailing, if_pos (h c.first List.mem_cons_self), List.dropWhile_eq_nil_iff.mpr h]
  rfl

/-- Blanks around each `+`, and no line break in front of it. Where a call is beside it, there is
none behind it either. -/
@[mk_iff spaced_iff]
structure Spaced (c : Chain) : Prop where
  before : ∀ l ∈ c.links, ∀ d ∈ l.before.toList, isGap d
  after : ∀ l ∈ c.links, ∀ d ∈ l.after.toList, isBlank d
  inLine : ∀ l ∈ c.joined.links, ∀ d ∈ l.after.toList, isGap d

instance (c : Chain) : Decidable c.Spaced :=
  decidable_of_iff
    ((c.links.all fun l => l.before.toList.all isGap && l.after.toList.all isBlank) &&
      c.joined.links.all fun l => l.after.toList.all isGap) <| by
    simp only [Bool.and_eq_true, List.all_eq_true, spaced_iff, forall_and, and_assoc]

variable {first : Operand} {ls : List Link}

theorem tokens_cons (l : Link) (us : List Token) :
    (⟨first, l :: ls⟩ : Chain).tokens ++ us = first.token :: (tokenize l.before ++ word ['+'] ::
      (tokenize l.after ++ ((⟨l.operand, ls⟩ : Chain).tokens ++ us))) := by
  simp [tokens, Link.tokens]

theorem spell_cons (f : Operand → List Char) (l : Link) (cs : List Char) :
    (⟨first, l :: ls⟩ : Chain).spell f ++ cs = f first ++ (l.before.toList ++ '+' ::
      (l.after.toList ++ ((⟨l.operand, ls⟩ : Chain).spell f ++ cs))) := by
  simp [spell, Link.spell]

theorem first_join : (join first ls).first = ⟨(⟨first, ls⟩ : Chain).leading, first.call⟩ := by
  induction ls generalizing first with
  | nil => cases hfirst : first.isLiteral <;> simp [join, leading, operands, hfirst]
  | cons l ls ih =>
    rw [join]
    split
    · next hboth =>
      obtain ⟨hfirst, hl⟩ : first.isLiteral ∧ l.operand.isLiteral := by simpa using hboth
      rw [ih, Operand.eq_of_isLiteral hfirst]
      simp [leading, operands, List.takeWhile_cons, hl, String.append_assoc]
    · next hboth =>
      cases hfirst : first.isLiteral with
      | false => simp [leading, hfirst]
      | true =>
        have hl : l.operand.isLiteral = false := by simpa [hfirst] using hboth
        simp [leading, operands, hfirst, hl]

/-- Joined operands are strings, so that only the calls have to be looked at again. -/
theorem forall_operands_join {P : Operand → Prop} (hliteral : ∀ content, P ⟨content, none⟩)
    (h : ∀ o ∈ (⟨first, ls⟩ : Chain).operands, P o) : ∀ o ∈ (join first ls).operands, P o := by
  induction ls generalizing first with
  | nil => exact h
  | cons l ls ih =>
    obtain ⟨hfirst, hrest⟩ := List.forall_mem_cons.mp h
    obtain ⟨-, hlater⟩ := List.forall_mem_cons.mp hrest
    rw [join]
    split
    · exact ih (List.forall_mem_cons.mpr ⟨hliteral _, hlater⟩)
    · exact List.forall_mem_cons.mpr ⟨hfirst, ih hrest⟩

theorem exists_of_mem_join {l : Link} (h : l ∈ (join first ls).links) :
    ∃ m ∈ ls, l.before = m.before ∧ l.after = m.after := by
  induction ls generalizing first with
  | nil => simp [join] at h
  | cons m ls ih =>
    rw [join] at h
    split at h
    · obtain ⟨n, hn, heq⟩ := ih h
      exact ⟨n, List.mem_cons_of_mem m hn, heq⟩
    · rcases List.mem_cons.mp h with rfl | h
      · exact ⟨m, List.mem_cons_self, rfl, rfl⟩
      · obtain ⟨n, hn, heq⟩ := ih h
        exact ⟨n, List.mem_cons_of_mem m hn, heq⟩

theorem Spaced.before_joined {c : Chain} (h : c.Spaced) :
    ∀ l ∈ c.joined.links, ∀ d ∈ l.before.toList, isGap d := by
  intro l hl
  obtain ⟨m, hm, heq, -⟩ := exists_of_mem_join hl
  rw [heq]
  exact h.before m hm

/-- By induction on the links: the next operand is joined to the first or left in its place. -/
theorem merge_tokens (hbefore : ∀ l ∈ ls, ∀ d ∈ l.before.toList, isGap d)
    (hafter : ∀ l ∈ ls, ∀ d ∈ l.after.toList, isBlank d) {us : List Token}
    (hus : nextOperand? us = none) :
    mergeConcatenations ((⟨first, ls⟩ : Chain).tokens ++ us) =
      (join first ls).tokens ++ mergeConcatenations us := by
  have halone : ∀ {o : Operand} {ts}, nextOperand? ts = none →
      mergeConcatenations (o.token :: ts) = o.token :: mergeConcatenations ts := by
    intro o ts hts
    cases ho : o.token.isOperand with
    | true => rw [merge_operand ho, extend_of_none hts]
    | false => exact merge_other ho ts
  induction ls generalizing first with
  | nil => exact halone hus
  | cons l ls ih =>
    obtain ⟨hgap, hbefore⟩ := List.forall_mem_cons.mp hbefore
    obtain ⟨hblank, hafter⟩ := List.forall_mem_cons.mp hafter
    have hwhite := (reads_tokenize l.before).isWhitespace_of_gap hgap
    have hspacing := (reads_tokenize l.after).isSpacing_of_blank hblank
    have hplus : (word ['+']).isPlus := rfl
    rw [tokens_cons, join]
    split
    · next hboth =>
      obtain ⟨hfirst, hl⟩ : first.isLiteral ∧ l.operand.isLiteral := by simpa using hboth
      have hbridge : Bridge (tokenize l.before) (word ['+']) (tokenize l.after) l.operand.token :=
        ⟨hwhite, hplus, hspacing, l.operand.isOperand_token.trans hl⟩
      have hkinds : first.token.kind = .quoted ∧ l.operand.token.kind = .quoted := by
        rw [Operand.token_of_isLiteral hfirst, Operand.token_of_isLiteral hl]
        exact ⟨rfl, rfl⟩
      calc mergeConcatenations (first.token :: (tokenize l.before ++ word ['+'] ::
            (tokenize l.after ++ ((⟨l.operand, ls⟩ : Chain).tokens ++ us))))
          = mergeConcatenations (append first.token .quoted l.operand.token ::
              (ls.flatMap Link.tokens ++ us)) := merge_bridge hkinds.1 hkinds.2 hbridge _
        _ = mergeConcatenations
              ((⟨⟨first.content ++ l.operand.content, none⟩, ls⟩ : Chain).tokens ++ us) := by
            rw [Operand.token_of_isLiteral hfirst, Operand.token_of_isLiteral hl]
            rfl
        _ = _ := ih hbefore hafter
    · next hboth =>
      have hstays : ∀ t ∈ tokenize l.before ++ word ['+'] :: tokenize l.after,
          t.isOperand = false := by
        intro t ht
        rw [List.mem_append, List.mem_cons] at ht
        rcases ht with ht | rfl | ht
        · exact isOperand_of_isSpacing (by simp [isSpacing, hwhite t ht])
        · exact isOperand_eq_false_of_isPlus hplus
        · exact isOperand_of_isSpacing (hspacing t ht)
      have hapart : mergeConcatenations (first.token :: (tokenize l.before ++ word ['+'] ::
          (tokenize l.after ++ ((⟨l.operand, ls⟩ : Chain).tokens ++ us)))) =
          first.token :: mergeConcatenations (tokenize l.before ++ word ['+'] ::
            (tokenize l.after ++ ((⟨l.operand, ls⟩ : Chain).tokens ++ us))) := by
        cases hfirst : first.isLiteral with
        | false => exact merge_other (first.isOperand_token.trans hfirst) _
        | true =>
          have hl : l.operand.isLiteral = false := by simpa [hfirst] using hboth
          exact halone (nextOperand?_barred hwhite hplus hspacing l.operand.isSpacing_token
            (l.operand.isOperand_token.trans hl) _)
      have hmiddle := merge_append_of_not_operand hstays ((⟨l.operand, ls⟩ : Chain).tokens ++ us)
      rw [List.append_assoc, List.cons_append, ih hbefore hafter] at hmiddle
      rw [hapart, hmiddle, tokens_cons, List.append_assoc, List.cons_append]

theorem head?_links {f : Operand → List Char}
    (hbefore : ∀ l ∈ ls, ∀ d ∈ l.before.toList, isGap d) {cs : List Char}
    (hcs : cs.head? ≠ some '"') : (ls.flatMap (Link.spell f) ++ cs).head? ≠ some '"' := by
  cases ls with
  | nil => exact hcs
  | cons l ls =>
    have hgap := hbefore l List.mem_cons_self
    simp only [List.flatMap_cons, Link.spell, List.append_assoc]
    cases hl : l.before.toList with
    | nil => simp
    | cons d ds =>
      rw [hl] at hgap
      rintro hquote
      cases hquote
      exact absurd (hgap '"' List.mem_cons_self) (by decide)

theorem reads_spell (hbefore : ∀ l ∈ ls, ∀ d ∈ l.before.toList, isGap d)
    (hafter : ∀ l ∈ ls, ∀ d ∈ l.after.toList, isBlank d)
    (hnames : ∀ o ∈ (⟨first, ls⟩ : Chain).operands, ∀ name ∈ o.call, '}' ∉ name.toList)
    {cs : List Char} {us : List Token} (hcs : cs.head? ≠ some '"') (hus : Reads cs us) :
    Reads ((⟨first, ls⟩ : Chain).spell Operand.source ++ cs)
      ((⟨first, ls⟩ : Chain).tokens ++ us) := by
  induction ls generalizing first with
  | nil =>
    have hreads := Operand.reads_source (hnames first List.mem_cons_self) hcs hus
    simpa [spell, tokens] using hreads
  | cons l ls ih =>
    have hquote := @head?_links _ Operand.source hbefore cs hcs
    obtain ⟨hgap, hbefore⟩ := List.forall_mem_cons.mp hbefore
    obtain ⟨hblank, hafter⟩ := List.forall_mem_cons.mp hafter
    obtain ⟨hfirst, hnames⟩ := List.forall_mem_cons.mp hnames
    have hrest := ih hbefore hafter hnames
    -- the operand and all that comes before it back to the first
    have hoperand : ∀ d ∈ ((⟨l.operand, ls⟩ : Chain).spell Operand.source ++ cs).head?,
        isBlank d = false := by
      rw [spell, List.append_assoc, Operand.head?_source]
      cases l.operand.isLiteral <;> simp <;> decide
    have hspaced := (reads_tokenize l.after).append_blanks hblank hrest hoperand
    have hstop : Stops ['+'] (l.after.toList ++
        ((⟨l.operand, ls⟩ : Chain).spell Operand.source ++ cs)) := by
      apply hspaced.stops
      · have hspacing := (reads_tokenize l.after).isSpacing_of_blank hblank
        intro t ht htext
        cases hl : tokenize l.after with
        | nil =>
          rw [hl] at ht
          cases ht
          exact l.operand.kind_token htext
        | cons u more =>
          rw [hl] at ht hspacing
          cases ht
          have hspace := hspacing t List.mem_cons_self
          simp [isSpacing, isWhitespace, Token.isLineBreak, htext] at hspace
      · simp
    have hword : IsWord ['+'] :=
      isWord_of_plain (by simp) (List.forall_mem_singleton.mpr (by decide))
    have hplus := reads_word hword hstop hspaced
    have hgapped := (reads_tokenize l.before).append_blanks
      (fun d hd => isBlank_of_isGap (hgap d hd)) hplus (by simp; decide)
    rw [tokens_cons, spell_cons]
    refine Operand.reads_source hfirst ?_ hgapped
    simpa [Link.spell, spell] using hquote

end Chain

end CampaignMarkup
