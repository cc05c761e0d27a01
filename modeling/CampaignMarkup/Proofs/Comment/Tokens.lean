import CampaignMarkup.Proofs.Comment.Lexemes
import CampaignMarkup.Document.Reader

/-! # Tokens before and after spacing

The tokens of a text and of its spaced form stand in pairs. Both of a pair have the same kind and
stand in the same line, and the second is as much longer as there are marked hashes in the span of
the first. -/
namespace CampaignMarkup

open Chars Text

namespace LineMap

theorem lt_of_mem_startsFrom {offset n : Nat} {cs : List Char} (h : n ∈ startsFrom offset cs) :
    offset < n := by
  fun_induction startsFrom offset cs with
  | case1 => simp at h
  | case2 offset cs ih =>
    rcases List.mem_cons.mp h with rfl | h
    · omega
    · have := ih h
      omega
  | case3 offset c cs _ after _ ih =>
    have hpos := c.utf8Size_pos
    rcases List.mem_cons.mp h with rfl | h
    · omega
    · have := ih h
      omega
  | case4 offset c cs _ after _ ih =>
    have hpos := c.utf8Size_pos
    have := ih h
    omega

theorem takeWhile_startsFrom (offset : Nat) (cs : List Char) :
    (startsFrom offset cs).takeWhile (· ≤ offset) = [] := by
  refine List.takeWhile_eq_nil_iff.mpr fun hpos => ?_
  have := lt_of_mem_startsFrom (List.getElem_mem hpos)
  simpa using this

theorem startsFrom_cons (offset : Nat) {c : Char} {cs : List Char}
    (h : c = '\r' → cs.head? ≠ some '\n') :
    startsFrom offset (c :: cs) =
      (if isLineBreak c then [offset + c.utf8Size] else []) ++
        startsFrom (offset + c.utf8Size) cs := by
  rw [startsFrom]
  · split <;> simp
  · rintro ds rfl rfl
    exact h rfl rfl

/-- The lines that end in a text in front of the character `next`. A return waits for the feed
behind it. -/
def breaks (next : Option Char) : List Char → Nat
  | [] => 0
  | c :: cs =>
    (if isLineBreak c ∧ ¬ (c = '\r' ∧ cs.head?.or next = some '\n') then 1 else 0) +
      breaks next cs

theorem length_starts (offset : Nat) (before after : List Char) :
    ((startsFrom offset (before ++ after)).takeWhile (· ≤ offset + byteSize before)).length =
      breaks after.head? before := by
  induction hn : before.length using Nat.strong_induction_on generalizing offset before with
  | _ n ih =>
    cases before with
    | nil =>
      have hnone := takeWhile_startsFrom offset after
      simp [hnone, breaks]
    | cons c cs =>
      rw [List.length_cons] at hn
      by_cases hpair : c = '\r' ∧ (cs ++ after).head? = some '\n'
      · obtain ⟨rfl, hhead⟩ := hpair
        cases cs with
        | nil =>
          obtain ⟨ds, rfl⟩ := List.head?_eq_some_iff.mp hhead
          have hfar : ¬ offset + 2 ≤ offset + byteSize ['\r'] := by
            have : byteSize ['\r'] = 1 := by decide
            omega
          rw [List.cons_append, List.nil_append, startsFrom,
            List.takeWhile_cons_of_neg (by simpa using hfar)]
          simp [breaks]
        | cons d cs =>
          obtain rfl : d = '\n' := by simpa using hhead
          have hsize : offset + byteSize ('\r' :: '\n' :: cs) = offset + 2 + byteSize cs := by
            have h₁ : ('\r').utf8Size = 1 := by decide
            have h₂ : ('\n').utf8Size = 1 := by decide
            rw [byteSize_cons, byteSize_cons, h₁, h₂]
            omega
          rw [List.length_cons] at hn
          rw [hsize, List.cons_append, List.cons_append, startsFrom,
            List.takeWhile_cons_of_pos (by simp), List.length_cons,
            ih cs.length (by omega) (offset + 2) cs rfl]
          simp [breaks, isLineBreak]
          omega
      · have hcons : c = '\r' → (cs ++ after).head? ≠ some '\n' := fun hc hh => hpair ⟨hc, hh⟩
        have hsize : offset + byteSize (c :: cs) = offset + c.utf8Size + byteSize cs := by
          rw [byteSize_cons, Nat.add_assoc]
        have hnext := ih cs.length (by omega) (offset + c.utf8Size) cs rfl
        have hlook : cs.head?.or after.head? = (cs ++ after).head? := List.head?_append.symm
        rw [hsize, List.cons_append, startsFrom_cons offset hcons, breaks, hlook, ← hnext]
        by_cases hbreak : isLineBreak c
        · rw [if_pos hbreak, if_pos ⟨hbreak, hpair⟩, List.singleton_append,
            List.takeWhile_cons_of_pos (by simp), List.length_cons, Nat.add_comm]
        · rw [if_neg hbreak, if_neg fun h => hbreak h.1, List.nil_append, Nat.zero_add]

theorem lineOf_eq_breaks (source : String) {before after : List Char}
    (h : source.toList = before ++ after) :
    (ofText source).lineOf (byteSize before) = breaks after.head? before := by
  have hlength := length_starts 0 before after
  rw [Nat.zero_add] at hlength
  rw [lineOf, ofText, h, List.takeWhile_cons_of_pos (by simp), List.length_cons, hlength,
    Nat.add_sub_cancel]

end LineMap

namespace Comment

open Lexeme Marked LineMap

/-- A blank behind a hash ends no line. -/
theorem breaks_spaced (next : Option Char) {m : Marked} (hm : Hashed m) :
    breaks next m.spaced = breaks next m.plain := by
  induction m with
  | nil => rfl
  | cons p m ih =>
    obtain ⟨c, marked⟩ := p
    obtain ⟨hp, hrest⟩ := hashed_cons.mp hm
    cases marked with
    | true =>
      obtain rfl : c = '#' := hp rfl
      simp [breaks, isLineBreak, ih hrest]
    | false => rw [spaced_cons_false, plain_cons, breaks, breaks, head?_spaced, ih hrest]

theorem lineOf_spaced {source source' : String} {m n : Marked} (hm : Hashed m)
    (h : source.toList = (m ++ n).plain) (h' : source'.toList = (m ++ n).spaced) :
    (ofText source).lineOf (byteSize m.plain) = (ofText source').lineOf (byteSize m.spaced) := by
  rw [plain_append] at h
  rw [spaced_append] at h'
  rw [lineOf_eq_breaks source h, lineOf_eq_breaks source' h', head?_spaced, breaks_spaced _ hm]

/-! ## Hashes in a span -/

/-- How many of the hashes that get a blank lie in the span. -/
def hashesIn (source : String) (span : Span) : Nat :=
  (hashes source).countP fun n => span.start ≤ n ∧ n < span.stop

theorem hashesIn_eq_zero_iff {source : String} {span : Span} :
    hashesIn source span = 0 ↔ ∀ n ∈ hashes source, ¬ (span.start ≤ n ∧ n < span.stop) := by
  simp [hashesIn]

theorem hashesIn_join (source : String) {start middle stop : Nat} (h₁ : start ≤ middle)
    (h₂ : middle ≤ stop) :
    hashesIn source ⟨start, stop⟩ =
      hashesIn source ⟨start, middle⟩ + hashesIn source ⟨middle, stop⟩ := by
  unfold hashesIn
  induction hashes source with
  | nil => rfl
  | cons n ns ih =>
    have hone : (if start ≤ n ∧ n < stop then 1 else 0) =
        (if start ≤ n ∧ n < middle then 1 else 0) + if middle ≤ n ∧ n < stop then 1 else 0 := by
      by_cases hn : n < middle
      · have hstop : n < stop := by omega
        have hmiddle : ¬ middle ≤ n := by omega
        simp [hn, hstop, hmiddle]
      · have hmiddle : middle ≤ n := by omega
        have hstart : start ≤ n := by omega
        simp [hn, hstart, hmiddle]
    simp only [List.countP_cons, ih, decide_eq_true_eq, hone]
    omega

theorem le_of_mem_offsets {offset n : Nat} {m : Marked} (h : n ∈ offsets offset m) :
    offset ≤ n ∧ n < offset + byteSize m.plain := by
  induction m generalizing offset with
  | nil => simp [offsets] at h
  | cons p m ih =>
    obtain ⟨c, marked⟩ := p
    have hpos := c.utf8Size_pos
    rw [plain_cons, byteSize_cons]
    rw [offsets] at h
    rcases List.mem_append.mp h with h | h
    · have hn : n = offset := by
        cases marked with
        | true => simpa using h
        | false => simp at h
      omega
    · have := ih h
      omega

theorem length_offsets (offset : Nat) (m : Marked) : (offsets offset m).length = count m := by
  induction m generalizing offset with
  | nil => rfl
  | cons p m ih =>
    obtain ⟨c, marked⟩ := p
    cases marked with
    | true => simp [offsets, ih]
    | false => simp [offsets, ih]

/-- The hashes in the span of a stretch of the text are its marks. -/
theorem hashesIn_marks {source : String} {before m after : Marked}
    (h : mark true source.toList = before ++ (m ++ after)) :
    hashesIn source ⟨byteSize before.plain, byteSize before.plain + byteSize m.plain⟩ =
      count m := by
  rw [hashesIn, hashes_eq, h, offsets_append, offsets_append, List.countP_append,
    List.countP_append, Nat.zero_add]
  have hbefore : (offsets 0 before).countP (fun n => decide (byteSize before.plain ≤ n ∧
      n < byteSize before.plain + byteSize m.plain)) = 0 := by
    refine List.countP_eq_zero.mpr fun n hn => ?_
    have := le_of_mem_offsets hn
    simp
    omega
  have hinside : (offsets (byteSize before.plain) m).countP (fun n => decide
      (byteSize before.plain ≤ n ∧ n < byteSize before.plain + byteSize m.plain)) = count m := by
    rw [List.countP_eq_length.mpr fun n hn => ?_, length_offsets]
    have := le_of_mem_offsets hn
    simpa using this
  have hafter : (offsets (byteSize before.plain + byteSize m.plain) after).countP (fun n => decide
      (byteSize before.plain ≤ n ∧ n < byteSize before.plain + byteSize m.plain)) = 0 := by
    refine List.countP_eq_zero.mpr fun n hn => ?_
    have := le_of_mem_offsets hn
    simp
    omega
  rw [hbefore, hinside, hafter, Nat.zero_add, Nat.add_zero]

/-- Spans that touch, with no hash in those between the first and the last. -/
theorem hashesIn_chain {source : String} {first last : Span} {between : List Span}
    (hchain : (first :: (between ++ [last])).IsChain fun s t => s.stop = t.start)
    (hordered : ∀ s ∈ first :: (between ++ [last]), s.start ≤ s.stop)
    (hnone : ∀ s ∈ between, hashesIn source s = 0) :
    first.start ≤ last.stop ∧
      hashesIn source ⟨first.start, last.stop⟩ = hashesIn source first + hashesIn source last := by
  induction between generalizing first with
  | nil =>
    obtain ⟨start, middle⟩ := first
    obtain ⟨middle', stop⟩ := last
    obtain rfl : middle = middle' := by simpa using hchain
    have h₁ : start ≤ middle := hordered ⟨start, middle⟩ (by simp)
    have h₂ : middle ≤ stop := hordered ⟨middle, stop⟩ (by simp)
    exact ⟨by simpa using h₁.trans h₂, hashesIn_join source h₁ h₂⟩
  | cons next between ih =>
    obtain ⟨start, middle⟩ := first
    obtain ⟨middle', stop⟩ := next
    rw [List.cons_append, List.isChain_cons_cons] at hchain
    obtain ⟨hmeet, hrest⟩ := hchain
    obtain rfl : middle = middle' := hmeet
    have h₁ : start ≤ middle := hordered ⟨start, middle⟩ (by simp)
    have h₂ : middle ≤ stop := hordered ⟨middle, stop⟩ (by simp)
    have hjoined := hashesIn_join source h₁ h₂
    rw [hnone ⟨middle, stop⟩ (by simp), Nat.add_zero] at hjoined
    rw [← hjoined]
    refine @ih ⟨start, stop⟩ ?_ ?_ ?_
    · exact List.isChain_cons.mpr (List.isChain_cons.mp hrest)
    · refine List.forall_mem_cons.mpr ⟨h₁.trans h₂, fun s hs => hordered s ?_⟩
      exact List.mem_cons_of_mem _ (List.mem_cons_of_mem _ hs)
    · intro s hs
      exact hnone s (List.mem_cons_of_mem _ hs)

/-! ## Pairs of tokens -/

/-- A token of a source and the token it becomes in the spaced source. -/
structure Twin (source source' : String) (a b : Token) : Prop where
  kind : a.kind = b.kind
  line : (ofText source).lineOf a.span.start = (ofText source').lineOf b.span.start
  spread : Spread (hashesIn source a.span) a.content.toList b.content.toList
  plain : a.kind ≠ .comment → a.kind.isDelimited = false → a.content = b.content
  directive : a.kind = .comment → Directive.ofComment? a.content = Directive.ofComment? b.content
  ordered : a.span.start ≤ a.span.stop

theorem kind_eq_comment {shape : Shape} (h : shape.kind = .comment) : shape = .comment := by
  cases shape <;> first | rfl | cases h

theorem twins_ofLexemes {source source' : String} {zs : List MarkedLexeme} {before : Marked}
    (hsound : ∀ z ∈ zs, z.Sound) (hmark : mark true source.toList = before ++ zs.flatMap (·.marks))
    (hspaced : source'.toList = (mark true source.toList).spaced) :
    List.Forall₂ (Twin source source')
      (Token.ofLexemes (byteSize before.plain) (zs.map (·.plain)))
      (Token.ofLexemes (byteSize before.spaced) (zs.map (·.spaced))) := by
  induction zs generalizing before with
  | nil => exact .nil
  | cons z zs ih =>
    obtain ⟨hz, hzs⟩ := List.forall_mem_cons.mp hsound
    rw [List.flatMap_cons] at hmark
    have hhashed : Hashed before := by
      have hall := hashed_mark true source.toList
      rw [hmark] at hall
      exact (hashed_append.mp hall).1
    have hsource : source.toList = (before ++ (z.marks ++ zs.flatMap (·.marks))).plain := by
      rw [← hmark, plain_mark]
    have hsource' : source'.toList = (before ++ (z.marks ++ zs.flatMap (·.marks))).spaced := by
      rw [← hmark, hspaced]
    have hnext := @ih (before ++ z.marks) hzs (by rw [hmark, List.append_assoc])
    rw [plain_append, spaced_append, byteSize_append, byteSize_append] at hnext
    refine .cons ⟨rfl, lineOf_spaced hhashed hsource hsource', ?_, ?_, ?_, ?_⟩ hnext
    · change Spread (hashesIn source ⟨_, _ + byteSize z.marks.plain⟩)
        (String.ofList z.plain.content).toList (String.ofList z.spaced.content).toList
      rw [hashesIn_marks hmark, String.toList_ofList, String.toList_ofList]
      exact hz.content
    · intro hcomment hkind
      have hshape : z.shape ≠ .comment := fun hs => hcomment (congrArg Shape.kind hs)
      have hsame : z.spaced = z.plain := by
        rw [MarkedLexeme.spaced, MarkedLexeme.plain, hz.unmarked hshape hkind, spaced_unmarked,
          plain_unmarked]
      change String.ofList z.plain.content = String.ofList z.spaced.content
      rw [hsame]
    · intro hcomment
      have hshape : z.shape = .comment := kind_eq_comment hcomment
      have hdirective := hz.directive hshape
      obtain ⟨shape, marks⟩ := z
      cases hshape
      exact hdirective
    · exact Nat.le_add_right _ _

theorem twins_tokenize {source source' : String} (h : space? source = some source') :
    List.Forall₂ (Twin source source') (tokenize source) (tokenize source') := by
  have hspaced := toList_of_space? h
  obtain ⟨zs, hmarks, hplain, hspacedPieces, hsound⟩ := exists_pieces source.toList
  have htwins := @twins_ofLexemes source source' zs [] hsound hmarks.symm hspaced
  rw [hplain, hspacedPieces, ← hspaced] at htwins
  exact htwins

/-- Where the one token ends, the other begins. -/
def Touch (a b : Token) : Prop :=
  a.span.stop = b.span.start

theorem forall_left_of_forall₂ {R : Token → Token → Prop} {P : Token → Prop} {as bs : List Token}
    (h : List.Forall₂ R as bs) (hP : ∀ a b, R a b → P a) : ∀ a ∈ as, P a := by
  induction h with
  | nil => simp
  | cons hab _ ih => exact List.forall_mem_cons.mpr ⟨hP _ _ hab, ih⟩

/-- What is dropped between two operands holds no hash. -/
theorem Twin.hashesIn_eq_zero {source source' : String} {a b : Token} (h : Twin source source' a b)
    (hskip : a.isSpacing ∨ a.isPlus) : hashesIn source a.span = 0 := by
  have hkind : a.kind = .whitespace ∨ a.kind = .endOfLine ∨ a.kind = .text := by
    rcases hskip with hspacing | hplus
    · simp only [Token.isSpacing, Token.isWhitespace, Token.isLineBreak, Bool.or_eq_true,
        beq_iff_eq] at hspacing
      exact hspacing.elim .inl fun hbreak => .inr (.inl hbreak)
    · exact .inr (.inr (Token.isPlus_iff.mp hplus).1)
  have hcontent : a.content = b.content := by
    rcases hkind with hk | hk | hk <;>
      exact h.plain (by rw [hk]; simp) (by rw [hk]; rfl)
  exact h.spread.eq_iff.mp (by rw [hcontent])

theorem twin_append {source source' : String} {a b x y : Token} {between between' : List Token}
    {last : TokenKind} (hab : Twin source source' a b)
    (hbetween : List.Forall₂ (Twin source source') between between') (hxy : Twin source source' x y)
    (htouch : (a :: (between ++ [x])).IsChain Touch) (hkind : a.kind = .text ∨ a.kind = .quoted)
    (hskip : ∀ t ∈ between, t.isSpacing ∨ t.isPlus) (hoperand : x.isOperand) :
    Twin source source' (Token.append a last x) (Token.append b last y) := by
  have hordered : ∀ s ∈ a.span :: (between.map Token.span ++ [x.span]), s.start ≤ s.stop := by
    have hall := forall_left_of_forall₂ hbetween fun t _ ht => ht.ordered
    simpa [hab.ordered, hxy.ordered, or_imp, forall_and] using hall
  have hnone : ∀ s ∈ between.map Token.span, hashesIn source s = 0 := by
    have hall := forall_left_of_forall₂ hbetween fun t _ ht => ht.hashesIn_eq_zero
    intro s hs
    obtain ⟨t, ht, rfl⟩ := List.mem_map.mp hs
    exact hall t ht (hskip t ht)
  have hchain : (a.span :: (between.map Token.span ++ [x.span])).IsChain
      fun s t => s.stop = t.start := by
    have hmap := (List.isChain_map Token.span (R := fun s t : Span => s.stop = t.start)).mpr htouch
    simpa using hmap
  obtain ⟨hle, hcount⟩ := hashesIn_chain hchain hordered hnone
  have hspan : (Token.append a last x).span = ⟨a.span.start, x.span.stop⟩ := rfl
  have hcontent : ∀ t u : Token, t.kind = x.kind → (Token.append u last t).content.toList =
      u.content.toList ++ (if last = .text ∧ x.kind = .text then [' '] else []) ++
        t.content.toList := by
    intro t u ht
    simp only [Token.append, ht]
    split <;> simp
  have hkindEq : ∀ t u : Token, t.kind = x.kind → u.kind = a.kind →
      (Token.append u last t).kind = if x.kind = .quoted then .quoted else a.kind := by
    intro t u ht hu
    simp only [Token.append, ht, hu]
  have hnotComment : (Token.append a last x).kind ≠ .comment := by
    rw [hkindEq x a rfl rfl]
    split
    · simp
    · rcases hkind with hk | hk <;> simp [hk]
  refine ⟨?_, hab.line, ?_, ?_, fun hc => absurd hc hnotComment, ?_⟩
  · rw [hkindEq x a rfl rfl, hkindEq y b hxy.kind.symm hab.kind.symm]
  · rw [hspan, hcount, hcontent x a rfl, hcontent y b hxy.kind.symm,
      ← Nat.add_zero (hashesIn source a.span)]
    exact (hab.spread.append (.refl _)).append hxy.spread
  · intro _ hplain
    rw [hkindEq x a rfl rfl] at hplain
    have hx : x.kind = .text := by
      rcases Token.kind_of_isOperand hoperand with hx | hx
      · exact hx
      · rw [if_pos hx] at hplain
        cases hplain
    have ha : a.kind = .text := by
      rcases hkind with ha | ha
      · exact ha
      · rw [if_neg (by simp [hx]), ha] at hplain
        cases hplain
    have hcontents := hab.plain (by simp [ha]) (by rw [ha]; rfl)
    have hcontents' := hxy.plain (by simp [hx]) (by rw [hx]; rfl)
    apply String.toList_injective
    rw [hcontent x a rfl, hcontent y b hxy.kind.symm, hcontents, hcontents']
  · exact hle

theorem joinable_twin (source source' : String) :
    Token.Joinable Touch (Twin source source') := by
  refine ⟨fun a b h => ⟨h.kind, ?_⟩, fun h => h, fun hab hbetween hxy =>
    twin_append hab hbetween hxy⟩
  by_cases hkind : a.kind = .text
  · have hcontent := h.plain (by simp [hkind]) (by rw [hkind]; rfl)
    rw [Token.isPlus, Token.isPlus, h.kind, hcontent]
  · have hno : (a.kind == .text) = false := by simpa using hkind
    rw [Token.isPlus, Token.isPlus, ← h.kind, hno, Bool.false_and, Bool.false_and]

/-- The tokens of a source and of the spaced source, pair by pair. -/
theorem twins_lex {source source' : String} (h : space? source = some source') :
    List.Forall₂ (Twin source source') (lex source) (lex source') := by
  have htouch : (tokenize source).IsChain Touch := by
    have hcontiguous := (tiles_tokenize source).contiguous
    exact (List.isChain_map Token.span).mp hcontiguous
  exact (joinable_twin source source').merge_related htouch (twins_tokenize h)

end Comment

end CampaignMarkup
