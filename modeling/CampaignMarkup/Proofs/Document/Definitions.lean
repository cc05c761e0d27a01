import CampaignMarkup.Proofs.Document.Gathering

/-! # The definitions of a text

Every definition among the nodes of a text is gathered from pieces of the text behind its `#define`.
A text that consists of a `#define`, pieces that can be gathered and nothing else has that
definition for its only node. -/
namespace CampaignMarkup

open Token Lexeme

namespace Node

variable {source : String} {lines : LineMap} {b : DefineBlock} {ns : List Node}

/-- A definition among the nodes of some tokens, with the `#define` that it is read from. -/
def ReadAmong (text : List Char) (lines : LineMap) (b : DefineBlock) (ts : List Token) : Prop :=
  ∃ t rest docs more, t :: rest <:+ ts ∧ t.directive? = some b.header ∧
    Capture.block text lines b.header docs b.line (skipLineBreak rest) = .ok (b, more)

theorem ReadAmong.mono {text : List Char} {ts us : List Token} (h : ReadAmong text lines b ts)
    (hsuffix : ts <:+ us) : ReadAmong text lines b us := by
  obtain ⟨t, rest, docs, more, hts, hread⟩ := h
  exact ⟨t, rest, docs, more, hts.trans hsuffix, hread⟩

theorem skipLineBreak_suffix (ts : List Token) : skipLineBreak ts <:+ ts := by
  cases ts with
  | nil => exact List.suffix_rfl
  | cons t ts =>
    rw [skipLineBreak]
    split
    · exact List.suffix_cons t ts
    · exact List.suffix_rfl

theorem define_ne_ofToken? (t : Token) : ofToken? lines t ≠ some (.define b) := by
  unfold ofToken?
  split <;> simp

theorem exists_of_map_ok {f : List Node → List Node} {result : Except StructureError (List Node)}
    (h : result.map f = .ok ns) : ∃ last, result = .ok last ∧ ns = f last := by
  cases result with
  | error e => cases h
  | ok last => exact ⟨last, rfl, (Except.ok.inj h).symm⟩

/-- The nodes that come first, whose definitions are known, and the tokens that the others are read
from. -/
structure Begun (text : List Char) (lines : LineMap) (ts : List Token) (ns first last : List Node)
    (docs : List String) (us : List Token) : Prop where
  nodes : ns = first ++ last
  known : ∀ b, .define b ∈ first → ReadAmong text lines b ts
  suffix : us <:+ ts
  shorter : us.length < ts.length
  others : ofTokens text lines docs us = .ok last

section Step

variable {text : List Char} {docs : List String} {ts rest : List Token} {t : Token}

theorem begun_line (hne : ts ≠ [])
    (hline : ∀ t ∈ (ts.dropWhile isWhitespace).head?, t.kind ≠ .comment)
    (h : ofTokens text lines docs ts = .ok ns) :
    ∃ first last docs us, Begun text lines ts ns first last docs us := by
  have hshort : (splitLine ts).2.length < ts.length := by
    obtain ⟨t, ts, rfl⟩ := List.exists_cons_of_ne_nil hne
    have := splitLine_length_le t ts
    rw [List.length_cons]
    omega
  rw [ofTokens_line _ _ _ hne hline] at h
  obtain ⟨last, hread, rfl⟩ := exists_of_map_ok h
  refine ⟨_, last, [], _, rfl, ?_, ⟨_, splitLine_append ts⟩, hshort, hread⟩
  intro b hb
  obtain ⟨t, -, ht⟩ := List.mem_filterMap.mp hb
  exact absurd ht (define_ne_ofToken? t)

theorem begun_comment (hend : CommentsEnd ts) (hdrop : ts.dropWhile isWhitespace = t :: rest)
    (hkind : t.kind = .comment) (h : ofTokens text lines docs ts = .ok ns) :
    ∃ first last docs us, Begun text lines ts ns first last docs us := by
  have hfrom : t :: rest <:+ ts := hdrop ▸ List.dropWhile_suffix _
  have hskip : skipLineBreak rest <:+ ts :=
    (skipLineBreak_suffix rest).trans ((List.suffix_cons t rest).trans hfrom)
  have hshort : (skipLineBreak rest).length < ts.length := by
    have hlen := hfrom.length_le
    have hle := skipLineBreak_length_le rest
    rw [List.length_cons] at hlen
    omega
  rw [ofTokens_comment _ _ _ hdrop hkind] at h
  cases hd : Directive.ofComment? t.content with
  | none =>
    simp only [hd] at h
    exact ⟨[], ns, _, _, rfl, by simp, hskip, hshort, h⟩
  | some d =>
    simp only [hd] at h
    split at h
    · split at h
      · cases h
      · next block more hblock =>
        have hafter : CommentsEnd (skipLineBreak rest) := by
          obtain ⟨before, rfl⟩ := hskip
          exact hend.right
        obtain ⟨rfl, hline, body, hbody, -⟩ := block_ok hafter hblock
        obtain ⟨last, hread, rfl⟩ := exists_of_map_ok h
        have hmore : more <:+ skipLineBreak rest := ⟨body, hbody.symm⟩
        refine ⟨[.define block], last, _, more, rfl, ?_, hmore.trans hskip,
          hmore.length_le.trans_lt hshort, hread⟩
        intro b hb
        obtain rfl : b = block := by simpa using hb
        rw [← hline] at hblock
        exact ⟨t, rest, docs, more, hfrom, directive?_eq_some.mpr ⟨hkind, hd⟩, hblock⟩
    · obtain ⟨last, hread, rfl⟩ := exists_of_map_ok h
      exact ⟨[_], last, _, _, rfl, by simp, hskip, hshort, hread⟩

end Step

/-- By induction on the tokens, line by line. -/
theorem readAmong_of_mem {text : List Char} {docs : List String} {ts : List Token}
    (hend : CommentsEnd ts) (h : ofTokens text lines docs ts = .ok ns) (hb : .define b ∈ ns) :
    ReadAmong text lines b ts := by
  induction hn : ts.length using Nat.strong_induction_on generalizing ts docs ns with
  | _ n ih =>
    by_cases hne : ts = []
    · subst hne
      rw [ofTokens] at h
      cases h
      cases hb
    obtain ⟨first, last, docs', us, hbegun⟩ : ∃ first last docs us,
        Begun text lines ts ns first last docs us := by
      by_cases hline : ∀ t ∈ (ts.dropWhile isWhitespace).head?, t.kind ≠ .comment
      · exact begun_line hne hline h
      · push Not at hline
        obtain ⟨t, ht, hkind⟩ := hline
        exact begun_comment hend (List.eq_cons_of_mem_head? ht) hkind h
    rw [hbegun.nodes] at hb
    rcases List.mem_append.mp hb with hfirst | hlast
    · exact hbegun.known b hfirst
    · have hend' : CommentsEnd us := by
        obtain ⟨before, rfl⟩ := hbegun.suffix
        exact hend.right
      have hless := hbegun.shorter
      exact (ih _ (hn ▸ hless) hend' hbegun.others hlast rfl).mono hbegun.suffix

end Node

namespace Lexeme

theorem tokenize_eq (source : String) :
    tokenize source = tokensAtEnd source.toList (fuse (scan source.toList)) := by
  have hspell : spell (fuse (scan source.toList)) = source.toList :=
    (pieces_fuse_scan source.toList).flatMap_chars
  rw [tokensAtEnd, hspell, Nat.sub_self]
  rfl

/-- The tokens from some token on are those of the pieces from some piece on. -/
theorem exists_suffix_of_tokensAtEnd {source before : List Char} {xs : List Lexeme}
    {ts : List Token} (hsource : source = before ++ spell xs) (h : ts <:+ tokensAtEnd source xs) :
    ∃ ys, ys <:+ xs ∧ ts = tokensAtEnd source ys := by
  induction xs generalizing before with
  | nil => exact ⟨[], List.suffix_rfl, List.suffix_nil.mp h⟩
  | cons x xs ih =>
    rw [tokensAtEnd_cons hsource] at h
    rcases List.suffix_cons_iff.mp h with rfl | h
    · exact ⟨x :: xs, List.suffix_rfl, (tokensAtEnd_cons hsource).symm⟩
    · have hnext : source = (before ++ x.chars) ++ spell xs := by simp [hsource]
      obtain ⟨ys, hys, rfl⟩ := ih hnext h
      exact ⟨ys, hys.trans (List.suffix_cons x xs), rfl⟩

end Lexeme

theorem merge_cons_comment {t : Token} {rest ts : List Token}
    (h : t :: rest = mergeConcatenations ts) (hkind : t.kind = .comment) :
    ∃ us, ts = t :: us ∧ rest = mergeConcatenations us := by
  cases ts with
  | nil => simp [mergeConcatenations] at h
  | cons u us =>
    cases hop : u.isOperand with
    | true =>
      rw [merge_operand hop] at h
      have hchain := kind_extend u.kind us (kind_of_isOperand hop)
      rw [← (List.cons.inj h).1, hkind] at hchain
      simp at hchain
    | false =>
      rw [merge_other hop] at h
      obtain ⟨rfl, rfl⟩ := List.cons.inj h
      exact ⟨us, rfl, rfl⟩

namespace Lexeme

/-- The token of this piece of the source, with these pieces behind it. -/
def TokenAt (source : String) (t : Token) (x : Lexeme) (xs : List Lexeme) : Prop :=
  ∃ front, fuse (scan source.toList) = front ++ x :: xs ∧
    t = ofLexeme x (Chars.byteSize (spell front)) (Chars.byteSize (spell (front ++ [x])))

theorem TokenAt.directive? {source : String} {t : Token} {x : Lexeme} {xs : List Lexeme}
    (h : TokenAt source t x xs) : t.directive? = x.token.directive? := by
  obtain ⟨front, -, rfl⟩ := h
  rfl

theorem TokenAt.exists_before {source : String} {t : Token} {x : Lexeme} {xs : List Lexeme}
    (h : TokenAt source t x xs) : ∃ before, source.toList = before ++ spell (x :: xs) := by
  obtain ⟨front, hpieces, -⟩ := h
  refine ⟨spell front, ?_⟩
  rw [← spell_append, ← hpieces]
  exact (pieces_fuse_scan source.toList).flatMap_chars.symm

/-- A comment among the tokens is a piece of its own, and the tokens behind it are joined from those
of the pieces behind it. -/
theorem exists_tokenAt {source : String} {t : Token} {rest : List Token}
    (h : t :: rest <:+ lex source) (hkind : t.kind = .comment) :
    ∃ x xs, TokenAt source t x xs ∧
      rest = mergeConcatenations (tokensAtEnd source.toList xs) := by
  obtain ⟨ts, hts, heq⟩ := exists_suffix_of_merge h
  obtain ⟨us, rfl, rfl⟩ := merge_cons_comment heq hkind
  have hspell : source.toList = [] ++ spell (fuse (scan source.toList)) :=
    (pieces_fuse_scan source.toList).flatMap_chars.symm
  rw [tokenize_eq] at hts
  obtain ⟨ys, ⟨front, hfront⟩, hus⟩ := exists_suffix_of_tokensAtEnd hspell hts
  cases ys with
  | nil => cases hus
  | cons x xs =>
    have hbefore : source.toList = spell front ++ spell (x :: xs) := by
      rw [hspell, ← hfront, spell_append, List.nil_append]
    rw [tokensAtEnd_cons hbefore] at hus
    obtain ⟨rfl, rfl⟩ := List.cons.inj hus
    refine ⟨x, xs, ⟨front, hfront.symm, ?_⟩, rfl⟩
    simp

end Lexeme

namespace Capture

/-- What is captured behind a comment is gathered from the pieces behind it. -/
theorem gathered_of_block {source : String} {header : Token} {x : Lexeme} {xs : List Lexeme}
    {lines : LineMap} {d : Directive} {docs : List String} {line : Nat} {b : DefineBlock}
    {more : List Token} (h : TokenAt source header x xs)
    (hblock : block source.toList lines d docs line
      (skipLineBreak (mergeConcatenations (tokensAtEnd source.toList xs))) = .ok (b, more)) :
    ∃ g zs, Gathering.gather {} (behindBreak xs) = some (g, zs) ∧
      b.body = String.ofList (spell g.body) ∧ b.argDefaults = g.values ∧
      more = mergeConcatenations (tokensAtEnd source.toList zs) := by
  obtain ⟨before, hbefore⟩ := h.exists_before
  have hbehind : source.toList = (before ++ x.chars) ++ spell xs := by simp [hbefore]
  obtain ⟨line', hline⟩ := behindBreak_suffix xs
  have hnext : source.toList = (before ++ x.chars ++ spell line') ++ spell (behindBreak xs) := by
    rw [hbehind, List.append_assoc _ (spell line'), ← spell_append, hline]
  rw [skipLineBreak_merge, skipLineBreak_tokensAtEnd hbehind] at hblock
  obtain ⟨g, zs, hgather, hb, hmore⟩ := (block_eq_ok_iff lines d docs line hnext).mp hblock
  exact ⟨g, zs, hgather, congrArg DefineBlock.body hb, congrArg DefineBlock.argDefaults hb, hmore⟩

end Capture

namespace Node

/-- Every definition among the nodes of a text is gathered from pieces of it. -/
theorem exists_gathered {source : String} {b : DefineBlock} {ns : List Node}
    (h : ofSource source = .ok ns) (hb : .define b ∈ ns) :
    ∃ x xs before g zs, source.toList = before ++ spell (x :: xs) ∧
      Pieces (spell (x :: xs)) (x :: xs) ∧ x.token.directive? = some b.header ∧
      Gathering.gather {} (behindBreak xs) = some (g, zs) ∧
      b.body = String.ofList (spell g.body) ∧ b.argDefaults = g.values := by
  obtain ⟨t, rest, docs, more, hsuffix, hd, hblock⟩ :=
    readAmong_of_mem (laid_lex source).commentsEnd h hb
  obtain ⟨x, xs, hat, rfl⟩ := exists_tokenAt hsuffix (directive?_eq_some.mp hd).1
  obtain ⟨g, zs, hgather, hbody, hdefaults, -⟩ := Capture.gathered_of_block hat hblock
  obtain ⟨before, hbefore⟩ := hat.exists_before
  rw [hat.directive?] at hd
  obtain ⟨front, hfront, -⟩ := hat
  have hpieces := (pieces_fuse_scan source.toList).suffix ⟨front, hfront.symm⟩
  exact ⟨x, xs, before, g, zs, hbefore, hpieces, hd, hgather, hbody, hdefaults⟩

/-- A text that is one definition has that definition for its only node. -/
theorem ofSource_of_gathered {source : String} {x y : Lexeme} {xs : List Lexeme} {d : Directive}
    {g : Gathering} (hpieces : Pieces source.toList (x :: y :: xs))
    (hd : x.token.directive? = some d) (hdefine : d.kind = .define) (hy : y.shape = .endOfLine)
    (hgather : Gathering.gather {} xs = some (g, [])) :
    ∃ line, ofSource source =
      .ok [.define ⟨d, String.ofList (spell g.body), g.values, none, line⟩] := by
  have hsource : source.toList = [] ++ spell (x :: y :: xs) := hpieces.flatMap_chars.symm
  have hlater : source.toList = x.chars ++ spell (y :: xs) := by simp [hsource]
  have hlast : source.toList = (x.chars ++ y.chars) ++ spell xs := by simp [hsource]
  have htokens := tokenize_eq source
  rw [← hpieces.eq_fuse, tokensAtEnd_cons hsource] at htokens
  obtain ⟨t, ht⟩ : ∃ t, t = ofLexeme x (Chars.byteSize []) (Chars.byteSize ([] ++ x.chars)) :=
    ⟨_, rfl⟩
  rw [← ht] at htokens
  have hdirective : t.directive? = some d := by rw [ht]; exact hd
  obtain ⟨hkind, hsome⟩ := directive?_eq_some.mp hdirective
  have hop : t.isOperand = false := by simp [isOperand, hkind]
  have hbreak : behindBreak (y :: xs) = xs := by rw [behindBreak, if_pos hy]
  have hblock := (Capture.block_eq_ok_iff (LineMap.ofText source) d []
    ((LineMap.ofText source).lineOf t.span.start) hlast).mpr ⟨g, [], hgather, rfl, rfl⟩
  refine ⟨(LineMap.ofText source).lineOf t.span.start, ?_⟩
  have hdrop : (t :: mergeConcatenations (tokensAtEnd source.toList (y :: xs))).dropWhile
      isWhitespace = t :: mergeConcatenations (tokensAtEnd source.toList (y :: xs)) :=
    List.dropWhile_cons_of_neg (by simp [isWhitespace, hkind])
  rw [ofSource, lex, htokens, merge_other hop, ofTokens_comment _ _ _ hdrop hkind, hsome,
    skipLineBreak_merge, skipLineBreak_tokensAtEnd hlater, hbreak]
  simp only [hdefine, if_true, hblock]
  have hnil : mergeConcatenations (tokensAtEnd source.toList []) = [] := by
    rw [tokensAtEnd, ofLexemes, mergeConcatenations]
  rw [hnil, ofTokens]
  rfl

end Node

end CampaignMarkup
