import CampaignMarkup.Proofs.Token.Rereading

/-! # Rendering and delimited content

When the markup of joined tokens still says what the tokens said: exactly when no string touches
another and no raw string lost its last angle. As a text it stays the same even where it does not:
whatever a reader makes of the markup is written as that markup again. -/
namespace CampaignMarkup

open Chars Lexeme Token

/-- The quoted, raw and call tokens, by kind and content. -/
def delimited (ts : List Token) : List (TokenKind × String) :=
  (ts.map bare).filter (·.1.isDelimited)

namespace Token

/-- Strings stand apart, and no raw content ends in an angle. -/
structure Apart (ts : List Token) : Prop where
  quoted : ts.IsChain fun t u => ¬ (t.kind = .quoted ∧ u.kind = .quoted)
  raw : ∀ t ∈ ts, t.kind = .rawQuoted → t.content.toList.getLast? ≠ some '>'

theorem delimited_cons (t : Token) (ts : List Token) :
    delimited (t :: ts) = if t.kind.isDelimited then t.bare :: delimited ts else delimited ts := by
  rw [delimited, List.map_cons, List.filter_cons]
  rfl

theorem delimited_phrase (p : List Char) (us : List Token) :
    delimited (phrase p ++ us) = delimited us := by
  rw [phrase]
  induction p.splitOn ' ' with
  | nil => rfl
  | cons w ws ih =>
    cases ws with
    | nil => rfl
    | cons v vs =>
      rw [List.map_cons, List.map_cons, List.intersperse_cons_cons]
      exact ih

/-- How many strings touch the string before them. -/
def touching : List Token → Nat
  | [] => 0
  | t :: ts =>
    touching ts + if t.kind = .quoted ∧ ts.head?.map kind = some .quoted then 1 else 0

theorem touching_eq_zero_iff (ts : List Token) :
    touching ts = 0 ↔ ts.IsChain fun t u => ¬ (t.kind = .quoted ∧ u.kind = .quoted) := by
  induction ts with
  | nil => simp [touching]
  | cons t ts ih =>
    rw [touching, List.isChain_cons, Nat.add_eq_zero_iff, ih, and_comm]
    refine and_congr_left fun _ => ?_
    cases ts with
    | nil => simp
    | cons u us => simp

theorem exists_phrase (p : List Char) : ∃ w ts, phrase p = word w :: ts := by
  rw [phrase]
  cases hp : p.splitOn ' ' with
  | nil => exact absurd hp (List.splitOn_ne_nil ' ' p)
  | cons w ws =>
    cases ws with
    | nil => exact ⟨w, [], rfl⟩
    | cons v vs => exact ⟨w, _, by rw [List.map_cons, List.map_cons, List.intersperse_cons_cons]⟩

theorem head?_resume (t : Token) (us : List Token) :
    (resume t us).head?.map kind = some t.kind := by
  unfold resume
  split
  · next hkind =>
    obtain ⟨w, ts, heq⟩ := exists_phrase t.content.toList
    rw [heq, hkind]
    rfl
  · next hkind =>
    obtain ⟨u, vs, heq, hu⟩ := exists_glue hkind us
    rw [heq, hkind, ← hu]
    rfl
  · next hkind => split <;> simp [hkind]
  all_goals rfl

theorem reread_cons (t : Token) (ts : List Token) : reread (t :: ts) = resume t (reread ts) := rfl

theorem head?_reread (ts : List Token) : (reread ts).head?.map kind = ts.head?.map kind := by
  cases ts with
  | nil => rfl
  | cons t ts => exact head?_resume t (reread ts)

/-- What is read for a delimited token that touches no other. -/
def reading (t : TokenKind × String) : TokenKind × String :=
  if t.1 = .rawQuoted then (t.1, String.ofList (dropEnding ['>'] t.2.toList)) else t

theorem delimited_rawQuoted {t : Token} (hkind : t.kind = .rawQuoted) (us : List Token) :
    delimited (resume t us) = reading t.bare :: delimited us := by
  unfold resume
  rw [hkind]
  dsimp only
  split
  · next content hending =>
    simp [delimited_cons, reading, bare, word, TokenKind.isDelimited, hkind, dropEnding, hending]
  · next hending =>
    simp [delimited_cons, reading, bare, TokenKind.isDelimited, hkind, dropEnding, hending]

/-- A string is read by itself, or with the one behind it. -/
theorem delimited_quoted {t : Token} (hkind : t.kind = .quoted) (us : List Token) :
    delimited (resume t us) =
      if us.head?.map kind = some .quoted then
        (.quoted, t.content ++ "\"" ++ (us.head?.map content).getD "") :: (delimited us).tail
      else t.bare :: delimited us := by
  rw [resume, hkind]
  cases us with
  | nil => simp [glue, delimited_cons, hkind, TokenKind.isDelimited]
  | cons u us =>
    by_cases hu : u.kind = .quoted
    · simp [glue, hu, delimited_cons, TokenKind.isDelimited, bare]
    · simp [glue, hu, delimited_cons, hkind, TokenKind.isDelimited, bare]

theorem delimited_undelimited {t : Token} (hkind : t.kind.isDelimited = false) (us : List Token) :
    delimited (resume t us) = delimited us := by
  unfold resume
  split
  · exact delimited_phrase _ us
  all_goals next hk => simp [hk, TokenKind.isDelimited, delimited_cons] at hkind ⊢

theorem isDelimited_cases {k : TokenKind} (h : k.isDelimited) :
    k = .quoted ∨ k = .rawQuoted ∨ k = .macroCall := by
  cases k <;> simp [TokenKind.isDelimited] at h ⊢

theorem delimited_macroCall {t : Token} (hkind : t.kind = .macroCall) (us : List Token) :
    delimited (resume t us) = t.bare :: delimited us := by
  simp [resume, hkind, delimited_cons, TokenKind.isDelimited]

/-- Every string that touches the one before it is lost to it. -/
theorem length_delimited_reread (ts : List Token) :
    (delimited (reread ts)).length + touching ts = (delimited ts).length := by
  induction ts with
  | nil => rfl
  | cons t ts ih =>
    rw [reread_cons, touching, delimited_cons]
    cases hdelimited : t.kind.isDelimited with
    | false =>
      have hno : t.kind ≠ .quoted := by
        intro hq
        rw [hq] at hdelimited
        cases hdelimited
      rw [delimited_undelimited hdelimited]
      simp [hno, ih]
    | true =>
      rcases isDelimited_cases hdelimited with hkind | hkind | hkind
      · rw [delimited_quoted hkind, head?_reread]
        by_cases hnext : ts.head?.map kind = some .quoted
        · have hpos : 0 < (delimited (reread ts)).length := by
            rw [← head?_reread] at hnext
            cases hus : reread ts with
            | nil => simp [hus] at hnext
            | cons u us =>
              have hu : u.kind = .quoted := by simpa [hus] using hnext
              simp [delimited_cons, hu, TokenKind.isDelimited]
          simp only [hnext, hkind, and_self, if_true, List.length_cons, List.length_tail]
          omega
        · simp only [hnext, and_false, if_true, if_false, List.length_cons]
          omega
      · rw [delimited_rawQuoted hkind]
        simp [hkind]
        omega
      · rw [delimited_macroCall hkind]
        simp [hkind]
        omega

theorem delimited_reread_of_untouched {ts : List Token} (h : touching ts = 0) :
    delimited (reread ts) = (delimited ts).map reading := by
  induction ts with
  | nil => rfl
  | cons t ts ih =>
    rw [touching, Nat.add_eq_zero_iff] at h
    obtain ⟨hts, hnext⟩ := h
    rw [reread_cons, delimited_cons]
    cases hdelimited : t.kind.isDelimited with
    | false =>
      rw [delimited_undelimited hdelimited, ih hts]
      simp
    | true =>
      rcases isDelimited_cases hdelimited with hkind | hkind | hkind
      · have hno : ¬ ts.head?.map kind = some .quoted := by
          intro hq
          simp [hkind, hq] at hnext
        rw [delimited_quoted hkind, head?_reread, if_neg hno, ih hts]
        simp [reading, bare, hkind]
      · rw [delimited_rawQuoted hkind, ih hts]
        simp
      · rw [delimited_macroCall hkind, ih hts]
        simp [reading, bare, hkind]

theorem reading_eq_self_iff {t : TokenKind × String} :
    reading t = t ↔ (t.1 = .rawQuoted → t.2.toList.getLast? ≠ some '>') := by
  by_cases hkind : t.1 = .rawQuoted
  · have heq : reading t = t ↔ dropEnding ['>'] t.2.toList = t.2.toList := by
      rw [reading, if_pos hkind, Prod.ext_iff, ← String.toList_inj]
      simp
    rw [heq]
    refine ⟨fun h _ hlast => ?_, fun h => dropEnding_of_not_suffix fun hs => ?_⟩
    · obtain ⟨body, hbody⟩ := List.getLast?_eq_some_iff.mp hlast
      rw [hbody, dropEnding_append] at h
      simp at h
    · obtain ⟨body, hbody⟩ := hs
      exact h hkind (by simp [← hbody])
  · simp [reading, hkind]

end Token

theorem delimited_lex_detokenize (source : String) :
    delimited (lex (detokenize (lex source))) = delimited (reread (lex source)) := by
  rw [delimited, map_bare_lex_detokenize]
  rfl

/-- A later reader of rendered tokens finds the content that the tokens had if and only if no two
strings touch among them and no raw content ends in an angle. -/
theorem rendering_keeps_content_iff_apart (source : String) :
    delimited (lex (detokenize (lex source))) = delimited (lex source) ↔ Apart (lex source) := by
  have hmem : ∀ t ∈ lex source, t.kind.isDelimited → t.bare ∈ delimited (lex source) := by
    intro t ht hkind
    exact List.mem_filter.mpr ⟨List.mem_map_of_mem ht, hkind⟩
  rw [delimited_lex_detokenize]
  constructor
  · intro h
    have hlength := length_delimited_reread (lex source)
    rw [h] at hlength
    have hno : touching (lex source) = 0 := by omega
    refine ⟨(touching_eq_zero_iff _).mp hno, fun t ht hkind => ?_⟩
    rw [delimited_reread_of_untouched hno] at h
    have hfixed : ∀ p ∈ delimited (lex source), reading p = p :=
      List.map_eq_map_iff.mp (h.trans (List.map_id _).symm)
    exact reading_eq_self_iff.mp (hfixed _ (hmem t ht (by rw [hkind]; rfl))) hkind
  · rintro ⟨hquoted, hraw⟩
    rw [delimited_reread_of_untouched ((touching_eq_zero_iff _).mpr hquoted)]
    refine (List.map_congr_left fun p hp => ?_).trans (List.map_id _)
    obtain ⟨t, ht, rfl⟩ := List.mem_map.mp (List.mem_filter.mp hp).1
    exact reading_eq_self_iff.mpr (hraw t ht)

/-- The string behind a joined one is taken for a part of it. -/
theorem rendered_strings_run_together :
    delimited (lex "\"a\" + b\"c\"") = [(.quoted, "ab"), (.quoted, "c")] ∧
      detokenize (lex "\"a\" + b\"c\"") = "\"ab\"\"c\"" ∧
      delimited (lex (detokenize (lex "\"a\" + b\"c\""))) = [(.quoted, "ab\"c")] := by
  decide +kernel

/-! ## Rendering again -/

namespace Token

theorem markup_cons (t : Token) (ts : List Token) :
    markup (t :: ts) = t.kind.write t.content.toList ++ markup ts :=
  List.flatMap_cons

theorem markup_append (ts us : List Token) : markup (ts ++ us) = markup ts ++ markup us :=
  List.flatMap_append

theorem markup_congr {ts us : List Token} (h : ts.map bare = us.map bare) :
    markup ts = markup us := by
  have hbare : ∀ vs : List Token, markup vs =
      (vs.map bare).flatMap fun p => p.1.write p.2.toList := by
    intro vs
    rw [List.flatMap_map]
    rfl
  rw [hbare, hbare, h]

/-- Words with blanks between them are written as the text they were cut from. -/
theorem markup_phrase (p : List Char) : markup (phrase p) = p := by
  have hwords : ∀ ws : List (List Char),
      markup ((ws.map word).intersperse blank) = [' '].intercalate ws := by
    intro ws
    induction ws with
    | nil => rfl
    | cons w ws ih =>
      cases ws with
      | nil => simp [markup, word, TokenKind.write, List.intercalate]
      | cons v vs =>
        rw [List.map_cons, List.map_cons, List.intersperse_cons_cons, markup_cons, markup_cons]
        rw [List.map_cons] at ih
        rw [ih]
        simp [word, blank, TokenKind.write, List.intercalate]
  rw [phrase, hwords]
  exact List.intercalate_splitOn ' '

/-- Two strings that touch are written as the one string they are read as. -/
theorem markup_glue {t : Token} (hkind : t.kind = .quoted) (us : List Token) :
    markup (glue t us) = t.kind.write t.content.toList ++ markup us := by
  cases us with
  | nil => exact markup_cons t []
  | cons u us =>
    by_cases hu : u.kind = .quoted
    · rw [glue, if_pos hu, markup_cons, markup_cons, hkind, hu]
      simp [TokenKind.write, doubleQuotes_append, doubleQuotes]
    · rw [glue, if_neg hu]
      exact markup_cons t _

/-- Whatever a token is read as, its markup stays. -/
theorem markup_resume (t : Token) (us : List Token) :
    markup (resume t us) = t.kind.write t.content.toList ++ markup us := by
  unfold resume
  split
  · next hkind =>
    rw [markup_append, markup_phrase, hkind]
    rfl
  · next hkind => exact markup_glue hkind us
  · next hkind =>
    split
    · next content hending =>
      rw [dropEnding?_eq_some.mp hending, markup_cons, markup_cons, hkind]
      simp [word, TokenKind.write]
    · exact markup_cons t us
  all_goals exact markup_cons t us

theorem markup_reread (ts : List Token) : markup (reread ts) = markup ts := by
  induction ts with
  | nil => rfl
  | cons t ts ih => rw [reread_cons, markup_resume, markup_cons, ih]

end Token

/-- Rendered tokens, read and rendered again, are the same text. -/
theorem rendering_twice_is_rendering_once (source : String) :
    detokenize (lex (detokenize (lex source))) = detokenize (lex source) := by
  apply String.toList_injective
  rw [toList_detokenize, toList_detokenize]
  calc markup (lex (detokenize (lex source)))
      = markup (reread (lex source)) := markup_congr (map_bare_lex_detokenize source)
    _ = markup (lex source) := markup_reread (lex source)

end CampaignMarkup
