import CampaignMarkup.Proofs.Record.Seams

/-! # Values written and read again

Numbers and booleans are read as what they are written for. Whether a string is quoted is decided by
its quotes, its line feeds, the blanks at its edges and whether it is a number. Other strings stand
as they are, also those that are read as a boolean, as a raw string or as the beginning of one, and
a quoted string loses the carriage returns in front of its line feeds. -/
namespace CampaignMarkup

open Text Chars

namespace Chars

theorem isDigit_of_mem_toDigits {n : Nat} {c : Char} (h : c ∈ Nat.toDigits 10 n) : isDigit c := by
  have hdigit := Nat.isDigit_of_mem_toDigits (by decide) (by decide) h
  rw [Char.isDigit_iff_toNat] at hdigit
  simp only [isDigit, Bool.and_eq_true, decide_eq_true_eq]
  exact hdigit

theorem digits?_toDigits (n : Nat) : digits? (Nat.toDigits 10 n) = some n := by
  have hvalue : digitsValue (Nat.toDigits 10 n) = n :=
    Nat.ofDigitChars_toDigits (by decide) (by decide)
  have hall : (Nat.toDigits 10 n).all isDigit := by
    rw [List.all_eq_true]
    intro c hc
    exact isDigit_of_mem_toDigits hc
  have hne : Nat.toDigits 10 n ≠ [] := Nat.toDigits_ne_nil
  simp [digits?, hvalue, hall, hne]

/-- The numbers of 64 bits. -/
def InRange (n : Int) : Prop :=
  -(integers64 : Int) ≤ n ∧ n < integers64

theorem inRange_of_integer64? {cs : List Char} {n : Int} (h : integer64? cs = some n) :
    InRange n := by
  have hpos : 0 < integers64 := by decide
  unfold integer64? at h
  unfold InRange
  split at h
  · simp only [Option.map_eq_some_iff, Option.bind_eq_bind, Option.bind_eq_some_iff,
      Option.filter_eq_some_iff, decide_eq_true_eq, Option.pure_def, Option.some.injEq] at h
    obtain ⟨_, ⟨m, ⟨-, hm⟩, rfl⟩, rfl⟩ := h
    omega
  · simp only [Option.map_eq_some_iff, Option.bind_eq_bind, Option.bind_eq_some_iff,
      Option.filter_eq_some_iff, decide_eq_true_eq, Option.pure_def, Option.some.injEq] at h
    obtain ⟨_, ⟨m, ⟨-, hm⟩, rfl⟩, rfl⟩ := h
    omega

theorem integer64?_toDigits {m : Nat} (h : m < integers64) :
    integer64? (Nat.toDigits 10 m) = some (m : Int) := by
  have hdigit : ∀ c ∈ Nat.toDigits 10 m, isDigit c := fun c hc => isDigit_of_mem_toDigits hc
  have hplus : dropStart? ['+'] (Nat.toDigits 10 m) = none := by
    rw [Option.eq_none_iff_forall_not_mem]
    intro rest hrest
    have hmem := hdigit '+' (by rw [dropStart?_eq_some.mp hrest]; simp)
    exact absurd hmem (by decide)
  unfold integer64?
  split
  · next rest hrest => exact absurd (hdigit '-' (by rw [hrest]; simp)) (by decide)
  · rw [hplus, Option.getD_none, digits?_toDigits]
    simp [Option.filter, h]

theorem integer64?_toString {n : Int} (h : InRange n) :
    integer64? (toString n).toList = some n := by
  obtain ⟨hlow, hhigh⟩ := h
  rw [Int.toString_eq_repr]
  cases n with
  | ofNat m =>
    change integer64? (Nat.repr m).toList = _
    rw [Nat.toList_repr]
    exact integer64?_toDigits (Int.ofNat_lt.mp hhigh)
  | negSucc m =>
    have hm : m + 1 ≤ integers64 := by omega
    change integer64? ("-" ++ Nat.repr m.succ).toList = _
    rw [String.toList_append, Nat.toList_repr]
    change ((digits? (Nat.toDigits 10 m.succ)).filter (· ≤ integers64)).map
      (fun k => -(k : Int)) = _
    rw [digits?_toDigits, Option.filter_some, if_pos (by simpa using hm)]
    rfl

theorem bounds_of_integer64? {cs : List Char} {n : Int} (h : integer64? cs = some n) :
    ∀ c ∈ cs, 43 ≤ c.toNat ∧ c.toNat ≤ 57 := by
  have hdigits : ∀ {ds : List Char} {m : Nat}, digits? ds = some m →
      ∀ c ∈ ds, 43 ≤ c.toNat ∧ c.toNat ≤ 57 := by
    intro ds m hm c hc
    unfold digits? at hm
    split at hm
    · cases hm
    · next hall =>
      simp only [Bool.or_eq_true, Bool.not_eq_true', not_or, Bool.not_eq_false] at hall
      have hdigit := List.all_eq_true.mp hall.2 c hc
      simp only [isDigit, Bool.and_eq_true, decide_eq_true_eq] at hdigit
      have hlow : 48 ≤ c.toNat := hdigit.1
      exact ⟨by omega, hdigit.2⟩
  unfold integer64? at h
  split at h
  · next rest =>
    simp only [Option.map_eq_some_iff, Option.bind_eq_bind, Option.bind_eq_some_iff,
      Option.filter_eq_some_iff] at h
    obtain ⟨_, ⟨m, ⟨hm, -⟩, -⟩, -⟩ := h
    exact List.forall_mem_cons.mpr ⟨by decide, hdigits hm⟩
  · simp only [Option.map_eq_some_iff, Option.bind_eq_bind, Option.bind_eq_some_iff,
      Option.filter_eq_some_iff] at h
    obtain ⟨_, ⟨m, ⟨hm, -⟩, -⟩, -⟩ := h
    cases hplus : dropStart? ['+'] cs with
    | none =>
      rw [hplus, Option.getD_none] at hm
      exact hdigits hm
    | some rest =>
      rw [hplus, Option.getD_some] at hm
      rw [dropStart?_eq_some.mp hplus]
      exact List.forall_mem_cons.mpr ⟨by decide, hdigits hm⟩

theorem of_trim_eq_self {cs : List Char} (h : trim cs = cs) :
    trimStart cs = cs ∧ trimEnd cs = cs := by
  have hstart : trimStart cs = cs := by
    obtain ⟨blanks, hcut, -, -⟩ := exists_trimEnd (trimStart cs)
    have hlength := congrArg List.length hcut
    rw [List.length_append, show trimEnd (trimStart cs) = cs from h] at hlength
    exact (List.dropWhile_suffix _).eq_of_length_le (by rw [trimStart] at hlength; omega)
  rw [trim, hstart] at h
  exact ⟨hstart, h⟩

theorem keptOf_sublist (cs : List Char) : (keptOf cs).Sublist cs := by
  unfold keptOf
  cases hcut : splitOnce '\n' cs with
  | none => exact List.Sublist.refl cs
  | some cut =>
    obtain ⟨first, rest⟩ := cut
    obtain ⟨rfl, -⟩ := splitOnce_eq_some.mp hcut
    obtain ⟨blanks, hfirst, -, -⟩ := exists_trimEnd first
    have hprefix : (trimEnd first).Sublist first := by
      nth_rewrite 2 [hfirst]
      exact List.sublist_append_left _ _
    exact hprefix.append (List.Sublist.refl _)

/-- Nothing is lost only if nothing is lost on the way. -/
theorem keptOf_unreturned_eq_self_iff {cs : List Char} :
    keptOf (unreturned cs) = cs ↔ ¬ ['\r', '\n'] <:+: cs ∧ keptOf cs = cs := by
  rw [← unreturned_eq_self_iff]
  constructor
  · intro h
    have hkept := (keptOf_sublist (unreturned cs)).length_le
    rw [h] at hkept
    have hself := (unreturned_sublist cs).eq_of_length_le hkept
    rw [hself] at h
    exact ⟨hself, h⟩
  · rintro ⟨hself, hkept⟩
    rw [hself, hkept]

end Chars

namespace AttributeValue

theorem untranslated_of_not_mem {cs : List Char} (h : '"' ∉ cs) : untranslated cs = cs := by
  unfold untranslated
  split
  · next rest =>
    dsimp only
    rw [if_neg]
    intro hhead
    have hmem := (List.dropWhile_suffix isBlank).subset (List.mem_of_head? hhead)
    exact h (List.mem_cons_of_mem _ hmem)
  · rfl

/-- Without quotes a value is a raw string or what it stands for. -/
theorem read_of_not_mem {cs : List Char} (htrim : Chars.trim cs = cs) (hquote : '"' ∉ cs) :
    read (String.ofList cs) =
      match (dropStart? ['<', '<'] cs).bind (dropEnding? ['>', '>']) with
      | some inner => .string (String.ofList inner)
      | none => ofPlain cs := by
  unfold read
  rw [String.toList_ofList, htrim]
  dsimp only
  rw [untranslated_of_not_mem hquote]
  split
  · next c cs => simp at hquote
  · rfl

theorem raw?_eq_some {cs inner : List Char} :
    (dropStart? ['<', '<'] cs).bind (dropEnding? ['>', '>']) = some inner ↔
      cs = '<' :: '<' :: (inner ++ ['>', '>']) := by
  simp only [Option.bind_eq_some_iff, dropStart?_eq_some, dropEnding?_eq_some]
  constructor
  · rintro ⟨_, rfl, rfl⟩
    rfl
  · rintro rfl
    exact ⟨_, rfl, rfl⟩

/-- The words that are read as booleans. -/
def booleanWords : List String := ["yes", "true", "no", "false"]

theorem ofPlain_eq_string_iff {cs : List Char} (h : integer64? cs = none) :
    ofPlain cs = .string (String.ofList cs) ↔ String.ofList cs ∉ booleanWords := by
  unfold ofPlain
  split <;> simp_all [booleanWords]

theorem ofPlain_of_integer64? {cs : List Char} {n : Int} (h : integer64? cs = some n) :
    ofPlain cs = .integer n := by
  have hword : ∀ s ∈ booleanWords, String.ofList cs ≠ s := by
    rintro s hs rfl
    have hnone : ∀ s ∈ booleanWords, integer64? s.toList = none := by decide
    have hcs := hnone _ hs
    rw [String.toList_ofList, h] at hcs
    cases hcs
  simp only [booleanWords, List.forall_mem_cons] at hword
  unfold ofPlain
  split <;> simp_all

theorem inRange_of_read {raw : String} {n : Int} (h : read raw = .integer n) : InRange n := by
  unfold read at h
  dsimp only at h
  split at h
  · cases h
  · split at h
    · cases h
    · unfold ofPlain at h
      split at h
      · cases h
      · cases h
      · cases h
      · cases h
      · split at h
        · next hsome =>
          cases h
          exact inRange_of_integer64? hsome
        · cases h

/-- Without quotes the string does not end in its line. -/
def LeftOpen (s : String) : Prop :=
  needsQuotes s = false ∧ Delimiter.closed s.toList = false

/-- The strings that come back when they are written and read. -/
structure Legible (s : String) : Prop where
  plain : needsQuotes s = false → Delimiter.closed s.toList ∧ s ∉ booleanWords ∧
    ∀ inner, s.toList ≠ '<' :: '<' :: (inner ++ ['>', '>'])
  quoted : needsQuotes s = true → ¬ ['\r', '\n'] <:+: s.toList ∧ keptOf s.toList = s.toList

instance (s : String) : Decidable (Legible s) :=
  decidable_of_iff
    ((needsQuotes s = false → Delimiter.closed s.toList ∧ s ∉ booleanWords ∧
        (dropStart? ['<', '<'] s.toList).bind (dropEnding? ['>', '>']) = none) ∧
      (needsQuotes s = true → ¬ ['\r', '\n'] <:+: s.toList ∧ keptOf s.toList = s.toList)) <| by
    simp only [Option.eq_none_iff_forall_ne_some, ne_eq, raw?_eq_some]
    exact ⟨fun h => ⟨h.1, h.2⟩, fun h => ⟨h.plain, h.quoted⟩⟩

/-- What comes back when a value is written and read, unless it is left open. -/
def reread : AttributeValue → AttributeValue
  | .string s =>
    if needsQuotes s then .string (String.ofList (keptOf (unreturned s.toList))) else read s
  | .integer n => .integer n
  | .boolean b => .boolean b

theorem of_not_needsQuotes {s : String} (h : needsQuotes s = false) :
    '"' ∉ s.toList ∧ '\n' ∉ s.toList ∧ Chars.trim s.toList = s.toList ∧
      integer64? s.toList = none := by
  simp only [needsQuotes, Bool.or_eq_false_iff, List.contains_eq_mem, decide_eq_false_iff_not,
    bne_eq_false_iff_eq, Option.isSome_eq_false_iff, Option.isNone_iff_eq_none] at h
  exact ⟨h.1.1.1, h.1.1.2, h.1.2, h.2⟩

theorem read_eq_string_iff {s : String} (h : needsQuotes s = false) :
    read s = .string s ↔ s ∉ booleanWords ∧
      ∀ inner, s.toList ≠ '<' :: '<' :: (inner ++ ['>', '>']) := by
  obtain ⟨hquote, -, htrim, hinteger⟩ := of_not_needsQuotes h
  have hread := read_of_not_mem htrim hquote
  rw [String.ofList_toList] at hread
  rw [hread]
  cases hraw : (dropStart? ['<', '<'] s.toList).bind (dropEnding? ['>', '>']) with
  | some inner =>
    have hs := raw?_eq_some.mp hraw
    constructor
    · intro heq
      have hinner := congrArg String.toList (string.inj heq)
      have hlength := congrArg List.length hs
      rw [← hinner, String.toList_ofList] at hlength
      simp at hlength
      omega
    · rintro ⟨-, hnot⟩
      exact absurd hs (hnot inner)
  | none =>
    have hplain := ofPlain_eq_string_iff hinteger
    rw [String.ofList_toList] at hplain
    rw [hplain, iff_self_and]
    intro _ inner hs
    rw [raw?_eq_some.mpr hs] at hraw
    cases hraw

/-- A string that is not left open comes back just when it is legible. -/
theorem legible_iff {s : String} :
    Legible s ↔ ¬ LeftOpen s ∧ reread (.string s) = .string s := by
  cases hneeds : needsQuotes s with
  | true =>
    have hself : reread (.string s) = .string s ↔ keptOf (unreturned s.toList) = s.toList := by
      simp only [reread, hneeds, if_true, string.injEq]
      rw [← String.toList_inj, String.toList_ofList]
    rw [hself, keptOf_unreturned_eq_self_iff]
    constructor
    · intro h
      exact ⟨by simp [LeftOpen, hneeds], h.quoted hneeds⟩
    · rintro ⟨-, h⟩
      exact ⟨by simp [hneeds], fun _ => h⟩
  | false =>
    have hreread : reread (.string s) = read s := by simp [reread, hneeds]
    rw [hreread, read_eq_string_iff hneeds]
    constructor
    · intro h
      exact ⟨by simp [LeftOpen, (h.plain hneeds).1], (h.plain hneeds).2⟩
    · rintro ⟨hopen, h⟩
      refine ⟨fun _ => ⟨?_, h⟩, by simp [hneeds]⟩
      simpa [LeftOpen, hneeds] using hopen

end AttributeValue

namespace Pending

theorem statements_eq_follow (p : Pending) (ls : List (List Char)) :
    p.statements ls = (p.follow ls).1 ++ (p.follow ls).2.statements [] := by
  induction ls generalizing p with
  | nil => rfl
  | cons line ls ih => rw [statements, ih, follow, List.append_assoc]

theorem statements_blanks_append {blanks : List Char} (h : ∀ c ∈ blanks, isBlank c)
    (hfeed : '\n' ∉ blanks) (cs : List Char) :
    statements none (lines (blanks ++ cs)) = statements none (lines cs) := by
  rw [statements_eq_follow, follow_blanks_append h hfeed, ← statements_eq_follow]

theorem statements_bracketed (inner : List Char) (hfeed : '\n' ∉ inner) (rest : List Char) :
    statements none (lines ('[' :: (inner ++ [']']) ++ '\n' :: rest)) =
      said none ('[' :: (inner ++ [']'])) ++
        (after none ('[' :: (inner ++ [']']))).statements (lines rest) := by
  rw [statements_ended_line none (by simp [hfeed]), dropEnding_of_not_suffix]
  rw [← List.cons_append, List.singleton_suffix_iff_getLast?_eq_some, List.getLast?_concat]
  decide

theorem statements_opening {tag : String} (h : MarkupLine.IsName tag.toList) (rest : List Char) :
    statements none (lines ('[' :: (tag.toList ++ [']']) ++ '\n' :: rest)) =
      .opening tag :: statements none (lines rest) := by
  rw [statements_bracketed _ (h.not_mem (by decide))]
  simp only [said, after, MarkupLine.read_opening_line h, List.singleton_append]

theorem statements_closing {tag : String} (h : MarkupLine.IsName tag.toList) (rest : List Char) :
    statements none (lines ('[' :: ('/' :: tag.toList ++ [']']) ++ '\n' :: rest)) =
      .closing tag :: statements none (lines rest) := by
  have hfeed := h.not_mem (show MarkupLine.isNameChar '\n' = false by decide)
  rw [statements_bracketed _ (by simp [hfeed])]
  simp only [said, after, MarkupLine.read_closing_line h, List.singleton_append]

/-- A value without blanks at its edges is the rest of its line. -/
theorem statements_begun {key : String} (hkey : MarkupLine.IsName key.toList) {value : List Char}
    (hfeed : '\n' ∉ value) (htrim : Chars.trim value = value) (rest : List Char) :
    statements none (lines (key.toList ++ '=' :: value ++ '\n' :: rest)) =
      Statement.completed key value ++ (unfinished key value).statements (lines rest) := by
  obtain ⟨hstart, hend⟩ := of_trim_eq_self htrim
  rw [statements_key_line hkey hfeed, hend, hstart]

theorem statements_plain {key : String} (hkey : MarkupLine.IsName key.toList) {value : List Char}
    (hfeed : '\n' ∉ value) (htrim : Chars.trim value = value) (hclosed : Delimiter.closed value)
    (rest : List Char) :
    statements none (lines (key.toList ++ '=' :: value ++ '\n' :: rest)) =
      .giving key (AttributeValue.read (String.ofList value)) :: statements none (lines rest) := by
  rw [statements_begun hkey hfeed htrim, Statement.completed, unfinished, if_pos hclosed,
    if_pos hclosed, List.singleton_append]

/-- A number stands in its line as it is, and is read as that number. -/
theorem statements_integer {key : String} (hkey : MarkupLine.IsName key.toList) {n : Int}
    (h : InRange n) (rest : List Char) :
    statements none (lines (key.toList ++ '=' :: (toString n).toList ++ '\n' :: rest)) =
      .giving key (.integer n) :: statements none (lines rest) := by
  have hnumber := integer64?_toString h
  have hbounds := bounds_of_integer64? hnumber
  have hnot : ∀ d : Char, d.toNat < 43 ∨ 57 < d.toNat → d ∉ (toString n).toList := by
    intro d hd hmem
    have := hbounds d hmem
    omega
  have hblank : ∀ c ∈ (toString n).toList, isBlank c = false := by
    intro c hc
    have := hbounds c hc
    simp only [isBlank, Bool.or_eq_false_iff, Bool.and_eq_false_iff, decide_eq_false_iff_not,
      beq_eq_false_iff_ne]
    omega
  have hinert : ∀ c ∈ (toString n).toList, Delimiter.isInert c := by
    intro c hc
    have hne : ∀ d : Char, d.toNat < 43 ∨ 57 < d.toNat → c ≠ d := by
      rintro d hd rfl
      exact hnot c hd hc
    simp [Delimiter.isInert, hne '"' (by decide), hne '<' (by decide), hne '>' (by decide)]
  have htrim : Chars.trim (toString n).toList = (toString n).toList :=
    trim_eq_self (fun c hc => hblank c (List.mem_of_head? hc))
      (fun c hc => hblank c (List.mem_of_getLast? hc))
  have hclosed : Delimiter.closed (toString n).toList := by
    rw [Delimiter.closed, Delimiter.foldl_inert hinert]
    rfl
  have hread : AttributeValue.read (String.ofList (toString n).toList) = .integer n := by
    have hraw : (dropStart? ['<', '<'] (toString n).toList).bind (dropEnding? ['>', '>']) =
        none := by
      rw [Option.eq_none_iff_forall_not_mem]
      intro inner hinner
      apply hnot '<' (by decide)
      rw [AttributeValue.raw?_eq_some.mp hinner]
      exact List.mem_cons_self
    rw [AttributeValue.read_of_not_mem htrim (hnot '"' (by decide)), hraw]
    exact AttributeValue.ofPlain_of_integer64? hnumber
  rw [statements_plain hkey (hnot '\n' (by decide)) htrim hclosed, hread]

/-- An attribute is read as what its value comes back as. -/
theorem statements_attribute {key : String} (hkey : MarkupLine.IsName key.toList)
    {value : AttributeValue} (hopen : ∀ s, value = .string s → ¬ AttributeValue.LeftOpen s)
    (hrange : ∀ n, value = .integer n → InRange n) (rest : List Char) :
    statements none (lines (key.toList ++ '=' :: value.render.toList ++ '\n' :: rest)) =
      .giving key value.reread :: statements none (lines rest) := by
  cases value with
  | string s =>
    cases hneeds : AttributeValue.needsQuotes s with
    | true =>
      have hkeyed := statements_keyed hkey s.toList rest
      simp only [AttributeValue.render, AttributeValue.reread, hneeds, if_true,
        String.toList_ofList]
      simpa using hkeyed
    | false =>
      obtain ⟨-, hfeed, htrim, -⟩ := AttributeValue.of_not_needsQuotes hneeds
      have hclosed : Delimiter.closed s.toList := by
        have hnot := hopen s rfl
        simpa [AttributeValue.LeftOpen, hneeds] using hnot
      have hplain := statements_plain hkey hfeed htrim hclosed rest
      rw [String.ofList_toList] at hplain
      simpa [AttributeValue.render, AttributeValue.reread, hneeds] using hplain
  | integer n => exact statements_integer hkey (hrange n rfl) rest
  | boolean b =>
    cases b with
    | true => exact @statements_plain key hkey "yes".toList (by decide) (by decide) (by decide) rest
    | false => exact @statements_plain key hkey "no".toList (by decide) (by decide) (by decide) rest

end Pending

end CampaignMarkup
