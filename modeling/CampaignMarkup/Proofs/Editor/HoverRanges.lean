import CampaignMarkup.Editor.Server
import CampaignMarkup.Proofs.Editor.WordSpans

/-! # The range of a hover

An editor cuts a line by its UTF-16 code units. Between the two columns that it is sent with a hover
stand the units of the word that was looked up. Carriage returns at the end of a line are no matter
here: the columns are counted in the line without them, and no word reaches into them. -/
namespace CampaignMarkup

namespace Utf16

/-! ## Code units -/

/-- The code units of a character: one, or a pair of surrogates. -/
def encodeChar (c : Char) : List Nat :=
  if c.toNat < 0x10000 then [c.toNat]
  else [0xD800 + (c.toNat - 0x10000) / 0x400, 0xDC00 + (c.toNat - 0x10000) % 0x400]

def encode (cs : List Char) : List Nat :=
  cs.flatMap encodeChar

variable {cs ds before after : List Char} {c : Char}

theorem encode_cons (c : Char) (cs : List Char) : encode (c :: cs) = encodeChar c ++ encode cs :=
  List.flatMap_cons

theorem encode_append (cs ds : List Char) : encode (cs ++ ds) = encode cs ++ encode ds :=
  List.flatMap_append

theorem length_encodeChar (c : Char) : (encodeChar c).length = width c := by
  rw [encodeChar, width]
  split <;> rfl

theorem length_encode (cs : List Char) : (encode cs).length = length cs := by
  induction cs with
  | nil => rfl
  | cons c cs ih => rw [encode_cons, List.length_append, length_encodeChar, ih, length]

theorem width_pos (c : Char) : 0 < width c := by
  unfold width
  split <;> omega

/-- No character is half of a pair. -/
theorem not_surrogate (c : Char) : c.toNat < 0xD800 ∨ 0xE000 ≤ c.toNat ∧ c.toNat < 0x110000 := by
  rcases c.valid with h | ⟨h, h'⟩
  · exact .inl h
  · exact .inr ⟨h, h'⟩

/-- The first character can be told from the units. -/
theorem encode_cons_inj {d : Char} (h : encode (c :: cs) = encode (d :: ds)) :
    c = d ∧ encode cs = encode ds := by
  have hc := not_surrogate c
  have hd := not_surrogate d
  rw [encode_cons, encode_cons, encodeChar, encodeChar] at h
  split at h <;> split at h
  · obtain ⟨hunit, hrest⟩ := List.cons.inj h
    exact ⟨Char.toNat_inj.mp hunit, hrest⟩
  · have hunit := (List.cons.inj h).1
    omega
  · have hunit := (List.cons.inj h).1
    omega
  · obtain ⟨hhigh, hrest⟩ := List.cons.inj h
    obtain ⟨hlow, hrest⟩ := List.cons.inj hrest
    refine ⟨Char.toNat_inj.mp ?_, hrest⟩
    omega

theorem encode_injective : Function.Injective encode := by
  intro cs ds h
  induction cs generalizing ds with
  | nil =>
    cases ds with
    | nil => rfl
    | cons d ds =>
      have hlength := congrArg List.length h
      rw [length_encode, length_encode, length, length] at hlength
      have := width_pos d
      omega
  | cons c cs ih =>
    cases ds with
    | nil =>
      have hlength := congrArg List.length h
      rw [length_encode, length_encode, length, length] at hlength
      have := width_pos c
      omega
    | cons d ds =>
      obtain ⟨rfl, hrest⟩ := encode_cons_inj h
      rw [ih hrest]

/-! ## Columns -/

theorem units_append (cs ds : List Char) : units cs.length (cs ++ ds) = (encode cs).length := by
  rw [units, List.take_left, length_encode]

theorem column_cons {units : Nat} (h : 0 < units) (c : Char) (cs : List Char) :
    column units (c :: cs) = column (units - width c) cs + 1 := by
  rw [column]
  rintro rfl
  exact absurd h (Nat.lt_irrefl 0)

/-- There and back again, up to the end of the line. -/
theorem column_units (n : Nat) (cs : List Char) : column (units n cs) cs = min n cs.length := by
  induction cs generalizing n with
  | nil => simp [units, length, column]
  | cons c cs ih =>
    cases n with
    | zero => simp [units, length, column]
    | succ n =>
      have hpos := width_pos c
      have hunits : units (n + 1) (c :: cs) = width c + units n cs := by
        rw [units, List.take_succ_cons, length]
        rfl
      rw [hunits, column_cons (by omega), Nat.add_sub_cancel_left, ih, List.length_cons]
      omega

/-- A count within a pair gives the column behind it. -/
theorem column_within (before after : List Char) (h : width c = 2) :
    column ((encode before).length + 1) (before ++ c :: after) = before.length + 1 := by
  induction before with
  | nil =>
    change column (1 - width c) after + 1 = 1
    rw [h]
    cases after <;> rfl
  | cons b before ih =>
    have hpos := width_pos b
    have hleft : (encode (b :: before)).length + 1 - width b = (encode before).length + 1 := by
      rw [encode_cons, List.length_append, length_encodeChar]
      omega
    rw [List.cons_append, column_cons (Nat.succ_pos _), hleft, ih, List.length_cons]

theorem toPosition_ofPosition (source : String) (p : Position) :
    toPosition source (ofPosition source p) =
      ⟨p.line, min p.column (lineText source p.line).length⟩ := by
  rw [toPosition, ofPosition, column_units]

/-! ## Lines -/

/-- Carriage returns are cut off at the end only. -/
theorem lineText_append {source : String} {line : Nat} {front rest : List Char} {last : Char}
    (h : Text.lineAt? source line = some (front ++ last :: rest)) (hlast : last ≠ '\r') :
    ∃ rest', lineText source line = front ++ last :: rest' := by
  refine ⟨(rest.reverse.dropWhile (· = '\r')).reverse, ?_⟩
  rw [lineText, h, Option.getD_some]
  have hreverse : (front ++ last :: rest).reverse = rest.reverse ++ last :: front.reverse := by simp
  rw [hreverse, List.dropWhile_append]
  split
  · next hreturns =>
    rw [List.isEmpty_iff.mp hreturns, List.dropWhile_cons_of_neg (by simpa using hlast)]
    simp
  · simp

/-- A word of the line has the columns of its code units. -/
theorem units_of_spans {source : String} {line : Nat} {text : List Char} {w : Word}
    (htext : Text.lineAt? source line = some text) (hspans : w.Spans text before after) :
    units w.start (lineText source line) = (encode before).length ∧
      units w.stop (lineText source line) = (encode (before ++ w.text.toList)).length := by
  obtain ⟨front, last, hword⟩ := List.eq_nil_or_concat w.text.toList |>.resolve_left hspans.nonempty
  have hlast : last ≠ '\r' := by
    rintro rfl
    have hchar := hspans.isWordChar '\r' (by simp [hword])
    exact absurd hchar (by decide)
  have hline : text = (before ++ front) ++ last :: after := by
    rw [hspans.line_eq, hword]
    simp
  rw [hline] at htext
  obtain ⟨rest, hrest⟩ := lineText_append htext hlast
  have hcut : lineText source line = before ++ (w.text.toList ++ rest) := by
    rw [hrest, hword]
    simp
  rw [hspans.start_eq, hspans.stop_eq, hcut, units_append, ← List.append_assoc,
    ← List.length_append, units_append]
  exact ⟨rfl, rfl⟩

/-- What an editor cuts out of a line between two columns. -/
def cut (start stop : Nat) (line : List Char) : List Nat :=
  ((encode line).take stop).drop start

theorem cut_append (before piece after : List Char) :
    cut (encode before).length (encode (before ++ piece)).length (before ++ (piece ++ after)) =
      encode piece := by
  rw [cut, ← List.append_assoc, encode_append (before ++ piece), List.take_left, encode_append,
    List.drop_left]

end Utf16

/-- The range of a word: the units before it, and those up to its end. -/
theorem Word.Spans.range_eq {source : String} {line before after : List Char} {w : Word}
    (h : w.Spans line before after) (hline : Text.lineAt? source w.line = some line)
    (hlow : w.line < UInt32.size)
    (hnarrow : (Utf16.ofPosition source ⟨w.line, w.stop⟩).column < UInt32.size) :
    w.range source =
      ⟨⟨w.line, (Utf16.encode before).length⟩,
        ⟨w.line, (Utf16.encode (before ++ w.text.toList)).length⟩⟩ := by
  obtain ⟨hstart, hstop⟩ := Utf16.units_of_spans hline h
  have hfits : (Utf16.encode (before ++ w.text.toList)).length < UInt32.size := by
    rw [← hstop]
    exact hnarrow
  have hshort : (Utf16.encode before).length < UInt32.size := by
    rw [Utf16.encode_append, List.length_append] at hfits
    omega
  simp only [Word.range, TextRange.inLine, Utf16.ofPosition, hstart, hstop]
  rw [Nat.mod_eq_of_lt hlow, Nat.mod_eq_of_lt hshort, Nat.mod_eq_of_lt hfits]

/-- A hover tells of the macro that the word under the cursor names, in the range of that word. -/
theorem Server.hover?_eq_some {s : Server} {tree : FileTree} {uri : Uri} {p : Position}
    {hover : Hover} {range : TextRange} (h : s.hover? tree uri p = some (hover, range)) :
    ∃ macros text definition, s.macros = some macros ∧ s.documentText? tree uri = some text ∧
      Word.at? text (Utf16.toPosition text p) = some hover.word ∧
      macros.lookup hover.word.text = some definition ∧ hover.contents = definition.help ∧
      range = hover.word.range text := by
  obtain ⟨macros, hmacros, h⟩ := Option.bind_eq_some_iff.mp h
  obtain ⟨text, htext, h⟩ := Option.bind_eq_some_iff.mp h
  obtain ⟨found, hfound, h⟩ := Option.bind_eq_some_iff.mp h
  obtain ⟨⟨word, definition⟩, hunder, rfl⟩ := Option.map_eq_some_iff.mp hfound
  obtain ⟨word, hword, hlookup⟩ := Option.bind_eq_some_iff.mp hunder
  obtain ⟨definition, hlookup, heq⟩ := Option.map_eq_some_iff.mp hlookup
  cases heq
  cases h
  exact ⟨macros, text, definition, hmacros, htext, hword, hlookup, rfl, rfl⟩

/-- Where a hover answers and its numbers have room in 32 bits, its range is in the line that was
asked for, and what an editor cuts out of that line are the code units of the word that was looked
up and of no other. A column that is counted in units and counted back in characters is the same
again, and a count within a pair of surrogates gives the column behind the pair. -/
theorem hover_range_is_that_of_word :
    (∀ (s : Server) (tree : FileTree) (uri : Uri) (p : Position) (hover : Hover)
        (range : TextRange),
      s.hover? tree uri p = some (hover, range) →
      ∃ macros text definition line, s.macros = some macros ∧
        s.documentText? tree uri = some text ∧
        Word.at? text (Utf16.toPosition text p) = some hover.word ∧
        macros.lookup hover.word.text = some definition ∧ hover.contents = definition.help ∧
        Text.lineAt? text p.line = some line ∧
        (p.line < UInt32.size →
          (Utf16.ofPosition text ⟨p.line, hover.word.stop⟩).column < UInt32.size →
          range.start.line = p.line ∧ range.stop.line = p.line ∧
          range.start.column < range.stop.column ∧
          range.stop.column ≤ (Utf16.encode line).length ∧
          ∀ word, Utf16.encode word = Utf16.cut range.start.column range.stop.column line ↔
            word = hover.word.text.toList)) ∧
    (∀ (source : String) (line column : Nat), column ≤ (Utf16.lineText source line).length →
      Utf16.toPosition source (Utf16.ofPosition source ⟨line, column⟩) = ⟨line, column⟩) ∧
    ∀ (source : String) (line : Nat) (before : List Char) (c : Char) (after : List Char),
      Utf16.lineText source line = before ++ c :: after → (Utf16.encodeChar c).length = 2 →
      Utf16.toPosition source ⟨line, (Utf16.encode before).length + 1⟩ =
        ⟨line, before.length + 1⟩ := by
  refine ⟨?_, ?_, ?_⟩
  · intro s tree uri p hover range h
    obtain ⟨macros, text, definition, hmacros, htext, hword, hlookup, hhelp, rfl⟩ :=
      Server.hover?_eq_some h
    obtain ⟨hat, line, before, after, hline, hspans⟩ := Word.exists_spans hword
    have hat : hover.word.line = p.line := hat
    have hline : Text.lineAt? text hover.word.line = some line := by
      rw [hat]
      exact hline
    refine ⟨macros, text, definition, line, hmacros, htext, hword, hlookup, hhelp, hat ▸ hline, ?_⟩
    rw [← hat]
    intro hlow hnarrow
    have hpiece : 0 < (Utf16.encode hover.word.text.toList).length := by
      obtain ⟨c, cs, hcs⟩ := List.exists_cons_of_ne_nil hspans.nonempty
      have hpos := Utf16.width_pos c
      rw [hcs, Utf16.encode_cons, List.length_append, Utf16.length_encodeChar]
      omega
    rw [hspans.range_eq hline hlow hnarrow, hspans.line_eq]
    refine ⟨rfl, rfl, ?_, ?_, fun word => ?_⟩
    · rw [Utf16.encode_append, List.length_append]
      exact Nat.lt_add_of_pos_right hpiece
    · rw [← List.append_assoc, Utf16.encode_append _ after, List.length_append]
      exact Nat.le_add_right _ _
    · rw [Utf16.cut_append]
      exact Utf16.encode_injective.eq_iff
  · intro source line column hcolumn
    rw [Utf16.toPosition_ofPosition, Nat.min_eq_left hcolumn]
  · intro source line before c after hline hpair
    rw [Utf16.length_encodeChar] at hpair
    rw [Utf16.toPosition, hline, Utf16.column_within before after hpair]

/-- A macro behind a character of two units, in a line that ends in two carriage returns. -/
theorem hover_behind_surrogates :
    let text := "name=\"😀\" \x7bGREET x\x7d\r\r\nend"
    let uri : Uri := ⟨"file", none, "/a.cfg", none, none⟩
    let greet : Definition := ⟨"GREET", "", ["who"], [], none, none, {}⟩
    let s : Server :=
      { documents := [(uri, text)], macros := some (MacroTable.empty.define greet) }
    let line := "name=\"😀\" \x7bGREET x\x7d\r\r".toList
    s.hover? (FileTree.empty ["w"]) uri ⟨0, 12⟩ =
        some (⟨⟨"GREET", 0, 10, 15⟩, "**GREET[who]**"⟩, ⟨⟨0, 11⟩, ⟨0, 16⟩⟩) ∧
      (Utf16.ofPosition text ⟨0, 15⟩).column < UInt32.size ∧ Text.lineAt? text 0 = some line ∧
      (∀ word, Utf16.encode word = Utf16.cut 11 16 line ↔ word = "GREET".toList) ∧
      7 ≤ (Utf16.lineText text 0).length ∧
      Utf16.toPosition text (Utf16.ofPosition text ⟨0, 7⟩) = ⟨0, 7⟩ ∧
      Utf16.lineText text 0 = "name=\"".toList ++ '😀' :: "\" \x7bGREET x\x7d".toList ∧
      (Utf16.encodeChar '😀').length = 2 ∧
      Utf16.toPosition text ⟨0, (Utf16.encode "name=\"".toList).length + 1⟩ = ⟨0, 7⟩ := by
  intro text uri greet s line
  have hlookup : (MacroTable.empty.define greet).lookup "GREET" = some greet := by
    simp [MacroTable.lookup, MacroTable.define, MacroTable.empty, MacroTable.rowAt?, greet]
  have hword : Word.at? text (Utf16.toPosition text ⟨0, 12⟩) = some ⟨"GREET", 0, 10, 15⟩ := by
    decide +kernel
  have hrange : (Word.mk "GREET" 0 10 15).range text = ⟨⟨0, 11⟩, ⟨0, 16⟩⟩ := by decide +kernel
  have hhelp : greet.help = "**GREET[who]**" := by decide +kernel
  have hdocument : s.documentText? (FileTree.empty ["w"]) uri = some text := by
    simp [Server.documentText?, s, Assoc.get?]
  have hhover : s.hover? (FileTree.empty ["w"]) uri ⟨0, 12⟩ =
      some (⟨⟨"GREET", 0, 10, 15⟩, "**GREET[who]**"⟩, ⟨⟨0, 11⟩, ⟨0, 16⟩⟩) := by
    simp [Server.hover?, s, hdocument, MacroTable.hover?, MacroTable.under?, hword, hlookup,
      hrange, hhelp]
  have hline : Text.lineAt? text 0 = some line := by decide +kernel
  have hnarrow : (Utf16.ofPosition text ⟨0, 15⟩).column < UInt32.size := by decide +kernel
  have hlong : 7 ≤ (Utf16.lineText text 0).length := by decide +kernel
  have hsplit : Utf16.lineText text 0 =
      "name=\"".toList ++ '😀' :: "\" \x7bGREET x\x7d".toList := by
    decide +kernel
  have hpair : (Utf16.encodeChar '😀').length = 2 := by decide
  obtain ⟨hcut, hback, hwithin⟩ := hover_range_is_that_of_word
  obtain ⟨_, text', _, line', -, hdocument', -, -, -, hline', hfits⟩ :=
    hcut s (FileTree.empty ["w"]) uri ⟨0, 12⟩ _ _ hhover
  obtain rfl : text = text' := Option.some.inj (hdocument.symm.trans hdocument')
  obtain rfl : line = line' := Option.some.inj (hline.symm.trans hline')
  obtain ⟨-, -, -, -, hunits⟩ := hfits (by decide) hnarrow
  exact ⟨hhover, hnarrow, hline, hunits, hlong, hback text 0 7 hlong, hsplit, hpair,
    hwithin text 0 _ _ _ hsplit hpair⟩

end CampaignMarkup
