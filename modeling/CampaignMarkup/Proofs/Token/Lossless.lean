import CampaignMarkup.Proofs.Token.Joins
import CampaignMarkup.Proofs.Token.Patterns
import CampaignMarkup.Proofs.Token.Written

/-! # Nothing is lost

The spans of every stage tile the source, and the tokens written back are the source again, save for
the delimiter that an unclosed form at the end lacks. -/
namespace CampaignMarkup

open Chars

namespace Chars

@[simp] theorem byteSize_nil : byteSize [] = 0 := rfl

@[simp] theorem byteSize_cons (c : Char) (cs : List Char) :
    byteSize (c :: cs) = c.utf8Size + byteSize cs := rfl

@[simp] theorem byteSize_append (cs ds : List Char) :
    byteSize (cs ++ ds) = byteSize cs + byteSize ds := by
  induction cs with
  | nil => simp
  | cons c cs ih => simp [ih, Nat.add_assoc]

theorem byteSize_pos {cs : List Char} (h : cs ≠ []) : 0 < byteSize cs := by
  obtain ⟨c, cs, rfl⟩ := List.exists_cons_of_ne_nil h
  have := c.utf8Size_pos
  simp only [byteSize_cons]
  omega

theorem utf8ByteSize_ofList (cs : List Char) : (String.ofList cs).utf8ByteSize = byteSize cs := by
  induction cs with
  | nil => rfl
  | cons c cs ih =>
    rw [String.ofList_cons, String.utf8ByteSize_append, String.utf8ByteSize_singleton, ih]
    rfl

theorem utf8ByteSize_eq (source : String) : source.utf8ByteSize = byteSize source.toList := by
  rw [← utf8ByteSize_ofList, String.ofList_toList]

theorem dropBytes_append (cs ds : List Char) : dropBytes (byteSize cs) (cs ++ ds) = ds := by
  induction cs with
  | nil => simp [dropBytes]
  | cons c cs ih =>
    obtain ⟨n, hn⟩ := Nat.exists_eq_succ_of_ne_zero c.utf8Size_pos.ne'
    have hsize : byteSize (c :: cs) = (n + byteSize cs) + 1 := by
      rw [byteSize_cons]
      omega
    have hleft : n + byteSize cs + 1 - c.utf8Size = byteSize cs := by omega
    rw [hsize, List.cons_append, dropBytes, hleft, ih]

theorem takeBytes_append (cs ds : List Char) : takeBytes (byteSize cs) (cs ++ ds) = cs := by
  induction cs with
  | nil => simp [takeBytes]
  | cons c cs ih =>
    obtain ⟨n, hn⟩ := Nat.exists_eq_succ_of_ne_zero c.utf8Size_pos.ne'
    have hsize : byteSize (c :: cs) = (n + byteSize cs) + 1 := by
      rw [byteSize_cons]
      omega
    have hleft : n + byteSize cs + 1 - c.utf8Size = byteSize cs := by omega
    rw [hsize, List.cons_append, takeBytes, hleft, ih]

theorem cut_append (before piece after : List Char) :
    cut (byteSize before) (byteSize before + byteSize piece) (before ++ (piece ++ after)) =
      piece := by
  rw [cut, dropBytes_append, Nat.add_sub_cancel_left, takeBytes_append]

end Chars

/-- The offset lies between two characters of the text, or at one of its ends. -/
def Boundary (source : String) (offset : Nat) : Prop :=
  String.Pos.Raw.IsValid source ⟨offset⟩

/-- The spans follow one another through the whole text. -/
structure Covers (source : String) (spans : List Span) : Prop where
  nonempty : ∀ s ∈ spans, s.start < s.stop
  start_boundary : ∀ s ∈ spans, Boundary source s.start
  stop_boundary : ∀ s ∈ spans, Boundary source s.stop
  contiguous : spans.IsChain fun s t => s.stop = t.start
  first : ∀ s ∈ spans.head?, s.start = 0
  last : ∀ s ∈ spans.getLast?, s.stop = source.utf8ByteSize
  empty : spans = [] ↔ source = ""

/-- The spans of stretches of characters that make up the text from `offset` on. -/
inductive Tiles : Nat → List Char → List Span → Prop where
  | nil {offset} : Tiles offset [] []
  | cons {offset piece rest spans} : piece ≠ [] → Tiles (offset + byteSize piece) rest spans →
      Tiles offset (piece ++ rest) (⟨offset, offset + byteSize piece⟩ :: spans)

namespace Tiles

variable {offset : Nat} {text : List Char} {spans : List Span}

theorem eq_nil_iff (h : Tiles offset text spans) : spans = [] ↔ text = [] := by
  cases h with
  | nil => simp
  | cons hne _ => simp [hne]

theorem start_eq (h : Tiles offset text spans) :
    ∀ s ∈ spans.head?, s.start = offset := by
  cases h with
  | nil => simp
  | cons => simp

theorem stop_eq (h : Tiles offset text spans) :
    ∀ s ∈ spans.getLast?, s.stop = offset + byteSize text := by
  induction h with
  | nil => simp
  | @cons offset piece rest spans _ hrest ih =>
    intro s hs
    cases spans with
    | nil =>
      have hrest : rest = [] := hrest.eq_nil_iff.mp rfl
      simp only [List.getLast?_singleton, Option.mem_def, Option.some.injEq] at hs
      rw [← hs, hrest, List.append_nil]
    | cons t spans =>
      rw [List.getLast?_cons_cons] at hs
      rw [ih s hs, byteSize_append, Nat.add_assoc]

theorem contiguous (h : Tiles offset text spans) :
    spans.IsChain fun s t => s.stop = t.start := by
  induction h with
  | nil => exact .nil
  | cons _ hrest ih =>
    refine List.isChain_cons.mpr ⟨fun t ht => ?_, ih⟩
    exact (hrest.start_eq t ht).symm

theorem nonempty (h : Tiles offset text spans) :
    ∀ s ∈ spans, s.start < s.stop := by
  induction h with
  | nil => simp
  | cons hne _ ih =>
    intro s hs
    rcases List.mem_cons.mp hs with rfl | hs
    · exact Nat.lt_add_of_pos_right (byteSize_pos hne)
    · exact ih s hs

theorem boundaries (before : List Char) (h : Tiles offset text spans)
    (hoffset : offset = byteSize before) :
    ∀ s ∈ spans, Boundary (String.ofList (before ++ text)) s.start ∧
      Boundary (String.ofList (before ++ text)) s.stop := by
  induction h generalizing before with
  | nil => simp
  | @cons offset piece rest spans _ _ ih =>
    have hboundary : ∀ cs ds : List Char, Boundary (String.ofList (cs ++ ds)) (byteSize cs) := by
      intro cs ds
      refine String.Pos.Raw.isValid_iff_exists_append.mpr
        ⟨String.ofList cs, String.ofList ds, String.ofList_append, ?_⟩
      rw [String.Pos.Raw.ext_iff, String.byteIdx_rawEndPos, utf8ByteSize_ofList]
    have hstop : offset + byteSize piece = byteSize (before ++ piece) := by
      rw [byteSize_append, hoffset]
    intro s hs
    rcases List.mem_cons.mp hs with rfl | hs
    · refine ⟨hoffset ▸ hboundary before _, ?_⟩
      rw [← List.append_assoc]
      exact hstop ▸ hboundary (before ++ piece) rest
    · rw [← List.append_assoc]
      exact ih _ hstop s hs

theorem covers {source : String} (h : Tiles 0 source.toList spans) :
    Covers source spans := by
  have hboundaries := h.boundaries [] rfl
  rw [List.nil_append, String.ofList_toList] at hboundaries
  refine ⟨h.nonempty, fun s hs => (hboundaries s hs).1, fun s hs => (hboundaries s hs).2,
    h.contiguous, h.start_eq, fun s hs => ?_, ?_⟩
  · rw [h.stop_eq s hs, utf8ByteSize_eq, Nat.zero_add]
  · rw [h.eq_nil_iff, String.toList_eq_nil_iff]

theorem cons_inv {s : Span} (h : Tiles offset text (s :: spans)) :
    ∃ piece rest, piece ≠ [] ∧ text = piece ++ rest ∧
      s = ⟨offset, offset + byteSize piece⟩ ∧ Tiles (offset + byteSize piece) rest spans := by
  cases h with
  | cons hne hrest => exact ⟨_, _, hne, rfl, rfl, hrest⟩

theorem join_two {s t : Span} (h : Tiles offset text (s :: t :: spans)) :
    Tiles offset text (⟨s.start, t.stop⟩ :: spans) := by
  obtain ⟨piece, rest, hne, rfl, rfl, hrest⟩ := h.cons_inv
  obtain ⟨piece', rest', -, rfl, rfl, hrest'⟩ := hrest.cons_inv
  rw [Nat.add_assoc, ← byteSize_append] at hrest'
  rw [← List.append_assoc, Nat.add_assoc, ← byteSize_append]
  exact .cons (by simp [hne]) hrest'

/-- The spans from the first to any later one can become a single span. -/
theorem join {first last : Span} {between : List Span}
    (h : Tiles offset text (first :: (between ++ last :: spans))) :
    Tiles offset text (⟨first.start, last.stop⟩ :: spans) := by
  induction between generalizing first with
  | nil => exact h.join_two
  | cons second between ih => exact @ih ⟨first.start, second.stop⟩ h.join_two

end Tiles

namespace Token

theorem tiles_extend {offset : Nat} {text : List Char} (chain : Token) (last : TokenKind)
    (ts : List Token) (h : Tiles offset text ((chain :: ts).map span)) :
    Tiles offset text (((extend chain last ts).1 :: (extend chain last ts).2).map span) := by
  fun_induction extend chain last ts with
  | case1 chain last ts operand rest hnext _ ih =>
    obtain ⟨gap, plus, spacing, -, rfl⟩ := exists_bridge hnext
    have hspans : Tiles offset text (chain.span :: ((gap ++ plus :: spacing).map span ++
        operand.span :: rest.map span)) := by simpa using h
    exact ih hspans.join
  | case2 => exact h

end Token

/-- Joining operands joins their spans with all that lies between. -/
theorem tiles_merge {offset : Nat} {text : List Char} {ts : List Token}
    (h : Tiles offset text (ts.map Token.span)) :
    Tiles offset text ((mergeConcatenations ts).map Token.span) := by
  induction hn : ts.length using Nat.strong_induction_on generalizing offset text ts with
  | _ n ih =>
    -- what a chain leaves is tiled from the end of the chain on
    have hcons : ∀ (t : Token) (rest : List Token), rest.length < n →
        Tiles offset text ((t :: rest).map Token.span) →
        Tiles offset text ((t :: mergeConcatenations rest).map Token.span) := by
      intro t rest hlen ht
      obtain ⟨piece, after, hne, rfl, hspan, hafter⟩ := Tiles.cons_inv ht
      rw [List.map_cons, hspan]
      exact .cons hne (ih _ hlen hafter rfl)
    cases ts with
    | nil =>
      rw [mergeConcatenations]
      exact h
    | cons t ts =>
      rw [List.length_cons] at hn
      cases hop : t.isOperand with
      | true =>
        have hle := Token.extend_length_le t t.kind ts
        rw [merge_operand hop]
        exact hcons _ _ (by omega) (Token.tiles_extend t t.kind ts h)
      | false =>
        rw [merge_other hop]
        exact hcons t ts (by omega) h

namespace Lexeme

theorem tiles_ofLexemes {xs : List Lexeme} (h : ∀ x ∈ xs, x.chars ≠ []) (offset : Nat) :
    Tiles offset (xs.flatMap chars) ((Token.ofLexemes offset xs).map Token.span) := by
  induction xs generalizing offset with
  | nil => exact .nil
  | cons x xs ih =>
    obtain ⟨hx, hxs⟩ := List.forall_mem_cons.mp h
    exact .cons hx (ih hxs _)

theorem map_place (offset : Nat) (xs : List Lexeme) :
    (place offset xs).map (fun (_, start, stop) => Span.mk start stop) =
      (Token.ofLexemes offset xs).map Token.span := by
  induction xs generalizing offset with
  | nil => rfl
  | cons x xs ih => rw [place, Token.ofLexemes, List.map_cons, List.map_cons, ih]; rfl

theorem flatMap_scan (text : List Char) : (scan text).flatMap chars = text := by
  induction text using scan_induction with
  | nil => rw [scan_nil]; rfl
  | cut x rest h ih => rw [h.scan_eq, List.flatMap_cons, ih]

theorem ne_nil_of_mem_scan (text : List Char) : ∀ x ∈ scan text, x.chars ≠ [] := by
  induction text using scan_induction with
  | nil => simp
  | cut x rest h ih => rw [h.scan_eq]; exact List.forall_mem_cons.mpr ⟨h.ne_nil, ih⟩

theorem Pieces.flatMap_chars {text : List Char} {xs : List Lexeme} (h : Pieces text xs) :
    xs.flatMap chars = text := by
  induction h with
  | nil => rfl
  | cons _ _ ih => rw [List.flatMap_cons, ih]

theorem Pieces.exists_pieceBefore {text : List Char} {xs : List Lexeme} (h : Pieces text xs) :
    ∀ x ∈ xs, ∃ rest, x.PieceBefore rest := by
  induction h with
  | nil => simp
  | cons hx _ ih => exact List.forall_mem_cons.mpr ⟨⟨_, hx⟩, ih⟩

/-- Two texts that touch would have been one piece. -/
theorem Pieces.texts_apart {text : List Char} {xs : List Lexeme} (h : Pieces text xs) :
    xs.IsChain fun x y => ¬ (x.shape.kind = .text ∧ y.shape.kind = .text) := by
  induction h with
  | nil => exact .nil
  | @cons x rest xs hx hrest ih =>
    refine List.isChain_cons.mpr ⟨?_, ih⟩
    rintro y hy ⟨hxt, hyt⟩
    cases hx with
    | form _ hform => simp [isText, hxt] at hform
    | word _ hword =>
      rw [hrest.firstKind_eq, Option.mem_def.mp hy] at hword
      exact hword (congrArg some hyt)

/-- What the pieces of a text are written as: the text, and behind it what the last one lacks. -/
theorem Pieces.flatMap_write {text : List Char} {xs : List Lexeme} (h : Pieces text xs) :
    xs.flatMap (fun x => x.shape.kind.write x.content) =
      text ++ (xs.getLast?.map fun x => x.shape.kind.missing x.chars).getD [] := by
  induction h with
  | nil => rfl
  | @cons x rest xs hx hrest ih =>
    rw [List.flatMap_cons, ih, hx.write_content]
    cases xs with
    | nil => simp [hrest.eq_nil]
    | cons y ys =>
      have hne : rest ≠ [] := by
        rintro rfl
        have hnil := hrest.eq_fuse
        rw [scan_nil] at hnil
        cases hnil
      rw [hx.missing_eq_nil hne, List.getLast?_cons_cons]
      simp

end Lexeme

namespace Token

/-- The bytes of the source that the token was read from. -/
def slice (source : String) (t : Token) : List Char :=
  cut t.span.start t.span.stop source.toList

theorem map_ofLexemes (before : List Char) (xs : List Lexeme) :
    (ofLexemes (byteSize before) xs).map (fun t =>
        (t.kind, t.content, t.slice (String.ofList (before ++ xs.flatMap Lexeme.chars)))) =
      xs.map fun x => (x.shape.kind, String.ofList x.content, x.chars) := by
  induction xs generalizing before with
  | nil => rfl
  | cons x xs ih =>
    have hnext := ih (before ++ x.chars)
    rw [byteSize_append, List.append_assoc] at hnext
    have hslice : (ofLexeme x (byteSize before) (byteSize before + x.byteSize)).slice
        (String.ofList (before ++ (x.chars ++ xs.flatMap Lexeme.chars))) = x.chars := by
      rw [slice, String.toList_ofList]
      exact cut_append before x.chars _
    rw [ofLexemes, List.map_cons, List.map_cons, List.flatMap_cons, hslice]
    exact congrArg _ hnext

end Token

theorem map_tokenize (source : String) :
    (tokenize source).map (fun t => (t.kind, t.content, t.slice source)) =
      (Lexeme.fuse (Lexeme.scan source.toList)).map
        fun x => (x.shape.kind, String.ofList x.content, x.chars) := by
  have h := Token.map_ofLexemes [] (Lexeme.fuse (Lexeme.scan source.toList))
  rw [(Lexeme.pieces_fuse_scan _).flatMap_chars, List.nil_append, String.ofList_toList] at h
  exact h

/-- The spans that the scanner gives the lexemes. -/
def baseSpans (source : String) : List Span :=
  (Lexeme.place 0 (Lexeme.scan source.toList)).map fun (_, start, stop) => ⟨start, stop⟩

theorem tiles_baseSpans (source : String) : Tiles 0 source.toList (baseSpans source) := by
  have h := Lexeme.tiles_ofLexemes (Lexeme.ne_nil_of_mem_scan source.toList) 0
  rw [Lexeme.flatMap_scan, ← Lexeme.map_place] at h
  exact h

theorem tiles_tokenize (source : String) :
    Tiles 0 source.toList ((tokenize source).map Token.span) := by
  have hpieces := Lexeme.pieces_fuse_scan source.toList
  have hne : ∀ x ∈ Lexeme.fuse (Lexeme.scan source.toList), x.chars ≠ [] := by
    intro x hx
    obtain ⟨rest, hpiece⟩ := hpieces.exists_pieceBefore x hx
    exact hpiece.ne_nil
  have h := Lexeme.tiles_ofLexemes hne 0
  rw [hpieces.flatMap_chars] at h
  exact h

theorem content_eq_slice {source : String} {t : Token} (ht : t ∈ tokenize source)
    (hkind : t.kind.isDelimited = false) : t.content.toList = t.slice source := by
  have hmem := List.mem_map_of_mem (f := fun t : Token => (t.kind, t.content, t.slice source)) ht
  rw [map_tokenize] at hmem
  obtain ⟨x, hx, heq⟩ := List.mem_map.mp hmem
  obtain ⟨hk, hc, hs⟩ : x.shape.kind = t.kind ∧ String.ofList x.content = t.content ∧
      x.chars = t.slice source := by simpa using heq
  obtain ⟨rest, hpiece⟩ := (Lexeme.pieces_fuse_scan source.toList).exists_pieceBefore x hx
  rw [← hk] at hkind
  rw [← hc, ← hs, String.toList_ofList, hpiece.content_eq hkind]

theorem tokenize_texts_apart (source : String) :
    (tokenize source).IsChain fun t u => ¬ (t.kind = .text ∧ u.kind = .text) := by
  have h := (Lexeme.pieces_fuse_scan source.toList).texts_apart
  have hkinds := congrArg (List.map Prod.fst) (map_tokenize source)
  simp only [List.map_map, Function.comp_def] at hkinds
  rw [← List.isChain_map (fun x : Lexeme => x.shape.kind)
    (R := fun k l : TokenKind => ¬ (k = .text ∧ l = .text)), ← hkinds, List.isChain_map] at h
  exact h

/-- The delimiter that the last token of the source lacks, if it is an unclosed form. -/
def missingDelimiter (source : String) : String :=
  String.ofList
    (((tokenize source).getLast?.map fun t => t.kind.missing (t.slice source)).getD [])

theorem detokenize_tokenize (source : String) :
    detokenize (tokenize source) = source ++ missingDelimiter source := by
  have hmap := map_tokenize source
  have hwrite := congrArg (List.flatMap fun p => p.1.write p.2.1.toList) hmap
  have hlast := congrArg (fun ps => (ps.getLast?.map fun p => p.1.missing p.2.2).getD []) hmap
  simp only [List.flatMap_map, String.toList_ofList] at hwrite
  simp only [List.getLast?_map, Option.map_map, Function.comp_def] at hlast
  apply String.toList_injective
  rw [toList_detokenize, String.toList_append, missingDelimiter, String.toList_ofList, hwrite,
    hlast, (Lexeme.pieces_fuse_scan source.toList).flatMap_write]

/-- The scanner cuts longest matches, the spans of the lexemes and of the tokens before and after
joining cover the source, plain tokens hold their source text and stand apart, and written back the
tokens are the source and the delimiter it lacks. -/
theorem tokens_lose_nothing (source : String) :
    (∀ xs, Lexeme.Munches source.toList xs ↔ xs = Lexeme.scan source.toList) ∧
      Covers source (baseSpans source) ∧
      Covers source ((tokenize source).map Token.span) ∧
      Covers source ((lex source).map Token.span) ∧
      (∀ t ∈ tokenize source, t.kind.isDelimited = false → t.content.toList = t.slice source) ∧
      (tokenize source).IsChain (fun t u => ¬ (t.kind = .text ∧ u.kind = .text)) ∧
      detokenize (tokenize source) = source ++ missingDelimiter source :=
  ⟨fun _ => Lexeme.munches_iff, (tiles_baseSpans source).covers, (tiles_tokenize source).covers,
    (tiles_merge (tiles_tokenize source)).covers, fun _ => content_eq_slice,
    tokenize_texts_apart source, detokenize_tokenize source⟩

end CampaignMarkup
