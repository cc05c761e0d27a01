import CampaignMarkup.Proofs.Token.Joins
import CampaignMarkup.Proofs.Token.Written

/-! # What a text is read as

The tokens of a text by kind and content, wherever the text stands. They are the same for every list
of pieces that makes up the text, and joining them does not look at their spans. -/
namespace CampaignMarkup

open Chars Lexeme

namespace Token

/-- Kind and content, without the place in a source. -/
def bare (t : Token) : TokenKind × String :=
  (t.kind, t.content)

/-- A piece of a text as the token it is read as. -/
structure ReadAs (x : Lexeme) (rest : List Char) (t : Token) : Prop where
  before : x.PieceBefore rest
  kind : t.kind = x.shape.kind
  content : t.content.toList = x.content

/-- The tokens of a text, wherever it stands in a source. -/
inductive Reads : List Char → List Token → Prop where
  | nil : Reads [] []
  | cons {x rest t ts} : ReadAs x rest t → Reads rest ts → Reads (x.chars ++ rest) (t :: ts)

theorem map_bare_ofLexemes (offset : Nat) (xs : List Lexeme) :
    (ofLexemes offset xs).map bare = xs.map fun x => (x.shape.kind, String.ofList x.content) := by
  induction xs generalizing offset with
  | nil => rfl
  | cons x xs ih => rw [ofLexemes, List.map_cons, ih, List.map_cons]; rfl

theorem reads_ofLexemes {text : List Char} {xs : List Lexeme} (h : Pieces text xs) (offset : Nat) :
    Reads text (ofLexemes offset xs) := by
  induction h generalizing offset with
  | nil => exact .nil
  | cons hx _ ih => exact .cons ⟨hx, rfl, String.toList_ofList⟩ (ih _)

theorem reads_tokenize (source : String) : Reads source.toList (tokenize source) :=
  reads_ofLexemes (pieces_fuse_scan source.toList) 0

namespace Reads

variable {text rest : List Char} {t : Token} {ts us : List Token}

theorem exists_pieces (h : Reads text ts) : ∃ xs, Pieces text xs ∧
    ts.map bare = xs.map fun x => (x.shape.kind, String.ofList x.content) := by
  induction h with
  | nil => exact ⟨[], .nil, rfl⟩
  | @cons x rest t ts hx _ ih =>
    obtain ⟨xs, hxs, heq⟩ := ih
    refine ⟨x :: xs, .cons hx.before hxs, ?_⟩
    rw [List.map_cons, List.map_cons, heq, bare, hx.kind, ← hx.content, String.ofList_toList]

theorem map_bare_tokenize {source : String} (h : Reads source.toList ts) :
    (tokenize source).map bare = ts.map bare := by
  obtain ⟨xs, hxs, heq⟩ := h.exists_pieces
  rw [tokenize, map_bare_ofLexemes, heq, hxs.eq_fuse]

theorem firstKind_eq (h : Reads text (t :: ts)) : firstKind text = some t.kind := by
  obtain ⟨xs, hxs, heq⟩ := h.exists_pieces
  rw [hxs.firstKind_eq]
  cases xs with
  | nil => cases heq
  | cons x xs =>
    obtain ⟨hbare, -⟩ := List.cons.inj heq
    exact congrArg (fun p => some p.1) hbare.symm

theorem eq_nil (h : Reads text []) : text = [] := by
  cases h
  rfl

theorem nil_eq (h : Reads [] ts) : ts = [] := by
  cases ts with
  | nil => rfl
  | cons t ts =>
    have hkind := h.firstKind_eq
    rw [firstKind_nil] at hkind
    cases hkind

theorem cons_inv (h : Reads text (t :: ts)) :
    ∃ x rest, text = x.chars ++ rest ∧ ReadAs x rest t ∧ Reads rest ts := by
  cases h with
  | cons hx hts => exact ⟨_, _, rfl, hx, hts⟩

theorem of_append (h : Reads text (ts ++ us)) : ∃ rest, Reads rest us := by
  induction ts generalizing text with
  | nil => exact ⟨text, h⟩
  | cons t ts ih =>
    obtain ⟨-, rest, -, -, hrest⟩ := h.cons_inv
    exact ih hrest

end Reads

theorem joinable_bare : Joinable (fun _ _ => True) fun t u => t.bare = u.bare := by
  constructor
  · intro a b h
    obtain ⟨hkind, hcontent⟩ := Prod.mk.inj h
    exact ⟨hkind, by rw [isPlus, isPlus, hkind, hcontent]⟩
  · intros
    trivial
  · intro a b x y _ _ last h _ hxy _ _ _ _
    obtain ⟨hkind, hcontent⟩ := Prod.mk.inj h
    obtain ⟨hkind', hcontent'⟩ := Prod.mk.inj hxy
    simp [bare, append, hkind, hcontent, hkind', hcontent']

end Token

open Token

theorem map_bare_merge {ts us : List Token} (h : ts.map bare = us.map bare) :
    (mergeConcatenations ts).map bare = (mergeConcatenations us).map bare := by
  have hrel : List.Forall₂ (fun t u => t.bare = u.bare) ts us := by
    rwa [← List.forall₂_eq_eq_eq, List.forall₂_map_left_iff, List.forall₂_map_right_iff] at h
  have hchain : ts.IsChain fun _ _ => True := List.isChain_iff_getElem.mpr fun _ _ => trivial
  have hmerge := joinable_bare.merge_related hchain hrel
  rwa [← List.forall₂_eq_eq_eq, List.forall₂_map_left_iff, List.forall₂_map_right_iff]

end CampaignMarkup
