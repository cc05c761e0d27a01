import CampaignMarkup.Proofs.Path.Segments

/-! # Joined paths

A path seen from another one has the components of both, those of the other one first, unless it is
absolute and stands for itself. A path of names alone takes nothing of the other one away. -/
namespace CampaignMarkup

theorem Chars.splitOn_append_cons (sep : Char) (cs ds : List Char) :
    splitOn sep (cs ++ sep :: ds) = splitOn sep cs ++ splitOn sep ds := by
  rw [splitOn_eq, splitOn_eq, splitOn_eq]
  exact List.splitOn_append_cons_self _ _

namespace Path

open Component

variable {p q : Path}

theorem segments_slash (a b : String) :
    (Path.mk (a ++ "/" ++ b)).segments = (Path.mk a).segments ++ (Path.mk b).segments := by
  have hchars : (a ++ "/" ++ b).toList = a.toList ++ '/' :: b.toList := by simp
  rw [segments, Text.splitOn, hchars, Chars.splitOn_append_cons, List.map_append]
  rfl

theorem named_slash (a b : String) :
    (Path.mk (a ++ "/" ++ b)).named = (Path.mk a).named ++ (Path.mk b).named := by
  rw [named, segments_slash, List.filterMap_append]
  rfl

theorem named_empty : (Path.mk "").named = [] := by
  decide

theorem join_of_isAbsolute (p : Path) (h : q.isAbsolute) : p.join q = q := by
  rw [join, h, Bool.true_or, if_pos rfl]

/-- The text of a joined path: from nowhere, behind a slash that is there, or behind one more. -/
theorem join_cases (p : Path) (h : q.isAbsolute = false) :
    (p = ⟨""⟩ ∧ p.join q = q) ∨
      (∃ a, p = ⟨a ++ "/"⟩ ∧ p.join q = ⟨a ++ "/" ++ q.text⟩) ∨
      (p.text ≠ "" ∧ p.join q = ⟨p.text ++ "/" ++ q.text⟩) := by
  obtain ⟨text⟩ := p
  rw [join, h, Bool.false_or]
  by_cases hempty : text = ""
  · rw [if_pos (beq_iff_eq.mpr hempty)]
    exact .inl ⟨congrArg Path.mk hempty, rfl⟩
  · rw [if_neg (mt beq_iff_eq.mp hempty)]
    by_cases hslash : text.toList.getLast? = some '/'
    · obtain ⟨cs, hcs⟩ := List.getLast?_eq_some_iff.mp hslash
      have htext : text = String.ofList cs ++ "/" := by
        apply String.toList_injective
        rw [hcs, String.toList_append, String.toList_ofList]
        rfl
      rw [if_pos hslash]
      exact .inr (.inl ⟨_, congrArg Path.mk htext, by rw [← htext]⟩)
    · rw [if_neg hslash]
      exact .inr (.inr ⟨hempty, rfl⟩)

theorem named_join (p : Path) (h : q.isAbsolute = false) :
    (p.join q).named = p.named ++ q.named := by
  rcases join_cases p h with ⟨rfl, hjoin⟩ | ⟨a, rfl, hjoin⟩ | ⟨-, hjoin⟩ <;> rw [hjoin]
  · rw [named_empty, List.nil_append]
  · have ha : a ++ "/" = a ++ "/" ++ "" := String.append_empty.symm
    rw [named_slash, ha, named_slash, named_empty, List.append_nil]
  · exact named_slash _ _

theorem getLast?_named_join (p : Path) {c : Component} (h : q.named.getLast? = some c) :
    (p.join q).named.getLast? = some c := by
  by_cases habsolute : q.isAbsolute
  · rw [join_of_isAbsolute p habsolute, h]
  · rw [named_join p (Bool.eq_false_iff.mpr habsolute), List.getLast?_append, h]
    rfl

theorem isAbsolute_append {a : String} (b : String) (h : a ≠ "") :
    (Path.mk (a ++ b)).isAbsolute = (Path.mk a).isAbsolute := by
  rw [Bool.eq_iff_iff, isAbsolute_iff_text, isAbsolute_iff_text, String.toList_append]
  cases hcs : a.toList with
  | nil => exact absurd (String.toList_injective hcs) h
  | cons c cs => simp

theorem isAbsolute_join (p : Path) (h : q.isAbsolute = false) :
    (p.join q).isAbsolute = p.isAbsolute := by
  rcases join_cases p h with ⟨rfl, hjoin⟩ | ⟨a, rfl, hjoin⟩ | ⟨hne, hjoin⟩ <;> rw [hjoin]
  · rw [h]
    decide
  · exact isAbsolute_append _ (by simp)
  · rw [String.append_assoc]
    exact isAbsolute_append _ hne

theorem ground_join (p : Path) (h : q.isAbsolute = false) : (p.join q).ground = p.ground := by
  rw [ground, ground, isAbsolute_join p h]

theorem foldl_fold_names (folded : List Component) (names : List String) :
    (names.map Component.name).foldl fold folded =
      (names.map Component.name).reverse ++ folded := by
  induction names generalizing folded with
  | nil => rfl
  | cons n names ih =>
    rw [List.map_cons, List.foldl_cons, ih, List.reverse_cons, List.append_assoc]
    rfl

/-- Names below a path stay below it when it is folded. -/
theorem foldAll_join (p : Path) (h : q.isAbsolute = false) {names : List String}
    (hnames : q.named = names.map .name) :
    foldAll (p.join q).components = foldAll p.components ++ names.map .name := by
  rw [foldAll_components, foldAll_components, named_join p h, ground_join p h, List.foldl_append,
    hnames, foldl_fold_names, List.reverse_append, List.reverse_reverse]

end Path

end CampaignMarkup
