import CampaignMarkup.Macros.Definition
import CampaignMarkup.Proofs.Assoc
import CampaignMarkup.Proofs.Text.Lines

/-! # The holes of a body

A body is cut into characters and holes, in one way that does not depend on the values: wherever the
name of a parameter stands in braces, there is a hole. Filling a body puts the values into these
holes at once and leaves every other character as it is. -/
namespace CampaignMarkup

open Chars

namespace Definition

/-- A name in braces. -/
def braced (name : String) : String :=
  "\x7b" ++ name ++ "\x7d"

theorem toList_braced (name : String) : (braced name).toList = '{' :: (name.toList ++ ['}']) := by
  simp [braced]

/-- What a text is made of: a character that stays, or a hole with the name of what fills it. -/
inductive Item where
  | char (c : Char)
  | hole (name : String)

namespace Item

def written : Item → List Char
  | .char c => [c]
  | .hole name => (braced name).toList

def filled (value : String → String) : Item → List Char
  | .char c => [c]
  | .hole name => (value name).toList

theorem written_ne_nil (item : Item) : item.written ≠ [] := by
  cases item with
  | char c => simp [written]
  | hole name => simp [written, toList_braced]

end Item

/-- The text as characters and holes. There is a hole wherever one of the names stands in braces,
and nowhere else. -/
structure Template (names : String → Prop) (text : List Char) (items : List Item) : Prop where
  written_eq : items.flatMap Item.written = text
  hole_iff : ∀ before name after,
    (∃ front back, items = front ++ .hole name :: back ∧ front.flatMap Item.written = before ∧
      back.flatMap Item.written = after) ↔
    names name ∧ text = before ++ ((braced name).toList ++ after)

namespace Template

variable {names : String → Prop} {text rest : List Char} {item : Item} {items : List Item}

theorem named (h : Template names text items) {name : String} (hmem : .hole name ∈ items) :
    names name := by
  obtain ⟨front, back, heq⟩ := List.append_of_mem hmem
  exact ((h.hole_iff _ name _).mp ⟨front, back, heq, rfl, rfl⟩).1

theorem nil : Template names [] [] := by
  refine ⟨rfl, fun before name after => ⟨?_, ?_⟩⟩
  · rintro ⟨front, back, heq, -⟩
    simp at heq
  · rintro ⟨-, heq⟩
    simp [toList_braced] at heq

/-- One more item in front, if the names in braces that begin in it are the item itself. -/
theorem cons (h : Template names rest items) (item : Item)
    (hitem : ∀ name, item = .hole name → names name)
    (hholes : ∀ before name after, names name →
      item.written ++ rest = before ++ ((braced name).toList ++ after) →
      (before = [] ∧ item = .hole name ∧ after = rest) ∨
        ∃ more, before = item.written ++ more ∧ rest = more ++ ((braced name).toList ++ after)) :
    Template names (item.written ++ rest) (item :: items) := by
  refine ⟨by rw [List.flatMap_cons, h.written_eq], fun before name after => ⟨?_, ?_⟩⟩
  · rintro ⟨front, back, heq, rfl, rfl⟩
    cases front with
    | nil =>
      obtain ⟨rfl, rfl⟩ := List.cons.inj heq
      exact ⟨hitem name rfl, by rw [← h.written_eq]; rfl⟩
    | cons first front =>
      obtain ⟨rfl, hitems⟩ := List.cons.inj heq
      obtain ⟨hname, hrest⟩ := (h.hole_iff _ name _).mp ⟨front, back, hitems, rfl, rfl⟩
      exact ⟨hname, by rw [hrest, List.flatMap_cons, List.append_assoc]⟩
  · rintro ⟨hname, heq⟩
    obtain ⟨rfl, rfl, rfl⟩ | ⟨more, rfl, hrest⟩ := hholes before name after hname heq
    · exact ⟨[], items, rfl, rfl, h.written_eq⟩
    · obtain ⟨front, back, rfl, rfl, rfl⟩ := (h.hole_iff more name after).mpr ⟨hname, hrest⟩
      exact ⟨item :: front, back, rfl, rfl, rfl⟩

theorem tail (h : Template names text (item :: items)) :
    Template names (items.flatMap Item.written) items := by
  refine ⟨rfl, fun before name after => ⟨?_, ?_⟩⟩
  · rintro ⟨front, back, rfl, rfl, rfl⟩
    exact ⟨h.named (by simp), by simp [Item.written]⟩
  · rintro ⟨hname, heq⟩
    have htext : text = (item.written ++ before) ++ ((braced name).toList ++ after) := by
      rw [← h.written_eq, List.flatMap_cons, heq, List.append_assoc]
    obtain ⟨front, back, hitems, hfront, hback⟩ := (h.hole_iff _ name _).mpr ⟨hname, htext⟩
    cases front with
    | nil => exact absurd (List.append_eq_nil_iff.mp hfront.symm).1 item.written_ne_nil
    | cons first front =>
      obtain ⟨rfl, rfl⟩ := List.cons.inj hitems
      exact ⟨front, back, rfl, List.append_cancel_left hfront, hback⟩

end Template

/-- No name has braces in it. -/
def Unbraced (names : String → Prop) : Prop :=
  ∀ name, names name → '{' ∉ name.toList ∧ '}' ∉ name.toList

/-- No name in braces begins inside another. -/
theorem exists_behind_hole {name other : String} {rest before after : List Char}
    (hname : '{' ∉ name.toList ∧ '}' ∉ name.toList) (hother : '}' ∉ other.toList)
    (h : (braced name).toList ++ rest = before ++ ((braced other).toList ++ after)) :
    (before = [] ∧ name = other ∧ after = rest) ∨ ∃ more,
      before = (braced name).toList ++ more ∧ rest = more ++ ((braced other).toList ++ after) := by
  simp only [toList_braced, List.cons_append, List.append_assoc, List.nil_append] at h
  cases before with
  | nil =>
    have hsplit := congrArg (splitOnce '}') (List.cons.inj h).2
    rw [splitOnce_eq_some.mpr ⟨rfl, hname.2⟩, splitOnce_eq_some.mpr ⟨rfl, hother⟩] at hsplit
    obtain ⟨hnames, rfl⟩ := Prod.mk.inj (Option.some.inj hsplit)
    exact .inl ⟨rfl, String.toList_injective hnames, rfl⟩
  | cons c before =>
    obtain ⟨rfl, hbehind⟩ := List.cons.inj h
    obtain ⟨more, rfl, hmore⟩ | ⟨more, hin, hmore⟩ := List.append_eq_append_iff.mp hbehind
    · cases more with
      | nil => simp at hmore
      | cons d more =>
        obtain ⟨rfl, rfl⟩ := List.cons.inj hmore
        exact .inr ⟨more, by simp [toList_braced], by simp [toList_braced]⟩
    · cases more with
      | nil => simp at hmore
      | cons d more =>
        obtain ⟨rfl, -⟩ := List.cons.inj hmore
        exact absurd (hin ▸ by simp) hname.1

theorem exists_template {names : String → Prop} (hnames : Unbraced names) (text : List Char) :
    ∃ items, Template names text items := by
  induction hn : text.length using Nat.strong_induction_on generalizing text with
  | _ n ih =>
    by_cases hhole : ∃ name after, names name ∧ text = (braced name).toList ++ after
    · obtain ⟨name, after, hname, rfl⟩ := hhole
      have hlength : after.length < n := by
        rw [← hn, toList_braced]
        simp
        omega
      obtain ⟨items, hitems⟩ := ih after.length hlength after rfl
      refine ⟨.hole name :: items, hitems.cons (.hole name) ?_ ?_⟩
      · rintro _ ⟨⟩
        exact hname
      · intro before other rest hother heq
        obtain ⟨rfl, rfl, rfl⟩ | hmore :=
          exists_behind_hole (hnames name hname) (hnames other hother).2 heq
        · exact .inl ⟨rfl, rfl, rfl⟩
        · exact .inr hmore
    · cases text with
      | nil => exact ⟨[], .nil⟩
      | cons c cs =>
        obtain ⟨items, hitems⟩ := ih cs.length (by simp [← hn]) cs rfl
        refine ⟨.char c :: items, hitems.cons (.char c) (by simp) ?_⟩
        intro before name after hname heq
        cases before with
        | nil => exact absurd ⟨name, after, hname, heq⟩ hhole
        | cons d before =>
          obtain ⟨rfl, hrest⟩ := List.cons.inj heq
          exact .inr ⟨before, rfl, hrest⟩

section Filling

variable {fill : List Char → Option (List Char)} {cs : List Char}

theorem fillHoles_char {c : Char} (h : c ≠ '{') :
    fillHoles fill (c :: cs) = c :: fillHoles fill cs := by
  rw [fillHoles, if_neg h]

theorem fillHoles_hole {name after value : List Char} (hname : '}' ∉ name)
    (hfill : fill name = some value) :
    fillHoles fill ('{' :: (name ++ '}' :: after)) = value ++ fillHoles fill after := by
  rw [fillHoles, if_pos rfl]
  split
  · next before rest hsplit =>
    rw [splitOnce_eq_some.mpr ⟨rfl, hname⟩] at hsplit
    obtain ⟨rfl, rfl⟩ := Prod.mk.inj (Option.some.inj hsplit)
    rw [hfill]
  · next hsplit =>
    rw [splitOnce_eq_some.mpr ⟨rfl, hname⟩] at hsplit
    cases hsplit

theorem fillHoles_brace (h : ∀ name after, cs = name ++ '}' :: after → fill name = none) :
    fillHoles fill ('{' :: cs) = '{' :: fillHoles fill cs := by
  rw [fillHoles, if_pos rfl]
  split
  · next name after hsplit =>
    rw [h name after (splitOnce_eq_some.mp hsplit).1]
  · rfl

end Filling

/-- By induction on the items: a brace that opens no hole is passed, and behind a hole reading goes
on with the rest of the text, not with what was put in. -/
theorem Template.fillHoles_eq {names : String → Prop} (hnames : Unbraced names)
    {text : List Char} {items : List Item} (h : Template names text items)
    {fill : List Char → Option (List Char)} {value : String → String}
    (hfill : ∀ name, names name → fill name.toList = some (value name).toList)
    (hnone : ∀ name, ¬ names name → fill name.toList = none) :
    fillHoles fill text = items.flatMap (Item.filled value) := by
  induction items generalizing text with
  | nil =>
    obtain rfl : [] = text := h.written_eq
    rw [fillHoles, List.flatMap_nil]
  | cons item items ih =>
    have hrest := ih h.tail
    obtain rfl : item.written ++ items.flatMap Item.written = text := h.written_eq
    cases item with
    | char c =>
      suffices hchar : fillHoles fill (c :: items.flatMap Item.written) =
          c :: fillHoles fill (items.flatMap Item.written) from
        hchar.trans (congrArg (c :: ·) hrest)
      by_cases hc : c = '{'
      · subst hc
        refine fillHoles_brace fun name after heq => ?_
        rw [← String.toList_ofList (l := name)]
        refine hnone _ fun hname => ?_
        obtain ⟨front, back, hitems, hfront, -⟩ := (h.hole_iff [] (String.ofList name) after).mpr
          ⟨hname, by simp [Item.written, toList_braced, heq]⟩
        cases front with
        | nil => cases hitems
        | cons first front =>
          exact first.written_ne_nil (List.append_eq_nil_iff.mp hfront).1
      · exact fillHoles_char hc
    | hole name =>
      have hname : names name := h.named (by simp)
      have hbraced : (Item.hole name).written ++ items.flatMap Item.written =
          '{' :: (name.toList ++ '}' :: items.flatMap Item.written) := by
        simp [Item.written, toList_braced]
      rw [hbraced, fillHoles_hole (hnames name hname).2 (hfill name hname), hrest]
      rfl

/-! ## Values -/

/-- The names that a body can have holes for. -/
def IsParameter (d : Definition) (name : String) : Prop :=
  name ∈ d.params ∨ name ∈ d.defaults.map Prod.fst

/-- The value of a parameter: that of the first positional one of the name, else the keyword value
that is given, else the default. -/
inductive Takes (d : Definition) (positional : List String) (keywords : List (String × String))
    (name : String) : String → Prop where
  | positional {i : Nat} {value : String} : d.params[i]? = some name →
      (∀ j < i, d.params[j]? ≠ some name) → positional[i]? = some value →
      Takes d positional keywords name value
  | supplied {value : String} : name ∉ d.params → name ∈ d.defaults.map Prod.fst →
      Assoc.get? name keywords = some value → Takes d positional keywords name value
  | byDefault {value : String} : name ∉ d.params → Assoc.get? name keywords = none →
      Assoc.get? name d.defaults = some value → Takes d positional keywords name value

variable {d : Definition} {positional : List String} {keywords : List (String × String)}
  {name : String}

theorem exists_fill?_of_mem_params (hlength : positional.length = d.arity)
    (h : name ∈ d.params) : ∃ value, d.fill? positional keywords name = some value ∧
      d.Takes positional keywords name value := by
  have hsome : (d.params.findIdx? (· = name)).isSome := by
    simpa using h
  obtain ⟨i, hi⟩ := Option.isSome_iff_exists.mp hsome
  obtain ⟨hlt, hat, hfirst⟩ := List.findIdx?_eq_some_iff_getElem.mp hi
  have hgiven : i < positional.length := hlength ▸ hlt
  have hfill : d.fill? positional keywords name = some positional[i] := by
    rw [fill?, hi]
    exact List.getElem?_eq_getElem hgiven
  refine ⟨positional[i], hfill, .positional (i := i) ?_ ?_ (List.getElem?_eq_getElem hgiven)⟩
  · rw [List.getElem?_eq_getElem hlt, of_decide_eq_true hat]
  · intro j hj heq
    obtain ⟨hjlt, hjat⟩ := List.getElem?_eq_some_iff.mp heq
    exact hfirst j hj (decide_eq_true hjat)

theorem fill?_of_not_mem_params (h : name ∉ d.params) : d.fill? positional keywords name =
    (Assoc.get? name d.defaults).map fun value => (Assoc.get? name keywords).getD value := by
  have hnone : d.params.findIdx? (· = name) = none := by
    rw [List.findIdx?_eq_none_iff]
    rintro p hp
    exact decide_eq_false fun heq => h (heq ▸ hp)
  rw [fill?, hnone]
  cases Assoc.get? name d.defaults <;> rfl

/-- Every parameter has a value, and with it its holes are filled. -/
theorem exists_fill? (hlength : positional.length = d.arity)
    (keywords : List (String × String)) (h : d.IsParameter name) :
    ∃ value, d.fill? positional keywords name = some value ∧
      d.Takes positional keywords name value := by
  by_cases hparam : name ∈ d.params
  · exact exists_fill?_of_mem_params hlength hparam
  have hkey : name ∈ d.defaults.map Prod.fst := h.resolve_left hparam
  rw [fill?_of_not_mem_params hparam]
  obtain ⟨byDefault, hdefault⟩ : ∃ value, Assoc.get? name d.defaults = some value := by
    rw [← Option.ne_none_iff_exists', ne_eq, Assoc.get?_eq_none_iff]
    exact not_not_intro hkey
  rw [hdefault]
  cases hgiven : Assoc.get? name keywords with
  | none => exact ⟨byDefault, rfl, .byDefault hparam hgiven hdefault⟩
  | some value => exact ⟨value, rfl, .supplied hparam hkey hgiven⟩

theorem fill?_eq_none (h : ¬ d.IsParameter name) : d.fill? positional keywords name = none := by
  obtain ⟨hparam, hkey⟩ := not_or.mp h
  rw [fill?_of_not_mem_params hparam, Assoc.get?_eq_none_iff.mpr hkey]
  rfl

theorem toList_substitute (hnames : Unbraced d.IsParameter) {items : List Item}
    (h : Template d.IsParameter d.body.toList items) (hlength : positional.length = d.arity)
    (keywords : List (String × String)) :
    ∃ value : String → String,
      (∀ name, d.IsParameter name → d.Takes positional keywords name (value name)) ∧
      (d.substitute positional keywords).toList = items.flatMap (Item.filled value) := by
  let value := fun name => (d.fill? positional keywords name).getD ""
  have hvalue : ∀ name, d.IsParameter name →
      d.fill? positional keywords name = some (value name) ∧
        d.Takes positional keywords name (value name) := by
    intro name hname
    obtain ⟨v, hfill, htakes⟩ := exists_fill? hlength keywords hname
    have hv : value name = v := by simp [value, hfill]
    exact ⟨hv ▸ hfill, hv ▸ htakes⟩
  refine ⟨value, fun name hname => (hvalue name hname).2, ?_⟩
  rw [substitute, String.toList_ofList]
  refine h.fillHoles_eq hnames (fun name hname => ?_) (fun name hname => ?_)
  · rw [String.ofList_toList, (hvalue name hname).1, Option.map_some]
  · rw [String.ofList_toList, fill?_eq_none hname, Option.map_none]

/-- The value of every parameter is its own hole. -/
theorem Takes.eq_braced {value : String}
    (hkeywords : ∀ key ∈ d.defaults.map Prod.fst, Assoc.get? key keywords = some (braced key))
    (h : d.Takes (d.params.map braced) keywords name value) : value = braced name := by
  cases h with
  | positional hat _ hgiven =>
    rw [List.getElem?_map, hat] at hgiven
    exact (Option.some.inj hgiven).symm
  | supplied _ hkey hgiven =>
    rw [hkeywords name hkey] at hgiven
    exact (Option.some.inj hgiven).symm
  | byDefault _ hnone hdefault =>
    have hkey : name ∈ d.defaults.map Prod.fst := by
      by_contra hno
      rw [Assoc.get?_eq_none_iff.mpr hno] at hdefault
      cases hdefault
    rw [hkeywords name hkey] at hnone
    cases hnone

end Definition

open Definition

/-- The body of a macro whose parameters have no braces in their names is made of characters and
holes, and there is a hole wherever a parameter's name stands in braces and nowhere else. Whatever
the values are, the body with the values filled in is these characters and, for each of these holes,
the value of its parameter; where every parameter is given its own hole, it is the body. -/
theorem holes_are_filled_at_once (d : Definition) (hnames : Unbraced d.IsParameter) :
    ∃ items, Template d.IsParameter d.body.toList items ∧
      (∀ positional keywords, positional.length = d.arity →
        ∃ value : String → String,
          (∀ name, d.IsParameter name → d.Takes positional keywords name (value name)) ∧
          (d.substitute positional keywords).toList = items.flatMap (Item.filled value)) ∧
      ∀ keywords,
        (∀ key ∈ d.defaults.map Prod.fst, Assoc.get? key keywords = some (braced key)) →
        d.substitute (d.params.map braced) keywords = d.body := by
  obtain ⟨items, hitems⟩ := exists_template hnames d.body.toList
  refine ⟨items, hitems, ?_, ?_⟩
  · intro positional keywords hlength
    exact toList_substitute hnames hitems hlength keywords
  · intro keywords hkeywords
    have harity : (d.params.map braced).length = d.arity := List.length_map braced
    obtain ⟨value, hvalue, heq⟩ := toList_substitute hnames hitems harity keywords
    apply String.toList_injective
    rw [heq, ← hitems.written_eq]
    refine List.flatMap_congr fun item hmem => ?_
    cases item with
    | char c => rfl
    | hole name =>
      have hown := (hvalue name (hitems.named hmem)).eq_braced hkeywords
      rw [Item.filled, hown, Item.written]

/-- Holes inside a call, behind a lone brace and next to each other, and values that look like
holes. -/
theorem nested_holes_are_filled :
    let d : Definition :=
      { name := "M"
        body := "\x7bCALL \x7bp\x7d\x7d\x7b\x7bp\x7d\x7bk\x7d\x7b"
        params := ["p"]
        defaults := [("k", "\x7bp\x7d")] }
    Unbraced d.IsParameter ∧
      (∃ items, Template d.IsParameter d.body.toList items ∧
        (∃ value : String → String,
          (∀ name, d.IsParameter name → d.Takes ["\x7bk\x7d"] [] name (value name)) ∧
          (d.substitute ["\x7bk\x7d"] []).toList = items.flatMap (Item.filled value)) ∧
        d.substitute ["\x7bp\x7d"] [("k", "\x7bk\x7d")] = d.body) ∧
      d.substitute ["\x7bk\x7d"] [] = "\x7bCALL \x7bk\x7d\x7d\x7b\x7bk\x7d\x7bp\x7d\x7b" := by
  intro d
  have hnames : Unbraced d.IsParameter := by
    intro name hname
    obtain rfl | rfl : name = "p" ∨ name = "k" := by simpa [IsParameter, d] using hname
    · decide
    · decide
  obtain ⟨items, hitems, hfilled, hown⟩ := holes_are_filled_at_once d hnames
  refine ⟨hnames, ⟨items, hitems, hfilled ["\x7bk\x7d"] [] rfl, ?_⟩, by decide +kernel⟩
  apply hown
  intro key hkey
  obtain rfl : key = "k" := by simpa [d] using hkey
  decide

end CampaignMarkup
