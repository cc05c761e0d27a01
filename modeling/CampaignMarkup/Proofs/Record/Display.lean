import CampaignMarkup.Proofs.Record.Legibility

/-! # Records written and read again

What is written of a record is read as the statements that make it, with the values that its values
are read as. So tags, keys, nesting and order come back, and the record as a whole does just when
its strings are legible. Only a string that is left open spoils more than itself. -/
namespace CampaignMarkup

open Text Chars

namespace Record

mutual

/-- The record with every value changed. -/
def mapValues (f : AttributeValue → AttributeValue) : Record → Record
  | ⟨tag, attributes, children⟩ =>
    ⟨tag, attributes.map fun (key, value) => (key, f value), mapValuesAll f children⟩

def mapValuesAll (f : AttributeValue → AttributeValue) : List Record → List Record
  | [] => []
  | r :: rs => r.mapValues f :: mapValuesAll f rs

end

mutual

/-- The statements that make the record. -/
def script : Record → List Statement
  | ⟨tag, attributes, children⟩ =>
    .opening tag :: (attributes.map (fun (key, value) => .giving key value) ++
      (scriptAll children ++ [.closing tag]))

def scriptAll : List Record → List Statement
  | [] => []
  | r :: rs => r.script ++ scriptAll rs

end

/-- Names are names, no key is given twice, and numbers have 64 bits. -/
structure WellFormed (r : Record) : Prop where
  tag : MarkupLine.IsName r.tag.toList
  keys : ∀ a ∈ r.attributes, MarkupLine.IsName a.1.toList
  nodup : (r.attributes.map Prod.fst).Nodup
  integers : ∀ key n, (key, .integer n) ∈ r.attributes → InRange n

/-- No string of the record swallows what is written behind it. -/
def EndsStrings (r : Record) : Prop :=
  ∀ key s, (key, .string s) ∈ r.attributes → ¬ AttributeValue.LeftOpen s

section Writing

variable {depth : Nat}

theorem statements_tabs (cs : List Char) :
    Pending.statements none (lines (List.replicate depth '\t' ++ cs)) =
      Pending.statements none (lines cs) := by
  apply Pending.statements_blanks_append
  · intro c hc
    rw [List.eq_of_mem_replicate hc]
    decide
  · intro hmem
    exact absurd (List.eq_of_mem_replicate hmem) (by decide)

/-- The lines of the attributes of a record. -/
def attributeLines (depth : Nat) (attributes : List (String × AttributeValue)) : List Char :=
  attributes.flatMap fun (key, value) =>
    List.replicate (depth + 1) '\t' ++ (key.toList ++ '=' :: value.render.toList ++ ['\n'])

theorem toList_linesAt (depth : Nat) (tag : String) (attributes : List (String × AttributeValue))
    (children : List Record) (rest : List Char) :
    (String.join (linesAt depth ⟨tag, attributes, children⟩)).toList ++ rest =
      List.replicate depth '\t' ++ ('[' :: (tag.toList ++ [']']) ++ '\n' ::
        (attributeLines depth attributes ++
          ((String.join (linesOfAll (depth + 1) children)).toList ++
            (List.replicate depth '\t' ++
              ('[' :: ('/' :: tag.toList ++ [']']) ++ '\n' :: rest))))) := by
  simp [linesAt, attributeLines, List.flatMap_map, List.replicate_succ']

theorem statements_attributes {attributes : List (String × AttributeValue)}
    (hkeys : ∀ a ∈ attributes, MarkupLine.IsName a.1.toList)
    (hopen : ∀ key s, (key, .string s) ∈ attributes → ¬ AttributeValue.LeftOpen s)
    (hrange : ∀ key n, (key, .integer n) ∈ attributes → InRange n) (rest : List Char) :
    Pending.statements none (lines (attributeLines depth attributes ++ rest)) =
      attributes.map (fun (key, value) => .giving key value.reread) ++
        Pending.statements none (lines rest) := by
  induction attributes with
  | nil => rfl
  | cons a attributes ih =>
    obtain ⟨key, value⟩ := a
    obtain ⟨hkey, hkeys⟩ := List.forall_mem_cons.mp hkeys
    have hrest := ih hkeys (fun k s hs => hopen k s (List.mem_cons_of_mem _ hs))
      (fun k n hn => hrange k n (List.mem_cons_of_mem _ hn))
    have hvalue := @Pending.statements_attribute key hkey value
      (fun s hs => hopen key s (hs ▸ List.mem_cons_self))
      (fun n hn => hrange key n (hn ▸ List.mem_cons_self))
      (attributeLines depth attributes ++ rest)
    have hline : attributeLines depth ((key, value) :: attributes) ++ rest =
        List.replicate (depth + 1) '\t' ++ (key.toList ++ '=' :: value.render.toList ++ '\n' ::
          (attributeLines depth attributes ++ rest)) := by
      simp [attributeLines]
    rw [hline, statements_tabs, hvalue, hrest]
    rfl

mutual

/-- What is written of a record is read as the statements that make it, with its values as they come
back. -/
theorem statements_linesAt : (r : Record) → (∀ x ∈ r.preorder, x.WellFormed ∧ x.EndsStrings) →
    (depth : Nat) → (rest : List Char) →
    Pending.statements none (lines ((String.join (r.linesAt depth)).toList ++ rest)) =
      (r.mapValues AttributeValue.reread).script ++ Pending.statements none (lines rest)
  | ⟨tag, attributes, children⟩, h, depth, rest => by
    rw [preorder, List.forall_mem_cons] at h
    obtain ⟨⟨hform, hends⟩, hchildren⟩ := h
    rw [toList_linesAt, statements_tabs, Pending.statements_opening hform.tag,
      statements_attributes hform.keys hends hform.integers,
      statements_linesOfAll children hchildren, statements_tabs,
      Pending.statements_closing hform.tag, mapValues, script]
    simp

theorem statements_linesOfAll : (rs : List Record) →
    (∀ x ∈ preorderAll rs, x.WellFormed ∧ x.EndsStrings) → (depth : Nat) → (rest : List Char) →
    Pending.statements none (lines ((String.join (linesOfAll depth rs)).toList ++ rest)) =
      scriptAll (mapValuesAll AttributeValue.reread rs) ++ Pending.statements none (lines rest)
  | [], _, _, _ => rfl
  | r :: rs, h, depth, rest => by
    rw [preorderAll, List.forall_mem_append] at h
    rw [linesOfAll, String.join_append, String.toList_append, List.append_assoc,
      statements_linesAt r h.1, statements_linesOfAll rs h.2, mapValuesAll, scriptAll,
      List.append_assoc]

end

end Writing

end Record

namespace Extraction

/-- The record as the last one of the innermost open block, or of all. -/
def attach (e : Extraction) (r : Record) : Extraction :=
  match e.stack with
  | [] => { e with roots := r :: e.roots }
  | parent :: outer => { e with stack := parent.addChild r :: outer }

theorem foldl_attach_open (rs : List Record) (node : Record) (outer roots : List Record)
    (p : Pending) : rs.foldl attach ⟨node :: outer, roots, p⟩ =
      ⟨{ node with children := node.children ++ rs } :: outer, roots, p⟩ := by
  induction rs generalizing node with
  | nil =>
    cases node
    simp
  | cons r rs ih =>
    rw [List.foldl_cons]
    change rs.foldl attach ⟨node.addChild r :: outer, roots, p⟩ = _
    rw [ih]
    simp [Record.addChild]

theorem foldl_attach_roots (rs roots : List Record) (p : Pending) :
    rs.foldl attach ⟨[], roots, p⟩ = ⟨[], rs.reverse ++ roots, p⟩ := by
  induction rs generalizing roots with
  | nil => simp
  | cons r rs ih =>
    rw [List.foldl_cons]
    change rs.foldl attach ⟨[], r :: roots, p⟩ = _
    rw [ih]
    simp

/-- Attributes with keys of their own are put behind one another. -/
theorem foldl_giving {attributes : List (String × AttributeValue)} {node : Record}
    (h : ((node.attributes ++ attributes).map Prod.fst).Nodup) (outer roots : List Record)
    (p : Pending) :
    (attributes.map fun (key, value) => Statement.giving key value).foldl obey
        ⟨node :: outer, roots, p⟩ =
      ⟨{ node with attributes := node.attributes ++ attributes } :: outer, roots, p⟩ := by
  induction attributes generalizing node with
  | nil =>
    cases node
    simp
  | cons a attributes ih =>
    obtain ⟨key, value⟩ := a
    have hkey : key ∉ node.attributes.map Prod.fst := by
      rw [List.map_append, List.nodup_append] at h
      intro hmem
      exact h.2.2 key hmem key (by simp) rfl
    have hset : node.setAttribute key value =
        { node with attributes := node.attributes ++ [(key, value)] } := by
      rw [Record.setAttribute, Assoc.insert_of_not_mem hkey]
    rw [List.map_cons, List.foldl_cons]
    change (attributes.map _).foldl obey ⟨node.setAttribute key value :: outer, roots, p⟩ = _
    rw [hset, ih (by simpa using h)]
    simp

theorem obey_closing (e : Extraction) (node : Record) :
    obey { e with stack := node :: e.stack } (.closing node.tag) = e.attach node := by
  obtain ⟨stack, roots, p⟩ := e
  cases stack with
  | nil => simp [obey, close, closeThrough, attach]
  | cons parent outer => simp [obey, close, closeThrough, attach]

mutual

theorem foldl_script (f : AttributeValue → AttributeValue) : (r : Record) →
    (∀ x ∈ r.preorder, (x.attributes.map Prod.fst).Nodup) → (e : Extraction) →
    (r.mapValues f).script.foldl obey e = e.attach (r.mapValues f)
  | ⟨tag, attributes, children⟩, h, e => by
    rw [Record.preorder, List.forall_mem_cons] at h
    obtain ⟨hnodup, hchildren⟩ := h
    have hgiven := @foldl_giving (attributes.map fun (key, value) => (key, f value)) { tag := tag }
      (by simpa [Function.comp_def] using hnodup) e.stack e.roots e.pending
    rw [Record.mapValues, Record.script, List.foldl_cons, List.foldl_append, List.foldl_append,
      List.foldl_cons, List.foldl_nil]
    change obey ((Record.scriptAll (Record.mapValuesAll f children)).foldl obey
      (List.foldl obey ⟨{ tag } :: e.stack, e.roots, e.pending⟩ _)) _ = _
    rw [hgiven, foldl_scriptAll f children hchildren, foldl_attach_open]
    exact obey_closing e _

/-- The statements of records make the records. -/
theorem foldl_scriptAll (f : AttributeValue → AttributeValue) : (rs : List Record) →
    (∀ x ∈ Record.preorderAll rs, (x.attributes.map Prod.fst).Nodup) → (e : Extraction) →
    (Record.scriptAll (Record.mapValuesAll f rs)).foldl obey e =
      (Record.mapValuesAll f rs).foldl attach e
  | [], _, _ => rfl
  | r :: rs, h, e => by
    rw [Record.preorderAll, List.forall_mem_append] at h
    rw [Record.mapValuesAll, Record.scriptAll, List.foldl_append, List.foldl_cons,
      foldl_script f r h.1, foldl_scriptAll f rs h.2]

end

end Extraction

theorem extractRecords_displayAll {rs : List Record}
    (h : ∀ x ∈ Record.preorderAll rs, x.WellFormed ∧ x.EndsStrings) :
    extractRecords (Record.displayAll rs) = Record.mapValuesAll AttributeValue.reread rs := by
  have hstatements := Record.statements_linesOfAll rs h 0 []
  rw [List.append_nil, lines_nil] at hstatements
  have hnodup : ∀ x ∈ Record.preorderAll rs, (x.attributes.map Prod.fst).Nodup :=
    fun x hx => (h x hx).1.nodup
  rw [extractRecords_eq, statementsOf, Record.displayAll, hstatements]
  change ((_ ++ []).foldl Extraction.obey {}).finish = _
  rw [List.append_nil, Extraction.foldl_scriptAll _ rs hnodup]
  rw [Extraction.foldl_attach_roots, List.append_nil]
  exact (Extraction.closeAll.eq_1 _).trans (List.reverse_reverse _)

namespace Record

/-- All values in the records. -/
def values (rs : List Record) : List AttributeValue :=
  (preorderAll rs).flatMap fun r => r.attributes.map Prod.snd

theorem values_cons (r : Record) (rs : List Record) :
    values (r :: rs) =
      r.attributes.map Prod.snd ++ (values r.children ++ values rs) := by
  rw [values, preorderAll, preorder_eq, List.flatMap_append, List.flatMap_cons, List.append_assoc]
  rfl

theorem map_values_eq_self_iff {f : AttributeValue → AttributeValue}
    {attributes : List (String × AttributeValue)} :
    attributes.map (fun (key, value) => (key, f value)) = attributes ↔
      ∀ v ∈ attributes.map Prod.snd, f v = v := by
  induction attributes with
  | nil => simp
  | cons a attributes ih =>
    obtain ⟨key, value⟩ := a
    rw [List.map_cons, List.cons.injEq, ih, List.map_cons, List.forall_mem_cons]
    simp

/-- Changing values leaves records as they are just when it leaves every value as it is. -/
theorem mapValuesAll_eq_self_iff (f : AttributeValue → AttributeValue) : (rs : List Record) →
    (mapValuesAll f rs = rs ↔ ∀ v ∈ values rs, f v = v)
  | [] => by simp [mapValuesAll, values, preorderAll]
  | ⟨tag, attributes, children⟩ :: rs => by
    rw [mapValuesAll, mapValues, List.cons.injEq, Record.mk.injEq, map_values_eq_self_iff,
      mapValuesAll_eq_self_iff f children, mapValuesAll_eq_self_iff f rs, values_cons,
      List.forall_mem_append, List.forall_mem_append]
    simp [and_assoc]

end Record

/-- Names are names, and numbers have 64 bits. -/
def Statement.WellFormed : Statement → Prop
  | .opening tag => MarkupLine.IsName tag.toList
  | .closing _ => True
  | .giving key value => MarkupLine.IsName key.toList ∧ ∀ n, value = .integer n → InRange n

namespace Pending

theorem completed_wellFormed {key : String} (h : MarkupLine.IsName key.toList)
    (value : List Char) : ∀ s ∈ Statement.completed key value, s.WellFormed := by
  intro s hs
  unfold Statement.completed at hs
  split at hs
  · rw [List.mem_singleton.mp hs]
    exact ⟨h, fun n hn => AttributeValue.inRange_of_read hn⟩
  · cases hs

theorem isName_of_read {line value : List Char} {key : String}
    (h : MarkupLine.read line = .assignment key value) : MarkupLine.IsName key.toList := by
  obtain ⟨_, _, -, -, hname, -⟩ :=
    MarkupLine.assignment?_eq_some.mp (MarkupLine.read_eq_assignment.mp h)
  exact hname

/-- The key of what is pending is a name. -/
def Keyed (p : Pending) : Prop :=
  ∀ key value, p = some (key, value) → MarkupLine.IsName key.toList

theorem unfinished_keyed {key : String} (h : MarkupLine.IsName key.toList) (value : List Char) :
    (unfinished key value).Keyed := by
  intro k v hk
  unfold unfinished at hk
  split at hk
  · cases hk
  · cases hk
    exact h

theorem line_wellFormed {p : Pending} (h : p.Keyed) (line : List Char) :
    (∀ s ∈ p.said line, s.WellFormed) ∧ (p.after line).Keyed := by
  cases p with
  | some pending =>
    have hkey := h pending.1 pending.2 rfl
    exact ⟨completed_wellFormed hkey _, unfinished_keyed hkey _⟩
  | none =>
    unfold said after
    dsimp only
    cases hread : MarkupLine.read line with
    | opening tag =>
      have hname := (MarkupLine.opening?_eq_some.mp (MarkupLine.read_eq_opening.mp hread)).1
      exact ⟨List.forall_mem_singleton.mpr hname, by intro _ _ hnone; cases hnone⟩
    | closing tag =>
      exact ⟨List.forall_mem_singleton.mpr trivial, by intro _ _ hnone; cases hnone⟩
    | assignment key value =>
      have hkey := isName_of_read hread
      exact ⟨completed_wellFormed hkey value, unfinished_keyed hkey value⟩
    | other => exact ⟨by simp, by intro _ _ hnone; cases hnone⟩

theorem statements_wellFormed {p : Pending} (h : p.Keyed) (ls : List (List Char)) :
    ∀ s ∈ p.statements ls, s.WellFormed := by
  induction ls generalizing p with
  | nil =>
    cases p with
    | none => simp [statements]
    | some pending =>
      rw [statements]
      exact List.forall_mem_singleton.mpr ⟨h pending.1 pending.2 rfl, by simp⟩
  | cons line ls ih =>
    obtain ⟨hsaid, hafter⟩ := line_wellFormed h line
    rw [statements, List.forall_mem_append]
    exact ⟨hsaid, ih hafter⟩

end Pending

theorem Nesting.mem_of_mem_attributes {n : Nat} {s : Nesting} {ss : List Statement}
    {key : String} {value : AttributeValue} (h : (key, value) ∈ s.attributes n ss) :
    .giving key value ∈ ss := by
  induction ss generalizing s with
  | nil => cases h
  | cons statement ss ih =>
    rw [attributes, List.mem_append] at h
    rcases h with h | h
    · cases statement with
      | giving k v =>
        rw [given] at h
        split at h
        · cases List.mem_singleton.mp h
          exact List.mem_cons_self
        · cases h
      | opening tag => cases h
      | closing tag => cases h
    · exact List.mem_cons_of_mem _ (ih h)

theorem Assoc.mem_of_mem_lastWins {α β : Type} [DecidableEq α] {entries : List (α × β)}
    {entry : α × β} (h : entry ∈ lastWins entries) : entry ∈ entries := by
  obtain ⟨key, -, hfound⟩ := List.mem_filterMap.mp h
  rw [List.findRev?_eq_find?_reverse] at hfound
  exact List.mem_reverse.mp (List.mem_of_find?_eq_some hfound)

/-- Every record that is extracted can be written. -/
theorem wellFormed_of_mem_extractRecords {text : String} {r : Record}
    (h : r ∈ Record.preorderAll (extractRecords text)) : r.WellFormed := by
  have hstatements : ∀ s ∈ statementsOf text, s.WellFormed :=
    Pending.statements_wellFormed (by intro _ _ hnone; cases hnone) _
  have halone : r.alone ∈ blocksOf (statementsOf text) := by
    rw [← map_alone_extractRecords]
    exact List.mem_map_of_mem h
  obtain ⟨⟨tag, n⟩, hmem, heq⟩ := List.mem_map.mp halone
  have htag : tag = r.tag := congrArg Record.tag heq
  have hattributes : Assoc.lastWins (Nesting.attributes n {} (statementsOf text)) = r.attributes :=
    congrArg Record.attributes heq
  have hgiven : ∀ key value, (key, value) ∈ r.attributes →
      Statement.WellFormed (.giving key value) := by
    intro key value hmem
    rw [← hattributes] at hmem
    exact hstatements _ (Nesting.mem_of_mem_attributes (Assoc.mem_of_mem_lastWins hmem))
  constructor
  · obtain ⟨statement, hstatement, hopened⟩ :=
      List.mem_filterMap.mp (List.fst_mem_of_mem_zipIdx hmem)
    cases statement with
    | opening t =>
      cases hopened
      rw [← htag]
      exact hstatements _ hstatement
    | closing t => cases hopened
    | giving key value => cases hopened
  · intro a ha
    exact (hgiven a.1 a.2 ha).1
  · rw [← hattributes, Assoc.keys_lastWins]
    exact Assoc.nodup_eraseDups _
  · intro key n hn
    exact (hgiven key _ hn).2 n rfl

/-- A string that is left open takes the line behind it for a part of it. -/
theorem extractRecords_leftOpen {tag key s : String} (htag : MarkupLine.IsName tag.toList)
    (hkey : MarkupLine.IsName key.toList) (hs : AttributeValue.LeftOpen s) :
    extractRecords (Record.displayAll [⟨tag, [(key, .string s)], []⟩]) =
      [⟨tag, [(key, .string (s ++ "\n[/" ++ tag ++ "]"))], []⟩] := by
  obtain ⟨hneeds, hopen⟩ := hs
  obtain ⟨-, hfeed, htrim, -⟩ := AttributeValue.of_not_needsQuotes hneeds
  let closing : List Char := '[' :: ('/' :: tag.toList ++ [']'])
  have htext : (Record.displayAll [⟨tag, [(key, .string s)], []⟩]).toList =
      '[' :: (tag.toList ++ [']']) ++ '\n' :: (List.replicate 1 '\t' ++
        (key.toList ++ '=' :: s.toList ++ '\n' :: (closing ++ ['\n']))) := by
    simp [Record.displayAll, Record.linesOfAll, Record.linesAt, AttributeValue.render, hneeds,
      closing]
  have hinert : ∀ c ∈ '\n' :: closing, Delimiter.isInert c := by
    intro c hc
    simp only [closing, List.mem_cons, List.mem_append, List.not_mem_nil, or_false] at hc
    rcases hc with rfl | rfl | (rfl | hc) | rfl
    · decide
    · decide
    · decide
    · exact MarkupLine.isInert_of_isNameChar (htag.chars c hc)
    · decide
  have hswallowed : Delimiter.closed (s.toList ++ '\n' :: closing) = false := by
    rw [Delimiter.closed_append_inert _ hinert, hopen]
  have hlast : lines (closing ++ ['\n']) = [closing] :=
    lines_ended (by simp [closing])
      (by simp [closing, htag.not_mem (show MarkupLine.isNameChar '\n' = false by decide)])
      (by simp [closing, htag.not_mem (show MarkupLine.isNameChar '\r' = false by decide)])
      (.inr rfl)
  have hstatements : statementsOf (Record.displayAll [⟨tag, [(key, .string s)], []⟩]) =
      [.opening tag, .giving key (.string (String.ofList (s.toList ++ '\n' :: closing)))] := by
    rw [statementsOf, htext, Pending.statements_opening htag, Record.statements_tabs,
      Pending.statements_begun hkey hfeed htrim, hlast]
    simp [Statement.completed, Pending.unfinished, Pending.statements, Pending.said, Pending.after,
      hopen, hswallowed]
  have hvalue : String.ofList (s.toList ++ '\n' :: closing) = s ++ "\n[/" ++ tag ++ "]" := by
    rw [← String.toList_inj]
    simp [closing]
  rw [extractRecords_eq, hstatements, hvalue]
  simp [Extraction.obey, Extraction.set, Extraction.finish, Extraction.closeAll,
    Record.setAttribute, Assoc.insert]

theorem extractRecords_again {text : String} (hopen : ∀ s,
      .string s ∈ Record.values (extractRecords text) → ¬ AttributeValue.LeftOpen s) :
    extractRecords (Record.displayAll (extractRecords text)) =
      Record.mapValuesAll AttributeValue.reread (extractRecords text) := by
  apply extractRecords_displayAll
  intro r hr
  refine ⟨wellFormed_of_mem_extractRecords hr, fun key s hs => hopen s ?_⟩
  exact List.mem_flatMap.mpr ⟨r, hr, List.mem_map.mpr ⟨(key, .string s), hs, rfl⟩⟩

theorem again_eq_self_iff {text : String} (hopen : ∀ s,
      .string s ∈ Record.values (extractRecords text) → ¬ AttributeValue.LeftOpen s) :
    extractRecords (Record.displayAll (extractRecords text)) = extractRecords text ↔
      ∀ s, .string s ∈ Record.values (extractRecords text) → AttributeValue.Legible s := by
  rw [extractRecords_again hopen, Record.mapValuesAll_eq_self_iff]
  constructor
  · intro h s hs
    exact AttributeValue.legible_iff.mpr ⟨hopen s hs, h _ hs⟩
  · intro h v hv
    cases v with
    | string s => exact (AttributeValue.legible_iff.mp (h s hv)).2
    | integer n => rfl
    | boolean b => rfl

theorem single_again_iff {text tag key s : String}
    (hsingle : extractRecords text = [⟨tag, [(key, .string s)], []⟩]) :
    extractRecords (Record.displayAll (extractRecords text)) = extractRecords text ↔
      AttributeValue.Legible s := by
  have hvalues : ∀ t, .string t ∈ Record.values (extractRecords text) ↔ t = s := by
    intro t
    rw [hsingle, Record.values_cons]
    simp [Record.values, Record.preorderAll]
  by_cases hs : AttributeValue.LeftOpen s
  · have hform : Record.WellFormed ⟨tag, [(key, .string s)], []⟩ :=
      @wellFormed_of_mem_extractRecords text _
        (by simp [hsingle, Record.preorderAll, Record.preorder])
    have hagain := extractRecords_leftOpen hform.tag (hform.keys _ List.mem_cons_self) hs
    rw [hsingle, hagain]
    constructor
    · intro heq
      have hvalue : s ++ "\n[/" ++ tag ++ "]" = s := by simpa using heq
      have hlength := congrArg (List.length ∘ String.toList) hvalue
      simp at hlength
    · intro hlegible
      exact absurd hs (AttributeValue.legible_iff.mp hlegible).1
  · have hopen : ∀ t, .string t ∈ Record.values (extractRecords text) →
        ¬ AttributeValue.LeftOpen t := by
      intro t ht
      rw [(hvalues t).mp ht]
      exact hs
    rw [again_eq_self_iff hopen]
    simp [hvalues]

/-- Records come back as they were, written and read again, if their strings are legible. If no
string is left open, all but the strings comes back in any case, and the records as a whole only if
every string is legible; so does a record with nothing but a string. -/
theorem display_reads_back_iff_legible (text : String) :
    let records := extractRecords text
    let again := extractRecords (Record.displayAll records)
    ((∀ s, .string s ∈ Record.values records → AttributeValue.Legible s) → again = records) ∧
    ((∀ s, .string s ∈ Record.values records → ¬ AttributeValue.LeftOpen s) →
      again = Record.mapValuesAll AttributeValue.reread records ∧
      (again = records ↔ ∀ s, .string s ∈ Record.values records → AttributeValue.Legible s)) ∧
    ∀ tag key s, records = [⟨tag, [(key, .string s)], []⟩] →
      (again = records ↔ AttributeValue.Legible s) := by
  intro records again
  refine ⟨fun hlegible => ?_, fun hopen => ?_, fun tag key s hsingle => single_again_iff hsingle⟩
  · have hopen : ∀ s, .string s ∈ Record.values records → ¬ AttributeValue.LeftOpen s :=
      fun s hs => (AttributeValue.legible_iff.mp (hlegible s hs)).1
    exact (again_eq_self_iff hopen).mpr hlegible
  · exact ⟨extractRecords_again hopen, again_eq_self_iff hopen⟩

/-- Nested blocks with strings that have to be quoted, a number, a boolean and strings that look
like markup. -/
theorem nested_strings_read_back :
    let text := "[a]\nk=\" \"\"x\"\" \n[b]\"\nn=-07\n[+c]\nf=no\nw=[/a]\nv=<<1>>\n[/a]\n[d]"
    let records := extractRecords text
    Record.values records = [.string " \"x\"\n[b]", .integer (-7), .boolean false,
      .string "[/a]", .string "1"] ∧
    (∀ s, .string s ∈ Record.values records → AttributeValue.Legible s) ∧
    extractRecords (Record.displayAll records) = records := by
  intro text records
  have hvalues : Record.values records = [.string " \"x\"\n[b]", .integer (-7), .boolean false,
      .string "[/a]", .string "1"] := by
    decide +kernel
  have hlegible : ∀ s, .string s ∈ Record.values records → AttributeValue.Legible s := by
    intro s hs
    rw [hvalues] at hs
    simp only [List.mem_cons, AttributeValue.string.injEq, reduceCtorEq, false_or,
      List.not_mem_nil, or_false] at hs
    rcases hs with rfl | rfl | rfl
    · decide +kernel
    · decide +kernel
    · decide +kernel
  exact ⟨hvalues, hlegible, (display_reads_back_iff_legible text).1 hlegible⟩

/-- A word that is read as a boolean, a raw string in quotes, a quoted string that begins a raw one,
and a carriage return in front of a line feed. -/
theorem strings_not_read_back :
    let records := fun value => extractRecords ("[t]\nk=" ++ value ++ "\n[/t]\n")
    let read := fun value => Record.values (records value)
    let again := fun value => Record.values (extractRecords (Record.displayAll (records value)))
    (read "\"yes\"" = [.string "yes"] ∧ again "\"yes\"" = [.boolean true]) ∧
    (read "\"<<a>>\"" = [.string "<<a>>"] ∧ again "\"<<a>>\"" = [.string "a"]) ∧
    (read "\"<<\"" = [.string "<<"] ∧ again "\"<<\"" = [.string "<<\n[/t]"]) ∧
    (read "\"a\nb\r\r\nc\"" = [.string "a\nb\r\nc"] ∧
      again "\"a\nb\r\r\nc\"" = [.string "a\nb\nc"]) := by
  decide +kernel

end CampaignMarkup
