import CampaignMarkup.Proofs.Assoc
import CampaignMarkup.Proofs.Record.Statements
import CampaignMarkup.Record.Table

/-! # No block is lost

However closing tags are missing, misplaced or too many, the records of a text read from outer to
inner are the blocks that its lines open, in the order of the lines. Closing a block moves it below
the block around it, where it stood in that order already, so that only the attributes remain to be
followed: each goes to the block that is innermost where it is completed. -/
namespace CampaignMarkup

namespace Record

mutual

/-- The record and everything below it, outer before inner. -/
def preorder : Record → List Record
  | ⟨tag, attributes, children⟩ => ⟨tag, attributes, children⟩ :: preorderAll children

def preorderAll : List Record → List Record
  | [] => []
  | r :: rs => r.preorder ++ preorderAll rs

end

/-- The record without the blocks inside it. -/
def alone (r : Record) : Record :=
  { r with children := [] }

theorem preorder_eq (r : Record) : r.preorder = r :: preorderAll r.children := by
  cases r
  rw [preorder]

theorem preorderAll_append (rs ss : List Record) :
    preorderAll (rs ++ ss) = preorderAll rs ++ preorderAll ss := by
  induction rs with
  | nil => rfl
  | cons r rs ih => rw [List.cons_append, preorderAll, preorderAll, ih, List.append_assoc]

theorem preorderAll_singleton (r : Record) : preorderAll [r] = r.preorder := by
  rw [preorderAll, preorderAll, List.append_nil]

/-- A block that is closed comes behind all that its parent holds. -/
theorem map_alone_addChild (parent child : Record) :
    (parent.addChild child).preorder.map alone =
      parent.preorder.map alone ++ child.preorder.map alone := by
  rw [preorder_eq, preorder_eq parent, addChild, preorderAll_append, preorderAll_singleton]
  simp [alone]

mutual

theorem findAll_eq_filter (tag : String) :
    (r : Record) → r.findAll tag = r.preorder.filter (·.tag = tag)
  | ⟨t, attributes, children⟩ => by
    rw [findAll, preorder, List.filter_cons, findAllIn_eq_filter tag children]
    by_cases h : t = tag <;> simp [h]

/-- Searching for a tag is going through all records and keeping those that have it. -/
theorem findAllIn_eq_filter (tag : String) :
    (rs : List Record) → findAllIn tag rs = (preorderAll rs).filter (·.tag = tag)
  | [] => rfl
  | r :: rs => by
    rw [findAllIn, preorderAll, List.filter_append, findAll_eq_filter tag r,
      findAllIn_eq_filter tag rs]

end

end Record

/-- The blocks that statements have left open, without what they hold. -/
structure Nesting where
  /-- How many blocks have been opened. -/
  opened : Nat := 0
  /-- The open blocks, innermost first: how many were opened before each, and its tag. -/
  within : List (Nat × String) := []
deriving DecidableEq, Repr, Inhabited

namespace Nesting

/-- A closing tag closes the innermost open block of that tag with all blocks inside it, and means
nothing if there is none. -/
def read (s : Nesting) : Statement → Nesting
  | .opening tag => ⟨s.opened + 1, (s.opened, tag) :: s.within⟩
  | .closing tag =>
    if s.within.any (·.2 = tag) then { s with within := (s.within.dropWhile (·.2 ≠ tag)).tail }
    else s
  | .giving _ _ => s

/-- The attribute that a statement gives to block `n`. -/
def given (n : Nat) (s : Nesting) : Statement → List (String × AttributeValue)
  | .giving key value => if s.within.head?.map Prod.fst = some n then [(key, value)] else []
  | .opening _ | .closing _ => []

/-- Everything that is given to block `n`, in order. -/
def attributes (n : Nat) (s : Nesting) : List Statement → List (String × AttributeValue)
  | [] => []
  | statement :: rest => s.given n statement ++ (s.read statement).attributes n rest

theorem attributes_append (n : Nat) (s : Nesting) (ss ts : List Statement) :
    s.attributes n (ss ++ ts) = s.attributes n ss ++ (ss.foldl read s).attributes n ts := by
  induction ss generalizing s with
  | nil => rfl
  | cons statement ss ih =>
    rw [List.cons_append, attributes, attributes, ih, List.foldl_cons, List.append_assoc]

theorem attributes_concat (n : Nat) (s : Nesting) (ss : List Statement) (statement : Statement) :
    s.attributes n (ss ++ [statement]) =
      s.attributes n ss ++ (ss.foldl read s).given n statement := by
  rw [attributes_append, attributes, attributes, List.append_nil]

theorem foldl_read_opened (ss : List Statement) (s : Nesting) :
    (ss.foldl read s).opened = s.opened + (ss.filterMap Statement.tagOpened?).length := by
  induction ss generalizing s with
  | nil => rfl
  | cons statement ss ih =>
    rw [List.foldl_cons, ih]
    cases statement with
    | opening tag =>
      change s.opened + 1 + _ = s.opened + (_ + 1)
      omega
    | closing tag =>
      rw [read]
      split <;> rfl
    | giving key value => rfl

/-- Every open block has been opened. -/
def Sound (s : Nesting) : Prop :=
  ∀ b ∈ s.within, b.1 < s.opened

theorem Sound.read {s : Nesting} (h : s.Sound) (statement : Statement) :
    (s.read statement).Sound := by
  cases statement with
  | opening tag =>
    intro b hb
    rcases List.mem_cons.mp hb with rfl | hb
    · exact Nat.lt_succ_self _
    · exact Nat.lt_succ_of_lt (h b hb)
  | closing tag =>
    rw [Nesting.read]
    split
    · intro b hb
      exact h b ((List.dropWhile_sublist _).subset (List.mem_of_mem_tail hb))
    · exact h
  | giving key value => exact h

/-- A block that is not open yet has no attributes. -/
theorem attributes_of_unopened {n : Nat} {s : Nesting} (h : s.Sound) {ss : List Statement}
    (hn : s.opened + (ss.filterMap Statement.tagOpened?).length ≤ n) :
    s.attributes n ss = [] := by
  induction ss generalizing s with
  | nil => rfl
  | cons statement ss ih =>
    have hopened := foldl_read_opened [statement] s
    have hsum : (s.read statement).opened + (ss.filterMap Statement.tagOpened?).length ≤ n := by
      have hlen : ((statement :: ss).filterMap Statement.tagOpened?).length =
          ([statement].filterMap Statement.tagOpened?).length +
            (ss.filterMap Statement.tagOpened?).length := by
        rw [← List.length_append, ← List.filterMap_append]
        rfl
      simp only [List.foldl_cons, List.foldl_nil] at hopened
      omega
    rw [attributes, ih (h.read statement) hsum, List.append_nil]
    cases statement with
    | opening tag => rfl
    | closing tag => rfl
    | giving key value =>
      rw [given, if_neg]
      intro hhead
      obtain ⟨b, hb, rfl⟩ := Option.map_eq_some_iff.mp hhead
      have hlt := h b (List.mem_of_mem_head? hb)
      omega

end Nesting

/-- The blocks that statements open, in order, with the attributes that are given to each. -/
def blocksOf (ss : List Statement) : List Record :=
  (ss.filterMap Statement.tagOpened?).zipIdx.map fun (tag, n) =>
    { tag, attributes := Assoc.lastWins (Nesting.attributes n {} ss) }

theorem getElem?_blocksOf (ss : List Statement) (n : Nat) :
    (blocksOf ss)[n]? = (ss.filterMap Statement.tagOpened?)[n]?.map fun tag =>
      { tag, attributes := Assoc.lastWins (Nesting.attributes n {} ss) } := by
  simp [blocksOf, List.getElem?_zipIdx, Function.comp_def]

theorem blocksOf_opening (ss : List Statement) (tag : String) :
    blocksOf (ss ++ [.opening tag]) = blocksOf ss ++ [{ tag := tag }] := by
  apply List.ext_getElem?
  intro n
  have htags : (ss ++ [Statement.opening tag]).filterMap Statement.tagOpened? =
      ss.filterMap Statement.tagOpened? ++ [tag] := by
    rw [List.filterMap_append]
    rfl
  have hgiven : Nesting.attributes n {} (ss ++ [.opening tag]) = Nesting.attributes n {} ss := by
    rw [Nesting.attributes_concat, Nesting.given, List.append_nil]
  have hlen : (blocksOf ss).length = (ss.filterMap Statement.tagOpened?).length := by
    simp [blocksOf]
  rw [getElem?_blocksOf, htags, hgiven, List.getElem?_append, List.getElem?_append, hlen]
  split
  · rw [getElem?_blocksOf]
  · next hn =>
    have hnone : Nesting.attributes n {} ss = [] :=
      Nesting.attributes_of_unopened (by intro b hb; cases hb) (by simpa using hn)
    rw [hnone]
    cases n - (ss.filterMap Statement.tagOpened?).length <;> rfl

theorem blocksOf_closing (ss : List Statement) (tag : String) :
    blocksOf (ss ++ [.closing tag]) = blocksOf ss := by
  apply List.ext_getElem?
  intro n
  have htags : (ss ++ [Statement.closing tag]).filterMap Statement.tagOpened? =
      ss.filterMap Statement.tagOpened? := by
    rw [List.filterMap_append]
    exact List.append_nil _
  rw [getElem?_blocksOf, getElem?_blocksOf, htags, Nesting.attributes_concat, Nesting.given,
    List.append_nil]

/-- An attribute goes to the innermost block and to no other. -/
theorem getElem?_blocksOf_giving (ss : List Statement) (key : String) (value : AttributeValue)
    (n : Nat) :
    (blocksOf (ss ++ [.giving key value]))[n]? = (blocksOf ss)[n]?.map fun block =>
      if (ss.foldl Nesting.read {}).within.head?.map Prod.fst = some n then
        block.setAttribute key value
      else block := by
  have htags : (ss ++ [Statement.giving key value]).filterMap Statement.tagOpened? =
      ss.filterMap Statement.tagOpened? := by
    rw [List.filterMap_append]
    exact List.append_nil _
  rw [getElem?_blocksOf, getElem?_blocksOf, htags, Nesting.attributes_concat, Nesting.given,
    Option.map_map]
  congr 1
  funext tag
  by_cases hn : (ss.foldl Nesting.read {}).within.head?.map Prod.fst = some n
  · simp [hn, Record.setAttribute, Assoc.lastWins_concat]
  · simp [hn]

theorem length_blocksOf (ss : List Statement) :
    (blocksOf ss).length = (ss.foldl Nesting.read {}).opened := by
  rw [Nesting.foldl_read_opened]
  simp [blocksOf]

namespace Extraction

/-- The blocks opened so far, each without what is inside it: those of the records that are closed
at the end, and then those of the open blocks from the outermost in. -/
def heads (roots : List Record) : List Record → List Record
  | [] => (Record.preorderAll roots.reverse).map Record.alone
  | node :: outer => heads roots outer ++ node.preorder.map Record.alone

theorem heads_cons (roots : List Record) (node : Record) (outer : List Record) :
    heads roots (node :: outer) =
      heads roots outer ++ node.alone :: (Record.preorderAll node.children).map Record.alone := by
  rw [heads, Record.preorder_eq, List.map_cons]

theorem heads_addChild (roots : List Record) (node parent : Record) (outer : List Record) :
    heads roots (parent.addChild node :: outer) = heads roots (node :: parent :: outer) := by
  rw [heads, heads, heads, Record.map_alone_addChild, List.append_assoc]

theorem heads_root (roots : List Record) (node : Record) :
    heads (node :: roots) [] = heads roots [node] := by
  rw [heads, heads, heads, List.reverse_cons, Record.preorderAll_append, Record.preorderAll_singleton,
    List.map_append]

theorem heads_closeAll (stack roots : List Record) :
    (Record.preorderAll (closeAll stack roots)).map Record.alone = heads roots stack := by
  fun_induction closeAll stack roots with
  | case1 => rfl
  | case2 node => exact heads_root roots node
  | case3 node parent outer ih => rw [ih, heads_addChild]

/-- The open blocks are those of the nesting, each behind as many blocks as were opened before
it. -/
inductive Located (roots : List Record) : List Record → List (Nat × String) → Prop where
  | nil : Located roots [] []
  | cons {node outer within} : Located roots outer within →
      Located roots (node :: outer) (((heads roots outer).length, node.tag) :: within)

theorem Located.any_eq {roots stack : List Record} {within : List (Nat × String)}
    (h : Located roots stack within) (tag : String) :
    stack.any (·.tag = tag) = within.any (·.2 = tag) := by
  induction h with
  | nil => rfl
  | cons _ ih => rw [List.any_cons, List.any_cons, ih]

theorem Located.eq_nil {roots : List Record} {within : List (Nat × String)}
    (h : Located roots [] within) : within = [] := by
  cases h
  rfl

theorem Located.innermost {roots outer : List Record} {node : Record}
    {within : List (Nat × String)} (h : Located roots (node :: outer) within) :
    within.head?.map Prod.fst = some (heads roots outer).length := by
  cases h
  rfl

theorem Located.set {roots outer : List Record} {node : Record} {within : List (Nat × String)}
    (h : Located roots (node :: outer) within) (key : String) (value : AttributeValue) :
    Located roots (node.setAttribute key value :: outer) within := by
  cases h with
  | cons h => exact .cons h

theorem Located.addChild {roots outer : List Record} {node parent : Record}
    {within : List (Nat × String)} (h : Located roots (parent :: outer) within) :
    Located roots (parent.addChild node :: outer) within := by
  cases h with
  | cons h => exact .cons h

/-- Closing blocks moves them within the order of the text, in which nothing changes. -/
theorem closeThrough_keeps {tag : String} {stack roots : List Record}
    {within : List (Nat × String)} (h : Located roots stack within)
    (hany : stack.any (·.tag = tag)) :
    heads (closeThrough tag stack roots).2 (closeThrough tag stack roots).1 = heads roots stack ∧
      Located (closeThrough tag stack roots).2 (closeThrough tag stack roots).1
        (within.dropWhile (·.2 ≠ tag)).tail := by
  fun_induction closeThrough tag stack roots generalizing within with
  | case1 => cases hany
  | case2 node =>
    refine ⟨heads_root roots node, ?_⟩
    cases h with
    | cons h =>
      cases h with
      | nil =>
        have htag : node.tag = tag := by simpa using hany
        simpa [htag] using Located.nil
  | case3 node parent outer htag =>
    refine ⟨heads_addChild roots node parent outer, ?_⟩
    cases h with
    | cons h =>
      rw [List.dropWhile_cons_of_neg (by simp [htag])]
      exact h.addChild
  | case4 node parent outer htag ih =>
    cases h with
    | cons h =>
      have hany : (parent.addChild node :: outer).any (·.tag = tag) := by
        simpa [htag, Record.addChild] using hany
      rw [List.dropWhile_cons_of_pos (by simp [htag])]
      obtain ⟨hheads, hlocated⟩ := ih h.addChild hany
      exact ⟨hheads.trans (heads_addChild roots node parent outer), hlocated⟩

/-- What extraction has made of the statements it has carried out. -/
structure Follows (ss : List Statement) (e : Extraction) : Prop where
  blocks : heads e.roots e.stack = blocksOf ss
  located : Located e.roots e.stack (ss.foldl Nesting.read {}).within

variable {ss : List Statement} {e : Extraction}

theorem Follows.opening (h : e.Follows ss) (tag : String) :
    (e.obey (.opening tag)).Follows (ss ++ [.opening tag]) := by
  constructor
  · rw [blocksOf_opening, ← h.blocks]
    rfl
  · have hopened : (ss.foldl Nesting.read {}).opened = (heads e.roots e.stack).length := by
      rw [h.blocks, length_blocksOf]
    rw [List.foldl_append]
    change Located e.roots ({ tag } :: e.stack) ((_, tag) :: _)
    rw [hopened]
    exact .cons h.located

theorem Follows.closing (h : e.Follows ss) (tag : String) :
    (e.obey (.closing tag)).Follows (ss ++ [.closing tag]) := by
  have hany := h.located.any_eq tag
  rw [obey, close]
  by_cases hopen : e.stack.any (·.tag = tag)
  · obtain ⟨hheads, hlocated⟩ := closeThrough_keeps h.located hopen
    rw [if_pos hopen]
    constructor
    · rw [blocksOf_closing, ← h.blocks]
      exact hheads
    · rw [List.foldl_append, List.foldl_cons, List.foldl_nil, Nesting.read,
        if_pos (hany ▸ hopen)]
      exact hlocated
  · rw [if_neg hopen]
    constructor
    · rw [blocksOf_closing, h.blocks]
    · rw [List.foldl_append, List.foldl_cons, List.foldl_nil, Nesting.read,
        if_neg (hany ▸ hopen)]
      exact h.located

theorem Follows.giving (h : e.Follows ss) (key : String) (value : AttributeValue) :
    (e.obey (.giving key value)).Follows (ss ++ [.giving key value]) := by
  have hwithin : ((ss ++ [Statement.giving key value]).foldl Nesting.read {}).within =
      (ss.foldl Nesting.read {}).within := by
    rw [List.foldl_append]
    rfl
  obtain ⟨hblocks, hlocated⟩ := h
  obtain ⟨stack, roots, p⟩ := e
  cases stack with
  | nil =>
    refine ⟨?_, hwithin ▸ hlocated⟩
    apply List.ext_getElem?
    intro n
    rw [getElem?_blocksOf_giving, hlocated.eq_nil, ← hblocks]
    simp [obey, set]
  | cons node outer =>
    refine ⟨?_, hwithin ▸ hlocated.set key value⟩
    apply List.ext_getElem?
    intro n
    rw [getElem?_blocksOf_giving, hlocated.innermost, ← hblocks]
    change (heads roots (node.setAttribute key value :: outer))[n]? = _
    rw [heads_cons, heads_cons, List.getElem?_append, List.getElem?_append]
    by_cases hn : n < (heads roots outer).length
    · have hne : (heads roots outer).length ≠ n := by omega
      simp [hn, hne]
    · rw [if_neg hn, if_neg hn]
      obtain ⟨k, rfl⟩ := Nat.exists_eq_add_of_le (Nat.not_lt.mp hn)
      cases k with
      | zero => simp [Record.alone, Record.setAttribute]
      | succ k => simp [Record.setAttribute, Function.comp_def]

/-- What every statement keeps holds of all of them together. -/
theorem follows_foldl (ss : List Statement) : (ss.foldl obey {}).Follows ss := by
  induction ss using List.reverseRecOn with
  | nil => exact ⟨rfl, .nil⟩
  | append_singleton ss statement ih =>
    rw [List.foldl_append, List.foldl_cons, List.foldl_nil]
    cases statement with
    | opening tag => exact ih.opening tag
    | closing tag => exact ih.closing tag
    | giving key value => exact ih.giving key value

end Extraction

theorem map_alone_extractRecords (text : String) :
    (Record.preorderAll (extractRecords text)).map Record.alone =
      blocksOf (statementsOf text) := by
  have hfollows := Extraction.follows_foldl (statementsOf text)
  have hpending := Extraction.foldl_obey_pending (statementsOf text) {}
  rw [extractRecords_eq, Extraction.finish, hpending, ← hfollows.blocks,
    ← Extraction.heads_closeAll]

theorem tags_extractRecords (text : String) :
    (Record.preorderAll (extractRecords text)).map Record.tag =
      (readingsOf text).filterMap Pending.tagRead? := by
  have htag : Record.tag = Record.tag ∘ Record.alone := rfl
  have hread : (statementsOf text).filterMap Statement.tagOpened? =
      (readingsOf text).filterMap Pending.tagRead? := by
    rw [readingsOf_eq]
    exact Pending.filterMap_statements (fun _ _ => rfl) none _
  rw [htag, ← List.map_map, map_alone_extractRecords, blocksOf, List.map_map, ← hread]
  exact List.zipIdx_map_fst _ _

namespace Record

theorem findAllIn_eq_flatMap (tag : String) (rs : List Record) :
    findAllIn tag rs = rs.flatMap (findAll tag) := by
  induction rs with
  | nil => rfl
  | cons r rs ih => rw [findAllIn, List.flatMap_cons, ih]

end Record

theorem filter_blocksOf (text : String) (tag : String) :
    ((Record.preorderAll (extractRecords text)).filter (·.tag = tag)).map Record.alone =
      (blocksOf (statementsOf text)).filter (·.tag = tag) := by
  rw [← map_alone_extractRecords, List.filter_map]
  rfl

theorem count_tagRead? (readings : List (Option MarkupLine)) (tag : String) :
    (readings.filterMap Pending.tagRead?).count tag = readings.count (some (.opening tag)) := by
  rw [List.count_filterMap, List.count]
  apply List.countP_congr
  intro reading _
  rcases reading with _ | (_ | _ | _ | _) <;>
    simp [Pending.tagRead?, MarkupLine.statement?, Statement.tagOpened?]

theorem length_filter_tag (text : String) (tag : String) :
    ((Record.preorderAll (extractRecords text)).filter (·.tag = tag)).length =
      (readingsOf text).count (some (.opening tag)) := by
  rw [← count_tagRead?, ← tags_extractRecords, List.count_eq_countP, List.countP_map,
    List.countP_eq_length_filter]
  rfl

/-- The records of a text are the blocks that its lines open, in the order of the lines: those that
read `[tag]` or `[+tag]` and continue no value. Each has the attributes that were completed while it
was innermost, and a search for a tag, or a table of it, has the blocks of that tag in that order.
Lines that read `[/tag]` close blocks, and those with a name in front of their first equals sign
set attributes. -/
theorem extraction_keeps_every_block (text : String) :
    (∀ line tag, MarkupLine.read line = .opening tag ↔
      MarkupLine.IsName tag.toList ∧ (Chars.trim line = '[' :: (tag.toList ++ [']']) ∨
        Chars.trim line = '[' :: '+' :: (tag.toList ++ [']']))) ∧
    (∀ line tag, MarkupLine.read line = .closing tag ↔
      MarkupLine.IsName tag.toList ∧ Chars.trim line = '[' :: '/' :: (tag.toList ++ [']'])) ∧
    (∀ line key value, MarkupLine.read line = .assignment key value ↔
      ∃ name raw, Chars.trim line = name ++ '=' :: raw ∧ '=' ∉ name ∧
        MarkupLine.IsName key.toList ∧ Chars.trim name = key.toList ∧
        value = Chars.trimStart raw) ∧
    (Record.preorderAll (extractRecords text)).map Record.tag =
      (readingsOf text).filterMap Pending.tagRead? ∧
    (Record.preorderAll (extractRecords text)).map Record.alone = blocksOf (statementsOf text) ∧
    ∀ tag, (extractRecords text).flatMap (Record.findAll tag) =
        (Record.preorderAll (extractRecords text)).filter (·.tag = tag) ∧
      ∀ columns, (RecordTable.project (extractRecords text) tag columns).rows =
          ((blocksOf (statementsOf text)).filter (·.tag = tag)).map (RecordTable.cells columns) ∧
        (RecordTable.project (extractRecords text) tag columns).rows.length =
          (readingsOf text).count (some (.opening tag)) := by
  refine ⟨fun line tag => ?_, fun line tag => ?_, fun line key value => ?_,
    tags_extractRecords text, map_alone_extractRecords text,
    fun tag => ⟨?_, fun columns => ⟨?_, ?_⟩⟩⟩
  · rw [MarkupLine.read_eq_opening, MarkupLine.opening?_eq_some]
  · rw [MarkupLine.read_eq_closing, MarkupLine.closing?_eq_some]
  · rw [MarkupLine.read_eq_assignment, MarkupLine.assignment?_eq_some]
  · rw [← Record.findAllIn_eq_flatMap, Record.findAllIn_eq_filter]
  · rw [← filter_blocksOf, List.map_map, RecordTable.project, Record.findAllIn_eq_filter]
    rfl
  · rw [RecordTable.project, List.length_map, Record.findAllIn_eq_filter, length_filter_tag]

/-- Blocks closed from outside, a stray closing tag and a block that is never closed. -/
example :
    (blocksOf (statementsOf "[a]\n[b]\nk=1\nk=2\n[/a]\n[/c]\n[+d]\nv=\"[e]\n")).map
        (fun r => (r.tag, r.attributes)) =
      [("a", []), ("b", [("k", .integer 2)]), ("d", [("v", .string "\"[e]")])] := by
  decide +kernel

end CampaignMarkup
