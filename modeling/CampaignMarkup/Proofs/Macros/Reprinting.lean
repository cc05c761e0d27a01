import CampaignMarkup.Proofs.Assoc
import CampaignMarkup.Proofs.Document.Printed
import CampaignMarkup.Proofs.Preprocess.Inclusion
import CampaignMarkup.Proofs.Preprocess.Sites

/-! # Definitions print back to themselves

A definition that is printed and read again is the same definition: the name, the parameters, the
default texts in their order and the body. So it is with every definition that a run records from a
text whose only line break is the line feed. -/
namespace CampaignMarkup

open Token Lexeme

/-! ## Reading what is printed -/

namespace Definition

/-- The names are words, and the body and the default texts are made of stretches. -/
structure Printable (d : Definition) : Prop where
  names : ∀ name ∈ d.name :: d.params, Chars.Unbroken name.toList
  body : ∃ ws, Stretch false ws ∧ d.body = String.ofList (spell ws)
  defaults : ∀ p ∈ d.defaults, Chars.Unbroken p.1.toList ∧
    ∃ vs, Stretch true vs ∧ Capture.argValue (spell vs) = p.2

/-- The `#arg` blocks that default texts are printed as. -/
theorem exists_blocks {defaults : List (String × String)}
    (h : ∀ p ∈ defaults, Chars.Unbroken p.1.toList ∧
      ∃ vs, Stretch true vs ∧ Capture.argValue (spell vs) = p.2) :
    ∃ blocks : List (String × List Lexeme),
      (∀ q ∈ blocks, Chars.Unbroken q.1.toList ∧ Stretch true q.2 ∧ Lined q.2) ∧
      (blocks.map fun q => (q.1, Capture.argValue (spell q.2))) = defaults ∧
      spell (blocks.flatMap argBlock) = (String.join (defaults.map fun (key, value) =>
        "#arg " ++ key ++ "\n" ++ value ++ "\n#endarg\n")).toList := by
  induction defaults with
  | nil => exact ⟨[], by simp, rfl, rfl⟩
  | cons p defaults ih =>
    obtain ⟨⟨hname, vs, hvs, hvalue⟩, hdefaults⟩ := List.forall_mem_cons.mp h
    obtain ⟨blocks, hblocks, hvalues, hspell⟩ := ih hdefaults
    obtain ⟨us, hus⟩ := hvs.exists_prints
    rw [hvalue] at hus
    refine ⟨(p.1, us) :: blocks, ?_, ?_, ?_⟩
    · exact List.forall_mem_cons.mpr ⟨⟨hname, hus.stretch, .inr hus.ends⟩, hblocks⟩
    · rw [List.map_cons, hvalues, hus.value_eq]
    · rw [List.flatMap_cons, spell_append, hspell]
      simp [argBlock, directiveOf, lineFeed, hus.spelled, DirectiveKind.display,
        DirectiveKind.keyword]

theorem Printable.ofSource_display {d : Definition} (h : d.Printable) :
    ∃ b, Node.ofSource d.display = .ok [.define b] ∧ b.header.args = d.name :: d.params ∧
      b.body = d.body ∧ b.argDefaults = d.defaults := by
  obtain ⟨ws, hws, hbody⟩ := h.body
  obtain ⟨blocks, hblocks, hvalues, hspell⟩ := exists_blocks h.defaults
  have hdisplay : d.display.toList =
      spell ([directiveOf .define (d.name :: d.params), lineFeed] ++ printed blocks ws) := by
    rw [printed, spell_append, spell_append, hspell]
    simp [display, directiveOf, lineFeed, hbody, DirectiveKind.display, DirectiveKind.keyword]
  obtain ⟨rest, line, hread⟩ := Node.ofSource_printed hdisplay h.names hblocks hws
  rw [hvalues, ← hbody] at hread
  exact ⟨_, hread, rfl, rfl, rfl⟩

end Definition

/-! ## What a block makes -/

namespace DefineBlock

/-- The keywords of the `#define` and their default texts. -/
def keywords (block : DefineBlock) : List (String × String) :=
  block.header.args.tail.filterMap (Text.splitOnce '=')

/-- Every keyword has a name and a text that nothing opens in. -/
def PlainKeywords (block : DefineBlock) : Prop :=
  ∀ p ∈ block.keywords, p.1 ≠ "" ∧ ∀ c ∈ p.2.toList, c ∉ ['"', '<', '{', '#']

/-- The definition that the evaluation of a block puts into the table. -/
structure Makes (block : DefineBlock) (d : Definition) : Prop where
  name : block.header.args.head? = some d.name
  params : d.params = block.header.args.tail.filter fun p => (Text.splitOnce '=' p).isNone
  defaults : d.defaults = Assoc.insertAll block.argDefaults (Assoc.insertAll block.keywords [])
  body : d.body = block.body

namespace Makes

variable {block : DefineBlock} {d : Definition}

theorem args_eq (h : block.Makes d) : block.header.args = d.name :: block.header.args.tail :=
  List.eq_cons_of_mem_head? h.name

theorem nodup_defaults (h : block.Makes d) : (d.defaults.map Prod.fst).Nodup := by
  have hall : d.defaults = Assoc.insertAll (block.keywords ++ block.argDefaults) [] := by
    rw [h.defaults]
    exact List.foldl_append.symm
  rw [hall]
  exact Assoc.nodup_keys_insertAll _

/-- A block with the names and texts of a definition makes it again. -/
theorem same {b : DefineBlock} {d' : Definition} (h : block.Makes d) (h' : b.Makes d')
    (hargs : b.header.args = d.name :: d.params) (hbody : b.body = d.body)
    (hdefaults : b.argDefaults = d.defaults) :
    d'.name = d.name ∧ d'.params = d.params ∧ d'.defaults = d.defaults ∧ d'.body = d.body := by
  have hparams : ∀ p ∈ d.params, Text.splitOnce '=' p = none := by
    intro p hp
    rw [h.params] at hp
    simpa using (List.mem_filter.mp hp).2
  have hkeywords : b.keywords = [] := by
    rw [keywords, hargs, List.tail_cons, List.filterMap_eq_nil_iff]
    exact hparams
  refine ⟨?_, ?_, ?_, h'.body.trans hbody⟩
  · have hname := h'.name
    rw [hargs] at hname
    exact (Option.some.inj hname).symm
  · rw [h'.params, hargs, List.tail_cons, List.filter_eq_self]
    intro p hp
    rw [hparams p hp, Option.isNone_none]
  · rw [h'.defaults, hkeywords, hdefaults]
    exact Assoc.insertAll_of_nodup h.nodup_defaults

end Makes

theorem stretch_of_keyword {word : String} {p : String × String}
    (hword : Chars.Unbroken word.toList) (hsplit : Text.splitOnce '=' word = some p)
    (hkey : p.1 ≠ "") (hvalue : ∀ c ∈ p.2.toList, c ∉ ['"', '<', '{', '#']) :
    Chars.Unbroken p.1.toList ∧ ∃ vs, Stretch true vs ∧ Capture.argValue (spell vs) = p.2 := by
  obtain ⟨⟨key, value⟩, hcut, rfl⟩ := Option.map_eq_some_iff.mp hsplit
  obtain ⟨hcut, -⟩ := Chars.splitOnce_eq_some.mp hcut
  have hchars := hword.chars
  rw [hcut] at hchars
  constructor
  · constructor
    · simpa using hkey
    · intro c hc
      exact hchars c (by simp_all)
  · apply exists_stretch_of_plain
    intro c hc
    have hblank := hchars c (by simp_all)
    have hopen := hvalue c hc
    simp_all [isPlain]

/-- A block that is read from a text without other line breaks makes a definition that can be
printed. -/
theorem Makes.printable {block : DefineBlock} {d : Definition} (h : block.Makes d)
    {source : String} {ns : List Node} (hnodes : Node.ofSource source = .ok ns)
    (hmem : .define block ∈ ns) (hfeeds : ∀ c ∈ source.toList, Text.isLineBreak c → c = '\n')
    (hkeywords : block.PlainKeywords) : d.Printable := by
  obtain ⟨x, xs, before, g, zs, hsource, hpieces, hd, hgather, hbody, hdefaults⟩ :=
    Node.exists_gathered hnodes hmem
  have hargs := Directive.unbroken_of_mem_args (directive?_eq_some.mp hd).2
  have hsuffix : behindBreak xs <:+ x :: xs :=
    (behindBreak_suffix xs).trans (List.suffix_cons x xs)
  have hsound : Gathering.Sound {} (behindBreak xs) := by
    refine Gathering.sound_start (hpieces.suffix hsuffix) ?_
    obtain ⟨front, hfront⟩ := hsuffix
    intro c hc
    apply hfeeds c
    rw [hsource, ← hfront, spell_append]
    simp [hc]
  obtain ⟨hstretch, hvalues⟩ := hsound.gathered hgather
  constructor
  case names =>
    intro name hname
    apply hargs
    rw [h.args_eq]
    rcases List.mem_cons.mp hname with rfl | hparam
    · exact List.mem_cons_self
    · rw [h.params] at hparam
      exact List.mem_cons_of_mem _ (List.mem_of_mem_filter hparam)
  case body => exact ⟨g.body, hstretch, h.body.trans hbody⟩
  case defaults =>
    intro p hp
    rw [h.defaults] at hp
    rcases Assoc.mem_of_mem_insertAll hp with hblock | hp
    · rw [hdefaults] at hblock
      obtain ⟨q, hq, rfl⟩ := List.mem_map.mp hblock
      exact ⟨(hvalues q hq).1, q.2, (hvalues q hq).2, rfl⟩
    · have hkeyword := (Assoc.mem_of_mem_insertAll hp).resolve_right List.not_mem_nil
      obtain ⟨word, hword, hsplit⟩ := List.mem_filterMap.mp hkeyword
      obtain ⟨hkey, hvalue⟩ := hkeywords p hkeyword
      exact stretch_of_keyword (hargs word (List.mem_of_mem_tail hword)) hsplit hkey hvalue

end DefineBlock

namespace Evaluation

/-- A block with a name is put into the table. -/
theorem exists_define (e : Evaluation) (origin : Origin) {block : DefineBlock}
    (h : block.header.args ≠ []) :
    ∃ d, block.Makes d ∧ e.define origin block = proceed
      { e with session := { e.session with macros := e.session.macros.define d } } := by
  obtain ⟨name, words, hargs⟩ := List.exists_cons_of_ne_nil h
  unfold define
  rw [hargs]
  refine ⟨_, ⟨?_, ?_, ?_, rfl⟩, rfl⟩
  · rw [hargs]
    rfl
  · rw [hargs]
    rfl
  · rw [DefineBlock.keywords, hargs]
    rfl

end Evaluation

theorem Job.performNode_makes {env : Environment} {a : Activation} {e : Evaluation}
    {block : DefineBlock} {d : Definition}
    (h : (performNode env a e (.define block)).2.1.session.macros.rows =
      e.session.macros.rows ++ [d]) : block.Makes d := by
  simp only [performNode, Evaluation.node] at h
  split at h
  · by_cases hargs : block.header.args = []
    · simp [Evaluation.define, hargs, Evaluation.fail] at h
    · obtain ⟨d', hmakes, hdefine⟩ := e.exists_define a.origin hargs
      rw [hdefine] at h
      obtain rfl : d' = d := by simpa [Evaluation.proceed] using h
      exact hmakes
  · simp [Evaluation.proceed] at h

/-- The innermost text, an expansion or not, is at the block that makes the definition. -/
theorem Moment.Records.makes {env : Environment} {request : Request} {m : Moment}
    {texts : List OpenText} {d : Definition} (hrecords : m.Records env d)
    (hattended : Attended env request m texts) :
    ∃ text block token, texts.head? = some text ∧ text.At (.define block) token ∧
      block.Makes d := by
  obtain ⟨hnone, ⟨depth, origin, before, block, ns, rest, hjobs, -⟩, -⟩ := hrecords.defining
  obtain ⟨jobs, e, failure⟩ := m
  obtain rfl : failure = none := hnone
  obtain rfl : jobs = _ := hjobs
  have hmakes : block.Makes d := Job.performNode_makes hrecords.rows
  rcases hattended with ⟨haligned, -⟩ | ⟨hleave, -, -⟩
  · change Aligned env request _ e.session.conditionals _ texts at haligned
    generalize hactivation : (⟨depth, origin, before, .define block :: ns⟩ : Activation) = a
      at haligned
    generalize e.session.conditionals = c at haligned
    cases haligned with
    | @resume _ _ _ _ _ _ t _ hplace _ =>
      simp only [Activation.mk.injEq] at hactivation
      obtain ⟨token, hat⟩ := OpenText.exists_at hactivation.2.2.2.symm hplace.nodes
      exact ⟨t, block, token, rfl, hat, hmakes⟩
  · cases hleave

/-- A run with a session that was used in any way before leaves in the table what was there and what
it recorded at its moments. At every moment at which a definition is recorded, it is recorded from a
block of the innermost text (a file, one that was given, an expansion). If the only line break of
the text is the line feed, and the keywords of the `#define` are plain, what the definition is
printed as is read as one node, and the evaluation of that node records a definition with the same
name, parameters, default texts in the same order and body. -/
theorem definitions_print_back (uses : List Use) (env : Environment) (request : Request) :
    (∀ d ∈ (request.report env (.used uses)).session.macros.rows,
      d ∈ (Session.used uses).macros.rows ∨
        ∃ m texts, request.Shows env (.used uses) m texts ∧ m.Records env d) ∧
    ∀ m texts d, request.Shows env (.used uses) m texts → m.Records env d →
      ∃ text block token, texts.head? = some text ∧ text.At (.define block) token ∧
        ((∀ c ∈ text.source.toList, Text.isLineBreak c → c = '\n') → block.PlainKeywords →
          ∃ b, Node.ofSource d.display = .ok [.define b] ∧
            ∀ (e : Evaluation) (origin : Origin), ∃ d', e.define origin b = Evaluation.proceed
                { e with session := { e.session with macros := e.session.macros.define d' } } ∧
              d'.name = d.name ∧ d'.params = d.params ∧ d'.defaults = d.defaults ∧
              d'.body = d.body) := by
  obtain ⟨last, hlast⟩ := (request.reaches_outcome env (.used uses)).exists_shows
  constructor
  · intro d hd
    rw [request.report_eq, Report.ofOutcome_macros] at hd
    exact hlast.recorded d hd
  intro m texts d hshows hrecords
  have hattended := hshows.attended (Session.used_includes uses)
  obtain ⟨text, block, token, hhead, hat, hmakes⟩ := hrecords.makes hattended
  refine ⟨text, block, token, hhead, hat, ?_⟩
  intro hfeeds hkeywords
  obtain ⟨done, rest, -, -, -, hnodes, -⟩ := hat.place
  have hprintable := hmakes.printable hnodes (by simp) hfeeds hkeywords
  obtain ⟨b, hread, hargs, hbody, hdefaults⟩ := hprintable.ofSource_display
  refine ⟨b, hread, ?_⟩
  intro e origin
  obtain ⟨d', hmakes', hdefine⟩ := e.exists_define origin (hargs ▸ List.cons_ne_nil _ _)
  exact ⟨d', hdefine, hmakes.same hmakes' hargs hbody hdefaults⟩

/-- A keyword, a default text that shares its last line with the `#endarg`, a definition inside with
an `#endarg` that closes nothing, and text before the `#enddef`. -/
theorem nested_definition_prints_back :
    let source := "#define A x k=1\n#arg o\nu #endarg\n#define B\n#endarg\n#enddef\nb #enddef\n"
    let env : Environment := ⟨.empty ["w"], {}, {}⟩
    let request := Request.text none source
    ∃ m texts text d, request.Shows env (.used []) m texts ∧ m.Records env d ∧
      texts.head? = some text ∧ text.source = source ∧ (d.name, d.params) = ("A", ["x"]) ∧
      d.defaults = [("k", "1"), ("o", "u ")] ∧ d.body = "#define B\n#endarg\n#enddef\nb " ∧
      ∃ b, Node.ofSource d.display = .ok [.define b] ∧
        ∀ (e : Evaluation) (origin : Origin), ∃ d', e.define origin b = Evaluation.proceed
            { e with session := { e.session with macros := e.session.macros.define d' } } ∧
          d'.name = "A" ∧ d'.params = ["x"] ∧ d'.defaults = [("k", "1"), ("o", "u ")] ∧
          d'.body = "#define B\n#endarg\n#enddef\nb " := by
  intro source env request
  let m := (request.start env {}).next env
  have hshows : request.Shows env (.used []) m _ :=
    .step .start (by simp [request, Request.start])
  let keywordsOf : Node → List (String × String)
    | .define block => block.keywords
    | _ => []
  have htext : ((request.start env {}).track env request.texts).head?.map
      (fun t => (t.source, t.rest.head?.map keywordsOf)) = some (source, some [("k", "1")]) := by
    decide +kernel
  have hrows : (m.next env).evaluation.session.macros.rows.map
      (fun d => (d.name, d.params, d.defaults, d.body)) =
        [("A", ["x"], [("k", "1"), ("o", "u ")], "#define B\n#endarg\n#enddef\nb ")] := by
    decide +kernel
  obtain ⟨d, hd, hparts⟩ := List.map_eq_singleton_iff.mp hrows
  obtain ⟨hname, hparams, hdefaults, hbody⟩ :
      d.name = "A" ∧ d.params = ["x"] ∧ d.defaults = [("k", "1"), ("o", "u ")] ∧
        d.body = "#define B\n#endarg\n#enddef\nb " := by
    simpa using hparts
  have hnone : m.evaluation.session.macros.rows = [] := by decide +kernel
  have hrecords : m.Records env d := ⟨by decide +kernel, by rw [hnone, hd]; rfl⟩
  obtain ⟨text, block, token, hhead, hat, hprints⟩ :=
    (definitions_print_back [] env request).2 m _ d hshows hrecords
  rw [hhead, Option.map_some] at htext
  obtain ⟨hsource, hkeywords⟩ := Prod.mk.inj (Option.some.inj htext)
  obtain ⟨-, rest, -, -, hrest, -⟩ := hat.place
  have hfeeds : ∀ c ∈ text.source.toList, Text.isLineBreak c → c = '\n' := by
    have hall : source.toList.all fun c => !Text.isLineBreak c || c = '\n' := by decide +kernel
    rw [hsource]
    intro c hc hbreak
    have hc := List.all_eq_true.mp hall c hc
    rw [hbreak] at hc
    simpa using hc
  have hplain : block.PlainKeywords := by
    rw [hrest] at hkeywords
    have hone : block.keywords = [("k", "1")] := Option.some.inj hkeywords
    simp [DefineBlock.PlainKeywords, hone]
  obtain ⟨b, hread, hdefine⟩ := hprints hfeeds hplain
  rw [hname, hparams, hdefaults, hbody] at hdefine
  exact ⟨m, _, text, d, hshows, hrecords, hhead, hsource, by rw [hname, hparams], hdefaults, hbody,
    b, hread, hdefine⟩

end CampaignMarkup
