import CampaignMarkup.Proofs.Preprocess.Emission
import CampaignMarkup.Proofs.Text.Lines

/-! # Which binary paths a run knows

The recogniser of `[binary_path]` blocks is shown a line when a line feed ends it. So a run knows
afterwards the paths of all lines that a line feed ends, each once and in order, and has never seen
the end of a text that breaks off within its last line. -/
namespace CampaignMarkup

open Chars

namespace BinaryPathTracker

/-- The recogniser behind these lines. -/
def after (t : BinaryPathTracker) (lines : List (List Char)) : BinaryPathTracker :=
  lines.foldl (fun t line => (t.feed line).1) t

/-- The paths that come out of these lines. -/
def yields (t : BinaryPathTracker) : List (List Char) → List Path
  | [] => []
  | line :: rest => (t.feed line).2.toList ++ (t.feed line).1.yields rest

theorem yields_append (t : BinaryPathTracker) (ls ms : List (List Char)) :
    t.yields (ls ++ ms) = t.yields ls ++ (t.after ls).yields ms := by
  induction ls generalizing t with
  | nil => rfl
  | cons line ls ih =>
    rw [List.cons_append, yields, yields, ih, List.append_assoc]
    rfl

theorem yields_singleton (t : BinaryPathTracker) (line : List Char) :
    t.yields [line] = (t.feed line).2.toList :=
  List.append_nil _

/-- Only what stands between the blanks of a line counts. -/
theorem feed_dropEnding_return (t : BinaryPathTracker) (line : List Char) :
    t.feed (dropEnding ['\r'] line) = t.feed line := by
  unfold feed
  rw [trim_dropEnding_return]

theorem yields_map_dropEnding (t : BinaryPathTracker) (ls : List (List Char)) :
    t.yields (ls.map (dropEnding ['\r'])) = t.yields ls := by
  induction ls generalizing t with
  | nil => rfl
  | cons line ls ih => rw [List.map_cons, yields, yields, feed_dropEnding_return, ih]

theorem after_map_dropEnding (t : BinaryPathTracker) (ls : List (List Char)) :
    t.after (ls.map (dropEnding ['\r'])) = t.after ls := by
  induction ls generalizing t with
  | nil => rfl
  | cons line ls ih =>
    have hcons : ∀ l ls, t.after (l :: ls) = (t.feed l).1.after ls := fun _ _ => rfl
    rw [List.map_cons, hcons, hcons, feed_dropEnding_return, ih]

theorem feed_nil (t : BinaryPathTracker) : (t.feed []).2 = none := by
  obtain ⟨inside, nested, path⟩ := t
  cases inside with
  | false => rfl
  | true => cases nested <;> rfl

/-- The lines of a text bring what the ended ones bring and then what the last one does. -/
theorem yields_lines (t : BinaryPathTracker) (cs : List Char) :
    t.yields (lines cs) =
      t.yields (endedLines cs) ++ ((t.after (endedLines cs)).feed (unended cs)).2.toList := by
  rw [lines_eq_ended, yields_append, yields_map_dropEnding, after_map_dropEnding]
  by_cases h : unended cs = []
  · rw [if_pos h, h, feed_nil]
    rfl
  · rw [if_neg h, yields_singleton]

end BinaryPathTracker

namespace Output

theorem foldl_put_of_not_mem {cs : List Char} (h : '\n' ∉ cs) (o : Output) :
    (cs.foldl put o).line = cs.reverse ++ o.line ∧ (cs.foldl put o).tracker = o.tracker ∧
      (cs.foldl put o).found = o.found := by
  induction cs generalizing o with
  | nil => exact ⟨rfl, rfl, rfl⟩
  | cons c cs ih =>
    obtain ⟨hc, hcs⟩ : '\n' ≠ c ∧ '\n' ∉ cs := by simpa using h
    have hput : o.put c = { o with text := o.text.push c, line := c :: o.line } :=
      if_neg (Ne.symm hc)
    obtain ⟨hline, htracker, hfound⟩ := ih hcs (o.put c)
    rw [List.foldl_cons, hline, htracker, hfound, hput]
    exact ⟨by simp, rfl, rfl⟩

/-- A piece goes on in the line that is not ended. The lines that end in it are shown to the
recogniser in their order, however many there are, and what stands behind them waits. -/
theorem foldl_put (cs : List Char) {o : Output} (h : '\n' ∉ o.line) :
    (cs.foldl put o).line.reverse = unended (o.line.reverse ++ cs) ∧
      (cs.foldl put o).tracker = o.tracker.after (endedLines (o.line.reverse ++ cs)) ∧
      (cs.foldl put o).found =
        o.found ++ o.tracker.yields (endedLines (o.line.reverse ++ cs)) := by
  induction cs using line_induction generalizing o with
  | last cs hcs =>
    obtain ⟨hline, htracker, hfound⟩ := foldl_put_of_not_mem hcs o
    have hwhole : '\n' ∉ o.line.reverse ++ cs := by simp [h, hcs]
    rw [hline, htracker, hfound, endedLines_of_not_mem hwhole, unended_of_not_mem hwhole]
    exact ⟨by simp, rfl, (List.append_nil _).symm⟩
  | cons line rest hline ih =>
    obtain ⟨hwritten, htracker, hfound⟩ := foldl_put_of_not_mem hline o
    have hwhole : '\n' ∉ o.line.reverse ++ line := by simp [h, hline]
    have hfed : ∀ o : Output, o.put '\n' =
        ⟨o.text.push '\n', [], (o.tracker.feed o.line.reverse).1,
          o.found ++ (o.tracker.feed o.line.reverse).2.toList⟩ := fun _ => rfl
    have hshown : (line.foldl put o).line.reverse = o.line.reverse ++ line := by
      rw [hwritten, List.reverse_append, List.reverse_reverse]
    obtain ⟨hend, hafter, hyields⟩ := ih (o := (line.foldl put o).put '\n') List.not_mem_nil
    rw [List.foldl_append, List.foldl_cons, hend, hafter, hyields, ← List.append_assoc,
      endedLines_append hwhole, unended_append, hfed, hshown, htracker, hfound]
    refine ⟨rfl, rfl, ?_⟩
    rw [List.append_assoc]
    rfl

theorem found_write_fresh (s : String) :
    (({} : Output).write s).found = BinaryPathTracker.yields {} (endedLines s.toList) :=
  (foldl_put s.toList List.not_mem_nil).2.2

end Output

namespace Session

theorem pairwise_foldl_register {paths : List Path}
    (h : paths.Pairwise fun p q => p.same q = false) (ps : List Path) :
    (ps.foldl register paths).Pairwise fun p q => p.same q = false := by
  induction ps generalizing paths with
  | nil => exact h
  | cons p ps ih =>
    rw [List.foldl_cons]
    apply ih
    unfold register
    by_cases hknown : paths.any (·.same p)
    · rw [if_pos hknown]
      exact h
    · rw [if_neg hknown, List.pairwise_append]
      refine ⟨h, List.pairwise_singleton _ _, ?_⟩
      intro q hq r hr
      rw [List.mem_singleton.mp hr]
      simpa using fun hsame => hknown (List.any_eq_true.mpr ⟨q, hq, hsame⟩)

theorem register_eq_self_iff {paths : List Path} {p : Path} :
    register paths p = paths ↔ paths.any (·.same p) := by
  unfold register
  by_cases h : paths.any (·.same p)
  · rw [if_pos h]
    exact ⟨fun _ => h, fun _ => rfl⟩
  · rw [if_neg h]
    exact ⟨fun heq => by simp at heq, fun hany => absurd hany h⟩

end Session

theorem Report.binaryPaths_ofOutcome (options : Options) (outcome : Outcome) :
    (Report.ofOutcome options outcome).session.binaryPaths = outcome.1.knownPaths := by
  simp only [Report.ofOutcome, Evaluation.collectBinaryPaths_eq]
  split <;> rfl

theorem Request.binaryPaths_report {env : Environment} {session : Session} {request : Request}
    {text : String} (h : (request.report env session).result = .ok text) :
    (request.report env session).session.binaryPaths = session.pathsAfter text := by
  obtain ⟨s, hs⟩ := request.outcome_grows env session
  have htext := hs.text_eq
  rw [Request.report_eq] at h ⊢
  obtain ⟨-, hwritten⟩ := Report.written_of_ok h
  have hsame : s = text := by
    rw [← hwritten, htext]
    exact (String.empty_append ..).symm
  rw [Report.binaryPaths_ofOutcome, hs.paths, hsame]
  rfl

/-- A run that starts without binary paths knows afterwards those of the ended lines of its text,
none of them twice. These are the paths of all its lines just when the last line, if no line feed
ends it, completes no block or one whose path is known. -/
theorem binary_paths_registered_iff_none_unended {env : Environment} {session : Session}
    {request : Request} {text : String} (hpaths : session.binaryPaths = [])
    (hok : (request.report env session).result = .ok text) :
    let known := (request.report env session).session.binaryPaths
    let recogniser : BinaryPathTracker := {}
    known = (recogniser.yields (endedLines text.toList)).foldl Session.register [] ∧
    known.Pairwise (fun p q => p.same q = false) ∧
    (known = (recogniser.yields (lines text.toList)).foldl Session.register [] ↔
      ∀ p ∈ ((recogniser.after (endedLines text.toList)).feed (unended text.toList)).2,
        known.any (·.same p)) := by
  intro known recogniser
  have hknown : known = (recogniser.yields (endedLines text.toList)).foldl Session.register [] := by
    rw [← hpaths, ← Output.found_write_fresh]
    exact Request.binaryPaths_report hok
  refine ⟨hknown, ?_, ?_⟩
  · rw [hknown]
    exact Session.pairwise_foldl_register .nil _
  · rw [BinaryPathTracker.yields_lines, List.foldl_append, ← hknown]
    cases ((recogniser.after (endedLines text.toList)).feed (unended text.toList)).2 with
    | none => simp
    | some p =>
      simp only [Option.toList_some, List.foldl_cons, List.foldl_nil, Option.mem_some_iff,
        forall_eq']
      rw [eq_comm, Session.register_eq_self_iff]

/-- The second block breaks off in its last line, but its path is another spelling of the first. -/
theorem known_path_needs_no_line_end :
    let source := "[binary_path]\n\tpath=data/pack\n[/binary_path]\n" ++
      "[binary_path]\npath=\"data//pack/\"\n[/binary_path]"
    let report := (Request.text none source).report ⟨.empty ["w"], {}, {}⟩ {}
    report.result = .ok source ∧ report.session.binaryPaths = [⟨"data/pack"⟩] ∧
      report.session.binaryPaths =
        (BinaryPathTracker.yields {} (lines source.toList)).foldl Session.register [] := by
  intro source report
  have hok : report.result = .ok source := by decide +kernel
  have hall := @binary_paths_registered_iff_none_unended ⟨.empty ["w"], {}, {}⟩ {} _ source rfl hok
  have hknown : report.session.binaryPaths = [⟨"data/pack"⟩] := by decide +kernel
  exact ⟨hok, hknown, hall.2.2.mpr (by decide +kernel)⟩

theorem unended_block_unregistered :
    let source := "[binary_path]\npath=a\n[/binary_path]"
    let report := (Request.text none source).report ⟨.empty ["w"], {}, {}⟩ {}
    report.result = .ok source ∧ report.session.binaryPaths = [] ∧
      (BinaryPathTracker.yields {} (lines source.toList)).foldl Session.register [] = [⟨"a"⟩] := by
  decide +kernel

end CampaignMarkup
