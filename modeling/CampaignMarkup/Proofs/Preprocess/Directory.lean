import CampaignMarkup.Proofs.Path.Walks
import CampaignMarkup.Proofs.Preprocess.Emission
import CampaignMarkup.Proofs.Preprocess.Restoration
import CampaignMarkup.Proofs.Record.Seams

/-! # The records of a directory

The files of a directory write into one output, each behind the one before it, and records are
extracted from the whole at the end. Nothing ends a line between two files: the records are those of
the files by themselves just when no file goes on in the last line of the files before it. -/
namespace CampaignMarkup

namespace Evaluation

/-- What each file adds to the output, where they are read one after the other. -/
def contributions (env : Environment) (run : Runner) (source : Site) :
    List Path → Evaluation → List String
  | [], _ => []
  | path :: paths, e =>
    let next := (e.includeFile env run source path).1
    String.ofList (next.output.text.toList.drop e.output.text.toList.length) ::
      contributions env run source paths next

theorem text_eq_contributions {env : Environment} {run : Runner} (hr : Writes run) {source : Site}
    {paths : List Path} {e : Evaluation}
    (hok : (each (includeFile env run source) paths e).2 = none) :
    (each (includeFile env run source) paths e).1.output.text =
      e.output.text ++ String.join (contributions env run source paths e) := by
  induction paths generalizing e with
  | nil => exact (String.append_empty ..).symm
  | cons path paths ih =>
    obtain ⟨s, hs⟩ := includeFile_grows env hr source path e
    have htext := hs.text_eq
    rw [each_cons] at hok ⊢
    rw [contributions]
    generalize e.includeFile env run source path = outcome at hok htext
    obtain ⟨next, failure⟩ := outcome
    cases failure with
    | some f => cases hok
    | none =>
      have hown : next.output.text.toList.drop e.output.text.toList.length = s.toList := by
        rw [htext, String.toList_append, List.drop_left]
      rw [andThen_proceed] at hok ⊢
      rw [ih hok, hown, String.ofList_toList, htext, String.join_cons, String.append_assoc]

end Evaluation

/-- What the files at a place add to the output of a request for it. -/
def Environment.contributions (env : Environment) (path : Path) (session : Session) :
    List String :=
  match env.filesAt path with
  | .error _ => []
  | .ok paths =>
    Evaluation.contributions env (Evaluation.run env env.options.maxDepth) {} paths { session }

/-- The files at a place are found, and read one after the other without a failure. -/
def Environment.Readable (env : Environment) (path : Path) (session : Session) : Prop :=
  ((Request.place path).outcome env session).2 = none

theorem Environment.readable_iff {env : Environment} {path : Path} {session : Session} :
    env.Readable path session ↔ ∃ paths, env.filesAt path = .ok paths ∧
      (Evaluation.each (Evaluation.includeFile env (Evaluation.run env env.options.maxDepth) {})
        paths { session }).2 = none := by
  rw [Readable, Request.outcome, Evaluation.includePath_eq]
  cases env.filesAt path with
  | error f => simp [Evaluation.fail]
  | ok paths => simp

theorem subparse_of_readable {env : Environment} {path : Path} {session : Session}
    (h : env.Readable path session) :
    (subparse env path session).result = .ok (String.join (env.contributions path session)) ∧
    (subparse env path session).session.records =
      session.records ++ if env.options.extractRecords then
        extractRecords (String.join (env.contributions path session)) else [] := by
  obtain ⟨paths, hfiles, hread⟩ := Environment.readable_iff.mp h
  have hr := Evaluation.run_writes_only env env.options.maxDepth
  have htext := Evaluation.text_eq_contributions hr hread
  have hrestored := Request.outcome_restored env session (.place path)
  rw [Request.outcome, Evaluation.includePath_eq, hfiles] at hrestored
  rw [subparse, Evaluation.includePath_eq, Environment.contributions, hfiles]
  dsimp only at hrestored ⊢
  generalize Evaluation.each _ paths { session } = outcome at *
  obtain ⟨e, failure⟩ := outcome
  cases hread
  rw [String.empty_append] at htext
  rw [Report.records_of_success, htext, hrestored.records]
  exact ⟨congrArg Except.ok htext, rfl⟩

/-- Where each file closes its blocks, the records of a directory are those of its files by
themselves if no two files share a line. If each file begins with a block, this is the only case. -/
theorem directory_records_apart_iff_no_line_shared {env : Environment} {path : Path}
    {session : Session} (hread : env.Readable path session)
    (hoption : env.options.extractRecords = true)
    (hclosed : ∀ y ∈ env.contributions path session, BlocksClosed y) :
    let ys := env.contributions path session
    let report := subparse env path session
    report.result = .ok (String.join ys) ∧
    (sharedLines "" ys = 0 →
      report.session.records = session.records ++ ys.flatMap extractRecords) ∧
    ((∀ y ∈ ys, BeginsWithBlock y) →
      (report.session.records = session.records ++ ys.flatMap extractRecords ↔
        sharedLines "" ys = 0)) := by
  intro ys report
  obtain ⟨hresult, hrecords⟩ := subparse_of_readable hread
  rw [hoption, if_pos rfl] at hrecords
  rw [hrecords]
  refine ⟨hresult, fun hapart => ?_, fun hbegins => ?_⟩
  · have hjoin := extractRecords_join hclosed blocksClosed_empty hapart
    rw [String.empty_append, extractRecords_empty, List.nil_append] at hjoin
    rw [hjoin]
  · rw [← extractRecords_join_iff fun y hy => ⟨hclosed y hy, hbegins y hy⟩]
    exact List.append_right_inj session.records

/-- A directory `d` with these files. -/
def shelf (files : List (String × String)) : Environment :=
  ⟨⟨["w"], ([], .directory) :: (["w"], .directory) :: (["w", "d"], .directory) ::
    files.map fun (name, text) => (["w", "d", name], .file (.text text))⟩, {}, {}⟩

theorem filesAt_shelf {files : List (String × String)}
    (h : (files.map fun file => [file.1]).Pairwise fun l m => FileTree.notAfter l m) :
    (shelf files).filesAt ⟨"d"⟩ =
      .ok ((files.map fun file => Path.join ⟨"d"⟩ ⟨file.1⟩).filter (hasExtension ["cfg"])) := by
  have hlocate : (shelf files).tree.locate ⟨"d"⟩ = .ok ["w", "d"] := rfl
  have hpath : ¬ FileTree.isStandardInput ⟨"d"⟩ := by decide
  have hentries : (shelf files).tree.entriesBelow ["w", "d"] =
      files.map fun file => ([file.1], Entry.file (.text file.2)) := by
    have hsorted : (files.map fun file => ([file.1], Entry.file (.text file.2))).Pairwise
        fun x y => FileTree.notAfter x.1 y.1 := by
      rw [List.pairwise_map] at h ⊢
      exact h
    -- The directory itself and those above it are not below it.
    rw [FileTree.entriesBelow, shelf, List.filterMap_cons_none rfl, List.filterMap_cons_none rfl,
      List.filterMap_cons_none rfl, List.filterMap_map, ← List.mergeSort_of_pairwise hsorted,
      ← List.filterMap_eq_map]
    rfl
  have hbelow : (shelf files).tree.filesBelow ⟨"d"⟩ =
      .ok (files.map fun file => Path.join ⟨"d"⟩ ⟨file.1⟩) := by
    rw [FileTree.filesBelow_eq_ok_iff hlocate hpath, FileTree.namesBelow, hentries]
    simp [FileTree.Listed, FileTree.fileNames, FileTree.spelledFrom, List.filterMap_map,
      Function.comp_def]
  have hdirectory : (shelf files).tree.isDirectory ⟨"d"⟩ := rfl
  rw [Environment.filesAt, if_pos hdirectory, hbelow]
  rfl

/-- The first file does not end its line, but the second begins with a line of its own. -/
theorem empty_line_keeps_files_apart :
    let env := shelf [("a.cfg", "[a]\nk=\"x\ny\"\n[/a]"), ("b.cfg", "\n[b]\n[/b]\n"),
      ("c.cfg", "[c]\n[/c]")]
    env.Readable ⟨"d"⟩ {} ∧ (subparse env ⟨"d"⟩ {}).session.records.map Record.tag =
      ["a", "b", "c"] := by
  intro env
  have hfiles : env.filesAt ⟨"d"⟩ = .ok [⟨"d/a.cfg"⟩, ⟨"d/b.cfg"⟩, ⟨"d/c.cfg"⟩] := by
    rw [filesAt_shelf (by decide +kernel)]
    decide +kernel
  have hread : env.Readable ⟨"d"⟩ {} :=
    Environment.readable_iff.mpr ⟨_, hfiles, by decide +kernel⟩
  have hparts : env.contributions ⟨"d"⟩ {} =
      ["[a]\nk=\"x\ny\"\n[/a]", "\n[b]\n[/b]\n", "[c]\n[/c]"] := by
    rw [Environment.contributions, hfiles]
    decide +kernel
  have hclosed : ∀ y ∈ env.contributions ⟨"d"⟩ {}, BlocksClosed y := by
    rw [hparts]
    decide +kernel
  have happly := (directory_records_apart_iff_no_line_shared hread rfl hclosed).2.1
  rw [hparts] at happly
  refine ⟨hread, ?_⟩
  rw [happly (by decide +kernel)]
  decide +kernel

/-- The block of the second file goes on in the line that closes the block of the first. -/
theorem unended_line_swallows_next_file :
    let env := shelf [("a.cfg", "[a]\n[/a]"), ("b.cfg", "[b]\n[/b]")]
    env.Readable ⟨"d"⟩ {} ∧ env.contributions ⟨"d"⟩ {} = ["[a]\n[/a]", "[b]\n[/b]"] ∧
    (∀ y ∈ env.contributions ⟨"d"⟩ {}, BlocksClosed y) ∧
    (subparse env ⟨"d"⟩ {}).session.records.map Record.tag = ["a"] ∧
    ((env.contributions ⟨"d"⟩ {}).flatMap extractRecords).map Record.tag = ["a", "b"] := by
  intro env
  have hfiles : env.filesAt ⟨"d"⟩ = .ok [⟨"d/a.cfg"⟩, ⟨"d/b.cfg"⟩] := by
    rw [filesAt_shelf (by decide +kernel)]
    decide +kernel
  have hread : env.Readable ⟨"d"⟩ {} :=
    Environment.readable_iff.mpr ⟨_, hfiles, by decide +kernel⟩
  have hparts : env.contributions ⟨"d"⟩ {} = ["[a]\n[/a]", "[b]\n[/b]"] := by
    rw [Environment.contributions, hfiles]
    decide +kernel
  have hrecords := (subparse_of_readable hread).2
  rw [hparts] at hrecords
  rw [hrecords, hparts]
  exact ⟨hread, rfl, by decide +kernel, by decide +kernel, by decide +kernel⟩

end CampaignMarkup
