import CampaignMarkup.Proofs.Preprocess.BinaryPaths

/-! # Output in pieces

A piece may end anywhere, within a line, a tag or a line ending. What the recogniser of
`[binary_path]` blocks has seen is at every moment the ended lines of all that was written, and the
paths that came out of them are taken or still held. -/
namespace CampaignMarkup

open Chars

namespace BinaryPathTracker

theorem after_append (t : BinaryPathTracker) (ls ms : List (List Char)) :
    t.after (ls ++ ms) = (t.after ls).after ms :=
  List.foldl_append

end BinaryPathTracker

namespace Output

/-- What is done with an output: a piece is written, or the paths found so far are taken. -/
inductive Handling where
  | write (piece : String)
  | take

/-- The output, and all the paths that were taken from it. -/
def handle : Output × List Path → Handling → Output × List Path
  | (o, got), .write piece => (o.write piece, got)
  | (o, got), .take => (o.taken, got ++ o.found)

def handled (hs : List Handling) : Output × List Path :=
  hs.foldl handle ({}, [])

def Handling.piece : Handling → String
  | .write piece => piece
  | .take => ""

def written (hs : List Handling) : String :=
  String.join (hs.map Handling.piece)

/-- The recogniser has been shown the ended lines of the text, and the paths of these lines are
taken or held. -/
structure Abreast (o : Output) (got : List Path) : Prop where
  line : o.line.reverse = unended o.text.toList
  tracker : o.tracker = BinaryPathTracker.after {} (endedLines o.text.toList)
  found : got ++ o.found = BinaryPathTracker.yields {} (endedLines o.text.toList)

theorem Abreast.fresh : Abreast {} [] :=
  ⟨rfl, rfl, rfl⟩

theorem Abreast.write {o : Output} {got : List Path} (h : Abreast o got) (piece : String) :
    Abreast (o.write piece) got := by
  have hopen : '\n' ∉ o.line := by
    rw [← List.mem_reverse, h.line]
    exact not_mem_unended _
  have htext : (o.write piece).text.toList = o.text.toList ++ piece.toList := by
    rw [write_text, String.toList_append]
  obtain ⟨hline, htracker, hfound⟩ := foldl_put piece.toList hopen
  rw [h.line] at hline htracker hfound
  constructor
  · rw [htext, unended_append_text]
    exact hline
  · rw [htext, endedLines_append_text, BinaryPathTracker.after_append, ← h.tracker]
    exact htracker
  · rw [htext, endedLines_append_text, BinaryPathTracker.yields_append, ← h.tracker, ← h.found,
      List.append_assoc]
    exact congrArg (got ++ ·) hfound

theorem Abreast.take {o : Output} {got : List Path} (h : Abreast o got) :
    Abreast o.taken (got ++ o.found) := by
  refine ⟨h.line, h.tracker, ?_⟩
  change (got ++ o.found) ++ [] = _
  rw [List.append_nil]
  exact h.found

/-- Two outputs of one text that are abreast of it differ only in who has the paths. -/
theorem Abreast.taken_eq {o o' : Output} {got got' : List Path} (h : Abreast o got)
    (h' : Abreast o' got') (htext : o.text = o'.text) :
    o.taken = o'.taken ∧ got ++ o.found = got' ++ o'.found := by
  have hline : o.line = o'.line := by
    apply List.reverse_injective
    rw [h.line, h'.line, htext]
  have htracker : o.tracker = o'.tracker := by
    rw [h.tracker, h'.tracker, htext]
  constructor
  · rw [taken, taken, htext, hline, htracker]
  · rw [h.found, h'.found, htext]

theorem handle_abreast {o : Output} {got : List Path} (h : Abreast o got) (handling : Handling) :
    Abreast (handle (o, got) handling).1 (handle (o, got) handling).2 ∧
      (handle (o, got) handling).1.text = o.text ++ handling.piece := by
  cases handling with
  | write piece => exact ⟨h.write piece, write_text o piece⟩
  | take => exact ⟨h.take, String.append_empty.symm⟩

theorem foldl_handle_abreast (hs : List Handling) {o : Output} {got : List Path}
    (h : Abreast o got) :
    Abreast (hs.foldl handle (o, got)).1 (hs.foldl handle (o, got)).2 ∧
      (hs.foldl handle (o, got)).1.text = o.text ++ written hs := by
  induction hs generalizing o got with
  | nil => exact ⟨h, String.append_empty.symm⟩
  | cons handling hs ih =>
    obtain ⟨hstep, htext⟩ := handle_abreast h handling
    obtain ⟨hrun, hwhole⟩ := ih hstep
    refine ⟨hrun, ?_⟩
    rw [List.foldl_cons, hwhole, htext, String.append_assoc, written, written, List.map_cons,
      String.join_cons]

/-- However a text is written in pieces, and whenever paths are taken in between: the output is the
pieces put together, the paths taken and those still held are what the lines that a line feed ends,
each shown once and in order, bring out of a fresh recogniser, and the output goes on from here as
if the text had been written at once. -/
theorem recognition_ignores_pieces (hs : List Handling) :
    let o := (handled hs).1
    let got := (handled hs).2
    let text := (written hs).toList
    o.text = written hs ∧
      ((endedLines text).flatMap (· ++ ['\n']) ++ unended text = text ∧
        (∀ line ∈ endedLines text, '\n' ∉ line) ∧ '\n' ∉ unended text) ∧
      got ++ o.found = BinaryPathTracker.yields {} (endedLines text) ∧
      o.taken = (({} : Output).write (written hs)).taken := by
  intro o got text
  obtain ⟨habreast, hwhole⟩ := foldl_handle_abreast hs Abreast.fresh
  have htext : o.text = written hs := hwhole.trans String.empty_append
  have honce : (({} : Output).write (written hs)).text = written hs :=
    (write_text {} _).trans String.empty_append
  have hlines : ∀ line ∈ endedLines text, '\n' ∉ line := by
    intro line hline
    exact not_mem_of_mem_endedLines hline
  refine ⟨htext, ⟨flatMap_endedLines text, hlines, not_mem_unended text⟩, ?_, ?_⟩
  · have hfound : got ++ o.found = _ := habreast.found
    rwa [hwhole, String.empty_append] at hfound
  · exact (habreast.taken_eq (Abreast.fresh.write _) (htext.trans honce.symm)).1

end Output

end CampaignMarkup
