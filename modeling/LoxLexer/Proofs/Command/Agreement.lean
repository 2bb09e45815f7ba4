import LoxLexer.Proofs.Command.File
import LoxLexer.Proofs.Command.Session
import LoxLexer.Proofs.Scan.ByLine

/-!
# Sessions and files

`session_agrees_with_file`: a text that is typed at the prompt, and none of whose lines ends the
session, has the same tokens as when it is scanned as a file, if its strings stand on lines.

A session takes a text line by line (`Session.course_utf8`) and reports the scans of the lines,
whose tokens are those of the whole text on other lines (`Scan.madeUpOf_byLine`).
-/

namespace LoxLexer

/-! ## The lines of a text -/

/-- A session scans all lines of a text if none of them ends it. -/
theorem Session.course_utf8 {cs : List Char}
    (h : ∀ line ∈ cutAfter '\n' cs,
      (trim line).map Char.toLower ∉ ["exit".toList, "quit".toList]) :
    Course (cutAfter lineFeed (utf8 cs)) (cutAfter '\n' cs) [] :=
  ⟨by rw [cutAfter_utf8, List.append_nil], h, by simp⟩

theorem Scan.line_eq_one_of_mem_byLine {cs : List Char} {line : Scan} (h : line ∈ byLine cs) :
    ∀ t ∈ line.tokens, t.line = 1 := by
  obtain ⟨piece, hpiece, rfl⟩ := List.mem_map.1 h
  exact (lines_eq_one (newline_not_mem_trim (not_mem_dropLast_of_mem_cutAfter hpiece))).1

/-- **A session and a file** of a text whose strings stand on lines, and no line of which ends the
session: the session reports the scans of the lines, and the file that of the text. They have the
same tokens, in the session all on line one and in the file each on the line that it begins on; both
or neither leave a string open; and the session leaves out some of the unexpected characters at
most, which it does only where there is white space that is no blank of the language. -/
theorem session_agrees_with_file (source : String) (hstrings : HasStringsOnLines source.toList)
    (hgoesOn : ∀ line ∈ cutAfter '\n' source.toList,
      (trim line).map Char.toLower ∉ ["exit".toList, "quit".toList])
    (words words' : List String) (path level level' : String) (timings timings' : Bool)
    (host host' : Host)
    (hsession : Request.ofWords words = .invoke ⟨.session, level, timings⟩)
    (hfile : Request.ofWords words' = .invoke ⟨.file path, level', timings'⟩)
    (hinput : host.input = utf8 source.toList)
    (hread : host'.read path = .ok ⟨(utf8 source.toList).toArray⟩) :
    (run words host).stdout = String.join ((Scan.byLine source.toList).map fun line =>
      "> " ++ "== repl ==\n" ++ tokenListing line.tokens) ++ "> " ++ "Exiting.\n" ∧
    (run words host).diagnostics = String.join (filterComplaints host.logFilter level) ++
      String.join ((Scan.byLine source.toList).map fun line => errorListing line.errors) ∧
    (run words' host').stdout = "== " ++ path ++ " ==\n" ++ tokenListing (scan source).tokens ∧
    (run words' host').diagnostics = String.join (filterComplaints host'.logFilter level') ++
      (errorListing (scan source).errors ++
        (scan source).failure?.elim "" fun failure => "Error: " ++ failure.message ++ "\n") ∧
    ((Scan.byLine source.toList).flatMap Scan.body).map Token.content =
      (scan source).body.map Token.content ∧
    (∀ line ∈ Scan.byLine source.toList, ∀ t ∈ line.tokens, t.line = 1) ∧
    (scan source).body = (Scan.byLine source.toList).zipIdx.flatMap (fun (line, i) =>
      line.body.map (Token.below i)) ∧
    (∀ f ∈ Finding.ofText source.toList, ∀ t, f.item = .token t →
      t.line = lastLine (source.toList.take f.start)) ∧
    (scan source).isOpen = (Scan.byLine source.toList).any Scan.isOpen ∧
    countStrays ((Scan.byLine source.toList).flatMap Scan.errors) ≤
      countStrays (scan source).errors ∧
    ((∀ c ∈ source.toList, isWhiteSpace c = true → c ∈ [' ', '\t', '\r', '\n']) →
      countStrays ((Scan.byLine source.toList).flatMap Scan.errors) =
        countStrays (scan source).errors) := by
  have hcourse := Session.course_utf8 hgoesOn
  have hlines := Scan.madeUpOf_byLine hstrings
  refine ⟨?_, ?_, ?_, ?_, hlines.map_content, fun _ => Scan.line_eq_one_of_mem_byLine,
    hlines.body_eq, fun f hf t => Finding.line_eq_lastLine hstrings hf, hlines.isOpen,
    hlines.strays_ge, fun hblank => ?_⟩
  · rw [run_session hsession, Outcome.stdout_after_complaints, Outcome.stdout, hinput,
      Session.join_stdout_outputs hcourse, Scan.byLine, List.map_map]
    rfl
  · rw [run_session hsession, Outcome.diagnostics_after_complaints, Outcome.diagnostics, hinput,
      Session.join_diagnostics_outputs hcourse, Scan.byLine, List.map_map]
    simp [Function.comp_def]
  · rw [run_file hfile (Host.readText_of_utf8 hread), Outcome.stdout_after_complaints,
      stdout_runSource, listingTitle]
  · rw [run_file hfile (Host.readText_of_utf8 hread), Outcome.diagnostics_after_complaints,
      diagnostics_runSource]
  · have hnone : source.toList.countP isForeignSpace = 0 := by
      rw [List.countP_eq_zero]
      intro c hc hforeign
      rw [isForeignSpace, Bool.and_eq_true, Bool.not_eq_true'] at hforeign
      rw [isWhitespace_iff.2 (hblank c hc hforeign.1)] at hforeign
      cases hforeign.2
    have hle := hlines.strays_le
    rw [hnone] at hle
    exact Nat.le_antisymm hlines.strays_ge hle

/-- White space that is no blank behind a point and a stray character, and a string left open. -/
theorem session_agrees_with_file_open :
    HasStringsOnLines "1.\u00a0\né\u3000\n\"a ".toList ∧
    (∀ line ∈ cutAfter '\n' "1.\u00a0\né\u3000\n\"a ".toList,
      (trim line).map Char.toLower ∉ ["exit".toList, "quit".toList]) ∧
    Request.ofWords ["--repl"] = .invoke ⟨.session, "warn", false⟩ ∧
    Request.ofWords ["a.lox"] = .invoke ⟨.file "a.lox", "warn", false⟩ ∧
    ((Scan.byLine "1.\u00a0\né\u3000\n\"a ".toList).flatMap Scan.body).map Token.content =
      (scan "1.\u00a0\né\u3000\n\"a ").body.map Token.content :=
  have hstrings : HasStringsOnLines "1.\u00a0\né\u3000\n\"a ".toList := by decide +kernel
  have hgoesOn : ∀ line ∈ cutAfter '\n' "1.\u00a0\né\u3000\n\"a ".toList,
      (trim line).map Char.toLower ∉ ["exit".toList, "quit".toList] := by decide +kernel
  have hsession : Request.ofWords ["--repl"] = .invoke ⟨.session, "warn", false⟩ := by
    decide +kernel
  have hfile : Request.ofWords ["a.lox"] = .invoke ⟨.file "a.lox", "warn", false⟩ := by
    decide +kernel
  have hagree := session_agrees_with_file "1.\u00a0\né\u3000\n\"a " hstrings hgoesOn ["--repl"]
    ["a.lox"] "a.lox" "warn" "warn" false false
    ⟨fun _ => .error .notFound, utf8 "1.\u00a0\né\u3000\n\"a ".toList, none⟩
    ⟨fun _ => .ok ⟨(utf8 "1.\u00a0\né\u3000\n\"a ".toList).toArray⟩, [], none⟩ hsession hfile
    rfl rfl
  have ⟨_, _, _, _, hcontent, _⟩ := hagree
  ⟨hstrings, hgoesOn, hsession, hfile, hcontent⟩

end LoxLexer
