import LoxLexer.Command.Session
import LoxLexer.Proofs.Command.Report
import LoxLexer.Proofs.Scan.Spans
import LoxLexer.Proofs.Text.Cut

/-!
# What a session does with its input

`session_transcript`: what a session writes, line by line, and where it ends.

* `isStopWord_iff`, `Entry.ofBytes_utf8`, `Entry.ofBytes_of_not_isText`: how a line is taken.
* `exists_course`: every input has a course, and `outputs_of_course`: what a session writes in the
  course of its input. The lines from the one on that ends it count by their first only.
* `join_stdout_outputs`, `join_diagnostics_outputs`: what that is on each of the two streams.

A line is scanned without its line feed, so all that is found in it is on line one.
-/

namespace LoxLexer

namespace Session

/-! ## One line -/

theorem isStopWord_iff {text : List Char} : isStopWord text = true ↔
    text.map Char.toLower ∈ ["exit".toList, "quit".toList] := by
  simp [isStopWord]

theorem isStopWord_eq_false_iff {text : List Char} : isStopWord text = false ↔
    text.map Char.toLower ∉ ["exit".toList, "quit".toList] := by
  rw [← isStopWord_iff, Bool.not_eq_true]

theorem Entry.ofBytes_utf8 (line : List Char) : Entry.ofBytes (utf8 line) =
    if isStopWord (trim line) then .stop else .source (trim line) := by
  rw [Entry.ofBytes, Cursor.fromUTF8?_utf8]
  dsimp only
  rw [String.toList_ofList]

theorem exists_eq_utf8_of_isText {bytes : List UInt8} (h : isText bytes = true) :
    ∃ text, bytes = utf8 text := by
  obtain ⟨text, htext⟩ := Option.isSome_iff_exists.1 h
  exact ⟨text.toList, fromUTF8?_eq_some_iff.1 htext⟩

theorem Entry.ofBytes_of_not_isText {bytes : List UInt8} (h : isText bytes = false) :
    Entry.ofBytes bytes = .notText := by
  rw [isText, Option.isSome_eq_false_iff, Option.isNone_iff_eq_none] at h
  rw [Entry.ofBytes, h]

/-! ## The course of the lines -/

/-- A line that does not end a session is prompted for and reported, and the session goes on. -/
theorem outputs_cons_of_goesOn {line : List Char} (h : isStopWord (trim line) = false)
    (settings : LogSettings) (lines : List (List UInt8)) :
    outputs settings (utf8 line :: lines) =
      prompt :: report settings "repl" (trim line) ++ outputs settings lines := by
  have hstep : step settings (some (utf8 line)) =
      (report settings "repl" (trim line) ++ [prompt], true) := by
    rw [step, Entry.ofBytes_utf8, h]
    rfl
  rw [outputs, outputs, answers, hstep]
  simp

/-- What a session writes at the end of its input or at the line that ends it. -/
def lastWords (rest : List (List UInt8)) : List Output :=
  (if rest.head?.any (!isText ·) then [.err (ReadFault.notText.message ++ "\n")] else []) ++
    [farewell]

theorem outputs_of_ends {rest : List (List UInt8)}
    (h : ∀ line ∈ rest.head?, ∀ text, line = utf8 text → isStopWord (trim text) = true)
    (settings : LogSettings) : outputs settings rest = prompt :: lastWords rest := by
  cases rest with
  | nil => rfl
  | cons line more =>
    have hends := h line rfl
    cases htext : isText line with
    | true =>
      obtain ⟨text, rfl⟩ := exists_eq_utf8_of_isText htext
      rw [outputs, answers, step, Entry.ofBytes_utf8, hends text rfl, lastWords, List.head?_cons,
        Option.any_some, htext]
      rfl
    | false =>
      rw [outputs, answers, step, Entry.ofBytes_of_not_isText htext, lastWords, List.head?_cons,
        Option.any_some, htext]
      rfl

/-- All lines have a course. -/
theorem exists_course (lines : List (List UInt8)) : ∃ scanned rest, Course lines scanned rest := by
  induction lines with
  | nil => exact ⟨[], [], rfl, by simp, by simp⟩
  | cons line lines ih =>
    by_cases h : ∃ text, line = utf8 text ∧
      (trim text).map Char.toLower ∉ ["exit".toList, "quit".toList]
    · obtain ⟨text, rfl, htext⟩ := h
      obtain ⟨scanned, rest, rfl, hgoesOn, hends⟩ := ih
      exact ⟨text :: scanned, rest, rfl, List.forall_mem_cons.2 ⟨htext, hgoesOn⟩, hends⟩
    · refine ⟨[], line :: lines, rfl, by simp, fun first hfirst text htext => ?_⟩
      cases hfirst
      exact Classical.byContradiction fun hgoesOn => h ⟨text, htext, hgoesOn⟩

/-- **In the course of its input** a session prompts for each line and reports it, and ends. -/
theorem outputs_of_course {lines rest : List (List UInt8)} {scanned : List (List Char)}
    (h : Course lines scanned rest) (settings : LogSettings) :
    outputs settings lines =
      scanned.flatMap (fun line => prompt :: report settings "repl" (trim line)) ++
        prompt :: lastWords rest := by
  obtain ⟨rfl, hgoesOn, hends⟩ := h
  induction scanned with
  | nil =>
    refine outputs_of_ends (fun line hline text htext => ?_) settings
    exact isStopWord_iff.2 (hends line hline text htext)
  | cons line scanned ih =>
    rw [List.forall_mem_cons] at hgoesOn
    have hline := isStopWord_eq_false_iff.2 hgoesOn.1
    rw [List.map_cons, List.cons_append, outputs_cons_of_goesOn hline, ih hgoesOn.2,
      List.flatMap_cons, List.append_assoc]

/-- What stands behind the line that ends a session has no effect. -/
theorem outputs_append_cons {lines rest rest' : List (List UInt8)} {last : List UInt8}
    {scanned : List (List Char)} (h : Course lines scanned (last :: rest))
    (settings : LogSettings) :
    outputs settings (scanned.map utf8 ++ last :: rest') = outputs settings lines := by
  have h' : Course (scanned.map utf8 ++ last :: rest') scanned (last :: rest') :=
    ⟨rfl, h.goesOn, h.ends⟩
  rw [outputs_of_course h', outputs_of_course h]
  rfl

/-! ## What a session writes -/

section
variable {lines rest : List (List UInt8)} {scanned : List (List Char)}
  (h : Course lines scanned rest) (settings : LogSettings)
include h

theorem join_stdout_outputs : String.join ((outputs settings lines).map Output.stdout) =
    String.join (scanned.map fun line =>
      "> " ++ listingTitle "repl" ++ tokenListing (Scan.ofText (trim line)).tokens) ++
        "> " ++ "Exiting.\n" := by
  have hlast : String.join ((prompt :: lastWords rest).map Output.stdout) =
      "> " ++ "Exiting.\n" := by
    rw [lastWords]
    split <;> rfl
  rw [outputs_of_course h, List.map_append, String.join_append, hlast, join_map_flatMap]
  simp only [List.map_cons, String.join_cons, join_stdout_report, String.append_assoc]
  rfl

theorem join_diagnostics_outputs : String.join ((outputs settings lines).map Output.diagnostics) =
    String.join (scanned.map fun line => errorListing (Scan.ofText (trim line)).errors) ++
      if rest.head?.any (!isText ·) then "stream did not contain valid UTF-8\n" else "" := by
  have hlast : String.join ((prompt :: lastWords rest).map Output.diagnostics) =
      if rest.head?.any (!isText ·) then "stream did not contain valid UTF-8\n" else "" := by
    rw [lastWords]
    split <;> rfl
  rw [outputs_of_course h, List.map_append, String.join_append, hlast, join_map_flatMap]
  simp only [List.map_cons, String.join_cons, join_diagnostics_report]
  rfl

end

/-- The lines up to the one that ends a session are cut as they are whatever follows them. -/
theorem cutAfter_append {input last : List UInt8} {scanned : List (List Char)}
    {more : List (List UInt8)} (h : Course (cutAfter lineFeed input) scanned (last :: more))
    (hlast : last.getLast? = some lineFeed) (after : List UInt8) :
    cutAfter lineFeed ((scanned.map utf8).flatten ++ last ++ after) =
      scanned.map utf8 ++ last :: cutAfter lineFeed after := by
  have hmem : last ∈ cutAfter lineFeed input := by
    rw [h.eq_append]
    exact List.mem_append_right _ List.mem_cons_self
  have hcomplete : ∀ line ∈ scanned.map utf8 ++ [last], IsComplete lineFeed line := by
    refine List.forall_mem_append.2 ⟨isComplete_of_cutAfter h.eq_append, ?_⟩
    exact List.forall_mem_singleton.2 (isComplete_of_getLast? hmem hlast)
  have hcut := cutAfter_append_of_complete hcomplete after
  simpa using hcut

end Session

/-! ## The transcript -/

/-- A session complains about its filter and then works through the lines of its input. -/
theorem run_session {words : List String} {level : String} {timings : Bool}
    (h : Request.ofWords words = .invoke ⟨.session, level, timings⟩) (host : Host) :
    run words host = Outcome.after ((filterComplaints host.logFilter level).map .err)
      ⟨0, Session.outputs ⟨effectiveFilter host.logFilter level, timings⟩
        (cutAfter lineFeed host.input)⟩ := by
  rw [run, h]
  rfl

/-- **A session** scans the lines before the first that is no text or says that it ends, each by
itself without the white space at its ends, so that all is on line one. It prompts for each line,
writes what it finds, and ends with a farewell and with no failure, whatever it finds. What stands
behind the line that ends it has no effect. A filter that can be read is not complained about. -/
theorem session_transcript (words : List String) (level : String) (timings : Bool) (host : Host)
    (h : Request.ofWords words = .invoke ⟨.session, level, timings⟩) :
    ∃ (scanned : List (List Char)) (rest : List (List UInt8)),
      Session.Course (cutAfter lineFeed host.input) scanned rest ∧
      (run words host).exitCode = 0 ∧
      (run words host).stdout = String.join (scanned.map fun line =>
        "> " ++ "== repl ==\n" ++ tokenListing (Scan.ofText (trim line)).tokens) ++
          "> " ++ "Exiting.\n" ∧
      (run words host).diagnostics = String.join (filterComplaints host.logFilter level) ++
        (String.join (scanned.map fun line => errorListing (Scan.ofText (trim line)).errors) ++
          if rest.head?.any (!Session.isText ·) then "stream did not contain valid UTF-8\n"
          else "") ∧
      ((host.logFilter.bind Filter.parse?).isSome = true ∨ (Filter.parse? level).isSome = true →
        filterComplaints host.logFilter level = []) ∧
      (∀ line ∈ scanned, (∀ t ∈ (Scan.ofText (trim line)).tokens, t.line = 1) ∧
        ∀ d ∈ (Scan.ofText (trim line)).errors, d.line = 1) ∧
      ∀ last more after, rest = last :: more → last.getLast? = some lineFeed →
        run words { host with input := (scanned.map utf8).flatten ++ last ++ after } =
          run words host := by
  obtain ⟨scanned, rest, hcourse⟩ := Session.exists_course (cutAfter lineFeed host.input)
  refine ⟨scanned, rest, hcourse, ?_, ?_, ?_, filterComplaints_eq_nil, ?_, ?_⟩
  · rw [run_session h]
    rfl
  · rw [run_session h, Outcome.stdout_after_complaints, Outcome.stdout,
      Session.join_stdout_outputs hcourse]
    rfl
  · rw [run_session h, Outcome.diagnostics_after_complaints, Outcome.diagnostics,
      Session.join_diagnostics_outputs hcourse]
  · intro line hline
    have hmem : utf8 line ∈ cutAfter lineFeed host.input := by
      rw [hcourse.eq_append]
      exact List.mem_append_left _ (List.mem_map_of_mem hline)
    exact Scan.lines_eq_one (newline_not_mem_trim
      (newline_not_mem_dropLast (not_mem_dropLast_of_mem_cutAfter hmem)))
  · rintro last more after rfl hlast
    rw [run_session h, run_session h, Session.cutAfter_append hcourse hlast,
      Session.outputs_append_cons hcourse]

/-- A stray character, the end in capitals, and a line behind it that is not read. -/
theorem session_transcript_exit :
    Request.ofWords ["--repl"] = .invoke ⟨.session, "warn", false⟩ ∧
    ∃ (scanned : List (List Char)) (rest : List (List UInt8)),
      Session.Course (cutAfter lineFeed (utf8 "é 1\n EXIT\n2".toList)) scanned rest ∧
      (run ["--repl"] ⟨fun _ => .error .notFound, utf8 "é 1\n EXIT\n2".toList, none⟩).stdout =
        String.join (scanned.map fun line =>
          "> " ++ "== repl ==\n" ++ tokenListing (Scan.ofText (trim line)).tokens) ++
            "> " ++ "Exiting.\n" ∧
      (run ["--repl"] ⟨fun _ => .error .notFound, utf8 "é 1\n EXIT\n2".toList, none⟩).stdout =
        "> == repl ==\n   1 NUMBER 1 1.0\n   | EOF  null\n> Exiting.\n" :=
  have h : Request.ofWords ["--repl"] = .invoke ⟨.session, "warn", false⟩ := by decide +kernel
  have hrun := session_transcript ["--repl"] "warn" false
    ⟨fun _ => .error .notFound, utf8 "é 1\n EXIT\n2".toList, none⟩ h
  have ⟨scanned, rest, hcourse, _, hstdout, _⟩ := hrun
  ⟨h, scanned, rest, hcourse, hstdout, by decide +kernel⟩

end LoxLexer
