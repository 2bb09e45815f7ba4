import LoxLexer.Proofs.Command.Report
import LoxLexer.Proofs.Text.Cut

/-!
# What the scan of a file writes

`file_report`: what a run writes that is given a path, and how it ends.

* `readText_eq_ok_iff`, `read_of_readText_eq_error`: a file holds a text exactly when its bytes are
  the encoding of one, and otherwise there is a reason.
* `run_file`, `run_unreadable`: a file that holds a text is scanned as that text, and of any other
  nothing is done but to name the reason.
* `stdout_runSource`, `diagnostics_runSource`, `exitCode_runSource`: the standard output has the
  token listing, the standard error stream the diagnostic listing and then, if there are faults, the
  failure, and the exit code says which.
-/

namespace LoxLexer

/-! ## Reading a file -/

/-- Bytes are read as a text exactly when they are its UTF-8 encoding. -/
theorem fromUTF8?_eq_some_iff_eq_toUTF8 {bytes : ByteArray} {text : String} :
    String.fromUTF8? bytes = some text ↔ bytes = text.toUTF8 := by
  rw [String.fromUTF8?]
  split
  · rw [Option.some.injEq, ← String.toByteArray_inj]
    exact Iff.rfl
  · next h =>
    constructor
    · intro hnone
      cases hnone
    · intro htext
      exact absurd (htext ▸ text.isValidUTF8) h

namespace Host

theorem readText_eq_ok_iff {host : Host} {path source : String} :
    host.readText path = .ok source ↔ host.read path = .ok source.toUTF8 := by
  rw [readText]
  split
  · next fault hread => rw [hread]; exact ⟨nofun, nofun⟩
  · next bytes hread =>
    rw [hread, Except.ok.injEq, ← fromUTF8?_eq_some_iff_eq_toUTF8]
    split
    · next text htext => rw [htext, Except.ok.injEq, Option.some.injEq]
    · next hnone => rw [hnone]; exact ⟨nofun, nofun⟩

/-- A file is not read as a text because it cannot be read, or because its bytes are none. -/
theorem read_of_readText_eq_error {host : Host} {path : String} {fault : ReadFault}
    (h : host.readText path = .error fault) :
    host.read path = .error fault ∨ (fault = .notText ∧ ∃ bytes, host.read path = .ok bytes) := by
  rw [readText] at h
  split at h
  · next fault' hread =>
    cases h
    exact .inl hread
  · next bytes hread =>
    split at h
    · cases h
    · cases h
      exact .inr ⟨rfl, bytes, hread⟩

end Host

theorem Host.readText_of_utf8 {host : Host} {path source : String}
    (h : host.read path = .ok ⟨(utf8 source.toList).toArray⟩) :
    host.readText path = .ok source := by
  rw [readText, h]
  dsimp only
  rw [fromUTF8?_eq_some_iff.2 rfl]

/-! ## Running on a file -/

theorem run_file {words : List String} {path level : String} {timings : Bool}
    (h : Request.ofWords words = .invoke ⟨.file path, level, timings⟩) {host : Host}
    {source : String} (hread : host.readText path = .ok source) :
    run words host = Outcome.after ((filterComplaints host.logFilter level).map .err)
      (runSource ⟨effectiveFilter host.logFilter level, timings⟩ path source) := by
  rw [run, h]
  dsimp only
  rw [Invocation.run, Invocation.runMode]
  dsimp only
  rw [hread]
  rfl

/-- A file that is no text is complained about, and nothing else is done. -/
theorem run_unreadable {words : List String} {path level : String} {timings : Bool}
    (h : Request.ofWords words = .invoke ⟨.file path, level, timings⟩) {host : Host}
    {fault : ReadFault} (hread : host.readText path = .error fault) :
    run words host = Outcome.after ((filterComplaints host.logFilter level).map .err)
      (Outcome.ofFailure (.unreadable path fault)) := by
  rw [run, h]
  dsimp only
  rw [Invocation.run, Invocation.runMode]
  dsimp only
  rw [hread]
  rfl

theorem run_sample {words : List String} {level : String} {timings : Bool}
    (h : Request.ofWords words = .invoke ⟨.sample, level, timings⟩) (host : Host) :
    run words host = Outcome.after ((filterComplaints host.logFilter level).map .err)
      (runSource ⟨effectiveFilter host.logFilter level, timings⟩ "sample" sampleProgram) := by
  rw [run, h]
  rfl

/-! ## What is written -/

theorem stdout_runSource (settings : LogSettings) (name source : String) :
    (runSource settings name source).stdout =
      listingTitle name ++ tokenListing (scan source).tokens := by
  rw [runSource, Outcome.after, Outcome.stdout, List.map_append, String.join_append,
    join_stdout_report]
  cases (scan source).failure? <;> simp [Outcome.ofFailure, Output.stdout, scan]

theorem diagnostics_runSource (settings : LogSettings) (name source : String) :
    (runSource settings name source).diagnostics = errorListing (scan source).errors ++
      (scan source).failure?.elim "" fun failure => "Error: " ++ failure.message ++ "\n" := by
  rw [runSource, Outcome.after, Outcome.diagnostics, List.map_append, String.join_append,
    join_diagnostics_report]
  cases (scan source).failure? <;> simp [Outcome.ofFailure, Output.diagnostics, scan]

theorem Scan.failure?_eq (s : Scan) :
    s.failure? = if s.errors = [] then none else some (.lexical s.errors.length) := by
  rw [failure?, hadError]
  cases s.errors <;> rfl

theorem exitCode_runSource (settings : LogSettings) (name source : String) :
    (runSource settings name source).exitCode = if (scan source).errors = [] then 0 else 65 := by
  rw [runSource, Outcome.after, Scan.failure?_eq]
  by_cases h : (scan source).errors = []
  · rw [if_pos h, if_pos h]
  · rw [if_neg h, if_neg h]
    rfl

/-! ## The line of a failure -/

/-- The line that names the number of faults, in one piece. -/
theorem Failure.line_lexical (count : Nat) :
    "Error: " ++ (lexical count).message ++ "\n" =
      "Error: scan reported " ++ toString count ++ " lexical error(s)\n" :=
  have hline (number : String) : "Error: " ++ ("scan reported " ++ number ++ " lexical error(s)") ++
      "\n" = "Error: scan reported " ++ number ++ " lexical error(s)\n" := by
    apply String.toList_injective
    simp
  hline (toString count)

theorem Failure.line_unreadable (path : String) (fault : ReadFault) :
    "Error: " ++ (unreadable path fault).message ++ "\n" =
      "Error: could not read '" ++ path ++ "': " ++ fault.message ++ "\n" :=
  have hline (reason : String) : "Error: " ++ ("could not read '" ++ path ++ "': " ++ reason) ++
      "\n" = "Error: could not read '" ++ path ++ "': " ++ reason ++ "\n" := by
    apply String.toList_injective
    simp
  hline fault.message

/-- The line on which a run that scans this source says why it fails. -/
theorem failureLine_scan (source : String) :
    ((scan source).failure?.elim "" fun failure => "Error: " ++ failure.message ++ "\n") =
      if (scan source).errors = [] then ""
      else "Error: scan reported " ++ toString (scan source).errors.length ++
        " lexical error(s)\n" := by
  rw [Scan.failure?_eq]
  split
  · rfl
  · exact Failure.line_lexical _

/-! ## The report -/

/-- **A file** that holds a text is scanned: the standard output is the token listing under the
path as its title, and the standard error stream, log lines apart, the diagnostic listing, to which
a run with faults adds their number; it ends with 65 then, and with 0 without faults. Of a file that
is missing, or cannot be read, or holds bytes that are no text, wherever they stop being one,
nothing is written or logged but the reason, and the run ends with 66. -/
theorem file_report (words : List String) (path level : String) (timings : Bool) (host : Host)
    (h : Request.ofWords words = .invoke ⟨.file path, level, timings⟩)
    (hfilter : (host.logFilter.bind Filter.parse?).isSome = true ∨
      (Filter.parse? level).isSome = true) :
    (∀ source : String, host.read path = .ok source.toUTF8 →
      (run words host).stdout = "== " ++ path ++ " ==\n" ++ tokenListing (scan source).tokens ∧
      (run words host).diagnostics = errorListing (scan source).errors ++
        (if (scan source).errors = [] then ""
        else "Error: scan reported " ++ toString (scan source).errors.length ++
          " lexical error(s)\n") ∧
      (run words host).exitCode = if (scan source).errors = [] then 0 else 65) ∧
    ((¬ ∃ source : String, host.read path = .ok source.toUTF8) → ∃ fault : ReadFault,
      (host.read path = .error fault ∨
        (fault = .notText ∧ ∃ bytes, host.read path = .ok bytes)) ∧
      (run words host).stdout = "" ∧
      (run words host).events = [] ∧
      (∀ stamp, (run words host).stderr stamp =
        "Error: could not read '" ++ path ++ "': " ++ fault.message ++ "\n") ∧
      (run words host).exitCode = 66) := by
  have hcomplaints := filterComplaints_eq_nil hfilter
  refine ⟨fun source hread => ?_, fun hnone => ?_⟩
  · rw [run_file h (Host.readText_eq_ok_iff.2 hread), hcomplaints]
    refine ⟨?_, ?_, ?_⟩
    · exact stdout_runSource _ _ _
    · rw [← failureLine_scan]
      exact diagnostics_runSource _ _ _
    · exact exitCode_runSource _ _ _
  · cases hread : host.readText path with
    | ok source => exact absurd ⟨source, Host.readText_eq_ok_iff.1 hread⟩ hnone
    | error fault =>
      rw [run_unreadable h hread, hcomplaints]
      refine ⟨fault, Host.read_of_readText_eq_error hread, rfl, rfl, fun stamp => ?_, rfl⟩
      rw [← Failure.line_unreadable]
      simp [Outcome.after, Outcome.ofFailure, Outcome.stderr, Output.stderr]

/-- A fault in a text, and a byte at the end of a file that makes it no text. -/
theorem file_report_late_byte :
    Request.ofWords ["--timings", "a.lox"] = .invoke ⟨.file "a.lox", "warn", true⟩ ∧
    (run ["--timings", "a.lox"] ⟨fun _ => .ok "1 @".toUTF8, [], some "debug"⟩).exitCode = 65 ∧
    ∃ fault : ReadFault, ∀ stamp,
      (run ["--timings", "a.lox"] ⟨fun _ => .ok ⟨#[0x31, 0x20, 0xC3]⟩, [], some "debug"⟩).stderr
        stamp = "Error: could not read '" ++ "a.lox" ++ "': " ++ fault.message ++ "\n" :=
  have h : Request.ofWords ["--timings", "a.lox"] = .invoke ⟨.file "a.lox", "warn", true⟩ := by
    decide +kernel
  have hfilter : ((some "debug").bind Filter.parse?).isSome = true := by decide +kernel
  have hbytes : String.fromUTF8? ⟨#[0x31, 0x20, 0xC3]⟩ = none := by decide +kernel
  have hnone : ¬ ∃ source : String, (.ok ⟨#[0x31, 0x20, 0xC3]⟩ : Except ReadFault ByteArray) =
      .ok source.toUTF8 := by
    rintro ⟨source, hsource⟩
    rw [fromUTF8?_eq_some_iff_eq_toUTF8.2 (Except.ok.inj hsource)] at hbytes
    cases hbytes
  have htext := (file_report ["--timings", "a.lox"] "a.lox" "warn" true
    ⟨fun _ => .ok "1 @".toUTF8, [], some "debug"⟩ h (.inl hfilter)).1 "1 @" rfl
  have hexit : (if (scan "1 @").errors = [] then 0 else 65) = 65 := by decide +kernel
  have ⟨fault, _, _, _, hstderr, _⟩ := (file_report ["--timings", "a.lox"] "a.lox" "warn" true
    ⟨fun _ => .ok ⟨#[0x31, 0x20, 0xC3]⟩, [], some "debug"⟩ h (.inl hfilter)).2 hnone
  ⟨h, htext.2.2.trans hexit, fault, hstderr⟩

end LoxLexer
