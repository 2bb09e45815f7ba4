import LoxLexer.Command.Run
import LoxLexer.Proofs.Command.File
import LoxLexer.Proofs.Command.Session
import LoxLexer.Proofs.Event.Scan

/-!
# Logging does not touch the results

`logging_isolated`: what a run logs makes no difference to the rest of what it writes, nor to how it
ends.

* `exists_parts`: a run has parts that do not depend on what is logged, and writes them with the log
  lines of its filter.
* `join_outputs_eq`: whatever reads no log lines reads the same in parts whatever is logged.
* `InEffect.eq_effectiveFilter`: a text that is a filter is read as that filter, so there is one in
  effect.
-/

namespace LoxLexer

/-! ## Events that are logged -/

theorem Scan.level_of_mem_events {traced : Bool} {cs : List Char} {e : Event}
    (h : e ∈ events traced cs) : e.level = .trace ∨ e.level = .debug := by
  rw [events, List.mem_append] at h
  rcases h with h | h
  · obtain ⟨⟨start, stop, item⟩, -, hitem⟩ := List.mem_filterMap.1 h
    cases item with
    | token t =>
      cases traced <;> cases hitem
      exact .inl rfl
    | diagnostic d =>
      cases hitem
      exact .inr rfl
  · rw [List.mem_singleton.1 h]
    exact .inr rfl

/-- An untraced scan reports the debug events. -/
theorem Scan.events_untraced_eq_debug (cs : List Char) :
    events false cs = (events true cs).filter (·.level = .debug) := by
  rw [events_untraced]
  refine List.filter_congr fun e he => ?_
  rcases level_of_mem_events he with h | h <;> rw [h] <;> rfl

theorem LogSettings.events_eq (filter : Filter) (timings : Bool) :
    LogSettings.events ⟨filter, timings⟩ =
      fun text => (loggable timings text).filter filter.admits := by
  funext text
  rw [LogSettings.events, loggable, Scan.events_untraced_eq_debug, Event.scanned,
    utf8ByteSize_ofList]

/-! ## The filter in effect -/

theorem filterMap_of_mapM {α β : Type} {f : α → Option β} {l : List α} {l' : List β}
    (h : l.mapM f = some l') : l.filterMap f = l' := by
  induction l generalizing l' with
  | nil => cases h; rfl
  | cons a l ih =>
    simp only [List.mapM_cons, Option.bind_eq_bind, Option.bind_eq_some_iff] at h
    obtain ⟨b, hb, bs, hl, hbs⟩ := h
    cases hbs
    rw [List.filterMap_cons_some hb, ih hl]

namespace Filter

/-- A text that is a filter is the same filter when it is read leniently. -/
theorem parseLenient_of_parse? {text : String} {f : Filter} (h : parse? text = some f) :
    parseLenient text = f := by
  obtain ⟨directives, hdirectives, rfl⟩ := Option.map_eq_some_iff.1 h
  rw [parseLenient, filterMap_of_mapM hdirectives]

theorem InEffect.eq_effectiveFilter {environment : Option String} {logLevel : String} {f : Filter}
    (h : InEffect environment logLevel f) : effectiveFilter environment logLevel = f := by
  rcases h with h | ⟨hnone, h⟩
  · rw [effectiveFilter, h, Option.getD_some]
  · rw [effectiveFilter, hnone, Option.getD_none, parseLenient_of_parse? h]

theorem exists_inEffect {environment : Option String} {logLevel : String}
    (h : (environment.bind parse?).isSome = true ∨ (parse? logLevel).isSome = true) :
    ∃ f, InEffect environment logLevel f := by
  cases henvironment : environment.bind parse? with
  | some f => exact ⟨f, .inl henvironment⟩
  | none =>
    rw [henvironment] at h
    obtain ⟨f, hf⟩ := Option.isSome_iff_exists.1 (h.resolve_left (by decide))
    exact ⟨f, .inr ⟨henvironment, hf⟩⟩

end Filter

/-! ## The parts of a run -/

namespace Session

/-- What a session writes at the end of its input or at the line that ends it, as parts. -/
def lastParts (rest : List (List UInt8)) : List Part :=
  (if rest.head?.any (!isText ·) then [Part.err (ReadFault.notText.message ++ "\n")] else []) ++
    [Part.out "Exiting.\n"]

/-- A prompt and a scan for each line, and a prompt at the end. -/
def parts (scanned : List (List Char)) (rest : List (List UInt8)) : List Part :=
  scanned.flatMap (fun line => [Part.out "> ", Part.scan "repl" (trim line)]) ++
    Part.out "> " :: lastParts rest

theorem outputs_lastParts (logged : List Char → List Event) (rest : List (List UInt8)) :
    (lastParts rest).flatMap (Part.outputs logged) = lastWords rest := by
  rw [lastParts, lastWords]
  split <;> rfl

theorem outputs_eq_parts {lines rest : List (List UInt8)} {scanned : List (List Char)}
    (h : Course lines scanned rest) (settings : LogSettings) :
    outputs settings lines = (parts scanned rest).flatMap (Part.outputs settings.events) := by
  have hline (line : List Char) :
      [Part.out "> ", Part.scan "repl" (trim line)].flatMap (Part.outputs settings.events) =
        prompt :: report settings "repl" (trim line) := by
    rw [List.flatMap_cons, List.flatMap_singleton]
    rfl
  rw [outputs_of_course h, parts, List.flatMap_append, List.flatMap_assoc, List.flatMap_cons,
    outputs_lastParts, funext hline]
  rfl

theorem texts_lastParts (rest : List (List UInt8)) :
    (lastParts rest).filterMap Part.text? = [] := by
  rw [lastParts]
  split <;> rfl

theorem texts_parts (scanned : List (List Char)) (rest : List (List UInt8)) :
    (parts scanned rest).filterMap Part.text? = scanned.map trim := by
  rw [parts, List.filterMap_append, List.filterMap_flatMap, List.filterMap_cons, texts_lastParts]
  simp [Part.text?, List.filterMap_cons, ← List.map_eq_flatMap]

end Session

/-- The scan of a source and, if it has faults, why the run fails. -/
def sourceParts (name source : String) : List Part :=
  Part.scan name source.toList ::
    ((scan source).failure?.map fun failure =>
      Part.err ("Error: " ++ failure.message ++ "\n")).toList

def sourceExitCode (source : String) : Nat := ((scan source).failure?.map Failure.exitCode).getD 0

theorem runSource_eq_parts (settings : LogSettings) (name source : String) :
    runSource settings name source =
      ⟨sourceExitCode source,
        (sourceParts name source).flatMap (Part.outputs settings.events)⟩ := by
  rw [runSource, sourceExitCode, sourceParts]
  cases (scan source).failure? <;> rfl

theorem texts_sourceParts (name source : String) :
    (sourceParts name source).filterMap Part.text? = [source.toList] := by
  rw [sourceParts]
  cases (scan source).failure? <;> rfl

/-- **A run has parts** and an exit code whatever is logged, and writes the parts with the log lines
of its settings. -/
theorem exists_parts (mode : Mode) (host : Host) :
    ∃ (parts : List Part) (code : Nat), mode.Scans host (parts.filterMap Part.text?) ∧
      ∀ (level : String) (timings : Bool) (environment : Option String),
        Invocation.runMode ⟨mode, level, timings⟩ { host with logFilter := environment } =
          ⟨code, parts.flatMap (Part.outputs
            (LogSettings.events ⟨effectiveFilter environment level, timings⟩))⟩ := by
  cases mode with
  | session =>
    obtain ⟨scanned, rest, hcourse⟩ := Session.exists_course (cutAfter lineFeed host.input)
    refine ⟨Session.parts scanned rest, 0, ?_, fun level timings environment => ?_⟩
    · rw [Session.texts_parts]
      exact .session hcourse
    · rw [← Session.outputs_eq_parts hcourse]
      rfl
  | file path =>
    cases hread : host.readText path with
    | ok source =>
      refine ⟨sourceParts path source, sourceExitCode source, ?_,
        fun level timings environment => ?_⟩
      · rw [texts_sourceParts]
        exact .file hread
      · have hread' : { host with logFilter := environment }.readText path = .ok source := hread
        rw [Invocation.runMode]
        dsimp only
        rw [hread']
        exact runSource_eq_parts _ _ _
    | error fault =>
      refine ⟨[.err ("Error: " ++ (Failure.unreadable path fault).message ++ "\n")], 66,
        .unreadable hread, fun level timings environment => ?_⟩
      have hread' : { host with logFilter := environment }.readText path = .error fault := hread
      rw [Invocation.runMode]
      dsimp only
      rw [hread']
      rfl
  | sample =>
    refine ⟨sourceParts "sample" sampleProgram, sourceExitCode sampleProgram, ?_,
      fun level timings environment => ?_⟩
    · rw [texts_sourceParts]
      exact .sample
    · exact runSource_eq_parts _ _ _

/-! ## What is read without the log lines -/

/-- What reads no log lines reads the same in parts whatever is logged. -/
theorem join_outputs_eq {read : Output → String} (hread : ∀ event, read (.log event) = "")
    (logged logged' : List Char → List Event) (parts : List Part) :
    String.join ((parts.flatMap (Part.outputs logged)).map read) =
      String.join ((parts.flatMap (Part.outputs logged')).map read) := by
  have hpart (logged : List Char → List Event) (p : Part) :
      String.join ((p.outputs logged).map read) =
        String.join ((p.outputs fun _ => []).map read) := by
    cases p with
    | scan name text =>
      have hlog : String.join (((logged text).map Output.log).map read) = "" := by
        rw [List.map_map]
        exact join_map_eq_empty fun event _ => hread event
      rw [Part.outputs, List.map_append, String.join_append, hlog, String.empty_append]
      rfl
    | out text => rfl
    | err text => rfl
  rw [join_map_flatMap, join_map_flatMap, funext (hpart logged), funext (hpart logged')]

/-- A run in this mode, if there is nothing to complain about in its filter. -/
theorem run_of_inEffect {words : List String} {mode : Mode} {level : String} {timings : Bool}
    (h : Request.ofWords words = .invoke ⟨mode, level, timings⟩) {environment : Option String}
    {filter : Filter} (hfilter : filter.InEffect environment level) (host : Host) :
    run words { host with logFilter := environment } =
      Invocation.runMode ⟨mode, level, timings⟩ { host with logFilter := environment } := by
  have hcomplaints : filterComplaints environment level = [] := by
    refine filterComplaints_eq_nil ?_
    rcases hfilter with henvironment | ⟨-, hlevel⟩
    · exact .inl (Option.isSome_iff_exists.2 ⟨filter, henvironment⟩)
    · exact .inr (Option.isSome_iff_exists.2 ⟨filter, hlevel⟩)
  rw [run, h]
  dsimp only
  rw [Invocation.run, Invocation.complaints]
  dsimp only
  rw [hcomplaints]
  rfl

/-- The log lines of parts are those of the texts that are scanned, in turn. -/
theorem filterMap_event?_outputs (logged : List Char → List Event) (parts : List Part) :
    (parts.flatMap (Part.outputs logged)).filterMap Output.event? =
      (parts.filterMap Part.text?).flatMap logged := by
  induction parts with
  | nil => rfl
  | cons p parts ih =>
    rw [List.flatMap_cons, List.filterMap_append, ih]
    cases p with
    | scan name text =>
      simp [Part.outputs, Part.text?, Output.event?, List.filterMap_cons, Function.comp_def]
    | out text => rfl
    | err text => rfl

/-- **Logging is kept apart.** Two runs in the same mode, on the same files and the same input,
whose filters can be read, write the same but for their log lines and end in the same way, whatever
the filters are and whether or not they log how long each scan takes. Both write the same parts. In
each of them the log lines of a scan come before all that is reported of it: those of its events,
and of how long it took if asked, that the filter in effect lets through. Where the environment
names a filter that can be read, the option makes no difference at all. -/
theorem logging_isolated (mode : Mode) (host : Host) (words words' : List String)
    (level level' : String) (timings timings' : Bool) (environment environment' : Option String)
    (h : Request.ofWords words = .invoke ⟨mode, level, timings⟩)
    (h' : Request.ofWords words' = .invoke ⟨mode, level', timings'⟩)
    (hfilter : (environment.bind Filter.parse?).isSome = true ∨
      (Filter.parse? level).isSome = true)
    (hfilter' : (environment'.bind Filter.parse?).isSome = true ∨
      (Filter.parse? level').isSome = true) :
    (run words { host with logFilter := environment }).stdout =
      (run words' { host with logFilter := environment' }).stdout ∧
    (run words { host with logFilter := environment }).exitCode =
      (run words' { host with logFilter := environment' }).exitCode ∧
    (run words { host with logFilter := environment }).diagnostics =
      (run words' { host with logFilter := environment' }).diagnostics ∧
    (∃ (parts : List Part) (filter filter' : Filter),
      mode.Scans host (parts.filterMap Part.text?) ∧
      filter.InEffect environment level ∧ filter'.InEffect environment' level' ∧
      (run words { host with logFilter := environment }).outputs = parts.flatMap
        (Part.outputs fun text => (loggable timings text).filter filter.admits) ∧
      (run words' { host with logFilter := environment' }).outputs = parts.flatMap
        (Part.outputs fun text => (loggable timings' text).filter filter'.admits) ∧
      (run words { host with logFilter := environment }).events =
        (parts.filterMap Part.text?).flatMap fun text =>
          (loggable timings text).filter filter.admits) ∧
    ((environment.bind Filter.parse?).isSome = true →
      ∀ (words'' : List String) (level'' : String),
        Request.ofWords words'' = .invoke ⟨mode, level'', timings⟩ →
        run words'' { host with logFilter := environment } =
          run words { host with logFilter := environment }) := by
  obtain ⟨parts, code, hscans, hruns⟩ := exists_parts mode host
  obtain ⟨filter, hf⟩ := Filter.exists_inEffect hfilter
  obtain ⟨filter', hf'⟩ := Filter.exists_inEffect hfilter'
  have hrun := run_of_inEffect h hf host
  have hrun' := run_of_inEffect h' hf' host
  rw [hruns, hf.eq_effectiveFilter, LogSettings.events_eq] at hrun
  rw [hruns, hf'.eq_effectiveFilter, LogSettings.events_eq] at hrun'
  refine ⟨?_, ?_, ?_, ⟨parts, filter, filter', hscans, hf, hf', ?_, ?_, ?_⟩, ?_⟩
  · rw [hrun, hrun']
    exact join_outputs_eq (fun _ => rfl) _ _ parts
  · rw [hrun, hrun']
  · rw [hrun, hrun']
    exact join_outputs_eq (fun _ => rfl) _ _ parts
  · rw [hrun]
  · rw [hrun']
  · rw [hrun]
    exact filterMap_event?_outputs _ parts
  · intro hsome words'' level'' h''
    obtain ⟨named, hnamed⟩ := Option.isSome_iff_exists.1 hsome
    have hnamed' (anyLevel : String) : named.InEffect environment anyLevel := .inl hnamed
    rw [run_of_inEffect h'' (hnamed' level''), run_of_inEffect h (hnamed' level), hruns, hruns,
      (hnamed' level'').eq_effectiveFilter, (hnamed' level).eq_effectiveFilter]

/-- A session of two lines, logged by the environment's filter and not at all. The first line has
two bytes and one character. -/
theorem logging_isolated_session :
    Request.ofWords ["--timings", "--repl"] = .invoke ⟨.session, "warn", true⟩ ∧
    Request.ofWords ["--repl", "--log-level", "off"] = .invoke ⟨.session, "off", false⟩ ∧
    ((some "lox_scanner=debug,lox_scan=info").bind Filter.parse?).isSome = true ∧
    (Filter.parse? "off").isSome = true ∧
    (run ["--timings", "--repl"] ⟨fun _ => .error .notFound, utf8 "é\n\"a".toList,
      some "lox_scanner=debug,lox_scan=info"⟩).diagnostics =
      (run ["--repl", "--log-level", "off"]
        ⟨fun _ => .error .notFound, utf8 "é\n\"a".toList, none⟩).diagnostics ∧
    (∃ (texts : List (List Char)) (filter : Filter),
      Mode.Scans ⟨fun _ => .error .notFound, utf8 "é\n\"a".toList, none⟩ .session texts ∧
      filter.InEffect (some "lox_scanner=debug,lox_scan=info") "warn" ∧
      (run ["--timings", "--repl"] ⟨fun _ => .error .notFound, utf8 "é\n\"a".toList,
        some "lox_scanner=debug,lox_scan=info"⟩).events =
        texts.flatMap fun text => (loggable true text).filter filter.admits) ∧
    (run ["--timings", "--repl"] ⟨fun _ => .error .notFound, utf8 "é\n\"a".toList,
      some "lox_scanner=debug,lox_scan=info"⟩).events =
      [⟨.debug, "lox_scanner::scanner", "Unexpected character.", [("line", .count 1)]⟩,
        ⟨.debug, "lox_scanner::scanner", "scan finished",
          [("tokens", .count 1), ("errors", .count 1), ("lines", .count 1)]⟩,
        ⟨.info, "lox_scan", "scanned", [("elapsed", .cpuTime), ("bytes", .count 2)]⟩,
        ⟨.debug, "lox_scanner::scanner", "Unterminated string.", [("line", .count 1)]⟩,
        ⟨.debug, "lox_scanner::scanner", "scan finished",
          [("tokens", .count 1), ("errors", .count 1), ("lines", .count 1)]⟩,
        ⟨.info, "lox_scan", "scanned", [("elapsed", .cpuTime), ("bytes", .count 2)]⟩] :=
  have h : Request.ofWords ["--timings", "--repl"] = .invoke ⟨.session, "warn", true⟩ := by
    decide +kernel
  have h' : Request.ofWords ["--repl", "--log-level", "off"] =
      .invoke ⟨.session, "off", false⟩ := by
    decide +kernel
  have hfilter : ((some "lox_scanner=debug,lox_scan=info").bind Filter.parse?).isSome = true := by
    decide +kernel
  have hfilter' : (Filter.parse? "off").isSome = true := by decide +kernel
  have hsame := logging_isolated .session
    ⟨fun _ => .error .notFound, utf8 "é\n\"a".toList, none⟩ ["--timings", "--repl"]
    ["--repl", "--log-level", "off"] "warn" "off" true false
    (some "lox_scanner=debug,lox_scan=info") none h h' (.inl hfilter) (.inr hfilter')
  have ⟨_, _, hdiagnostics, ⟨parts, filter, _, hscans, hf, _, _, _, hevents⟩, _⟩ := hsame
  ⟨h, h', hfilter, hfilter', hdiagnostics,
    ⟨parts.filterMap Part.text?, filter, hscans, hf, hevents⟩, by decide +kernel⟩

end LoxLexer
