import LoxLexer.Proofs.Command.Argument
import LoxLexer.Proofs.Command.File
import LoxLexer.Proofs.Command.Session
import Mathlib.Data.List.Nodup
import Mathlib.Data.List.Perm.Basic

/-!
# The order of a command line

`command_order`: options and paths can stand in any order, and only one of them says where the
source comes from.

* `foldlM_add_of_fits`, `foldlM_add_of_not_fits`: units are gathered one by one, and the first that
  does not fit ends that. Which one it is depends on the order, but not whether there is one
  (`Options.Fits`).
* `foldl_take_perm`: units that fit settle different things, so any two of them can be taken in the
  other way round.
* `shows_foldl_take`, `settles_foldl_take`: what was gathered is what the units say, and no more.
* `misused_iff`: what is refused, while units are gathered or afterwards, is what `Misused` says.
* `sample_eq_false`: options without conflict never have a path and the sample, so the mode is the
  one that is named.
* `exists_invocation`, `Invocation.exitCode_run_ne`: everything else is run in one mode, and does
  not end like a command line that cannot be used.
-/

namespace LoxLexer

/-! ## Gathering units -/

namespace Options

/-- Whether something is settled. -/
def settles (o : Options) : CommandUnit.Slot → Bool
  | .path => o.path.isSome
  | .repl => o.repl
  | .sample => o.sample
  | .timings => o.timings
  | .logLevel => o.logLevel.isSome

/-- The options with one more unit, whether or not it can be taken in. -/
def take (o : Options) : CommandUnit → Options
  | .repl => { o with repl := true }
  | .sample => { o with sample := true }
  | .timings => { o with timings := true }
  | .logLevelApart value | .logLevelJoined value => { o with logLevel := some value }
  | .path name => { o with path := some name }

@[simp] theorem settles_none (s : CommandUnit.Slot) : ({} : Options).settles s = false := by
  cases s <;> rfl

/-- **Taking a unit in**: what it settles must be open, and a path must not be empty. -/
theorem add_argument (o : Options) (u : CommandUnit) : o.add u.argument =
    if o.settles u.slot = true ∨ u = .path "" then .error .usageError else .ok (o.take u) := by
  cases u <;> simp [add, CommandUnit.argument, settles, CommandUnit.slot, take]

@[simp] theorem settles_take (o : Options) (u : CommandUnit) (s : CommandUnit.Slot) :
    (o.take u).settles s = (o.settles s || u.slot == s) := by
  cases u <;> cases s <;> simp [settles, take, CommandUnit.slot]

theorem take_comm (o : Options) {u v : CommandUnit} (h : u.slot ≠ v.slot) :
    (o.take u).take v = (o.take v).take u := by
  cases u <;> cases v <;> first | rfl | exact absurd rfl h

/-- The units can all be taken in. -/
def Fits (o : Options) (units : List CommandUnit) : Prop :=
  (units.map CommandUnit.slot).Nodup ∧ ∀ u ∈ units, o.settles u.slot = false ∧ u ≠ .path ""

theorem fits_cons_iff {o : Options} {u : CommandUnit} {units : List CommandUnit} :
    o.Fits (u :: units) ↔
      ¬ (o.settles u.slot = true ∨ u = .path "") ∧ (o.take u).Fits units := by
  constructor
  · rintro ⟨hnodup, hfits⟩
    rw [List.map_cons, List.nodup_cons] at hnodup
    rw [List.forall_mem_cons] at hfits
    refine ⟨by simp [hfits.1], hnodup.2, fun v hv => ⟨?_, (hfits.2 v hv).2⟩⟩
    have hne : u.slot ≠ v.slot := fun heq => hnodup.1 (heq ▸ List.mem_map_of_mem hv)
    simp [(hfits.2 v hv).1, hne]
  · rintro ⟨hu, hnodup, hfits⟩
    -- what is open behind `u` was open before, and is not what `u` settles
    have hopen : ∀ v ∈ units, o.settles v.slot = false ∧ u.slot ≠ v.slot := by
      intro v hv
      simpa using (hfits v hv).1
    have hslot : u.slot ∉ units.map CommandUnit.slot := by
      intro hmem
      obtain ⟨v, hv, heq⟩ := List.mem_map.1 hmem
      exact (hopen v hv).2 heq.symm
    refine ⟨List.nodup_cons.2 ⟨hslot, hnodup⟩, List.forall_mem_cons.2 ⟨by simpa using hu, ?_⟩⟩
    exact fun v hv => ⟨(hopen v hv).1, (hfits v hv).2⟩

theorem foldlM_add_of_fits {o : Options} {units : List CommandUnit} (h : o.Fits units) :
    (units.map CommandUnit.argument).foldlM add o = .ok (units.foldl take o) := by
  induction units generalizing o with
  | nil => rfl
  | cons u units ih =>
    obtain ⟨hu, hunits⟩ := fits_cons_iff.1 h
    rw [List.map_cons, List.foldlM_cons, add_argument, if_neg hu, List.foldl_cons]
    exact ih hunits

theorem foldlM_add_of_not_fits {o : Options} {units : List CommandUnit} (h : ¬ o.Fits units) :
    (units.map CommandUnit.argument).foldlM add o = .error .usageError := by
  induction units generalizing o with
  | nil => exact absurd ⟨List.nodup_nil, by simp⟩ h
  | cons u units ih =>
    rw [List.map_cons, List.foldlM_cons, add_argument]
    by_cases hu : o.settles u.slot = true ∨ u = .path ""
    · rw [if_pos hu]
      rfl
    · rw [if_neg hu]
      exact ih fun hunits => h (fits_cons_iff.2 ⟨hu, hunits⟩)

/-- In whatever order units are taken in, the options are the same. -/
theorem foldl_take_perm {units units' : List CommandUnit} (h : units.Perm units')
    (hnodup : (units.map CommandUnit.slot).Nodup) (o : Options) :
    units.foldl take o = units'.foldl take o := by
  refine h.foldl_eq' (fun u hu v hv o => ?_) o
  by_cases heq : u.slot = v.slot
  · -- nothing is settled twice, so the two are one
    rw [List.inj_on_of_nodup_map hnodup hu hv heq]
  · exact take_comm o heq

/-! ## What is gathered -/

/-- The options have what the unit says. -/
def Shows (o : Options) : CommandUnit → Prop
  | .repl => o.repl = true
  | .sample => o.sample = true
  | .timings => o.timings = true
  | .logLevelApart value | .logLevelJoined value => o.logLevel = some value
  | .path name => o.path = some name

theorem shows_take (o : Options) (u : CommandUnit) : (o.take u).Shows u := by
  cases u <;> rfl

theorem Shows.take {o : Options} {u v : CommandUnit} (h : o.Shows u) (hne : u.slot ≠ v.slot) :
    (o.take v).Shows u := by
  cases u <;> cases v <;> first | exact h | exact absurd rfl hne

theorem Shows.foldl_take {o : Options} {u : CommandUnit} (h : o.Shows u)
    {units : List CommandUnit} (hu : u.slot ∉ units.map CommandUnit.slot) :
    (units.foldl Options.take o).Shows u := by
  induction units generalizing o with
  | nil => exact h
  | cons v units ih =>
    rw [List.map_cons, List.mem_cons, not_or] at hu
    exact ih (h.take hu.1) hu.2

/-- What each unit says is there at the end, if nothing is settled twice. -/
theorem shows_foldl_take {units : List CommandUnit} (h : (units.map CommandUnit.slot).Nodup)
    (o : Options) : ∀ u ∈ units, (units.foldl take o).Shows u := by
  induction units generalizing o with
  | nil => simp
  | cons v units ih =>
    rw [List.map_cons, List.nodup_cons] at h
    exact List.forall_mem_cons.2 ⟨(o.shows_take v).foldl_take h.1, ih h.2 _⟩

theorem settles_foldl_take {units : List CommandUnit} {o : Options} {s : CommandUnit.Slot} :
    (units.foldl take o).settles s = true ↔ o.settles s = true ∨ ∃ u ∈ units, u.slot = s := by
  induction units generalizing o with
  | nil => simp
  | cons u units ih =>
    rw [List.foldl_cons, ih, settles_take, List.exists_mem_cons_iff, Bool.or_eq_true, beq_iff_eq,
      or_assoc]

/-- Two modes are named. -/
theorem conflict_iff {o : Options} : o.conflict = true ↔
    ∃ s s' : CommandUnit.Slot, s ≠ s' ∧ s.namesMode = true ∧ s'.namesMode = true ∧
      o.settles s = true ∧ o.settles s' = true := by
  constructor
  · intro h
    simp only [conflict, Bool.or_eq_true, Bool.and_eq_true] at h
    rcases h with ⟨hpath, hrepl | hsample⟩ | ⟨hrepl, hsample⟩
    · exact ⟨.path, .repl, by decide, rfl, rfl, hpath, hrepl⟩
    · exact ⟨.path, .sample, by decide, rfl, rfl, hpath, hsample⟩
    · exact ⟨.repl, .sample, by decide, rfl, rfl, hrepl, hsample⟩
  · rintro ⟨s, s', hne, hs, hs', hsettles, hsettles'⟩
    cases s <;> cases s' <;>
      simp_all [CommandUnit.Slot.namesMode, settles, conflict]

/-! ## The mode -/

theorem mode_eq_session_iff {o : Options} : o.mode = .session ↔ o.repl = true := by
  rw [mode]
  cases o.repl <;> cases o.path <;> cases o.sample <;> simp

/-- Without conflict a path is never passed over: it does not stand beside `--sample`. -/
theorem sample_eq_false {o : Options} (h : o.conflict = false) {name : String}
    (hpath : o.path = some name) : o.sample = false := by
  simp only [conflict, hpath, Option.isSome_some, Bool.true_and, Bool.or_eq_false_iff] at h
  exact h.1.2

theorem mode_eq_file_iff {o : Options} (h : o.conflict = false) {name : String} :
    o.mode = .file name ↔ o.repl = false ∧ o.path = some name := by
  rw [mode]
  cases hpath : o.path with
  | none => cases o.repl <;> simp
  | some path =>
    rw [sample_eq_false h hpath]
    cases o.repl <;> simp

theorem mode_eq_sample_iff {o : Options} (h : o.conflict = false) :
    o.mode = .sample ↔ o.repl = false ∧ o.path = none := by
  rw [mode]
  cases hpath : o.path with
  | none => cases o.repl <;> simp
  | some path =>
    rw [sample_eq_false h hpath]
    cases o.repl <;> simp

end Options

/-! ## The request -/

namespace CommandUnit

theorem Misused.perm {units units' : List CommandUnit} (h : units.Perm units')
    (hmisused : Misused units) : Misused units' := by
  rcases hmisused with hnodup | hpath | ⟨u, hu, v, hv, hmodes⟩
  · exact .inl (mt (h.map slot).nodup_iff.2 hnodup)
  · exact .inr (.inl (h.mem_iff.1 hpath))
  · exact .inr (.inr ⟨u, h.mem_iff.1 hu, v, h.mem_iff.1 hv, hmodes⟩)

theorem nodup_of_not_misused {units : List CommandUnit} (h : ¬ Misused units) :
    (units.map slot).Nodup := not_not.1 fun hnodup => h (.inl hnodup)

theorem slot_eq_repl_iff {u : CommandUnit} : u.slot = .repl ↔ u = repl := by
  cases u <;> simp [slot]

theorem slot_eq_timings_iff {u : CommandUnit} : u.slot = .timings ↔ u = timings := by
  cases u <;> simp [slot]

theorem slot_eq_logLevel_iff {u : CommandUnit} :
    u.slot = .logLevel ↔ ∃ value, u = logLevelApart value ∨ u = logLevelJoined value := by
  cases u <;> simp [slot]

theorem slot_eq_path_iff {u : CommandUnit} : u.slot = .path ↔ ∃ name, u = path name := by
  cases u <;> simp [slot]

/-- The options that units ask for. -/
def options (units : List CommandUnit) : Options := units.foldl Options.take {}

theorem settles_options {units : List CommandUnit} {s : Slot} :
    (options units).settles s = true ↔ ∃ u ∈ units, u.slot = s := by
  rw [options, Options.settles_foldl_take, Options.settles_none]
  simp

theorem misused_iff {units : List CommandUnit} : Misused units ↔
    ¬ ({} : Options).Fits units ∨ (options units).conflict = true := by
  have hfits : ({} : Options).Fits units ↔ (units.map slot).Nodup ∧ path "" ∉ units := by
    rw [Options.Fits]
    refine and_congr_right fun _ => ⟨fun h hmem => (h _ hmem).2 rfl, fun h u hu => ?_⟩
    refine ⟨Options.settles_none _, ?_⟩
    rintro rfl
    exact h hu
  rw [hfits, Classical.not_and_iff_not_or_not, not_not, or_assoc, Misused, Options.conflict_iff]
  refine or_congr_right (or_congr_right ?_)
  simp only [settles_options]
  constructor
  · rintro ⟨u, hu, v, hv, hne, hmode, hmode'⟩
    exact ⟨_, _, hne, hmode, hmode', ⟨u, hu, rfl⟩, ⟨v, hv, rfl⟩⟩
  · rintro ⟨_, _, hne, hmode, hmode', ⟨u, hu, rfl⟩, ⟨v, hv, rfl⟩⟩
    exact ⟨u, hu, v, hv, hne, hmode, hmode'⟩

section
variable {units : List CommandUnit} (h : ∀ u ∈ units, u.WellSpelled)
include h

theorem request_of_misused (hmisused : Misused units) :
    Request.ofWords (units.flatMap words) = .usageError := by
  rw [Request.ofWords, Argument.ofWords_flatMap h, Request.ofArguments]
  -- refused when all are gathered, or at the first that does not fit
  by_cases hfits : ({} : Options).Fits units
  · have hconflict := (misused_iff.1 hmisused).resolve_left (not_not.2 hfits)
    rw [Options.foldlM_add_of_fits hfits]
    exact if_pos hconflict
  · rw [Options.foldlM_add_of_not_fits hfits]

theorem request_of_not_misused (hused : ¬ Misused units) :
    Request.ofWords (units.flatMap words) = .invoke ⟨(options units).mode,
      (options units).logLevel.getD Options.defaultLogLevel, (options units).timings⟩ := by
  rw [misused_iff, not_or, not_not] at hused
  rw [Request.ofWords, Argument.ofWords_flatMap h, Request.ofArguments,
    Options.foldlM_add_of_fits hused.1]
  exact if_neg hused.2

/-- **In whatever order** units stand, they ask for the same. -/
theorem request_perm {units' : List CommandUnit} (hperm : units.Perm units') :
    Request.ofWords (units'.flatMap words) = Request.ofWords (units.flatMap words) := by
  have h' : ∀ u ∈ units', u.WellSpelled := fun u hu => h u (hperm.mem_iff.2 hu)
  by_cases hmisused : Misused units
  · rw [request_of_misused h hmisused, request_of_misused h' (hmisused.perm hperm)]
  · have hused' : ¬ Misused units' := mt (Misused.perm hperm.symm) hmisused
    rw [request_of_not_misused h hmisused, request_of_not_misused h' hused', options, options,
      Options.foldl_take_perm hperm (nodup_of_not_misused hmisused)]

end

section
variable {units : List CommandUnit}

theorem repl_options : (options units).repl = true ↔ repl ∈ units := by
  have hrepl := @settles_options units .repl
  simpa only [Options.settles, slot_eq_repl_iff, exists_eq_right] using hrepl

theorem timings_options : (options units).timings = true ↔ timings ∈ units := by
  have htimings := @settles_options units .timings
  simpa only [Options.settles, slot_eq_timings_iff, exists_eq_right] using htimings

theorem logLevel_options (h : (units.map slot).Nodup) {value : String}
    (hvalue : logLevelApart value ∈ units ∨ logLevelJoined value ∈ units) :
    (options units).logLevel = some value := by
  have hshows := Options.shows_foldl_take h {}
  rcases hvalue with hmem | hmem
  · exact hshows _ hmem
  · exact hshows _ hmem

theorem logLevel_options_eq_none
    (h : ∀ value, logLevelApart value ∉ units ∧ logLevelJoined value ∉ units) :
    (options units).logLevel = none := by
  rw [← Option.not_isSome_iff_eq_none]
  intro hsettled
  have hlevel : (options units).settles .logLevel = true := hsettled
  obtain ⟨u, hu, hslot⟩ := settles_options.1 hlevel
  obtain ⟨value, rfl | rfl⟩ := slot_eq_logLevel_iff.1 hslot
  · exact (h value).1 hu
  · exact (h value).2 hu

theorem path_options (h : (units.map slot).Nodup) {name : String} :
    (options units).path = some name ↔ path name ∈ units := by
  have hshows := Options.shows_foldl_take h {}
  refine ⟨fun hname => ?_, fun hmem => hshows _ hmem⟩
  have hsettled : (options units).settles .path = true := by
    rw [Options.settles, hname]
    rfl
  obtain ⟨u, hu, hslot⟩ := settles_options.1 hsettled
  obtain ⟨name', rfl⟩ := slot_eq_path_iff.1 hslot
  obtain rfl := Option.some.inj (hname.symm.trans (hshows _ hu))
  exact hu

end

end CommandUnit

/-! ## The run -/

/-- Of all runs only those with a usage error end with two. -/
theorem Invocation.exitCode_run_ne (i : Invocation) (host : Host) : (i.run host).exitCode ≠ 2 := by
  have hsource (settings : LogSettings) (name source : String) :
      (runSource settings name source).exitCode ≠ 2 := by
    rw [exitCode_runSource]
    split <;> decide
  have hmode : (i.runMode host).exitCode ≠ 2 := by
    rw [runMode]
    split
    · exact Nat.zero_ne_add_one 1
    · exact hsource _ _ _
    · split
      · exact hsource _ _ _
      · exact (by decide : 66 ≠ 2)
  exact hmode

/-- Well-spelled units that can stand together ask for one mode, and settle what is logged. -/
theorem CommandUnit.exists_invocation {units : List CommandUnit} (h : ∀ u ∈ units, u.WellSpelled)
    (hused : ¬ Misused units) : ∃ (mode : Mode) (level : String) (timed : Bool),
      Request.ofWords (units.flatMap words) = .invoke ⟨mode, level, timed⟩ ∧
      (mode = .session ↔ repl ∈ units) ∧ (∀ name, mode = .file name ↔ path name ∈ units) ∧
      (mode = .sample ↔ repl ∉ units ∧ ∀ name, path name ∉ units) ∧
      (timed = true ↔ timings ∈ units) ∧
      (∀ value, logLevelApart value ∈ units ∨ logLevelJoined value ∈ units → level = value) ∧
      ((∀ value, logLevelApart value ∉ units ∧ logLevelJoined value ∉ units) →
        level = "warn") := by
  have hconflict : (options units).conflict = false :=
    Bool.eq_false_iff.2 fun hconflict => hused (misused_iff.2 (.inr hconflict))
  have hnodup := nodup_of_not_misused hused
  have hone {name : String} (hpath : path name ∈ units) : repl ∉ units := fun hrepl =>
    hused (.inr (.inr ⟨_, hpath, _, hrepl, by simp [slot], rfl, rfl⟩))
  have hrepl : (options units).repl = false ↔ repl ∉ units := by
    rw [← repl_options, Bool.not_eq_true]
  refine ⟨_, _, _, request_of_not_misused h hused, ?_, fun name => ?_, ?_, timings_options,
    fun value hvalue => ?_, fun hnone => ?_⟩
  · rw [Options.mode_eq_session_iff, repl_options]
  · rw [Options.mode_eq_file_iff hconflict, path_options hnodup, hrepl]
    exact and_iff_right_of_imp hone
  · rw [Options.mode_eq_sample_iff hconflict, hrepl, Option.eq_none_iff_forall_ne_some]
    simp only [ne_eq, path_options hnodup]
  · rw [logLevel_options hnodup hvalue, Option.getD_some]
  · rw [logLevel_options_eq_none hnone]
    rfl

/-- **The order of a command line** makes no difference. It cannot be used exactly if something is
settled twice, a path is empty, or two units say where the source comes from: then, whatever host it
runs on, it ends with two, and nothing is written but how the command is used. Any other runs in one
mode: a session if that is asked for, the file if a path is given, and the sample otherwise. What it
logs is asked for by `--timings` and `--log-level`, which is `warn` if it is not given. -/
theorem command_order (units : List CommandUnit) (h : ∀ u ∈ units, u.WellSpelled) :
    (∀ units' : List CommandUnit, units'.Perm units → ∀ host : Host,
      run (units'.flatMap CommandUnit.words) host = run (units.flatMap CommandUnit.words) host) ∧
    (∀ host : Host, (run (units.flatMap CommandUnit.words) host).exitCode = 2 ↔
      CommandUnit.Misused units) ∧
    (CommandUnit.Misused units → ∀ host : Host,
      run (units.flatMap CommandUnit.words) host = ⟨2, [.err usageText]⟩) ∧
    (¬ CommandUnit.Misused units → ∃ (mode : Mode) (level : String) (timings : Bool),
      (∀ host : Host, run (units.flatMap CommandUnit.words) host =
        Invocation.run ⟨mode, level, timings⟩ host) ∧
      (mode = .session ↔ .repl ∈ units) ∧
      (∀ name : String, mode = .file name ↔ .path name ∈ units) ∧
      (mode = .sample ↔ .repl ∉ units ∧ ∀ name : String, .path name ∉ units) ∧
      (timings = true ↔ .timings ∈ units) ∧
      (∀ value : String, .logLevelApart value ∈ units ∨ .logLevelJoined value ∈ units →
        level = value) ∧
      ((∀ value : String, .logLevelApart value ∉ units ∧ .logLevelJoined value ∉ units) →
        level = "warn") ∧
      ∀ host : Host,
        let complaints := (filterComplaints host.logFilter level).map Output.err
        let settings : LogSettings := ⟨effectiveFilter host.logFilter level, timings⟩
        (.repl ∈ units → run (units.flatMap CommandUnit.words) host =
          Outcome.after complaints
            ⟨0, Session.outputs settings (cutAfter lineFeed host.input)⟩) ∧
        (∀ name source : String, .path name ∈ units → host.readText name = .ok source →
          run (units.flatMap CommandUnit.words) host =
            Outcome.after complaints (runSource settings name source)) ∧
        (∀ (name : String) (fault : ReadFault), .path name ∈ units →
          host.readText name = .error fault →
          run (units.flatMap CommandUnit.words) host =
            Outcome.after complaints (Outcome.ofFailure (.unreadable name fault))) ∧
        (.repl ∉ units → (∀ name : String, .path name ∉ units) →
          run (units.flatMap CommandUnit.words) host =
            Outcome.after complaints (runSource settings "sample" sampleProgram))) := by
  have hmisused : CommandUnit.Misused units → ∀ host : Host,
      run (units.flatMap CommandUnit.words) host = ⟨2, [.err usageText]⟩ := by
    intro hunits host
    rw [run, CommandUnit.request_of_misused h hunits]
  refine ⟨fun units' hperm host => ?_, fun host => ⟨fun hexit => ?_, fun hunits => ?_⟩, hmisused,
    fun hused => ?_⟩
  · rw [run, run, CommandUnit.request_perm h hperm.symm]
  · by_contra hunits
    obtain ⟨mode, level, timings, hrequest, -⟩ := CommandUnit.exists_invocation h hunits
    rw [run, hrequest] at hexit
    exact Invocation.exitCode_run_ne _ host hexit
  · rw [hmisused hunits host]
  · obtain ⟨mode, level, timings, hrequest, hsession, hfile, hsample, htimings, hlevel, hwarn⟩ :=
      CommandUnit.exists_invocation h hused
    refine ⟨mode, level, timings, fun host => by rw [run, hrequest], hsession, hfile, hsample,
      htimings, hlevel, hwarn, fun host => ⟨?_, ?_, ?_, ?_⟩⟩
    · intro hrepl
      obtain rfl := hsession.2 hrepl
      exact run_session hrequest host
    · intro name source hpath hread
      obtain rfl := (hfile name).2 hpath
      exact run_file hrequest hread
    · intro name fault hpath hread
      obtain rfl := (hfile name).2 hpath
      exact run_unreadable hrequest hread
    · intro hrepl hpath
      obtain rfl := hsample.2 ⟨hrepl, hpath⟩
      exact run_sample hrequest host

/-- A path that is a hyphen, and a filter before and behind it. -/
theorem command_order_hyphen :
    let units : List CommandUnit := [.logLevelJoined "lox_scan=info", .path "-", .timings]
    let units' : List CommandUnit := [.path "-", .timings, .logLevelJoined "lox_scan=info"]
    (∀ u ∈ units, u.WellSpelled) ∧ units'.Perm units ∧
      ∀ host : Host, run (units'.flatMap CommandUnit.words) host =
          run (units.flatMap CommandUnit.words) host ∧
        (run (units.flatMap CommandUnit.words) host).exitCode ≠ 2 := by
  intro units units'
  have h : ∀ u ∈ units, u.WellSpelled := by simp [units, CommandUnit.WellSpelled]
  have hperm : units'.Perm units := by decide
  have hused : ¬ CommandUnit.Misused units := by
    simp [units, CommandUnit.Misused, CommandUnit.slot, CommandUnit.Slot.namesMode]
  exact ⟨h, hperm, fun host =>
    ⟨(command_order units h).1 units' hperm host, mt ((command_order units h).2.1 host).1 hused⟩⟩

end LoxLexer
