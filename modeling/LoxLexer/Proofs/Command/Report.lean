import LoxLexer.Command.Run

/-!
# What a report writes

A report writes the token listing under its title to the standard output
(`join_stdout_report`) and, log lines apart, the diagnostic listing to the standard error stream
(`join_diagnostics_report`), whatever is logged. The filter in effect is complained about only if
there is a part of it that cannot be read (`filterComplaints_eq_nil`), and on the standard error
stream before all else (`Outcome.diagnostics_after_complaints`).
-/

namespace LoxLexer

/-! ## Texts joined -/

theorem join_map_flatMap {α β : Type} (f : α → List β) (g : β → String) (l : List α) :
    String.join ((l.flatMap f).map g) = String.join (l.map fun a => String.join ((f a).map g)) := by
  induction l with
  | nil => rfl
  | cons a l ih =>
    rw [List.flatMap_cons, List.map_append, String.join_append, ih, List.map_cons, String.join_cons]

theorem join_map_eq_empty {α : Type} {f : α → String} {l : List α} (h : ∀ a ∈ l, f a = "") :
    String.join (l.map f) = "" := by
  induction l with
  | nil => rfl
  | cons a l ih =>
    rw [List.forall_mem_cons] at h
    rw [List.map_cons, String.join_cons, h.1, ih h.2, String.empty_append]

/-! ## Reports -/

theorem join_stdout_report (settings : LogSettings) (name : String) (cs : List Char) :
    String.join ((report settings name cs).map Output.stdout) =
      listingTitle name ++ tokenListing (Scan.ofText cs).tokens := by
  have hlog : String.join (((settings.events cs).map Output.log).map Output.stdout) = "" := by
    rw [List.map_map]
    exact join_map_eq_empty fun _ _ => rfl
  rw [report, List.map_append, String.join_append, hlog, String.empty_append]
  simp [Output.stdout]

theorem join_diagnostics_report (settings : LogSettings) (name : String) (cs : List Char) :
    String.join ((report settings name cs).map Output.diagnostics) =
      errorListing (Scan.ofText cs).errors := by
  have hlog : String.join (((settings.events cs).map Output.log).map Output.diagnostics) = "" := by
    rw [List.map_map]
    exact join_map_eq_empty fun _ _ => rfl
  rw [report, List.map_append, String.join_append, hlog, String.empty_append]
  simp [Output.diagnostics]

/-! ## Complaints -/

theorem isSome_of_mapM {α β : Type} {f : α → Option β} {l : List α}
    (h : (l.mapM f).isSome = true) : ∀ a ∈ l, (f a).isSome = true := by
  induction l with
  | nil => simp
  | cons a l ih =>
    obtain ⟨bs, hbs⟩ := Option.isSome_iff_exists.1 h
    simp only [List.mapM_cons, Option.bind_eq_bind, Option.bind_eq_some_iff] at hbs
    obtain ⟨b, hb, bs', hl, -⟩ := hbs
    exact List.forall_mem_cons.2 ⟨Option.isSome_iff_exists.2 ⟨b, hb⟩,
      ih (Option.isSome_iff_exists.2 ⟨bs', hl⟩)⟩

/-- There is nothing to complain about in a text that is a filter. -/
theorem Filter.complaints_eq_nil {text : String} (h : (parse? text).isSome = true) :
    complaints text = [] := by
  rw [parse?, Option.isSome_map] at h
  refine List.filterMap_eq_nil_iff.2 fun piece hpiece => ?_
  have hpiece := isSome_of_mapM h piece hpiece
  rw [complaint?]
  cases hparse : Directive.parse piece with
  | ok _ => rfl
  | error _ =>
    rw [hparse] at hpiece
    cases hpiece

/-- A filter that can be read is not complained about. -/
theorem filterComplaints_eq_nil {environment : Option String} {logLevel : String}
    (h : (environment.bind Filter.parse?).isSome = true ∨
      (Filter.parse? logLevel).isSome = true) : filterComplaints environment logLevel = [] := by
  rw [filterComplaints]
  split
  · rfl
  · next hnone => exact Filter.complaints_eq_nil (h.resolve_left hnone)

namespace Outcome

/-- Complaints that come first are not on the standard output. -/
theorem stdout_after_complaints (complaints : List String) (o : Outcome) :
    (o.after (complaints.map .err)).stdout = o.stdout := by
  have hcomplaints : String.join ((complaints.map Output.err).map Output.stdout) = "" := by
    rw [List.map_map]
    exact join_map_eq_empty fun _ _ => rfl
  rw [after, stdout, stdout, List.map_append, String.join_append, hcomplaints, String.empty_append]

theorem diagnostics_after_complaints (complaints : List String) (o : Outcome) :
    (o.after (complaints.map .err)).diagnostics = String.join complaints ++ o.diagnostics := by
  have hcomplaints : (complaints.map Output.err).map Output.diagnostics = complaints := by
    rw [List.map_map]
    exact List.map_id _
  rw [after, diagnostics, diagnostics, List.map_append, String.join_append, hcomplaints]

end Outcome

end LoxLexer
