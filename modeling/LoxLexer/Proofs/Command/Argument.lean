import LoxLexer.Command.Request

/-!
# Words read as arguments

`ofWords_flatMap`: the words of well-spelled units are read as the arguments that the units stand
for, one after the other.

* `ofWord_label`, `ofWord_path`: what a single word is read as, by how it begins.
* `ofWords_append`: the words of one unit are read without regard to the words behind them, also if
  the first takes the second as its value.
-/

namespace LoxLexer

namespace Argument

theorem isOptionLike_eq_false {word : String} (h : word.toList.head? ≠ some '-') :
    isOptionLike word = false := by
  unfold isOptionLike
  split
  · next hword => exact absurd (by rw [hword]; rfl) h
  · rfl

theorem joinedLevel?_label (value : String) :
    joinedLevel? ("--log-level=" ++ value) = some value := by
  have hprefix : "--log-level=".toList.isPrefixOf ("--log-level=" ++ value).toList = true := by
    rw [List.isPrefixOf_iff_prefix, String.toList_append]
    exact List.prefix_append _ _
  rw [joinedLevel?, if_pos hprefix, String.toList_append, List.drop_left, String.ofList_toList]

theorem joinedLevel?_eq_none {word : String} (h : word.toList.head? ≠ some '-') :
    joinedLevel? word = none := by
  rw [joinedLevel?, if_neg]
  rw [List.isPrefixOf_iff_prefix]
  rintro ⟨rest, hrest⟩
  exact h (by rw [← hrest]; rfl)

theorem label_append_ne {value word : String}
    (h : "--log-level=".toList.isPrefixOf word.toList = false) :
    "--log-level=" ++ value ≠ word := by
  rintro rfl
  simp at h

theorem ofWord_label (value : String) : ofWord ("--log-level=" ++ value) = logLevel value := by
  unfold ofWord
  split
  iterate 5
    next hword => exact absurd hword (label_append_ne (by decide))
  rw [joinedLevel?_label]

/-- A word that does not begin with a hyphen is a path. -/
theorem ofWord_path {name : String} (h : name.toList.head? ≠ some '-') :
    ofWord name = path name := by
  unfold ofWord
  split
  iterate 5 exact absurd (by decide) h
  rw [joinedLevel?_eq_none h]
  dsimp only
  split
  iterate 3
    next hword => exact absurd (by rw [hword]; rfl) h
  rfl

/-- **The words of a unit** are read as its argument, whatever words come next. -/
theorem ofWords_append {u : CommandUnit} (h : u.WellSpelled) (words : List String) :
    ofWords (u.words ++ words) = u.argument :: ofWords words := by
  cases u with
  | repl | sample | timings => rfl
  | logLevelApart value =>
    simp only [CommandUnit.words, List.cons_append, List.nil_append, ofWords,
      isOptionLike_eq_false h.2]
    rfl
  | logLevelJoined value =>
    rw [CommandUnit.words, List.singleton_append, ofWords, ofWord_label, CommandUnit.argument]
    · exact label_append_ne (by decide)
    · exact fun hword => absurd hword (label_append_ne (by decide))
    · exact fun _ _ hword => absurd hword (label_append_ne (by decide))
  | path name =>
    rcases h with rfl | h
    · rfl
    · have hne {word : String} (hword : word.toList.head? = some '-') : name ≠ word := by
        rintro rfl
        exact h hword
      rw [CommandUnit.words, List.singleton_append, ofWords, ofWord_path h, CommandUnit.argument]
      · exact hne (by decide)
      · exact fun hword => absurd hword (hne (by decide))
      · exact fun _ _ hword => absurd hword (hne (by decide))

theorem ofWords_flatMap {units : List CommandUnit} (h : ∀ u ∈ units, u.WellSpelled) :
    ofWords (units.flatMap CommandUnit.words) = units.map CommandUnit.argument := by
  induction units with
  | nil => rfl
  | cons u units ih =>
    rw [List.forall_mem_cons] at h
    rw [List.flatMap_cons, ofWords_append h.1, ih h.2, List.map_cons]

end Argument

end LoxLexer
