import Flowline.Text.Search

/-!
# Splitting

To split a text at every occurrence of a character undoes to put texts together with the character
between them (`splitEach_append`, `splitEach_intercalate`).  To split it at the first occurrence
gives the only two parts of which the first does not have the character
(`splitFirst?_eq_some_iff`).
-/

namespace Flowline

variable {separator : Char} {text before after : List Char}

theorem splitEach_eq_splitOn (separator : Char) (text : List Char) :
    splitEach separator text = text.splitOn separator := by
  induction text with
  | nil => rfl
  | cons c rest ih =>
      rw [splitEach, ih, List.splitOn_eq_splitOnP, List.splitOn_eq_splitOnP,
        List.splitOnP_cons_eq_if_modifyHead]
      by_cases here : c = separator
      · rw [if_pos here, if_pos (beq_iff_eq.2 here)]
      · rw [if_neg here, if_neg (by simpa using here)]
        cases pieces : rest.splitOnP (· == separator) with
        | nil => exact absurd pieces (List.splitOnP_ne_nil _ rest)
        | cons piece pieces => rfl

/-- The pieces of two texts with the separator between them are those of the one and then those of
the other. -/
theorem splitEach_append (separator : Char) (first second : List Char) :
    splitEach separator (first ++ separator :: second) =
      splitEach separator first ++ splitEach separator second := by
  simp only [splitEach_eq_splitOn, List.splitOn_eq_splitOnP]
  exact List.splitOnP_append_cons first second (beq_self_eq_true separator)

/-- The pieces of texts that are put together are these texts. -/
theorem splitEach_intercalate {texts : List (List Char)} (some_text : texts ≠ [])
    (whole : ∀ text ∈ texts, separator ∉ text) :
    splitEach separator ([separator].intercalate texts) = texts := by
  rw [splitEach_eq_splitOn]
  exact List.splitOn_intercalate separator whole some_text

theorem splitEach_of_notMem (whole : separator ∉ text) : splitEach separator text = [text] := by
  rw [splitEach_eq_splitOn, List.splitOn_eq_splitOnP]
  refine List.splitOnP_eq_singleton fun c mem => beq_eq_false_iff_ne.2 ?_
  exact ne_of_mem_of_not_mem mem whole

theorem splitFirst?_append (absent : separator ∉ before) (after : List Char) :
    splitFirst? separator (before ++ separator :: after) = some (before, after) := by
  induction before with
  | nil => exact if_pos rfl
  | cons c before ih =>
      obtain ⟨differs, absent⟩ := not_or.1 (mt List.mem_cons.2 absent)
      rw [List.cons_append, splitFirst?, if_neg (Ne.symm differs), ih absent]
      rfl

/-- The two parts are those around the first occurrence of the separator. -/
theorem splitFirst?_eq_some_iff :
    splitFirst? separator text = some (before, after) ↔
      text = before ++ separator :: after ∧ separator ∉ before := by
  refine ⟨fun found => ?_, fun ⟨same, absent⟩ => same ▸ splitFirst?_append absent after⟩
  induction text generalizing before with
  | nil => cases found
  | cons c rest ih =>
      rw [splitFirst?] at found
      split at found
      · next here =>
          subst here
          cases found
          exact ⟨rfl, List.not_mem_nil⟩
      · next differs =>
          obtain ⟨⟨front, back⟩, later, same⟩ := Option.map_eq_some_iff.1 found
          cases same
          obtain ⟨parts, absent⟩ := ih later
          refine ⟨congrArg (c :: ·) parts, fun mem => ?_⟩
          exact (List.mem_cons.1 mem).elim (Ne.symm differs) absent

end Flowline
