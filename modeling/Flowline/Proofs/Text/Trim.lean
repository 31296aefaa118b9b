import Flowline.Text.Blank
import Mathlib.Data.List.DropRight

/-!
# Trimming

Trimming twice, first by a narrower class of characters, is trimming once (`strip_strip`).  What
trimming takes away are blanks at both ends (`exists_trimChars_between`, `trimChars_between`), all of
the text just if it is blank (`trim_eq_empty_iff`), and nothing of a text that neither begins nor
ends with a blank (`trimChars_eq_self`).
-/

namespace Flowline

/-- The text without the characters of a class at both ends. -/
def strip (p : Char → Bool) (cs : List Char) : List Char := (cs.dropWhile p).rdropWhile p

theorem trimChars_eq_strip (cs : List Char) : trimChars cs = strip isBlank cs := rfl

theorem rdropWhile_append (p : Char → Bool) (front back : List Char) :
    (front ++ back).rdropWhile p =
      if back.rdropWhile p = [] then front.rdropWhile p else front ++ back.rdropWhile p := by
  unfold List.rdropWhile
  rw [List.reverse_append, List.dropWhile_append]
  by_cases gone : back.reverse.dropWhile p = []
  · simp [gone]
  · simp [gone]

theorem rdropWhile_cons (p : Char → Bool) (c : Char) (rest : List Char) :
    (c :: rest).rdropWhile p =
      if rest.rdropWhile p = [] ∧ p c = true then [] else c :: rest.rdropWhile p := by
  rw [← List.singleton_append, rdropWhile_append]
  by_cases gone : rest.rdropWhile p = []
  · rw [if_pos gone, gone]
    cases inside : p c <;> simp [List.rdropWhile, inside]
  · simp [gone]

section

variable {p q : Char → Bool} (narrower : ∀ c, p c = true → q c = true)
include narrower

theorem dropWhile_dropWhile (cs : List Char) : (cs.dropWhile p).dropWhile q = cs.dropWhile q := by
  induction cs with
  | nil => rfl
  | cons c rest ih =>
      rw [List.dropWhile_cons]
      split
      · next dropped => rw [ih, List.dropWhile_cons, if_pos (narrower c dropped)]
      · rfl

theorem rdropWhile_rdropWhile (cs : List Char) :
    (cs.rdropWhile p).rdropWhile q = cs.rdropWhile q := by
  simp only [List.rdropWhile, List.reverse_reverse, dropWhile_dropWhile narrower]

/-- It does not matter which end is trimmed first. -/
theorem dropWhile_rdropWhile (cs : List Char) :
    (cs.rdropWhile p).dropWhile q = (cs.dropWhile q).rdropWhile p := by
  induction cs with
  | nil => rfl
  | cons c rest ih =>
      by_cases dropped : q c = true
      · rw [List.dropWhile_cons, if_pos dropped, ← ih, rdropWhile_cons]
        split
        · next both => rw [both.1]
        · rw [List.dropWhile_cons, if_pos dropped]
      · have stays : ¬ p c = true := fun inside => dropped (narrower c inside)
        have kept : (c :: rest).rdropWhile p = c :: rest.rdropWhile p := by
          rw [rdropWhile_cons, if_neg fun both => stays both.2]
        rw [kept, List.dropWhile_cons, if_neg dropped, List.dropWhile_cons, if_neg dropped, kept]

/-- Trimming by a narrower class first changes nothing. -/
theorem strip_strip (cs : List Char) : strip q (strip p cs) = strip q cs := by
  unfold strip
  rw [dropWhile_rdropWhile narrower, rdropWhile_rdropWhile narrower, dropWhile_dropWhile narrower]

end

theorem trimChars_trimChars (cs : List Char) : trimChars (trimChars cs) = trimChars cs := by
  rw [trimChars_eq_strip, trimChars_eq_strip]
  exact strip_strip (fun _ blank => blank) cs

/-- A text is what is left of it when it is trimmed, with blanks in front and behind. -/
theorem exists_trimChars_between (text : List Char) :
    ∃ front back, (∀ c ∈ front, isBlank c = true) ∧ (∀ c ∈ back, isBlank c = true) ∧
      text = front ++ (trimChars text ++ back) := by
  let rest := text.dropWhile isBlank
  refine ⟨text.takeWhile isBlank, rest.rtakeWhile isBlank, fun c mem => List.mem_takeWhile_imp mem,
    fun c mem => List.mem_rtakeWhile_imp mem, ?_⟩
  have back : trimChars text ++ rest.rtakeWhile isBlank = rest := List.rdropWhile_append_rtakeWhile
  rw [back, List.takeWhile_append_dropWhile]

/-- Blanks around a text are trimmed away with its own. -/
theorem trimChars_between {front back : List Char} (front_blank : ∀ c ∈ front, isBlank c = true)
    (back_blank : ∀ c ∈ back, isBlank c = true) (text : List Char) :
    trimChars (front ++ (text ++ back)) = trimChars text := by
  have gone : back.rdropWhile isBlank = [] := List.rdropWhile_eq_nil_iff.2 back_blank
  rw [trimChars_eq_strip, trimChars_eq_strip, strip, strip,
    List.dropWhile_append_of_pos front_blank, ← dropWhile_rdropWhile fun _ blank => blank,
    rdropWhile_append, if_pos gone, dropWhile_rdropWhile fun _ blank => blank]

theorem trimChars_subset (text : List Char) : trimChars text ⊆ text := by
  obtain ⟨front, back, -, -, parts⟩ := exists_trimChars_between text
  intro c mem
  rw [parts]
  exact List.mem_append_right front (List.mem_append_left back mem)

theorem trimChars_eq_nil_iff {text : List Char} :
    trimChars text = [] ↔ ∀ c ∈ text, isBlank c = true := by
  constructor
  · intro gone
    obtain ⟨front, back, front_blank, back_blank, parts⟩ := exists_trimChars_between text
    rw [gone, List.nil_append] at parts
    intro c mem
    rw [parts] at mem
    exact (List.mem_append.1 mem).elim (front_blank c) (back_blank c)
  · intro blank
    have none_blank : ∀ c ∈ ([] : List Char), isBlank c = true := nofun
    have alone : trimChars (text ++ ([] ++ [])) = [] := trimChars_between blank none_blank []
    rwa [List.append_nil, List.append_nil] at alone

theorem allBlank_iff {text : String} :
    allBlank text = true ↔ ∀ c ∈ text.toList, isBlank c = true := List.all_eq_true

/-- Nothing is left of a text just if it is made of blanks. -/
theorem trim_eq_empty_iff {text : String} : trim text = "" ↔ allBlank text = true := by
  rw [trim, String.ofList_eq_empty_iff, trimChars_eq_nil_iff, allBlank_iff]

theorem isBlank_of_trim_eq_empty {text : String} (gone : trim text = "") :
    ∀ c ∈ text.toList, isBlank c = true := allBlank_iff.1 (trim_eq_empty_iff.1 gone)

theorem allBlank_append (first second : String) :
    allBlank (first ++ second) = (allBlank first && allBlank second) := by
  rw [allBlank, String.toList_append, List.all_append]
  rfl

theorem allBlank_singleton (c : Char) : allBlank (String.singleton c) = isBlank c := by
  simp [allBlank]

theorem trim_trim (text : String) : trim (trim text) = trim text := by
  rw [trim, trim, String.toList_ofList, trimChars_trimChars]

theorem toList_trim_subset (text : String) : (trim text).toList ⊆ text.toList := by
  rw [trim, String.toList_ofList]
  exact trimChars_subset text.toList

theorem exists_trim_between (text : String) :
    ∃ front back, allBlank front = true ∧ allBlank back = true ∧
      text = front ++ trim text ++ back := by
  obtain ⟨front, back, front_blank, back_blank, parts⟩ := exists_trimChars_between text.toList
  refine ⟨String.ofList front, String.ofList back, ?_, ?_, ?_⟩
  · rwa [allBlank_iff, String.toList_ofList]
  · rwa [allBlank_iff, String.toList_ofList]
  · simpa [← String.toList_inj, trim] using parts

theorem trim_between {front back : String} (front_blank : allBlank front = true)
    (back_blank : allBlank back = true) (text : String) :
    trim (front ++ text ++ back) = trim text := by
  have chars := trimChars_between (allBlank_iff.1 front_blank) (allBlank_iff.1 back_blank)
    text.toList
  rw [trim, String.toList_append, String.toList_append, List.append_assoc, chars, trim]

/-- A text that neither begins nor ends with a blank stays as it is. -/
theorem trimChars_eq_self {text : List Char} (front : ∀ c ∈ text.head?, isBlank c = false)
    (back : ∀ c ∈ text.getLast?, isBlank c = false) : trimChars text = text := by
  have kept : text.dropWhile isBlank = text := by
    cases text with
    | nil => rfl
    | cons c rest => rw [List.dropWhile_cons, front c rfl, if_neg Bool.false_ne_true]
  rw [trimChars_eq_strip, strip, kept, List.rdropWhile_eq_self_iff]
  intro some_char
  rw [back _ (List.getLast?_eq_some_getLast some_char)]
  exact Bool.false_ne_true

end Flowline
