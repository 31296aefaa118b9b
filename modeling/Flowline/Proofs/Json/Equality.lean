import Flowline.Proofs.Json.Entries

/-!
# Equality of values, and values without repeats

`Json.same` is transitive, also where an object names a member twice (`Json.same_trans`).  So it
makes no difference whether a value is compared with the values before it, or only with those that
repeat none before them (`any_withoutRepeats`).
-/

namespace Flowline

namespace Json

/-- Each of the members has an equal one of its name. -/
theorem exists_of_sameMembers {as bs : List (String × Json)} {key : String} {a : Json}
    (all : sameMembers as bs = true) (mem : (key, a) ∈ as) :
    ∃ b, Entries.get? bs key = some b ∧ a.same b = true := by
  induction as with
  | nil => cases mem
  | cons member as ih =>
      rw [sameMembers, Bool.and_eq_true] at all
      obtain ⟨here, later⟩ := all
      rcases List.mem_cons.1 mem with rfl | mem
      · cases found : Entries.get? bs key with
        | none =>
            rw [found] at here
            cases here
        | some b =>
            rw [found] at here
            exact ⟨b, rfl, here⟩
      · exact ih later mem

mutual

theorem same_trans : ∀ {a b c : Json}, a.same b = true → b.same c = true → a.same c = true
  | null, b, c, left, right => by cases b <;> cases c <;> simp_all [same]
  | bool _, b, c, left, right => by cases b <;> cases c <;> simp_all [same]
  | int _, b, c, left, right => by cases b <;> cases c <;> simp_all [same]
  | float _, b, c, left, right => by cases b <;> cases c <;> simp_all [same, Double.same]
  | str _, b, c, left, right => by cases b <;> cases c <;> simp_all [same]
  | arr as, b, c, left, right => by
      cases b with
      | arr bs =>
          cases c with
          | arr cs =>
              rw [same] at left right ⊢
              exact sameElements_trans left right
          | _ => simp [same] at right
      | _ => simp [same] at left
  | obj as, b, c, left, right => by
      cases b with
      | obj bs =>
          cases c with
          | obj cs =>
              rw [same, Bool.and_eq_true, beq_iff_eq] at left right ⊢
              exact ⟨left.1.trans right.1, sameMembers_trans left.2 right.2⟩
          | _ => simp [same] at right
      | _ => simp [same] at left

theorem sameElements_trans : ∀ {as bs cs : List Json},
    sameElements as bs = true → sameElements bs cs = true → sameElements as cs = true
  | [], [], _, _, right => right
  | _ :: _, _ :: _, _ :: _, left, right => by
      rw [sameElements, Bool.and_eq_true] at left right ⊢
      exact ⟨same_trans left.1 right.1, sameElements_trans left.2 right.2⟩

theorem sameMembers_trans : ∀ {as bs cs : List (String × Json)},
    sameMembers as bs = true → sameMembers bs cs = true → sameMembers as cs = true
  | [], _, _, _, _ => by rw [sameMembers]
  | (key, a) :: as, bs, cs, left, right => by
      obtain ⟨b, found, here⟩ := exists_of_sameMembers left List.mem_cons_self
      obtain ⟨c, found_c, there⟩ := exists_of_sameMembers right (Entries.mem_of_get? found)
      rw [sameMembers, Bool.and_eq_true] at left ⊢
      rw [found_c]
      exact ⟨same_trans here there, sameMembers_trans left.2 right⟩

end

end Json

/-! ## Without repeats -/

/-- The values that no value before them equals, in their order. -/
def withoutRepeats (values : List Json) : List Json :=
  (values.zipIdx.filter fun v => !(values.take v.2).any (·.same v.1)).map (·.1)

theorem withoutRepeats_concat (values : List Json) (v : Json) :
    withoutRepeats (values ++ [v]) =
      if values.any (·.same v) then withoutRepeats values else withoutRepeats values ++ [v] := by
  have before : (values.zipIdx.filter fun w => !((values ++ [v]).take w.2).any (·.same w.1)) =
      values.zipIdx.filter fun w => !(values.take w.2).any (·.same w.1) := by
    refine List.filter_congr fun w mem => ?_
    have inside : w.2 ≤ values.length := Nat.le_of_lt (List.snd_lt_of_mem_zipIdx mem)
    rw [List.take_append_of_le_length inside]
  rw [withoutRepeats, List.zipIdx_append, List.filter_append, List.map_append, before]
  cases repeated : values.any (·.same v) with
  | true => simp [repeated, withoutRepeats]
  | false => simp [repeated, withoutRepeats]

/-- A value equals one of some values just in case it equals one of them that repeats none. -/
theorem any_withoutRepeats (values : List Json) (v : Json) :
    (withoutRepeats values).any (·.same v) = values.any (·.same v) := by
  induction values using List.reverseRecOn generalizing v with
  | nil => rfl
  | append_singleton values w ih =>
      rw [withoutRepeats_concat, List.any_append]
      cases repeated : values.any (·.same w) with
      | false => rw [if_neg Bool.false_ne_true, List.any_append, ih]
      | true =>
          rw [if_pos rfl, ih]
          -- the value before `w` that equals `w` also equals whatever `w` equals
          cases equals : w.same v with
          | false => simp [equals]
          | true =>
              obtain ⟨u, u_mem, same⟩ := List.any_eq_true.1 repeated
              have there : values.any (·.same v) = true :=
                List.any_eq_true.2 ⟨u, u_mem, Json.same_trans same equals⟩
              rw [there, Bool.true_or]

end Flowline
