import Mathlib.Data.List.TakeWhile
import Flowline.Path.Reader

/-!
# What a path means

A path without a wildcard denotes the value that its steps lead to one after another, and a path
with a wildcard denotes the array of everything that the steps behind the wildcard reach over the
contents of the value in front of it. `Path.meaning` says so with single values only, while
`Path.evaluate?` carries a list of current values along.

The two part in two places. A step that no query can express makes the whole path undefined, and
an index that meets an object goes on in the arrays among its members; what is reached that way
has gone `astray`.

* `select_eq_follow`: without a wildcard nothing has gone astray as soon as the steps lead
  somewhere, and else everything that is selected has.
* `reached_sublist_select`, `length_select`: what the steps reach is selected in that order, and
  the rest of the selection has gone astray.
* `Path.evaluate?_eq_meaning_iff`: evaluation gives what the path denotes exactly if nothing
  gets in by going astray.
-/

namespace Flowline

/-! ## The plain meaning of steps -/

/-- The elements of an array and the members of an object, in order. -/
def Json.contents : Json → List Json
  | arr elements => elements
  | obj members => members.map (·.2)
  | _ => []

/-- What a key gives on an object that has it, and an index on an array that is long enough. -/
def Step.at? : Step → Json → Option Json
  | key name, value => value.member? name
  | index n, .arr elements => elements[n]?
  | _, _ => none

/-- Where steps without a wildcard lead from one value. -/
def follow : List Step → Json → Option Json
  | [], value => some value
  | step :: rest, value => (step.at? value).bind (follow rest)

/-- Everything that the steps reach from one value: what is missing is dropped, and a wildcard goes
on from all contents. -/
def reached : List Step → Json → List Json
  | [], value => [value]
  | .wildcard :: rest, value => value.contents.flatMap (reached rest)
  | step :: rest, value => (step.at? value).toList.flatMap (reached rest)

/-- The step is an index and the value an object: what it collects then are no elements of the
value. -/
def Step.strays : Step → Json → Bool
  | index _, .obj _ => true
  | _, _ => false

/-- What is selected only because an index met an object. -/
def astray : List Step → Json → List Json
  | [], _ => []
  | step :: rest, value =>
    if step.strays value then select rest (step.collect value)
    else (step.collect value).flatMap (astray rest)

namespace Path

/-- Every step of the path can be looked up. -/
def isAnswerable (p : Path) : Bool := p.steps.all Step.isAnswerable

/-- The steps behind the first wildcard. -/
def behindWildcard (p : Path) : List Step := (p.steps.dropWhile (· != .wildcard)).tail

/-- What the path denotes: where its steps lead or, with a wildcard, the array of everything that
is reached behind it, provided that the steps before it lead to a container. -/
def meaning (p : Path) (value : Json) : Option Json :=
  if p.hasWildcard then
    (follow p.beforeWildcard value).bind fun base =>
      if isContainer base then some (.arr (base.contents.flatMap (reached p.behindWildcard)))
      else none
  else follow p.steps value

/-- Something that has gone astray counts: with a wildcard, what the steps before it select first
decides whether there is an array at all. -/
def isMisled (p : Path) (value : Json) : Bool :=
  if p.hasWildcard then
    match astray p.beforeWildcard value with
    | base :: _ => isContainer base
    | [] => !(astray p.steps value).isEmpty
  else !(astray p.steps value).isEmpty

end Path

/-! ## Selection from one value -/

theorem select_cons (step : Step) (rest : List Step) (values : List Json) :
    select (step :: rest) values = select rest (values.flatMap step.collect) := rfl

theorem select_eq_flatMap (steps : List Step) (values : List Json) :
    select steps values = values.flatMap fun value => select steps [value] := by
  induction steps generalizing values with
  | nil => exact (List.flatMap_singleton' values).symm
  | cons step rest ih =>
    calc select (step :: rest) values
        = (values.flatMap step.collect).flatMap fun value => select rest [value] := ih _
      _ = values.flatMap fun value =>
            (step.collect value).flatMap fun reachable => select rest [reachable] :=
          List.flatMap_assoc
      _ = values.flatMap fun value => select (step :: rest) [value] := by
          congr 1
          funext value
          rw [select_cons, ih, List.flatMap_singleton]

/-- From one value, the first step is followed by the rest from each value that it collects. -/
theorem select_cons_singleton (step : Step) (rest : List Step) (value : Json) :
    select (step :: rest) [value] =
      (step.collect value).flatMap fun reachable => select rest [reachable] := by
  rw [select_cons, List.flatMap_singleton, select_eq_flatMap]

theorem select_append (front behind : List Step) (values : List Json) :
    select (front ++ behind) values = select behind (select front values) := List.foldl_append

/-- A step that does not stray collects what it gives, or all contents if it is a wildcard. -/
theorem Step.collect_eq {step : Step} {value : Json} (straight : step.strays value = false) :
    step.collect value =
      if step = .wildcard then value.contents else (step.at? value).toList := by
  cases step with
  | key name => rfl
  | wildcard => cases value <;> rfl
  | index n =>
    cases value with
    | obj members => exact absurd straight Bool.noConfusion
    | _ => rfl

/-- A step that strays gives nothing. -/
theorem Step.at?_eq_none {step : Step} {value : Json} (strays : step.strays value = true) :
    step ≠ .wildcard ∧ step.at? value = none := by
  cases step with
  | index n =>
    cases value with
    | obj members => exact ⟨Step.noConfusion, rfl⟩
    | _ => exact absurd strays Bool.false_ne_true
  | _ => exact absurd strays Bool.false_ne_true

theorem astray_cons_of_straight {step : Step} {value : Json} (straight : step.strays value = false)
    (rest : List Step) :
    astray (step :: rest) value = (step.collect value).flatMap (astray rest) := by
  rw [astray, straight, if_neg Bool.false_ne_true]

/-- All that is selected by a step that strays has gone astray. -/
theorem astray_cons_of_strays {step : Step} {value : Json} (strays : step.strays value = true)
    (rest : List Step) : astray (step :: rest) value = select (step :: rest) [value] := by
  rw [astray, if_pos strays, select_cons, List.flatMap_singleton]

/-- What the first step gives and the rest reaches from there. -/
theorem reached_cons (step : Step) (rest : List Step) (value : Json) :
    reached (step :: rest) value =
      (if step = .wildcard then value.contents else (step.at? value).toList).flatMap
        (reached rest) := by
  cases step <;> rfl

theorem reached_cons_of_strays {step : Step} {value : Json} (strays : step.strays value = true)
    (rest : List Step) : reached (step :: rest) value = [] := by
  obtain ⟨single, nothing⟩ := Step.at?_eq_none strays
  rw [reached_cons, if_neg single, nothing]
  rfl

/-- Without a wildcard, either the steps lead somewhere and select just that, or all that they
select has gone astray. -/
theorem select_eq_follow {steps : List Step} (single : Step.wildcard ∉ steps) (value : Json) :
    (∃ target, follow steps value = some target ∧ select steps [value] = [target] ∧
      astray steps value = []) ∨
    (follow steps value = none ∧ select steps [value] = astray steps value) := by
  induction steps generalizing value with
  | nil => exact .inl ⟨value, rfl, rfl, rfl⟩
  | cons step rest ih =>
    obtain ⟨step_single, rest_single⟩ := List.ne_and_not_mem_of_not_mem_cons single
    cases strays : step.strays value with
    | true =>
      refine .inr ⟨?_, (astray_cons_of_strays strays rest).symm⟩
      rw [follow, (Step.at?_eq_none strays).2]
      rfl
    | false =>
      rw [follow, select_cons_singleton, astray_cons_of_straight strays, Step.collect_eq strays,
        if_neg step_single.symm]
      cases step.at? value with
      | none => exact .inr ⟨rfl, rfl⟩
      | some next =>
        simpa only [Option.bind_some, Option.toList_some, List.flatMap_singleton] using
          ih rest_single next

/-- What the steps reach is selected, in the same order. -/
theorem reached_sublist_select (steps : List Step) (value : Json) :
    (reached steps value).Sublist (select steps [value]) := by
  induction steps generalizing value with
  | nil => exact List.Sublist.refl _
  | cons step rest ih =>
    cases strays : step.strays value with
    | true =>
      rw [reached_cons_of_strays strays]
      exact List.nil_sublist _
    | false =>
      rw [reached_cons, ← Step.collect_eq strays, select_cons_singleton]
      generalize step.collect value = values
      induction values with
      | nil => exact List.Sublist.refl _
      | cons next others both =>
        rw [List.flatMap_cons, List.flatMap_cons]
        exact (ih next).append both

/-- What is selected is what is reached and what has gone astray. -/
theorem length_select (steps : List Step) (value : Json) :
    (select steps [value]).length = (reached steps value).length + (astray steps value).length := by
  induction steps generalizing value with
  | nil => rfl
  | cons step rest ih =>
    cases strays : step.strays value with
    | true =>
      rw [reached_cons_of_strays strays, astray_cons_of_strays strays]
      exact (Nat.zero_add _).symm
    | false =>
      rw [reached_cons, ← Step.collect_eq strays, select_cons_singleton,
        astray_cons_of_straight strays]
      generalize step.collect value = values
      induction values with
      | nil => rfl
      | cons next others both =>
        simp only [List.flatMap_cons, List.length_append, ih next, both]
        omega

/-- The steps select what they reach exactly if nothing has gone astray. -/
theorem select_eq_reached_iff (steps : List Step) (value : Json) :
    select steps [value] = reached steps value ↔ astray steps value = [] := by
  have parts := length_select steps value
  constructor
  · intro same
    rw [same] at parts
    exact List.length_eq_zero_iff.mp (by omega)
  · intro none_astray
    rw [none_astray, List.length_nil, Nat.add_zero] at parts
    exact ((reached_sublist_select steps value).eq_of_length parts.symm).symm

/-! ## Around the first wildcard -/

namespace Path

theorem wildcard_notMem_beforeWildcard (p : Path) : Step.wildcard ∉ p.beforeWildcard := by
  intro before
  simpa using List.mem_takeWhile_imp before

/-- The steps are those before the first wildcard, the wildcard, and those behind it. -/
theorem steps_eq_append {p : Path} (wild : p.hasWildcard = true) :
    p.steps = p.beforeWildcard ++ .wildcard :: p.behindWildcard := by
  have found : ∃ step ∈ p.steps, ¬ (step != .wildcard) = true :=
    ⟨.wildcard, List.contains_iff_mem.mp wild, by decide⟩
  have rest_ne : p.steps.dropWhile (· != .wildcard) ≠ [] := by
    intro nothing
    obtain ⟨step, step_mem, stops⟩ := found
    exact stops (List.dropWhile_eq_nil_iff.mp nothing step step_mem)
  have head_wild : (p.steps.dropWhile (· != .wildcard)).head rest_ne = .wildcard := by
    simpa using List.head_dropWhile_not (· != Step.wildcard) rest_ne
  calc p.steps = p.beforeWildcard ++ p.steps.dropWhile (· != .wildcard) :=
        List.takeWhile_append_dropWhile.symm
    _ = p.beforeWildcard ++ .wildcard :: p.behindWildcard := by
        rw [← List.cons_head_tail rest_ne, head_wild]
        rfl

end Path

/-- Everything in front of a base that the steps lead to is out of the way: only the steps behind
it reach and go astray. -/
theorem reached_append_of_follow {front : List Step} (single : Step.wildcard ∉ front)
    {value base : Json} (leads : follow front value = some base) (behind : List Step) :
    reached (front ++ behind) value = reached behind base := by
  induction front generalizing value with
  | nil =>
    cases leads
    rfl
  | cons step rest ih =>
    obtain ⟨step_single, rest_single⟩ := List.ne_and_not_mem_of_not_mem_cons single
    obtain ⟨next, found, onward⟩ := Option.bind_eq_some_iff.mp leads
    rw [List.cons_append, reached_cons, if_neg step_single.symm, found, Option.toList_some,
      List.flatMap_singleton, ih rest_single onward]

namespace Path

/-- Without a wildcard, evaluation gives what the path denotes exactly if nothing has gone
astray. -/
theorem head?_select_eq_follow_iff {steps : List Step} (single : Step.wildcard ∉ steps)
    (value : Json) :
    (select steps [value]).head? = follow steps value ↔ astray steps value = [] := by
  rcases select_eq_follow single value with ⟨target, leads, selected, nothing⟩ | ⟨nowhere, all⟩
  · rw [leads, selected, nothing]
    exact iff_of_true rfl rfl
  · rw [nowhere, all]
    exact List.head?_eq_none_iff

/-- What the evaluation of a path with a wildcard makes of the values selected before it. -/
def gathered (p : Path) (value : Json) : List Json → Option Json
  | base :: _ => if isContainer base then some (.arr (select p.steps [value])) else none
  | [] => none

theorem evaluate?_eq {p : Path} (answerable : p.isAnswerable = true) (value : Json) :
    p.evaluate? value =
      if p.hasWildcard then p.gathered value (select p.beforeWildcard [value])
      else (select p.steps [value]).head? := by
  rw [evaluate?]
  cases none_left : p.steps with
  | nil => simp [hasWildcard, none_left, select]
  | cons step rest =>
    have all_answerable : (step :: rest).all Step.isAnswerable = true := none_left ▸ answerable
    rw [all_answerable, ← none_left]
    simp only [none_left, List.isEmpty_cons, Bool.false_eq_true, if_false, Bool.not_true]
    split
    · cases select p.beforeWildcard [value] with
      | nil => rfl
      | cons base others => rw [gathered, none_left]
    · rfl

/-- The array behind a wildcard, if there is one, is the array of what the steps reach exactly if
nothing gets in by going astray. -/
theorem gathered_eq_meaning_iff {p : Path} (wild : p.hasWildcard = true) (value : Json) :
    p.gathered value (select p.beforeWildcard [value]) = p.meaning value ↔
      p.isMisled value = false := by
  have single := p.wildcard_notMem_beforeWildcard
  have parts := steps_eq_append wild
  have lengths := length_select p.steps value
  rw [meaning, isMisled, if_pos wild, if_pos wild]
  rcases select_eq_follow single value with ⟨base, leads, selected, nothing⟩ | ⟨nowhere, all⟩
  · -- The steps before the wildcard lead to a base: what counts is what happens behind it.
    have all_reached :
        reached p.steps value = base.contents.flatMap (reached p.behindWildcard) := by
      rw [parts, reached_append_of_follow single leads]
      rfl
    rw [leads, selected, nothing, Option.bind_some, gathered, ← all_reached]
    by_cases container : isContainer base = true
    · rw [if_pos container, if_pos container, Option.some_inj, Json.arr.injEq,
        select_eq_reached_iff, Bool.not_eq_false', List.isEmpty_iff]
    · have none_selected : select p.steps [value] = [] := by
        rw [parts, select_append, selected, select_cons_singleton]
        cases base <;> first | rfl | exact absurd rfl container
      rw [none_selected, List.length_nil] at lengths
      have none_astray : astray p.steps value = [] := List.length_eq_zero_iff.mp (by omega)
      rw [if_neg container, if_neg container, none_astray]
      exact iff_of_true rfl rfl
  · -- They lead nowhere: whatever they select has gone astray.
    rw [nowhere, all, Option.bind_none]
    cases strays : astray p.beforeWildcard value with
    | nil =>
      have none_selected : select p.steps [value] = [] := by
        rw [parts, select_append, all, strays, select_eq_flatMap]
        rfl
      rw [none_selected, List.length_nil] at lengths
      have none_astray : astray p.steps value = [] := List.length_eq_zero_iff.mp (by omega)
      rw [none_astray]
      exact iff_of_true rfl rfl
    | cons base others =>
      show (if isContainer base then _ else none) = none ↔ isContainer base = false
      cases isContainer base with
      | true => exact iff_of_false (Option.some_ne_none _) Bool.noConfusion
      | false => exact iff_of_true rfl rfl

/-- **What a path denotes.** A path with a step that no query can express is undefined everywhere.
Every other path evaluates to what it denotes, exactly if nothing that counts has gone astray. -/
theorem evaluate?_eq_meaning_iff (p : Path) (value : Json) :
    (p.isAnswerable = false → p.evaluate? value = none) ∧
    (p.isAnswerable = true →
      (p.evaluate? value = p.meaning value ↔ p.isMisled value = false)) := by
  constructor
  · intro unanswerable
    have some_steps : p.steps.isEmpty = false := by
      cases none_left : p.steps with
      | nil => simp [isAnswerable, none_left] at unanswerable
      | cons step rest => rfl
    have refused : p.steps.all Step.isAnswerable = false := unanswerable
    rw [evaluate?, some_steps, refused]
    rfl
  · intro answerable
    rw [evaluate?_eq answerable]
    by_cases wild : p.hasWildcard = true
    · rw [if_pos wild]
      exact gathered_eq_meaning_iff wild value
    · have single : Step.wildcard ∉ p.steps := fun listed =>
        wild (List.contains_iff_mem.mpr listed)
      rw [if_neg wild, meaning, if_neg wild, isMisled, if_neg wild, Bool.not_eq_false',
        List.isEmpty_iff]
      exact head?_select_eq_follow_iff single value

/-- A path without an index cannot go astray. -/
theorem astray_eq_nil_of_noIndex {steps : List Step} (named : ∀ n, Step.index n ∉ steps)
    (value : Json) : astray steps value = [] := by
  induction steps generalizing value with
  | nil => rfl
  | cons step rest ih =>
    have straight : step.strays value = false := by
      cases step with
      | index n => exact absurd List.mem_cons_self (named n)
      | _ => rfl
    rw [astray_cons_of_straight straight, List.flatMap_eq_nil_iff]
    intro next _
    exact ih (fun n later => named n (List.mem_cons_of_mem _ later)) next

/-- Each member of one name among the contents of a member. -/
def eachB : Path := ⟨"a[].b", [.key "a", .wildcard, .key "b"]⟩

/-- The first element of a member. -/
def firstOfA : Path := ⟨"a[0]", [.key "a", .index 0]⟩

/-- A member whose name ends in a backslash. -/
def backslashed : Path := ⟨"a\\", [.key "a\\"]⟩

theorem read_eq_ok {raw : String} {steps : List Step}
    (written : readSteps .start 0 (body raw) = .ok steps) (unmixed : mixedName? steps = none) :
    read raw = .ok ⟨raw, steps⟩ := by
  rw [read, written]
  simp only [unmixed]

theorem read_firstOfA : read "a[0]" = .ok firstOfA := read_eq_ok (by decide +kernel) rfl

theorem read_backslashed : read "a\\" = .ok backslashed := read_eq_ok (by decide +kernel) rfl

/-- An object with an array among its members, in a member. -/
def nestedArray : Json := .obj [("a", .obj [("x", .arr [.int 1])])]

/-- The plain meaning fails in both ways: an index reaches into an object, and a name that ends in
a backslash is not found. -/
theorem evaluate?_ne_meaning :
    (query nestedArray "a[0]" = .ok (some (.int 1)) ∧ firstOfA.meaning nestedArray = none) ∧
    (query (.obj [("a\\", .int 1)]) "a\\" = .ok none ∧
      backslashed.meaning (.obj [("a\\", .int 1)]) = some (.int 1)) := by
  simp only [query, read_firstOfA, read_backslashed]
  exact ⟨⟨rfl, rfl⟩, rfl, rfl⟩

/-- The three cases of `evaluate?_eq_meaning_iff` at one input each. -/
theorem evaluate?_eq_meaning_iff_examples :
    backslashed.evaluate? (.obj [("a\\", .int 1)]) = none ∧
    firstOfA.evaluate? nestedArray ≠ firstOfA.meaning nestedArray ∧
    eachB.evaluate? nestedArray = eachB.meaning nestedArray := by
  refine ⟨(evaluate?_eq_meaning_iff backslashed _).1 rfl, ?_, ?_⟩
  · intro same
    exact Bool.noConfusion (((evaluate?_eq_meaning_iff firstOfA nestedArray).2 rfl).mp same)
  · exact ((evaluate?_eq_meaning_iff eachB nestedArray).2 rfl).mpr rfl

end Path

end Flowline
