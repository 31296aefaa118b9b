import Flowline.Proofs.Except
import Flowline.Proofs.Node.Faults

/-!
# The verdict of a test

A test judges each of its assertions by the value of its source alone, in the order in which they
stand, and then counts.  `Assertion.MetBy` says when an assertion is met, `NodeContext.Finds` which
value its source has.

* `Assertion.verdict_eq`, `Assertion.complaint_judged`: how one assertion is judged.
* `TestConfig.outcome_eq`: the outcome of a test from the judgements of its assertions.
* `TestConfig.judges_of_validate`: what a test that has been validated reports.
-/

namespace Flowline

/-- The value that an id stands for: what this run has put out there, or else what an earlier one
has left, if there is anything. -/
inductive NodeContext.Finds (ctx : NodeContext) (id : String) : Option Json → Prop where
  | current {value : Json} (now : ctx.scope.data.member? id = some value) :
      ctx.Finds id (some value)
  | earlier {value : Json} (not_now : ctx.scope.data.member? id = none)
      (before : ctx.previous.get? id = some value) : ctx.Finds id (some value)
  | nothing (not_now : ctx.scope.data.member? id = none)
      (not_before : ctx.previous.get? id = none) : ctx.Finds id none

theorem NodeContext.finds_resultOf (ctx : NodeContext) (id : String) :
    ctx.Finds id (TestConfig.resultOf ctx id) := by
  unfold TestConfig.resultOf
  cases now : ctx.scope.data.member? id with
  | some value => exact .current now
  | none =>
      cases before : ctx.previous.get? id with
      | some value => exact .earlier now before
      | none => exact .nothing now before

theorem NodeContext.Finds.eq_resultOf {ctx : NodeContext} {id : String} {source : Option Json}
    (finds : ctx.Finds id source) : source = TestConfig.resultOf ctx id := by
  unfold TestConfig.resultOf
  cases finds with
  | current now => rw [now]; rfl
  | earlier not_now before => rw [not_now, before]; rfl
  | nothing not_now not_before => rw [not_now, not_before]; rfl

/-! ## One assertion -/

namespace Assertion

/-- What the assertion looks at in the value of its source; nothing if its path is not readable. -/
def looksAt (a : Assertion) (source : Json) : Option Json := (a.actual source).toOption.join

/-- The value of its source meets the assertion: what the assertion looks at is there and compares
as it says, or is not there and should differ from some value. -/
inductive MetBy (a : Assertion) : Option Json → Prop where
  | there {source seen : Json} (looks : a.looksAt source = some seen) (some_value : seen ≠ .null)
      (compares : holds a.operator seen a.expected = true) : a.MetBy (some source)
  | missing {source : Json} (looks : ∀ seen, a.looksAt source = some seen → seen = .null)
      (differs : a.operator = .notEquals) (expects : a.expected ≠ .null) : a.MetBy (some source)

/-- What the assertion comes to, by the value of its source alone. -/
def judged (a : Assertion) : Option Json → Verdict
  | some source => ⟨a.looksAt source, complaint? a.operator (a.looksAt source) a.expected⟩
  | none => ⟨none, some ("node '" ++ a.sourceNodeId ++ "' has no result")⟩

/-- The entry for the assertion in the report of a test. -/
def entry (a : Assertion) (source : Option Json) : Json := a.report (a.judged source)

variable {a : Assertion}

theorem verdict_some (a : Assertion) (source : Json) :
    a.verdict (some source) =
      (a.actual source).map fun seen => ⟨seen, complaint? a.operator seen a.expected⟩ := rfl

theorem verdict_eq (valid : validatePath? a.path = .ok ()) (source : Option Json) :
    a.verdict source = .ok (a.judged source) := by
  cases source with
  | none => rfl
  | some source =>
      obtain ⟨v, checked⟩ := (fails_verdict valid (some source)).exists_ok
      rw [verdict_some] at checked
      obtain ⟨seen, looked, -⟩ := map_eq_ok checked
      rw [verdict_some, judged, looksAt, looked]
      rfl

theorem same_null_iff {v : Json} : v.same .null = true ↔ v = .null := by
  cases v <;> simp [Json.same]

/-- What is there is complained about if it does not compare as it should, what is not there unless
it should differ from some value. -/
theorem complaint?_eq_none_iff {op : AssertionOp} {seen : Option Json} {expected : Json} :
    complaint? op seen expected = none ↔
      (∃ v, seen = some v ∧ v ≠ .null ∧ holds op v expected = true) ∨
        (∀ v, seen = some v → v = .null) ∧ op = .notEquals ∧ expected ≠ .null := by
  have expects : (op = .notEquals && !expected.same .null) = true ↔
      op = .notEquals ∧ expected ≠ .null := by
    simp [← same_null_iff]
  cases seen with
  | none => simp [complaint?, ← expects]
  | some v =>
      by_cases null : v = .null
      · subst null
        simp [complaint?, ← expects]
      · simp [complaint?, null]

/-- No complaint is made about an assertion that is met, and one about every other. -/
theorem complaint_judged (a : Assertion) (source : Option Json) :
    (a.judged source).complaint = none ↔ a.MetBy source := by
  cases source with
  | none =>
      constructor
      · rintro ⟨⟩
      · rintro ⟨⟩
  | some source =>
      rw [judged, complaint?_eq_none_iff]
      constructor
      · rintro (⟨seen, looks, some_value, compares⟩ | ⟨looks, differs, expects⟩)
        · exact .there looks some_value compares
        · exact .missing looks differs expects
      · rintro (⟨looks, some_value, compares⟩ | ⟨looks, differs, expects⟩)
        · exact .inl ⟨_, looks, some_value, compares⟩
        · exact .inr ⟨looks, differs, expects⟩

/-- The entry says of the assertion whether it is met. -/
theorem passed_entry_iff (a : Assertion) (source : Option Json) :
    (a.entry source).member? "passed" = some (.bool true) ↔ a.MetBy source := by
  have passed : (a.entry source).member? "passed" =
      some (.bool (a.judged source).complaint.isNone) := rfl
  rw [passed, ← complaint_judged]
  simp

/-- The assertion is met by what its source stands for in the context. -/
def MetIn (a : Assertion) (ctx : NodeContext) : Prop :=
  ∃ source, ctx.Finds a.sourceNodeId source ∧ a.MetBy source

/-- What the assertion comes to in the context. -/
def judgedIn (ctx : NodeContext) (a : Assertion) : Verdict :=
  a.judged (TestConfig.resultOf ctx a.sourceNodeId)

theorem metIn_iff {ctx : NodeContext} :
    a.MetIn ctx ↔ (a.judgedIn ctx).complaint = none := by
  rw [judgedIn, complaint_judged]
  constructor
  · rintro ⟨source, finds, met⟩
    rwa [← finds.eq_resultOf]
  · exact fun met => ⟨_, ctx.finds_resultOf _, met⟩

instance (a : Assertion) (ctx : NodeContext) : Decidable (a.MetIn ctx) :=
  decidable_of_iff _ metIn_iff.symm

end Assertion

/-! ## All of them -/

namespace TestConfig

variable {c : TestConfig} {ctx : NodeContext}

/-- The assertions that are not met. -/
def failing (c : TestConfig) (ctx : NodeContext) : List Assertion :=
  c.assertions.filter fun a => (a.judgedIn ctx).complaint.isSome

/-- The entries of the report. -/
def entries (c : TestConfig) (ctx : NodeContext) : List Json :=
  c.assertions.map fun a => a.report (a.judgedIn ctx)

/-- The report of a test, and its failure unless all assertions are met. -/
def report (c : TestConfig) (ctx : NodeContext) : NodeOutput :=
  let total := c.assertions.length
  let failed := (c.failing ctx).length
  { data := .obj [
      ("passed", .bool (failed == 0)),
      ("total", .ofNat total),
      ("passedCount", .ofNat (total - failed)),
      ("failedCount", .ofNat failed),
      ("results", .arr (c.entries ctx))]
    failure := if failed = 0 then none else some (.assertion failed total)
    halt := (c.failing ctx).any (·.stopOnFailure) }

/-- No assertion of a test that has been validated keeps the others from being checked. -/
theorem outcome_eq (valid : (NodeConfig.test c).validate = .ok ()) (ctx : NodeContext) :
    c.outcome ctx = .ok (c.report ctx) := by
  have each : List.Forall₂ (fun a r => (do
        return (a, ← a.verdict (resultOf ctx a.sourceNodeId)) : Except NodeError _) = .ok r)
      c.assertions (c.assertions.map fun a => (a, a.judgedIn ctx)) := by
    rw [List.forall₂_map_right_iff, List.forall₂_same]
    intro a mem
    rw [a.verdict_eq (forM_eq_ok valid a mem)]
    rfl
  have failing_eq : (c.assertions.map fun a => (a, a.judgedIn ctx)).filter
      (fun e => e.2.complaint.isSome) = (c.failing ctx).map fun a => (a, a.judgedIn ctx) :=
    List.filter_map
  have reports : (c.assertions.map fun a => (a, a.judgedIn ctx)).map (fun e => e.1.report e.2) =
      c.entries ctx := List.map_map
  unfold outcome report
  rw [mapM_eq_ok_iff.2 each]
  change (if _ then _ else _) = _
  rw [failing_eq, reports, List.length_map, List.any_map]
  split
  · next none_failing =>
      have no_failing : c.failing ctx = [] := List.length_eq_zero_iff.1 none_failing
      rw [no_failing]
      rfl
  · next some_failing =>
      dsimp only
      rw [if_neg some_failing]
      rfl

theorem mem_failing {a : Assertion} :
    a ∈ c.failing ctx ↔ a ∈ c.assertions ∧ ¬ a.MetIn ctx := by
  rw [failing, List.mem_filter, Assertion.metIn_iff, ← Option.not_isSome_iff_eq_none, not_not]

theorem failing_eq_nil_iff : c.failing ctx = [] ↔ ∀ a ∈ c.assertions, a.MetIn ctx := by
  simp only [List.eq_nil_iff_forall_not_mem, mem_failing, not_and, not_not]

/-- Every assertion is met or not. -/
theorem length_failing (c : TestConfig) (ctx : NodeContext) :
    c.assertions.countP (fun a => a.MetIn ctx) + (c.failing ctx).length = c.assertions.length := by
  have met (a : Assertion) : decide (a.MetIn ctx) = !(a.judgedIn ctx).complaint.isSome := by
    rw [Bool.eq_iff_iff, decide_eq_true_iff, Assertion.metIn_iff]
    cases (a.judgedIn ctx).complaint <;> simp
  rw [failing, ← List.countP_eq_length_filter, List.length_eq_countP_add_countP fun a =>
    (a.judgedIn ctx).complaint.isSome, Nat.add_comm]
  simp only [met, Bool.not_eq_true, Bool.decide_eq_false]

/-- What a test reports: its verdict, how many of the assertions are met and how many are not, and
an entry for each of them that depends on the assertion and on the value of its source alone. -/
structure Judges (c : TestConfig) (ctx : NodeContext) (output : NodeOutput) (verdict : Bool)
    (passed failed : Nat) (entries : List Json) : Prop where
  data : output.data = .obj [("passed", .bool verdict), ("total", .ofNat c.assertions.length),
    ("passedCount", .ofNat passed), ("failedCount", .ofNat failed), ("results", .arr entries)]
  length : entries.length = c.assertions.length
  entry : ∀ (k : Nat) (a : Assertion), c.assertions[k]? = some a →
    ∃ source, ctx.Finds a.sourceNodeId source ∧ entries[k]? = some (a.entry source) ∧
      ((a.entry source).member? "passed" = some (.bool true) ↔ a.MetBy source)
  total : passed + failed = c.assertions.length
  passed_eq : passed = c.assertions.countP fun a => a.MetIn ctx
  verdict_iff : verdict = true ↔ output.failure = none
  failure_iff : output.failure = none ↔ ∀ a ∈ c.assertions, a.MetIn ctx
  halt_iff : output.halt = true ↔ ∃ a ∈ c.assertions, ¬ a.MetIn ctx ∧ a.stopOnFailure = true

theorem judges_report (c : TestConfig) (ctx : NodeContext) :
    c.Judges ctx (c.report ctx) ((c.failing ctx).length == 0)
      (c.assertions.length - (c.failing ctx).length) (c.failing ctx).length (c.entries ctx) where
  data := rfl
  length := List.length_map _
  entry k a here := by
    refine ⟨_, ctx.finds_resultOf a.sourceNodeId, ?_, a.passed_entry_iff _⟩
    rw [entries, List.getElem?_map, here]
    rfl
  total := Nat.sub_add_cancel (List.length_filter_le _ _)
  passed_eq := by
    rw [← length_failing c ctx]
    exact Nat.add_sub_cancel _ _
  verdict_iff := by
    rw [beq_iff_eq]
    unfold report
    dsimp only
    split
    · next none_failing => exact iff_of_true none_failing rfl
    · next some_failing => exact iff_of_false some_failing (Option.some_ne_none _)
  failure_iff := by
    rw [← failing_eq_nil_iff, ← List.length_eq_zero_iff]
    unfold report
    dsimp only
    split
    · next none_failing => exact iff_of_true rfl none_failing
    · next some_failing => exact iff_of_false (Option.some_ne_none _) some_failing
  halt_iff := by
    simp only [report, List.any_eq_true, mem_failing, and_assoc]

/-- Two tests that have an assertion in common, whose source has the same value for both, have the
same entry for it, wherever it stands in them. -/
theorem getElem?_entries {d : TestConfig} {ctx' : NodeContext} {a : Assertion} {j k : Nat}
    {source : Option Json} (here : c.assertions[k]? = some a) (there : d.assertions[j]? = some a)
    (finds : ctx.Finds a.sourceNodeId source) (finds' : ctx'.Finds a.sourceNodeId source) :
    (d.entries ctx')[j]? = (c.entries ctx)[k]? := by
  have same : a.judgedIn ctx' = a.judgedIn ctx := by
    rw [Assertion.judgedIn, Assertion.judgedIn, ← finds.eq_resultOf, ← finds'.eq_resultOf]
  rw [entries, entries, List.getElem?_map, List.getElem?_map, here, there, Option.map_some,
    Option.map_some, same]

/-- A test that has been validated reports its verdict on all of its assertions, whatever the
context.  The entry of an assertion is what it is in every other test with this assertion, in every
context that has the same value at its source. -/
theorem judges_of_validate (valid : (NodeConfig.test c).validate = .ok ()) (ctx : NodeContext) :
    ∃ output verdict passed failed entries, c.outcome ctx = .ok output ∧
      c.Judges ctx output verdict passed failed entries ∧
      ∀ (d : TestConfig) (ctx' : NodeContext) (j k : Nat) (a : Assertion) (source : Option Json),
        (NodeConfig.test d).validate = .ok () → c.assertions[k]? = some a →
        d.assertions[j]? = some a → ctx.Finds a.sourceNodeId source →
        ctx'.Finds a.sourceNodeId source →
        ∃ output' entries', d.outcome ctx' = .ok output' ∧
          output'.data.member? "results" = some (.arr entries') ∧ entries'[j]? = entries[k]? := by
  refine ⟨_, _, _, _, _, outcome_eq valid ctx, c.judges_report ctx, ?_⟩
  intro d ctx' j k a source valid' here there finds finds'
  exact ⟨_, _, outcome_eq valid' ctx', rfl, getElem?_entries here there finds finds'⟩

/-- Four assertions, of which the first is met, the second and the third are not, by a status that
differs and by the lack of a source, and the last is met by the result of an earlier run. -/
def ofFour : TestConfig where
  assertions := [
    { sourceNodeId := "a", kind := .status, operator := .equals, expected := .int 200 },
    { sourceNodeId := "a", kind := .body, path := some "$.n", operator := .lessThan,
      expected := .int 3, stopOnFailure := true },
    { sourceNodeId := "gone", kind := .body, operator := .present },
    { sourceNodeId := "b", kind := .body, path := some "ok", operator := .notEquals,
      expected := .bool false }]

/-- A run in which `a` has answered, and `b` has in an earlier one. -/
def sceneOfFour : NodeContext where
  nodeId := "test"
  input := .obj []
  sources := ["a"]
  scope := { data := .obj [("a", .obj [("status", .int 200), ("n", .int 3)])], env := [] }
  integrations := []
  previous := [("b", .obj [("ok", .bool true)])]
  timeoutMs := 1000
  directory := { hasConnection := fun _ => false, decrypt := fun _ => .error "" }

/-- The entry of the assertion on `b` is the same if the four are checked the other way round. -/
theorem judges_ofFour_reverse :
    (NodeConfig.test ofFour).validate = .ok () ∧
      ∃ output verdict passed failed entries, ofFour.outcome sceneOfFour = .ok output ∧
        ofFour.Judges sceneOfFour output verdict passed failed entries ∧
        ∃ output' entries',
          outcome { assertions := ofFour.assertions.reverse } sceneOfFour = .ok output' ∧
          output'.data.member? "results" = some (.arr entries') ∧
          entries'[0]? = entries[3]? := by
  have valid : (NodeConfig.test ofFour).validate = .ok () := by decide +kernel
  obtain ⟨output, verdict, passed, failed, entries, done, judges, alone⟩ :=
    judges_of_validate valid sceneOfFour
  have earlier : sceneOfFour.Finds "b" (some (.obj [("ok", .bool true)])) :=
    .earlier (by decide +kernel) rfl
  have reversed := alone { assertions := ofFour.assertions.reverse } sceneOfFour 0 3 _ _
    (by decide +kernel) rfl rfl earlier earlier
  exact ⟨valid, output, verdict, passed, failed, entries, done, judges, reversed⟩

end TestConfig

end Flowline
