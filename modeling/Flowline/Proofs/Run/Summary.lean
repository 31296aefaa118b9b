import Mathlib
import Flowline.Proofs.Api.Host
import Flowline.Proofs.Run.Accepted
import Flowline.Proofs.Run.Flat
import Flowline.Proofs.Run.Moments

/-!
# The summary of a run sums up its log

The results of a run are put together in several places: when an execution is settled, when members
are skipped, and when a region has run.  `Progress.SumsUp` says what they come to whatever the run
has gone through: each result counts the executions of its node and keeps the last data and the
last error of them.

* `Progress.sumsUp_invariant`: each step of a run keeps this.
* `summary_sumsUp_log`: the summary of a run, and the log that the run leaves.
-/

namespace Flowline

open Api

variable {ω : Type}

/-! ## Executions of a node -/

/-- The executions of a node, in order. -/
def runsOf (events : List Event) (id : String) : List Execution :=
  ((executions events).filter (·.id = id)).map (·.ended.execution)

/-- The region of the iterator has run since the iterator was executed last. -/
def RegionRanLast (events : List Event) (id : String) : Prop :=
  ∃ earlier place r later, events = earlier ++ ⟨place, .closed r⟩ :: later ∧ r.iterator = id ∧
    runsOf later id = []

section

variable {events more : List Event} {id : String} {place : Place}

theorem runsOf_append : runsOf (events ++ more) id = runsOf events id ++ runsOf more id := by
  rw [runsOf, executions_append, List.filter_append, List.map_append]
  rfl

theorem runsOf_of_executions_eq_nil (quiet : executions more = []) : runsOf more id = [] := by
  rw [runsOf, quiet]
  rfl

theorem runsOf_settled (place : Place) (t : Task) (ended : Ended) (id : String) :
    runsOf [⟨place, .settled t ended⟩] id = if t.node.id = id then [ended.execution] else [] := by
  by_cases same : t.node.id = id
  · simp [runsOf, executions, Ran.id, same]
  · simp [runsOf, executions, Ran.id, same]

theorem RegionRanLast.append (last : RegionRanLast events id) (quiet : runsOf more id = []) :
    RegionRanLast (events ++ more) id := by
  obtain ⟨earlier, place, r, later, rfl, same, none_later⟩ := last
  refine ⟨earlier, place, r, later ++ more, by simp, same, ?_⟩
  rw [runsOf_append, none_later, quiet]
  rfl

theorem regionRanLast_closed (events : List Event) (place : Place) (r : PendingRegion) :
    RegionRanLast (events ++ [⟨place, .closed r⟩]) r.iterator :=
  ⟨events, place, r, [], rfl, rfl, rfl⟩

end

/-! ## Results -/

/-- The result of a node sums up its executions, of which each has an error or none. -/
structure NodeResult.SumsUp (r : NodeResult) (errors : List (Option String)) : Prop where
  executions : r.executions = errors.length
  failed : r.status = .failed ↔ ∃ error ∈ errors, error.isSome = true
  completed : r.status = .completed ↔ errors ≠ [] ∧ ∀ error ∈ errors, error = none
  skipped : r.status = .skipped ↔ errors = []
  error : r.error = (errors.filterMap id).getLast?

namespace NodeResult

theorem sumsUp_nil : SumsUp {} [] where
  executions := rfl
  failed := by simp
  completed := by simp
  skipped := by simp
  error := rfl

/-- Counting an execution in keeps a result right. -/
theorem SumsUp.record {r : NodeResult} {errors : List (Option String)} (sums : r.SumsUp errors)
    (x : Execution) : (r.record x).SumsUp (errors ++ [x.error]) where
  executions := by
    rw [List.length_append, ← sums.executions]
    rfl
  failed := by
    cases error : x.error with
    | some message => simp [NodeResult.record, Execution.failed, error]
    | none =>
        have kept : (r.record x).status = .failed ↔ r.status = .failed := by
          cases status : r.status <;> simp [NodeResult.record, Execution.failed, error, status]
        rw [kept, sums.failed]
        simp
  completed := by
    cases error : x.error with
    | some message => simp [NodeResult.record, Execution.failed, error]
    | none =>
        have kept : (r.record x).status = .completed ↔ r.status ≠ .failed := by
          cases status : r.status <;> simp [NodeResult.record, Execution.failed, error, status]
        rw [kept, ne_eq, sums.failed]
        simp [or_imp]
  skipped := by
    have never : (r.record x).status ≠ .skipped := by
      cases error : x.error <;> cases status : r.status <;>
        simp [NodeResult.record, Execution.failed, error, status]
    exact iff_of_false never (by simp)
  error := by
    rw [List.filterMap_append, List.getLast?_append, ← sums.error]
    cases error : x.error with
    | some message => simp [NodeResult.record, error]
    | none => simp [NodeResult.record, error]

end NodeResult

/-- What is reported of a node, if anything, tells of its executions.  The data is that of the last
one, unless the node is an iterator whose region has run since. -/
def Reports (events : List Event) (id : String) : Option NodeResult → Prop
  | none => runsOf events id = []
  | some r => r.SumsUp ((runsOf events id).map (·.error)) ∧
      (¬ RegionRanLast events id → r.data = (runsOf events id).getLast?.map (·.data))

section

variable {events more : List Event} {id : String} {reported : Option NodeResult}

theorem Reports.append (reports : Reports events id reported) (quiet : runsOf more id = []) :
    Reports (events ++ more) id reported := by
  have same : runsOf (events ++ more) id = runsOf events id := by
    rw [runsOf_append, quiet, List.append_nil]
  cases reported with
  | none => exact same.trans reports
  | some r =>
      unfold Reports at reports ⊢
      rw [same]
      exact ⟨reports.1, fun not_last => reports.2 fun last => not_last (last.append quiet)⟩

/-- A node without a result counts as one that was skipped. -/
theorem Reports.sumsUp_getD (reports : Reports events id reported) :
    (reported.getD {}).SumsUp ((runsOf events id).map (·.error)) := by
  cases reported with
  | none =>
      have none_ran : runsOf events id = [] := reports
      rw [none_ran]
      exact NodeResult.sumsUp_nil
  | some r => exact reports.1

theorem Reports.record (reports : Reports events id reported) (place : Place) {t : Task}
    (same : t.node.id = id) (ended : Ended) :
    Reports (events ++ [⟨place, .settled t ended⟩]) id
      (some ((reported.getD {}).record ended.execution)) := by
  have ran : runsOf (events ++ [⟨place, .settled t ended⟩]) id =
      runsOf events id ++ [ended.execution] := by
    rw [runsOf_append, runsOf_settled, if_pos same]
  unfold Reports
  rw [ran]
  refine ⟨?_, fun _ => ?_⟩
  · rw [List.map_append]
    exact reports.sumsUp_getD.record ended.execution
  · rw [List.getLast?_concat]
    rfl

/-- When its region has run, an iterator is reported with other data. -/
theorem Reports.amend {r : PendingRegion} (reports : Reports events r.iterator reported)
    (place : Place) (data : Json) :
    Reports (events ++ [⟨place, .closed r⟩]) r.iterator
      (reported.map fun result => { result with data := some data }) := by
  have quiet : runsOf [⟨place, .closed r⟩] r.iterator = [] := rfl
  cases reported with
  | none => exact reports.append quiet
  | some result =>
      have same :
          runsOf (events ++ [⟨place, .closed r⟩]) r.iterator = runsOf events r.iterator := by
        rw [runsOf_append, quiet, List.append_nil]
      obtain ⟨sums, -⟩ := reports
      unfold Reports
      rw [Option.map_some, same]
      exact ⟨⟨sums.executions, sums.failed, sums.completed, sums.skipped, sums.error⟩,
        fun not_last => absurd (regionRanLast_closed events place r) not_last⟩

end

/-! ## Progress -/

theorem Progress.get?_amend (q : Progress) (iterator : String) (data : Json) (id : String) :
    (q.amend iterator data).results.get? id =
      if id = iterator then (q.results.get? id).map fun r => { r with data := some data }
      else q.results.get? id := by
  unfold amend
  cases known : q.results.get? iterator with
  | none =>
      by_cases same : id = iterator
      · simp [same, known]
      · simp [same]
  | some r =>
      refine (Entries.get?_put q.results iterator id _).trans ?_
      by_cases same : id = iterator
      · simp [same, known]
      · simp [same]

/-- The progress of a run sums up the executions of its history. -/
structure Progress.SumsUp (g : Graph) (events : List Event) (q : Progress) : Prop where
  results : ∀ id, Reports events id (q.results.get? id)
  failed : q.failed = true ↔
    ∃ x ∈ executions events, x.ended.execution.continues x.task.node = false
  halted : q.halted = true ↔ ∃ x ∈ executions events, x.ended.execution.halt = true
  /-- What is executed is the node that the graph has under the name. -/
  nodes : ∀ x ∈ executions events, g.node? x.id = some x.task.node

namespace Progress

variable {g : Graph} {events more : List Event} {q q' : Progress} {place : Place}

/-- Nothing is executed on a quiet way. -/
theorem SumsUp.quiet (sums : q.SumsUp g events) (quiet : executions more = []) :
    q.SumsUp g (events ++ more) := by
  have same : executions (events ++ more) = executions events := by
    rw [executions_append, quiet, List.append_nil]
  refine ⟨fun id => (sums.results id).append (runsOf_of_executions_eq_nil quiet), ?_, ?_, ?_⟩
  · rw [same]
    exact sums.failed
  · rw [same]
    exact sums.halted
  · rw [same]
    exact sums.nodes

/-- Skips leave results that count no execution. -/
theorem SumsUp.skip (sums : q.SumsUp g events) (ids : List String) :
    (q.skip ids).SumsUp g events := by
  refine ⟨fun id => ?_, sums.failed, sums.halted, sums.nodes⟩
  have before := sums.results id
  rw [get?_skip]
  cases known : q.results.get? id with
  | some r =>
      rw [known] at before
      exact before
  | none =>
      rw [known] at before
      have none_ran : runsOf events id = [] := before
      split
      · refine ⟨?_, fun _ => ?_⟩
        · rw [none_ran]
          exact NodeResult.sumsUp_nil
        · rw [none_ran]
          rfl
      · exact before

theorem SumsUp.record (sums : q.SumsUp g events) (place : Place) (t : Task) (ended : Ended)
    (node : g.node? t.node.id = some t.node) :
    (q.record t.node ended.execution).SumsUp g (events ++ [⟨place, .settled t ended⟩]) := by
  have listed : executions (events ++ [⟨place, .settled t ended⟩]) =
      executions events ++ [⟨place, t, ended⟩] := executions_append _ _
  refine ⟨fun id => ?_, ?_, ?_, ?_⟩
  · rw [get?_record]
    split
    · next same =>
        subst same
        exact (sums.results t.node.id).record place rfl ended
    · next other =>
        refine (sums.results id).append ?_
        rw [runsOf_settled, if_neg (Ne.symm other)]
  · rw [listed]
    simp [Progress.record, sums.failed, or_and_right, exists_or]
  · rw [listed]
    simp [Progress.record, sums.halted, or_and_right, exists_or]
  · rw [listed]
    intro x mem
    rcases List.mem_append.1 mem with old | new
    · exact sums.nodes x old
    · rw [List.mem_singleton.1 new]
      exact node

theorem SumsUp.recordRan (sums : q.SumsUp g events) (place : Place) {ran : List (Task × Ended)}
    (nodes : ∀ r ∈ ran, g.node? r.1.node.id = some r.1.node) :
    (q.recordRan ran).SumsUp g (events ++ ran.map fun r => ⟨place, .settled r.1 r.2⟩) := by
  induction ran generalizing q events with
  | nil => exact sums.quiet rfl
  | cons r rest ih =>
      obtain ⟨first, others⟩ := List.forall_mem_cons.1 nodes
      have later := ih (sums.record place r.1 r.2 first) others
      rw [List.append_assoc] at later
      exact later

theorem SumsUp.amend (sums : q.SumsUp g events) (place : Place) (r : PendingRegion)
    (data : Json) : (q.amend r.iterator data).SumsUp g (events ++ [⟨place, .closed r⟩]) := by
  have quiet : executions [⟨place, .closed r⟩] = [] := rfl
  have same := sums.quiet quiet
  have kept : (q.amend r.iterator data).failed = q.failed ∧
      (q.amend r.iterator data).halted = q.halted := by
    unfold Progress.amend
    split <;> exact ⟨rfl, rfl⟩
  refine ⟨fun id => ?_, ?_, ?_, same.nodes⟩
  · rw [get?_amend]
    split
    · next is =>
        subst is
        exact (sums.results r.iterator).amend place data
    · exact same.results id
  · rw [kept.1]
    exact same.failed
  · rw [kept.2]
    exact same.halted

/-- Each step of a run keeps the progress right. -/
theorem sumsUp_invariant {h : Host ω} (request : RunRequest) (wf : g.WellFormed)
    (alone : h.LeavesRunsAlone) :
    RunInvariant h request g (fun past _ _ s => s.progress.SumsUp g past)
      (fun past _ _ _ _ s => s.progress.SumsUp g past) where
  skips sums begun := by
    rw [begun.progress_eq]
    exact (sums.skip _).quiet rfl
  ends sums _ _ := sums.quiet rfl
  waves sums begun ready dispatched next := by
    have waved := begun.waved wf alone ready dispatched next
    rw [waved.progress_eq, List.append_cons]
    refine SumsUp.recordRan (sums.quiet rfl) _ fun r mem => ?_
    obtain ⟨id, -, found, -⟩ :=
      Frame.mem_tasks.1 (waved.began.subset (List.mem_map_of_mem mem))
    rw [((Graph.node?_eq_some_iff wf).1 found).2]
    exact found
  opens sums _ _ _ := sums.quiet rfl
  enters sums _ _ := sums.quiet rfl
  leaves _ _ _ sums := sums
  closes sums _ := sums.amend _ _ _

end Progress

/-! ## The log -/

/-- The entries that a log has of a node. -/
def entriesOf (log : List LogEntry) (id : String) : List LogEntry := log.filter (·.name = id)

/-- The summary of a run sums up the log that the run leaves. -/
structure RunSummary.SumsUp (summary : RunSummary) (g : Graph) (events : List Event)
    (log : List LogEntry) (cancelled : Bool) : Prop where
  /-- The entries of the log are the executions of the history, in order. -/
  logs : Logs log (executions events)
  results : ∀ id r, summary.results.get? id = some r →
    r.SumsUp ((entriesOf log id).map (·.error)) ∧
      (¬ RegionRanLast events id → r.data = (entriesOf log id).getLast?.map (·.data))
  absent : ∀ id, summary.results.get? id = none → entriesOf log id = []
  success : summary.success = true ↔ summary.status = .completed
  completed : summary.status = .completed ↔
    cancelled = false ∧ (∀ x ∈ executions events, x.ended.execution.halt = false) ∧
      ∀ entry ∈ log, entry.error.isSome = true →
        ∃ n, g.node? entry.name = some n ∧ n.continueOnFailure = true

namespace Logs

variable {log : List LogEntry} {xs : List Ran}

theorem forall_iff {P : LogEntry → Prop} {Q : Ran → Prop} (logs : Logs log xs)
    (same : ∀ entry, ∀ x ∈ xs, entry.Describes x.place x.task x.ended.execution →
      (P entry ↔ Q x)) : (∀ entry ∈ log, P entry) ↔ ∀ x ∈ xs, Q x := by
  unfold Logs at logs
  induction logs with
  | nil => simp
  | @cons entry x log xs describes _ ih =>
      rw [List.forall_mem_cons, List.forall_mem_cons,
        same entry x List.mem_cons_self describes,
        ih fun entry x mem => same entry x (List.mem_cons_of_mem _ mem)]

/-- The log has an entry for each execution of a node, with what is told of it. -/
theorem map_entriesOf {α : Type} {told : LogEntry → α} {tell : Execution → α} {events : List Event}
    (logs : Logs log (executions events))
    (same : ∀ entry place t x, LogEntry.Describes entry place t x → told entry = tell x)
    (id : String) : (entriesOf log id).map told = (runsOf events id).map tell := by
  unfold entriesOf runsOf Logs at *
  generalize executions events = xs at logs
  induction logs with
  | nil => rfl
  | @cons entry x log xs describes _ ih =>
      have name : entry.name = x.id := describes.name
      by_cases named : x.id = id
      · simpa [name, named, same _ _ _ _ describes] using ih
      · simpa [name, named] using ih

end Logs

/-- A failure counts unless it is of a node that goes on. -/
theorem continues_iff {x : Execution} {n : Node} :
    x.continues n = true ↔ (x.error.isSome = true → n.continueOnFailure = true) := by
  cases error : x.error <;> simp [Execution.continues, Execution.failed, error]

/-- What has been counted in at the end of a run makes a right summary. -/
theorem Progress.SumsUp.summary {g : Graph} {events : List Event} {q : Progress}
    (sums : q.SumsUp g events) {log : List LogEntry} (logs : Logs log (executions events))
    (cancelled : Bool) (runId : Uuid) (startedAt finishedAt : Instant) :
    RunSummary.SumsUp ⟨runId, q.finalStatus cancelled, q.results, startedAt, finishedAt⟩ g events
      log cancelled := by
  have errors (id : String) : (entriesOf log id).map (·.error) =
      (runsOf events id).map (·.error) :=
    logs.map_entriesOf (fun _ _ _ _ describes => describes.error) id
  have data (id : String) : (entriesOf log id).map (·.data) = (runsOf events id).map (·.data) :=
    logs.map_entriesOf (fun _ _ _ _ describes => describes.data) id
  have failing : q.failed = false ↔ ∀ entry ∈ log, entry.error.isSome = true →
      ∃ n, g.node? entry.name = some n ∧ n.continueOnFailure = true := by
    rw [← Bool.not_eq_true, sums.failed, logs.forall_iff (Q := fun x =>
      x.ended.execution.continues x.task.node = true) fun entry x mem describes => ?_]
    · simp
    · have node := sums.nodes x mem
      rw [continues_iff, describes.error, show entry.name = x.id from describes.name, node]
      simp
  have halting : q.halted = false ↔ ∀ x ∈ executions events, x.ended.execution.halt = false := by
    rw [← Bool.not_eq_true, sums.halted]
    simp
  refine ⟨logs, fun id r known => ?_, fun id missing => ?_, by simp [RunSummary.success], ?_⟩
  · have reports := sums.results id
    dsimp only at known
    rw [known] at reports
    rw [errors id, ← List.getLast?_map, data id, List.getLast?_map]
    exact reports
  · have reports := sums.results id
    dsimp only at missing
    rw [missing] at reports
    have none_ran : runsOf events id = [] := reports
    have same := errors id
    rw [none_ran] at same
    exact List.map_eq_nil_iff.1 same
  · rw [← halting, ← failing]
    cases cancelled <;> cases halted : q.halted <;> cases failed : q.failed <;>
      simp [Progress.finalStatus, halted, failed]

/-- A loop over two items whose check fails, goes on, and stops the run. -/
def stoppedLoop : Workflow :=
  { nodes := [{ id := "each", config := .iterator { mode := .custom, items := "a\nb" } },
      { id := "check", continueOnFailure := true, config := .test { assertions :=
        [{ sourceNodeId := "none", kind := .body, operator := .present, stopOnFailure := true }] } },
      { id := "after", config := .format { template := "-" } }]
    edges := [{ source := "each", target := "check" }, { source := "check", target := "after" }] }

theorem Graph.acyclic_stoppedLoop : (ofWorkflow stoppedLoop).Acyclic :=
  acyclic_of_rank (fun id => if id = "each" then 0 else if id = "check" then 1 else 2) (by decide)

theorem Plane.ofGraph_stoppedLoop : ofGraph (Graph.ofWorkflow stoppedLoop) =
    ⟨Graph.ofWorkflow stoppedLoop, [("each", ["check", "after"])]⟩ := by
  have regions : (Graph.ofWorkflow stoppedLoop).regions = [("each", ["check", "after"])] := by cbv
  rw [ofGraph, regions]

end Flowline
