import Flowline.Proofs.Node.Keys
import Flowline.Proofs.Run.Alone
import Flowline.Proofs.Run.Traced
import Mathlib

/-!
# Runs with other keys

Two programs are twins if they decrypt the same texts, although to other keys, and call services
that do not look at the keys (`Host.Twins`).  Then a run in the one and the same run in the other go
alongside each other.  What differs at any moment are ids and times, and how the rest of the two
programs differs already (`World.Twins`); frames, progress, waits and durations do not differ.
This is carried through each step of a wave (`Host.Twins.start`, `Host.Twins.finishAll`), through
settling (`Host.Twins.settleRan`) and through frames (`Host.Twins.runMoves`) to whole runs
(`Host.Twins.executeReserved`).

It also holds of the traces that the programs can keep of a run (`Host.Twins.traced`): keys occur in
the headers of calls that carry them, and nowhere else (`keys_hidden`).
-/

namespace Flowline

variable {ω ω' : Type}

/-! ## What is left without ids, times and keys -/

/-- The state of a node without the time of its result. -/
def NodeState.untimed (s : NodeState) : NodeState :=
  { s with result := s.result.map fun r => { r with timestamp := .ofMillis 0 } }

/-- The state of a run without ids, times and durations. -/
def ExecutionState.untimed (s : ExecutionState) : ExecutionState :=
  { s with
    runId := s.runId.map fun _ => .ofSerial 0
    log := s.log.map LogEntry.untimed
    startedAt := s.startedAt.map fun _ => .ofMillis 0
    finishedAt := s.finishedAt.map fun _ => .ofMillis 0 }

/-- The engine without ids, times and durations. -/
def Engine.untimed (e : Engine) : Engine := { e with state := e.state.untimed }

theorem Engine.probe_untimed (e : Engine) : e.untimed.probe = e.probe := by
  have slot : e.untimed.slotHeld = e.slotHeld := rfl
  unfold probe reserve
  rw [slot]
  cases e.slotHeld <;> rfl

/-- The summary without the id and the times of the run. -/
def RunSummary.untimed (s : RunSummary) : RunSummary :=
  { s with runId := .ofSerial 0, startedAt := .ofMillis 0, finishedAt := .ofMillis 0 }

/-- The report without ids, times, durations and keys. -/
def RunEvent.bare : RunEvent → RunEvent
  | .update id state => .update id state.untimed
  | .log entry => .log entry.untimed
  | .called call => .called call.veiled
  | event => event

namespace ExecutionState

variable {s s' : ExecutionState} (same : s'.untimed = s.untimed)
include same

theorem untimed_appendLog {entry entry' : LogEntry} (entries : entry'.untimed = entry.untimed) :
    (s'.appendLog entry').untimed = (s.appendLog entry).untimed := by
  have appended (s : ExecutionState) (entry : LogEntry) : (s.appendLog entry).untimed =
      { s.untimed with log := s.untimed.log ++ [entry.untimed] } := by
    simp [untimed, appendLog]
  rw [appended, appended, same, entries]

theorem untimed_setStatus (status : RunStatus) {now now' : Instant} :
    (s'.setStatus status now').untimed = (s.setStatus status now).untimed := by
  unfold setStatus
  split
  · exact congrArg (fun s => { s with
      status, finishedAt := some (.ofMillis 0), executing := [] }) same
  · exact congrArg (fun s => { s with status }) same

theorem untimed_beginRun {id id' : Uuid} {now now' : Instant} :
    (s'.beginRun id' now').untimed = (s.beginRun id now).untimed :=
  congrArg (fun s => { s with
    runId := some (.ofSerial 0), status := .running, log := [], executing := [],
    startedAt := some (.ofMillis 0), finishedAt := none }) same

end ExecutionState

/-! ## Twins -/

/-- When the rests of two programs are alike, and how much later it is in the second one. -/
structure Likeness (ω ω' : Type) where
  alike : ω → ω' → Prop
  later : Int

/-- The worlds differ in ids and times only, and their rests are alike. -/
structure World.Twins (l : Likeness ω ω') (w : World ω) (w' : World ω') : Prop where
  engine : w'.engine.untimed = w.engine.untimed
  now : (w'.now : Int) = w.now + l.later
  outside : l.alike w.outside w'.outside

/-- Two programs with other keys.  They decrypt the same texts and fail with the same messages, the
services treat calls alike that are the same without keys, and the rest of the programs makes twins
of twins. -/
structure Host.Twins (h : Host ω) (h' : Host ω') (l : Likeness ω ω') : Prop where
  hasConnection :
    h'.services.directory.hasConnection = h.services.directory.hasConnection
  decrypt : DecryptsLike h.services.directory.decrypt h'.services.directory.decrypt
  treat : ∀ call call', call'.veiled = call.veiled →
    h'.services.treat call' = h.services.treat call
  observe : ∀ {event event' : RunEvent} {w w'}, event'.bare = event.bare → World.Twins l w w' →
    World.Twins l (h.observe event w) (h'.observe event' w')
  elapse : ∀ {time time' : Nat} {w w'}, (time' : Int) = time + l.later → World.Twins l w w' →
    World.Twins l (h.elapse time w) (h'.elapse time' w')

/-- Two steps come to the same, and leave twins. -/
structure EndTwins {α : Type} (l : Likeness ω ω') (r : α × World ω) (r' : α × World ω') : Prop where
  result : r'.1 = r.1
  world : World.Twins l r.2 r'.2

/-- The nodes wait for the same in plans that are the same without keys. -/
structure Waiting.Twins (l : Likeness ω ω') (j j' : Waiting) : Prop where
  task : j'.task = j.task
  plan : j'.plan.veiled = j.plan.veiled
  treatment : j'.treatment = j.treatment
  timeoutMs : j'.timeoutMs = j.timeoutMs
  begun : (j'.begun : Int) = j.begun + l.later

/-- The nodes are over with the same, or both wait. -/
inductive Started.Twins (l : Likeness ω ω') : Started → Started → Prop where
  | over (ended : Option Ended) : Twins l (.over ended) (.over ended)
  | waiting {j j' : Waiting} (jobs : j.Twins l j') : Twins l (.waiting j) (.waiting j')

/-- Runs that have come equally far in twins. -/
structure Ongoing.Twins (l : Likeness ω ω') (s : Ongoing ω) (s' : Ongoing ω') : Prop where
  world : World.Twins l s.world s'.world
  progress : s'.progress = s.progress

/-- Two steps of runs come to the same, and leave runs that have come equally far. -/
structure Ongoing.EndTwins {α : Type} (l : Likeness ω ω') (r : α × Ongoing ω)
    (r' : α × Ongoing ω') : Prop where
  result : r'.1 = r.1
  run : r.2.Twins l r'.2

section

variable {l : Likeness ω ω'}

namespace World.Twins

variable {w : World ω} {w' : World ω'} (worlds : Twins l w w')
include worlds

/-- What can be told without ids and times is the same. -/
theorem engine_eq {α : Type} (f : Engine → α) (blind : ∀ e, f e.untimed = f e) :
    f w'.engine = f w.engine := by
  rw [← blind, worlds.engine, blind]

theorem modifyEngine {f : Engine → Engine} (blind : ∀ e, (f e).untimed = f e.untimed) :
    Twins l (w.modifyEngine f) (w'.modifyEngine f) where
  engine := (blind _).trans ((congrArg f worlds.engine).trans (blind _).symm)
  now := worlds.now
  outside := worlds.outside

/-- A change of the state that looks at no ids and times. -/
theorem modifyState {f : ExecutionState → ExecutionState}
    (blind : ∀ s, (f s).untimed = f s.untimed) : Twins l (w.modifyState f) (w'.modifyState f) :=
  worlds.modifyEngine fun e => congrArg (fun state => { e with state }) (blind e.state)

/-- A change of the state that depends on ids and times only as far as they are left out. -/
theorem stampState {f f' : ExecutionState → ExecutionState}
    (blind : ∀ s s', s'.untimed = s.untimed → (f' s').untimed = (f s).untimed) :
    Twins l (w.modifyState f) (w'.modifyState f') where
  engine := by
    have same := blind _ _ (congrArg Engine.state worlds.engine)
    have stamped := congrArg (fun state => { w'.engine with state }) same
    exact stamped.trans
      (congrArg (fun e => { e with state := (f w.engine.state).untimed }) worlds.engine)
  now := worlds.now
  outside := worlds.outside

theorem isCancelled : w'.isCancelled = w.isCancelled :=
  worlds.engine_eq (·.cancelRequested) fun _ => rfl

theorem slotHeld : w'.engine.slotHeld = w.engine.slotHeld :=
  worlds.engine_eq (·.slotHeld) fun _ => rfl

theorem store : w'.engine.store = w.engine.store := worlds.engine_eq (·.store) fun _ => rfl

theorem bare_executing : (RunEvent.executing w'.engine.state.executing).bare =
    (RunEvent.executing w.engine.state.executing).bare :=
  congrArg RunEvent.executing (worlds.engine_eq (·.state.executing) fun _ => rfl)

theorem bare_probed : (RunEvent.probed w'.engine.probe).bare =
    (RunEvent.probed w.engine.probe).bare :=
  congrArg RunEvent.probed (worlds.engine_eq Engine.probe Engine.probe_untimed)

/-- A request to cancel is taken up in both worlds or in none. -/
theorem bare_cancelled : (RunEvent.cancelled w'.engine.cancel.1).bare =
    (RunEvent.cancelled w.engine.cancel.1).bare := by
  unfold Engine.cancel
  rw [worlds.slotHeld]
  split <;> rfl

theorem cancel : Twins l { w with engine := w.engine.cancel.2 }
    { w' with engine := w'.engine.cancel.2 } := by
  refine ⟨?_, worlds.now, worlds.outside⟩
  have requested := congrArg Engine.requestCancel worlds.engine
  dsimp only
  unfold Engine.cancel
  rw [worlds.slotHeld]
  split
  · exact requested
  · exact worlds.engine

end World.Twins

theorem Ongoing.Twins.stopped {s : Ongoing ω} {s' : Ongoing ω'} (runs : s.Twins l s') :
    s'.stopped = s.stopped := by
  unfold Ongoing.stopped
  rw [runs.world.isCancelled, runs.progress]

theorem Waiting.Twins.waitMs {j j' : Waiting} (jobs : j.Twins l j') : j'.waitMs = j.waitMs := by
  unfold Waiting.waitMs
  rw [jobs.treatment, jobs.timeoutMs]

theorem Waiting.Twins.due {j j' : Waiting} (jobs : j.Twins l j') :
    (j'.due : Int) = j.due + l.later := by
  have begun := jobs.begun
  unfold Waiting.due
  rw [jobs.waitMs]
  omega

theorem Waiting.Twins.outcome {j j' : Waiting} (jobs : j.Twins l j') :
    j'.plan.outcomeAfter j'.treatment j'.timeoutMs =
      j.plan.outcomeAfter j.treatment j.timeoutMs := by
  rw [← Plan.outcomeAfter_veiled, jobs.plan, Plan.outcomeAfter_veiled, jobs.treatment,
    jobs.timeoutMs]

/-! ## Waves -/

/-- Lists whose elements correspond are sorted alike if the orders agree on elements that
correspond. -/
theorem forall₂_mergeSort {α β : Type} {R : α → β → Prop} {le : α → α → Bool}
    {le' : β → β → Bool} (agree : ∀ a b a' b', R a b → R a' b' → le' b b' = le a a')
    {as : List α} {bs : List β} (all : List.Forall₂ R as bs) :
    List.Forall₂ R (as.mergeSort le) (bs.mergeSort le') := by
  have pairs (p : α × β) (mem : p ∈ as.zip bs) : R p.1 p.2 := (List.forall₂_iff_zip.1 all).2 mem
  have left := List.map_mergeSort (r := fun p q : α × β => le p.1 q.1) (s := le) (f := Prod.fst)
    (l := as.zip bs) fun _ _ _ _ => rfl
  have right := List.map_mergeSort (r := fun p q : α × β => le p.1 q.1) (s := le') (f := Prod.snd)
    (l := as.zip bs) fun p p_mem q q_mem => (agree _ _ _ _ (pairs p p_mem) (pairs q q_mem)).symm
  rw [List.map_fst_zip all.length_eq.le] at left
  rw [List.map_snd_zip all.length_eq.ge] at right
  rw [← left, ← right, List.forall₂_map_left_iff, List.forall₂_map_right_iff, List.forall₂_same]
  exact fun p mem => pairs p (List.mem_mergeSort.1 mem)

namespace Host.Twins

variable {h : Host ω} {h' : Host ω'} (hosts : h.Twins h' l)
include hosts

section

variable {w : World ω} {w' : World ω'} (worlds : World.Twins l w w')
include worlds

theorem begin_ (t : Task) : World.Twins l (w.begin_ h t) (w'.begin_ h' t) := by
  have marked := worlds.modifyState (f := (·.mark t.node.id)) fun _ => rfl
  have shown := hosts.observe marked.bare_executing marked
  have fed := shown.modifyState (f := (·.recordInput t.node.id t.inputValue)) fun _ => rfl
  exact hosts.observe rfl fed

theorem end_ (t : Task) {begun begun' : Nat} (later : (begun' : Int) = begun + l.later)
    (outcome : Outcome) : EndTwins l (w.end_ h t begun outcome) (w'.end_ h' t begun' outcome) := by
  have unmarked := worlds.modifyState (f := (·.unmark t.node.id)) fun _ => rfl
  have shown := hosts.observe unmarked.bare_executing unmarked
  have now := shown.now
  unfold World.end_
  dsimp only
  rw [shown.isCancelled]
  split
  · exact ⟨rfl, shown⟩
  · refine ⟨congrArg (fun ms => some (Ended.mk _ ms)) ?_, shown⟩
    omega

theorem answer (treatment : Treatment) :
    World.Twins l (w.answer h treatment) (w'.answer h' treatment) := by
  have reported : World.Twins l
      (if treatment.cancels then
        h.observe (.cancelled w.engine.cancel.1) { w with engine := w.engine.cancel.2 } else w)
      (if treatment.cancels then
        h'.observe (.cancelled w'.engine.cancel.1) { w' with engine := w'.engine.cancel.2 }
        else w') := by
    split
    · exact hosts.observe worlds.bare_cancelled worlds.cancel
    · exact worlds
  unfold World.answer
  dsimp only
  split
  · exact hosts.observe reported.bare_probed reported
  · exact reported

theorem finish {j j' : Waiting} (jobs : j.Twins l j') :
    EndTwins l (w.finish h j) (w'.finish h' j') := by
  have inTime : j'.inTime = j.inTime := by
    unfold Waiting.inTime
    rw [jobs.treatment, jobs.timeoutMs]
  have answered : World.Twins l (if j.inTime then w.answer h j.treatment else w)
      (if j'.inTime then w'.answer h' j'.treatment else w') := by
    rw [inTime, jobs.treatment]
    split
    · exact hosts.answer worlds _
    · exact worlds
  unfold World.finish
  dsimp only
  rw [jobs.outcome, jobs.task]
  exact hosts.end_ answered _ jobs.begun _

/-! ### Nodes that start -/

/-- The contexts of a node differ in the keys only. -/
theorem context (view : WaveView) (t : Task) :
    w'.context h' view t = (w.context h view t).withKeys h'.services.directory.decrypt := by
  have limit : w'.engine.defaultTimeoutMs = w.engine.defaultTimeoutMs :=
    worlds.engine_eq (·.defaultTimeoutMs) fun _ => rfl
  have directory : h'.services.directory =
      { h.services.directory with decrypt := h'.services.directory.decrypt } :=
    congrArg (Directory.mk · h'.services.directory.decrypt) hosts.hasConnection
  unfold World.context NodeContext.withKeys
  dsimp only
  rw [limit, ← directory]

theorem planned (view : WaveView) (t : Task) :
    (w'.planned h' view t).1.veiled = (w.planned h view t).1.veiled ∧
      World.Twins l (w.planned h view t).2 (w'.planned h' view t).2 := by
  have begun := hosts.begin_ worlds t
  obtain ⟨plan, store⟩ := t.node.plan_withKeys ((w.begin_ h t).context h view t)
    (w.begin_ h t).engine.store hosts.decrypt
  rw [← hosts.context begun view t, ← begun.store] at plan store
  rw [World.plan_planned, World.plan_planned]
  refine ⟨plan.trans (by rw [begun.store]), ?_⟩
  unfold World.planned
  dsimp only
  rw [store, begun.store]
  generalize (t.node.plan _ _).2 = kept
  exact begun.modifyEngine fun _ => rfl

theorem asked (view : WaveView) (t : Task) {call call' : ServiceCall}
    (veiled : call'.veiled = call.veiled) :
    World.Twins l (w.asked h view t call) (w'.asked h' view t call') :=
  hosts.observe (congrArg RunEvent.called veiled) (hosts.planned worlds view t).2

theorem jobFor (view : WaveView) (t : Task) {call call' : ServiceCall}
    (veiled : call'.veiled = call.veiled) :
    (w.jobFor h view t call).Twins l (w'.jobFor h' view t call') where
  task := rfl
  plan := by
    rw [World.plan_jobFor, World.plan_jobFor]
    exact (hosts.planned worlds view t).1
  treatment := hosts.treat _ _ veiled
  timeoutMs := (congrArg NodeContext.timeoutMs (hosts.context (hosts.begin_ worlds t) view t)).trans
    (NodeContext.timeoutMs_withKeys _ _)
  begun := (hosts.asked worlds view t veiled).now

theorem endPlanned (view : WaveView) (t : Task) :
    EndTwins l (w.endPlanned h view t) (w'.endPlanned h' view t) := by
  obtain ⟨plan, made⟩ := hosts.planned worlds view t
  have same : (w'.planned h' view t).1.resume (.failed "") =
      (w.planned h view t).1.resume (.failed "") := by
    rw [← Plan.resume_veiled, plan, Plan.resume_veiled]
  unfold World.endPlanned
  dsimp only
  rw [same]
  exact hosts.end_ made t made.now _

/-- A node starts in both worlds alike. -/
theorem start (view : WaveView) (t : Task) :
    (w.start h view t).1.Twins l (w'.start h' view t).1 ∧
      World.Twins l (w.start h view t).2 (w'.start h' view t).2 := by
  rw [World.start_eq, World.start_eq, worlds.isCancelled]
  split
  · exact ⟨.over none, worlds⟩
  · rcases Plan.call?_cases (hosts.planned worlds view t).1 with
      ⟨calls, calls'⟩ | ⟨call, call', calls, calls', veiled⟩
    · obtain ⟨result, ended⟩ := hosts.endPlanned worlds view t
      rw [calls, calls']
      unfold World.overAt
      rw [result]
      exact ⟨.over _, ended⟩
    · have jobs := hosts.jobFor worlds view t veiled
      have asked := hosts.asked worlds view t veiled
      rw [calls, calls']
      dsimp only
      rw [jobs.waitMs]
      split
      · obtain ⟨result, ended⟩ := hosts.finish asked jobs
        unfold World.overAt
        rw [result]
        exact ⟨.over _, ended⟩
      · exact ⟨.waiting jobs, asked⟩

end

theorem startAll {w : World ω} {w' : World ω'} (worlds : World.Twins l w w') (view : WaveView)
    (tasks : List Task) :
    List.Forall₂ (Started.Twins l) (w.startAll h view tasks).1 (w'.startAll h' view tasks).1 ∧
      World.Twins l (w.startAll h view tasks).2 (w'.startAll h' view tasks).2 := by
  induction tasks generalizing w w' with
  | nil => exact ⟨.nil, worlds⟩
  | cons t rest ih =>
      obtain ⟨first, started⟩ := hosts.start worlds view t
      obtain ⟨more, last⟩ := ih started
      exact ⟨.cons first more, last⟩

/-! ### Nodes that wait -/

omit hosts in
theorem waitingJobs {started started' : List Started}
    (starts : List.Forall₂ (Started.Twins l) started started') :
    List.Forall₂ (fun j j' => j'.1 = j.1 ∧ j.2.Twins l j'.2) (waitingJobs started)
      (waitingJobs started') := by
  unfold Flowline.waitingJobs
  generalize 0 = number
  induction starts generalizing number with
  | nil => exact .nil
  | cons first _ ih =>
      rw [List.zipIdx_cons, List.zipIdx_cons]
      cases first with
      | «over» ended => exact ih _
      | waiting jobs => exact .cons ⟨rfl, jobs⟩ (ih _)

omit hosts in
/-- Jobs that are all shifted in time by the same are due in the same order. -/
theorem byDue {jobs jobs' : List (Nat × Waiting)}
    (wait : List.Forall₂ (fun j j' => j'.1 = j.1 ∧ j.2.Twins l j'.2) jobs jobs') :
    List.Forall₂ (fun j j' => j'.1 = j.1 ∧ j.2.Twins l j'.2) (byDue jobs) (byDue jobs') := by
  refine forall₂_mergeSort (fun a b a' b' first second => ?_) wait
  have due := first.2.due
  have due' := second.2.due
  rw [decide_eq_decide]
  omega

theorem finishAll {w : World ω} {w' : World ω'} (worlds : World.Twins l w w')
    {jobs jobs' : List (Nat × Waiting)}
    (wait : List.Forall₂ (fun j j' => j'.1 = j.1 ∧ j.2.Twins l j'.2) jobs jobs') :
    EndTwins l (w.finishAll h jobs) (w'.finishAll h' jobs') := by
  induction wait generalizing w w' with
  | nil => exact ⟨rfl, worlds⟩
  | @cons j j' rest rest' first _ ih =>
      obtain ⟨number, job⟩ := j
      obtain ⟨number', job'⟩ := j'
      obtain ⟨same, jobs⟩ := first
      obtain rfl : number' = number := same
      obtain ⟨result, ended⟩ := hosts.finish (hosts.elapse jobs.due worlds) jobs
      obtain ⟨results, last⟩ := ih ended
      unfold World.finishAll
      exact ⟨congrArg₂ (fun r rs => (number', r) :: rs) result results, last⟩

omit hosts in
theorem endedInOrder {started started' : List Started}
    (starts : List.Forall₂ (Started.Twins l) started started')
    (finished : List (Nat × Option Ended)) :
    endedInOrder started' finished = endedInOrder started finished := by
  unfold Flowline.endedInOrder
  generalize 0 = number
  induction starts generalizing number with
  | nil => rfl
  | cons first _ ih =>
      rw [List.zipIdx_cons, List.zipIdx_cons, List.map_cons, List.map_cons, ih]
      cases first <;> rfl

/-- The nodes of a wave come to the same in both worlds. -/
theorem runWave {w : World ω} {w' : World ω'} (worlds : World.Twins l w w') (view : WaveView)
    (tasks : List Task) : EndTwins l (runWave h view w tasks) (runWave h' view w' tasks) := by
  obtain ⟨starts, started⟩ := hosts.startAll worlds view tasks
  obtain ⟨results, ended⟩ := hosts.finishAll started (byDue (waitingJobs starts))
  refine ⟨?_, ended⟩
  unfold Flowline.runWave
  dsimp only
  rw [results]
  exact endedInOrder starts _

/-! ## Settling -/

section

variable {w : World ω} {w' : World ω'} (worlds : World.Twins l w w')
include worlds

theorem reportOutput (id : String) (data : Json) :
    World.Twins l (w.reportOutput h id data) (w'.reportOutput h' id data) :=
  hosts.observe rfl (worlds.modifyState (f := (·.recordOutput id data)) fun _ => rfl)

omit hosts worlds in
theorem bare_update (w : World ω) (w' : World ω') (n : Node) (x : Execution) :
    (RunEvent.update n.id (w'.stateAfter n x)).bare =
      (RunEvent.update n.id (w.stateAfter n x)).bare := by
  unfold World.stateAfter
  split <;> rfl

theorem reportLog (t : Task) (iteration : Option (String × Nat)) (x : Execution)
    (durationMs : Nat) : World.Twins l (w.reportLog h t iteration x durationMs)
      (w'.reportLog h' t iteration x durationMs) := by
  have numbered : World.Twins l w.freshId.2 w'.freshId.2 :=
    ⟨worlds.engine, worlds.now, worlds.outside⟩
  unfold World.reportLog
  refine hosts.observe ?_ (numbered.stampState fun s s' same => ?_)
  · rfl
  · exact ExecutionState.untimed_appendLog same rfl

theorem reportExecution (t : Task) (iteration : Option (String × Nat)) (x : Execution)
    (durationMs : Nat) (bindings : Entries String) :
    World.Twins l (w.reportExecution h t iteration x durationMs bindings)
      (w'.reportExecution h' t iteration x durationMs bindings) := by
  have shown : World.Twins l
      (if x.continues t.node then w.reportOutput h t.node.id x.data else w)
      (if x.continues t.node then w'.reportOutput h' t.node.id x.data else w') := by
    split
    · exact hosts.reportOutput worlds _ _
    · exact worlds
  unfold World.reportExecution
  dsimp only
  generalize (if x.continues t.node then w.reportOutput h t.node.id x.data else w) = v at *
  generalize (if x.continues t.node then w'.reportOutput h' t.node.id x.data else w') = v' at *
  have updated := hosts.observe (bare_update v v' t.node x) shown
  have logged := hosts.reportLog updated t iteration x durationMs
  split
  · exact logged
  · exact hosts.observe rfl logged

end

section

variable {s : Ongoing ω} {s' : Ongoing ω'} (runs : s.Twins l s')
include runs

theorem settle (iteration : Option (String × Nat)) (t : Task) (ended : Ended) :
    (s.settle h iteration t ended).Twins l (s'.settle h' iteration t ended) := by
  unfold Ongoing.settle
  dsimp only
  rw [runs.progress]
  exact ⟨hosts.reportExecution runs.world _ _ _ _ _, rfl⟩

theorem settleRan (iteration : Option (String × Nat)) (ran : List (Task × Ended)) :
    (s.settleRan h iteration ran).Twins l (s'.settleRan h' iteration ran) := by
  induction ran generalizing s s' with
  | nil => exact runs
  | cons r rest ih => exact ih (hosts.settle runs iteration r.1 r.2)

theorem wave (run : RunPlan) (f : Frame) (ids : List String) :
    Ongoing.EndTwins l (wave h run f s ids) (wave h' run f s' ids) := by
  have view : waveView run f s' = waveView run f s := by
    unfold waveView
    rw [runs.progress]
  obtain ⟨results, world⟩ := hosts.runWave runs.world (waveView run f s) (f.tasks run.plane ids)
  have ran : waveRan h' run f s' ids = waveRan h run f s ids := by
    unfold waveRan
    dsimp only
    rw [view, results]
  have ended : Ongoing.Twins l
      ⟨(Flowline.runWave h (waveView run f s) s.world (f.tasks run.plane ids)).2, s.progress⟩
      ⟨(Flowline.runWave h' (waveView run f s) s'.world (f.tasks run.plane ids)).2, s'.progress⟩ :=
    ⟨world, runs.progress⟩
  rw [wave_eq, wave_eq, ran, view]
  exact ⟨rfl, hosts.settleRan ended _ _⟩

/-! ## Frames -/

omit hosts in
theorem iterations (run : RunPlan) {runChild : Frame → Ongoing ω → Frame × Ongoing ω}
    {runChild' : Frame → Ongoing ω' → Frame × Ongoing ω'}
    (child : ∀ f {s s'}, s.Twins l s' → Ongoing.EndTwins l (runChild f s) (runChild' f s'))
    (around : Frame) (iterator : String) (number : Nat) (payloads : List Json) :
    Ongoing.EndTwins l (iterations run runChild around iterator number payloads s)
      (iterations run runChild' around iterator number payloads s') := by
  induction payloads generalizing number s s' with
  | nil => exact ⟨rfl, runs⟩
  | cons payload rest ih =>
      unfold Flowline.iterations
      rw [runs.stopped]
      split
      · exact ⟨rfl, runs⟩
      · obtain ⟨left, inner⟩ :=
          child (run.plane.iterationFrame around iterator number payload) runs
        obtain ⟨more, last⟩ := ih inner (number + 1)
        exact ⟨congrArg₂ (fun f rest => f.outputs :: rest) left more, last⟩

theorem reportRegion (iterator : String) (data : Json) :
    (reportRegion h s iterator data).Twins l (reportRegion h' s' iterator data) where
  world := hosts.observe rfl (hosts.reportOutput runs.world iterator data)
  progress := congrArg (·.amend iterator data) runs.progress

theorem runMoves (run : RunPlan) (moves : Nat) (f : Frame) :
    Ongoing.EndTwins l (runMoves h run moves f s) (runMoves h' run moves f s') := by
  induction moves generalizing f s s' with
  | zero => exact ⟨rfl, runs⟩
  | succ moves ih =>
      unfold Flowline.runMoves
      rw [runs.stopped]
      split
      · exact ⟨rfl, runs⟩
      · have frames : (skipUnreached run f s').1 = (skipUnreached run f s).1 := rfl
        have skipped : (skipUnreached run f s).2.Twins l (skipUnreached run f s').2 :=
          ⟨runs.world, congrArg (Progress.skip · (f.skippedNext run.plane)) runs.progress⟩
        generalize skipUnreached run f s = after at *
        generalize skipUnreached run f s' = after' at *
        dsimp only
        rw [frames]
        cases after.1.move run.plane with
        | stop => exact ⟨rfl, skipped⟩
        | region r =>
            obtain ⟨outputs, inner⟩ := iterations skipped run (fun f _ _ runs => ih runs f)
              (after.1.takeRegion r.iterator) r.iterator 0 r.payloads
            unfold runRegion
            dsimp only
            rw [outputs]
            exact ih (hosts.reportRegion inner _ _) _
        | wave ids =>
            obtain ⟨left, waved⟩ := hosts.wave skipped run after.1 ids
            dsimp only
            rw [left]
            exact ih waved _

end

/-! ## Runs -/

section

variable {w : World ω} {w' : World ω'} (worlds : World.Twins l w w')
include worlds

theorem runGraph (request : RunRequest) (g : Graph) :
    (runGraph h request g w).Twins l (runGraph h' request g w') := by
  have start : (request.start w).Twins l (request.start w') := ⟨worlds, rfl⟩
  exact (hosts.runMoves start (request.plan g) g.moveBound g.topFrame).run

theorem changeStatus (status : RunStatus) :
    World.Twins l (w.changeStatus h status) (w'.changeStatus h' status) :=
  hosts.observe rfl (worlds.stampState fun _ _ same =>
    ExecutionState.untimed_setStatus same status)

theorem beginRun (id id' : Uuid) : World.Twins l (w.beginRun h id) (w'.beginRun h' id') := by
  have asked := worlds.modifyEngine (f := fun e => { e with cancelRequested := false }) fun _ => rfl
  exact hosts.observe rfl (asked.stampState fun _ _ same => ExecutionState.untimed_beginRun same)

/-- A run comes to the same in both worlds. -/
theorem executeReserved (request : RunRequest) :
    (executeReserved h' request w').1.map RunSummary.untimed =
        (executeReserved h request w).1.map RunSummary.untimed ∧
      World.Twins l (executeReserved h request w).2 (executeReserved h' request w').2 := by
  unfold Flowline.executeReserved
  dsimp only
  cases (Graph.ofWorkflow request.workflow).cycleNode? with
  | some id => exact ⟨rfl, worlds.modifyEngine fun _ => rfl⟩
  | none =>
      have numbered : World.Twins l w.freshId.2 w'.freshId.2 :=
        ⟨worlds.engine, worlds.now, worlds.outside⟩
      have begun := hosts.beginRun numbered w.freshId.1 w'.freshId.1
      have ran := hosts.runGraph begun request (Graph.ofWorkflow request.workflow)
      dsimp only
      rw [ran.progress, ran.world.isCancelled]
      refine ⟨rfl, (hosts.changeStatus ran.world _).modifyEngine fun _ => rfl⟩

theorem execute (request : RunRequest) :
    (execute h' request w').1.map RunSummary.untimed =
        (execute h request w).1.map RunSummary.untimed ∧
      World.Twins l (execute h request w).2 (execute h' request w').2 := by
  unfold Flowline.execute Engine.reserve
  rw [worlds.slotHeld]
  by_cases held : w.engine.slotHeld = true
  · rw [if_pos held, if_pos held]
    exact ⟨rfl, worlds⟩
  · have reserved := worlds.modifyEngine (f := fun e => { e with slotHeld := true }) fun _ => rfl
    rw [if_neg held, if_neg held]
    exact hosts.executeReserved reserved request

end

end Host.Twins

end

/-! ## Traces -/

/-- What passes is the same but for ids, times and keys. -/
inductive Passage.Twins (l : Likeness ω ω') : Passage → Passage → Prop where
  | report {event event' : RunEvent} (same : event'.bare = event.bare) :
      Twins l (.report event) (.report event')
  | wait {time time' : Nat} (later : (time' : Int) = time + l.later) :
      Twins l (.wait time) (.wait time')

/-- Contacts at which the same passes, with twins before and after them. -/
structure Contact.Twins (l : Likeness ω ω') (c : Contact ω) (c' : Contact ω') : Prop where
  what : c.what.Twins l c'.what
  before : World.Twins l c.before c'.before
  after : World.Twins l c.after c'.after

/-- Programs that keep traces are alike if their traces are, too. -/
def Likeness.traced (l : Likeness ω ω') :
    Likeness (ω × List (Contact ω)) (ω' × List (Contact ω')) where
  alike kept kept' := l.alike kept.1 kept'.1 ∧ List.Forall₂ (Contact.Twins l) kept.2 kept'.2
  later := l.later

section

variable {l : Likeness ω ω'}

theorem World.Twins.untraced {w : World ω} {w' : World ω'} (worlds : Twins l w w') :
    Twins l.traced w.untraced w'.untraced :=
  ⟨worlds.engine, worlds.now, worlds.outside, .nil⟩

theorem World.Twins.contact {w : World (ω × List (Contact ω))}
    {w' : World (ω' × List (Contact ω'))} (worlds : Twins l.traced w w') {what what' : Passage}
    (passes : what.Twins l what') {act : World ω → World ω} {act' : World ω' → World ω'}
    (acts : ∀ {w w'}, Twins l w w' → Twins l (act w) (act' w')) :
    Twins l.traced (w.contact what act) (w'.contact what' act') := by
  have before : Twins l (w.map Prod.fst) (w'.map Prod.fst) :=
    ⟨worlds.engine, worlds.now, worlds.outside.1⟩
  have after := acts before
  exact ⟨after.engine, after.now, after.outside,
    List.rel_append worlds.outside.2 (.cons ⟨passes, before, after⟩ .nil)⟩

/-- Twins that keep traces are twins. -/
theorem Host.Twins.traced {h : Host ω} {h' : Host ω'} (hosts : h.Twins h' l) :
    h.traced.Twins h'.traced l.traced where
  hasConnection := hosts.hasConnection
  decrypt := hosts.decrypt
  treat := hosts.treat
  observe same worlds := worlds.contact (.report same) (hosts.observe same)
  elapse later worlds := worlds.contact (.wait later) (hosts.elapse later)

end

/-- Two runs that are traced come to the same but for ids, times and keys: their summaries, their
logs, the states and stores that they leave, and all that passes between them and the rest of the
programs, with the engine at each of these moments. -/
structure ComeAlike (l : Likeness ω ω')
    (ran : Except EngineError RunSummary × World (ω × List (Contact ω)))
    (ran' : Except EngineError RunSummary × World (ω' × List (Contact ω'))) : Prop where
  summary : ran'.1.map RunSummary.untimed = ran.1.map RunSummary.untimed
  log : ran'.2.engine.state.log.map LogEntry.untimed = ran.2.engine.state.log.map LogEntry.untimed
  state : ran'.2.engine.state.untimed = ran.2.engine.state.untimed
  store : ran'.2.engine.store = ran.2.engine.store
  trace : List.Forall₂ (Contact.Twins l) ran.2.trace ran'.2.trace

/-- **Keys do not leak.**  Runs of a workflow in programs that decrypt other keys, but decrypt the
same texts and fail with the same messages, come to the same if the services do not look at the
keys: keys do not occur in anything that a run leaves or reports, but for the headers of calls that
carry them. -/
theorem keys_hidden {h : Host ω} {h' : Host ω'} {l : Likeness ω ω'} (hosts : h.Twins h' l)
    {w : World ω} {w' : World ω'} (worlds : World.Twins l w w') (request : RunRequest) :
    ComeAlike l (execute h.traced request w.untraced) (execute h'.traced request w'.untraced) := by
  obtain ⟨summary, ended⟩ := hosts.traced.execute worlds.untraced request
  have state := congrArg Engine.state ended.engine
  exact ⟨summary, congrArg ExecutionState.log state, state, ended.store, ended.outside.2⟩

/-! ### Programs that record their runs -/

/-- The program records all reports, and does nothing else. -/
def Host.recording (services : Services) : Host (List RunEvent) where
  services
  observe event w := { w with outside := w.outside ++ [event] }
  elapse time w := { w with now := time }

/-- Records are alike if they are the same without ids, times and keys. -/
def Likeness.recorded (later : Int) : Likeness (List RunEvent) (List RunEvent) where
  alike seen seen' := seen'.map RunEvent.bare = seen.map RunEvent.bare
  later

/-- Programs that record their runs are twins if their services do not look at keys. -/
theorem Host.twins_recording (services services' : Services)
    (hasConnection : services'.directory.hasConnection = services.directory.hasConnection)
    (decrypt : DecryptsLike services.directory.decrypt services'.directory.decrypt)
    (treat : ∀ call call', call'.veiled = call.veiled →
      services'.treat call' = services.treat call) (later : Int) :
    (recording services).Twins (recording services') (.recorded later) where
  hasConnection := hasConnection
  decrypt := decrypt
  treat := treat
  observe {event event' w w'} same worlds := by
    refine ⟨worlds.engine, worlds.now, ?_⟩
    have seen : w'.outside.map RunEvent.bare = w.outside.map RunEvent.bare := worlds.outside
    show (w'.outside ++ [event']).map RunEvent.bare = (w.outside ++ [event]).map RunEvent.bare
    rw [List.map_append, List.map_append, seen, List.map_singleton, List.map_singleton, same]
  elapse later worlds := ⟨worlds.engine, later, worlds.outside⟩

/-- A workflow that asks a model once. -/
def askOnce : RunRequest where
  workflow := { nodes :=
    [{ id := "ask", config := .prompt { integrationId := "model", prompt := "Well?" } }] }
  integrations := [{ id := "model", provider := .anthropic, model := "-", apiKey := "sealed" }]

/-- Services that open each sealed key to the same one, with a model that always says the same. -/
def Services.answering (key : String) : Services where
  directory := { hasConnection := fun _ => false, decrypt := fun _ => .ok key }
  treat _ :=
    { delayMs := 5
      reply := .http { status := 200, statusText := "OK", headers := []
                       body := "\x7b\"content\":[\x7b\"text\":\"Yes.\"\x7d]\x7d" } }

/-- The keys that were sent to the model. -/
def keysSent (seen : List RunEvent) : List String :=
  seen.filterMap fun
    | .called (.http request) => request.headers.lookup "x-api-key"
    | _ => none

/-- Two runs at different times send different keys, and come to the same. -/
theorem keys_hidden_askOnce :
    let l := Likeness.recorded 7
    let h := Host.recording (.answering "one")
    let h' := Host.recording (.answering "another")
    let w : World (List RunEvent) := { engine := { defaultTimeoutMs := 1000 }, outside := [] }
    let w' : World (List RunEvent) := { w with now := 7, serial := 3 }
    h.Twins h' l ∧ World.Twins l w w' ∧
      keysSent (execute h askOnce w).2.outside = ["one"] ∧
      keysSent (execute h' askOnce w').2.outside = ["another"] ∧
      ComeAlike l (execute h.traced askOnce w.untraced)
        (execute h'.traced askOnce w'.untraced) := by
  intro l h h' w w'
  have hosts : h.Twins h' l :=
    Host.twins_recording (.answering "one") (.answering "another") rfl (fun _ => rfl)
      (fun _ _ _ => rfl) 7
  have worlds : World.Twins l w w' := ⟨rfl, rfl, rfl⟩
  refine ⟨hosts, worlds, ?_, ?_, keys_hidden hosts worlds askOnce⟩
  · cbv
  · cbv

end Flowline
