import Flowline.Proofs.Run.Settle

/-!
# The history of a run

`runEvents` lists what a run does, frame by frame: what it skips, dispatches and settles, and when
regions and frames begin and end.  It calls the functions of the run itself for every state that it
goes through.  `FrameRun` says the same as a relation without a bound on moves, with what is known
at each move; all properties of runs are proved by induction on it.

* `FrameRun.advance`: the log of a run has the executions of its history, in order.
* `frameRun_moveEvents`: the moves of a frame are a `FrameRun` if the bound exceeds the budget of
  the frame.
* `frameRun_runEvents`: a whole run is one.
-/

namespace Flowline

variable {ω : Type}

/-- What happens in a frame. -/
inductive Happening where
  | entered (f : Frame)
  | skipped (ids : List String)
  | dispatched (tasks : List Task)
  | settled (task : Task) (ended : Ended)
  /-- A region begins; it was ready or not. -/
  | opened (r : PendingRegion) (ready : Bool)
  | closed (r : PendingRegion)
  | finished (f : Frame)

/-- What happens in the frame at a place. -/
structure Event where
  place : Place
  what : Happening

/-! ## Listing what a run does -/

section

variable (h : Host ω) (run : RunPlan)

/-- A wave dispatches its nodes and settles what they came to. -/
def waveEvents (place : Place) (f : Frame) (s : Ongoing ω) (ids : List String) : List Event :=
  ⟨place, .dispatched (f.tasks run.plane ids)⟩ ::
    (waveRan h run f s ids).map fun r => ⟨place, .settled r.1 r.2⟩

/-- The frames for the payloads of a region, numbered from a number on. -/
def iterationEvents (runChild : Frame → Ongoing ω → Frame × Ongoing ω)
    (childEvents : Place → Frame → Ongoing ω → List Event) (around : Frame) (iterator : String)
    (place : Place) : Nat → List Json → Ongoing ω → List Event
  | _, [], _ => []
  | number, payload :: rest, s =>
    if s.stopped then []
    else
      let inner := (iterator, number) :: place
      let child := run.plane.iterationFrame around iterator number payload
      (⟨inner, .entered child⟩ :: childEvents inner child s) ++
        iterationEvents runChild childEvents around iterator place (number + 1) rest
          (runChild child s).2

/-- What a frame does in at most so many moves. -/
def moveEvents : Nat → Place → Frame → Ongoing ω → List Event
  | 0, _, _, _ => []
  | moves + 1, place, f, s =>
    if s.stopped then []
    else
      let (after, s) := skipUnreached run f s
      ⟨place, .skipped (f.skippedNext run.plane)⟩ ::
        match after.move run.plane with
        | .stop => [⟨place, .finished after⟩]
        | .region r =>
          let inner := iterationEvents run (runMoves h run moves) (moveEvents moves)
            (after.takeRegion r.iterator) r.iterator place 0 r.payloads s
          let (next, s) := runRegion h run (runMoves h run moves) after s r
          ⟨place, .opened r (after.regionReady run.plane r.iterator)⟩ ::
            (inner ++ ⟨place, .closed r⟩ :: moveEvents moves place next s)
        | .wave ids =>
          let (next, after_wave) := wave h run after s ids
          waveEvents h run place after s ids ++ moveEvents moves place next after_wave

end

/-- What all frames of a run of the graph share. -/
def RunRequest.plan (request : RunRequest) (g : Graph) : RunPlan :=
  { plane := Plane.ofGraph g, integrations := request.integrations
    previous := request.workflow.storedResults }

/-- The frame over all nodes of the graph. -/
def Graph.topFrame (g : Graph) : Frame := (Plane.ofGraph g).frame g.ids [] [] none

/-- A run as it begins. -/
def RunRequest.start (request : RunRequest) (w : World ω) : Ongoing ω :=
  ⟨w, ⟨request.environment.variables, [], false, false⟩⟩

/-- What a run does. -/
def runEvents (h : Host ω) (request : RunRequest) (g : Graph) (w : World ω) : List Event :=
  ⟨[], .entered g.topFrame⟩ ::
    moveEvents h (request.plan g) g.moveBound [] g.topFrame (request.start w)

/-! ## Runs of frames -/

/-- A frame that goes on has skipped what must be skipped. -/
structure Begun (request : RunRequest) (g : Graph) (place : Place) (f : Frame) (s : Ongoing ω)
    (f₁ : Frame) (s₁ : Ongoing ω) : Prop where
  held : s.world.engine.slotHeld = true
  goes_on : s.stopped = false
  sound : f.Sound g place
  skipped : skipUnreached (request.plan g) f s = (f₁, s₁)

/-- The iterations of a region: a frame for each payload, until the run is stopped. -/
structure Iterates (r : PendingRegion) (count : Nat) (states : Nat → Ongoing ω) : Prop where
  within : count ≤ r.payloads.length
  goes_on : ∀ k < count, (states k).stopped = false
  all : (states count).stopped = false → count = r.payloads.length

section

variable (h : Host ω) (request : RunRequest) (g : Graph)

/-- The frame of an iteration of a region. -/
def Graph.childFrame (g : Graph) (f : Frame) (r : PendingRegion) (k : Nat) : Frame :=
  (Plane.ofGraph g).iterationFrame (f.takeRegion r.iterator) r.iterator k (r.payloads.getD k .null)

/-- What happens in the first iterations of a region, given what happens in each of them. -/
def Graph.innerEvents (g : Graph) (place : Place) (f : Frame) (r : PendingRegion)
    (parts : Nat → List Event) (count : Nat) : List Event :=
  (List.range count).flatMap fun k =>
    ⟨(r.iterator, k) :: place, .entered (g.childFrame f r k)⟩ :: parts k

/-- A frame runs from one moment to another, with what happens on the way. -/
inductive FrameRun : Place → Frame → Ongoing ω → List Event → Frame → Ongoing ω → Prop where
  /-- The run was stopped. -/
  | stopped {place : Place} {f : Frame} {s : Ongoing ω}
      (held : s.world.engine.slotHeld = true) (stopped : s.stopped = true) :
      FrameRun place f s [] f s
  /-- Nothing is left to do. -/
  | finished {place : Place} {f f₁ : Frame} {s s₁ : Ongoing ω}
      (begun : Begun request g place f s f₁ s₁) (done : ∀ u, ¬ f₁.Unfinished u) :
      FrameRun place f s
        [⟨place, .skipped (f.skippedNext (Plane.ofGraph g))⟩, ⟨place, .finished f₁⟩] f₁ s₁
  /-- All members that are ready run together. -/
  | wave {place : Place} {f f₁ f₂ f' : Frame} {s s₁ s₂ s' : Ongoing ω} {ids : List String}
      {ran : List (Task × Ended)} {events : List Event}
      (begun : Begun request g place f s f₁ s₁) (ready : f₁.readyMembers (Plane.ofGraph g) = ids)
      (dispatched : waveRan h (request.plan g) f₁ s₁ ids = ran)
      (next : wave h (request.plan g) f₁ s₁ ids = (f₂, s₂))
      (rest : FrameRun place f₂ s₂ events f' s') :
      FrameRun place f s
        (⟨place, .skipped (f.skippedNext (Plane.ofGraph g))⟩ ::
          ⟨place, .dispatched (f₁.tasks (Plane.ofGraph g) ids)⟩ ::
          (ran.map (fun r => ⟨place, .settled r.1 r.2⟩) ++ events)) f' s'
  /-- A region that is ready runs, iteration by iteration. -/
  | region {place : Place} {f f₁ f' : Frame} {s s₁ s' : Ongoing ω} {r : PendingRegion}
      {count : Nat} {states : Nat → Ongoing ω} {parts : Nat → List Event} {frames : Nat → Frame}
      {outputs : List (Entries Json)} {events : List Event}
      (begun : Begun request g place f s f₁ s₁) (pending : r ∈ f₁.pending)
      (ready : f₁.regionReady (Plane.ofGraph g) r.iterator = true)
      (iterates : Iterates r count states) (first : states 0 = s₁)
      (each : ∀ k < count, FrameRun ((r.iterator, k) :: place) (g.childFrame f₁ r k) (states k)
        (parts k) (frames k) (states (k + 1)))
      (outputs_eq : outputs = (List.range count).map fun k => (frames k).outputs)
      (rest : FrameRun place ((f₁.takeRegion r.iterator).settleRegion r outputs)
        (reportRegion h (states count) r.iterator (aggregate r.data outputs)) events f' s') :
      FrameRun place f s
        (⟨place, .skipped (f.skippedNext (Plane.ofGraph g))⟩ :: ⟨place, .opened r true⟩ ::
          (g.innerEvents place f₁ r parts count ++ ⟨place, .closed r⟩ :: events)) f' s'

end

namespace Begun

variable {request : RunRequest} {g : Graph} {place : Place} {f f₁ : Frame} {s s₁ : Ongoing ω}

theorem frame_eq (begun : Begun request g place f s f₁ s₁) : f₁ = f.skipAll (Plane.ofGraph g) :=
  (congrArg Prod.fst begun.skipped).symm

theorem progress_eq (begun : Begun request g place f s f₁ s₁) :
    s₁.progress = s.progress.skip (f.skippedNext (Plane.ofGraph g)) :=
  congrArg (·.2.progress) begun.skipped.symm

theorem world_eq (begun : Begun request g place f s f₁ s₁) : s₁.world = s.world :=
  congrArg (·.2.world) begun.skipped.symm

theorem advance (begun : Begun request g place f s f₁ s₁) : Ongoing.Advance s [] s₁ := by
  have skipped := advance_skipUnreached (request.plan g) f s
  rw [begun.skipped] at skipped
  exact skipped

theorem held₁ (begun : Begun request g place f s f₁ s₁) : s₁.world.engine.slotHeld = true :=
  begun.advance.held begun.held

theorem follows (begun : Begun request g place f s f₁ s₁) : Frame.Follows f f₁ := by
  rw [begun.frame_eq]
  exact Frame.follows_skipAll _ f

theorem sound₁ (wf : g.WellFormed) (begun : Begun request g place f s f₁ s₁) :
    f₁.Sound g place := by
  rw [begun.frame_eq]
  exact begun.sound.skipAll wf

theorem settled_eq (begun : Begun request g place f s f₁ s₁) :
    f₁.settled = f.skippedNext (Plane.ofGraph g) ++ f.settled := by
  rw [begun.frame_eq, Frame.settled_skipAll]

theorem pending_eq (begun : Begun request g place f s f₁ s₁) : f₁.pending = f.pending := by
  rw [begun.frame_eq, Frame.skipAll_pending]

theorem held_first (begun : Begun request g place f s f₁ s₁) {states : Nat → Ongoing ω}
    (first : states 0 = s₁) : (states 0).world.engine.slotHeld = true := by
  rw [first]
  exact begun.held₁

theorem no_skip (begun : Begun request g place f s f₁ s₁) :
    ∀ id ∈ f₁.members, f₁.mustSkip (Plane.ofGraph g) id = false := by
  rw [begun.frame_eq]
  exact Frame.not_mustSkip_skipAll _ f

end Begun

/-! ## The log of a history -/

/-- An execution in the frame at a place. -/
structure Ran where
  place : Place
  task : Task
  ended : Ended

/-- The node that ran. -/
def Ran.id (x : Ran) : String := x.task.node.id

/-- The executions of a history, in order. -/
def executions (events : List Event) : List Ran :=
  events.filterMap fun e =>
    match e.what with
    | .settled t ended => some ⟨e.place, t, ended⟩
    | _ => none

theorem mem_executions {events : List Event} {x : Ran} :
    x ∈ executions events ↔ ⟨x.place, .settled x.task x.ended⟩ ∈ events := by
  unfold executions
  rw [List.mem_filterMap]
  constructor
  · rintro ⟨⟨place, what⟩, mem, same⟩
    cases what with
    | settled t ended =>
        cases same
        exact mem
    | entered | skipped | dispatched | opened | closed | finished => cases same
  · exact fun mem => ⟨_, mem, rfl⟩

theorem executions_append (first second : List Event) :
    executions (first ++ second) = executions first ++ executions second :=
  List.filterMap_append ..

theorem executions_map_settled (place : Place) (ran : List (Task × Ended)) :
    executions (ran.map fun r => ⟨place, .settled r.1 r.2⟩) =
      ran.map fun r => ⟨place, r.1, r.2⟩ := by
  induction ran with
  | nil => rfl
  | cons r rest ih => exact congrArg (⟨place, r.1, r.2⟩ :: ·) ih

theorem executions_wave (place : Place) (skipped : List String) (tasks : List Task)
    (ran : List (Task × Ended)) (events : List Event) :
    executions (⟨place, .skipped skipped⟩ :: ⟨place, .dispatched tasks⟩ ::
        (ran.map (fun r => ⟨place, .settled r.1 r.2⟩) ++ events)) =
      ran.map (fun r => ⟨place, r.1, r.2⟩) ++ executions events := by
  rw [← executions_map_settled, ← executions_append]
  rfl

theorem executions_region (place : Place) (skipped : List String) (r : PendingRegion)
    (inner events : List Event) :
    executions (⟨place, .skipped skipped⟩ :: ⟨place, .opened r true⟩ ::
        (inner ++ ⟨place, .closed r⟩ :: events)) = executions inner ++ executions events := by
  have closed : executions (⟨place, .closed r⟩ :: events) = executions events := rfl
  rw [← closed, ← executions_append]
  rfl

theorem executions_innerEvents (g : Graph) (place : Place) (f : Frame) (r : PendingRegion)
    (parts : Nat → List Event) (count : Nat) :
    executions (g.innerEvents place f r parts count) =
      (List.range count).flatMap fun k => executions (parts k) := by
  unfold Graph.innerEvents
  induction List.range count with
  | nil => rfl
  | cons k rest ih =>
      rw [List.flatMap_cons, executions_append, ih, List.flatMap_cons]
      rfl

/-- The waves of a history, in order: where they are, and which nodes they dispatch with what comes
in. -/
def dispatchedWaves (events : List Event) : List (Place × List Task) :=
  events.filterMap fun e =>
    match e.what with
    | .dispatched tasks => some (e.place, tasks)
    | _ => none

/-- The entries of the log tell of the executions, in order. -/
def Logs (logged : List LogEntry) (executions : List Ran) : Prop :=
  List.Forall₂ (fun entry x => LogEntry.Describes entry x.place x.task x.ended.execution) logged
    executions

theorem Logs.append {first second : List LogEntry} {xs ys : List Ran}
    (left : Logs first xs) (right : Logs second ys) : Logs (first ++ second) (xs ++ ys) :=
  List.rel_append left right

section

variable {h : Host ω} {request : RunRequest} {g : Graph}

theorem mem_innerEvents {place : Place} {f : Frame} {r : PendingRegion} {parts : Nat → List Event}
    {count : Nat} {e : Event} :
    e ∈ g.innerEvents place f r parts count ↔
      ∃ k < count, e = ⟨(r.iterator, k) :: place, .entered (g.childFrame f r k)⟩ ∨ e ∈ parts k := by
  simp [Graph.innerEvents]

theorem innerEvents_succ (place : Place) (f : Frame) (r : PendingRegion)
    (parts : Nat → List Event) (count : Nat) :
    g.innerEvents place f r parts (count + 1) = g.innerEvents place f r parts count ++
      ⟨(r.iterator, count) :: place, .entered (g.childFrame f r count)⟩ :: parts count := by
  rw [Graph.innerEvents, List.range_succ, List.flatMap_append, List.flatMap_singleton]
  rfl

/-- What advances in each iteration advances in all of them. -/
theorem advance_innerEvents (place : Place) (f : Frame) (r : PendingRegion)
    {states : Nat → Ongoing ω} {parts : Nat → List Event} (count : Nat)
    (each : ∀ k < count, ∃ logged, Logs logged (executions (parts k)) ∧
      Ongoing.Advance (states k) logged (states (k + 1))) :
    ∃ logged, Logs logged (executions (g.innerEvents place f r parts count)) ∧
      Ongoing.Advance (states 0) logged (states count) := by
  induction count with
  | zero => exact ⟨[], .nil, .refl _⟩
  | succ count ih =>
      obtain ⟨logged, logs, advance⟩ := ih fun k lt => each k (Nat.lt_succ_of_lt lt)
      obtain ⟨more, more_logs, last⟩ := each count (Nat.lt_succ_self count)
      refine ⟨logged ++ more, ?_, advance.trans last⟩
      rw [innerEvents_succ, executions_append]
      exact logs.append more_logs

/-- A run goes on in its world; its log has the executions of its history, in order. -/
theorem FrameRun.advance (alone : h.LeavesRunsAlone) {place : Place} {f f' : Frame}
    {s s' : Ongoing ω} {events : List Event}
    (frame_run : FrameRun h request g place f s events f' s') :
    ∃ logged, Logs logged (executions events) ∧ Ongoing.Advance s logged s' := by
  induction frame_run with
  | stopped held stopped => exact ⟨[], .nil, .refl _⟩
  | finished begun done => exact ⟨[], .nil, begun.advance⟩
  | @wave place f f₁ f₂ f' s s₁ s₂ s' ids ran events begun ready dispatched next rest ih =>
      subst dispatched
      obtain ⟨logged, logs, waved⟩ :=
        advance_wave alone _ _ _ (begun.follows.iteration.trans begun.sound.iteration)
      obtain ⟨more, more_logs, later⟩ := ih
      rw [next] at waved
      refine ⟨logged ++ more, ?_, begun.advance.trans (waved.trans later)⟩
      have here : Logs logged ((waveRan h (request.plan g) f₁ s₁ ids).map
          fun r => ⟨place, r.1, r.2⟩) := List.forall₂_map_right_iff.2 logs
      rw [executions_wave]
      exact here.append more_logs
  | @region place f f₁ f' s s₁ s' r count states parts frames outputs events begun pending ready
      iterates first each outputs_eq rest each_ih ih =>
      obtain ⟨logged, logs, iterated⟩ := advance_innerEvents place f₁ r count each_ih
      obtain ⟨more, more_logs, later⟩ := ih
      have reported :=
        advance_reportRegion alone (states count) r.iterator (aggregate r.data outputs)
      rw [first] at iterated
      refine ⟨logged ++ more, ?_, begun.advance.trans (iterated.trans (reported.trans later))⟩
      rw [executions_region]
      exact logs.append more_logs

/-! ## Frames run within their bounds -/

theorem FrameRun.held (alone : h.LeavesRunsAlone) {place : Place} {f f' : Frame}
    {s s' : Ongoing ω} {events : List Event}
    (frame_run : FrameRun h request g place f s events f' s') :
    s'.world.engine.slotHeld = true := by
  obtain ⟨logged, -, advance⟩ := frame_run.advance alone
  cases frame_run with
  | stopped held => exact advance.held held
  | finished begun => exact advance.held begun.held
  | wave begun => exact advance.held begun.held
  | region begun => exact advance.held begun.held

theorem FrameRun.held_start {place : Place} {f f' : Frame} {s s' : Ongoing ω} {events : List Event}
    (frame_run : FrameRun h request g place f s events f' s') :
    s.world.engine.slotHeld = true := by
  cases frame_run with
  | stopped held => exact held
  | finished begun => exact begun.held
  | wave begun => exact begun.held
  | region begun => exact begun.held

/-- A run that goes on at the end of a frame went on at its beginning. -/
theorem FrameRun.goes_on_start (alone : h.LeavesRunsAlone) {place : Place} {f f' : Frame}
    {s s' : Ongoing ω} {events : List Event}
    (frame_run : FrameRun h request g place f s events f' s') (goes_on : s'.stopped = false) :
    s.stopped = false := by
  obtain ⟨logged, -, advance⟩ := frame_run.advance alone
  by_contra stopped
  have later := advance.stopped frame_run.held_start (by simpa using stopped)
  exact Bool.noConfusion (goes_on.symm.trans later)

section

variable {count : Nat} {states : Nat → Ongoing ω} {places : Nat → Place}
  {children frames : Nat → Frame} {parts : Nat → List Event}
  (each : ∀ k < count, FrameRun h request g (places k) (children k) (states k) (parts k) (frames k)
    (states (k + 1)))
include each

theorem advance_of_each (alone : h.LeavesRunsAlone) {j : Nat} (le : j ≤ count) :
    ∃ logged, Ongoing.Advance (states j) logged (states count) := by
  induction count with
  | zero =>
      rw [Nat.le_zero.1 le]
      exact ⟨[], .refl _⟩
  | succ count ih =>
      rcases Nat.lt_or_eq_of_le le with lt | rfl
      · obtain ⟨logged, before⟩ :=
          ih (fun k lt => each k (Nat.lt_succ_of_lt lt)) (Nat.le_of_lt_succ lt)
        obtain ⟨more, -, last⟩ := (each count (Nat.lt_succ_self count)).advance alone
        exact ⟨logged ++ more, before.trans last⟩
      · exact ⟨[], .refl _⟩

theorem held_of_each (alone : h.LeavesRunsAlone)
    (first : (states 0).world.engine.slotHeld = true) :
    (states count).world.engine.slotHeld = true := by
  obtain ⟨logged, advance⟩ := advance_of_each each alone (Nat.zero_le count)
  exact advance.held first

end

/-- In a run that goes on after a region, each payload has had its iteration, and the run went on
after each of them. -/
theorem Iterates.complete (alone : h.LeavesRunsAlone) {r : PendingRegion} {count : Nat}
    {states : Nat → Ongoing ω} {places : Nat → Place} {children frames : Nat → Frame}
    {parts : Nat → List Event} {id : String} {data : Json} (iterates : Iterates r count states)
    (first : (states 0).world.engine.slotHeld = true)
    (each : ∀ k < count, FrameRun h request g (places k) (children k) (states k) (parts k)
      (frames k) (states (k + 1)))
    (goes_on : (reportRegion h (states count) id data).stopped = false) :
    count = r.payloads.length ∧ ∀ k < count, (states (k + 1)).stopped = false := by
  have held := held_of_each each alone first
  have last : (states count).stopped = false := by
    by_contra stopped
    have later := (advance_reportRegion alone (states count) id data).stopped held
      (by simpa using stopped)
    exact Bool.noConfusion (goes_on.symm.trans later)
  refine ⟨iterates.all last, fun k lt => ?_⟩
  rcases Nat.lt_or_eq_of_le (Nat.succ_le_of_lt lt) with more | same
  · exact iterates.goes_on (k + 1) more
  · have same : k + 1 = count := same
    rw [same]
    exact last

/-- A frame of a run that goes on comes to its end. -/
theorem FrameRun.exists_finished (wf : g.WellFormed) {place : Place} {f f' : Frame}
    {s s' : Ongoing ω} {events : List Event}
    (frame_run : FrameRun h request g place f s events f' s') (goes_on : s'.stopped = false) :
    ⟨place, .finished f'⟩ ∈ events ∧ f'.Sound g place ∧ ∀ u, ¬ f'.Unfinished u := by
  induction frame_run with
  | stopped held stopped => exact Bool.noConfusion (goes_on.symm.trans stopped)
  | finished begun done => exact ⟨by simp, begun.sound₁ wf, done⟩
  | wave begun ready dispatched next rest ih =>
      obtain ⟨mem, ended⟩ := ih goes_on
      exact ⟨by simp [mem], ended⟩
  | region begun pending ready iterates first each outputs_eq rest each_ih ih =>
      obtain ⟨mem, ended⟩ := ih goes_on
      exact ⟨by simp [mem], ended⟩

/-- The sequence that has `a` first and then goes through `f`. -/
def startWith {α : Type} (a : α) (f : Nat → α) : Nat → α
  | 0 => a
  | k + 1 => f k

/-- The iterations of a region are runs of frames if the function for its frames makes such runs. -/
theorem exists_iterations (alone : h.LeavesRunsAlone) {around : Frame} {I : String} {place : Place}
    {runChild : Frame → Ongoing ω → Frame × Ongoing ω}
    {childEvents : Place → Frame → Ongoing ω → List Event}
    (runs : ∀ (k : Nat) (payload : Json) (s : Ongoing ω), s.world.engine.slotHeld = true →
      FrameRun h request g ((I, k) :: place)
        ((Plane.ofGraph g).iterationFrame around I k payload) s
        (childEvents ((I, k) :: place) ((Plane.ofGraph g).iterationFrame around I k payload) s)
        (runChild ((Plane.ofGraph g).iterationFrame around I k payload) s).1
        (runChild ((Plane.ofGraph g).iterationFrame around I k payload) s).2)
    (payloads : List Json) (number : Nat) (s : Ongoing ω)
    (held : s.world.engine.slotHeld = true) :
    ∃ (count : Nat) (states : Nat → Ongoing ω) (parts : Nat → List Event) (frames : Nat → Frame),
      states 0 = s ∧ count ≤ payloads.length ∧ (∀ k < count, (states k).stopped = false) ∧
      ((states count).stopped = false → count = payloads.length) ∧
      (∀ k < count, FrameRun h request g ((I, number + k) :: place)
        ((Plane.ofGraph g).iterationFrame around I (number + k) (payloads.getD k .null)) (states k)
        (parts k) (frames k) (states (k + 1))) ∧
      iterations (request.plan g) runChild around I number payloads s =
        ((List.range count).map fun k => (frames k).outputs, states count) ∧
      iterationEvents (request.plan g) runChild childEvents around I place number payloads s =
        (List.range count).flatMap fun k => ⟨(I, number + k) :: place, .entered
          ((Plane.ofGraph g).iterationFrame around I (number + k) (payloads.getD k .null))⟩ ::
            parts k := by
  induction payloads generalizing number s with
  | nil =>
      exact ⟨0, fun _ => s, fun _ => [], fun _ => around, rfl, Nat.le_refl _, by simp, by simp,
        by simp, rfl, rfl⟩
  | cons payload rest ih =>
      by_cases stopped : s.stopped = true
      · refine ⟨0, fun _ => s, fun _ => [], fun _ => around, rfl, Nat.zero_le _, by simp, ?_,
          by simp, ?_, ?_⟩
        · intro goes_on
          exact Bool.noConfusion (goes_on.symm.trans stopped)
        · simp [iterations, stopped]
        · simp [iterationEvents, stopped]
      · have goes_on : s.stopped = false := by simpa using stopped
        have first := runs number payload s held
        let child := (Plane.ofGraph g).iterationFrame around I number payload
        obtain ⟨count, states, parts, frames, start, within, going, full, each, same, events⟩ :=
          ih (number + 1) _ (first.held alone)
        refine ⟨count + 1, startWith s states,
          startWith (childEvents ((I, number) :: place) child s) parts,
          startWith (runChild child s).1 frames, rfl, ?_, ?_, ?_, ?_, ?_, ?_⟩
        · exact Nat.succ_le_succ within
        · intro k lt
          cases k with
          | zero => exact goes_on
          | succ k => exact going k (Nat.lt_of_succ_lt_succ lt)
        · intro later
          exact congrArg (· + 1) (full later)
        · intro k lt
          cases k with
          | zero =>
              rw [← start] at first
              exact first
          | succ k =>
              have next := each k (Nat.lt_of_succ_lt_succ lt)
              rw [show number + 1 + k = number + (k + 1) by omega] at next
              exact next
        · rw [List.range_succ_eq_map, List.map_cons, List.map_map]
          unfold iterations
          rw [if_neg stopped]
          dsimp only
          have rest_eq := same
          simp only [RunRequest.plan] at rest_eq ⊢
          rw [rest_eq]
          rfl
        · rw [List.range_succ_eq_map, List.flatMap_cons, List.flatMap_map]
          unfold iterationEvents
          rw [if_neg stopped]
          have rest_eq := events
          simp only [RunRequest.plan] at rest_eq ⊢
          rw [rest_eq]
          refine congrArg _ (List.flatMap_congr fun k _ => ?_)
          rw [show number + 1 + k = number + (k + 1) by omega]
          rfl

/-- What a wave of a frame does to the frame. -/
structure Waved (g : Graph) (f₁ : Frame) (s₁ : Ongoing ω) (ids : List String)
    (ran : List (Task × Ended)) (f₂ : Frame) (s₂ : Ongoing ω) : Prop where
  distinct : ids.Nodup
  members : ids ⊆ f₁.members
  fresh : ∀ id ∈ ids, id ∉ f₁.settled
  tasks : (f₁.tasks (Plane.ofGraph g) ids).map (·.node.id) = ids
  frame_eq : f₂ = (f₁.dispatch ids).settleRan (Plane.ofGraph g) ran
  progress_eq : s₂.progress = s₁.progress.recordRan ran
  began : (ran.map (·.1)).Sublist (f₁.tasks (Plane.ofGraph g) ids)
  all : s₂.stopped = false → ran.map (·.1) = f₁.tasks (Plane.ofGraph g) ids

theorem Begun.waved (wf : g.WellFormed) (alone : h.LeavesRunsAlone) {place : Place}
    {f f₁ f₂ : Frame} {s s₁ s₂ : Ongoing ω} {ids : List String} {ran : List (Task × Ended)}
    (begun : Begun request g place f s f₁ s₁) (ready : f₁.readyMembers (Plane.ofGraph g) = ids)
    (dispatched : waveRan h (request.plan g) f₁ s₁ ids = ran)
    (next : wave h (request.plan g) f₁ s₁ ids = (f₂, s₂)) : Waved g f₁ s₁ ids ran f₂ s₂ := by
  subst ready
  subst dispatched
  have sound := begun.sound₁ wf
  have members (id : String) (mem : id ∈ f₁.readyMembers (Plane.ofGraph g)) : id ∈ f₁.members :=
    ((Frame.mem_readyMembers _).1 mem).1
  rw [wave_eq] at next
  refine ⟨sound.nodup_readyMembers _, members, ?_, ?_, ?_, ?_, waveRan_sublist,
    fun goes_on => ?_⟩
  · exact fun id mem => ((Frame.mem_readyMembers _).1 mem).2.1
  · exact Frame.map_id_tasks wf fun id mem => sound.shape.mem_ids (members id mem)
  · exact (congrArg Prod.fst next).symm
  · rw [← congrArg (·.2.progress) next]
    exact Ongoing.progress_settleRan _ _ _ _
  · refine waveRan_complete alone begun.held₁ ?_
    rw [wave_eq, next]
    exact goes_on

namespace Waved

variable {place : Place} {f₁ f₂ : Frame} {s₁ s₂ : Ongoing ω} {ids : List String}
  {ran : List (Task × Ended)}

theorem ranIds_sublist (waved : Waved g f₁ s₁ ids ran f₂ s₂) : (Frame.ranIds ran).Sublist ids := by
  have sub := waved.began.map (·.node.id)
  rw [waved.tasks, List.map_map] at sub
  exact sub

theorem ranIds_eq (waved : Waved g f₁ s₁ ids ran f₂ s₂) (goes_on : s₂.stopped = false) :
    Frame.ranIds ran = ids := by
  have same := congrArg (List.map (·.node.id)) (waved.all goes_on)
  rw [waved.tasks, List.map_map] at same
  exact same

theorem follows (waved : Waved g f₁ s₁ ids ran f₂ s₂) : Frame.Follows f₁ f₂ := by
  rw [waved.frame_eq]
  exact Frame.follows_settleRan _ waved.fresh waved.ranIds_sublist.subset

theorem settled_eq (waved : Waved g f₁ s₁ ids ran f₂ s₂) : f₂.settled = ids ++ f₁.settled := by
  rw [waved.frame_eq, Frame.settled_settleRan]
  rfl

theorem pending_eq (waved : Waved g f₁ s₁ ids ran f₂ s₂) :
    f₂.pending =
      f₁.pending ++ ran.filterMap fun r => Frame.regionLeft r.1.node r.2.execution := by
  rw [waved.frame_eq, Frame.pending_settleRan]
  rfl

/-- In a run that goes on a wave leaves its frame sound. -/
theorem sound (wf : g.WellFormed) (waved : Waved g f₁ s₁ ids ran f₂ s₂) (sound : f₁.Sound g place)
    (goes_on : s₂.stopped = false) : f₂.Sound g place := by
  rw [waved.frame_eq]
  exact sound.settleRan wf waved.distinct waved.members waved.fresh (waved.ranIds_eq goes_on)

/-- A wave leaves a frame less to do. -/
theorem budget_lt (waved : Waved g f₁ s₁ (f₁.readyMembers (Plane.ofGraph g)) ran f₂ s₂)
    (sound : f₁.Sound g place) (some_ready : f₁.readyMembers (Plane.ofGraph g) ≠ []) :
    f₂.budget g place < f₁.budget g place := by
  have follows := waved.follows
  rw [waved.frame_eq] at follows ⊢
  exact sound.budget_settleRan_lt _ some_ready waved.ranIds_sublist.length_le follows

end Waved

theorem Begun.held_wave (wf : g.WellFormed) (alone : h.LeavesRunsAlone) {place : Place}
    {f f₁ f₂ : Frame} {s s₁ s₂ : Ongoing ω} {ids : List String}
    (begun : Begun request g place f s f₁ s₁)
    (next : wave h (request.plan g) f₁ s₁ ids = (f₂, s₂)) :
    s₂.world.engine.slotHeld = true := by
  obtain ⟨logged, -, advance⟩ :=
    advance_wave alone (request.plan g) s₁ ids (begun.sound₁ wf).iteration
  rw [next] at advance
  exact advance.held begun.held₁

/-- What a frame does in more moves than its budget has is a run of the frame. -/
theorem frameRun_moveEvents (wf : g.WellFormed) (acyclic : g.Acyclic) (alone : h.LeavesRunsAlone)
    (moves : Nat) (place : Place) (f : Frame) (s : Ongoing ω)
    (held : s.world.engine.slotHeld = true)
    (ready : s.stopped = false → f.Sound g place ∧ f.budget g place < moves) :
    FrameRun h request g place f s (moveEvents h (request.plan g) moves place f s)
      (runMoves h (request.plan g) moves f s).1 (runMoves h (request.plan g) moves f s).2 := by
  induction moves generalizing place f s with
  | zero =>
      by_cases stopped : s.stopped = true
      · exact .stopped held stopped
      · exact absurd (ready (by simpa using stopped)).2 (Nat.not_lt_zero _)
  | succ moves ih =>
      unfold moveEvents runMoves
      by_cases stopped : s.stopped = true
      · rw [if_pos stopped, if_pos stopped]
        exact .stopped held stopped
      · rw [if_neg stopped, if_neg stopped]
        have goes_on : s.stopped = false := by simpa using stopped
        obtain ⟨sound, bound⟩ := ready goes_on
        cases skipped : skipUnreached (request.plan g) f s with
        | mk f₁ s₁ =>
            have begun : Begun request g place f s f₁ s₁ := ⟨held, goes_on, sound, skipped⟩
            have budget₁ : f₁.budget g place ≤ f.budget g place := by
              rw [begun.frame_eq]
              exact sound.budget_skipAll_le
            dsimp only
            rcases (begun.sound₁ wf).move_cases wf acyclic begun.no_skip with
              ⟨stops, done⟩ | ⟨r, pending, runs, region_ready⟩ | ⟨some_ready, waves⟩
            · rw [show f₁.move (request.plan g).plane = _ from stops]
              exact .finished begun done
            · rw [show f₁.move (request.plan g).plane = _ from runs]
              have child (k : Nat) (payload : Json) :=
                (begun.sound₁ wf).budget_iterationFrame_lt wf acyclic pending
                  (f₁.takeRegion r.iterator) k payload
              obtain ⟨count, states, parts, frames, first, within, going, all, each, same,
                  listed⟩ :=
                exists_iterations alone (fun k payload s held =>
                  ih ((r.iterator, k) :: place) _ s held fun _ =>
                    ⟨.iterationFrame wf acyclic _ _ _ _,
                      Nat.lt_of_lt_of_le (child k payload) (by omega)⟩)
                  r.payloads 0 s₁ begun.held₁
              simp only [Nat.zero_add] at each listed
              have next : runRegion h (request.plan g) (runMoves h (request.plan g) moves) f₁ s₁ r =
                  ((f₁.takeRegion r.iterator).settleRegion r
                    ((List.range count).map fun k => (frames k).outputs),
                    reportRegion h (states count) r.iterator (aggregate r.data
                      ((List.range count).map fun k => (frames k).outputs))) := by
                unfold runRegion
                dsimp only
                rw [same]
              dsimp only
              rw [next, listed, show f₁.regionReady (request.plan g).plane r.iterator = true from
                region_ready]
              refine .region begun pending region_ready ⟨within, going, all⟩ first each rfl
                (ih place _ _ ?_ fun _ => ⟨(begun.sound₁ wf).settleRegion, ?_⟩)
              · exact (advance_reportRegion alone _ _ _).held
                  (held_of_each each alone (begun.held_first first))
              · exact Nat.lt_of_lt_of_le (Frame.budget_settleRegion_lt pending) (by omega)
            · rw [show f₁.move (request.plan g).plane = _ from waves]
              dsimp only
              cases next : wave h (request.plan g) f₁ s₁ (f₁.readyMembers (Plane.ofGraph g)) with
              | mk f₂ s₂ =>
                  have waved := begun.waved wf alone rfl rfl next
                  have held₂ := begun.held_wave wf alone next
                  have less := waved.budget_lt (begun.sound₁ wf) some_ready
                  have bound₂ : f₂.budget g place < moves := by omega
                  exact .wave begun rfl rfl next (ih place f₂ s₂ held₂ fun goes_on =>
                    ⟨waved.sound wf (begun.sound₁ wf) goes_on, bound₂⟩)

theorem budget_topFrame_lt (g : Graph) : g.topFrame.budget g [] < g.moveBound := by
  have members : g.topFrame.members.length ≤ g.ids.length :=
    List.Sublist.length_le Plane.frameMembers_sublist
  have open_ : g.topFrame.unsettled.length ≤ g.topFrame.members.length := List.length_filter_le _ _
  have nothing : g.topFrame.pending.length = 0 := rfl
  have top : g.candidatesAt [] = g.ids := rfl
  have nodes : g.ids.length = g.nodes.length := List.length_map _
  unfold Frame.budget Graph.moveBound
  rw [nothing, top]
  omega

/-- A whole run is a run of the frame over all nodes. -/
theorem frameRun_runEvents (request : RunRequest) (wf : g.WellFormed) (acyclic : g.Acyclic)
    (alone : h.LeavesRunsAlone) {w : World ω} (held : w.engine.slotHeld = true) :
    ∃ f events, runEvents h request g w = ⟨[], .entered g.topFrame⟩ :: events ∧
      FrameRun h request g [] g.topFrame (request.start w) events f (runGraph h request g w) :=
  ⟨_, _, rfl, frameRun_moveEvents wf acyclic alone g.moveBound [] g.topFrame (request.start w) held
    fun _ => ⟨Frame.Sound.frame_ids wf acyclic, budget_topFrame_lt g⟩⟩

end

end Flowline
