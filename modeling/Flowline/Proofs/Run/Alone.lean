import Flowline.Proofs.Node.Kept
import Flowline.Proofs.Run.Ends

/-!
# Nodes of a wave do not notice each other

A node that executes reads and writes only its own part of the engine (`Engine.part`): what is kept
for it, what came into it last, and whether it executes.  Everything else (`Engine.rest`) stays.  So
each node of a wave comes to what it would come to alone, and leaves what it would leave alone
(`EachAlone`), both if the nodes are executed one after the other (`eachComes_executeInTurn`) and if
they wait for their services side by side (`eachComes_runWave`).

That is so while nobody else touches the engine (`Host.Passive`).
-/

namespace Flowline

variable {ω : Type}

/-- The rest of the program only looks on, and the services only answer. -/
structure Host.Passive (h : Host ω) : Prop where
  observe : ∀ event w, (h.observe event w).engine = w.engine
  elapse : ∀ time w, (h.elapse time w).engine = w.engine
  treat : ∀ call, (h.services.treat call).cancels = false

/-! ## The parts of an engine -/

/-- The entry without its id, its time and its duration. -/
def LogEntry.untimed (entry : LogEntry) : LogEntry :=
  { entry with id := .ofSerial 0, timestamp := .ofMillis 0, durationMs := 0 }

namespace Engine

/-- What an engine has of one node. -/
structure Part where
  kept : Option KeptState
  lastInput : Option Json
  executes : Bool

/-- The node is over. -/
def Part.over (p : Part) : Part := { p with executes := false }

/-- A node that is over stays over. -/
@[simp] theorem Part.over_over (p : Part) : p.over.over = p.over := rfl

/-- What the engine has of a node. -/
def part (e : Engine) (id : String) : Part where
  kept := e.store.get? id
  lastInput := e.state.lastInputs.get? id
  executes := e.state.executing.contains id

/-- What the engine has besides the parts of nodes. -/
def rest (e : Engine) : Engine :=
  { e with
    store := .empty
    state := { e.state with
      lastInputs := [], executing := [], log := e.state.log.map LogEntry.untimed } }

/-- The engines have the same, up to ids, times and durations of what is logged. -/
structure Alike (e e' : Engine) : Prop where
  part : ∀ id, e.part id = e'.part id
  rest : e.rest = e'.rest

/-- A node is over. -/
def unmark (e : Engine) (id : String) : Engine := { e with state := e.state.unmark id }

end Engine

theorem ExecutionState.mem_insertAscending {id other : String} {ids : List String} :
    other ∈ insertAscending id ids ↔ other = id ∨ other ∈ ids := by
  induction ids with
  | nil => simp [insertAscending]
  | cons first rest ih =>
      unfold insertAscending
      split
      · next same => simp [same]
      · split
        · exact List.mem_cons
        · rw [List.mem_cons, ih, List.mem_cons]
          exact or_left_comm

namespace Engine

variable {e e' : Engine} {id other : String}

theorem part_unmark_self (e : Engine) (id : String) :
    (e.unmark id).part id = (e.part id).over := by
  unfold part Part.over unmark ExecutionState.unmark
  simp

theorem part_unmark_of_ne (e : Engine) (ne : other ≠ id) :
    (e.unmark id).part other = e.part other := by
  unfold part unmark ExecutionState.unmark
  simp [ne]

@[simp] theorem rest_unmark (e : Engine) (id : String) : (e.unmark id).rest = e.rest := rfl

/-- What an engine has besides the parts of nodes tells whether the run is cancelled. -/
theorem cancelRequested_eq (same : e.rest = e'.rest) : e.cancelRequested = e'.cancelRequested :=
  (Engine.mk.inj same).2.2.2.1

theorem defaultTimeoutMs_eq (same : e.rest = e'.rest) :
    e.defaultTimeoutMs = e'.defaultTimeoutMs := (Engine.mk.inj same).1

end Engine

/-! ## One node -/

section

variable (h : Host ω) (view : WaveView)

/-- The engine after a node has begun and made its plan. -/
def World.begun (w : World ω) (t : Task) : Engine :=
  { w.engine with
    state := (w.engine.state.mark t.node.id).recordInput t.node.id t.inputValue
    store := (t.node.plan (w.context h view t) w.engine.store).2 }

/-- What a node comes to that is executed in a world. -/
def World.comesTo (w : World ω) (t : Task) : Execution :=
  .ofOutcome (t.node.execute h.services (w.context h view t) w.engine.store).1

/-- Execute a node from its beginning to its end. -/
def World.executeTask (w : World ω) (t : Task) : Option Ended × World ω :=
  match w.start h view t with
  | (.over ended, w) => (ended, w)
  | (.waiting job, w) => (h.elapse job.due w).finish h job

/-- Execute nodes one after the other. -/
def World.executeInTurn (w : World ω) : List Task → List (Option Ended) × World ω
  | [] => ([], w)
  | t :: rest =>
    let (ended, w) := w.executeTask h view t
    let (more, w) := w.executeInTurn rest
    (ended :: more, w)

/-- What a node comes to that waits for its service. -/
def Waiting.comesTo (j : Waiting) : Execution :=
  .ofOutcome (j.plan.outcomeAfter j.treatment j.timeoutMs)

/-- The job waits for the service of a node, and the node will come to an execution. -/
structure Waiting.Awaits (j : Waiting) (t : Task) (x : Execution) : Prop where
  task : j.task = t
  comes : j.comesTo = x
  answers : j.treatment.cancels = false

/-- The node has come to the execution, after some time. -/
def ComesTo (x : Execution) (r : Option Ended) : Prop := ∃ took, r = some ⟨x, took⟩

end

section

variable {h : Host ω} (passive : h.Passive) {view : WaveView} {w w' : World ω} {t : Task}
include passive

/-! ### What it does -/

theorem World.engine_begin (w : World ω) (t : Task) :
    (w.begin_ h t).engine =
      { w.engine with
        state := (w.engine.state.mark t.node.id).recordInput t.node.id t.inputValue } := by
  unfold begin_ modifyState modifyEngine
  dsimp only
  rw [passive.observe]
  dsimp only
  rw [passive.observe]

theorem World.engine_end (w : World ω) (t : Task) (since : Nat) (outcome : Outcome) :
    (w.end_ h t since outcome).2.engine = w.engine.unmark t.node.id := by
  unfold end_
  dsimp only
  split
  · exact passive.observe _ _
  · exact passive.observe _ _

/-- A node that ends while the run goes on has come to something. -/
theorem World.end_eq_some (goes_on : w.isCancelled = false) (t : Task) (since : Nat)
    (outcome : Outcome) :
    ComesTo (.ofOutcome outcome) (w.end_ h t since outcome).1 := by
  have going : (w.end_ h t since outcome).2.isCancelled = false := by
    unfold isCancelled
    rw [engine_end passive]
    exact goes_on
  obtain ⟨ended, counts⟩ : ∃ ended, (w.end_ h t since outcome).1 = some ended := by
    refine Option.ne_none_iff_exists'.1 fun dropped => ?_
    exact Bool.noConfusion (going.symm.trans ((end_eq_none_iff _ _ _ _).1 dropped))
  refine ⟨ended.durationMs, ?_⟩
  unfold end_ at counts ⊢
  dsimp only at counts ⊢
  split at counts
  · cases counts
  · next uncancelled =>
      rw [if_neg uncancelled]
      cases counts
      rfl

theorem World.engine_answer (w : World ω) {treatment : Treatment}
    (answers : treatment.cancels = false) : (w.answer h treatment).engine = w.engine := by
  unfold answer
  rw [answers, if_neg Bool.false_ne_true]
  dsimp only
  split
  · exact passive.observe _ _
  · rfl

theorem World.finish_eq (goes_on : w.isCancelled = false) {j : Waiting} {x : Execution}
    (awaits : j.Awaits t x) :
    ComesTo x (w.finish h j).1 ∧
      (w.finish h j).2.engine = w.engine.unmark t.node.id := by
  obtain ⟨rfl, rfl, answers⟩ := awaits
  have same : (if j.inTime then w.answer h j.treatment else w).engine = w.engine := by
    split
    · exact engine_answer passive w answers
    · rfl
  unfold finish
  dsimp only
  generalize (if j.inTime then w.answer h j.treatment else w) = answered at same
  refine ⟨end_eq_some passive ?_ _ _ _, ?_⟩
  · unfold isCancelled
    rw [same]
    exact goes_on
  · rw [engine_end passive, same]

theorem World.planned_eq (view : WaveView) (w : World ω) (t : Task) :
    (w.planned h view t).1 = (t.node.plan (w.context h view t) w.engine.store).1 ∧
      (w.planned h view t).2.engine = w.begun h view t := by
  have same := engine_begin passive w t
  have context : (w.begin_ h t).context h view t = w.context h view t := by
    unfold World.context
    rw [same]
  unfold planned begun modifyEngine
  dsimp only
  rw [context, same]
  exact ⟨rfl, rfl⟩

/-- A node that starts in a run that goes on is over, or waits for what it comes to. -/
theorem World.start_cases (goes_on : w.isCancelled = false) (view : WaveView) (t : Task) :
    (∃ took, (w.start h view t).1 = .over (some ⟨w.comesTo h view t, took⟩) ∧
      (w.start h view t).2.engine = (w.begun h view t).unmark t.node.id) ∨
    ∃ job, (w.start h view t).1 = .waiting job ∧ job.Awaits t (w.comesTo h view t) ∧
      (w.start h view t).2.engine = w.begun h view t := by
  obtain ⟨plan, engine⟩ := planned_eq passive view w t
  have going : (w.planned h view t).2.isCancelled = false := by
    unfold isCancelled
    rw [engine]
    exact goes_on
  rw [start_eq, if_neg (by rw [goes_on]; exact Bool.false_ne_true)]
  cases called : (w.planned h view t).1.call? with
  | none =>
      obtain ⟨took, ended⟩ := end_eq_some passive going t (w.planned h view t).2.now
        ((w.planned h view t).1.resume (.failed ""))
      have comes : w.comesTo h view t =
          .ofOutcome ((w.planned h view t).1.resume (.failed "")) := by
        rw [plan] at called ⊢
        unfold comesTo Node.execute
        dsimp only
        rw [called]
      refine Or.inl ⟨took, ?_, ?_⟩
      · rw [comes]
        exact congrArg Started.over ended
      · exact (engine_end passive _ _ _ _).trans (by rw [engine])
  | some call =>
      have asked : (w.asked h view t call).engine = w.begun h view t :=
        (passive.observe _ _).trans engine
      have awaits : (w.jobFor h view t call).Awaits t (w.comesTo h view t) := by
        refine ⟨rfl, ?_, passive.treat call⟩
        have context : (w.begin_ h t).context h view t = w.context h view t := by
          unfold World.context
          rw [engine_begin passive]
        unfold comesTo Node.execute jobFor Waiting.comesTo
        dsimp only
        rw [plan] at called ⊢
        rw [called, context]
      dsimp only
      by_cases at_once : (w.jobFor h view t call).waitMs = 0
      · rw [if_pos at_once]
        obtain ⟨⟨took, ended⟩, after⟩ := finish_eq passive (w := w.asked h view t call)
          (by unfold isCancelled; rw [asked]; exact goes_on) awaits
        exact Or.inl ⟨took, congrArg Started.over ended, after.trans (by rw [asked])⟩
      · rw [if_neg at_once]
        exact Or.inr ⟨_, rfl, awaits, asked⟩

theorem World.executeTask_eq (goes_on : w.isCancelled = false) (view : WaveView) (t : Task) :
    ComesTo (w.comesTo h view t) (w.executeTask h view t).1 ∧
      (w.executeTask h view t).2.engine = (w.begun h view t).unmark t.node.id := by
  unfold executeTask
  rcases start_cases passive goes_on view t with ⟨took, ended, engine⟩ | ⟨job, waits, awaits, engine⟩
  · generalize w.start h view t = started at *
    obtain ⟨first, next⟩ := started
    cases ended
    exact ⟨⟨took, rfl⟩, engine⟩
  · generalize w.start h view t = started at *
    obtain ⟨first, next⟩ := started
    cases waits
    dsimp only at engine ⊢
    have same : (h.elapse job.due next).engine = w.begun h view t :=
      (passive.elapse _ _).trans engine
    obtain ⟨ended, after⟩ := finish_eq passive (w := h.elapse job.due next)
      (by unfold isCancelled; rw [same]; exact goes_on) awaits
    exact ⟨ended, after.trans (by rw [same])⟩

end

/-! ### What it reads and writes -/

section

variable {h : Host ω} {view : WaveView} {w w' : World ω} {t : Task} {id : String}

theorem World.context_eq (same : w.engine.rest = w'.engine.rest) (h : Host ω) (view : WaveView)
    (t : Task) :
    w.context h view t = w'.context h view t := by
  unfold context
  rw [Engine.defaultTimeoutMs_eq same]

/-- What a node leaves for itself when it has begun. -/
theorem World.part_begun_self (w : World ω) (t : Task) :
    (w.begun h view t).part t.node.id =
      { kept := (t.node.plan (w.context h view t) w.engine.store).2.get? t.node.id
        lastInput := some t.inputValue, executes := true } := by
  have marked : t.node.id ∈ ExecutionState.insertAscending t.node.id w.engine.state.executing :=
    ExecutionState.mem_insertAscending.2 (Or.inl rfl)
  unfold Engine.part begun ExecutionState.mark ExecutionState.recordInput
  dsimp only
  rw [Entries.get?_put_self, List.contains_iff_mem.2 marked]

/-- What it leaves for the others. -/
theorem World.part_begun_of_ne (w : World ω) (t : Task) (ne : id ≠ t.node.id) :
    (w.begun h view t).part id = w.engine.part id := by
  have marked : (ExecutionState.insertAscending t.node.id w.engine.state.executing).contains id =
      w.engine.state.executing.contains id := by
    rw [Bool.eq_iff_iff, List.contains_iff_mem, List.contains_iff_mem,
      ExecutionState.mem_insertAscending, or_iff_right ne]
  unfold Engine.part begun ExecutionState.mark ExecutionState.recordInput
  dsimp only
  rw [(t.node.local_plan (w.context h view t)).keeps w.engine.store ne,
    Entries.get?_put_of_ne ne, marked]

theorem World.rest_begun (w : World ω) (t : Task) :
    (w.begun h view t).rest = w.engine.rest := rfl

/-- What a node leaves for itself that is executed in a world. -/
def World.leaves (h : Host ω) (view : WaveView) (w : World ω) (t : Task) : Engine.Part :=
  ((w.begun h view t).part t.node.id).over

/-- The engine changes only in the part of one node. -/
structure World.Spares (w : World ω) (id : String) (w' : World ω) : Prop where
  parts : ∀ other, other ≠ id → w'.engine.part other = w.engine.part other
  rest : w'.engine.rest = w.engine.rest

theorem World.Spares.goes_on (spares : w.Spares id w') (goes_on : w.isCancelled = false) :
    w'.isCancelled = false := (Engine.cancelRequested_eq spares.rest).trans goes_on

/-- What the other nodes come to and what they leave for themselves stays the same. -/
theorem World.Spares.reads (spares : w.Spares id w') (h : Host ω) (view : WaveView)
    (other : t.node.id ≠ id) :
    w'.comesTo h view t = w.comesTo h view t ∧
      (w'.begun h view t).part t.node.id = (w.begun h view t).part t.node.id := by
  have context := context_eq spares.rest h view t
  obtain ⟨planned, kept⟩ := (t.node.local_plan (w.context h view t)).reads
    (congrArg Engine.Part.kept (spares.parts _ other))
  constructor
  · unfold comesTo Node.execute
    dsimp only
    rw [context, planned]
  · rw [part_begun_self, part_begun_self, context]
    exact congrArg (fun kept => Engine.Part.mk kept _ _) kept

theorem World.spares_begun (w' : World ω) (w : World ω) (t : Task)
    (engine : w'.engine = w.begun h view t) : w.Spares t.node.id w' where
  parts other ne := by rw [engine, part_begun_of_ne w t ne]
  rest := by rw [engine, rest_begun]

theorem World.spares_over (w' : World ω) (w : World ω) (t : Task)
    (engine : w'.engine = (w.begun h view t).unmark t.node.id) : w.Spares t.node.id w' where
  parts other ne := by rw [engine, Engine.part_unmark_of_ne _ ne, part_begun_of_ne w t ne]
  rest := by rw [engine, Engine.rest_unmark, rest_begun]

end

/-! ## The nodes of a wave -/

section

variable {α β : Type} {R : α → β → Prop} {as : List α} {bs : List β}

theorem exists_of_mem_left (all : List.Forall₂ R as bs) {a : α} (mem : a ∈ as) :
    ∃ b ∈ bs, R a b := by
  induction all with
  | nil => cases mem
  | cons first _ ih =>
      rcases List.mem_cons.1 mem with rfl | later
      · exact ⟨_, List.mem_cons_self, first⟩
      · obtain ⟨b, b_mem, holds⟩ := ih later
        exact ⟨b, List.mem_cons_of_mem _ b_mem, holds⟩

theorem exists_of_mem_right (all : List.Forall₂ R as bs) {b : β} (mem : b ∈ bs) :
    ∃ a ∈ as, R a b := exists_of_mem_left all.flip mem

/-- Each of some numbered elements finds what stands opposite to it by its number. -/
theorem lookup_of_forall₂ {P : α → β → Prop} {jobs : List (Nat × α)} {found : List (Nat × β)}
    (all : List.Forall₂ (fun j r => r.1 = j.1 ∧ P j.2 r.2) jobs found)
    (distinct : (jobs.map (·.1)).Nodup) {number : Nat} {a : α} (mem : (number, a) ∈ jobs) :
    ∃ b, found.lookup number = some b ∧ P a b := by
  induction all with
  | nil => cases mem
  | @cons j r _ _ first _ ih =>
      obtain ⟨new, distinct⟩ := List.nodup_cons.1 distinct
      rcases List.mem_cons.1 mem with same | later
      · cases same
        exact ⟨r.2, by rw [List.lookup_cons, first.1, beq_self_eq_true], first.2⟩
      · have differs : (number == r.1) = false := by
          refine beq_false_of_ne fun same => new ?_
          exact List.mem_map.2 ⟨_, later, same.trans first.1⟩
        rw [List.lookup_cons, differs]
        exact ih distinct later

end

section

variable (h : Host ω) (view : WaveView)

/-- Each task has come to what it comes to in a world in which all goes on, and has left for itself
what it leaves there. -/
structure EachComes (w : World ω) (tasks : List Task) (results : List (Option Ended))
    (w' : World ω) : Prop where
  results : List.Forall₂ (fun t r => ComesTo (w.comesTo h view t) r) tasks results
  own : ∀ t ∈ tasks, w'.engine.part t.node.id = w.leaves h view t
  others : ∀ id ∉ tasks.map (·.node.id), w'.engine.part id = w.engine.part id
  rest : w'.engine.rest = w.engine.rest

/-- The task has started in the one world and, with the others, led to the other: it is over, with
what it comes to alone, or waits for that. -/
def StartedAlone (w w' : World ω) (t : Task) (started : Started) : Prop :=
  started.Is
    (fun r => ComesTo (w.comesTo h view t) r ∧ w'.engine.part t.node.id = w.leaves h view t)
    (fun job => job.Awaits t (w.comesTo h view t) ∧
      w'.engine.part t.node.id = (w.begun h view t).part t.node.id)

end

section

variable {h : Host ω} (passive : h.Passive) {view : WaveView} {w : World ω} {tasks : List Task}
include passive

/-- Nodes that are executed one after the other do not notice each other. -/
theorem eachComes_executeInTurn (goes_on : w.isCancelled = false)
    (distinct : (tasks.map (·.node.id)).Nodup) :
    EachComes h view w tasks (w.executeInTurn h view tasks).1
      (w.executeInTurn h view tasks).2 := by
  induction tasks generalizing w with
  | nil => exact ⟨.nil, (fun _ mem => nomatch mem), fun _ _ => rfl, rfl⟩
  | cons t others ih =>
      obtain ⟨new, distinct⟩ := List.nodup_cons.1 distinct
      obtain ⟨ended, engine⟩ := World.executeTask_eq passive goes_on view t
      unfold World.executeInTurn
      dsimp only
      generalize w.executeTask h view t = first at *
      obtain ⟨result, next⟩ := first
      dsimp only at ended engine ⊢
      have spares := World.spares_over next w t engine
      obtain ⟨results, own, others_kept, rest⟩ := ih (spares.goes_on goes_on) distinct
      -- what the others come to and leave after the first node is what they do without it
      have reads (u : Task) (mem : u ∈ others) :=
        spares.reads (t := u) h view fun same => new (List.mem_map.2 ⟨u, mem, same⟩)
      refine ⟨.cons ended ?_, ?_, ?_, rest.trans spares.rest⟩
      · have all := (List.forall₂_and_left others _).2 ⟨reads, results⟩
        exact all.imp fun u r ⟨same, came⟩ => same.1 ▸ came
      · intro u mem
        rcases List.mem_cons.1 mem with rfl | mem
        · rw [others_kept _ new, engine, Engine.part_unmark_self]
          rfl
        · rw [own u mem, World.leaves, World.leaves, (reads u mem).2]
      · intro id missing
        obtain ⟨ne, missing⟩ := not_or.1 (List.mem_cons.not.1 missing)
        rw [others_kept id missing, spares.parts id ne]

/-- The waits of nodes come to their outcomes, and change nothing else. -/
theorem finishAll_eq (goes_on : w.isCancelled = false) (jobs : List (Nat × Waiting))
    (answers : ∀ j ∈ jobs, j.2.treatment.cancels = false) :
    List.Forall₂ (fun j r => r.1 = j.1 ∧ ComesTo j.2.comesTo r.2) jobs (w.finishAll h jobs).1 ∧
    (∀ id, (w.finishAll h jobs).2.engine.part id =
      if id ∈ jobs.map (·.2.task.node.id) then (w.engine.part id).over
      else w.engine.part id) ∧
    (w.finishAll h jobs).2.engine.rest = w.engine.rest := by
  induction jobs generalizing w with
  | nil => exact ⟨.nil, fun _ => rfl, rfl⟩
  | cons job others ih =>
      obtain ⟨number, job⟩ := job
      have waited : (h.elapse job.due w).engine = w.engine := passive.elapse _ _
      obtain ⟨ended, engine⟩ := World.finish_eq passive (w := h.elapse job.due w)
        (by unfold World.isCancelled; rw [waited]; exact goes_on)
        ⟨rfl, rfl, answers _ List.mem_cons_self⟩
      rw [waited] at engine
      unfold World.finishAll
      dsimp only
      generalize (h.elapse job.due w).finish h job = first at *
      obtain ⟨result, next⟩ := first
      dsimp only at ended engine ⊢
      have same : next.engine.rest = w.engine.rest := by rw [engine, Engine.rest_unmark]
      obtain ⟨results, parts, rest⟩ := ih ((Engine.cancelRequested_eq same).trans goes_on)
        fun j mem => answers j (List.mem_cons_of_mem _ mem)
      refine ⟨.cons ⟨rfl, ended⟩ results, fun id => ?_, rest.trans same⟩
      rw [parts, engine]
      by_cases own : id = job.task.node.id
      · rw [own, Engine.part_unmark_self, Engine.Part.over_over, ite_self, List.map_cons,
          if_pos List.mem_cons_self]
      · simp only [Engine.part_unmark_of_ne _ own, List.map_cons, List.mem_cons, own, false_or]

/-- Nodes that start do not notice each other: each is over or waits for what it comes to alone. -/
theorem startAll_cases (goes_on : w.isCancelled = false) (view : WaveView)
    (distinct : (tasks.map (·.node.id)).Nodup) :
    List.Forall₂ (StartedAlone h view w (w.startAll h view tasks).2) tasks
      (w.startAll h view tasks).1 ∧
    (∀ id ∉ tasks.map (·.node.id),
      (w.startAll h view tasks).2.engine.part id = w.engine.part id) ∧
    (w.startAll h view tasks).2.engine.rest = w.engine.rest := by
  induction tasks generalizing w with
  | nil => exact ⟨.nil, fun _ _ => rfl, rfl⟩
  | cons t others ih =>
      obtain ⟨new, distinct⟩ := List.nodup_cons.1 distinct
      have cases_t := World.start_cases passive goes_on view t
      unfold World.startAll
      dsimp only
      generalize w.start h view t = first at *
      obtain ⟨started, next⟩ := first
      dsimp only at cases_t ⊢
      have spares : w.Spares t.node.id next := by
        rcases cases_t with ⟨-, -, engine⟩ | ⟨-, -, -, engine⟩
        · exact World.spares_over next w t engine
        · exact World.spares_begun next w t engine
      obtain ⟨starts, others_kept, rest⟩ := ih (spares.goes_on goes_on) distinct
      have reads (u : Task) (mem : u ∈ others) :=
        spares.reads (t := u) h view fun same => new (List.mem_map.2 ⟨u, mem, same⟩)
      refine ⟨.cons ?_ ?_, ?_, rest.trans spares.rest⟩
      · rcases cases_t with ⟨took, rfl, engine⟩ | ⟨job, rfl, awaits, engine⟩
        · refine ⟨⟨took, rfl⟩, ?_⟩
          rw [others_kept _ new, engine, Engine.part_unmark_self]
          rfl
        · exact ⟨awaits, by rw [others_kept _ new, engine]⟩
      · have all := (List.forall₂_and_left others _).2 ⟨reads, starts⟩
        refine all.imp fun u started both => ?_
        obtain ⟨⟨comes, leaves⟩, holds⟩ := both
        unfold StartedAlone World.leaves at holds ⊢
        rw [← comes, ← leaves]
        exact holds
      · intro id missing
        obtain ⟨ne, missing⟩ := not_or.1 (List.mem_cons.not.1 missing)
        rw [others_kept id missing, spares.parts id ne]

/-- Nodes that wait for their services side by side do not notice each other either. -/
theorem eachComes_runWave (goes_on : w.isCancelled = false)
    (distinct : (tasks.map (·.node.id)).Nodup) :
    EachComes h view w tasks (runWave h view w tasks).1 (runWave h view w tasks).2 := by
  obtain ⟨starts, others, rest⟩ := startAll_cases passive goes_on view distinct
  unfold runWave
  dsimp only
  generalize w.startAll h view tasks = first at *
  obtain ⟨started, next⟩ := first
  dsimp only at starts others rest ⊢
  have mem_jobs (j : Nat × Waiting) : j ∈ byDue (waitingJobs started) ↔
      (Started.waiting j.2, j.1) ∈ started.zipIdx :=
    (byDue_perm _).mem_iff.trans mem_waitingJobs
  have distinct_jobs : ((byDue (waitingJobs started)).map (·.1)).Nodup :=
    ((byDue_perm _).map (·.1)).nodup_iff.2 (nodup_waitingJobs _)
  have awaits (j : Nat × Waiting) (mem : j ∈ byDue (waitingJobs started)) :
      ∃ t ∈ tasks, j.2.Awaits t (w.comesTo h view t) := by
    have waits := mem_of_mem_waitingJobs ((byDue_perm _).mem_iff.1 mem)
    obtain ⟨t, t_mem, awaits, -⟩ := exists_of_mem_right starts waits
    exact ⟨t, t_mem, awaits⟩
  obtain ⟨results, parts, finished⟩ := finishAll_eq passive (w := next)
    ((Engine.cancelRequested_eq rest).trans goes_on) (byDue (waitingJobs started))
    fun j mem => (awaits j mem).choose_spec.2.answers
  have over_or_waiting : List.Forall₂ (fun t started => started.Is (ComesTo (w.comesTo h view t))
      (Waiting.Awaits · t (w.comesTo h view t))) tasks started :=
    starts.imp fun t started holds => holds.imp (fun _ => And.left) fun _ => And.left
  refine ⟨World.forall₂_endedInOrder over_or_waiting fun number job t mem awaits => ?_,
    fun t mem => ?_, fun id missing => ?_, finished.trans rest⟩
  · rw [← awaits.comes]
    exact lookup_of_forall₂ (P := fun j r => ComesTo j.comesTo r) results distinct_jobs
      ((mem_jobs (number, job)).2 mem)
  · rw [parts]
    obtain ⟨first, first_mem, holds⟩ := exists_of_mem_left starts mem
    cases first with
    | «over» r => rw [holds.2, World.leaves, Engine.Part.over_over, ite_self]
    | waiting job =>
        obtain ⟨awaits, begun⟩ := holds
        rw [← List.zipIdx_map_fst 0 started] at first_mem
        obtain ⟨⟨-, number⟩, number_mem, rfl⟩ := List.mem_map.1 first_mem
        have job_mem : t.node.id ∈ (byDue (waitingJobs started)).map (·.2.task.node.id) := by
          refine List.mem_map.2 ⟨(number, job), (mem_jobs _).2 number_mem, ?_⟩
          rw [awaits.task]
        rw [if_pos job_mem, begun, World.leaves]
  · rw [parts, others id missing, if_neg fun job_mem => missing ?_]
    obtain ⟨j, j_mem, rfl⟩ := List.mem_map.1 job_mem
    obtain ⟨t, t_mem, job⟩ := awaits j j_mem
    rw [job.task]
    exact List.mem_map.2 ⟨t, t_mem, rfl⟩

end

/-! ### Alone -/

section

variable (h : Host ω) (view : WaveView)

/-- Each task has come to what it comes to alone, if anything, and has left for itself what it
leaves alone. -/
structure EachAlone (w : World ω) (tasks : List Task) (results : List (Option Ended))
    (w' : World ω) : Prop where
  results : List.Forall₂ (fun t r => r.map Ended.execution =
    (w.executeTask h view t).1.map Ended.execution) tasks results
  own : ∀ t ∈ tasks, w'.engine.part t.node.id = (w.executeTask h view t).2.engine.part t.node.id
  others : ∀ id ∉ tasks.map (·.node.id), w'.engine.part id = w.engine.part id
  rest : w'.engine.rest = w.engine.rest

variable {h view} {w w' : World ω} {tasks : List Task} {results : List (Option Ended)}

theorem EachComes.eachAlone (comes : EachComes h view w tasks results w') (passive : h.Passive)
    (goes_on : w.isCancelled = false) : EachAlone h view w tasks results w' where
  results := comes.results.imp fun t r ⟨took, came⟩ => by
    obtain ⟨⟨took', alone⟩, -⟩ := World.executeTask_eq passive goes_on view t
    rw [came, alone]
    rfl
  own t mem := by
    rw [comes.own t mem, (World.executeTask_eq passive goes_on view t).2, Engine.part_unmark_self]
    rfl
  others := comes.others
  rest := comes.rest

variable (h view) (cancelled : w.isCancelled = true)
include cancelled

theorem World.start_of_cancelled (t : Task) : w.start h view t = (.over none, w) := by
  rw [start_eq, if_pos cancelled]

theorem World.executeTask_of_cancelled (t : Task) : w.executeTask h view t = (none, w) := by
  unfold executeTask
  rw [start_of_cancelled h view cancelled t]

/-- In a run that was cancelled nothing comes to anything. -/
theorem eachAlone_of_cancelled (dropped : List.Forall₂ (fun _ r => r = none) tasks results) :
    EachAlone h view w tasks results w where
  results := dropped.imp fun t r none_came => by
    rw [none_came, World.executeTask_of_cancelled h view cancelled t]
  own t _ := by rw [World.executeTask_of_cancelled h view cancelled t]
  others _ _ := rfl
  rest := rfl

theorem executeInTurn_of_cancelled (tasks : List Task) :
    w.executeInTurn h view tasks = (tasks.map fun _ => none, w) := by
  induction tasks with
  | nil => rfl
  | cons t rest ih =>
      unfold World.executeInTurn
      rw [World.executeTask_of_cancelled h view cancelled t]
      dsimp only
      rw [ih]
      rfl

theorem startAll_of_cancelled (tasks : List Task) :
    w.startAll h view tasks = (tasks.map fun _ => .over none, w) := by
  induction tasks with
  | nil => rfl
  | cons t rest ih =>
      unfold World.startAll
      rw [World.start_of_cancelled h view cancelled t]
      dsimp only
      rw [ih]
      rfl

end

section

variable {h : Host ω} (passive : h.Passive) (view : WaveView) (w : World ω) {tasks : List Task}
  (distinct : (tasks.map (·.node.id)).Nodup)
include passive distinct

/-- Nodes that are executed one after the other come to what each of them comes to alone. -/
theorem eachAlone_executeInTurn :
    EachAlone h view w tasks (w.executeInTurn h view tasks).1
      (w.executeInTurn h view tasks).2 := by
  cases goes_on : w.isCancelled with
  | false => exact (eachComes_executeInTurn passive goes_on distinct).eachAlone passive goes_on
  | true =>
      rw [executeInTurn_of_cancelled h view goes_on tasks]
      exact eachAlone_of_cancelled h view goes_on
        (List.forall₂_map_right_iff.2 (List.forall₂_same.2 fun _ _ => rfl))

/-- So do nodes that wait for their services side by side. -/
theorem eachAlone_runWave :
    EachAlone h view w tasks (runWave h view w tasks).1 (runWave h view w tasks).2 := by
  cases goes_on : w.isCancelled with
  | false => exact (eachComes_runWave passive goes_on distinct).eachAlone passive goes_on
  | true =>
      have none_waits : waitingJobs (tasks.map fun _ => Started.over none) = [] := by
        refine List.eq_nil_iff_forall_not_mem.2 fun j mem => ?_
        obtain ⟨t, -, same⟩ := List.mem_map.1 (mem_of_mem_waitingJobs mem)
        cases same
      have over_all : List.Forall₂ (fun (_ : Task) started => started.Is (· = none) fun _ => False)
          tasks (tasks.map fun _ => Started.over none) :=
        List.forall₂_map_right_iff.2 (List.forall₂_same.2 fun _ _ => rfl)
      unfold runWave
      rw [startAll_of_cancelled h view goes_on tasks]
      dsimp only
      rw [none_waits, byDue, List.mergeSort_nil]
      exact eachAlone_of_cancelled h view goes_on
        (World.forall₂_endedInOrder over_all fun _ _ _ _ => False.elim)

end

end Flowline
