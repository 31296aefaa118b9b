import Flowline.Proofs.Run.Equations

/-!
# Where a condition leads

A conditional node goes through its conditions in order up to the first one that holds, and the
edges behind it that stand for the outcome fire.  An edge stands for an outcome by its tag if some
edge behind the node has one, and by its place otherwise.  If no edge stands for the outcome, a
condition that holds leads nowhere, and the case that none holds leads along the last edge.

* `firstHolding_eq_some_iff`, `firstHolding_eq_none_iff`, `firstHolding_eq_error_iff`: what going
  through the conditions comes to.
* `Graph.mem_selectBranch_iff`: which edges an outcome selects.
* `routes_ofWorkflow`: what a conditional node comes to and where it leads.
-/

namespace Flowline

/-! ## The first condition that holds -/

namespace ConditionalConfig

/-- Whether a condition holds, or why one of its sides cannot be rendered. -/
def verdict (ctx : NodeContext) (condition : Condition) : Except NodeError Bool := do
  let left ← ctx.render condition.field
  let right ← ctx.render condition.value
  return condition.operator.holds left right

variable {ctx : NodeContext} {conditions before after : List Condition} {condition : Condition}
  {index start : Nat} {e : NodeError}

/-- The condition is the first one that comes to something else than not to hold.  What stands
behind it does not matter. -/
structure Decides (ctx : NodeContext) (conditions : List Condition) (index : Nat)
    (condition : Condition) : Prop where
  at_index : conditions[index]? = some condition
  before : ∀ earlier ∈ conditions.take index, verdict ctx earlier = .ok false

theorem firstHolding_cons (start : Nat) (condition : Condition) (rest : List Condition) :
    firstHolding ctx start (condition :: rest) = (verdict ctx condition).bind fun holds =>
      if holds then .ok (some start) else firstHolding ctx (start + 1) rest := by
  rw [firstHolding, verdict]
  cases ctx.render condition.field with
  | error e => rfl
  | ok left =>
      cases ctx.render condition.value with
      | error e => rfl
      | ok right => rfl

/-- Conditions that do not hold are passed over. -/
theorem firstHolding_append (none_holds : ∀ c ∈ before, verdict ctx c = .ok false) (start : Nat)
    (rest : List Condition) :
    firstHolding ctx start (before ++ rest) = firstHolding ctx (start + before.length) rest := by
  induction before generalizing start with
  | nil => rfl
  | cons c before ih =>
      obtain ⟨fails, none_holds⟩ := List.forall_mem_cons.1 none_holds
      rw [List.cons_append, firstHolding_cons, fails, List.length_cons, Nat.add_comm before.length,
        ← Nat.add_assoc, ← ih none_holds]
      rfl

theorem firstHolding_of_none_holds (none_holds : ∀ c ∈ conditions, verdict ctx c = .ok false) :
    firstHolding ctx 0 conditions = .ok none := by
  have passed := firstHolding_append none_holds 0 []
  rwa [List.append_nil] at passed

/-- The condition that decides is what going through the conditions comes to. -/
theorem Decides.firstHolding_eq (decides : Decides ctx conditions index condition) :
    firstHolding ctx 0 conditions = (verdict ctx condition).bind fun holds =>
      if holds then .ok (some index)
      else firstHolding ctx (index + 1) (conditions.drop (index + 1)) := by
  obtain ⟨within, same⟩ := List.getElem?_eq_some_iff.1 decides.at_index
  have passed := firstHolding_append decides.before 0 (conditions.drop index)
  rw [List.take_append_drop, List.length_take, Nat.min_eq_left (Nat.le_of_lt within),
    Nat.zero_add, List.drop_eq_getElem_cons within, firstHolding_cons, same] at passed
  exact passed

/-- Either no condition holds, or one decides. -/
theorem none_holds_or_decides (ctx : NodeContext) (conditions : List Condition) :
    (∀ c ∈ conditions, verdict ctx c = .ok false) ∨
      ∃ index condition, Decides ctx conditions index condition ∧
        verdict ctx condition ≠ .ok false := by
  induction conditions with
  | nil => exact .inl nofun
  | cons first rest ih =>
      by_cases fails : verdict ctx first = .ok false
      · refine ih.imp (fun none_holds => List.forall_mem_cons.2 ⟨fails, none_holds⟩) ?_
        rintro ⟨index, condition, decides, differs⟩
        exact ⟨index + 1, condition,
          ⟨decides.at_index, List.forall_mem_cons.2 ⟨fails, decides.before⟩⟩, differs⟩
      · exact .inr ⟨0, first, ⟨rfl, nofun⟩, fails⟩

/-- What going through the conditions comes to. -/
theorem firstHolding_cases (ctx : NodeContext) (conditions : List Condition) :
    ((∀ c ∈ conditions, verdict ctx c = .ok false) ∧ firstHolding ctx 0 conditions = .ok none) ∨
    (∃ index condition, Decides ctx conditions index condition ∧ verdict ctx condition = .ok true ∧
      firstHolding ctx 0 conditions = .ok (some index)) ∨
    ∃ index condition e, Decides ctx conditions index condition ∧
      verdict ctx condition = .error e ∧ firstHolding ctx 0 conditions = .error e := by
  rcases none_holds_or_decides ctx conditions with none_holds | ⟨index, condition, decides, differs⟩
  · exact .inl ⟨none_holds, firstHolding_of_none_holds none_holds⟩
  · have found := decides.firstHolding_eq
    cases holds : verdict ctx condition with
    | error e =>
        rw [holds] at found
        exact .inr (.inr ⟨index, condition, e, decides, holds, found⟩)
    | ok holding =>
        cases holding with
        | false => exact absurd holds differs
        | true =>
            rw [holds] at found
            exact .inr (.inl ⟨index, condition, decides, holds, found⟩)

theorem firstHolding_eq_some_iff :
    firstHolding ctx 0 conditions = .ok (some index) ↔
      ∃ condition, Decides ctx conditions index condition ∧ verdict ctx condition = .ok true := by
  constructor
  · intro found
    rcases firstHolding_cases ctx conditions with ⟨_, same⟩ | ⟨i, c, decides, holds, same⟩ |
        ⟨_, _, _, _, _, same⟩
    · cases found.symm.trans same
    · cases found.symm.trans same
      exact ⟨c, decides, holds⟩
    · cases found.symm.trans same
  · rintro ⟨condition, decides, holds⟩
    rw [decides.firstHolding_eq, holds]
    rfl

theorem firstHolding_eq_none_iff :
    firstHolding ctx 0 conditions = .ok none ↔ ∀ c ∈ conditions, verdict ctx c = .ok false := by
  refine ⟨fun found => ?_, firstHolding_of_none_holds⟩
  rcases firstHolding_cases ctx conditions with ⟨none_holds, _⟩ | ⟨_, _, _, _, same⟩ |
      ⟨_, _, _, _, _, same⟩
  · exact none_holds
  · cases found.symm.trans same
  · cases found.symm.trans same

theorem firstHolding_eq_error_iff :
    firstHolding ctx 0 conditions = .error e ↔
      ∃ index condition, Decides ctx conditions index condition ∧
        verdict ctx condition = .error e := by
  constructor
  · intro found
    rcases firstHolding_cases ctx conditions with ⟨_, same⟩ | ⟨_, _, _, _, same⟩ |
        ⟨i, c, e', decides, fails, same⟩
    · cases found.symm.trans same
    · cases found.symm.trans same
    · cases found.symm.trans same
      exact ⟨i, c, decides, fails⟩
  · rintro ⟨index, condition, decides, fails⟩
    rw [decides.firstHolding_eq, fails]
    rfl

/-! ### The outcome -/

variable {c : ConditionalConfig} {chosen : Option Nat}

/-- The node comes to the branch of a condition, or to the one for the case that none holds, and
says so in its data. -/
def Chooses (c : ConditionalConfig) (ctx : NodeContext) (chosen : Option Nat) : Prop :=
  ∃ data, c.outcome ctx = .ok { data, propagation := .branch chosen c.conditions.length } ∧
    data.member? "branch" = some ((chosen.map Json.ofNat).getD (.str "else"))

theorem chooses_iff : c.Chooses ctx chosen ↔ firstHolding ctx 0 c.conditions = .ok chosen := by
  unfold Chooses outcome
  cases firstHolding ctx 0 c.conditions with
  | error e => exact iff_of_false (fun ⟨_, same, _⟩ => nomatch same) nofun
  | ok index =>
      constructor
      · rintro ⟨data, same, -⟩
        cases same
        rfl
      · rintro ⟨⟩
        exact ⟨_, rfl, rfl⟩

theorem outcome_eq_error_iff :
    c.outcome ctx = .error e ↔ firstHolding ctx 0 c.conditions = .error e := by
  unfold outcome
  cases firstHolding ctx 0 c.conditions with
  | error e' =>
      constructor
      · rintro ⟨⟩
        rfl
      · rintro ⟨⟩
        rfl
  | ok index => exact iff_of_false nofun nofun

end ConditionalConfig

/-! ## The edges that an outcome selects -/

namespace Graph

variable {outgoing : List (Nat × Edge)} {conditions i j : Nat} {index : Option Nat}
  {e : Nat × Edge}

/-- An edge stands for an outcome by its tag, if some edge has one, and else by its place: the
edges stand in the order of the conditions, and the one after them stands for the case that none
holds. -/
def StandsFor (outgoing : List (Nat × Edge)) (conditions : Nat) (index : Option Nat)
    (e : Nat × Edge) : Prop :=
  ((∃ d ∈ outgoing, d.2.branch? ≠ none) ∧ e ∈ outgoing ∧ e.2.branch? = index) ∨
    ((∀ d ∈ outgoing, d.2.branch? = none) ∧ outgoing[index.getD conditions]? = some e)

theorem mem_edgesFor_iff :
    e ∈ edgesFor outgoing index conditions ↔ StandsFor outgoing conditions index e := by
  have tagged_iff : outgoing.any (·.2.branch?.isSome) = true ↔
      ∃ d ∈ outgoing, d.2.branch? ≠ none := by
    simp only [List.any_eq_true, Option.isSome_iff_ne_none]
  unfold edgesFor StandsFor
  rw [← tagged_iff]
  split
  · next tagged =>
      obtain ⟨d, mem, tag⟩ := tagged_iff.1 tagged
      have no_place : ¬ ((∀ d ∈ outgoing, d.2.branch? = none) ∧
          outgoing[index.getD conditions]? = some e) := fun both => tag (both.1 d mem)
      rw [or_iff_left no_place, and_iff_right tagged, List.mem_filter, beq_iff_eq]
  · next untagged =>
      have bare : ∀ d ∈ outgoing, d.2.branch? = none := fun d mem =>
        Classical.not_not.1 fun tag => untagged (tagged_iff.2 ⟨d, mem, tag⟩)
      rw [or_iff_right fun both => untagged both.1, and_iff_right bare, Option.mem_toList]

/-- An outcome selects the edges that stand for it, and the case that no condition holds the last
one if none does. -/
theorem mem_selectBranch_iff :
    e ∈ selectBranch outgoing index conditions ↔
      StandsFor outgoing conditions index e ∨
        index = none ∧ (∀ d, ¬ StandsFor outgoing conditions index d) ∧
          outgoing.getLast? = some e := by
  have none_stand : edgesFor outgoing index conditions = [] ↔
      ∀ d, ¬ StandsFor outgoing conditions index d := by
    simp only [List.eq_nil_iff_forall_not_mem, mem_edgesFor_iff]
  unfold selectBranch
  dsimp only
  split
  · next both =>
      obtain ⟨empty, other⟩ := Bool.and_eq_true_iff.1 both
      have nothing := none_stand.1 (List.isEmpty_iff.1 empty)
      rw [or_iff_right (nothing e), and_iff_right (Option.isNone_iff_eq_none.1 other),
        and_iff_right nothing, Option.mem_toList]
  · next some_stand =>
      rw [or_iff_left, mem_edgesFor_iff]
      rintro ⟨rfl, nothing, -⟩
      exact some_stand (by simp [none_stand.2 nothing])

/-- No edge is selected for two conditions. -/
theorem eq_of_mem_selectBranch (distinct : outgoing.Nodup)
    (first : e ∈ selectBranch outgoing (some i) conditions)
    (second : e ∈ selectBranch outgoing (some j) conditions) : i = j := by
  have stands {k : Nat} (mem : e ∈ selectBranch outgoing (some k) conditions) :
      StandsFor outgoing conditions (some k) e :=
    (mem_selectBranch_iff.1 mem).resolve_right fun other => nomatch other.1
  rcases stands first with ⟨⟨d, mem, tag⟩, -, tag_i⟩ | ⟨bare, at_i⟩
  · rcases stands second with ⟨-, -, tag_j⟩ | ⟨bare, -⟩
    · exact Option.some.inj (tag_i.symm.trans tag_j)
    · exact absurd (bare d mem) tag
  · rcases stands second with ⟨⟨d, mem, tag⟩, -, -⟩ | ⟨-, at_j⟩
    · exact absurd (bare d mem) tag
    · have within := (List.getElem?_eq_some_iff.1 at_i).1
      exact (List.getElem?_inj within distinct).1 (at_i.trans at_j.symm)

/-- The case that no condition holds selects an edge if there is one. -/
theorem exists_mem_selectBranch (some_edge : outgoing ≠ []) :
    ∃ e ∈ outgoing, e ∈ selectBranch outgoing none conditions := by
  by_cases stands : ∃ e, StandsFor outgoing conditions none e
  · obtain ⟨e, stands⟩ := stands
    have selected := mem_selectBranch_iff.2 (.inl stands)
    exact ⟨e, selectBranch_subset outgoing none conditions selected, selected⟩
  · have last := List.getLast?_eq_some_getLast some_edge
    exact ⟨_, List.mem_of_getLast? last,
      mem_selectBranch_iff.2 (.inr ⟨rfl, not_exists.1 stands, last⟩)⟩

end Graph

/-! ## Where the node leads -/

open ConditionalConfig Flowline.Graph

/-- The edge fires when the node is executed in this context. -/
def Graph.Fires (g : Graph) (n : Node) (c : ConditionalConfig) (ctx : NodeContext)
    (e : Nat × Edge) : Prop :=
  e.1 ∈ g.takenEdges n (.ofOutcome (c.outcome ctx))

/-- What a conditional node comes to, and where it leads. -/
structure Routes (g : Graph) (n : Node) (c : ConditionalConfig) : Prop where
  /-- A valid node does nothing but choose. -/
  runs : n.validate = .ok () → ∀ ctx store, n.plan ctx store = (.done (c.outcome ctx), store)
  /-- It chooses the first condition that holds, whatever stands behind it. -/
  matched : ∀ ctx index, c.Chooses ctx (some index) ↔
    ∃ condition, Decides ctx c.conditions index condition ∧ verdict ctx condition = .ok true
  /-- It chooses none if none holds. -/
  otherwise : ∀ ctx, c.Chooses ctx none ↔
    ∀ condition ∈ c.conditions, verdict ctx condition = .ok false
  /-- It fails if a condition fails before one holds. -/
  fails : ∀ ctx e, c.outcome ctx = .error e ↔
    ∃ index condition, Decides ctx c.conditions index condition ∧ verdict ctx condition = .error e
  /-- The edges that stand for the choice fire, and no others. -/
  leads : ∀ ctx chosen, c.Chooses ctx chosen →
    (∃ e, StandsFor (g.outgoing n.id) c.conditions.length chosen e) →
      ∀ e ∈ g.outgoing n.id, g.Fires n c ctx e ↔
        StandsFor (g.outgoing n.id) c.conditions.length chosen e
  /-- A condition that no edge stands for leads nowhere. -/
  nowhere : ∀ ctx index, c.Chooses ctx (some index) →
    (∀ e, ¬ StandsFor (g.outgoing n.id) c.conditions.length (some index) e) →
      ∀ e ∈ g.outgoing n.id, ¬ g.Fires n c ctx e
  /-- The case that none holds leads along the last edge if no edge stands for it. -/
  last : ∀ ctx, c.Chooses ctx none →
    (∀ e, ¬ StandsFor (g.outgoing n.id) c.conditions.length none e) →
      ∀ e ∈ g.outgoing n.id, g.Fires n c ctx e ↔ (g.outgoing n.id).getLast? = some e
  /-- No edge fires for two conditions. -/
  apart : ∀ ctx ctx' i j, c.Chooses ctx (some i) → c.Chooses ctx' (some j) → i ≠ j →
    ∀ e ∈ g.outgoing n.id, g.Fires n c ctx e → ¬ g.Fires n c ctx' e
  /-- If none holds some edge fires, unless there is none. -/
  somewhere : ∀ ctx, c.Chooses ctx none → g.outgoing n.id ≠ [] →
    ∃ e ∈ g.outgoing n.id, g.Fires n c ctx e
  /-- An edge to a member of a frame is settled there as taken if it fires, and else as skipped. -/
  settles : ∀ ctx (f : Frame), ∀ e ∈ g.outgoing n.id, e.2.target ∈ f.members →
    let after := f.settle (Plane.ofGraph g) n (.ofOutcome (c.outcome ctx))
    (after.edges.lookup e.1 = some .taken ↔ g.Fires n c ctx e) ∧
      (after.edges.lookup e.1 = some .skipped ↔ ¬ g.Fires n c ctx e)

variable {g : Graph} {n : Node} {c : ConditionalConfig} {ctx : NodeContext} {chosen : Option Nat}
  {e : Nat × Edge}

/-- The edges that the choice selects fire. -/
theorem fires_iff (wf : g.WellFormed) (chooses : c.Chooses ctx chosen)
    (out : e ∈ g.outgoing n.id) :
    g.Fires n c ctx e ↔ e ∈ selectBranch (g.outgoing n.id) chosen c.conditions.length := by
  obtain ⟨data, comes, -⟩ := chooses
  unfold Graph.Fires
  rw [← List.contains_iff_mem, contains_takenEdges wf out, comes]
  exact and_iff_right (.inl rfl)

/-- **A conditional node goes along the branch of its first condition that holds.**  In the graph of
any workflow, the edges that stand for the choice fire and no others; if there are none, a condition
leads nowhere, and the case that none holds leads along the last edge. -/
theorem routes_ofWorkflow (w : Workflow) (n : Node) (c : ConditionalConfig)
    (conditional : n.config = .conditional c) : Routes (Graph.ofWorkflow w) n c := by
  have wf := wellFormed_ofWorkflow w
  have known {e : Nat × Edge} (out : e ∈ (ofWorkflow w).outgoing n.id) := (mem_outgoing.1 out).1
  have distinct : ((ofWorkflow w).outgoing n.id).Nodup := (List.Nodup.of_map _ wf.numbers).filter _
  refine
    { runs := fun valid ctx store => ?runs
      matched := fun ctx index => chooses_iff.trans firstHolding_eq_some_iff
      otherwise := fun ctx => chooses_iff.trans firstHolding_eq_none_iff
      fails := fun ctx e => outcome_eq_error_iff.trans firstHolding_eq_error_iff
      leads := fun ctx chosen chooses stands e out => ?leads
      nowhere := fun ctx index chooses nothing e out => ?nowhere
      last := fun ctx chooses nothing e out => ?last
      apart := fun ctx ctx' i j first second differ e out fires fires' => differ ?apart
      somewhere := fun ctx chooses some_edge => ?somewhere
      settles := fun ctx f e out target => ?settles }
  case runs =>
    rw [Node.plan, valid, conditional]
    rfl
  case leads =>
    obtain ⟨d, stands⟩ := stands
    rw [fires_iff wf chooses out, mem_selectBranch_iff, or_iff_left fun other => other.2.1 d stands]
  case nowhere =>
    rw [fires_iff wf chooses out, mem_selectBranch_iff]
    rintro (stands | ⟨other, -⟩)
    · exact nothing e stands
    · cases other
  case last =>
    rw [fires_iff wf chooses out, mem_selectBranch_iff, or_iff_right (nothing e), and_iff_right rfl,
      and_iff_right nothing]
  case apart =>
    exact eq_of_mem_selectBranch distinct ((fires_iff wf first out).1 fires)
      ((fires_iff wf second out).1 fires')
  case somewhere =>
    obtain ⟨e, out, selected⟩ := exists_mem_selectBranch some_edge
    exact ⟨e, out, (fires_iff wf chooses out).2 selected⟩
  case settles =>
    dsimp only
    rw [Frame.lookup_settle wf (known out), if_pos ⟨(mem_outgoing.1 out).2, target⟩,
      List.contains_eq_mem]
    by_cases fires : (ofWorkflow w).Fires n c ctx e
    · have taken : e.1 ∈ (ofWorkflow w).takenEdges n (.ofOutcome (c.outcome ctx)) := fires
      simp [taken, fires]
    · have left : e.1 ∉ (ofWorkflow w).takenEdges n (.ofOutcome (c.outcome ctx)) := fires
      simp [left, fires]

/-! ### At a crossroads -/

/-- A text is searched twice; a third condition can never be rendered. -/
def crossing : ConditionalConfig where
  conditions := [⟨"{{n}}", .contains, "x"⟩, ⟨"{{n}}", .contains, "eve"⟩, ⟨"{{a..b}}", .eq, ""⟩]

/-- The node that searches. -/
def searching : Node where
  id := "choose"
  config := .conditional crossing

/-- One edge has no tag, the other one has that of the second condition. -/
def crossroads : Workflow where
  nodes := [searching, { id := "low", config := .counter {} },
    { id := "mid", config := .counter {} }]
  edges := [{ source := "choose", target := "low" },
    { source := "choose", target := "mid", data := some { branch := some 1 } }]

/-- The second condition holds and the third one is not looked at: the edge with its tag fires, and
the other one does not. -/
theorem routes_crossroads :
    let g := Graph.ofWorkflow crossroads
    let ctx : NodeContext := ⟨"choose", .null, [], ⟨.obj [("n", .str "seven")], []⟩, [], [], 1000,
      ⟨fun _ => false, .ok⟩⟩
    searching.config = .conditional crossing ∧ crossing.Chooses ctx (some 1) ∧
      ∃ plain tagged, g.outgoing "choose" = [plain, tagged] ∧
        plain.2.branch? = none ∧ tagged.2.branch? = some 1 ∧
        ¬ g.Fires searching crossing ctx plain ∧ g.Fires searching crossing ctx tagged := by
  intro g ctx
  have routes : Routes g searching crossing := routes_ofWorkflow crossroads searching crossing rfl
  have passed : verdict ctx ⟨"{{n}}", .contains, "x"⟩ = .ok false := by cbv
  have holds : verdict ctx ⟨"{{n}}", .contains, "eve"⟩ = .ok true := by cbv
  have chooses : crossing.Chooses ctx (some 1) :=
    (routes.matched ctx 1).2
      ⟨⟨"{{n}}", .contains, "eve"⟩, ⟨rfl, List.forall_mem_singleton.2 passed⟩, holds⟩
  let plain : Nat × Edge := (0, { source := "choose", target := "low" })
  let tagged : Nat × Edge :=
    (1, { source := "choose", target := "mid", data := some { branch := some 1 } })
  have out : g.outgoing "choose" = [plain, tagged] := rfl
  have plain_mem : plain ∈ g.outgoing searching.id := out ▸ List.mem_cons_self
  have tagged_mem : tagged ∈ g.outgoing searching.id :=
    out ▸ List.mem_cons_of_mem _ List.mem_cons_self
  have stands : StandsFor (g.outgoing searching.id) 3 (some 1) tagged :=
    .inl ⟨⟨tagged, tagged_mem, Option.some_ne_none 1⟩, tagged_mem, rfl⟩
  have leads := routes.leads ctx (some 1) chooses ⟨tagged, stands⟩
  refine ⟨rfl, chooses, plain, tagged, out, rfl, rfl, fun fires => ?_,
    (leads tagged tagged_mem).2 stands⟩
  rcases (leads plain plain_mem).1 fires with ⟨-, -, tag⟩ | ⟨bare, -⟩
  · cases tag
  · cases bare tagged tagged_mem

end Flowline
