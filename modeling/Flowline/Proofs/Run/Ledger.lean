import Flowline.Proofs.Json.Entries
import Flowline.Proofs.Run.Locality

/-!
# The ledger of a history

What the nodes of a run yield is read off its history: a node yields the data of each execution,
and an iterator also the aggregate of its region when that has run.  `ledger` keeps account of it,
event by event, and `Ledger.visible` says which of it is to be seen from a place: in an iteration,
of the nodes of its region what they have yielded in it, of its iterator the payload, and of any
other node what is to be seen around it.

* `Ledger.Grows`: how events inside a place add to a ledger.
* `Ledger.Grows.visible`: what is to be seen from the place then.
-/

namespace Flowline

/-- What a node yields, in the frame at a place. -/
structure Yield where
  place : Place
  id : String
  value : Json

/-- The output as an entry. -/
def Yield.entry (y : Yield) : String × Json := (y.id, y.value)

/-- What has been yielded so far, which regions have been opened, the last one first, and which
frames have been entered. -/
structure Ledger where
  yields : List Yield := []
  opened : List (Place × PendingRegion) := []
  entered : List Place := []

namespace Ledger

/-- The last output of each node that has yielded one in the frame at a place or inside it. -/
def outputs (l : Ledger) (place : Place) : Entries Json :=
  Entries.ofList ((l.yields.filter fun y => place.isSuffixOf y.place).map Yield.entry)

/-- The iterations that a region has run in the frame at a place. -/
def iterations (l : Ledger) (place : Place) (r : PendingRegion) : List Nat :=
  (List.range r.payloads.length).filter fun k => l.entered.contains ((r.iterator, k) :: place)

/-- The data of the iterator with what each iteration of its region has left. -/
def aggregated (l : Ledger) (place : Place) (r : PendingRegion) : Json :=
  aggregate r.data ((l.iterations place r).map fun k => l.outputs ((r.iterator, k) :: place))

/-- What is yielded in an event. -/
def yield? (l : Ledger) (e : Event) : Option Yield :=
  match e.what with
  | .settled t ended => some ⟨e.place, t.node.id, ended.execution.data⟩
  | .closed r => some ⟨e.place, r.iterator, l.aggregated e.place r⟩
  | _ => none

/-- Take an event in. -/
def note (l : Ledger) (e : Event) : Ledger where
  yields := l.yields ++ (l.yield? e).toList
  opened :=
    match e.what with
    | .opened r _ => (e.place, r) :: l.opened
    | _ => l.opened
  entered :=
    match e.what with
    | .entered _ => l.entered ++ [e.place]
    | _ => l.entered

/-- The payload of an iteration of the region of an iterator. -/
def payload? (l : Ledger) (place : Place) (iterator : String) (k : Nat) : Option Json :=
  (l.opened.find? fun o => o.1 = place ∧ o.2.iterator = iterator).bind (·.2.payloads[k]?)

/-- What is to be seen of a node in the frame at a place. -/
def visible (l : Ledger) (g : Graph) : Place → String → Option Json
  | [], id => (l.outputs []).get? id
  | (I, k) :: outer, id =>
    if id ∈ (Plane.ofGraph g).regionOf I then (l.outputs ((I, k) :: outer)).get? id
    else if id = I then l.payload? outer I k
    else l.visible g outer id

end Ledger

/-- The ledger of a history. -/
def ledger (past : List Event) : Ledger := past.foldl Ledger.note {}

section

variable {past more : List Event} {e : Event}

theorem ledger_append (past more : List Event) :
    ledger (past ++ more) = more.foldl Ledger.note (ledger past) := List.foldl_append

theorem ledger_concat (past : List Event) (e : Event) :
    ledger (past ++ [e]) = (ledger past).note e := ledger_append past [e]

/-- The frames that have been entered. -/
theorem mem_entered {place : Place} :
    place ∈ (ledger past).entered ↔ ∃ f, ⟨place, .entered f⟩ ∈ past := by
  induction past using List.reverseRecOn with
  | nil => simp [ledger]
  | append_singleton past e ih =>
      obtain ⟨q, what⟩ := e
      rw [ledger_concat]
      cases what with
      | entered f => simp [Ledger.note, ih, exists_or]
      | skipped | dispatched | settled | opened | closed | finished => simp [Ledger.note, ih]

end

namespace Ledger

variable {l l' l'' : Ledger} {g : Graph} {place q : Place} {new more : List Yield} {id : String}

theorem visible_cons_of_mem {I : String} {k : Nat} {outer : Place}
    (inside : id ∈ (Plane.ofGraph g).regionOf I) :
    l.visible g ((I, k) :: outer) id = (l.outputs ((I, k) :: outer)).get? id := if_pos inside

/-- Of its candidates a frame shows what they have yielded in it. -/
theorem visible_of_candidate (candidate : id ∈ g.candidatesAt place) :
    l.visible g place id = (l.outputs place).get? id := by
  cases place with
  | nil => rfl
  | cons iteration outer => exact visible_cons_of_mem candidate

/-- One ledger is another with what has been yielded since inside a place. -/
structure Grows (place : Place) (l : Ledger) (new : List Yield) (l' : Ledger) : Prop where
  yields : l'.yields = l.yields ++ new
  inside : ∀ y ∈ new, place <:+ y.place
  opened : ∃ more, l'.opened = more ++ l.opened ∧ ∀ o ∈ more, place <:+ o.1
  entered : ∃ more, l'.entered = l.entered ++ more ∧ ∀ p ∈ more, place <:+ p

namespace Grows

theorem refl (place : Place) (l : Ledger) : Grows place l [] l :=
  ⟨(List.append_nil _).symm, by simp, ⟨[], rfl, by simp⟩, ⟨[], (List.append_nil _).symm, by simp⟩⟩

theorem trans (first : Grows place l new l') (second : Grows place l' more l'') :
    Grows place l (new ++ more) l'' := by
  obtain ⟨opened, opened_eq, opened_in⟩ := first.opened
  obtain ⟨opened', opened_eq', opened_in'⟩ := second.opened
  obtain ⟨entered, entered_eq, entered_in⟩ := first.entered
  obtain ⟨entered', entered_eq', entered_in'⟩ := second.entered
  refine ⟨by rw [second.yields, first.yields, List.append_assoc], fun y mem => ?_,
    ⟨opened' ++ opened, by rw [opened_eq', opened_eq, List.append_assoc], fun o mem => ?_⟩,
    ⟨entered ++ entered', by rw [entered_eq', entered_eq, List.append_assoc], fun p mem => ?_⟩⟩
  · exact (List.mem_append.1 mem).elim (first.inside y) (second.inside y)
  · exact (List.mem_append.1 mem).elim (opened_in' o) (opened_in o)
  · exact (List.mem_append.1 mem).elim (entered_in p) (entered_in' p)

/-- What happens inside a place happens inside the places around it. -/
theorem outer (grows : Grows q l new l') (suffix : place <:+ q) : Grows place l new l' := by
  obtain ⟨opened, opened_eq, opened_in⟩ := grows.opened
  obtain ⟨entered, entered_eq, entered_in⟩ := grows.entered
  exact ⟨grows.yields, fun y mem => suffix.trans (grows.inside y mem),
    ⟨opened, opened_eq, fun o mem => suffix.trans (opened_in o mem)⟩,
    ⟨entered, entered_eq, fun p mem => suffix.trans (entered_in p mem)⟩⟩

/-- What an event yields goes onto the ledger. -/
theorem note (l : Ledger) {e : Event} (inside : place <:+ e.place) :
    Grows place l (l.yield? e).toList (l.note e) := by
  refine ⟨rfl, fun y mem => ?_, ?_, ?_⟩
  · obtain ⟨p, what⟩ := e
    cases what with
    | settled t ended => exact List.mem_singleton.1 mem ▸ inside
    | closed r => exact List.mem_singleton.1 mem ▸ inside
    | entered | skipped | dispatched | opened | finished => cases mem
  · obtain ⟨p, what⟩ := e
    cases what with
    | opened r ready => exact ⟨[(p, r)], rfl, by simpa using inside⟩
    | entered | skipped | dispatched | settled | closed | finished => exact ⟨[], rfl, by simp⟩
  · obtain ⟨p, what⟩ := e
    cases what with
    | entered f => exact ⟨[p], rfl, by simpa using inside⟩
    | skipped | dispatched | settled | opened | closed | finished =>
        exact ⟨[], (List.append_nil _).symm, by simp⟩

/-- An event that yields nothing adds nothing. -/
theorem silent (past : List Event) {e : Event} (nothing : (ledger past).yield? e = none)
    (inside : place <:+ e.place) : Grows place (ledger past) [] (ledger (past ++ [e])) := by
  have grows := Grows.note (ledger past) inside
  rw [nothing] at grows
  rw [ledger_concat]
  exact grows

/-- Events inside a place add to the ledger what is inside the place. -/
theorem events (past : List Event) {more : List Event} (inside : ∀ e ∈ more, place <:+ e.place) :
    ∃ new, Grows place (ledger past) new (ledger (past ++ more)) := by
  rw [ledger_append]
  generalize ledger past = l
  induction more generalizing l with
  | nil => exact ⟨[], .refl place l⟩
  | cons e rest ih =>
      obtain ⟨new, grows⟩ := ih (fun d mem => inside d (List.mem_cons_of_mem _ mem)) (l.note e)
      exact ⟨_, (Grows.note l (inside e List.mem_cons_self)).trans grows⟩

/-! ## What is to be seen -/

/-- What is yielded inside a place goes onto the outputs there. -/
theorem outputs_eq (grows : Grows place l new l') :
    l'.outputs place = (l.outputs place).putAll (new.map Yield.entry) := by
  have all : new.filter (fun y => place.isSuffixOf y.place) = new :=
    List.filter_eq_self.2 fun y mem => by simpa using grows.inside y mem
  rw [outputs, grows.yields, List.filter_append, all, List.map_append, Entries.ofList,
    Entries.putAll_append]
  rfl

/-- A node that yields nothing has no entry. -/
theorem get?_entries_of_stranger (stranger : ∀ y ∈ new, y.id ≠ id) :
    (Entries.ofList (new.map Yield.entry)).get? id = none := by
  refine Entries.get?_ofList_eq_none_iff.2 fun v mem => ?_
  obtain ⟨y, y_mem, rfl⟩ := List.mem_map.1 mem
  exact stranger y y_mem

/-- The output of a node that yields nothing stays. -/
theorem get?_outputs_of_stranger (grows : Grows place l new l') (stranger : ∀ y ∈ new, y.id ≠ id) :
    (l'.outputs place).get? id = (l.outputs place).get? id := by
  rw [grows.outputs_eq, Entries.get?_putAll, get?_entries_of_stranger stranger, Option.none_or]

/-- What is yielded elsewhere does not go there. -/
theorem outputs_of_apart (grows : Grows place l new l') (apart : ∀ y ∈ new, ¬ q <:+ y.place) :
    l'.outputs q = l.outputs q := by
  have none_of : new.filter (fun y => q.isSuffixOf y.place) = [] :=
    List.filter_eq_nil_iff.2 fun y mem => by simpa using apart y mem
  rw [outputs, grows.yields, List.filter_append, none_of, List.append_nil]
  rfl

/-- What is opened elsewhere leaves the payloads of a region as they are. -/
theorem payload?_eq (grows : Grows q l new l') (apart : ¬ q <:+ place) (I : String) (k : Nat) :
    l'.payload? place I k = l.payload? place I k := by
  obtain ⟨more, opened, inside⟩ := grows.opened
  have none_of : more.find? (fun o => o.1 = place ∧ o.2.iterator = I) = none :=
    List.find?_eq_none.2 fun o mem found =>
      apart ((of_decide_eq_true found).1 ▸ inside o mem)
  rw [payload?, opened, List.find?_append, none_of, Option.none_or]
  rfl

/-- Of a node that yields nothing the same is to be seen as before. -/
theorem visible_of_stranger (grows : Grows q l new l') (suffix : place <:+ q)
    (stranger : ∀ y ∈ new, y.id ≠ id) : l'.visible g place id = l.visible g place id := by
  have same {p : Place} (suffix : p <:+ q) : (l'.outputs p).get? id = (l.outputs p).get? id :=
    (grows.outer suffix).get?_outputs_of_stranger stranger
  induction place with
  | nil => exact same suffix
  | cons iteration outer ih =>
      obtain ⟨I, k⟩ := iteration
      have shorter : ¬ q <:+ outer := fun longer => not_cons_suffix _ _ (suffix.trans longer)
      unfold visible
      rw [same suffix, grows.payload?_eq shorter, ih ((List.suffix_cons _ _).trans suffix)]

/-- Of the candidates of a frame the last output is to be seen. -/
theorem visible_eq (grows : Grows place l new l')
    (candidates : ∀ y ∈ new, y.id ∈ g.candidatesAt place) (id : String) :
    l'.visible g place id =
      ((Entries.ofList (new.map Yield.entry)).get? id).or (l.visible g place id) := by
  by_cases candidate : id ∈ g.candidatesAt place
  · rw [visible_of_candidate candidate, visible_of_candidate candidate, grows.outputs_eq,
      Entries.get?_putAll]
  · have stranger : ∀ y ∈ new, y.id ≠ id := fun y mem same => candidate (same ▸ candidates y mem)
    rw [get?_entries_of_stranger stranger, Option.none_or,
      grows.visible_of_stranger (List.suffix_refl place) stranger]

end Grows

end Ledger

end Flowline
