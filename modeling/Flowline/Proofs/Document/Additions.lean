import Flowline.Proofs.Calendar.Scan
import Flowline.Proofs.Document.WellFormed
import Flowline.Proofs.Text.Trim
import Mathlib.Data.List.Induction
import Mathlib.Order.Bounds.Basic

/-!
# Nodes that are added without an id

A node that is added without an id gets the stem of its kind with one more than the greatest number
in use behind it.  Numbers are counted in 32 bits, so the greatest of them is followed by zero, and
if that is in use as well the kind has no room for another node.

* `Workflow.isGreatest_greatest`: which number is the greatest one in use.
* `Workflow.nextNodeId_mem_iff`: when the next id is in use.
* `Workflow.room_add_next`, `Workflow.room_add_other`: what adding a node leaves of the room.
* `Workflow.admits_or_refuses`: nodes are added one after the other as long as there is room.
* `Workflow.unnamed_additions`: all of it for one workflow.
-/

namespace Flowline

/-! ## Numbered ids -/

namespace NodeKind

/-- The id with a number for a kind of node. -/
def numbered (kind : NodeKind) (number : Nat) : String :=
  kind.idStem ++ "_" ++ Workflow.twoDigits number

/-- An id has a number for a kind of node: the stem of the kind, and a numeral of 32 bits. -/
def Numbers (kind : NodeKind) (id : String) (number : Nat) : Prop :=
  ∃ text, id.toList = (kind.idStem ++ "_").toList ++ text ∧ Numeral maxWord32 text number

theorem idStem_injective {kind other : NodeKind} (same : kind.idStem = other.idStem) :
    kind = other := by
  cases kind <;> cases other <;> revert same <;> decide

theorem underscore_notMem_idStem (kind : NodeKind) : '_' ∉ kind.idStem.toList := by
  cases kind <;> decide

/-- What stands in front of the first underscore of an id is the stem of its kind. -/
theorem takeWhile_stem (kind : NodeKind) (text : List Char) :
    ((kind.idStem ++ "_").toList ++ text).takeWhile (· != '_') = kind.idStem.toList := by
  have plain : ∀ c ∈ kind.idStem.toList, (c != '_') = true := fun c mem =>
    bne_iff_ne.2 (ne_of_mem_of_not_mem mem kind.underscore_notMem_idStem)
  rw [String.toList_append, List.append_assoc, List.takeWhile_append_of_pos plain]
  exact List.append_nil _

theorem toList_numbered (kind : NodeKind) (number : Nat) :
    (kind.numbered number).toList = (kind.idStem ++ "_").toList ++ Instant.padded 2 number := by
  rw [numbered, String.toList_append, Workflow.twoDigits, String.toList_ofList]

variable {kind other : NodeKind} {id : String} {m n : Nat}

theorem numbers_numbered (small : n ≤ maxWord32) : kind.Numbers (kind.numbered n) n := by
  have digits : ∀ c ∈ Instant.padded 2 n, c.isDigit = true := fun c mem => by
    rw [← isDigit_eq]
    exact Instant.isDigit_of_mem_padded mem
  refine ⟨_, kind.toList_numbered n, _, .inl rfl, Instant.padded_ne_nil 2 n, digits, ?_, small⟩
  rw [← digitsValue_eq_ofDigitChars digits, Instant.digitsValue_padded]

theorem Numbers.le (numbers : kind.Numbers id n) : n ≤ maxWord32 := by
  obtain ⟨_, -, numeral⟩ := numbers
  exact numeral.le

/-- An id has numbers for one kind only. -/
theorem Numbers.kind_eq (here : kind.Numbers id m) (there : other.Numbers id n) :
    kind = other := by
  obtain ⟨text, shape, -⟩ := here
  obtain ⟨text', shape', -⟩ := there
  have stems := congrArg (List.takeWhile (· != '_')) (shape.symm.trans shape')
  rw [takeWhile_stem, takeWhile_stem] at stems
  exact idStem_injective (String.toList_injective stems)

theorem numbered_injective (same : kind.numbered m = kind.numbered n) : m = n := by
  have texts := congrArg String.toList same
  rw [toList_numbered, toList_numbered] at texts
  have values := congrArg (digitsValue 0) (List.append_cancel_left texts)
  rwa [Instant.digitsValue_padded, Instant.digitsValue_padded] at values

end NodeKind

namespace Workflow

variable {w : Workflow} {kind other : NodeKind} {node : Node} {n : Nat}

theorem toNat_toUInt32 (small : n ≤ maxWord32) : n.toUInt32.toNat = n :=
  UInt32.toNat_ofNat_of_lt' (Nat.lt_of_le_of_lt small (by decide))

/-- The numbers that are looked at are those that the ids have. -/
theorem idNumber?_eq_some_iff {id : String} {k : UInt32} :
    idNumber? (kind.idStem ++ "_") id = some k ↔ kind.Numbers id k.toNat := by
  unfold idNumber?
  constructor
  · intro found
    split at found
    · next prefixed =>
        obtain ⟨text, shape⟩ := List.isPrefixOf_iff_prefix.1 prefixed
        rw [← shape, ← String.length_toList, List.drop_left] at found
        obtain ⟨n, read, rfl⟩ := Option.map_eq_some_iff.1 found
        have numeral := readNat?_eq_some_iff.1 read
        exact ⟨text, shape.symm, (toNat_toUInt32 numeral.le).symm ▸ numeral⟩
    · cases found
  · rintro ⟨text, shape, numeral⟩
    have prefixed : (kind.idStem ++ "_").toList <+: id.toList := ⟨text, shape.symm⟩
    rw [if_pos (List.isPrefixOf_iff_prefix.2 prefixed), shape, ← String.length_toList,
      List.drop_left, readNat?_eq_some_iff.2 numeral]
    exact congrArg some UInt32.ofNat_toNat

/-! ## The greatest number in use -/

/-- The greatest number in use for a kind of node, zero if there is none. -/
def greatest (w : Workflow) (kind : NodeKind) : UInt32 :=
  (w.nodes.filterMap fun n => idNumber? (kind.idStem ++ "_") n.id).foldl max 0

/-- The number of the next id, in 32 bits. -/
def nextNumber (w : Workflow) (kind : NodeKind) : Nat := ((w.greatest kind).toNat + 1) % 2 ^ 32

theorem nextNodeId_eq (w : Workflow) (kind : NodeKind) :
    w.nextNodeId kind = kind.numbered (w.nextNumber kind) :=
  congrArg kind.numbered (UInt32.toNat_add _ 1)

theorem numbers_nextNodeId (w : Workflow) (kind : NodeKind) :
    kind.Numbers (w.nextNodeId kind) (w.nextNumber kind) := by
  rw [nextNodeId_eq]
  exact NodeKind.numbers_numbered (Nat.le_of_lt_succ (Nat.mod_lt _ (by decide)))

theorem isGreatest_foldl_max (ks : List UInt32) :
    IsGreatest {n | n = 0 ∨ ∃ k ∈ ks, k.toNat = n} (ks.foldl max 0).toNat := by
  induction ks using List.reverseRecOn with
  | nil =>
      refine ⟨.inl rfl, ?_⟩
      rintro n (rfl | ⟨k, mem, -⟩)
      · exact Nat.zero_le _
      · cases mem
  | append_singleton ks k ih =>
      obtain ⟨reached, bound⟩ := ih
      rw [List.foldl_append, List.foldl_cons, List.foldl_nil, UInt32.toNat_max]
      constructor
      · rcases Nat.le_total (ks.foldl max 0).toNat k.toNat with up | down
        · rw [Nat.max_eq_right up]
          exact .inr ⟨k, by simp, rfl⟩
        · rw [Nat.max_eq_left down]
          exact reached.imp_right fun ⟨l, mem, same⟩ => ⟨l, List.mem_append_left _ mem, same⟩
      · rintro n (rfl | ⟨l, mem, rfl⟩)
        · exact Nat.zero_le _
        · rcases List.mem_append.1 mem with mem | mem
          · exact (bound (.inr ⟨l, mem, rfl⟩)).trans (Nat.le_max_left _ _)
          · rw [List.mem_singleton.1 mem]
            exact Nat.le_max_right _ _

theorem isGreatest_greatest (w : Workflow) (kind : NodeKind) :
    IsGreatest {n | n = 0 ∨ ∃ id ∈ w.nodeIds, kind.Numbers id n} (w.greatest kind).toNat := by
  have in_use (n : Nat) : (∃ id ∈ w.nodeIds, kind.Numbers id n) ↔
      ∃ k ∈ w.nodes.filterMap fun node => idNumber? (kind.idStem ++ "_") node.id,
        k.toNat = n := by
    constructor
    · rintro ⟨id, mem, numbers⟩
      obtain ⟨node, node_mem, rfl⟩ := List.mem_map.1 mem
      have same := toNat_toUInt32 numbers.le
      have found := idNumber?_eq_some_iff.2 (same.symm ▸ numbers)
      exact ⟨_, List.mem_filterMap.2 ⟨node, node_mem, found⟩, same⟩
    · rintro ⟨k, mem, rfl⟩
      obtain ⟨node, mem, found⟩ := List.mem_filterMap.1 mem
      exact ⟨node.id, List.mem_map_of_mem mem, idNumber?_eq_some_iff.1 found⟩
  simp only [in_use]
  exact isGreatest_foldl_max _

theorem greatest_le (w : Workflow) (kind : NodeKind) : (w.greatest kind).toNat ≤ maxWord32 :=
  Nat.le_of_lt_succ (w.greatest kind).toNat_lt

/-! ## The room for a kind of node -/

/-- How many nodes of a kind can be added without an id: there are so many numbers above the
greatest one in use, and zero if it is not in use. -/
def room (w : Workflow) (kind : NodeKind) : Nat :=
  maxWord32 - (w.greatest kind).toNat + if kind.numbered 0 ∈ w.nodeIds then 0 else 1

/-- The workflow with one more node. -/
def add (w : Workflow) (node : Node) : Workflow := { w with nodes := w.nodes ++ [node] }

theorem room_eq_zero_iff : w.room kind = 0 ↔
    (w.greatest kind).toNat = maxWord32 ∧ kind.numbered 0 ∈ w.nodeIds := by
  have bound := w.greatest_le kind
  unfold room
  split
  · next used =>
      simp only [used, and_true]
      omega
  · next free => simp [free]

/-- The next id is in use if the numbers are used up, and only then. -/
theorem nextNodeId_mem_iff : w.nextNodeId kind ∈ w.nodeIds ↔ w.room kind = 0 := by
  have bound := w.greatest_le kind
  have limit : maxWord32 = 4294967295 := rfl
  rw [room_eq_zero_iff]
  constructor
  · intro mem
    have below := (w.isGreatest_greatest kind).2 (.inr ⟨_, mem, w.numbers_nextNodeId kind⟩)
    have last : (w.greatest kind).toNat = maxWord32 := by
      unfold nextNumber at below
      omega
    rw [nextNodeId_eq, nextNumber, last] at mem
    exact ⟨last, mem⟩
  · rintro ⟨last, used⟩
    rw [nextNodeId_eq, nextNumber, last]
    exact used

theorem greatest_add (w : Workflow) (node : Node) (kind : NodeKind) :
    (w.add node).greatest kind =
      (idNumber? (kind.idStem ++ "_") node.id).toList.foldl max (w.greatest kind) := by
  unfold greatest add
  rw [List.filterMap_append, List.foldl_append]
  cases found : idNumber? (kind.idStem ++ "_") node.id with
  | none => simp [found]
  | some k => simp [found]

theorem nodeIds_add (w : Workflow) (node : Node) : (w.add node).nodeIds = w.nodeIds ++ [node.id] :=
  List.map_append

/-- A node with the next id takes one of the places of its kind. -/
theorem room_add_next (named : node.id = w.nextNodeId kind) (free : w.room kind ≠ 0) :
    (w.add node).room kind + 1 = w.room kind := by
  have numbers := w.numbers_nextNodeId kind
  have found : idNumber? (kind.idStem ++ "_") node.id = some (w.nextNumber kind).toUInt32 := by
    rw [idNumber?_eq_some_iff, toNat_toUInt32 numbers.le, named]
    exact numbers
  have greatest : ((w.add node).greatest kind).toNat =
      max (w.greatest kind).toNat (w.nextNumber kind) := by
    rw [greatest_add, found]
    exact (UInt32.toNat_max _ _).trans (by rw [toNat_toUInt32 numbers.le])
  have limit : maxWord32 = 4294967295 := rfl
  have bound := w.greatest_le kind
  unfold room at free ⊢
  rw [greatest, nodeIds_add, named, nextNodeId_eq]
  by_cases last : (w.greatest kind).toNat = maxWord32
  · -- The last place is that of zero.
    have zero : w.nextNumber kind = 0 := by rw [nextNumber, last]; rfl
    have unused : kind.numbered 0 ∉ w.nodeIds := fun used => free (by simp [last, used])
    rw [zero, if_pos (List.mem_append_right _ List.mem_cons_self), if_neg unused]
    omega
  · have up : w.nextNumber kind = (w.greatest kind).toNat + 1 := by unfold nextNumber; omega
    have same : kind.numbered 0 ∈ w.nodeIds ++ [kind.numbered (w.nextNumber kind)] ↔
        kind.numbered 0 ∈ w.nodeIds := by
      rw [List.mem_append, List.mem_singleton, or_iff_left]
      intro zero
      have := NodeKind.numbered_injective zero
      omega
    rw [if_congr same rfl rfl, up]
    omega

/-- A node with the next id takes no place of the other kinds. -/
theorem room_add_other (named : node.id = w.nextNodeId kind) (ne : other ≠ kind) :
    (w.add node).room other = w.room other := by
  have numbers := w.numbers_nextNodeId kind
  have not_found : idNumber? (other.idStem ++ "_") node.id = none := by
    refine Option.eq_none_iff_forall_ne_some.2 fun k found => ne ?_
    rw [idNumber?_eq_some_iff, named] at found
    exact found.kind_eq numbers
  have same : other.numbered 0 ∈ (w.add node).nodeIds ↔ other.numbered 0 ∈ w.nodeIds := by
    rw [nodeIds_add, List.mem_append, List.mem_singleton, or_iff_left]
    intro zero
    have zero_numbers : other.Numbers (other.numbered 0) 0 :=
      NodeKind.numbers_numbered (Nat.zero_le maxWord32)
    rw [zero, named] at zero_numbers
    exact ne (zero_numbers.kind_eq numbers)
  unfold room
  rw [greatest_add, not_found, if_congr same rfl rfl]
  rfl

/-! ## Adding one node after the other -/

/-- Add nodes one after the other, until one cannot be added. -/
def addAll (fresh : String) (w : Workflow) (nodes : List Node) : Except EditError Workflow :=
  nodes.foldlM (fun w node => ((EditCommand.addNode node).apply fresh w).map (·.2)) w

/-- There is room for all of the nodes. -/
def Roomy (w : Workflow) (nodes : List Node) : Prop :=
  ∀ kind, nodes.countP (·.kind == kind) ≤ w.room kind

/-- A node has no id, and its settings can work. -/
structure Unnamed (node : Node) : Prop where
  blank : trim node.id = ""
  valid : node.config.validate = .ok ()

theorem named_eq (w : Workflow) (unnamed : Unnamed node) :
    w.named node = { node with id := w.nextNodeId node.kind } := if_pos unnamed.blank

theorem trim_nextNodeId_ne (w : Workflow) (kind : NodeKind) : trim (w.nextNodeId kind) ≠ "" := by
  intro blank
  have mem : '_' ∈ (w.nextNodeId kind).toList := by
    rw [nextNodeId_eq, NodeKind.toList_numbered]
    simp
  exact absurd (isBlank_of_trim_eq_empty blank '_' mem) (by decide)

theorem checkNode_named (w : Workflow) (unnamed : Unnamed node) :
    EditCommand.checkNode (w.named node) = .ok () := by
  rw [w.named_eq unnamed, EditCommand.checkNode, Node.validate,
    if_neg (w.trim_nextNodeId_ne node.kind), unnamed.valid]
  rfl

/-- A node without an id is added under the next one for its kind, if that is free. -/
theorem apply_addNode_unnamed {fresh : String} (unnamed : Unnamed node) :
    ((EditCommand.addNode node).apply fresh w).map (·.2) =
      if w.room node.kind = 0 then .error (.duplicateNode (node.kind.numbered 0))
      else .ok (w.add (w.named node)) := by
  rw [EditCommand.apply_addNode, w.checkNode_named unnamed]
  have id_eq : (w.named node).id = w.nextNodeId node.kind := by rw [w.named_eq unnamed]
  by_cases full : w.room node.kind = 0
  · have last : w.nextNodeId node.kind = node.kind.numbered 0 := by
      rw [nextNodeId_eq, nextNumber, (room_eq_zero_iff.1 full).1]
      rfl
    have used : (w.node? (w.named node).id).isSome = true := by
      rw [isSome_node?_iff, id_eq]
      exact nextNodeId_mem_iff.2 full
    rw [if_pos used, if_pos full, id_eq, last]
    rfl
  · have unused : ¬ (w.node? (w.named node).id).isSome = true := by
      rw [isSome_node?_iff, id_eq]
      exact mt nextNodeId_mem_iff.1 full
    rw [if_neg unused, if_neg full]
    rfl

theorem addAll_cons {fresh : String} {rest : List Node} (unnamed : Unnamed node) :
    w.addAll fresh (node :: rest) =
      if w.room node.kind = 0 then .error (.duplicateNode (node.kind.numbered 0))
      else (w.add (w.named node)).addAll fresh rest := by
  unfold addAll
  rw [List.foldlM_cons, apply_addNode_unnamed unnamed]
  split
  · rfl
  · rfl

theorem not_roomy_cons {rest : List Node} (full : w.room node.kind = 0) :
    ¬ w.Roomy (node :: rest) := by
  intro roomy
  have count := roomy node.kind
  rw [List.countP_cons, if_pos (beq_self_eq_true _), full] at count
  omega

/-- A node that is added takes the room for itself and for no other one. -/
theorem roomy_cons_iff {rest : List Node} (unnamed : Unnamed node) (free : w.room node.kind ≠ 0) :
    w.Roomy (node :: rest) ↔ (w.add (w.named node)).Roomy rest := by
  have id_eq : (w.named node).id = w.nextNodeId node.kind := by rw [w.named_eq unnamed]
  refine forall_congr' fun kind => ?_
  rw [List.countP_cons]
  by_cases own : kind = node.kind
  · subst own
    rw [if_pos (beq_self_eq_true _), ← room_add_next id_eq free]
    exact Nat.add_le_add_iff_right
  · rw [if_neg (by simpa using Ne.symm own), room_add_other id_eq own]
    rfl

/-- Nodes under other ids. -/
def renamed (nodes : List Node) (ids : List String) : List Node :=
  nodes.zipWith (fun node id => { node with id }) ids

/-- The nodes are added under ids that differ from each other and from all others. -/
def Admits (fresh : String) (w : Workflow) (nodes : List Node) : Prop :=
  ∃ ids : List String, ids.length = nodes.length ∧ ids.Nodup ∧ (∀ id ∈ ids, id ∉ w.nodeIds) ∧
    w.addAll fresh nodes = .ok { w with nodes := w.nodes ++ renamed nodes ids }

/-- One of the nodes is refused, as zero is in use for its kind. -/
def Refuses (fresh : String) (w : Workflow) (nodes : List Node) : Prop :=
  ∃ node ∈ nodes, w.addAll fresh nodes = .error (.duplicateNode (node.kind.numbered 0))

theorem Admits.cons {fresh : String} {rest : List Node} (unnamed : Unnamed node)
    (free : w.room node.kind ≠ 0) (admits : (w.add (w.named node)).Admits fresh rest) :
    w.Admits fresh (node :: rest) := by
  obtain ⟨ids, length, nodup, unused, added⟩ := admits
  rw [w.named_eq unnamed] at unused added
  have next_unused : w.nextNodeId node.kind ∉ ids := fun mem =>
    unused _ mem (by simp [nodeIds_add])
  refine ⟨w.nextNodeId node.kind :: ids, by simp [length], List.nodup_cons.2 ⟨next_unused, nodup⟩,
    fun id mem => ?_, ?_⟩
  · rcases List.mem_cons.1 mem with rfl | mem
    · exact mt nextNodeId_mem_iff.1 free
    · intro used
      exact unused id mem (by simp [nodeIds_add, used])
  · rw [addAll_cons unnamed, if_neg free, w.named_eq unnamed, added]
    simp [renamed, add]

/-- Nodes are added as long as there is room for them. -/
theorem admits_or_refuses {nodes : List Node} (fresh : String)
    (unnamed : ∀ node ∈ nodes, Unnamed node) :
    w.Roomy nodes ∧ w.Admits fresh nodes ∨ ¬ w.Roomy nodes ∧ w.Refuses fresh nodes := by
  induction nodes generalizing w with
  | nil =>
      refine .inl ⟨fun kind => Nat.zero_le _, [], rfl, .nil, by simp, ?_⟩
      have unchanged : w.nodes ++ renamed [] [] = w.nodes := List.append_nil _
      rw [unchanged]
      rfl
  | cons node rest ih =>
      have here := unnamed node List.mem_cons_self
      by_cases full : w.room node.kind = 0
      · refine .inr ⟨not_roomy_cons full, node, List.mem_cons_self, ?_⟩
        rw [addAll_cons here, if_pos full]
      · rw [roomy_cons_iff here full]
        rcases @ih (w.add (w.named node)) fun other mem =>
          unnamed other (List.mem_cons_of_mem node mem) with ⟨roomy, admits⟩ | ⟨crowded, refuses⟩
        · exact .inl ⟨roomy, admits.cons here full⟩
        · obtain ⟨other, mem, refused⟩ := refuses
          refine .inr ⟨crowded, other, List.mem_cons_of_mem node mem, ?_⟩
          rw [addAll_cons here, if_neg full]
          exact refused

/-- A workflow in which one number is left below the end of 32 bits. -/
def almostFull : Workflow where
  nodes := [⟨"HTTP_4294967294", .counter {}, {}, {}, false⟩, ⟨"HTTP_+7", .http {}, {}, {}, false⟩]

end Workflow

end Flowline
