import Flowline.Proofs.Graph.Reach
import Flowline.Proofs.Json.Entries
import Flowline.Proofs.Xml.Reading

/-!
# Children by name

Children are added to an element one after the other, and each addition looks at the value that
stands under the name so far to see whether it is the second of its name.  That is the grouping of
all children, because no element has an array as its value (`addChild_partial`), and no name of a
child is the name of an attribute or of the text (`toJson_partial`).
-/

namespace Flowline

/-! ## Distinct elements -/

theorem distinct_concat {α : Type} [BEq α] (items : List α) (a : α) :
    distinct (items ++ [a]) =
      if (distinct items).contains a then distinct items else distinct items ++ [a] := by
  rw [distinct, List.foldl_append]
  rfl

theorem nodup_distinct {α : Type} [BEq α] [LawfulBEq α] (items : List α) :
    (distinct items).Nodup := by
  induction items using List.reverseRecOn with
  | nil => exact List.nodup_nil
  | append_singleton items a ih =>
      rw [distinct_concat]
      split
      · exact ih
      · next new =>
          rw [← List.concat_eq_append]
          exact ih.concat (mt List.contains_iff_mem.2 new)

namespace Xml

/-! ## Groups -/

theorem valuesOf_concat (children : Entries Json) (child : String × Json) (name : String) :
    valuesOf (children ++ [child]) name =
      valuesOf children name ++ if name = child.1 then [child.2] else [] := by
  rw [valuesOf, List.filter_append, List.map_append, ← valuesOf]
  by_cases here : name = child.1
  · simp [here]
  · simp [here, Ne.symm here]

theorem valuesOf_ne_nil {children : Entries Json} {name : String} (mem : name ∈ children.keys) :
    valuesOf children name ≠ [] := by
  obtain ⟨child, child_mem, rfl⟩ := List.mem_map.1 mem
  exact List.ne_nil_of_mem (List.mem_map_of_mem (List.mem_filter.2 ⟨child_mem, by simp⟩))

theorem valuesOf_eq_nil {children : Entries Json} {name : String} (missing : name ∉ children.keys) :
    valuesOf children name = [] := by
  rw [valuesOf, List.map_eq_nil_iff, List.filter_eq_nil_iff]
  intro child mem same
  exact missing (List.mem_map.2 ⟨child, mem, beq_iff_eq.1 same⟩)

theorem keys_group (children : Entries Json) : (group children).keys = distinct children.keys :=
  Entries.keys_map_self ..

theorem get?_group (children : Entries Json) (name : String) :
    (group children).get? name =
      if name ∈ children.keys then some (gather (valuesOf children name)) else none := by
  rw [group, Entries.get?_map_self]
  simp only [mem_distinct]

/-- What a name holds when one more value is added to what it holds. -/
def heldThen (value : Json) : Option Json → Json
  | some (.arr elements) => .arr (elements ++ [value])
  | some first => .arr [first, value]
  | none => value

theorem heldThen_gather {values : List Json} (some_value : values ≠ [])
    (no_array : ∀ value ∈ values, ∀ elements, value ≠ .arr elements) (value : Json) :
    heldThen value (some (gather values)) = gather (values ++ [value]) := by
  match values, some_value with
  | [first], _ =>
      have single := no_array first List.mem_cons_self
      cases first with
      | arr elements => exact (single elements rfl).elim
      | null | bool | int | float | str | obj => rfl
  | first :: second :: rest, _ => rfl

/-- Adding a child to the group of the others. -/
theorem put_group {children : Entries Json}
    (no_array : ∀ child ∈ children, ∀ elements, child.2 ≠ .arr elements) (child : String × Json) :
    (group children).put child.1 (heldThen child.2 ((group children).get? child.1)) =
      group (children ++ [child]) := by
  have keys : Entries.keys (children ++ [child]) = children.keys ++ [child.1] := List.map_append
  refine Entries.ext_of_keys ?_ (Entries.nodup_keys_put ?_) fun name => ?_
  · rw [Entries.keys_put, keys_group, keys_group, keys, distinct_concat]
    simp only [List.contains_iff_mem]
  · rw [keys_group]
    exact nodup_distinct _
  · rw [Entries.get?_put, get?_group, get?_group, get?_group, keys, valuesOf_concat]
    by_cases here : name = child.1
    · subst here
      have mem : child.1 ∈ children.keys ++ [child.1] := List.mem_append_right _ (by simp)
      rw [if_pos rfl, if_pos mem, if_pos rfl]
      by_cases old : child.1 ∈ children.keys
      · rw [if_pos old, heldThen_gather (valuesOf_ne_nil old) fun value mem => ?_]
        obtain ⟨other, other_mem, rfl⟩ := List.mem_map.1 mem
        exact no_array other (List.mem_filter.1 other_mem).1
      · rw [if_neg old, valuesOf_eq_nil old]
        rfl
    · rw [if_neg here, if_neg here, List.append_nil]
      simp only [List.mem_append, List.mem_singleton, here, or_false]

/-- An element as it stands among the children of another one. -/
def Tree.member (t : Tree) : String × Json := (String.ofList t.name.val, t.convert)

theorem Tree.convert_ne_arr (t : Tree) (elements : List Json) : t.convert ≠ .arr elements := by
  cases t with
  | element name attributes content =>
      rw [Tree.convert]
      split <;> nofun

/-! ## Elements -/

/-- The elements that stand in the content of an element. -/
def Content.trees : Content → List Tree
  | .last _ => []
  | .next _ child rest => child :: rest.trees

theorem Content.children_eq (content : Content) :
    content.children = content.trees.map Tree.member := by
  match content with
  | .last _ => rw [Content.children, trees, List.map_nil]
  | .next _ child rest => rw [Content.children, trees, children_eq rest, List.map_cons, Tree.member]

/-- An element when some of what stands in it has been read. -/
def partialElement (name : Name) (attributes : Attributes) (before : List Tree)
    (text : List Char) : Element :=
  ⟨name.val, attributes.members ++ group (before.map Tree.member), text⟩

variable (name : Name) (attributes : Attributes)

theorem Element.addChild_eq (e : Element) (name : List Char) (value : Json) :
    e.addChild name value =
      { e with
        children := Entries.put e.children (String.ofList name)
          (heldThen value (Entries.get? e.children (String.ofList name))) } := rfl

/-- A name of anything else is no name of an attribute. -/
theorem not_mem_members {text : List Char} (other : text.head? ≠ some '@') :
    String.ofList text ∉ attributes.members.keys := by
  intro mem
  obtain ⟨entry, entry_mem, same⟩ := List.mem_map.1 mem
  obtain ⟨a, -, rfl⟩ := List.mem_map.1 entry_mem
  have spelled : '@' :: a.1.val = text := String.ofList_inj.1 same
  exact other (spelled ▸ rfl)

/-- A name of an element is no name of an attribute or of the text. -/
theorem Name.head?_ne {mark : Char} (mem : mark ∈ marks) : name.val.head? ≠ some mark := by
  intro first
  exact name.not_mem mem (List.mem_of_mem_head? first)

theorem addChild_partial (before : List Tree) (text : List Char) (t : Tree) :
    (partialElement name attributes before text).addChild t.name.val t.convert =
      partialElement name attributes (before ++ [t]) text := by
  have other : String.ofList t.name.val ∉ attributes.members.keys :=
    not_mem_members attributes (t.name.head?_ne (by decide))
  have no_array : ∀ child ∈ before.map Tree.member, ∀ elements, child.2 ≠ .arr elements := by
    intro child mem
    obtain ⟨tree, -, rfl⟩ := List.mem_map.1 mem
    exact tree.convert_ne_arr
  have added := put_group no_array t.member
  rw [Element.addChild_eq, partialElement, partialElement]
  rw [Entries.get?_append_of_not_mem other, Entries.put_append_of_not_mem other, List.map_append]
  exact congrArg (fun held => Element.mk name.val (attributes.members ++ held) text) added

theorem group_eq_nil {children : Entries Json} : group children = [] ↔ children = [] := by
  cases children with
  | nil => exact iff_of_true rfl rfl
  | cons child rest =>
      have there : child.1 ∈ distinct (Entries.keys (child :: rest)) :=
        mem_distinct.2 List.mem_cons_self
      refine iff_of_false (fun empty => ?_) nofun
      exact List.ne_nil_of_mem there (List.map_eq_nil_iff.1 empty)

/-- Nothing has the name of the text. -/
theorem text_not_mem (content : Content) :
    "#text" ∉ Entries.keys (attributes.members ++ group content.children) := by
  have spelled : "#text" = String.ofList ['#', 't', 'e', 'x', 't'] := rfl
  have keys : Entries.keys (attributes.members ++ group content.children) =
      attributes.members.keys ++ distinct content.children.keys := by
    rw [← keys_group]
    exact List.map_append
  rw [spelled, keys]
  refine List.not_mem_append (not_mem_members attributes (by decide)) fun mem => ?_
  obtain ⟨child, child_mem, same⟩ := List.mem_map.1 (mem_distinct.1 mem)
  rw [content.children_eq] at child_mem
  obtain ⟨t, -, rfl⟩ := List.mem_map.1 child_mem
  have named : t.name.val = ['#', 't', 'e', 'x', 't'] := String.ofList_inj.1 same
  have differs : t.name.val.head? ≠ some '#' := t.name.head?_ne (by decide)
  exact differs (named ▸ rfl)

theorem toJson_partial (content : Content) :
    (partialElement name attributes content.trees content.text).toJson =
      (Tree.element name attributes content).convert := by
  have empty : attributes.members ++ group content.children = [] ↔
      attributes.members = [] ∧ content.children = [] := by
    rw [List.append_eq_nil_iff, group_eq_nil]
  rw [partialElement, ← content.children_eq, Tree.convert, Element.toJson]
  dsimp only
  by_cases alone : attributes.members = [] ∧ content.children = []
  · rw [if_pos (empty.2 alone), if_pos alone]
  · rw [if_neg (mt empty.1 alone), if_neg alone]
    by_cases blank : content.text = []
    · rw [if_pos blank, if_pos blank, List.append_nil]
    · rw [if_neg blank, if_neg blank, Entries.put_of_not_mem (text_not_mem attributes content)]

end Xml

end Flowline
