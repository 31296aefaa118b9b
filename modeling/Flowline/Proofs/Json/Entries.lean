import Flowline.Json.Basic
import Mathlib.Data.List.Induction
import Mathlib.Data.List.Nodup

/-!
# Entries seen through their keys

What `Entries.put` does to the value at each key (`get?_put`), which keys `Entries.putAll` leaves
(`mem_keys_putAll`), that a key which is there once stays there once (`nodup_keys_put`), and when
the order in which entries are put or stand does not matter (`get?_ofList_perm`, `get?_perm`).
-/

namespace Flowline

/-- Where keys are distinct, an element is found by its key. -/
theorem filter_eq_singleton {α : Type} {key : α → String} {items : List α} {a : α}
    (distinct : (items.map key).Nodup) (mem : a ∈ items) :
    items.filter (fun b => key b == key a) = [a] := by
  induction items with
  | nil => cases mem
  | cons first rest ih =>
      obtain ⟨new, distinct⟩ := List.nodup_cons.1 distinct
      rcases List.mem_cons.1 mem with rfl | mem
      · have none_left : rest.filter (fun b => key b == key a) = [] := by
          rw [List.filter_eq_nil_iff]
          intro b b_mem same
          exact new (List.mem_map.2 ⟨b, b_mem, beq_iff_eq.1 same⟩)
        rw [List.filter_cons_of_pos (by simp), none_left]
      · have differs : key first ≠ key a := fun same =>
          new (List.mem_map.2 ⟨a, mem, same.symm⟩)
        rw [List.filter_cons_of_neg (by simpa using differs), ih distinct mem]

namespace Entries

variable {α : Type} {m : Entries α} {key other : String} {value : α}

theorem get?_put (m : Entries α) (key other : String) (value : α) :
    (m.put key value).get? other = if other = key then some value else m.get? other := by
  induction m with
  | nil =>
      by_cases same : other = key
      · simp [put, get?, same]
      · simp [put, get?, same, Ne.symm same]
  | cons entry rest ih =>
      obtain ⟨k, v⟩ := entry
      by_cases hit : k = key
      · subst hit
        by_cases same : other = k
        · simp [put, get?, same]
        · simp [put, get?, same, Ne.symm same]
      · by_cases same : other = k
        · subst same
          simp [put, get?, hit]
        · have skip (tail : Entries α) : get? ((k, v) :: tail) other = tail.get? other := by
            simp [get?, Ne.symm same]
          have step : put ((k, v) :: rest) key value = (k, v) :: put rest key value := by
            simp [put, hit]
          rw [step, skip, skip, ih]

@[simp] theorem get?_put_self (m : Entries α) (key : String) (value : α) :
    (m.put key value).get? key = some value := by
  simp [get?_put]

theorem get?_put_of_ne (ne : other ≠ key) (m : Entries α) (value : α) :
    (m.put key value).get? other = m.get? other := by
  simp [get?_put, ne]

theorem get?_remove (m : Entries α) (key other : String) :
    (m.remove key).get? other = if other = key then none else m.get? other := by
  induction m with
  | nil => simp [remove, get?]
  | cons entry rest ih =>
      obtain ⟨k, v⟩ := entry
      by_cases hit : k = key
      · have removed : remove ((k, v) :: rest) key = remove rest key := by simp [remove, hit]
        rw [removed, ih]
        split
        · rfl
        · next ne => simp [get?, hit, Ne.symm ne]
      · have stays : remove ((k, v) :: rest) key = (k, v) :: remove rest key := by
          simp [remove, hit]
        rw [stays]
        by_cases same : other = k
        · subst same
          simp [get?, hit]
        · have skip (tail : Entries α) : get? ((k, v) :: tail) other = tail.get? other := by
            simp [get?, Ne.symm same]
          rw [skip, skip, ih]

theorem has_eq_isSome (m : Entries α) (key : String) : m.has key = (m.get? key).isSome := by
  rw [Bool.eq_iff_iff, has, get?, Option.isSome_map, List.find?_isSome]
  simp

theorem get?_isSome_iff : (m.get? key).isSome ↔ key ∈ m.keys := by
  rw [get?, Option.isSome_map, List.find?_isSome, keys, List.mem_map]
  simp

theorem mem_of_get? (found : m.get? key = some value) : (key, value) ∈ m := by
  obtain ⟨entry, first, rfl⟩ := Option.map_eq_some_iff.1 found
  have same : entry.1 = key := by simpa using List.find?_some first
  rw [← same]
  exact List.mem_of_find?_eq_some first

theorem keys_put (m : Entries α) (key : String) (value : α) :
    (m.put key value).keys = if key ∈ m.keys then m.keys else m.keys ++ [key] := by
  induction m with
  | nil => simp [put, keys]
  | cons entry rest ih =>
      obtain ⟨k, v⟩ := entry
      by_cases hit : k = key
      · simp [put, keys, hit]
      · simp only [put, beq_iff_eq, hit, if_false]
        simp only [keys, List.map_cons] at ih ⊢
        rw [ih]
        by_cases mem : key ∈ rest.map (·.1)
        · simp [mem]
        · simp [mem, Ne.symm hit]

theorem put_of_not_mem (missing : key ∉ m.keys) : m.put key value = m ++ [(key, value)] := by
  induction m with
  | nil => rfl
  | cons entry rest ih =>
      obtain ⟨k, v⟩ := entry
      obtain ⟨other, missing⟩ := not_or.1 (List.mem_cons.not.1 missing)
      have differs : ¬ (k == key) = true := fun same => other (beq_iff_eq.1 same).symm
      rw [put, if_neg differs, ih missing, List.cons_append]

theorem mem_keys_put : other ∈ (m.put key value).keys ↔ other = key ∨ other ∈ m.keys := by
  rw [← get?_isSome_iff, ← get?_isSome_iff, get?_put]
  split
  · simp [*]
  · simp [*]

theorem nodup_keys_put (distinct : m.keys.Nodup) : (m.put key value).keys.Nodup := by
  rw [keys_put]
  split
  · exact distinct
  · next new =>
      refine List.nodup_append.2 ⟨distinct, by simp, ?_⟩
      intro a mem b b_mem
      rw [List.mem_singleton.1 b_mem]
      exact ne_of_mem_of_not_mem mem new

/-- A key that is there once has one entry. -/
theorem length_filter_eq_one (distinct : m.keys.Nodup) (mem : key ∈ m.keys) :
    (m.filter (·.1 == key)).length = 1 := by
  obtain ⟨entry, entry_mem, rfl⟩ := List.mem_map.1 mem
  rw [filter_eq_singleton distinct entry_mem]
  rfl

theorem putAll_cons (m : Entries α) (entry : String × α) (rest : Entries α) :
    m.putAll (entry :: rest) = (m.put entry.1 entry.2).putAll rest := rfl

theorem isSome_get?_putAll {entries : Entries α} :
    ((m.putAll entries).get? key).isSome ↔ (m.get? key).isSome ∨ key ∈ entries.keys := by
  induction entries generalizing m with
  | nil => simp [putAll, keys]
  | cons entry rest ih =>
      rw [putAll_cons, ih, get?_put]
      by_cases same : key = entry.1
      · simp [same, keys]
      · simp [same, keys]

theorem get?_putAll_of_not_mem {entries : Entries α} (missing : key ∉ entries.keys) :
    (m.putAll entries).get? key = m.get? key := by
  induction entries generalizing m with
  | nil => rfl
  | cons entry rest ih =>
      obtain ⟨differs, missing⟩ := not_or.1 (List.mem_cons.not.1 missing)
      rw [putAll_cons, ih missing, get?_put_of_ne differs]

theorem mem_put {v : String × α} (mem : v ∈ m.put key value) : v ∈ m ∨ v = (key, value) := by
  induction m with
  | nil => exact Or.inr (List.mem_singleton.1 mem)
  | cons first rest ih =>
      unfold put at mem
      split at mem
      · next hit =>
          rcases List.mem_cons.1 mem with same | later
          · rw [beq_iff_eq.1 hit] at same
            exact Or.inr same
          · exact Or.inl (List.mem_cons_of_mem _ later)
      · rcases List.mem_cons.1 mem with same | later
        · exact Or.inl (same ▸ List.mem_cons_self)
        · exact (ih later).imp_left (List.mem_cons_of_mem _)

theorem mem_putAll {entries : Entries α} {v : String × α} (mem : v ∈ m.putAll entries) :
    v ∈ m ∨ v ∈ entries := by
  induction entries generalizing m with
  | nil => exact Or.inl mem
  | cons first rest ih =>
      rw [putAll_cons] at mem
      rcases ih mem with held | later
      · rcases mem_put held with old | same
        · exact Or.inl old
        · exact Or.inr (same ▸ List.mem_cons_self)
      · exact Or.inr (List.mem_cons_of_mem _ later)

theorem mem_keys_putAll {entries : Entries α} :
    key ∈ (m.putAll entries).keys ↔ key ∈ m.keys ∨ key ∈ entries.keys := by
  rw [← get?_isSome_iff, isSome_get?_putAll, get?_isSome_iff]

theorem mem_foldl_putAll {all : List (Entries α)} {v : String × α} (mem : v ∈ all.foldl putAll m) :
    v ∈ m ∨ ∃ entries ∈ all, v ∈ entries := by
  induction all generalizing m with
  | nil => exact Or.inl mem
  | cons first rest ih =>
      rcases ih mem with held | ⟨entries, later, mem⟩
      · exact (mem_putAll held).imp_right fun new => ⟨first, List.mem_cons_self, new⟩
      · exact Or.inr ⟨entries, List.mem_cons_of_mem _ later, mem⟩

theorem mem_keys_foldl_putAll {all : List (Entries α)} :
    key ∈ (all.foldl putAll m).keys ↔ key ∈ m.keys ∨ ∃ entries ∈ all, key ∈ entries.keys := by
  induction all generalizing m with
  | nil => simp
  | cons first rest ih =>
      rw [List.foldl_cons, ih, mem_keys_putAll, or_assoc]
      simp

/-- If each step of a fold that is about a key gives it one value, unless it has one already, and
the other steps leave it alone, then the key has that value if some step is about it. -/
theorem get?_foldl {β : Type} {step : Entries α → β → Entries α} (about : β → String)
    (given : Option α) (steps : List β)
    (gives : ∀ b ∈ steps, about b = key → ∀ m, (step m b).get? key = (m.get? key).or given)
    (keeps : ∀ m b, about b ≠ key → (step m b).get? key = m.get? key) (m : Entries α) :
    (steps.foldl step m).get? key =
      (m.get? key).or (if key ∈ steps.map about then given else none) := by
  induction steps generalizing m with
  | nil => simp
  | cons b rest ih =>
      rw [List.foldl_cons, ih fun b mem => gives b (List.mem_cons_of_mem _ mem)]
      by_cases same : about b = key
      · have there : key ∈ (b :: rest).map about := by simp [same]
        rw [gives b List.mem_cons_self same, if_pos there, Option.or_assoc]
        split
        · rw [Option.or_self]
        · rw [Option.or_none]
      · have later : key ∈ (b :: rest).map about ↔ key ∈ rest.map about := by
          rw [List.map_cons, List.mem_cons, or_iff_right (Ne.symm same)]
        simp only [keeps m b same, later]

/-! ## Entries put one after the other -/

theorem putAll_append (m first second : Entries α) :
    m.putAll (first ++ second) = (m.putAll first).putAll second := List.foldl_append

theorem putAll_concat (m : Entries α) (rest : List (String × α)) (entry : String × α) :
    m.putAll (rest ++ [entry]) = (m.putAll rest).put entry.1 entry.2 := putAll_append m rest [entry]

theorem nodup_keys_putAll {entries : Entries α} (distinct : m.keys.Nodup) :
    (m.putAll entries).keys.Nodup := by
  induction entries generalizing m with
  | nil => exact distinct
  | cons entry rest ih => exact ih (nodup_keys_put distinct)

theorem put_put_self (m : Entries α) (key : String) (first second : α) :
    (m.put key first).put key second = m.put key second := by
  induction m with
  | nil => simp [put]
  | cons entry rest ih =>
      by_cases hit : entry.1 = key
      · simp [put, hit]
      · simp [put, hit, ih]

/-- The place of a key that is there already does not depend on what is put besides. -/
theorem put_put_comm (ne : key ≠ other) (there : key ∈ m.keys) (first second : α) :
    (m.put other first).put key second = (m.put key second).put other first := by
  induction m with
  | nil => cases there
  | cons entry rest ih =>
      obtain ⟨k, v⟩ := entry
      by_cases hit : k = key
      · subst hit
        simp [put, ne]
      · have there : key ∈ keys rest := by
          rcases List.mem_cons.1 there with same | later
          · exact absurd same.symm hit
          · exact later
        by_cases taken : k = other
        · subst taken
          simp [put, hit]
        · simp [put, hit, taken, ih there]

theorem putAll_put_comm {entries : Entries α} (missing : key ∉ entries.keys)
    (there : key ∈ m.keys) :
    (m.putAll entries).put key value = (m.put key value).putAll entries := by
  induction entries generalizing m with
  | nil => rfl
  | cons entry rest ih =>
      obtain ⟨differs, missing⟩ := not_or.1 (List.mem_cons.not.1 missing)
      rw [putAll_cons, putAll_cons, ih missing (mem_keys_put.2 (Or.inr there)),
        put_put_comm differs there]

/-- To put entries and then one more is to put them with the one more put first. -/
theorem putAll_put {entries : Entries α} (distinct : entries.keys.Nodup) (key : String)
    (value : α) :
    m.putAll (entries.put key value) = (m.putAll entries).put key value := by
  induction entries generalizing m with
  | nil => rfl
  | cons entry rest ih =>
      obtain ⟨k, v⟩ := entry
      obtain ⟨new, distinct⟩ := List.nodup_cons.1 distinct
      by_cases hit : k = key
      · subst hit
        have there : k ∈ (m.put k v).keys := mem_keys_put.2 (Or.inl rfl)
        rw [putAll_cons, putAll_put_comm new there, put_put_self]
        simp [put, putAll_cons]
      · rw [putAll_cons, ← ih distinct]
        simp [put, hit, putAll_cons]

/-- To put what is left of entries is to put the entries. -/
theorem putAll_ofList (m : Entries α) (entries : List (String × α)) :
    m.putAll (ofList entries) = m.putAll entries := by
  induction entries using List.reverseRecOn with
  | nil => rfl
  | append_singleton rest entry ih =>
      have distinct : (ofList rest).keys.Nodup := nodup_keys_putAll (m := []) List.nodup_nil
      have step : ofList (rest ++ [entry]) = (ofList rest).put entry.1 entry.2 :=
        putAll_concat [] rest entry
      rw [step, putAll_put distinct, ih, putAll_concat]

/-- Entries whose keys are distinct are put as they stand. -/
theorem ofList_eq_self (distinct : m.keys.Nodup) : ofList m = m := by
  induction m using List.reverseRecOn with
  | nil => rfl
  | append_singleton rest entry ih =>
      rw [keys, List.map_append, List.nodup_append] at distinct
      obtain ⟨rest_distinct, -, apart⟩ := distinct
      have new : entry.1 ∉ keys rest := fun mem => apart _ mem _ List.mem_cons_self rfl
      have step : ofList (rest ++ [entry]) = (ofList rest).put entry.1 entry.2 :=
        putAll_concat [] rest entry
      rw [step, ih rest_distinct, put_of_not_mem new]

/-- What is put last is found. -/
theorem get?_putAll (m : Entries α) (entries : List (String × α)) (key : String) :
    (m.putAll entries).get? key = ((ofList entries).get? key).or (m.get? key) := by
  induction entries using List.reverseRecOn with
  | nil => rfl
  | append_singleton rest entry ih =>
      rw [ofList, putAll_concat, putAll_concat, get?_put, get?_put, ih]
      split
      · rfl
      · rfl

theorem get?_ofList_eq_none_iff {entries : List (String × α)} :
    (ofList entries).get? key = none ↔ ∀ v ∈ entries, v.1 ≠ key := by
  rw [← Option.not_isSome_iff_eq_none, ofList, isSome_get?_putAll, not_or]
  refine (and_iff_right (by simp [get?])).trans ⟨fun missing v mem same => ?_, fun all mem => ?_⟩
  · exact missing (same ▸ List.mem_map_of_mem mem)
  · obtain ⟨v, v_mem, same⟩ := List.mem_map.1 mem
    exact all v v_mem same

/-- What is found of a key is its last value. -/
theorem get?_ofList_eq_some_iff_last {entries : List (String × α)} :
    (ofList entries).get? key = some value ↔
      ∃ before after, entries = before ++ (key, value) :: after ∧ ∀ v ∈ after, v.1 ≠ key := by
  constructor
  · intro found
    induction entries with
    | nil => cases found
    | cons entry rest ih =>
        have step : (ofList (entry :: rest)).get? key =
            ((ofList rest).get? key).or ((put [] entry.1 entry.2).get? key) :=
          get?_putAll (put [] entry.1 entry.2) rest key
        cases later : (ofList rest).get? key with
        | some v =>
            rw [step, later] at found
            obtain ⟨before, after, rfl, none_after⟩ := ih (later.trans found)
            exact ⟨entry :: before, after, rfl, none_after⟩
        | none =>
            rw [step, later, get?_put] at found
            split at found
            · next same =>
                refine ⟨[], rest, ?_, get?_ofList_eq_none_iff.1 later⟩
                rw [List.nil_append, same, ← Option.some.inj found]
            · cases found
  · rintro ⟨before, after, rfl, none_after⟩
    have step : ofList (before ++ (key, value) :: after) =
        ((ofList before).put key value).putAll after := putAll_append _ _ _
    rw [step, get?_putAll, get?_ofList_eq_none_iff.2 none_after, Option.none_or, get?_put_self]

/-- Where each key is given one value, that value is found, in whatever order the entries stand. -/
theorem get?_ofList_eq_some_iff {entries : Entries α}
    (single : ∀ k a b, (k, a) ∈ entries → (k, b) ∈ entries → a = b) :
    (ofList entries).get? key = some value ↔ (key, value) ∈ entries := by
  have of_found {a : α} (found : (ofList entries).get? key = some a) : (key, a) ∈ entries :=
    (mem_putAll (mem_of_get? found)).resolve_left List.not_mem_nil
  refine ⟨of_found, fun mem => ?_⟩
  have there : ((ofList entries).get? key).isSome :=
    isSome_get?_putAll.2 (Or.inr (List.mem_map_of_mem (f := (·.1)) mem))
  obtain ⟨a, found⟩ := Option.isSome_iff_exists.1 there
  rw [found, single key a value (of_found found) mem]

/-- What is found in entries that give each key one value does not depend on their order. -/
theorem get?_ofList_perm {entries others : Entries α} (perm : others.Perm entries)
    (single : ∀ k a b, (k, a) ∈ entries → (k, b) ∈ entries → a = b) :
    (ofList others).get? key = (ofList entries).get? key := by
  have single' : ∀ k a b, (k, a) ∈ others → (k, b) ∈ others → a = b := fun k a b left right =>
    single k a b (perm.subset left) (perm.subset right)
  refine Option.ext fun a => ?_
  rw [get?_ofList_eq_some_iff single, get?_ofList_eq_some_iff single', perm.mem_iff]

/-- Where keys are distinct, the order of the entries does not matter to what is found. -/
theorem get?_perm {others : Entries α} (perm : others.Perm m) (distinct : m.keys.Nodup) :
    others.get? key = m.get? key := by
  have distinct' : others.keys.Nodup :=
    (perm.map fun e : String × α => e.1).nodup_iff.2 distinct
  have single : ∀ k a b, (k, a) ∈ m → (k, b) ∈ m → a = b := fun k a b left right =>
    congrArg Prod.snd (List.inj_on_of_nodup_map distinct left right rfl)
  rw [← ofList_eq_self distinct', get?_ofList_perm perm single, ofList_eq_self distinct]

/-! ## Entries as lists -/

theorem get?_eq_none (missing : key ∉ m.keys) : m.get? key = none :=
  Option.not_isSome_iff_eq_none.1 (mt get?_isSome_iff.1 missing)

theorem get?_cons (entry : String × α) (rest : Entries α) (key : String) :
    get? (entry :: rest) key = if entry.1 = key then some entry.2 else rest.get? key := by
  by_cases same : entry.1 = key
  · simp [get?, same]
  · simp [get?, same]

theorem get?_append_of_not_mem {front : Entries α} (missing : key ∉ front.keys)
    (back : Entries α) : get? (front ++ back) key = back.get? key := by
  induction front with
  | nil => rfl
  | cons entry front ih =>
      obtain ⟨differs, missing⟩ := not_or.1 (List.mem_cons.not.1 missing)
      rw [List.cons_append, get?_cons, if_neg (Ne.symm differs), ih missing]

theorem put_append_of_not_mem {front : Entries α} (missing : key ∉ front.keys)
    (back : Entries α) : put (front ++ back) key value = front ++ back.put key value := by
  induction front with
  | nil => rfl
  | cons entry front ih =>
      obtain ⟨differs, missing⟩ := not_or.1 (List.mem_cons.not.1 missing)
      rw [List.cons_append, put, if_neg (by simpa using Ne.symm differs), ih missing,
        List.cons_append]

theorem keys_map_self (keys : List String) (f : String → α) :
    Entries.keys (keys.map fun key => (key, f key)) = keys := by
  rw [Entries.keys, List.map_map]
  exact List.map_id keys

theorem get?_map_self (keys : List String) (f : String → α) (key : String) :
    get? (keys.map fun key => (key, f key)) key = if key ∈ keys then some (f key) else none := by
  induction keys with
  | nil => rfl
  | cons first rest ih =>
      rw [List.map_cons, get?_cons, ih]
      by_cases here : first = key
      · subst here
        rw [if_pos rfl, if_pos List.mem_cons_self]
      · rw [if_neg here]
        simp only [List.mem_cons, Ne.symm here, false_or]

/-- Entries are known by their keys, which occur once, and by the value at each key. -/
theorem ext_of_keys {m' : Entries α} (same : m.keys = m'.keys) (once : m.keys.Nodup)
    (values : ∀ key, m.get? key = m'.get? key) : m = m' := by
  induction m generalizing m' with
  | nil => exact (List.map_eq_nil_iff.1 same.symm).symm
  | cons entry rest ih =>
      cases m' with
      | nil => cases same
      | cons entry' rest' =>
          obtain ⟨first, same⟩ : entry.1 = entry'.1 ∧ keys rest = keys rest' := List.cons.inj same
          obtain ⟨new, once⟩ := List.nodup_cons.1 once
          have value := values entry.1
          rw [get?_cons, get?_cons, if_pos rfl, if_pos first.symm] at value
          have others : rest = rest' := by
            refine ih same once fun key => ?_
            by_cases here : entry.1 = key
            · subst here
              rw [get?_eq_none new, get?_eq_none (same ▸ new)]
            · have later := values key
              rwa [get?_cons, get?_cons, if_neg here, if_neg (first ▸ here)] at later
          rw [Prod.ext first (Option.some.inj value), others]

end Entries

end Flowline
