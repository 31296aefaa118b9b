import Flowline.Json.Decode
import Flowline.Json.Encode
import Flowline.Proofs.Calendar.Timestamp
import Flowline.Proofs.Except
import Flowline.Proofs.Json.Entries

/-!
# Decoding what was encoded

A decoder takes more than an encoder writes: records as arrays, members in any order, fields that
are missing. `Decoder.Recovers d encode` says that a value which `d` has read, from whatever form,
is read again from its encoding, in a record that was kept as well as in one that was not.

* `Decoder.recovers_string` and its like: the values without parts.
* `Fields.recovers_required`, `recovers_withDefault`, `recovers_optional`: a field is read again
  from members that hold its encoding under its name.
* `Fields.gives_seq`, `finds_seq`: what fields have given is what their parts have given, and they
  find what their parts find.
* `Fields.recovers_record`, `recovers_tagged`: records, and records of several kinds.
-/

namespace Flowline

/-! ## Values with one member of each name -/

namespace Json

theorem settledMembers_eq_map (members : List (String × Json)) :
    settledMembers members = members.map fun m => (m.1, m.2.settled) := by
  induction members with
  | nil => rfl
  | cons m rest ih => rw [settledMembers, ih, List.map_cons]

/-- Members whose values are settled stay as they are. -/
theorem settledMembers_of_settled {members : List (String × Json)}
    (each : ∀ m ∈ members, m.2.settled = m.2) : settledMembers members = members := by
  rw [settledMembers_eq_map]
  refine (List.map_congr_left fun m mem => ?_).trans (List.map_id members)
  rw [each m mem]
  rfl

mutual

theorem settled_settled : ∀ v : Json, v.settled.settled = v.settled
  | .null => rfl
  | .bool _ => rfl
  | .int _ => rfl
  | .float _ => rfl
  | .str _ => rfl
  | .arr elements => by simp only [settled, settledElements_settledElements elements]
  | .obj members => by
      have each : ∀ m ∈ Entries.ofList (settledMembers members), m.2.settled = m.2 := fun m mem =>
        settled_of_mem_settledMembers members m
          ((Entries.mem_putAll mem).resolve_left List.not_mem_nil)
      simp only [settled]
      rw [settledMembers_of_settled each]
      exact congrArg obj (Entries.putAll_ofList [] _)

theorem settledElements_settledElements :
    ∀ elements, settledElements (settledElements elements) = settledElements elements
  | [] => rfl
  | v :: rest => by
      simp only [settledElements, settled_settled v, settledElements_settledElements rest]

theorem settled_of_mem_settledMembers :
    ∀ members, ∀ m ∈ settledMembers members, m.2.settled = m.2
  | [], m, mem => by cases mem
  | (name, v) :: rest, m, mem => by
      rcases List.mem_cons.1 mem with rfl | later
      · exact settled_settled v
      · exact settled_of_mem_settledMembers rest m later

end

theorem settled_ne_null {v : Json} (present : v ≠ .null) : v.settled ≠ .null := by
  cases v with
  | null => exact absurd rfl present
  | bool | int | float | str | arr | obj => simp [settled]

end Json

namespace Decoder

variable {α β : Type} {d : Decoder α} {encode : α → Json}

/-! ## Results that are no errors -/

theorem map_eq_ok_iff {f : α → β} {r : Except ShapeError α} {b : β} :
    f <$> r = .ok b ↔ ∃ a, r = .ok a ∧ f a = b := by
  cases r with
  | error e => simp [Functor.map, Except.map]
  | ok a => simp [Functor.map, Except.map]

theorem mapError_eq_ok_iff {ε δ : Type} {f : ε → δ} {r : Except ε α} {a : α} :
    r.mapError f = .ok a ↔ r = .ok a := by
  cases r <;> simp [Except.mapError]

/-! ## Values that are read again -/

/-- What the decoder has read it reads again from the encoding. -/
def Recovers (d : Decoder α) (encode : α → Json) : Prop :=
  ∀ kept v a, d.decode kept v = .ok a → d.decode kept (encode a) = .ok a

theorem recovers_value : Recovers value id := by
  intro kept v a read
  cases kept with
  | false => rfl
  | true =>
      cases read
      exact congrArg Except.ok (Json.settled_settled v)

theorem decode_value_null (kept : Bool) : value.decode kept .null = .ok .null := by
  cases kept <;> rfl

theorem recovers_string : Recovers string .str := fun _ _ _ _ => rfl

theorem recovers_bool : Recovers bool .bool := fun _ _ _ _ => rfl

theorem recovers_double : Recovers double .float := fun _ _ _ _ => rfl

theorem recovers_nat (limit : Nat) : Recovers (nat limit) .ofNat := by
  intro kept v n read
  cases v with
  | int m =>
      have bounds : 0 ≤ m ∧ m ≤ limit := by
        by_contra outside
        simp [nat, scalar, outside] at read
      have same : m.toNat = n := by simpa [nat, scalar, bounds] using read
      have inside : 0 ≤ (n : Int) ∧ (n : Int) ≤ limit := by omega
      simp [nat, scalar, Json.ofNat, inside]
  | null | bool | float | str | arr | obj => cases read

theorem decode_instant (kept : Bool) (s : String) :
    instant.decode kept (.str s) = (Timestamp.readLoose s).mapError .badInstant := rfl

theorem recovers_instant : Recovers instant fun t => .str t.text := by
  intro kept v t read
  cases v with
  | str s =>
      rw [decode_instant] at read
      have loose := mapError_eq_ok_iff.1 read
      rw [decode_instant, Timestamp.readLoose_text_of_readLoose loose]
      rfl
  | null | bool | int | float | arr | obj => cases read

theorem recovers_list (each : Recovers d encode) : Recovers (list d) (.ofList encode) := by
  intro kept v as read
  cases v with
  | arr elements =>
      have pairs : List.Forall₂ (fun v a => d.decode kept v = .ok a) elements as :=
        mapM_eq_ok_iff.1 read
      have again : List.Forall₂ (fun a b => d.decode kept (encode a) = .ok b) as as := by
        clear read
        induction pairs with
        | nil => exact .nil
        | cons first _ ih => exact .cons (each kept _ _ first) ih
      exact mapM_eq_ok_iff.2 (List.forall₂_map_left_iff.2 again)
  | null | bool | int | float | str | obj => cases read

theorem mem_of_lookup {names : List (String × α)} {s : String} {a : α}
    (found : names.lookup s = some a) : (s, a) ∈ names := by
  obtain ⟨before, after, rfl, -⟩ := List.lookup_eq_some_iff.1 found
  simp

/-- Where no name stands twice, an entry is found by its name. -/
theorem lookup_of_mem {names : List (String × α)} {s : String} {a : α}
    (distinct : (names.map (·.1)).Nodup) (mem : (s, a) ∈ names) : names.lookup s = some a := by
  obtain ⟨before, after, rfl⟩ := List.append_of_mem mem
  refine List.lookup_eq_some_iff.2 ⟨before, after, rfl, fun other other_mem => ?_⟩
  rw [List.map_append, List.map_cons] at distinct
  have apart := (List.nodup_append.1 distinct).2.2 other.1 (List.mem_map_of_mem other_mem) s
    List.mem_cons_self
  exact bne_iff_ne.2 (Ne.symm apart)

theorem mem_of_lookup_elim {names : List (String × α)} {s : String} {a : α} {e : ShapeError}
    (read : (names.lookup s).elim (.error e) Except.ok = .ok a) : (s, a) ∈ names := by
  cases found : names.lookup s with
  | none => simp [found] at read
  | some b =>
      have same : b = a := by simpa [found] using read
      exact mem_of_lookup (same ▸ found)

/-- What a variant gives is one of the cases that have a name. -/
theorem exists_name_of_variant {names : List (String × α)} {kept : Bool} {v : Json} {a : α}
    (read : (variant names).decode kept v = .ok a) : ∃ s, (s, a) ∈ names := by
  simp only [variant] at read
  split at read
  · exact ⟨_, mem_of_lookup_elim read⟩
  · next s content =>
      refine ⟨s, ?_⟩
      split at read
      · cases read
      · next found => exact mem_of_lookup (Except.ok.inj read ▸ found)
      · next found =>
          split at read
          · exact mem_of_lookup (Except.ok.inj read ▸ found)
          · cases read
      · cases read
  · cases read
  · cases read

/-- A case is read again from the name that is written for it, where no name stands for two. -/
theorem recovers_variant [DecidableEq α] {names : List (String × α)}
    (distinct : (names.map (·.1)).Nodup) : Recovers (variant names) (.ofName names) := by
  intro kept v a read
  obtain ⟨s, mem⟩ := exists_name_of_variant read
  obtain ⟨entry, found⟩ : ∃ entry, names.find? (fun e => e.2 = a) = some entry :=
    Option.isSome_iff_exists.1 (List.find?_isSome.2 ⟨(s, a), mem, by simp⟩)
  have case : entry.2 = a := by simpa using List.find?_some found
  have listed : (entry.1, a) ∈ names := case ▸ List.mem_of_find?_eq_some found
  show (names.lookup (((names.find? fun e => e.2 = a).map (·.1)).getD "")).elim _ _ = _
  rw [found, Option.map_some, Option.getD_some, lookup_of_mem distinct listed]
  rfl

theorem decode_nullable_of_ne {v : Json} (present : v ≠ .null) (kept : Bool) :
    (nullable d).decode kept v = (d.decode kept v).map some := by
  cases v with
  | null => exact absurd rfl present
  | bool | int | float | str | arr | obj => rfl

/-- What the decoder has read from anything but null is not written as null. -/
def Present (d : Decoder α) (encode : α → Json) : Prop :=
  ∀ kept v a, v ≠ .null → d.decode kept v = .ok a → encode a ≠ .null

theorem present_of_ne_null (never : ∀ a, encode a ≠ .null) : Present d encode :=
  fun _ _ a _ _ => never a

theorem present_value : Present value id := by
  intro kept v a there read
  cases read
  cases kept with
  | false => exact there
  | true => exact Json.settled_ne_null there

/-- A value that was there is read again from the value alone. -/
theorem decode_nullable_some {kept : Bool} {v : Json} {a : α} (recovers : Recovers d encode)
    (present : Present d encode) (read : (nullable d).decode kept v = .ok (some a)) :
    (nullable d).decode kept (encode a) = .ok (some a) := by
  have there : v ≠ .null := by
    rintro rfl
    cases read
  rw [decode_nullable_of_ne there] at read
  obtain ⟨b, found, same⟩ := map_eq_ok_iff.1 read
  cases same
  rw [decode_nullable_of_ne (present kept v a there found), recovers kept v a found]
  rfl

end Decoder

namespace Entries

variable {α : Type}

/-- The values that stand under a name. -/
def valuesOf (name : String) (members : Entries α) : List α :=
  (members.filter (·.1 == name)).map (·.2)

@[simp] theorem valuesOf_nil (name : String) : valuesOf name ([] : Entries α) = [] := rfl

@[simp] theorem valuesOf_cons (name key : String) (value : α) (rest : Entries α) :
    valuesOf name ((key, value) :: rest) =
      if key = name then value :: valuesOf name rest else valuesOf name rest := by
  by_cases same : key = name
  · simp [valuesOf, same]
  · simp [valuesOf, same]

@[simp] theorem valuesOf_append (name : String) (first second : Entries α) :
    valuesOf name (first ++ second) = valuesOf name first ++ valuesOf name second := by
  simp [valuesOf]

@[simp] theorem valuesOf_optional (name key : String) (encode : α → Json) (value : Option α) :
    valuesOf name (Json.optional key encode value) =
      if key = name then (value.map encode).toList else [] := by
  cases value with
  | none => simp [Json.optional]
  | some a => simp [Json.optional]

end Entries

namespace Fields

open Decoder

variable {α β : Type} {d : Decoder α} {encode : α → Json} {name : String} {kept : Bool}

/-- The fields have read this from some record. -/
def Gives (f : Fields α) (kept : Bool) (a : α) : Prop :=
  ∃ source place, f.read kept source place = .ok a

/-- The fields read this from a record with these members, wherever they stand among others. -/
def Finds (f : Fields α) (kept : Bool) (members : Entries Json) (a : α) : Prop :=
  ∀ place, f.read kept (.named members) place = .ok a

/-- What the field has given it finds in members that hold what is written for it. -/
def Recovers (f : Fields α) (name : String) (write : α → List Json) : Prop :=
  ∀ ⦃kept a⦄, f.Gives kept a → ∀ ⦃members : Entries Json⦄,
    members.valuesOf name = write a → f.Finds kept members a

/-! ## Fields put together -/

theorem both_eq_ok_iff {f : Except FieldFault (α → β)} {r : Except FieldFault α} {b : β} :
    both f r = .ok b ↔ ∃ h a, f = .ok h ∧ r = .ok a ∧ h a = b := by
  cases f <;> cases r <;> simp [both]

/-- What is so whatever the parts have given is so of what the whole has given. -/
theorem gives_seq {f : Fields (α → β)} {x : Fields α} {P : β → Prop}
    (each : ∀ h, f.Gives kept h → ∀ a, x.Gives kept a → P (h a)) :
    ∀ b, (f <*> x).Gives kept b → P b := by
  rintro b ⟨source, place, read⟩
  obtain ⟨h, a, read_h, read_a, rfl⟩ := both_eq_ok_iff.1 read
  exact each h ⟨source, _, read_h⟩ a ⟨source, _, read_a⟩

theorem gives_map {h : α → β} {x : Fields α} {P : β → Prop}
    (each : ∀ a, x.Gives kept a → P (h a)) : ∀ b, (h <$> x).Gives kept b → P b := by
  rintro b ⟨source, place, read⟩
  obtain ⟨h', a, read_h, read_a, rfl⟩ := both_eq_ok_iff.1 read
  cases read_h
  exact each a ⟨source, _, read_a⟩

variable {members : Entries Json}

theorem Finds.seq {f : Fields (α → β)} {x : Fields α} {h : α → β} {a : α}
    (first : f.Finds kept members h) (second : x.Finds kept members a) :
    (f <*> x).Finds kept members (h a) :=
  fun _ => both_eq_ok_iff.2 ⟨h, a, first _, second _, rfl⟩

theorem Finds.map {x : Fields α} {a : α} (h : α → β) (found : x.Finds kept members a) :
    (h <$> x).Finds kept members (h a) :=
  fun _ => both_eq_ok_iff.2 ⟨h, a, rfl, found _, rfl⟩

/-! ## One field -/

theorem occurrences_values (name : String) (members : Entries Json) :
    (occurrences name members).map (·.2) = members.valuesOf name := by
  unfold occurrences
  generalize 0 = place
  induction members generalizing place with
  | nil => rfl
  | cons m rest ih =>
      obtain ⟨key, v⟩ := m
      rw [List.zipIdx_cons, List.filterMap_cons, Entries.valuesOf_cons, ← ih (place + 1)]
      by_cases same : key = name
      · simp [same]
      · simp [same]

/-- A field gives what its decoder reads, or what it is when it is not there. -/
theorem gives_field {missing : Except ShapeError α} {a : α}
    (given : (field name d missing).Gives kept a) :
    missing = .ok a ∨ ∃ v, d.decode kept v = .ok a := by
  obtain ⟨source, place, read⟩ := given
  simp only [field] at read
  split at read
  · split at read
    · exact Or.inl (mapError_eq_ok_iff.1 read)
    · exact Or.inr ⟨_, mapError_eq_ok_iff.1 read⟩
    · split at read
      · cases read
      · cases read
  · split at read
    · exact Or.inr ⟨_, mapError_eq_ok_iff.1 read⟩
    · exact Or.inl (mapError_eq_ok_iff.1 read)

theorem finds_field {missing : Except ShapeError α} {a : α} {v : Json}
    (single : members.valuesOf name = [v]) (read : d.decode kept v = .ok a) :
    (field name d missing).Finds kept members a := by
  intro place
  rw [← occurrences_values] at single
  obtain ⟨⟨position, v'⟩, there, same⟩ := List.map_eq_singleton_iff.1 single
  cases same
  simp [field, there, read, Except.mapError]

theorem finds_missing {missing : Except ShapeError α} {a : α}
    (none_there : members.valuesOf name = []) (default : missing = .ok a) :
    (field name d missing).Finds kept members a := by
  intro place
  rw [← occurrences_values] at none_there
  simp [field, List.map_eq_nil_iff.1 none_there, default, Except.mapError]

theorem recovers_required (recovers : d.Recovers encode) :
    (required name d).Recovers name fun a => [encode a] := by
  intro kept a given members single
  obtain none_there | ⟨v, read⟩ := gives_field given
  · cases none_there
  · exact finds_field single (recovers kept v a read)

theorem recovers_withDefault {value : α} (recovers : d.Recovers encode)
    (default : ∀ kept, d.decode kept (encode value) = .ok value) :
    (withDefault name d value).Recovers name fun a => [encode a] := by
  intro kept a given members single
  obtain same | ⟨v, read⟩ := gives_field given
  · cases same
    exact finds_field single (default kept)
  · exact finds_field single (recovers kept v a read)

theorem recovers_optional (recovers : d.Recovers encode) (present : d.Present encode) :
    (Fields.optional name d).Recovers name fun a => (a.map encode).toList := by
  intro kept a given members there
  cases a with
  | none => exact finds_missing there rfl
  | some b =>
      obtain same | ⟨v, read⟩ := gives_field given
      · cases same
      · exact finds_field there (decode_nullable_some recovers present read)

/-! ## Records -/

theorem gives_of_record {f : Fields α} {v : Json} {a : α}
    (read : (record f).decode kept v = .ok a) : f.Gives kept a := by
  simp only [record] at read
  split at read
  · exact ⟨_, _, mapError_eq_ok_iff.1 read⟩
  · split at read
    · next whole =>
        split at read
        · cases read
          exact ⟨_, _, whole⟩
        · cases read
    · cases read
  · cases read

theorem decode_record_of_finds {f : Fields α} {a : α} (found : f.Finds kept members a) :
    (record f).decode kept (.obj members) = .ok a :=
  mapError_eq_ok_iff.2 (found 0)

/-- A record is read again from its members, if its fields find what they have given. -/
theorem recovers_record {f : Fields α} {members : α → Entries Json}
    (each : ∀ kept a, f.Gives kept a → f.Finds kept (members a) a) :
    (record f).Recovers fun a => .obj (members a) :=
  fun kept _ a read => decode_record_of_finds (each kept a (gives_of_record read))

/-- What is read of a kind is read again, and its members leave the tag to the kind. -/
def RecoversKind (tag : String) (encode : α → Json) (kind : String × Decoder α) : Prop :=
  ∀ v a, kind.2.decode true v = .ok a → ∃ members : Entries Json,
    encode a = .obj ((tag, .str kind.1) :: members) ∧ members.valuesOf tag = [] ∧
      kind.2.decode true (.obj members) = .ok a

/-- A kind whose content is a record of its own recovers what that record recovers. -/
theorem recoversKind_map {tag kindName : String} {c : β → α} {inner : Decoder β}
    {members : β → Entries Json} (recovers : inner.Recovers fun b => .obj (members b))
    (written : ∀ b, encode (c b) = .obj ((tag, .str kindName) :: members b))
    (untagged : ∀ b, (members b).valuesOf tag = []) :
    RecoversKind tag encode (kindName, c <$> inner) := by
  intro v a read
  obtain ⟨b, read_b, rfl⟩ := map_eq_ok_iff.1 read
  exact ⟨members b, written b, untagged b, map_eq_ok_iff.2 ⟨b, recovers true v b read_b, rfl⟩⟩

/-- A kind that is a record recovers what its fields find. -/
theorem recoversKind_record {tag kindName : String} {f : Fields α}
    (each : ∀ a, f.Gives true a → ∃ members : Entries Json,
      encode a = .obj ((tag, .str kindName) :: members) ∧ members.valuesOf tag = [] ∧
        f.Finds true members a) :
    RecoversKind tag encode (kindName, record f) := by
  intro v a read
  obtain ⟨members, written, untagged, found⟩ := each a (gives_of_record read)
  exact ⟨members, written, untagged, decode_record_of_finds found⟩

theorem exists_kind_of_kindOf {kinds : List (String × Decoder α)} {v : Json} {d : Decoder α}
    (named : kindOf kinds kept v = .ok d) : ∃ kind ∈ kinds, kind.2 = d := by
  unfold kindOf at named
  split at named
  · exact ⟨_, mem_of_lookup_elim named, rfl⟩
  · split at named
    · cases named
    · split at named
      · next kind found => exact ⟨kind, List.mem_of_getElem? found, Except.ok.inj named⟩
      · cases named
  · cases named

/-- What is read of a record with a tag is read by one of its kinds. -/
theorem exists_kind_of_tagged {tag : String} {kinds : List (String × Decoder α)} {v : Json}
    {a : α} (read : (tagged tag kinds).decode kept v = .ok a) :
    ∃ kind ∈ kinds, ∃ v, kind.2.decode true v = .ok a := by
  have of_bind {tagValue content : Json}
      (read : (do (← kindOf kinds kept tagValue).decode true content) = .ok a) :
      ∃ kind ∈ kinds, ∃ v, kind.2.decode true v = .ok a := by
    cases named : kindOf kinds kept tagValue with
    | error e => simp [named, bind, Except.bind] at read
    | ok d =>
        obtain ⟨kind, mem, rfl⟩ := exists_kind_of_kindOf named
        exact ⟨kind, mem, content, by simpa [named, bind, Except.bind] using read⟩
  have throws {tagValue : Json} {e : ShapeError} :
      (do discard (kindOf kinds kept tagValue); throw e : Except ShapeError α) ≠ .ok a := by
    cases kindOf kinds kept tagValue with
    | error e => exact nofun
    | ok d => exact nofun
  simp only [tagged] at read
  split at read
  · split at read
    · cases read
    · exact of_bind read
    · exact absurd read throws
  · cases read
  · exact of_bind read
  · cases read

theorem remove_of_valuesOf {tag : String} (untagged : members.valuesOf tag = []) (v : Json) :
    Entries.remove ((tag, v) :: members) tag = members := by
  have others : ∀ m ∈ members, (m.1 != tag) = true := by
    intro m mem
    have differs := List.filter_eq_nil_iff.1 (List.map_eq_nil_iff.1 untagged) m mem
    simpa using differs
  rw [Entries.remove, List.filter_cons_of_neg (by simp), List.filter_eq_self.2 others]

/-- The kind that the first member names reads the others. -/
theorem decode_tagged {tag : String} {kinds : List (String × Decoder α)}
    {kind : String × Decoder α} (distinct : (kinds.map (·.1)).Nodup) (mem : kind ∈ kinds)
    (untagged : members.valuesOf tag = []) :
    (tagged tag kinds).decode kept (.obj ((tag, .str kind.1) :: members)) =
      kind.2.decode true (.obj members) := by
  have single := occurrences_values tag ((tag, .str kind.1) :: members)
  rw [Entries.valuesOf_cons, if_pos rfl, untagged] at single
  obtain ⟨⟨position, tagValue⟩, there, same⟩ := List.map_eq_singleton_iff.1 single
  cases same
  have named : kindOf kinds kept (.str kind.1) = .ok kind.2 := by
    rw [kindOf, lookup_of_mem distinct mem, Option.elim_some]
  simp only [tagged, there, named, remove_of_valuesOf untagged]
  rfl

theorem recovers_tagged {tag : String} {kinds : List (String × Decoder α)}
    (distinct : (kinds.map (·.1)).Nodup) (each : ∀ kind ∈ kinds, RecoversKind tag encode kind) :
    (tagged tag kinds).Recovers encode := by
  intro kept v a read
  obtain ⟨kind, mem, content, read_a⟩ := exists_kind_of_tagged read
  obtain ⟨members, written, untagged, read_again⟩ := each kind mem content a read_a
  rw [written, decode_tagged distinct mem untagged, read_again]

end Fields

end Flowline
