import Flowline.Settings
import Flowline.Proofs.Json.Entries
import Flowline.Proofs.Text.Splitting
import Flowline.Proofs.Text.Trim
import Mathlib.Data.List.Forall2

/-!
# Lists of connections

A list of connections is read entry by entry, and an entry as the connection that it spells.  So
lists that are put together are read one after the other, an entry that spells no connection does
not count, and what is written out is read back, in whatever order and with whatever blanks.

* `connection?_eq_some_iff`: an entry is read as the connection that it spells.
* `readConnections_append`, `readConnections_eq_nil`, `readConnections_intercalate`: what is read of
  lists that are put together, of an entry that is malformed, and of a list that is written out.
* `reads_connections`: all of it together.
-/

namespace Flowline

/-- An id and a path that can stand in a list: neither is empty, begins or ends with a blank or has
a comma, and the id has no equals sign. -/
structure Listable (connection : String × String) : Prop where
  trim_id : trim connection.1 = connection.1
  trim_path : trim connection.2 = connection.2
  id_ne : connection.1 ≠ ""
  path_ne : connection.2 ≠ ""
  comma_id : ',' ∉ connection.1.toList
  comma_path : ',' ∉ connection.2.toList
  equals_id : '=' ∉ connection.1.toList

/-- The text spells the connection: its id, an equals sign and its path, with blanks around the id
and around the path. -/
inductive Spells (connection : String × String) : String → Prop where
  | padded {a b c d : String} (a_blank : allBlank a = true) (b_blank : allBlank b = true)
    (c_blank : allBlank c = true) (d_blank : allBlank d = true) :
    Spells connection (a ++ connection.1 ++ b ++ "=" ++ (c ++ connection.2 ++ d))

/-! ## One entry -/

/-- What is read of an entry are the two sides of its first equals sign, trimmed, if something is
left of both. -/
theorem connection?_eq_some_iff_split {entry : String} {connection : String × String} :
    connection? entry.toList = some connection ↔
      ∃ left right : String, entry = left ++ "=" ++ right ∧ '=' ∉ left.toList ∧
        trim left = connection.1 ∧ trim right = connection.2 ∧
        connection.1 ≠ "" ∧ connection.2 ≠ "" := by
  have sides : connection? entry.toList = some connection ↔
      ∃ left right, splitFirst? '=' entry.toList = some (left, right) ∧
        trimChars left ≠ [] ∧ trimChars right ≠ [] ∧
        (String.ofList (trimChars left), String.ofList (trimChars right)) = connection := by
    simp [connection?, Option.bind_eq_some_iff, not_or, and_assoc]
  rw [sides]
  constructor
  · rintro ⟨left, right, split, id_ne, path_ne, rfl⟩
    obtain ⟨parts, equals⟩ := splitFirst?_eq_some_iff.1 split
    refine ⟨String.ofList left, String.ofList right, ?_, ?_, ?_, ?_, ?_, ?_⟩
    · simp [← String.toList_inj, parts]
    · rwa [String.toList_ofList]
    · rw [trim, String.toList_ofList]
    · rw [trim, String.toList_ofList]
    · simpa using id_ne
    · simpa using path_ne
  · rintro ⟨left, right, rfl, equals, id_eq, path_eq, id_ne, path_ne⟩
    refine ⟨left.toList, right.toList, splitFirst?_eq_some_iff.2 ⟨by simp, equals⟩, ?_, ?_, ?_⟩
    · intro gone
      rw [← id_eq, trim, gone] at id_ne
      exact id_ne rfl
    · intro gone
      rw [← path_eq, trim, gone] at path_ne
      exact path_ne rfl
    · exact Prod.ext id_eq path_eq

theorem notMem_of_blank {text : String} {c : Char} (blank : allBlank text = true)
    (dark : isBlank c = false) : c ∉ text.toList := fun mem =>
  Bool.false_ne_true (dark.symm.trans (allBlank_iff.1 blank c mem))

/-- An entry is read as the connection that it spells. -/
theorem connection?_eq_some_iff {entry : String} {connection : String × String}
    (whole : ',' ∉ entry.toList) :
    connection? entry.toList = some connection ↔ Listable connection ∧ Spells connection entry := by
  rw [connection?_eq_some_iff_split]
  constructor
  -- the blanks around the id and the path are those that trimming has taken away
  · rintro ⟨left, right, rfl, equals, id_eq, path_eq, id_ne, path_ne⟩
    simp only [String.toList_append, List.mem_append, not_or] at whole
    refine ⟨⟨?_, ?_, id_ne, path_ne, ?_, ?_, ?_⟩, ?_⟩
    · rw [← id_eq, trim_trim]
    · rw [← path_eq, trim_trim]
    · rw [← id_eq]
      exact fun mem => whole.1.1 (toList_trim_subset left mem)
    · rw [← path_eq]
      exact fun mem => whole.2 (toList_trim_subset right mem)
    · rw [← id_eq]
      exact fun mem => equals (toList_trim_subset left mem)
    · obtain ⟨a, b, a_blank, b_blank, left_parts⟩ := exists_trim_between left
      obtain ⟨c, d, c_blank, d_blank, right_parts⟩ := exists_trim_between right
      rw [left_parts, right_parts, id_eq, path_eq]
      exact .padded a_blank b_blank c_blank d_blank
  · rintro ⟨listable, @⟨a, b, c, d, a_blank, b_blank, c_blank, d_blank⟩⟩
    refine ⟨a ++ connection.1 ++ b, c ++ connection.2 ++ d, rfl, ?_, ?_, ?_, listable.id_ne,
      listable.path_ne⟩
    · simp only [String.toList_append, List.mem_append, not_or]
      exact ⟨⟨notMem_of_blank a_blank rfl, listable.equals_id⟩, notMem_of_blank b_blank rfl⟩
    · rw [trim_between a_blank b_blank, listable.trim_id]
    · rw [trim_between c_blank d_blank, listable.trim_path]

/-! ## Lists -/

theorem nodup_keys_readConnections (list : String) : (readConnections list).keys.Nodup :=
  Entries.nodup_keys_putAll (m := []) List.nodup_nil

/-- The entries of a list that is put behind another one override those of the other one. -/
theorem readConnections_append (first second : String) :
    readConnections (first ++ "," ++ second) =
      (readConnections first).putAll (readConnections second) := by
  have pieces : splitEach ',' (first ++ "," ++ second).toList =
      splitEach ',' first.toList ++ splitEach ',' second.toList := by
    rw [← splitEach_append]
    simp
  rw [readConnections, pieces, List.filterMap_append, Entries.ofList, Entries.putAll_append]
  exact (Entries.putAll_ofList _ _).symm

/-- A list without commas has one entry. -/
theorem readConnections_of_notMem {entry : String} (whole : ',' ∉ entry.toList) :
    readConnections entry = (connection? entry.toList).toList := by
  rw [readConnections, splitEach_of_notMem whole]
  cases read : connection? entry.toList with
  | none => rw [List.filterMap_cons_none read]; rfl
  | some connection => rw [List.filterMap_cons_some read]; rfl

/-- Nothing is read of an entry that spells no connection. -/
theorem readConnections_eq_nil {entry : String} (whole : ',' ∉ entry.toList)
    (spells_none : ∀ connection, Listable connection → ¬ Spells connection entry) :
    readConnections entry = [] := by
  rw [readConnections_of_notMem whole]
  cases read : connection? entry.toList with
  | none => rfl
  | some connection =>
      obtain ⟨listable, spells⟩ := (connection?_eq_some_iff whole).1 read
      exact absurd spells (spells_none connection listable)

theorem notMem_of_spells {entry : String} {connection : String × String}
    (listable : Listable connection) (spells : Spells connection entry) :
    ',' ∉ entry.toList := by
  obtain ⟨a_blank, b_blank, c_blank, d_blank⟩ := spells
  simp only [String.toList_append, List.mem_append, not_or]
  exact ⟨⟨⟨⟨notMem_of_blank a_blank rfl, listable.comma_id⟩, notMem_of_blank b_blank rfl⟩,
    by decide⟩, ⟨notMem_of_blank c_blank rfl, listable.comma_path⟩, notMem_of_blank d_blank rfl⟩

/-- A list of entries that spell connections is read as these connections. -/
theorem readConnections_intercalate {printed : List (String × String)} {texts : List String}
    (listable : ∀ connection ∈ printed, Listable connection)
    (spelled : List.Forall₂ Spells printed texts) :
    readConnections (",".intercalate texts) = Entries.ofList printed := by
  have entries : (∀ text ∈ texts.map String.toList, ',' ∉ text) ∧
      (texts.map String.toList).filterMap connection? = printed := by
    induction spelled with
    | nil => simp
    | cons spells _ ih =>
        obtain ⟨first, later⟩ := List.forall_mem_cons.1 listable
        obtain ⟨rest_whole, rest_read⟩ := ih later
        have whole := notMem_of_spells first spells
        have read := (connection?_eq_some_iff whole).2 ⟨first, spells⟩
        refine ⟨List.forall_mem_cons.2 ⟨whole, rest_whole⟩, ?_⟩
        rw [List.map_cons, List.filterMap_cons_some read, rest_read]
  obtain ⟨whole, read⟩ := entries
  rw [readConnections, String.toList_intercalate]
  cases texts with
  | nil => cases spelled; rfl
  | cons text texts =>
      have some_text : (text :: texts).map String.toList ≠ [] := List.cons_ne_nil _ _
      have comma : ",".toList = [','] := rfl
      rw [comma, splitEach_intercalate some_text whole, read]

/-! ## The whole -/

/-- A reader of lists of connections does as it should. -/
structure ReadsConnections (read : String → Entries String) : Prop where
  /-- No id occurs twice in what is read. -/
  distinct : ∀ list, (read list).keys.Nodup
  /-- Of two lists that are put together, the second overrides the first. -/
  joins : ∀ first second, read (first ++ "," ++ second) = (read first).putAll (read second)
  overrides : ∀ first second id, (read (first ++ "," ++ second)).get? id =
    ((read second).get? id).or ((read first).get? id)
  /-- An entry that spells no connection leaves the others as they are. -/
  skips : ∀ before entry after, ',' ∉ entry.toList →
    (∀ connection, Listable connection → ¬ Spells connection entry) →
    read entry = [] ∧ read (before ++ "," ++ entry) = read before ∧
      read (entry ++ "," ++ after) = read after ∧
      read (before ++ "," ++ entry ++ "," ++ after) = read (before ++ "," ++ after)
  /-- A map that is written out, in any order and with any blanks, is read back. -/
  gives_back : ∀ (m printed : Entries String) texts, m.keys.Nodup →
    (∀ connection ∈ m, Listable connection) → printed.Perm m →
    List.Forall₂ Spells printed texts →
    read (",".intercalate texts) = printed ∧
      ∀ id, (read (",".intercalate texts)).get? id = m.get? id

/-- **Lists of connections are read entry by entry**, the last one for an id counts, and what is
written out is read back. -/
theorem reads_connections : ReadsConnections readConnections := by
  refine ⟨nodup_keys_readConnections, readConnections_append, fun first second id => ?overrides,
    fun before entry after whole spells_none => ?skips,
    fun m printed texts once listable perm spelled => ?gives_back⟩
  case overrides =>
    rw [readConnections_append, Entries.get?_putAll,
      Entries.ofList_eq_self (nodup_keys_readConnections second)]
  case skips =>
    have nothing := readConnections_eq_nil whole spells_none
    have behind : readConnections (before ++ "," ++ entry) = readConnections before := by
      rw [readConnections_append, nothing]
      rfl
    refine ⟨nothing, behind, ?_, ?_⟩
    · rw [readConnections_append, nothing]
      exact Entries.ofList_eq_self (nodup_keys_readConnections after)
    · rw [readConnections_append, behind, readConnections_append]
  case gives_back =>
    have printed_once : printed.keys.Nodup :=
      (perm.map fun connection : String × String => connection.1).nodup_iff.2 once
    have read : readConnections (",".intercalate texts) = printed := by
      rw [readConnections_intercalate (fun connection mem => listable _ (perm.subset mem)) spelled,
        Entries.ofList_eq_self printed_once]
    exact ⟨read, fun id => by rw [read, Entries.get?_perm perm once]⟩

/-- Two connections, one with an equals sign in its path, are written out the other way round and
with blanks of several kinds, and an entry without an id stands among others. -/
theorem reads_connections_awry :
    let m : Entries String := [("main", "main.db"), ("logs", "/var/logs.db?mode=ro")]
    let texts := ["\u00a0logs =\t/var/logs.db?mode=ro", "main= main.db\n"]
    let entry := " =x.db"
    m.keys.Nodup ∧ (∀ connection ∈ m, Listable connection) ∧
      List.Forall₂ Spells m.reverse texts ∧
      (∀ id, (readConnections (",".intercalate texts)).get? id = m.get? id) ∧
      (∀ connection, Listable connection → ¬ Spells connection entry) ∧
      readConnections ("main=a" ++ "," ++ entry ++ "," ++ "main=b") = [("main", "b")] := by
  intro m texts entry
  have once : m.keys.Nodup := by decide
  have listable : ∀ connection ∈ m, Listable connection := by
    simp only [m, List.forall_mem_cons]
    refine ⟨⟨?_, ?_, ?_, ?_, ?_, ?_, ?_⟩, ⟨?_, ?_, ?_, ?_, ?_, ?_, ?_⟩, nofun⟩ <;> decide +kernel
  have logs : Spells ("logs", "/var/logs.db?mode=ro") "\u00a0logs =\t/var/logs.db?mode=ro" :=
    .padded (a := "\u00a0") (b := " ") (c := "\t") (d := "") (by decide +kernel)
      (by decide +kernel) (by decide +kernel) (by decide +kernel)
  have main : Spells ("main", "main.db") "main= main.db\n" :=
    .padded (a := "") (b := "") (c := " ") (d := "\n") (by decide +kernel)
      (by decide +kernel) (by decide +kernel) (by decide +kernel)
  have spelled : List.Forall₂ Spells m.reverse texts := .cons logs (.cons main .nil)
  have whole : ',' ∉ entry.toList := by decide
  have spells_none (connection : String × String) (listable : Listable connection) :
      ¬ Spells connection entry := by
    intro spells
    have read := (connection?_eq_some_iff whole).2 ⟨listable, spells⟩
    have nothing : connection? entry.toList = none := by decide +kernel
    rw [nothing] at read
    cases read
  obtain ⟨-, back⟩ := reads_connections.gives_back m m.reverse texts once listable
    m.reverse_perm spelled
  obtain ⟨-, -, -, between⟩ := reads_connections.skips "main=a" entry "main=b" whole spells_none
  exact ⟨once, listable, spelled, back, spells_none, between.trans (by decide +kernel)⟩

end Flowline
