import Flowline.Proofs.Json.Entries
import Flowline.Proofs.Text.Trim
import Flowline.Proofs.Xml.Printing

/-!
# Reading printed tags and text

What is printed has no markup of its own, so the text is cut where it was put together: a chunk of
text ends at the next opening angle bracket, and a tag at the next closing one.

* `unescape?_escape`, `strip_escape`: the references of a text, and the blanks at its ends.
* `Markup.scan_chunk`, `scan_opening`, `scan_selfClosing`, `Markup.scan_closing`: the pieces.
* `ofTag_tag`: the name and the attributes in a tag.
-/

namespace Flowline

namespace Xml

/-! ## Names -/

/-- The characters that mean something around names, and so do not stand in them. -/
def marks : List Char :=
  [' ', '\t', '\n', '\r', '<', '>', '/', '=', '"', '\'', '!', '?', '@', '#']

theorem ne_of_isNameChar {c : Char} (inside : isNameChar c = true) : ∀ mark ∈ marks, c ≠ mark := by
  intro mark mem same
  have none_inside : marks.any isNameChar = false := by decide
  exact List.any_eq_false.1 none_inside mark mem (same ▸ inside)

theorem isSpace_of_isNameChar {c : Char} (inside : isNameChar c = true) : isSpace c = false := by
  have differs := ne_of_isNameChar inside
  simp only [marks, List.forall_mem_cons] at differs
  simp [isSpace, differs]

namespace Name

variable (name : Name)

theorem isNameChar_of_mem {c : Char} (mem : c ∈ name.val) : isNameChar c = true := by
  obtain ⟨text, valid⟩ := name
  cases text with
  | nil => cases mem
  | cons first rest =>
      obtain ⟨start, others⟩ := Bool.and_eq_true_iff.1 valid
      rcases List.mem_cons.1 mem with rfl | mem
      · simp [isNameChar, start]
      · exact List.all_eq_true.1 others c mem

theorem not_mem {mark : Char} (mem : mark ∈ marks) : mark ∉ name.val :=
  fun inside => ne_of_isNameChar (name.isNameChar_of_mem inside) mark mem rfl

theorem isSpace_of_mem {c : Char} (mem : c ∈ name.val) : isSpace c = false :=
  isSpace_of_isNameChar (name.isNameChar_of_mem mem)

theorem exists_cons : ∃ first rest, name.val = first :: rest := by
  obtain ⟨text, valid⟩ := name
  cases text with
  | nil => cases valid
  | cons first rest => exact ⟨first, rest, rfl⟩

end Name

/-! ## References -/

theorem escape_cons (c : Char) (rest : List Char) :
    escape (c :: rest) = escapeChar c ++ escape rest := List.flatMap_cons

/-- A character is printed as a reference to it, or as it is. -/
theorem escapeChar_cases (c : Char) :
    (∃ name : List Char, escapeChar c = '&' :: name ++ [';'] ∧ resolve? name = some c ∧
      isSpace c = false ∧ name.all (·.isAlpha) = true) ∨
    (escapeChar c = [c] ∧ ∀ special ∈ ['<', '>', '&', '"'], c ≠ special) := by
  unfold escapeChar
  split
  · exact .inl ⟨['l', 't'], rfl, rfl, rfl, rfl⟩
  · exact .inl ⟨['g', 't'], rfl, rfl, rfl, rfl⟩
  · exact .inl ⟨['a', 'm', 'p'], rfl, rfl, rfl, rfl⟩
  · exact .inl ⟨['a', 'p', 'o', 's'], rfl, rfl, rfl, rfl⟩
  · exact .inl ⟨['q', 'u', 'o', 't'], rfl, rfl, rfl, rfl⟩
  · next less greater ampersand _ quote =>
      refine .inr ⟨rfl, ?_⟩
      simp only [List.forall_mem_cons]
      exact ⟨less, greater, ampersand, quote, nofun⟩

theorem escape_eq_nil {cs : List Char} : escape cs = [] ↔ cs = [] := by
  cases cs with
  | nil => exact iff_of_true rfl rfl
  | cons c rest =>
      rw [escape_cons]
      rcases escapeChar_cases c with ⟨name, printed, -⟩ | ⟨printed, -⟩ <;> simp [printed]

/-- What is printed has no markup in it. -/
theorem not_mem_escape {mark : Char} (mem : mark ∈ ['<', '>', '"']) (cs : List Char) :
    mark ∉ escape cs := by
  intro inside
  obtain ⟨c, -, inside⟩ := List.mem_flatMap.1 inside
  have outside : ∀ mark ∈ ['<', '>', '"'],
      mark.isAlpha = false ∧ mark ≠ '&' ∧ mark ≠ ';' ∧ mark ∈ ['<', '>', '&', '"'] := by
    simp only [List.forall_mem_cons, List.not_mem_nil, false_implies, implies_true, and_true]
    decide
  obtain ⟨not_letter, not_first, not_last, special⟩ := outside mark mem
  rcases escapeChar_cases c with ⟨name, printed, -, -, letters⟩ | ⟨printed, plain⟩
  · rw [printed, List.cons_append, List.mem_cons, List.mem_append, List.mem_singleton] at inside
    rcases inside with first | inside | last
    · exact not_first first
    · exact absurd (List.all_eq_true.1 letters mark inside) (by simp [not_letter])
    · exact not_last last
  · rw [printed, List.mem_singleton] at inside
    exact plain mark special inside.symm

/-- Reading a reference whose name is made of letters. -/
theorem unescape?_reference {name : List Char} (letters : name.all (·.isAlpha) = true)
    (taken rest : List Char) :
    unescape? (some taken) (name ++ ';' :: rest) =
      (resolve? (taken.reverse ++ name)).bind fun c => (unescape? none rest).map (c :: ·) := by
  induction name generalizing taken with
  | nil =>
      rw [List.nil_append, List.append_nil, unescape?]
      cases resolve? taken.reverse with
      | none => rfl
      | some c => cases unescape? none rest <;> rfl
  | cons c name ih =>
      obtain ⟨letter, letters⟩ := Bool.and_eq_true_iff.1 letters
      have not_last : c ≠ ';' := fun same => by cases same ▸ letter
      have not_first : c ≠ '&' := fun same => by cases same ▸ letter
      rw [List.cons_append, unescape?, if_neg not_last, if_neg not_first, ih letters,
        List.reverse_cons, List.append_assoc, List.singleton_append]

theorem unescape?_escape (cs : List Char) : unescape? none (escape cs) = some cs := by
  induction cs with
  | nil => rfl
  | cons c rest ih =>
      rw [escape_cons]
      rcases escapeChar_cases c with ⟨name, printed, resolved, -, letters⟩ | ⟨printed, plain⟩
      · rw [printed, List.append_assoc, List.cons_append, List.singleton_append, unescape?]
        simp only [if_true]
        rw [unescape?_reference letters, List.reverse_nil, List.nil_append, resolved, ih]
        rfl
      · have differs : c ≠ '&' := plain '&' (by decide)
        rw [printed, List.singleton_append, unescape?]
        simp only [differs, if_false, ih]
        rfl

/-! ## Blanks -/

theorem escapeChar_of_isSpace {c : Char} (blank : isSpace c = true) : escapeChar c = [c] := by
  rcases escapeChar_cases c with ⟨name, -, -, solid, -⟩ | ⟨printed, -⟩
  · exact absurd blank (by simp [solid])
  · exact printed

/-- The text of a character that is not blank has no blanks at its ends. -/
theorem escapeChar_of_solid {c : Char} (solid : isSpace c = false) :
    (∃ first rest, escapeChar c = first :: rest ∧ isSpace first = false) ∧
      (escapeChar c).rdropWhile isSpace = escapeChar c := by
  rcases escapeChar_cases c with ⟨name, printed, -⟩ | ⟨printed, -⟩
  · rw [printed]
    exact ⟨⟨_, _, rfl, rfl⟩, by simp [List.rdropWhile, show isSpace ';' = false from rfl]⟩
  · rw [printed]
    exact ⟨⟨_, _, rfl, solid⟩, by simp [List.rdropWhile, solid]⟩

theorem dropWhile_escape (cs : List Char) :
    (escape cs).dropWhile isSpace = escape (cs.dropWhile isSpace) := by
  induction cs with
  | nil => rfl
  | cons c rest ih =>
      rw [escape_cons]
      cases blank : isSpace c with
      | true => simp [escapeChar_of_isSpace blank, blank, ih]
      | false =>
          obtain ⟨⟨first, more, printed, solid⟩, -⟩ := escapeChar_of_solid blank
          simp [printed, solid, blank, escape_cons]

theorem rdropWhile_escape (cs : List Char) :
    (escape cs).rdropWhile isSpace = escape (cs.rdropWhile isSpace) := by
  induction cs with
  | nil => rfl
  | cons c rest ih =>
      rw [escape_cons, rdropWhile_append, ih, rdropWhile_cons]
      by_cases gone : rest.rdropWhile isSpace = []
      · rw [if_pos (escape_eq_nil.2 gone), gone]
        cases blank : isSpace c with
        | true => simp [escapeChar_of_isSpace blank, List.rdropWhile, blank, escape]
        | false => simp [(escapeChar_of_solid blank).2, escape]
      · rw [if_neg (mt escape_eq_nil.1 gone), if_neg fun both => gone both.1, escape_cons]

/-- Printing keeps the blanks at the ends of a text. -/
theorem strip_escape (cs : List Char) : strip isSpace (escape cs) = escape (strip isSpace cs) := by
  rw [strip, dropWhile_escape, rdropWhile_escape, strip]

theorem isBlank_of_isSpace (c : Char) (blank : isSpace c = true) : isBlank c = true := by
  simp only [isSpace, Bool.or_eq_true, beq_iff_eq] at blank
  rcases blank with ((rfl | rfl) | rfl) | rfl <;> rfl

/-! ## Pieces of markup -/

namespace Markup

theorem splitAt_eq {stop : Char} {front : List Char} (plain : stop ∉ front) (rest : List Char) :
    splitAt stop (front ++ stop :: rest) = (front, rest) := by
  have before : ∀ c ∈ front, (c != stop) = true := fun c mem =>
    bne_iff_ne.2 (ne_of_mem_of_not_mem mem plain)
  rw [splitAt, List.takeWhile_append_of_pos before, List.dropWhile_append_of_pos before]
  simp

/-- Text in front of a tag is one piece, or none if it is blank. -/
theorem scan_chunk {chunk : List Char} (plain : '<' ∉ chunk) (rest : List Char) :
    scan false (chunk ++ '<' :: rest) =
      (if strip isSpace chunk = [] then [] else [.text (strip isSpace chunk)]) ++
        scan true rest := by
  induction chunk with
  | nil =>
      rw [List.nil_append, scan]
      rfl
  | cons c chunk ih =>
      obtain ⟨differs, plain⟩ := not_or.1 (List.mem_cons.not.1 plain)
      rw [List.cons_append, scan]
      cases blank : isSpace c with
      | true =>
          have same : strip isSpace (c :: chunk) = strip isSpace chunk := by
            rw [strip, List.dropWhile_cons, if_pos blank, strip]
          rw [if_pos rfl, ih plain, same]
      | false =>
          have same : strip isSpace (c :: chunk) = dropEndWhile isSpace (c :: chunk) := by
            rw [strip, List.dropWhile_cons, if_neg (by simp [blank])]
            rfl
          have stays : dropEndWhile isSpace (c :: chunk) = c :: chunk.rdropWhile isSpace :=
            (rdropWhile_cons ..).trans (if_neg (by simp [blank]))
          rw [if_neg (by simp), if_neg (Ne.symm differs), splitAt_eq plain, same,
            if_neg (by simp [stays]), List.singleton_append]

theorem cut?_eq {complete : List Char → Bool} {content : List Char} (plain : '>' ∉ content)
    (taken rest : List Char) (done : complete (content.reverse ++ taken) = true) :
    cut? complete taken (content ++ '>' :: rest) = some (taken.reverse ++ content, rest) := by
  induction content generalizing taken with
  | nil =>
      rw [List.nil_append, cut?, if_pos ⟨rfl, done⟩, List.append_nil]
  | cons c content ih =>
      obtain ⟨differs, plain⟩ := not_or.1 (List.mem_cons.not.1 plain)
      rw [List.reverse_cons, List.append_assoc, List.singleton_append] at done
      rw [List.cons_append, cut?, if_neg fun both => differs both.1.symm, ih plain _ done,
        List.reverse_cons, List.append_assoc, List.singleton_append]

/-- A start tag ends at the first closing angle bracket if it has none in quotes. -/
theorem scan_tag (name : Name) {more : List Char} (plain : '>' ∉ more)
    (closed : openQuote (name.val ++ more) = none) (rest : List Char) :
    scan true (name.val ++ more ++ '>' :: rest) = ofTag (name.val ++ more) :: scan false rest := by
  have cut : cut? tagComplete [] (name.val ++ more ++ '>' :: rest) =
      some (name.val ++ more, rest) := by
    refine cut?_eq (fun mem => ?_) [] rest ?_
    · exact (List.mem_append.1 mem).elim (name.not_mem (by decide)) plain
    · simp [tagComplete, closed]
  obtain ⟨first, others, spelled⟩ := name.exists_cons
  have starts := ne_of_isNameChar (name.isNameChar_of_mem (spelled ▸ List.mem_cons_self))
  rw [spelled, List.cons_append, List.cons_append] at cut ⊢
  rw [scan]
  · split
    · next content after found =>
        rw [cut] at found
        cases found
        rfl
    · next missing =>
        rw [cut] at missing
        cases missing
  all_goals exact starts _ (by decide)

/-- An end tag ends at the next closing angle bracket. -/
theorem scan_closing (name : Name) (rest : List Char) :
    scan true ('/' :: name.val ++ '>' :: rest) = closing name.val :: scan false rest := by
  rw [List.cons_append, scan, splitAt_eq (name.not_mem (by decide))]
  have same : closingName name.val = name.val := by
    obtain ⟨first, others, spelled⟩ := name.exists_cons
    have solid {c : Char} (mem : c ∈ name.val) : isSpace c = false := name.isSpace_of_mem mem
    rw [closingName, if_neg (by simp [spelled, solid (spelled ▸ List.mem_cons_self)])]
    exact List.rdropWhile_eq_self_iff.2 fun ne => by simp [solid (List.getLast_mem ne)]
  rw [same]

/-! ### Quotes -/

theorem openQuote_append {front : List Char} (closed : openQuote front = none) (back : List Char) :
    openQuote (front ++ back) = openQuote back := by
  unfold openQuote at closed ⊢
  rw [List.foldl_append, closed]

theorem openQuote_of_plain {text : List Char} (single : '\'' ∉ text) (double : '"' ∉ text) :
    openQuote text = none := by
  induction text with
  | nil => rfl
  | cons c rest ih =>
      obtain ⟨not_single, single⟩ := not_or.1 (List.mem_cons.not.1 single)
      obtain ⟨not_double, double⟩ := not_or.1 (List.mem_cons.not.1 double)
      have closed : openQuote [c] = none := by
        simp [openQuote, Ne.symm not_single, Ne.symm not_double]
      rw [← List.singleton_append, openQuote_append closed]
      exact ih single double

theorem openQuote_quoted {text : List Char} (plain : '"' ∉ text) :
    openQuote ('"' :: text ++ ['"']) = none := by
  unfold openQuote
  rw [List.cons_append, List.foldl_cons]
  simp only [or_true, if_true]
  induction text with
  | nil => rfl
  | cons c rest ih =>
      obtain ⟨differs, plain⟩ := not_or.1 (List.mem_cons.not.1 plain)
      rw [List.cons_append, List.foldl_cons]
      dsimp only
      rw [if_neg (Ne.symm differs)]
      exact ih plain

end Markup

/-! ## Attributes -/

theorem printAttributes_cons (a : Name × List Char) (rest : List (Name × List Char)) :
    printAttributes (a :: rest) =
      ' ' :: a.1.val ++ '=' :: '"' :: escape a.2 ++ ['"'] ++ printAttributes rest :=
  List.flatMap_cons

theorem not_mem_printAttributes (attributes : List (Name × List Char)) :
    '>' ∉ printAttributes attributes := by
  induction attributes with
  | nil => exact List.not_mem_nil
  | cons a rest ih =>
      have in_name : '>' ∉ a.1.val := a.1.not_mem (by decide)
      have in_value : '>' ∉ escape a.2 := not_mem_escape (by decide) a.2
      rw [printAttributes_cons]
      simp [in_name, in_value, ih]

theorem openQuote_name (name : Name) : Markup.openQuote name.val = none :=
  Markup.openQuote_of_plain (name.not_mem (by decide)) (name.not_mem (by decide))

theorem openQuote_printAttributes (attributes : List (Name × List Char)) :
    Markup.openQuote (printAttributes attributes) = none := by
  induction attributes with
  | nil => rfl
  | cons a rest ih =>
      have blank : Markup.openQuote [' '] = none := rfl
      have sign : Markup.openQuote ['='] = none := rfl
      have plain : '"' ∉ escape a.2 := not_mem_escape (by decide) a.2
      have quoted := Markup.openQuote_quoted plain
      have split : printAttributes (a :: rest) =
          [' '] ++ (a.1.val ++ (['='] ++
            (('"' :: escape a.2 ++ ['"']) ++ printAttributes rest))) := by
        simp [printAttributes_cons]
      rw [split, Markup.openQuote_append blank, Markup.openQuote_append (openQuote_name a.1),
        Markup.openQuote_append sign, Markup.openQuote_append quoted, ih]

/-- The first attribute of a tag. -/
theorem nextAttribute?_print (name : Name) {raw : List Char} (plain : '"' ∉ raw)
    (rest : List Char) :
    nextAttribute? (' ' :: name.val ++ '=' :: '"' :: raw ++ ['"'] ++ rest) =
      some (some ((name.val, raw), rest)) := by
  obtain ⟨first, others, spelled⟩ := name.exists_cons
  have solid : isSpace first = false := name.isSpace_of_mem (spelled ▸ List.mem_cons_self)
  have inside : ∀ c ∈ others, (!(c == '=' || isSpace c)) = true := by
    intro c mem
    have in_name : c ∈ name.val := spelled ▸ List.mem_cons_of_mem _ mem
    have differs : c ≠ '=' := ne_of_isNameChar (name.isNameChar_of_mem in_name) '=' (by decide)
    simp [differs, name.isSpace_of_mem in_name]
  have front : (' ' :: name.val ++ '=' :: '"' :: raw ++ ['"'] ++ rest).dropWhile isSpace =
      first :: (others ++ '=' :: '"' :: (raw ++ '"' :: rest)) := by
    simp [spelled, solid, show isSpace ' ' = true from rfl]
  have value : (raw ++ '"' :: rest).takeWhile (· != '"') = raw := by
    rw [List.takeWhile_append_of_pos fun c mem => bne_iff_ne.2 (ne_of_mem_of_not_mem mem plain)]
    simp
  unfold nextAttribute?
  rw [front]
  dsimp only
  rw [List.takeWhile_append_of_pos inside, List.dropWhile_append_of_pos inside]
  have sign : isSpace '=' = false ∧ isSpace '"' = false := ⟨rfl, rfl⟩
  simp [sign, value, Markup.splitAt_eq plain, spelled]

/-- The attributes of a tag are read as they are. -/
theorem readAttributes_print {attributes : List (Name × List Char)}
    (distinct : (attributes.map (·.1)).Nodup) {seen : Entries Json}
    (new : ∀ a ∈ attributes, (attributeMember a).1 ∉ seen.keys) {steps : Nat}
    (enough : attributes.length ≤ steps) :
    readAttributes steps seen (printAttributes attributes) =
      .ok (seen ++ attributes.map attributeMember) := by
  induction attributes generalizing seen steps with
  | nil =>
      rw [List.map_nil, List.append_nil]
      cases steps <;> rfl
  | cons a rest ih =>
      cases steps with
      | zero => cases enough
      | succ steps =>
          obtain ⟨other_names, distinct⟩ := List.nodup_cons.1 distinct
          obtain ⟨new_key, new⟩ := List.forall_mem_cons.1 new
          have missing : seen.has (attributeMember a).1 = false := by
            rw [Entries.has_eq_isSome, Bool.eq_false_iff]
            exact mt Entries.get?_isSome_iff.1 new_key
          have new_then : ∀ b ∈ rest,
              (attributeMember b).1 ∉ (seen ++ [attributeMember a]).keys := by
            intro b mem held
            rw [Entries.keys, List.map_append, List.mem_append] at held
            rcases held with old | same
            · exact new b mem old
            · have same : (attributeMember b).1 = (attributeMember a).1 := List.mem_singleton.1 same
              have names : b.1.val = a.1.val := (List.cons.inj (String.ofList_inj.1 same)).2
              exact other_names (List.mem_map.2 ⟨b, mem, Subtype.ext names⟩)
          rw [printAttributes_cons, readAttributes,
            nextAttribute?_print a.1 (not_mem_escape (by decide) a.2)]
          dsimp only
          rw [unescape?_escape, if_neg (by exact Bool.eq_false_iff.1 missing)]
          have put : Entries.put seen (attributeMember a).1 (attributeMember a).2 =
              seen ++ [attributeMember a] := Entries.put_of_not_mem new_key
          change readAttributes steps (Entries.put seen (attributeMember a).1 (attributeMember a).2)
            (printAttributes rest) = _
          rw [put, ih distinct new_then (Nat.le_of_succ_le_succ enough), List.map_cons,
            List.append_assoc, List.singleton_append]

/-! ## Tags -/

theorem getLast?_tag (name : Name) (attributes : Attributes) :
    (tag name attributes).getLast? ≠ some '/' := by
  intro last
  unfold tag at last
  rcases List.eq_nil_or_concat attributes.entries with empty | ⟨front, a, split⟩
  · rw [empty] at last
    have in_name : '/' ∈ name.val := by
      simpa [printAttributes] using List.mem_of_getLast? last
    exact name.not_mem (by decide) in_name
  · have ends : printAttributes (front.concat a) =
        printAttributes front ++ (' ' :: a.1.val ++ '=' :: '"' :: escape a.2) ++ ['"'] := by
      simp [printAttributes]
    rw [split, ends, ← List.append_assoc, List.getLast?_concat] at last
    cases last

theorem length_le_printAttributes (attributes : List (Name × List Char)) :
    attributes.length ≤ (printAttributes attributes).length := by
  induction attributes with
  | nil => exact Nat.le_refl _
  | cons a rest ih =>
      rw [printAttributes_cons, List.length_cons, List.length_append, List.cons_append]
      simp only [List.length_cons, List.cons_append]
      omega

/-- The element of a tag has the attributes as its members. -/
theorem ofTag_tag (name : Name) (attributes : Attributes) :
    Element.ofTag (tag name attributes) = .ok ⟨name.val, attributes.members, []⟩ := by
  have solid : ∀ c ∈ name.val, (!isSpace c) = true := fun c mem => by
    simp [name.isSpace_of_mem mem]
  have blank : isSpace ' ' = true := rfl
  have behind : (printAttributes attributes.entries).takeWhile (!isSpace ·) = [] ∧
      (printAttributes attributes.entries).dropWhile (!isSpace ·) =
        printAttributes attributes.entries := by
    cases attributes.entries with
    | nil => exact ⟨rfl, rfl⟩
    | cons a rest => simp [printAttributes_cons, blank]
  unfold Element.ofTag tag
  rw [List.takeWhile_append_of_pos solid, List.dropWhile_append_of_pos solid, behind.1, behind.2,
    List.append_nil]
  have nothing_seen : ∀ a ∈ attributes.entries,
      (attributeMember a).1 ∉ Entries.keys ([] : Entries Json) := fun _ _ => List.not_mem_nil
  have read := readAttributes_print attributes.distinct nothing_seen
    (Nat.le_succ_of_le (length_le_printAttributes attributes.entries))
  dsimp only
  rw [read]
  rfl

theorem scan_opening (name : Name) (attributes : Attributes) (rest : List Char) :
    Markup.scan true (tag name attributes ++ '>' :: rest) =
      .opening (tag name attributes) :: Markup.scan false rest := by
  have closed : Markup.openQuote (tag name attributes) = none := by
    rw [tag, Markup.openQuote_append (openQuote_name name), openQuote_printAttributes]
  have scanned : Markup.scan true (tag name attributes ++ '>' :: rest) =
      Markup.ofTag (tag name attributes) :: Markup.scan false rest :=
    Markup.scan_tag name (not_mem_printAttributes attributes.entries) closed rest
  rw [scanned, Markup.ofTag, if_neg (getLast?_tag name attributes)]

theorem scan_selfClosing (name : Name) (attributes : Attributes) (rest : List Char) :
    Markup.scan true (tag name attributes ++ '/' :: '>' :: rest) =
      .selfClosing (tag name attributes) :: Markup.scan false rest := by
  have split : tag name attributes ++ ['/'] =
      name.val ++ (printAttributes attributes.entries ++ ['/']) := List.append_assoc ..
  have closed : Markup.openQuote (name.val ++ (printAttributes attributes.entries ++ ['/'])) =
      none := by
    rw [Markup.openQuote_append (openQuote_name name),
      Markup.openQuote_append (openQuote_printAttributes attributes.entries)]
    rfl
  have plain : '>' ∉ printAttributes attributes.entries ++ ['/'] :=
    List.not_mem_append (not_mem_printAttributes attributes.entries) (by decide)
  have scanned := Markup.scan_tag name plain closed rest
  rw [← split, Markup.ofTag, if_pos List.getLast?_concat, List.dropLast_concat, List.append_assoc]
    at scanned
  exact scanned

end Xml

end Flowline
