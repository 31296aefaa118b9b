import Flowline.Path.Reader
import Flowline.Proofs.Except
import Flowline.Proofs.Number.Numeral
import Flowline.Proofs.Text.Trim
import Mathlib.Data.List.TakeWhile

/-!
# The notation of paths

`Path.Denotes` is the notation of paths as a grammar: a first step, which is a name or a bracket,
and behind it brackets and names with a point in front.  The reader accepts what the grammar allows
and nothing else, and it reads a path in query notation as the steps that were written.

* `readBracket_eq_ok_iff`: what stands in a bracket.
* `readSteps_eq_ok_iff`: what is read from a place on is what may stand there.
* `further_bracketed`: the steps of a path, each in a bracket, are these steps.
* `reads_grammar`: all of it together.
-/

namespace Flowline

namespace Path

variable {text rest inner name : List Char} {step : Step} {steps : List Step}

/-! ## The grammar -/

/-- The characters of a name are neither points nor brackets. -/
def Plain (name : List Char) : Prop := ∀ c ∈ name, c ≠ '.' ∧ c ≠ '[' ∧ c ≠ ']'

/-- A quote of one of the two kinds. -/
def IsQuote (q : Char) : Prop := q = '\'' ∨ q = '"'

instance (q : Char) : Decidable (IsQuote q) := inferInstanceAs (Decidable (_ ∨ _))

/-- What stands in a bracket, blanks around it aside. -/
inductive StandsFor : List Char → Step → Prop
  | nothing : StandsFor [] .wildcard
  | star : StandsFor ['*'] .wildcard
  | numeral {text : List Char} {n : Nat} :
    Numeral maxWord64 text n → StandsFor text (.index n)
  | quoted {q : Char} {name : List Char} :
    IsQuote q → StandsFor (q :: (name ++ [q])) (.key (String.ofList name))

/-- The steps that stand behind a step. -/
inductive Further : List Char → List Step → Prop
  | nothing : Further [] []
  | bracket {inner rest : List Char} {step : Step} {steps : List Step} :
    ']' ∉ inner → StandsFor (trimChars inner) step → Further rest steps →
    Further ('[' :: (inner ++ ']' :: rest)) (step :: steps)
  | name {c : Char} {name rest : List Char} {steps : List Step} :
    Plain (c :: name) → Further rest steps →
    Further ('.' :: c :: (name ++ rest)) (.key (String.ofList (c :: name)) :: steps)

/-- The steps of a path: the first name has no point in front. -/
inductive Spelled : List Char → List Step → Prop
  | nothing : Spelled [] []
  | bracket {inner rest : List Char} {step : Step} {steps : List Step} :
    ']' ∉ inner → StandsFor (trimChars inner) step → Further rest steps →
    Spelled ('[' :: (inner ++ ']' :: rest)) (step :: steps)
  | name {c : Char} {name rest : List Char} {steps : List Step} :
    Plain (c :: name) → Further rest steps →
    Spelled (c :: (name ++ rest)) (.key (String.ofList (c :: name)) :: steps)

/-- What is left of a text without the blanks around it and at most one point in front. -/
inductive Bared (raw : String) : List Char → Prop
  | point {text : List Char} : trimChars raw.toList = '.' :: text → Bared raw text
  | plain {text : List Char} :
    trimChars raw.toList = text → text.head? ≠ some '.' → Bared raw text

/-- No name has quotes of both kinds. -/
def Unmixed (steps : List Step) : Prop :=
  ∀ name, .key name ∈ steps → ¬ ('\'' ∈ name.toList ∧ '"' ∈ name.toList)

/-- The text is a path expression with these steps. -/
def Denotes (raw : String) (steps : List Step) : Prop :=
  (∃ text, Bared raw text ∧ Spelled text steps) ∧ Unmixed steps

/-! ## Brackets -/

theorem unquote?_eq_some_iff :
    unquote? text = some name ↔ ∃ q, IsQuote q ∧ text = q :: (name ++ [q]) := by
  match text with
  | [] => simp [unquote?]
  | [c] => simp [unquote?]
  | q :: c :: rest =>
      have unquoted : unquote? (q :: c :: rest) =
          if IsQuote q ∧ (c :: rest).getLast? = some q then some (c :: rest).dropLast else none :=
        rfl
      rw [unquoted]
      constructor
      · intro found
        split at found
        · next both =>
            cases found
            exact ⟨q, both.1, congrArg (q :: ·) (List.dropLast_append_getLast? q both.2).symm⟩
        · cases found
      · rintro ⟨q', quote, same⟩
        obtain ⟨rfl, behind⟩ := List.cons.inj same
        rw [behind, List.getLast?_concat, List.dropLast_concat, if_pos ⟨quote, rfl⟩]

/-- What begins with a quote is no wildcard and no number. -/
theorem readBracket_quote {q : Char} (quote : IsQuote q) (rest : List Char) :
    readBracket (q :: rest) =
      match unquote? (q :: rest) with
      | some name => .ok (.key (String.ofList name))
      | none => .error (.badIndex (String.ofList (q :: rest))) := by
  have no_star : ¬ (q :: rest = [] ∨ q :: rest = ['*']) := by
    rcases quote with rfl | rfl <;> simp
  have no_number : readNat? maxWord64 (String.ofList (q :: rest)) = none := by
    rw [Option.eq_none_iff_forall_ne_some]
    intro n found
    rcases quote with rfl | rfl <;>
      exact absurd (readNat?_eq_some_iff.1 found).head (by decide)
  cases unquoted : unquote? (q :: rest) with
  | none => simp only [readBracket, if_neg no_star, no_number, unquoted]
  | some name => simp only [readBracket, if_neg no_star, no_number, unquoted]

/-- What is read in a bracket is what may stand there. -/
theorem readBracket_eq_ok_iff : readBracket text = .ok step ↔ StandsFor text step := by
  constructor
  · intro found
    unfold readBracket at found
    dsimp only at found
    split at found
    · next wild =>
        cases found
        rcases wild with rfl | rfl
        · exact .nothing
        · exact .star
    · split at found
      · next number =>
          cases found
          exact .numeral (readNat?_eq_some_iff.1 number)
      · split at found
        · next quoted =>
            cases found
            obtain ⟨q, quote, rfl⟩ := unquote?_eq_some_iff.1 quoted
            exact .quoted quote
        · cases found
  · intro inside
    cases inside with
    | nothing | star => rfl
    | @numeral text n numeral =>
        have no_star : ¬ (text = [] ∨ text = ['*']) := by
          rintro (rfl | rfl)
          · obtain ⟨digits, rfl | same, some_digit, -⟩ := numeral
            · exact some_digit rfl
            · cases same
          · exact absurd numeral.head (by decide)
        rw [readBracket, if_neg no_star, readNat?_eq_some_iff.2 numeral]
    | quoted quote =>
        rw [readBracket_quote quote, unquote?_eq_some_iff.2 ⟨_, quote, rfl⟩]

/-! ## Steps one after the other -/

theorem plain_iff : Plain name ↔ ∀ c ∈ name, endsName c = false := by
  simp [Plain, endsName, and_assoc]

/-- Behind a step stands nothing, or what ends a name. -/
theorem Further.head (further : Further text steps) : ∀ c ∈ text.head?, endsName c = true := by
  cases further with
  | nothing => exact nofun
  | bracket | name => simp [endsName]

theorem readSteps_bracket {place : Place} (allowed : place ≠ .afterPoint) (position : Nat)
    (inside : ']' ∉ inner) (rest : List Char) :
    readSteps place position ('[' :: (inner ++ ']' :: rest)) = do
      let step ← readBracket (trimChars inner)
      let steps ← readSteps .afterStep (position + inner.length + 2) rest
      return step :: steps := by
  have within : ∀ c ∈ inner, (c != ']') = true := fun c mem =>
    bne_iff_ne.2 (ne_of_mem_of_not_mem mem inside)
  have taken : (inner ++ ']' :: rest).takeWhile (· != ']') = inner := by
    rw [List.takeWhile_append_of_pos within]
    exact List.append_nil inner
  have left : (inner ++ ']' :: rest).dropWhile (· != ']') = ']' :: rest := by
    rw [List.dropWhile_append_of_pos within]
    rfl
  rw [readSteps, if_neg allowed]
  dsimp only
  split
  · next nothing => rw [left] at nothing; cases nothing
  · next found =>
      rw [left] at found
      cases found
      rw [taken]

theorem readSteps_name {place : Place} (allowed : place ≠ .afterStep) (position : Nat) {c : Char}
    (plain : Plain (c :: name)) (ends : ∀ c ∈ rest.head?, endsName c = true) :
    readSteps place position (c :: (name ++ rest)) =
      (readSteps .afterStep (position + (c :: name).length) rest).map
        (.key (String.ofList (c :: name)) :: ·) := by
  obtain ⟨no_point, no_open, no_close⟩ := plain c List.mem_cons_self
  have within : ∀ d ∈ name, (!endsName d) = true := fun d mem => by
    rw [plain_iff.1 plain d (List.mem_cons_of_mem c mem)]
    rfl
  have taken : (name ++ rest).takeWhile (!endsName ·) = name := by
    rw [List.takeWhile_append_of_pos within]
    cases rest with
    | nil => exact List.append_nil name
    | cons d rest => rw [List.takeWhile_cons, ends d rfl]; exact List.append_nil name
  have left : (name ++ rest).dropWhile (!endsName ·) = rest := by
    rw [List.dropWhile_append_of_pos within]
    cases rest with
    | nil => rfl
    | cons d rest => rw [List.dropWhile_cons, ends d rfl]; rfl
  rw [readSteps.eq_def]
  split
  · next same => cases same
  · next same => exact absurd (List.cons.inj same).1 no_point
  · next same => exact absurd (List.cons.inj same).1 no_open
  · next same => exact absurd (List.cons.inj same).1 no_close
  · next same =>
      cases same
      rw [if_neg allowed, taken, left]

/-- The steps that may stand at a place. -/
def SpelledFrom : Place → List Char → List Step → Prop
  | .start => Spelled
  | .afterPoint => fun text => Further ('.' :: text)
  | .afterStep => Further

/-- What is read may stand there. -/
theorem spelledFrom_of_readSteps {place : Place} {position : Nat}
    (found : readSteps place position text = .ok steps) : SpelledFrom place text steps := by
  fun_induction readSteps place position text generalizing steps with
  | case1 | case4 | case5 | case6 | case8 | case9 => cases found
  | case2 place position allowed =>
      cases found
      cases place with
      | start => exact .nothing
      | afterPoint => exact absurd rfl allowed
      | afterStep => exact .nothing
  | case3 position rest ih => exact ih found
  | case7 place position rest allowed inner close after left =>
      rename_i ih
      obtain ⟨step, read, found⟩ := bind_eq_ok found
      obtain ⟨steps', more, found⟩ := bind_eq_ok found
      cases found
      have closes : close = ']' := by
        have stops := List.head_dropWhile_not (· != ']') (l := rest) (by rw [left]; nofun)
        simpa [left] using stops
      have parts : rest = inner ++ ']' :: after := by
        rw [← closes, ← left]
        exact List.takeWhile_append_dropWhile.symm
      have inside : ']' ∉ inner := fun mem => by simpa using List.mem_takeWhile_imp mem
      rw [parts]
      have bracketed := readBracket_eq_ok_iff.1 read
      cases place with
      | start => exact .bracket inside bracketed (ih more)
      | afterPoint => exact absurd rfl allowed
      | afterStep => exact .bracket inside bracketed (ih more)
  | case10 place position c rest no_point no_open no_close allowed name read =>
      rename_i ih
      obtain ⟨steps', more, same⟩ := map_eq_ok found
      cases same
      have plain : Plain name := plain_iff.2 fun d mem => by
        rcases List.mem_cons.1 mem with rfl | mem
        · simpa [endsName] using And.intro (And.intro no_point no_open) no_close
        · simpa using List.mem_takeWhile_imp mem
      have parts : rest = rest.takeWhile (!endsName ·) ++ rest.dropWhile (!endsName ·) :=
        List.takeWhile_append_dropWhile.symm
      rw [parts]
      cases place with
      | start => exact .name plain (ih more)
      | afterPoint => exact .name plain (ih more)
      | afterStep => exact absurd rfl allowed

theorem readSteps_of_further (further : Further text steps) (position : Nat) :
    readSteps .afterStep position text = .ok steps := by
  induction further generalizing position with
  | nothing => rw [readSteps, if_neg Place.noConfusion]
  | bracket inside bracketed _ ih =>
      rw [readSteps_bracket Place.noConfusion position inside, readBracket_eq_ok_iff.2 bracketed]
      simp [ih, bind, Except.bind, pure, Except.pure]
  | name plain further ih =>
      rw [readSteps, if_pos rfl, readSteps_name Place.noConfusion _ plain further.head, ih]
      rfl

/-- What is read as a path are the steps that are written there. -/
theorem readSteps_eq_ok_iff : readSteps .start 0 text = .ok steps ↔ Spelled text steps := by
  refine ⟨spelledFrom_of_readSteps, fun spelled => ?_⟩
  cases spelled with
  | nothing => rw [readSteps, if_neg Place.noConfusion]
  | bracket inside bracketed further =>
      rw [readSteps_bracket Place.noConfusion 0 inside, readBracket_eq_ok_iff.2 bracketed]
      simp [readSteps_of_further further, bind, Except.bind, pure, Except.pure]
  | name plain further =>
      rw [readSteps_name Place.noConfusion 0 plain further.head, readSteps_of_further further]
      rfl

/-! ## Whole expressions -/

theorem bared_iff {raw : String} : Bared raw text ↔ body raw = text := by
  unfold body
  split
  · next rest trimmed =>
      constructor
      · rintro (same | ⟨same, no_point⟩)
        · exact (List.cons.inj (trimmed.symm.trans same)).2
        · rw [← same, trimmed] at no_point
          exact absurd rfl no_point
      · rintro rfl
        exact .point trimmed
  · next no_point =>
      constructor
      · rintro (same | ⟨same, -⟩)
        · exact absurd same (no_point text)
        · exact same
      · rintro rfl
        refine .plain rfl fun point => ?_
        obtain ⟨rest, same⟩ := List.head?_eq_some_iff.1 point
        exact no_point rest same

theorem mixedName?_eq_none_iff : mixedName? steps = none ↔ Unmixed steps := by
  rw [mixedName?, List.findSome?_eq_none_iff]
  constructor
  · intro none_mixed name mem both
    simpa [both.1, both.2] using none_mixed _ mem
  · intro unmixed step mem
    cases step with
    | key name =>
        have apart := unmixed name mem
        simpa [imp_iff_not_or] using apart
    | index | wildcard => rfl

/-- What is read are the expressions of the grammar. -/
theorem read_eq_ok_iff {raw : String} {p : Path} :
    read raw = .ok p ↔ p.raw = raw ∧ Denotes raw p.steps := by
  constructor
  · intro found
    unfold read at found
    split at found
    · cases found
    · next steps spelled =>
        split at found
        · cases found
        · next unmixed =>
            cases found
            exact ⟨rfl, ⟨_, bared_iff.2 rfl, readSteps_eq_ok_iff.1 spelled⟩,
              mixedName?_eq_none_iff.1 unmixed⟩
  · rintro ⟨rfl, ⟨text, bared, spelled⟩, unmixed⟩
    obtain rfl := bared_iff.1 bared
    rw [read, readSteps_eq_ok_iff.2 spelled]
    simp only [mixedName?_eq_none_iff.2 unmixed]

/-- An error names the text that was read. -/
theorem path_of_read_eq_error {raw : String} {e : QueryError} (failed : read raw = .error e) :
    e.path = raw := by
  unfold read at failed
  split at failed
  · cases failed
    rfl
  · split at failed
    · cases failed
      rfl
    · cases failed

/-! ## Query notation -/

/-- What stands in the bracket of a step in query notation. -/
def bracketText : Step → List Char
  | .key name =>
    if name.toList.contains '\'' then '"' :: (name.toList ++ ['"'])
    else '\'' :: (name.toList ++ ['\''])
  | .index n => Decimal.digitChars n
  | .wildcard => ['*']

/-- The steps, each in a bracket. -/
def bracketed (steps : List Step) : List Char :=
  steps.flatMap fun step => '[' :: (bracketText step ++ [']'])

theorem bracketed_cons (step : Step) (steps : List Step) :
    bracketed (step :: steps) = '[' :: (bracketText step ++ ']' :: bracketed steps) := by
  rw [bracketed, List.flatMap_cons, ← bracketed, List.cons_append, List.append_assoc]
  rfl

theorem toList_queryText (steps : List Step) :
    (queryText steps).toList = '$' :: bracketed steps := by
  rw [queryText, String.toList_join, List.flatMap_cons, List.flatMap_map, bracketed]
  refine congrArg ('$' :: ·) (List.flatMap_congr fun step _ => ?_)
  cases step with
  | key name =>
      dsimp only [bracketText]
      split <;> simp
  | index | wildcard => simp [bracketText]

/-- The step can be written in a bracket. -/
def Writable : Step → Prop
  | .key name => ']' ∉ name.toList
  | .index n => n ≤ maxWord64
  | .wildcard => True

/-- What is written in a bracket stands for the step. -/
theorem bracketed_bracketText (writable : Writable step) :
    ']' ∉ bracketText step ∧ StandsFor (trimChars (bracketText step)) step := by
  cases step with
  | key name =>
      have quoted {q : Char} (quote : IsQuote q) (text : bracketText (.key name) =
          q :: (name.toList ++ [q])) :
          ']' ∉ bracketText (.key name) ∧
            StandsFor (trimChars (bracketText (.key name))) (.key name) := by
        have dark : isBlank q = false ∧ q ≠ ']' := by
          rcases quote with rfl | rfl <;> decide
        have untrimmed : trimChars (bracketText (.key name)) = bracketText (.key name) := by
          refine trimChars_eq_self ?_ ?_
          · simp [text, dark.1]
          · rw [text, ← List.cons_append, List.getLast?_concat]
            simp [dark.1]
        rw [untrimmed, text]
        have no_close : ']' ∉ name.toList := writable
        have stands : StandsFor (q :: (name.toList ++ [q])) (.key (String.ofList name.toList)) :=
          .quoted quote
        refine ⟨by simp [dark.2.symm, no_close], ?_⟩
        rwa [String.ofList_toList] at stands
      by_cases single : name.toList.contains '\'' = true
      · exact quoted (.inr rfl) (if_pos single)
      · exact quoted (.inl rfl) (if_neg single)
  | index n =>
      have dark (c) (mem : c ∈ Decimal.digitChars n) : isBlank c = false :=
        isBlank_of_isDigit ((isDigit_eq c).trans (isDigit_of_mem_digitChars mem))
      have untrimmed : trimChars (Decimal.digitChars n) = Decimal.digitChars n :=
        trimChars_eq_self (fun c first => dark c (List.mem_of_mem_head? first))
          fun c last => dark c (List.mem_of_getLast? last)
      refine ⟨fun close => absurd (isDigit_of_mem_digitChars close) (by decide), ?_⟩
      rw [bracketText, untrimmed]
      exact .numeral (numeral_digitChars writable)
  | wildcard => exact ⟨by decide, .star⟩

/-- The steps of a path, each in a bracket, are these steps. -/
theorem further_bracketed (writable : ∀ step ∈ steps, Writable step) :
    Further (bracketed steps) steps := by
  induction steps with
  | nil => exact .nothing
  | cons step rest ih =>
      obtain ⟨inside, names⟩ := bracketed_bracketText (writable step List.mem_cons_self)
      rw [bracketed_cons]
      exact .bracket inside names (ih fun s mem => writable s (List.mem_cons_of_mem _ mem))

/-- What stands in a bracket can be written in one. -/
theorem StandsFor.writable (inside : ']' ∉ inner) (names : StandsFor (trimChars inner) step) :
    Writable step := by
  have trimmed : ']' ∉ trimChars inner := fun mem => inside (trimChars_subset inner mem)
  generalize trimChars inner = text at names trimmed
  cases names with
  | nothing | star => trivial
  | numeral numeral =>
      obtain ⟨digits, -, -, -, -, small⟩ := numeral
      exact small
  | quoted =>
      show ']' ∉ (String.ofList _).toList
      rw [String.toList_ofList]
      exact fun mem => trimmed (List.mem_cons_of_mem _ (List.mem_append_left _ mem))

theorem writable_name (plain : Plain name) : Writable (.key (String.ofList name)) := by
  show ']' ∉ (String.ofList name).toList
  rw [String.toList_ofList]
  exact fun mem => (plain _ mem).2.2 rfl

theorem Further.writable (further : Further text steps) : ∀ step ∈ steps, Writable step := by
  induction further with
  | nothing => exact nofun
  | bracket inside names _ ih => exact List.forall_mem_cons.2 ⟨names.writable inside, ih⟩
  | name plain _ ih => exact List.forall_mem_cons.2 ⟨writable_name plain, ih⟩

/-- Every step that can be read can be written in a bracket. -/
theorem Spelled.writable (spelled : Spelled text steps) : ∀ step ∈ steps, Writable step := by
  cases spelled with
  | nothing => exact nofun
  | bracket inside names further =>
      exact List.forall_mem_cons.2 ⟨names.writable inside, further.writable⟩
  | name plain further => exact List.forall_mem_cons.2 ⟨writable_name plain, further.writable⟩

/-- Steps in brackets are a path by themselves, without blanks or a point around it. -/
theorem denotes_bracketed (writable : ∀ step ∈ steps, Writable step) (unmixed : Unmixed steps) :
    Denotes (String.ofList (bracketed steps)) steps := by
  have front : ∀ c ∈ (bracketed steps).head?, c = '[' := by
    cases steps with
    | nil => exact nofun
    | cons step rest =>
        rw [bracketed_cons]
        rintro c ⟨⟩
        rfl
  have back : ∀ c ∈ (bracketed steps).getLast?, c = ']' := by
    rcases List.eq_nil_or_concat steps with rfl | ⟨before, last, rfl⟩
    · exact nofun
    · have ends : bracketed (before ++ [last]) =
          bracketed before ++ '[' :: bracketText last ++ [']'] := by
        simp [bracketed]
      rw [List.concat_eq_append, ends, List.getLast?_concat]
      rintro c ⟨⟩
      rfl
  have untrimmed : trimChars (bracketed steps) = bracketed steps :=
    trimChars_eq_self (fun c first => by rw [front c first]; rfl)
      fun c last => by rw [back c last]; rfl
  refine ⟨⟨bracketed steps, .plain ?_ fun point => ?_, ?_⟩, unmixed⟩
  · rw [String.toList_ofList, untrimmed]
  · cases front _ point
  · cases steps with
    | nil => exact .nothing
    | cons step rest =>
        obtain ⟨inside, names⟩ := bracketed_bracketText (writable step List.mem_cons_self)
        rw [bracketed_cons]
        exact .bracket inside names
          (further_bracketed fun s mem => writable s (List.mem_cons_of_mem _ mem))

/-! ## The whole -/

/-- A text is read as the grammar says. -/
structure ReadsGrammar (raw : String) : Prop where
  /-- The paths of the grammar are read, with the steps that are written. -/
  accepts : ∀ p, read raw = .ok p ↔ p.raw = raw ∧ Denotes raw p.steps
  /-- Any other text is refused, and the error carries it as it was written. -/
  refuses : (∀ steps, ¬ Denotes raw steps) → ∃ fault, read raw = .error ⟨raw, fault⟩
  /-- A path that was read is read again from its query, without the mark in front. -/
  again : ∀ p, read raw = .ok p →
    ∃ query, queryText p.steps = "$" ++ query ∧ read query = .ok ⟨query, p.steps⟩

/-- **Paths are read as their grammar says**, every other text is refused by its own name, and what
was read is read again from its query notation. -/
theorem reads_grammar (raw : String) : ReadsGrammar raw := by
  refine ⟨fun p => read_eq_ok_iff, fun outside => ?refuses, fun p found => ?again⟩
  case refuses =>
    cases result : read raw with
    | ok p => exact absurd (read_eq_ok_iff.1 result).2 (outside p.steps)
    | error e =>
        obtain ⟨path, fault⟩ := e
        obtain rfl : path = raw := path_of_read_eq_error result
        exact ⟨fault, rfl⟩
  case again =>
    obtain ⟨-, ⟨text, -, spelled⟩, unmixed⟩ := read_eq_ok_iff.1 found
    refine ⟨String.ofList (bracketed p.steps), ?_,
      read_eq_ok_iff.2 ⟨rfl, denotes_bracketed spelled.writable unmixed⟩⟩
    rw [← String.toList_inj, toList_queryText]
    simp

/-- A path in which every kind of step occurs, and a quote of the other kind in a name. -/
theorem reads_grammar_quoted :
    let raw := " .a[ \"it's\" ][+07].c[]"
    let steps := [.key "a", .key "it's", .index 7, .key "c", .wildcard]
    let query := "['a'][\"it's\"][7]['c'][*]"
    read raw = .ok ⟨raw, steps⟩ ∧ Denotes raw steps ∧ queryText steps = "$" ++ query ∧
      read query = .ok ⟨query, steps⟩ ∧ ∀ steps, ¬ Denotes "a['b]" steps := by
  intro raw steps query
  have denotes : Denotes raw steps :=
    ⟨⟨body raw, bared_iff.2 rfl, readSteps_eq_ok_iff.1 (by decide +kernel)⟩,
      mixedName?_eq_none_iff.1 (by decide)⟩
  have found := ((reads_grammar raw).accepts ⟨raw, steps⟩).2 ⟨rfl, denotes⟩
  obtain ⟨query', printed, again⟩ := (reads_grammar raw).again _ found
  have same : queryText steps = "$" ++ query := by decide +kernel
  obtain rfl : query' = query := (String.append_right_inj "$").1 (printed.symm.trans same)
  refine ⟨found, denotes, same, again, fun steps denotes => ?_⟩
  have unclosed : readSteps .start 0 (body "a['b]") = .error (.badIndex "'b") := by decide +kernel
  have read := ((reads_grammar "a['b]").accepts ⟨_, steps⟩).2 ⟨rfl, denotes⟩
  rw [Path.read, unclosed] at read
  cases read

end Path

end Flowline
