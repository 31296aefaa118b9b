import Flowline.Template
import Mathlib

/-!
# Templates are put together

What a template renders to is put together from the text around its tokens and the texts of what
they denote.  No token is read across the beginning of another one, so a template with a token in
it is rendered as its two sides are, and what a token denotes is not looked at again.

* `induction_on_tokens`: a template is empty, begins with a token, or begins with a character that
  no token begins with.
* `opens_of_append`, `pieces_append`: a token behind some text stays one.
* `render_eq_error_iff`: a template fails just where a token does, and the tokens in front of it
  do not.
* `rendering_composes`: all of it together.
-/

namespace Flowline

namespace Template

/-- The text has no braces. -/
def BraceFree (body : List Char) : Prop := ∀ c ∈ body, isBrace c = false

/-- A token as it is written. -/
def written (body : List Char) : List Char := '\x7b' :: '\x7b' :: (body ++ ['\x7d', '\x7d'])

/-- The text begins with a token. -/
def Opens (text : List Char) : Prop := ∃ body after, BraceFree body ∧ text = written body ++ after

/-- What is put in place of a token that denotes this. -/
def textOf (value : Option Json) : String := (value.map stringify).getD ""

/-! ## Where tokens are -/

section

variable {body text after : List Char}

theorem dropWhile_body (free : BraceFree body) (after : List Char) :
    (body ++ '\x7d' :: after).dropWhile (!isBrace ·) = '\x7d' :: after := by
  rw [List.dropWhile_append_of_pos fun c mem => by simp [free c mem]]
  rfl

theorem takeWhile_body (free : BraceFree body) (after : List Char) :
    (body ++ '\x7d' :: after).takeWhile (!isBrace ·) = body := by
  rw [List.takeWhile_append_of_pos fun c mem => by simp [free c mem]]
  exact List.append_nil body

theorem written_append (body after : List Char) :
    written body ++ after = '\x7b' :: '\x7b' :: (body ++ '\x7d' :: '\x7d' :: after) := by
  simp [written]

/-- A text opens with a token if its two opening braces come before two closing ones and no other
brace. -/
theorem opens_iff (rest : List Char) :
    Opens ('\x7b' :: '\x7b' :: rest) ↔
      ∃ after, rest.dropWhile (!isBrace ·) = '\x7d' :: '\x7d' :: after := by
  constructor
  · rintro ⟨body, after, free, same⟩
    rw [written_append] at same
    cases same
    exact ⟨after, dropWhile_body free _⟩
  · rintro ⟨after, closes⟩
    refine ⟨rest.takeWhile (!isBrace ·), after, fun c mem => ?_, ?_⟩
    · simpa using List.mem_takeWhile_imp mem
    · rw [written_append, ← closes, List.takeWhile_append_dropWhile]

theorem pieces_written (free : BraceFree body) (after : List Char) :
    pieces (written body ++ after) = .token body :: pieces after := by
  rw [written_append, pieces]
  split
  · next found =>
      rw [dropWhile_body free] at found
      cases found
      rw [takeWhile_body free]
  · next missed => exact absurd (dropWhile_body free _) (missed after)

theorem pieces_cons {c : Char} {rest : List Char} (closed : ¬ Opens (c :: rest)) :
    pieces (c :: rest) = .char c :: pieces rest := by
  rw [pieces.eq_def]
  split
  · next same => cases same
  · next rest' same =>
      cases same
      split
      · next found => exact absurd ((opens_iff rest').2 ⟨_, found⟩) closed
      · rfl
  · next same =>
      cases same
      rfl

/-- A template is empty, begins with a token, or begins with a character that is just text. -/
theorem induction_on_tokens {motive : List Char → Prop} (nil : motive [])
    (token : ∀ body after, BraceFree body → motive after → motive (written body ++ after))
    (char : ∀ c rest, ¬ Opens (c :: rest) → motive rest → motive (c :: rest)) (text : List Char) :
    motive text := by
  induction length : text.length using Nat.strong_induction_on generalizing text with
  | _ n ih =>
      subst length
      by_cases opens : Opens text
      · obtain ⟨body, after, free, rfl⟩ := opens
        exact token body after free (ih _ (by simp [written]; omega) after rfl)
      · cases text with
        | nil => exact nil
        | cons c rest => exact char c rest opens (ih _ (Nat.lt_succ_self _) rest rfl)

theorem Opens.append (opens : Opens text) (after : List Char) : Opens (text ++ after) := by
  obtain ⟨body, rest, free, rfl⟩ := opens
  exact ⟨body, rest ++ after, free, List.append_assoc ..⟩

/-- A token is not read across the beginning of another one. -/
theorem opens_of_append {c : Char} {rest : List Char}
    (opens : Opens (c :: rest ++ (written body ++ after))) : Opens (c :: rest) := by
  rw [written_append] at opens
  have second : ∃ more, rest ++ '\x7b' :: '\x7b' :: (body ++ '\x7d' :: '\x7d' :: after) =
      '\x7b' :: more ∧ c = '\x7b' := by
    obtain ⟨inner, behind, -, same⟩ := opens
    rw [written_append, List.cons_append] at same
    exact ⟨_, (List.cons.inj same).2, (List.cons.inj same).1⟩
  obtain ⟨more, rest_eq, rfl⟩ := second
  -- what comes behind the two opening braces
  rw [List.cons_append, rest_eq, opens_iff] at opens
  obtain ⟨behind, closes⟩ := opens
  cases rest with
  | nil =>
      obtain rfl := (List.cons.inj rest_eq).2
      cases closes
  | cons d rest =>
      obtain ⟨rfl, more_eq⟩ := List.cons.inj rest_eq
      rw [opens_iff]
      rw [← more_eq, List.append_eq, List.dropWhile_append] at closes
      split at closes
      · cases closes
      · cases inside : rest.dropWhile (!isBrace ·) with
        | nil => simp [inside] at closes
        | cons first rest' =>
            rw [inside, List.cons_append] at closes
            obtain ⟨rfl, tail_closes⟩ := List.cons.inj closes
            cases rest' with
            | nil => cases tail_closes
            | cons second rest' =>
                obtain ⟨rfl, -⟩ := List.cons.inj tail_closes
                exact ⟨rest', rfl⟩

theorem pieces_append (free : BraceFree body) (text after : List Char) :
    pieces (text ++ (written body ++ after)) = pieces text ++ .token body :: pieces after := by
  induction text using induction_on_tokens with
  | nil => rw [List.nil_append, pieces_written free, pieces, List.nil_append]
  | token inner rest inner_free ih =>
      rw [List.append_assoc, pieces_written inner_free, pieces_written inner_free, ih]
      rfl
  | char c rest closed ih =>
      rw [pieces_cons closed, List.cons_append, pieces_cons fun opens => closed ?_, ih]
      · rfl
      · exact opens_of_append (List.cons_append ▸ opens)

end

/-! ## What templates render to -/

section

variable {scope : Scope} {body : List Char} {e : QueryError}

/-- The text of some pieces. -/
def renderPieces (scope : Scope) (pieces : List Piece) : Except QueryError String :=
  (pieces.mapM (Piece.render scope)).map String.join

theorem render_ofList (text : List Char) (scope : Scope) :
    render (String.ofList text) scope = renderPieces scope (pieces text) := by
  rw [render, String.toList_ofList]
  rfl

theorem renderPieces_append (scope : Scope) (left right : List Piece) :
    renderPieces scope (left ++ right) = do
      let first ← renderPieces scope left
      let second ← renderPieces scope right
      return first ++ second := by
  unfold renderPieces
  rw [List.mapM_append]
  cases left.mapM (Piece.render scope) with
  | error e => rfl
  | ok texts =>
      cases right.mapM (Piece.render scope) with
      | error e => rfl
      | ok more => exact congrArg Except.ok String.join_append

/-- A character that no token begins with is text. -/
theorem render_cons {c : Char} {rest : List Char} (closed : ¬ Opens (c :: rest)) (scope : Scope) :
    render (String.ofList (c :: rest)) scope =
      (render (String.ofList rest) scope).map (String.singleton c ++ ·) := by
  rw [render_ofList, pieces_cons closed, ← List.singleton_append, renderPieces_append,
    render_ofList]
  cases renderPieces scope (pieces rest) with
  | error e => rfl
  | ok text => simp [renderPieces, Piece.render, Except.map, bind, Except.bind, pure, Except.pure]

/-- A token behind some text is rendered between what is on its sides. -/
theorem render_append (free : BraceFree body) (text after : List Char) (scope : Scope) :
    render (String.ofList (text ++ (written body ++ after))) scope = do
      let first ← render (String.ofList text) scope
      let value ← resolve body scope
      let last ← render (String.ofList after) scope
      return first ++ textOf value ++ last := by
  have middle : renderPieces scope [.token body] = (resolve body scope).map textOf := by
    cases resolved : resolve body scope with
    | error e => simp [renderPieces, Piece.render, resolved, Except.map, bind, Except.bind]
    | ok value =>
        simp [renderPieces, Piece.render, resolved, Except.map, bind, Except.bind, pure, textOf,
          Except.pure]
  rw [render_ofList, pieces_append free, ← List.singleton_append, renderPieces_append,
    renderPieces_append, middle, ← render_ofList, ← render_ofList]
  cases render (String.ofList text) scope with
  | error e => rfl
  | ok first =>
      cases resolve body scope with
      | error e => rfl
      | ok value =>
          cases render (String.ofList after) scope with
          | error e => rfl
          | ok last => exact congrArg Except.ok String.append_assoc.symm

/-- It fails just if one of these three fails, with the error of the first one. -/
theorem render_append_eq_error_iff (free : BraceFree body) (text after : List Char)
    (scope : Scope) :
    render (String.ofList (text ++ (written body ++ after))) scope = .error e ↔
      render (String.ofList text) scope = .error e ∨
        (∃ first, render (String.ofList text) scope = .ok first) ∧
          (resolve body scope = .error e ∨
            (∃ value, resolve body scope = .ok value) ∧
              render (String.ofList after) scope = .error e) := by
  rw [render_append free]
  cases render (String.ofList text) scope <;> cases resolve body scope <;>
    cases render (String.ofList after) scope <;> simp [bind, Except.bind, pure, Except.pure]

theorem render_nil (scope : Scope) : render (String.ofList []) scope = .ok "" := by
  rw [render_ofList, pieces]
  rfl

/-- A template fails with the error of a token, and those in front of it do not fail. -/
theorem render_eq_error_iff (text : List Char) (scope : Scope) (e : QueryError) :
    render (String.ofList text) scope = .error e ↔
      ∃ before body after, BraceFree body ∧ text = before ++ (written body ++ after) ∧
        (∃ first, render (String.ofList before) scope = .ok first) ∧
        resolve body scope = .error e := by
  constructor
  · induction text using induction_on_tokens with
    | nil => rw [render_nil]; exact fun failed => nomatch failed
    | token body after free ih =>
        intro failed
        rw [← List.nil_append (written body ++ after), render_append_eq_error_iff free] at failed
        rcases failed with failed | ⟨-, fails | ⟨⟨value, resolved⟩, failed⟩⟩
        · rw [render_nil] at failed
          cases failed
        · exact ⟨[], body, after, free, rfl, ⟨_, render_nil scope⟩, fails⟩
        · obtain ⟨before, inner, behind, inner_free, rfl, ⟨first, rendered⟩, fails⟩ := ih failed
          refine ⟨written body ++ before, inner, behind, inner_free,
            (List.append_assoc ..).symm, ⟨"" ++ textOf value ++ first, ?_⟩, fails⟩
          have front := render_append free [] before scope
          rw [List.nil_append, render_nil, resolved, rendered] at front
          exact front
    | char c rest closed ih =>
        rw [render_cons closed]
        intro failed
        have rest_failed : render (String.ofList rest) scope = .error e := by
          cases rendered : render (String.ofList rest) scope with
          | ok text =>
              rw [rendered] at failed
              cases failed
          | error e' =>
              rw [rendered] at failed
              exact failed
        obtain ⟨before, body, after, free, rfl, ⟨first, front⟩, fails⟩ := ih rest_failed
        have front_closed : ¬ Opens (c :: before) := fun opens => closed (opens.append _)
        refine ⟨c :: before, body, after, free, rfl, ⟨String.singleton c ++ first, ?_⟩, fails⟩
        rw [render_cons front_closed, front]
        rfl
  · rintro ⟨before, body, after, free, rfl, rendered, fails⟩
    exact (render_append_eq_error_iff free ..).2 (.inr ⟨rendered, .inl fails⟩)

/-- A template without a token is its own text. -/
theorem render_of_no_token {text : List Char} (scope : Scope)
    (plain : ∀ before body after, BraceFree body → text ≠ before ++ (written body ++ after)) :
    render (String.ofList text) scope = .ok (String.ofList text) := by
  induction text using induction_on_tokens with
  | nil => exact render_nil scope
  | token body after free _ => exact absurd rfl (plain [] body after free)
  | char c rest closed ih =>
      have rest_plain := ih fun before body after free same =>
        plain (c :: before) body after free (congrArg (c :: ·) same)
      rw [render_cons closed, rest_plain, String.ofList_cons]
      rfl

end

/-! ## The whole -/

/-- A token with a body. -/
def tokenOf (body : String) : String := String.ofList (written body.toList)

/-- Rendering is put together from the parts of a template. -/
structure Composes (scope : Scope) : Prop where
  /-- A token is replaced by the text of what it denotes, which is not looked at again, between what
  the sides render to. -/
  joins : ∀ before body after, BraceFree body.toList →
    render (before ++ tokenOf body ++ after) scope = do
      let first ← render before scope
      let value ← resolve body.toList scope
      let last ← render after scope
      return first ++ textOf value ++ last
  /-- That fails just if one of the three fails, with the error of the first one. -/
  fails : ∀ before body after e, BraceFree body.toList →
    (render (before ++ tokenOf body ++ after) scope = .error e ↔
      render before scope = .error e ∨
        (∃ first, render before scope = .ok first) ∧
          (resolve body.toList scope = .error e ∨
            (∃ value, resolve body.toList scope = .ok value) ∧ render after scope = .error e))
  /-- The error of a template is that of the leftmost token that fails. -/
  leftmost : ∀ text e, render text scope = .error e ↔
    ∃ before body after, BraceFree body.toList ∧ text = before ++ tokenOf body ++ after ∧
      (∃ first, render before scope = .ok first) ∧ resolve body.toList scope = .error e
  /-- A template without a token renders to itself. -/
  plain : ∀ text, (∀ before body after, BraceFree body.toList →
    text ≠ before ++ tokenOf body ++ after) → render text scope = .ok text

theorem eq_parts_iff {text before body after : String} :
    text = before ++ tokenOf body ++ after ↔
      text.toList = before.toList ++ (written body.toList ++ after.toList) := by
  rw [← String.toList_inj, String.toList_append, String.toList_append, tokenOf,
    String.toList_ofList, List.append_assoc]

/-- **Templates are rendered part by part.**  Whatever the scope is and whatever stands on the sides
of a token, the token is replaced by the text of what it denotes and by nothing else; the leftmost
token that fails makes the template fail, and text that has no token stays as it is. -/
theorem rendering_composes (scope : Scope) : Composes scope := by
  have joins (before body after : String) (free : BraceFree body.toList) :
      render (before ++ tokenOf body ++ after) scope = do
        let first ← render before scope
        let value ← resolve body.toList scope
        let last ← render after scope
        return first ++ textOf value ++ last := by
    have parts := render_append free before.toList after.toList scope
    rw [← eq_parts_iff.1 rfl] at parts
    simpa only [String.ofList_toList] using parts
  refine ⟨joins, fun before body after e free => ?fails, fun text e => ?leftmost,
    fun text plain => ?plain⟩
  case fails =>
    have parts := render_append_eq_error_iff (e := e) free before.toList after.toList scope
    rw [← eq_parts_iff.1 rfl] at parts
    simpa only [String.ofList_toList] using parts
  case leftmost =>
    have parts := render_eq_error_iff text.toList scope e
    rw [String.ofList_toList] at parts
    rw [parts]
    constructor
    · rintro ⟨before, body, after, free, same, ⟨first, rendered⟩, fails⟩
      refine ⟨String.ofList before, String.ofList body, String.ofList after, ?_, ?_,
        ⟨first, rendered⟩, ?_⟩
      · rwa [String.toList_ofList]
      · rwa [eq_parts_iff, String.toList_ofList, String.toList_ofList, String.toList_ofList]
      · rwa [String.toList_ofList]
    · rintro ⟨before, body, after, free, same, ⟨first, rendered⟩, fails⟩
      refine ⟨before.toList, body.toList, after.toList, free, eq_parts_iff.1 same, ⟨first, ?_⟩,
        fails⟩
      rwa [String.ofList_toList]
  case plain =>
    have untouched : render (String.ofList text.toList) scope = .ok (String.ofList text.toList) :=
      render_of_no_token scope fun before body after free same =>
        plain (String.ofList before) (String.ofList body) (String.ofList after)
          (by rwa [String.toList_ofList])
          (by rwa [eq_parts_iff, String.toList_ofList, String.toList_ofList, String.toList_ofList])
    rwa [String.ofList_toList] at untouched

/-- A token that denotes the text of a token, between braces: it is rendered once. -/
theorem rendering_composes_unscanned :
    let scope : Scope := ⟨.obj [("a", .str (tokenOf "b")), ("b", .str "no")], []⟩
    BraceFree " a ".toList ∧
      render ("\x7b" ++ tokenOf " a " ++ "\x7d") scope = .ok ("\x7b" ++ tokenOf "b" ++ "\x7d") := by
  intro scope
  have free : BraceFree " a ".toList := by simp [BraceFree, isBrace]
  refine ⟨free, ((rendering_composes scope).joins "\x7b" " a " "\x7d" free).trans ?_⟩
  cbv

end Template

end Flowline
