import Flowline.Proofs.Template.Composition
import Flowline.Proofs.Text.Trim

/-!
# The value of a template and its text

A template that is a single token between blanks has a value, the one that the token denotes; any
other has its text as value.  The value is found without looking at the text, but the two never
part.

* `pieces_eq_token_iff`: just a token is read as a token and nothing else.
* `render_between_blanks`: blanks around a token stay around its text.
* `typed_agrees`: value and text fail together, and the text of the value is the text.
-/

namespace Flowline

namespace Template

variable {template : String} {scope : Scope} {body text front back : List Char}

/-- No blank is a brace. -/
theorem braceFree_of_blank (blank : ∀ c ∈ text, isBlank c = true) : BraceFree text := by
  intro c mem
  cases brace : isBrace c with
  | false => rfl
  | true =>
      have inside := blank c mem
      rcases Bool.or_eq_true_iff.1 brace with same | same <;>
        rw [eq_of_beq same] at inside <;> cases inside

/-- A text without braces is its own text. -/
theorem render_of_braceFree (free : BraceFree text) (scope : Scope) :
    render (String.ofList text) scope = .ok (String.ofList text) := by
  refine render_of_no_token scope fun before body after _ same => ?_
  have brace : '\x7b' ∈ text := by
    rw [same, written_append]
    exact List.mem_append_right _ List.mem_cons_self
  exact Bool.noConfusion (free _ brace)

/-! ## Single tokens -/

/-- Only the empty template has no pieces. -/
theorem eq_nil_of_pieces_eq_nil (none_read : pieces text = []) : text = [] := by
  induction text using induction_on_tokens with
  | nil => rfl
  | token body after free _ =>
      rw [pieces_written free] at none_read
      cases none_read
  | char c rest closed _ =>
      rw [pieces_cons closed] at none_read
      cases none_read

/-- Just a token is read as a token and nothing else. -/
theorem pieces_eq_token_iff :
    pieces text = [.token body] ↔ BraceFree body ∧ text = written body := by
  constructor
  · intro single
    induction text using induction_on_tokens with
    | nil =>
        rw [pieces] at single
        cases single
    | token inner after free _ =>
        rw [pieces_written free] at single
        obtain ⟨same, nothing⟩ := List.cons.inj single
        cases same
        rw [eq_nil_of_pieces_eq_nil nothing]
        exact ⟨free, List.append_nil _⟩
    | char c rest closed _ =>
        rw [pieces_cons closed] at single
        cases single
  · rintro ⟨free, rfl⟩
    have alone := pieces_written free []
    rwa [List.append_nil, pieces] at alone

theorem renderValue_of_token (free : BraceFree body)
    (single : trimChars template.toList = written body) (scope : Scope) :
    renderValue template scope = (resolve body scope).map (·.getD .null) := by
  rw [renderValue, pieces_eq_token_iff.2 ⟨free, single⟩]

theorem renderValue_of_no_token
    (mixed : ∀ body, BraceFree body → trimChars template.toList ≠ written body) (scope : Scope) :
    renderValue template scope = (render template scope).map .str := by
  unfold renderValue
  split
  · next body single =>
      obtain ⟨free, same⟩ := pieces_eq_token_iff.1 single
      exact absurd same (mixed body free)
  · rfl

/-- Blanks around a token stay around its text. -/
theorem render_between_blanks (free : BraceFree body) (front_blank : ∀ c ∈ front, isBlank c = true)
    (back_blank : ∀ c ∈ back, isBlank c = true) (scope : Scope) :
    render (String.ofList (front ++ (written body ++ back))) scope =
      (resolve body scope).map fun value =>
        String.ofList front ++ textOf value ++ String.ofList back := by
  rw [render_append free, render_of_braceFree (braceFree_of_blank front_blank),
    render_of_braceFree (braceFree_of_blank back_blank)]
  cases resolve body scope <;> rfl

/-- The text of the value that stands for what a token denotes. -/
theorem stringify_getD (value : Option Json) : stringify (value.getD .null) = textOf value := by
  cases value <;> rfl

/-! ## The whole -/

/-- The value of a template and its text agree. -/
structure TypedAgrees (template : String) (scope : Scope) : Prop where
  /-- They fail together, with the same error. -/
  fails : ∀ e, renderValue template scope = .error e ↔ render template scope = .error e
  /-- A single token between blanks keeps the value that it denotes, or none. -/
  keeps : ∀ body, BraceFree body.toList → trim template = tokenOf body →
    renderValue template scope = (resolve body.toList scope).map (·.getD .null)
  /-- The text of that value is the text of the template without the blanks. -/
  token : ∀ body, BraceFree body.toList → trim template = tokenOf body →
    (renderValue template scope).map stringify = render (trim template) scope
  /-- The value of any other template is its text, blanks included. -/
  text : (∀ body, BraceFree body.toList → trim template ≠ tokenOf body) →
    renderValue template scope = (render template scope).map .str

theorem trim_eq_tokenOf_iff {body : String} :
    trim template = tokenOf body ↔ trimChars template.toList = written body.toList := by
  rw [trim, tokenOf, String.ofList_inj]

/-- **The value of a template agrees with its text**, in every scope and however tokens, braces and
blanks stand in it. -/
theorem typed_agrees (template : String) (scope : Scope) : TypedAgrees template scope := by
  obtain ⟨front, back, front_blank, back_blank, parts⟩ := exists_trimChars_between template.toList
  have keeps (body : List Char) (free : BraceFree body)
      (single : trimChars template.toList = written body) :=
    renderValue_of_token free single scope
  refine ⟨fun e => ?fails, fun body free single => ?keeps, fun body free single => ?token,
    fun mixed => ?text⟩
  case fails =>
    by_cases single : ∃ body, BraceFree body ∧ trimChars template.toList = written body
    · obtain ⟨body, free, single⟩ := single
      have rendered := render_between_blanks free front_blank back_blank scope
      rw [← single, ← parts, String.ofList_toList] at rendered
      rw [keeps body free single, rendered]
      cases resolve body scope <;> simp [Except.map]
    · rw [renderValue_of_no_token fun body free same => single ⟨body, free, same⟩]
      cases render template scope <;> simp [Except.map]
  case keeps => exact keeps body.toList free (trim_eq_tokenOf_iff.1 single)
  case token =>
    have none : ∀ c ∈ ([] : List Char), isBlank c = true := nofun
    have bare : render (String.ofList ([] ++ (written body.toList ++ []))) scope =
        (resolve body.toList scope).map fun value =>
          String.ofList [] ++ textOf value ++ String.ofList [] :=
      render_between_blanks free none none scope
    rw [List.nil_append, List.append_nil, ← tokenOf, ← single] at bare
    rw [keeps body.toList free (trim_eq_tokenOf_iff.1 single), bare]
    cases resolve body.toList scope with
    | error e => rfl
    | ok value => simp [Except.map, stringify_getD]
  case text =>
    refine renderValue_of_no_token (fun body free same => mixed (String.ofList body) ?_ ?_) scope
    · rwa [String.toList_ofList]
    · rwa [trim_eq_tokenOf_iff, String.toList_ofList]

/-- A token between blanks keeps its value, two tokens are text, and a token that is no path fails
on both ways. -/
theorem typed_agrees_padded :
    let scope : Scope := ⟨.obj [("a", .arr [.int 1])], []⟩
    let padded := " " ++ tokenOf " a " ++ "\n"
    let doubled := tokenOf "a" ++ tokenOf "b"
    let broken := "\t" ++ tokenOf "a..b"
    BraceFree " a ".toList ∧ trim padded = tokenOf " a " ∧
      renderValue padded scope = .ok (.arr [.int 1]) ∧
      (renderValue padded scope).map stringify = render (trim padded) scope ∧
      (∀ body, BraceFree body.toList → trim doubled ≠ tokenOf body) ∧
      renderValue doubled scope = .ok (.str "[1]") ∧
      renderValue broken scope = .error ⟨"a..b", .emptySegment⟩ := by
  intro scope padded doubled broken
  have free : BraceFree " a ".toList := by simp [BraceFree, isBrace]
  have single : trim padded = tokenOf " a " := by decide +kernel
  have mixed (body : String) (body_free : BraceFree body.toList) : trim doubled ≠ tokenOf body := by
    intro same
    have one := pieces_eq_token_iff.2 ⟨body_free, trim_eq_tokenOf_iff.1 same⟩
    have two : (pieces (trimChars doubled.toList)).length = 2 := by decide +kernel
    rw [one] at two
    cases two
  refine ⟨free, single, ?_, (typed_agrees padded scope).token _ free single, mixed, ?_, ?_⟩
  · exact ((typed_agrees padded scope).keeps _ free single).trans (by cbv)
  · exact ((typed_agrees doubled scope).text mixed).trans (by cbv)
  · exact ((typed_agrees broken scope).fails _).2 (by cbv)

end Template

end Flowline
