import Flowline.Proofs.Xml.Children

/-!
# Printed elements are read back

Reading a text of an element adds its value to the element around it (`Tree.consume_form`), so the
value of a document is the object of its root (`Tree.read_form`).  The induction is on the tree,
with whatever has been read around it and whatever stands behind it in the text.
-/

namespace Flowline

namespace Xml

/-- Read on behind an opening angle bracket, or anywhere else. -/
def consume (inside : Bool) (n : Nesting) (source : List Char) : Except XmlFault Nesting :=
  (Markup.scan inside source).foldlM Nesting.take n

section

variable (n : Nesting) (rest : List Char)

theorem consume_bracket : consume false n ('<' :: rest) = consume true n rest := by
  unfold consume
  rw [Markup.scan]
  rfl

/-- A chunk of text adds itself, trimmed. -/
theorem consume_chunk (chunk : List Char) :
    consume false n (escape chunk ++ '<' :: rest) =
      consume true { n with current := n.current.addText (trimChars chunk) } rest := by
  have trimmed : trimChars (strip isSpace chunk) = trimChars chunk :=
    strip_strip isBlank_of_isSpace chunk
  unfold consume
  rw [Markup.scan_chunk (not_mem_escape (by decide) chunk), strip_escape]
  by_cases blank : strip isSpace chunk = []
  · have nothing : trimChars chunk = [] := by
      rw [← trimmed, blank]
      rfl
    rw [if_pos (escape_eq_nil.2 blank), nothing, Element.addText, List.append_nil]
    rfl
  · rw [if_neg (mt escape_eq_nil.1 blank), List.singleton_append, List.foldlM_cons, Nesting.take,
      unescape?_escape, ← trimmed]
    rfl

variable (name : Name) (attributes : Attributes)

theorem partialElement_nil :
    partialElement name attributes [] [] = ⟨name.val, attributes.members, []⟩ := by
  rw [partialElement, List.map_nil, group_eq_nil.2 rfl, List.append_nil]

theorem consume_opening :
    consume true n (tag name attributes ++ '>' :: rest) =
      consume false ⟨partialElement name attributes [] [], n.current :: n.around⟩ rest := by
  unfold consume
  rw [scan_opening, List.foldlM_cons, Nesting.take, ofTag_tag, partialElement_nil]
  rfl

theorem consume_selfClosing :
    consume true n (tag name attributes ++ '/' :: '>' :: rest) =
      let value := (partialElement name attributes [] []).toJson
      consume false { n with current := n.current.addChild name.val value } rest := by
  unfold consume
  rw [scan_selfClosing, List.foldlM_cons, Nesting.take, ofTag_tag, partialElement_nil]
  rfl

theorem consume_closing (before : List Tree) (taken : List Char) (parent : Element)
    (around : List Element) :
    consume true ⟨partialElement name attributes before taken, parent :: around⟩
        ('/' :: name.val ++ '>' :: rest) =
      let value := (partialElement name attributes before taken).toJson
      consume false ⟨parent.addChild name.val value, around⟩ rest := by
  have named : name.val = (partialElement name attributes before taken).name := rfl
  unfold consume
  rw [Markup.scan_closing, List.foldlM_cons, Nesting.take]
  dsimp only
  rw [if_pos named]
  rfl

end

/-! ## Trees -/

/-- Every text of an element begins with a tag. -/
theorem Tree.exists_eq_cons (t : Tree) {text : List Char} (mem : text ∈ t.forms) :
    ∃ tail, text = '<' :: tail := by
  cases t with
  | element name attributes content =>
      rw [Tree.forms] at mem
      rcases List.mem_append.1 mem with single | pair
      · split at single
        · exact ⟨_, List.mem_singleton.1 single⟩
        · cases single
      · obtain ⟨inner, -, rfl⟩ := List.mem_map.1 pair
        exact ⟨_, rfl⟩

/-- An element in which nothing stands is as it is at its beginning. -/
theorem Content.eq_last_nil {content : Content} (empty : content.isEmpty = true) :
    content = .last [] := by
  cases content with
  | last chunk => rw [List.isEmpty_iff.1 empty]
  | next chunk child rest => cases empty

mutual

/-- Reading an element adds its value to the element around it. -/
theorem Tree.consume_form (t : Tree) {text : List Char} (mem : text ∈ t.forms) (n : Nesting)
    (rest : List Char) :
    consume false n (text ++ rest) =
      consume false { n with current := n.current.addChild t.name.val t.convert } rest := by
  match t with
  | .element name attributes content =>
      have value := toJson_partial name attributes content
      rw [Tree.forms] at mem
      rcases List.mem_append.1 mem with single | pair
      · split at single
        · next empty =>
            obtain rfl := List.mem_singleton.1 single
            obtain rfl := Content.eq_last_nil empty
            have split : '<' :: tag name attributes ++ ['/', '>'] ++ rest =
                '<' :: (tag name attributes ++ '/' :: '>' :: rest) := by simp
            rw [split, consume_bracket, consume_selfClosing, ← value]
            rfl
        · cases single
      · obtain ⟨inner, inner_mem, rfl⟩ := List.mem_map.1 pair
        have split : '<' :: tag name attributes ++ '>' :: inner ++
            '<' :: '/' :: name.val ++ ['>'] ++ rest =
              '<' :: (tag name attributes ++
                '>' :: (inner ++ '<' :: ('/' :: name.val ++ '>' :: rest))) := by simp
        rw [split, consume_bracket, consume_opening,
          content.consume_form inner_mem, List.nil_append, List.nil_append, consume_closing, value]
        rfl

/-- Reading what stands in an element adds its elements and its text. -/
theorem Content.consume_form (content : Content) {text : List Char} (mem : text ∈ content.forms)
    (name : Name) (attributes : Attributes) (before : List Tree) (taken : List Char)
    (around : List Element) (rest : List Char) :
    consume false ⟨partialElement name attributes before taken, around⟩ (text ++ '<' :: rest) =
      consume true ⟨partialElement name attributes (before ++ content.trees)
        (taken ++ content.text), around⟩ rest := by
  match content with
  | .last chunk =>
      rw [Content.forms] at mem
      obtain rfl := List.mem_singleton.1 mem
      rw [consume_chunk, Content.trees, List.append_nil]
      rfl
  | .next chunk child others =>
      rw [Content.forms] at mem
      obtain ⟨childText, child_mem, mem⟩ := List.mem_flatMap.1 mem
      obtain ⟨more, more_mem, rfl⟩ := List.mem_map.1 mem
      have split : escape chunk ++ childText ++ more ++ '<' :: rest =
          escape chunk ++ (childText ++ (more ++ '<' :: rest)) := by simp
      -- The child begins with the angle bracket that the chunk ends at.
      have reads (n : Nesting) (behind : List Char) :
          consume false n (escape chunk ++ (childText ++ behind)) =
            consume false { n with current := n.current.addText (trimChars chunk) }
              (childText ++ behind) := by
        obtain ⟨tail, rfl⟩ := child.exists_eq_cons child_mem
        rw [List.cons_append, consume_chunk, consume_bracket]
      rw [split, reads, child.consume_form child_mem]
      have added := addChild_partial name attributes before (taken ++ trimChars chunk) child
      have ih := others.consume_form more_mem name attributes (before ++ [child])
        (taken ++ trimChars chunk) around rest
      rw [Content.trees, Content.text, List.append_cons before, ← List.append_assoc taken, ← ih,
        ← added]
      rfl

end

/-- **Reading inverts printing**: every text of an element is read as the object that has the value
of the element under its name. -/
theorem Tree.read_form (t : Tree) (text : List Char) (mem : text ∈ t.forms) :
    read (String.ofList text) = .ok (.obj [(String.ofList t.name.val, t.convert)]) := by
  have consumed := t.consume_form mem ⟨⟨[], [], []⟩, []⟩ []
  rw [List.append_nil] at consumed
  obtain ⟨tail, rfl⟩ := t.exists_eq_cons mem
  rw [read, String.toList_ofList]
  change ofMarkup (Markup.scan false ('<' :: tail)) = _
  unfold consume at consumed
  rw [ofMarkup, consumed, Markup.scan]
  rfl

/-- An order of two items, with text around the first one and a note in which nothing stands. -/
def order : Tree :=
  let item (sku text : List Char) : Tree :=
    .element ⟨['i', 't', 'e', 'm'], rfl⟩
      ⟨[(⟨['s', 'k', 'u'], rfl⟩, sku)], List.nodup_singleton _⟩ (.last text)
  .element ⟨['o', 'r', 'd', 'e', 'r'], rfl⟩ {} <|
    .next [' ', 'R', '&', 'D'] (item ['a'] ['1', ' ']) <|
    .next [' ', '<', '2'] (.element ⟨['n', 'o', 't', 'e'], rfl⟩ {} (.last [])) <|
    .next [] (item ['"', 'b', '"'] []) <|
    .last []

theorem read_form_order :
    let text := "<order> R&amp;D<item sku=\"a\">1 </item> &lt;2<note/>" ++
      "<item sku=\"&quot;b&quot;\"></item></order>"
    text.toList ∈ order.forms ∧
    read text = .ok (.obj [("order", .obj
      [("item", .arr
          [.obj [("@sku", .str "a"), ("#text", .str "1")], .obj [("@sku", .str "\"b\"")]]),
        ("note", .str ""), ("#text", .str "R&D<2")])]) := by
  intro text
  have mem : text.toList ∈ order.forms := by decide +kernel
  have converted := order.read_form text.toList mem
  rw [String.ofList_toList] at converted
  exact ⟨mem, converted⟩

end Xml

end Flowline
