import Flowline.Proofs.Except
import Flowline.Proofs.Node.Sorting
import Mathlib.Data.String.Basic

/-!
# The order of a feed

Two fields are compared as dates if both are dates, and as texts if one is not.  Each of these two
is an order, but they do not fit together: a text that is no date may stand between two dates in the
order of texts, whatever the order of the dates.  So what a sorted feed looks like is clear only
where this does not happen.

* `Feed.compareField_swap`: no two fields come before each other.
* `Feed.consistent_iff`: on which texts the comparison is transitive.
* `Feed.ordered_output`: what a feed node makes of the items of a feed.
* `Feed.circular_mixed`: three fields, each of which comes before the next one.
-/

namespace Flowline

/-! ## The order of texts and that of dates -/

theorem compareText_isLE {a b : String} : (compareText a b).isLE = true ↔ a ≤ b := by
  unfold compareText
  split
  · next same => exact iff_of_true rfl (le_of_eq same)
  · next differ =>
      split
      · next below => exact iff_of_true rfl (le_of_lt below)
      · next above =>
          refine iff_of_false Bool.noConfusion fun le => above (lt_of_le_of_ne le differ)

theorem compareText_eq_lt {a b : String} : compareText a b = .lt ↔ a < b := by
  unfold compareText
  split
  · next same => exact iff_of_false Ordering.noConfusion (same ▸ lt_irrefl a)
  · split
    · next below => exact iff_of_true rfl below
    · next above => exact iff_of_false Ordering.noConfusion above

theorem compareText_swap (a b : String) : compareText b a = (compareText a b).swap := by
  unfold compareText
  rcases lt_trichotomy a b with below | rfl | above
  · rw [if_neg (ne_of_gt below), if_neg (lt_asymm below), if_neg (ne_of_lt below), if_pos below]
    rfl
  · rw [if_pos rfl]
    rfl
  · rw [if_neg (ne_of_lt above), if_pos above, if_neg (ne_of_gt above), if_neg (lt_asymm above)]
    rfl

namespace Instant

variable {a b c : Instant}

theorem le_iff : a.le b = true ↔ a.day < b.day ∨ a.day = b.day ∧
    (a.second < b.second ∨ a.second = b.second ∧ a.nano ≤ b.nano) := by
  simp [le]

theorem le_trans (first : a.le b = true) (second : b.le c = true) : a.le c = true := by
  rw [le_iff] at *
  omega

theorem le_antisymm (there : a.le b = true) (back : b.le a = true) : a = b := by
  rw [le_iff] at there back
  cases a
  cases b
  simp only [mk.injEq] at *
  omega

theorem le_total (a b : Instant) : a.le b = true ∨ b.le a = true := by
  rw [le_iff, le_iff]
  omega

end Instant

namespace Feed

theorem compareInstant_isLE {s t : Instant} :
    (compareInstant s t).isLE = true ↔ s.le t = true := by
  unfold compareInstant
  split
  · next same =>
      subst same
      exact iff_of_true rfl ((s.le_total s).elim id id)
  · split
    · next before => exact iff_of_true rfl before
    · next behind => exact iff_of_false Bool.noConfusion behind

theorem compareInstant_swap (s t : Instant) : compareInstant t s = (compareInstant s t).swap := by
  unfold compareInstant
  by_cases same : s = t
  · rw [if_pos same, if_pos same.symm]
    rfl
  · rw [if_neg same, if_neg (Ne.symm same)]
    rcases s.le_total t with before | behind
    · have not_behind : ¬ t.le s = true := fun back => same (Instant.le_antisymm before back)
      rw [if_pos before, if_neg not_behind]
      rfl
    · have not_before : ¬ s.le t = true := fun there => same (Instant.le_antisymm there behind)
      rw [if_neg not_before, if_pos behind]
      rfl

/-! ## The order of fields -/

variable {a b c : String} {s t : Instant}

theorem compareField_of_dates (first : date? a = some s) (second : date? b = some t) :
    compareField a b = compareInstant s t := by
  unfold compareField
  rw [first, second]

theorem compareField_of_text (text : date? a = none ∨ date? b = none) :
    compareField a b = compareText a b := by
  unfold compareField
  rcases text with first | second
  · rw [first]
  · rw [second]
    cases date? a with
    | none => rfl
    | some s => rfl

theorem compareField_swap (a b : String) : compareField b a = (compareField a b).swap := by
  cases first : date? a with
  | none =>
      rw [compareField_of_text (.inr first), compareField_of_text (.inl first), compareText_swap]
  | some s =>
      cases second : date? b with
      | none =>
          rw [compareField_of_text (.inl second), compareField_of_text (.inr second),
            compareText_swap]
      | some t =>
          rw [compareField_of_dates second first, compareField_of_dates first second,
            compareInstant_swap]

theorem isLE_of_not_lt (not_lt : compareField b a ≠ .lt) : (compareField a b).isLE = true := by
  rw [compareField_swap]
  cases order : compareField b a with
  | lt => exact absurd order not_lt
  | eq => rfl
  | gt => rfl

theorem not_lt_of_isLE (le : (compareField a b).isLE = true) : compareField b a ≠ .lt := by
  intro lt
  rw [compareField_swap, lt] at le
  cases le

theorem isLE_iff_of_text (text : date? a = none ∨ date? b = none) :
    (compareField a b).isLE = true ↔ a ≤ b := by
  rw [compareField_of_text text, compareText_isLE]

/-- A date is not the same as a text that is none. -/
theorem ne_of_dates (first : date? a = some s) (second : date? b = none) : a ≠ b := by
  rintro rfl
  cases first.symm.trans second

/-! ## Where the two orders fit together -/

/-- The comparison of fields is transitive on some texts. -/
def Consistent (texts : List String) : Prop :=
  ∀ a ∈ texts, ∀ b ∈ texts, ∀ c ∈ texts, (compareField a b).isLE = true →
    (compareField b c).isLE = true → (compareField a c).isLE = true

/-- Of two dates with a text between them that is none, the first one is earlier. -/
def Fits (texts : List String) : Prop :=
  ∀ a ∈ texts, ∀ b ∈ texts, ∀ c ∈ texts, (date? a).isSome = true → date? b = none →
    (date? c).isSome = true → a < b → b < c → compareField a c = .lt

instance : DecidablePred Fits := fun texts =>
  inferInstanceAs (Decidable (∀ a ∈ texts, ∀ b ∈ texts, ∀ c ∈ texts, (date? a).isSome = true →
    date? b = none → (date? c).isSome = true → a < b → b < c → compareField a c = .lt))

theorem Fits.lt_of_between {texts : List String} (fits : Fits texts) (a_mem : a ∈ texts)
    (b_mem : b ∈ texts) (c_mem : c ∈ texts) (first : date? a = some s) (text : date? b = none)
    (last : date? c = some t) (below : a ≤ b) (above : b ≤ c) : compareField a c = .lt :=
  fits a a_mem b b_mem c c_mem (by rw [first]; rfl) text (by rw [last]; rfl)
    (lt_of_le_of_ne below (ne_of_dates first text))
    (lt_of_le_of_ne above (ne_of_dates last text).symm)

/-- The comparison of fields is transitive just where the order of texts and that of dates fit
together. -/
theorem consistent_iff {texts : List String} : Consistent texts ↔ Fits texts := by
  constructor
  · intro trans a a_mem b b_mem c c_mem _ text _ below above
    have first : (compareField a b).isLE = true :=
      (isLE_iff_of_text (.inr text)).2 (le_of_lt below)
    have second : compareField b c = .lt := by
      rw [compareField_of_text (.inl text), compareText_eq_lt]
      exact above
    by_contra not_lt
    -- The second date is not behind the first one, so it would not be behind the text.
    exact not_lt_of_isLE (trans c c_mem a a_mem b b_mem (isLE_of_not_lt not_lt) first) second
  · intro fits a a_mem b b_mem c c_mem first second
    -- Both orders meet only where one of the three is a text and the other two are dates.
    cases date_b : date? b with
    | none =>
        have a_le_b := (isLE_iff_of_text (.inr date_b)).1 first
        have b_le_c := (isLE_iff_of_text (.inl date_b)).1 second
        cases date_a : date? a with
        | none => exact (isLE_iff_of_text (.inl date_a)).2 (le_trans a_le_b b_le_c)
        | some s =>
            cases date_c : date? c with
            | none => exact (isLE_iff_of_text (.inr date_c)).2 (le_trans a_le_b b_le_c)
            | some t =>
                rw [fits.lt_of_between a_mem b_mem c_mem date_a date_b date_c a_le_b b_le_c]
                rfl
    | some t =>
        cases date_a : date? a with
        | none =>
            have a_le_b := (isLE_iff_of_text (.inl date_a)).1 first
            refine (isLE_iff_of_text (.inl date_a)).2 (le_of_not_gt fun c_lt_a => ?_)
            cases date_c : date? c with
            | none =>
                have b_le_c := (isLE_iff_of_text (.inr date_c)).1 second
                exact not_le_of_gt c_lt_a (le_trans a_le_b b_le_c)
            | some u =>
                exact not_lt_of_isLE second (fits.lt_of_between c_mem a_mem b_mem date_c date_a
                  date_b (le_of_lt c_lt_a) a_le_b)
        | some s =>
            cases date_c : date? c with
            | none =>
                have b_le_c := (isLE_iff_of_text (.inr date_c)).1 second
                refine (isLE_iff_of_text (.inr date_c)).2 (le_of_not_gt fun c_lt_a => ?_)
                exact not_lt_of_isLE first (fits.lt_of_between b_mem c_mem a_mem date_b date_c
                  date_a b_le_c (le_of_lt c_lt_a))
            | some u =>
                rw [compareField_of_dates date_a date_b, compareInstant_isLE] at first
                rw [compareField_of_dates date_b date_c, compareInstant_isLE] at second
                rw [compareField_of_dates date_a date_c, compareInstant_isLE]
                exact Instant.le_trans first second

/-! ## The items of a feed -/

/-- An item precedes another one in the order of a field. -/
def precedes (direction : SortDirection) (name : String) (a b : FeedItem) : Bool :=
  directed direction (compareField (a.field name) (b.field name)) == .lt

/-- An item precedes another one upwards just if that one precedes it downwards. -/
theorem precedes_iff {direction : SortDirection} {name : String} {a b : FeedItem} :
    precedes direction name a b = true ↔
      match direction with
      | .asc => compareField (a.field name) (b.field name) = .lt
      | .desc => compareField (b.field name) (a.field name) = .lt := by
  unfold precedes directed
  cases direction with
  | asc => exact beq_iff_eq
  | desc =>
      rw [← compareField_swap]
      exact beq_iff_eq

/-- A field on which the comparison is transitive ranks the items, in both directions. -/
theorem ranks_of_consistent (direction : SortDirection) {name : String} {items : List FeedItem}
    (consistent : Consistent (items.map (·.field name))) :
    Ranks (precedes direction name) items := by
  have cotrans {a b c : FeedItem} (a_mem : a ∈ items) (b_mem : b ∈ items) (c_mem : c ∈ items)
      (lt : compareField (a.field name) (c.field name) = .lt) :
      compareField (a.field name) (b.field name) = .lt ∨
        compareField (b.field name) (c.field name) = .lt := by
    by_contra neither
    obtain ⟨not_first, not_second⟩ := not_or.1 neither
    have back := consistent _ (List.mem_map_of_mem c_mem) _ (List.mem_map_of_mem b_mem) _
      (List.mem_map_of_mem a_mem) (isLE_of_not_lt not_second) (isLE_of_not_lt not_first)
    exact not_lt_of_isLE back lt
  have asymm {a b : String} (lt : compareField a b = .lt) : compareField b a ≠ .lt := by
    rw [compareField_swap, lt]
    exact Ordering.noConfusion
  cases direction with
  | asc =>
      refine ⟨fun a _ b _ first => eq_false_of_ne_true fun back => ?_,
        fun a a_mem b b_mem c c_mem first => ?_⟩
      · exact asymm (precedes_iff.1 first) (precedes_iff.1 back)
      · exact (cotrans a_mem b_mem c_mem (precedes_iff.1 first)).imp precedes_iff.2 precedes_iff.2
  | desc =>
      refine ⟨fun a _ b _ first => eq_false_of_ne_true fun back => ?_,
        fun a a_mem b b_mem c c_mem first => ?_⟩
      · exact asymm (precedes_iff.1 first) (precedes_iff.1 back)
      · exact (cotrans c_mem b_mem a_mem (precedes_iff.1 first)).symm.imp precedes_iff.2
          precedes_iff.2

/-! ## What a feed node makes of a feed -/

/-- Some items before they are cut to a length: they are the items of the feed, each once, and in
the order of the feed if no field is given.  If the order of texts and that of dates fit together on
the field that is given, the items are arranged by it, in the only way there is. -/
structure Ordered (c : RssConfig) (items arranged : List FeedItem) : Prop where
  perm : arranged.Perm items
  unsorted : NodeContext.givenPath? c.sortField = none → arranged = items
  sorted : ∀ name, NodeContext.givenPath? c.sortField = some name →
    Fits (items.map (·.field name)) → ∀ other,
      Arranges (precedes c.sortDirection name) items other ↔ other = arranged

/-- As many of the items as are asked for. -/
def cut (c : RssConfig) (arranged : List FeedItem) : List FeedItem :=
  match c.maxItems with
  | some n => arranged.take n
  | none => arranged

/-- A title and items as the output of a feed node. -/
def report (title : String) (kept : List FeedItem) : NodeOutput :=
  { data := .obj [
      ("title", .str title),
      ("count", .ofNat kept.length),
      ("items", .ofList FeedItem.encode kept)] }

/-- The items in the order of the field that is given. -/
def arrange (c : RssConfig) (items : List FeedItem) : List FeedItem :=
  match NodeContext.givenPath? c.sortField with
  | some name => sortBy c.sortDirection name items
  | none => items

theorem ordered_arrange (c : RssConfig) (items : List FeedItem) :
    Ordered c items (arrange c items) := by
  unfold arrange
  cases given : NodeContext.givenPath? c.sortField with
  | none =>
      refine ⟨.refl items, fun _ => rfl, fun name asked => ?_⟩
      cases given.symm.trans asked
  | some name =>
      refine ⟨sortStable_perm _ items, fun none => ?_, fun field asked fits other => ?_⟩
      · cases given.symm.trans none
      · obtain rfl : name = field := Option.some.inj (given.symm.trans asked)
        constructor
        · exact eq_sortStable_of_arranges
        · rintro rfl
          exact arranges_sortStable (ranks_of_consistent c.sortDirection (consistent_iff.2 fits))

theorem output_of_feed {c : RssConfig} {r : HttpResponse} {document : Json} {title : String}
    {items : List FeedItem} (success : r.isSuccess = true) (read : Xml.read r.body = .ok document)
    (feed : ofDocument? document = some (title, items)) :
    c.output r = .ok (report title (cut c (arrange c items))) := by
  have parsed : (Xml.read r.body).mapError (fun fault => NodeError.external (.badFeed fault)) =
      .ok document := by
    rw [read]
    rfl
  unfold RssConfig.output
  rw [success, parsed]
  simp only [Bool.not_true, Bool.false_eq_true, ↓reduceIte, bind, Except.bind, feed]
  rfl

/-- A feed node with an address asks for the feed. -/
theorem plan_of_render {c : RssConfig} {ctx : NodeContext} {url : String}
    (given : trim c.url ≠ "") (rendered : ctx.render (trim c.url) = .ok url) :
    ∃ request finish, c.plan ctx = .http request finish ∧ request.url = url ∧
      ∀ r, finish (.ok r) = c.output r := by
  unfold RssConfig.plan
  rw [if_neg given, rendered]
  exact ⟨_, _, rfl, rfl, fun _ => rfl⟩

/-- A feed node puts out the first items of the feed in the order of the given field.  No two fields
come before each other, and the comparison is transitive just where the order of texts and that of
dates fit together. -/
theorem ordered_output {c : RssConfig} {ctx : NodeContext} {url : String}
    (given : trim c.url ≠ "") (rendered : ctx.render (trim c.url) = .ok url) :
    Std.OrientedCmp compareField ∧ (∀ texts, Consistent texts ↔ Fits texts) ∧
      ∃ request finish, c.plan ctx = .http request finish ∧ request.url = url ∧
        ∀ r document title items, r.isSuccess = true → Xml.read r.body = .ok document →
          ofDocument? document = some (title, items) →
          ∃ arranged, Ordered c items arranged ∧
            finish (.ok r) = .ok (report title (cut c arranged)) := by
  obtain ⟨request, finish, planned, asked, finishes⟩ := plan_of_render given rendered
  refine ⟨⟨fun {a b} => compareField_swap b a⟩, fun _ => consistent_iff, request, finish, planned,
    asked, fun r document title items success read feed => ?_⟩
  refine ⟨arrange c items, ordered_arrange c items, ?_⟩
  rw [finishes, output_of_feed success read feed]

/-! ## Feeds of dates -/

/-- An item with a date and nothing else. -/
def dated (pubDate : String) : FeedItem := ⟨"", "", "", pubDate, ""⟩

/-- A feed with an item for each of some dates. -/
def dates (pubDates : List String) : String :=
  "<rss><channel>" ++
    String.join (pubDates.map fun text => "<item><pubDate>" ++ text ++ "</pubDate></item>") ++
    "</channel></rss>"

/-- Dates in both forms, two of which are the same instant, and a text in front of all dates. -/
def mixedDates : List String :=
  ["2024-01-09T23:00:00Z", "(soon)", "2024-01-10T09:00:00+01:00", "Wed, 10 Jan 2024 08:00:00 GMT"]

theorem ordered_output_mixed :
    let c : RssConfig := { url := "http://feed", maxItems := some 2, sortField := some " pubDate " }
    let ctx : NodeContext := ⟨"news", .null, [], ⟨.null, []⟩, [], [], 1000, ⟨fun _ => false, .ok⟩⟩
    let latest := [dated "2024-01-10T09:00:00+01:00", dated "Wed, 10 Jan 2024 08:00:00 GMT"]
    Fits mixedDates ∧ ∃ request finish, c.plan ctx = .http request finish ∧
      finish (.ok ⟨200, "", [], dates mixedDates⟩) = .ok (report "" latest) := by
  intro c ctx latest
  have fits : Fits mixedDates := by decide +kernel
  have feed : (Xml.read (dates mixedDates)).toOption.bind ofDocument? =
      some ("", mixedDates.map dated) := by decide +kernel
  obtain ⟨document, read, feed⟩ := Option.bind_eq_some_iff.1 feed
  have rendered : ctx.render (trim c.url) = .ok "http://feed" := by decide +kernel
  obtain ⟨-, -, request, finish, planned, -, made⟩ := ordered_output (by decide +kernel) rendered
  obtain ⟨arranged, ordered, output⟩ := made ⟨200, "", [], dates mixedDates⟩ document ""
    (mixedDates.map dated) (by decide) (eq_ok_of_toOption read) feed
  have others : Arranges (precedes .desc "pubDate") (mixedDates.map dated) (latest ++
      [dated "2024-01-09T23:00:00Z", dated "(soon)"]) := by
    refine ⟨[(dated "2024-01-10T09:00:00+01:00", 2), (dated "Wed, 10 Jan 2024 08:00:00 GMT", 3),
      (dated "2024-01-09T23:00:00Z", 0), (dated "(soon)", 1)], by decide +kernel, ?_, rfl⟩
    unfold Leads
    decide +kernel
  obtain rfl := (ordered.sorted "pubDate" (by decide +kernel) fits _).1 others
  exact ⟨fits, request, finish, planned, output⟩

/-- Two dates with a text behind the later one and in front of the earlier one: each precedes the
next, so the feed has no order, and the node leaves the later date in front. -/
theorem circular_mixed :
    let early := "Mon, 01 Jan 2024 00:00:00 +0000"
    let late := "Fri, 05 Jan 2024 00:00:00 +0000"
    let texts := [late, "January 2024", early]
    let c : RssConfig :=
      { url := "http://feed", sortField := some "pubDate", sortDirection := .asc }
    compareField early late = .lt ∧ compareField late "January 2024" = .lt ∧
      compareField "January 2024" early = .lt ∧ ¬ Std.TransCmp compareField ∧
      c.output ⟨200, "", [], dates texts⟩ = .ok (report "" (texts.map dated)) ∧
      ∀ arranged, ¬ Arranges (precedes .asc "pubDate") (texts.map dated) arranged := by
  intro early late texts c
  have first : compareField early late = .lt := by decide +kernel
  have second : compareField late "January 2024" = .lt := by decide +kernel
  have third : compareField "January 2024" early = .lt := by decide +kernel
  refine ⟨first, second, third, fun trans => ?_, ?_, fun arranged => ?_⟩
  · have round : (compareField early "January 2024").isLE = true :=
      trans.isLE_trans (by rw [first]; rfl) (by rw [second]; rfl)
    exact not_lt_of_isLE round third
  · have feed : (Xml.read (dates texts)).toOption.bind ofDocument? =
        some ("", texts.map dated) := by decide +kernel
    obtain ⟨document, read, feed⟩ := Option.bind_eq_some_iff.1 feed
    have unchanged : arrange c (texts.map dated) = texts.map dated := by decide +kernel
    have output := output_of_feed (c := c) (r := ⟨200, "", [], dates texts⟩) (by decide)
      (eq_ok_of_toOption read) feed
    rw [unchanged] at output
    exact output
  · exact not_arranges_of_preceded (List.cons_ne_nil _ _) (by decide +kernel)

end Feed

end Flowline
