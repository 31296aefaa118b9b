import Flowline.Calendar.MailDate
import Flowline.Calendar.Timestamp
import Flowline.Node.Condition

/-!
# Feeds

RSS and Atom feeds are brought to one form, sorted by a field and cut to a length. Two fields are
compared as dates if both are, else as texts.
-/

namespace Flowline

/-- An item of a feed. -/
structure FeedItem where
  title : String
  link : String
  description : String
  pubDate : String
  guid : String
deriving DecidableEq

namespace FeedItem

/-- The fields by name. -/
def fields (i : FeedItem) : Entries String :=
  [("title", i.title), ("link", i.link), ("description", i.description), ("pubDate", i.pubDate),
    ("guid", i.guid)]

/-- The text of a field, empty if there is no such field. -/
def field (i : FeedItem) (name : String) : String := (i.fields.get? name).getD ""

def encode (i : FeedItem) : Json := .ofStrings i.fields

end FeedItem

namespace Feed

/-- The text of a child element. -/
def childText (element : Json) (name : String) : String :=
  ((element.member? name).bind Xml.textOf?).getD ""

/-- The children of a name: none, one, or several. -/
def children (element : Json) (name : String) : List Json :=
  match element.member? name with
  | some (.arr items) => items
  | some .null => []
  | some item => [item]
  | none => []

/-- The first text, or the second if that is empty. -/
def orElse (first second : String) : String := if first = "" then second else first

/-- The address of an entry: of its first link to the entry itself, else of its first link. -/
def atomLink (entry : Json) : String :=
  let links := children entry "link"
  let address (link : Json) : Option String := (link.member? "@href").bind Json.asStr?
  let alternate := links.find? fun link =>
    (link.member? "@rel").bind Json.asStr? == some "alternate"
  ((alternate.bind address) <|> (links.head?.bind address)).getD ""

/-- An item of an RSS feed. -/
def rssItem (item : Json) : FeedItem :=
  { title := childText item "title"
    link := childText item "link"
    description := childText item "description"
    pubDate := childText item "pubDate"
    guid := childText item "guid" }

/-- An entry of an Atom feed. -/
def atomItem (entry : Json) : FeedItem :=
  { title := childText entry "title"
    link := atomLink entry
    description := orElse (childText entry "summary") (childText entry "content")
    pubDate := orElse (childText entry "updated") (childText entry "published")
    guid := childText entry "id" }

/-- Title and items of a feed. -/
def ofDocument? (document : Json) : Option (String × List FeedItem) :=
  match (document.member? "rss").bind (·.member? "channel") with
  | some channel => some (childText channel "title", (children channel "item").map rssItem)
  | none =>
    (document.member? "feed").map fun feed =>
      (childText feed "title", (children feed "entry").map atomItem)

/-- The date that a text denotes in one of the forms of feeds. -/
def date? (text : String) : Option Instant :=
  let text := trim text
  match MailDate.read text with
  | .ok t => some t
  | .error _ => (Timestamp.read text).toOption

/-- The order of two instants. -/
def compareInstant (a b : Instant) : Ordering :=
  if a = b then .eq else if a.le b then .lt else .gt

/-- The order of two fields: that of the dates if both are dates, else that of the texts. -/
def compareField (a b : String) : Ordering :=
  match date? a, date? b with
  | some a, some b => compareInstant a b
  | _, _ => compareText a b

/-- The order in a direction. -/
def directed (direction : SortDirection) (o : Ordering) : Ordering :=
  match direction with
  | .asc => o
  | .desc => o.swap

/-- Insert an item in front of a list whose last-sorted item comes first: before the first one
that it does not precede. -/
def insertBack {α : Type} (precedes : α → α → Bool) (x : α) : List α → List α
  | [] => [x]
  | y :: rest => if precedes x y then y :: insertBack precedes x rest else x :: y :: rest

/-- Sort by insertion from the back, which keeps the order of equals. -/
def sortStable {α : Type} (precedes : α → α → Bool) (items : List α) : List α :=
  (items.foldl (fun sorted x => insertBack precedes x sorted) []).reverse

/-- The items in the order of a field. -/
def sortBy (direction : SortDirection) (name : String) (items : List FeedItem) : List FeedItem :=
  sortStable
    (fun a b => directed direction (compareField (a.field name) (b.field name)) == .lt) items

end Feed

namespace RssConfig

/-- The feed formats that are asked for. -/
def accepted : String :=
  "application/rss+xml, application/atom+xml, application/xml, text/xml"

/-- The feed in a response. -/
def output (c : RssConfig) (r : HttpResponse) : Outcome := do
  if !r.isSuccess then throw (.external (.feedStatus r.status))
  let document ← (Xml.read r.body).mapError fun fault => NodeError.external (.badFeed fault)
  let some (title, items) := Feed.ofDocument? document | throw (.external .notAFeed)
  let sorted := match NodeContext.givenPath? c.sortField with
    | some name => Feed.sortBy c.sortDirection name items
    | none => items
  let kept := match c.maxItems with
    | some n => sorted.take n
    | none => sorted
  return { data := .obj [
    ("title", .str title),
    ("count", .ofNat kept.length),
    ("items", .ofList FeedItem.encode kept)] }

/-- Ask for the feed. -/
def plan (c : RssConfig) (ctx : NodeContext) : Plan := .orFail do
  if trim c.url = "" then throw (.configuration .noFeedUrl)
  let url ← ctx.render (trim c.url)
  let request : HttpRequest :=
    { method := "GET", url, headers := [("Accept", accepted)], query := [], body := none,
      timeoutMs := ctx.timeoutMs }
  return .http request fun
    | .ok response => c.output response
    | .error reason => .error (.external (.feed reason))

end RssConfig

end Flowline
