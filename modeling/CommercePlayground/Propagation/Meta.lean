/-
CommercePlayground.Propagation.Meta — the trace headers in a page.

`injectPropagationMeta` of `traceparent.ts` writes a tag for each header into the page
that the browser starts from. It looks for a tag with a regular expression and hands the
new tag to `String.prototype.replace` as a replacement, so that values can meet both the
expression of another name and the dollar signs of a replacement. `withTags` is the page
as it is meant to be.
-/
import CommercePlayground.Lib.Encoding
import CommercePlayground.Lib.Pattern
import CommercePlayground.Propagation.Web

namespace CommercePlayground.Propagation

open Lib Lib.Pattern

namespace WebClient

structure PropagationHeaders where
  traceparent : Option Text
  tracestate : Option Text
  baggage : Option Text
  deriving DecidableEq

/-- `Number.parseInt` with radix 16, of digits. -/
def parseHex (digits : Text) : Nat :=
  (utf16 digits).foldl (fun n unit => 16 * n + (hexValue unit).getD 0) 0

/-- `sentryTraceFromTraceparent`; what `validTraceparent` accepts has four parts. -/
def sentryTraceFromTraceparent (value : Text) : Option Text :=
  (validTraceparent value).map fun normalized =>
    match normalized.splitOn '-' with
    | _ :: traceId :: spanId :: flags :: _ =>
      traceId ++ '-' :: (spanId ++ '-' :: decimal (parseHex flags % 2))
    | _ => []

/-! ## Tags -/

/-- `replaceAll` with a string, for a single character. -/
def replaceAll (c : Char) (entity value : Text) : Text :=
  value.flatMap fun d => if d = c then entity else [d]

def escapeHtmlAttribute (value : Text) : Text :=
  replaceAll '>' "&gt;".toList (replaceAll '<' "&lt;".toList
    (replaceAll '"' "&quot;".toList (replaceAll '&' "&amp;".toList value)))

/-- `<meta name="…" content="…">`. -/
def metaTag (name value : Text) : Text :=
  "<meta name=\"".toList ++ (name ++ ("\" content=\"".toList ++
    (escapeHtmlAttribute value ++ "\">".toList)))

def isQuote (c : Char) : Bool := c == '"' || c == Char.ofNat 0x27

/-- `<meta\b[^>]*\bname=["']…["'][^>]*>`, in either case. -/
def existingPattern (name : Text) : List Piece :=
  literal "<meta".toList ++ ([.boundary, .many (· != '>'), .boundary] ++
    (literal "name=".toList ++ (.one isQuote :: (literal name ++
      ([.one isQuote, .many (· != '>')] ++ [.one (· == '>')])))))

/-- `<head\b[^>]*>`, in either case. -/
def headPattern : List Piece :=
  (literal "<head".toList ++ [.boundary, .many (· != '>')]) ++ [.one (· == '>')]

/-- `insertMetaIntoHead`. -/
def insertMetaIntoHead (html tag : Text) : Text :=
  match find headPattern none html with
  | none => html
  | some opening => opening.before ++ (opening.text ++ tag) ++ opening.after

/-! ## `injectPropagationMeta` -/

/-- One round of the loop, for a value that is defined. -/
def injectMeta (result : Text) (entry : Text × Text) : Text :=
  let tag := metaTag entry.1 entry.2
  if test (existingPattern entry.1) result then
    replaceFirst (existingPattern entry.1) tag result
  else insertMetaIntoHead result tag

def metaNames : List Text :=
  ["traceparent".toList, "tracestate".toList, "baggage".toList, "sentry-trace".toList]

/-- The names and their values, in the order of the loop. -/
def propagationValues (headers : PropagationHeaders) : List (Text × Option Text) :=
  [("traceparent".toList, headers.traceparent.bind validTraceparent),
    ("tracestate".toList, headers.tracestate.bind validTracestate),
    ("baggage".toList, headers.baggage.bind sanitizeBaggageHeader),
    ("sentry-trace".toList, headers.traceparent.bind sentryTraceFromTraceparent)]

def injectPropagationMeta (html : Text) (headers : PropagationHeaders) : Text :=
  (propagationValues headers).foldl (fun result entry =>
    match entry.2 with
    | none => result
    | some value => injectMeta result (entry.1, value)) html

/-! ## The page as it is meant to be -/

/-- The names with a value. -/
def definedValues (headers : PropagationHeaders) : List (Text × Text) :=
  (propagationValues headers).filterMap fun entry => entry.2.map fun value => (entry.1, value)

def tagOf (entry : Text × Text) : Text := metaTag entry.1 entry.2

/-- The page with tags after its opening `head`. -/
def document (page : Found) (tags : List Text) : Text :=
  page.before ++ page.text ++ (tags.flatten ++ page.after)

/-- The page with a tag for every value, later ones first. -/
def withTags (page : Found) (values : List (Text × Text)) : Text :=
  document page (values.reverse.map tagOf)

/-- A page that has an opening `head`, and no tag for any of the names. -/
structure Blank (names : List Text) (html : Text) (page : Found) : Prop where
  head : find headPattern none html = some page
  unnamed : ∀ name ∈ names, test (existingPattern name) html = false

/-- The values do not get in the way of each other: no tag is taken for one of another name,
and every tag is left as it is when it replaces itself. -/
structure Harmless (page : Found) (values : List (Text × Text)) : Prop where
  apart : ∀ x ∈ values, ∀ y ∈ values, x.1 ≠ y.1 → test (existingPattern x.1) (tagOf y) = false
  expands : ∀ later x earlier, values.reverse = later ++ x :: earlier →
    expand ⟨page.before ++ page.text ++ (later.map tagOf).flatten, tagOf x,
      (earlier.map tagOf).flatten ++ page.after⟩ (tagOf x) = tagOf x

end WebClient

end CommercePlayground.Propagation
