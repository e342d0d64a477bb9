/-
CommercePlayground.Storefront.Redaction — what the storefront logs of a failed call.

The body of a downstream error goes to the log as a diagnostic, with its payload taken
out: fields are redacted except `error`, `code` and `type`, whose strings are cut down to
a token. `parse` and `print` are the reader and the writer of the JSON library.
-/
import CommercePlayground.Lib.Json

namespace CommercePlayground.Storefront.Redaction

open Lib

/-! ## Redaction -/

/-- `REDACTED_LOG_VALUE` -/
def redactedLogValue : Text := "[REDACTED]".toList

/-- The characters that a token keeps. -/
def isLogTokenChar (c : Char) : Bool :=
  c.isAlphanum || decide (c = '_') || decide (c = '-') || decide (c = '.') || decide (c = ':')

/-- `redact_log_token` -/
def redactLogToken (value : Text) : Text :=
  ((trim value).take 64).map fun c => if isLogTokenChar c then c else '_'

/-- The fields whose values the log keeps. -/
def isLogField (field : String) : Bool :=
  decide (field = "error") || decide (field = "code") || decide (field = "type")

mutual

/-- `redact_downstream_value`, with the field that the value is the value of. -/
def redactDownstreamValue : Json → Option String → Json
  | .object fields, _ => .object (redactFields fields)
  | .array values, _ => .array (redactValues values)
  | .text value, some _ => .text (redactLogToken value)
  | .text _, none => .text redactedLogValue
  | value, _ => value

def redactFields : Members → Members
  | [] => []
  | field :: fields => redactField field :: redactFields fields

def redactField : String × Json → String × Json
  | (field, value) =>
    (field,
      if isLogField field then redactDownstreamValue value (some field)
      else .text redactedLogValue)

def redactValues : List Json → List Json
  | [] => []
  | value :: values => redactDownstreamValue value none :: redactValues values

end

/-- `to_string`, with what takes its place where it fails. -/
def written (print : Json → Option Text) (value : Json) : Text :=
  (print value).getD redactedLogValue

/-- `redacted_downstream_body` -/
def redactedDownstreamBody (parse : Text → Option Json) (print : Json → Option Text)
    (body : Text) : Text :=
  match parse body with
  | none => "non_json_body(bytes=".toList ++ decimal (utf8 body).length ++ ")".toList
  | some payload => written print (redactDownstreamValue payload none)

/-! ## What should not be seen -/

def isScalar : Json → Bool
  | .array _ => false
  | .object _ => false
  | _ => true

mutual

/-- Documents that differ in scalars only, and not in one that is `direct`, the value of a
field that the log keeps. -/
inductive Similar : Bool → Json → Json → Prop
  | scalar {direct : Bool} {a b : Json} : isScalar a = true → isScalar b = true →
      (direct = true → a = b) → Similar direct a b
  | array {direct : Bool} {items items' : List Json} : SimilarItems items items' →
      Similar direct (.array items) (.array items')
  | object {direct : Bool} {members members' : Members} : SimilarMembers members members' →
      Similar direct (.object members) (.object members')

inductive SimilarItems : List Json → List Json → Prop
  | nil : SimilarItems [] []
  | cons {a b : Json} {items items' : List Json} : Similar false a b →
      SimilarItems items items' → SimilarItems (a :: items) (b :: items')

inductive SimilarMembers : Members → Members → Prop
  | nil : SimilarMembers [] []
  | cons {name : String} {a b : Json} {members members' : Members} :
      Similar (isLogField name) a b → SimilarMembers members members' →
      SimilarMembers ((name, a) :: members) ((name, b) :: members')

end

/-- A string in a document, a field name or a value. -/
inductive HasString : Json → Text → Prop
  | value (s : Text) : HasString (.text s) s
  | name {members : Members} {name : String} {value : Json} : (name, value) ∈ members →
      HasString (.object members) name.toList
  | member {members : Members} {name : String} {value : Json} {s : Text} :
      (name, value) ∈ members → HasString value s → HasString (.object members) s
  | item {items : List Json} {value : Json} {s : Text} : value ∈ items → HasString value s →
      HasString (.array items) s

/-- A field in a document, at any depth. -/
inductive HasField : Json → String → Json → Prop
  | here {members : Members} {name : String} {value : Json} : (name, value) ∈ members →
      HasField (.object members) name value
  | member {members : Members} {outer name : String} {inner value : Json} :
      (outer, inner) ∈ members → HasField inner name value →
      HasField (.object members) name value
  | item {items : List Json} {inner : Json} {name : String} {value : Json} : inner ∈ items →
      HasField inner name value → HasField (.array items) name value

def LogToken (s : Text) : Prop := s.length ≤ 64 ∧ ∀ c ∈ s, isLogTokenChar c = true

/-- The strings that the log may show of a document. -/
def Loggable (document : Json) (s : Text) : Prop :=
  s = redactedLogValue ∨ (∃ name value, HasField document name value ∧ s = name.toList) ∨
    ∃ name value, HasField document name (.text value) ∧ isLogField name = true ∧
      s = redactLogToken value ∧ LogToken s

/-! ## What is seen -/

mutual

/-- The scalars that redaction comes to, other than the direct values of the fields that
the log keeps: it goes into arrays, and into those fields of objects. -/
def exposed : Bool → Json → List Json
  | _, .array items => exposedItems items
  | _, .object members => exposedMembers members
  | direct, value => if direct then [] else [value]

def exposedItems : List Json → List Json
  | [] => []
  | item :: items => exposed false item ++ exposedItems items

def exposedMembers : Members → List Json
  | [] => []
  | member :: members => exposedMember member ++ exposedMembers members

def exposedMember : String × Json → List Json
  | (name, value) => if isLogField name then exposed true value else []

end

/-- Two scalars that redaction makes the same, since strings are replaced. -/
def Indistinct (a b : Json) : Prop := a = b ∨ ∃ s t, a = .text s ∧ b = .text t

end CommercePlayground.Storefront.Redaction
