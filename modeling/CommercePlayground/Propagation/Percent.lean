/-
CommercePlayground.Propagation.Percent — a value written into a query string, and the
reader of escapes.

`recommendation_query_component` of checkout writes the tenant into the address of the
recommendation service. `decode_baggage_value` of the shared library is what undoes
escapes on the other side of a carrier; its loop reads bytes by index, so the loop has
its reads one by one here and `none` is the read past the end.
-/
import CommercePlayground.Propagation.Durable

namespace CommercePlayground.Propagation

open Lib

/-! ## Writing -/

namespace CheckoutService

/-- What is pushed as it is: `is_ascii_alphanumeric` and four marks. -/
def isUnreserved (byte : Nat) : Bool :=
  isDigit byte || isAsciiAlphabetic byte || [0x2d, 0x2e, 0x5f, 0x7e].contains byte

/-- `recommendation_query_component`. -/
def recommendationQueryComponent (value : Text) : Text :=
  (utf8 value).flatMap fun byte =>
    if isUnreserved byte then [Char.ofNat byte] else '%' :: hexByte true byte

end CheckoutService

/-! ## Reading by index -/

namespace Shared

/-- The loop of `decode_baggage_value`, from an index on and with what is decoded so
far. -/
def decodeLoop (bytes : List Nat) (index : Nat) (decoded : List Nat) :
    Option (Except TenantIdentityError (List Nat)) :=
  if index < bytes.length then
    match bytes[index]? with
    | none => none
    | some byte =>
      if byte ≠ 0x25 then decodeLoop bytes (index + 1) (decoded ++ [byte])
      else if bytes.length ≤ index + 2 then some (.error .invalid)
      else
        match bytes[index + 1]? with
        | none => none
        | some first =>
          match hexValue first with
          | none => some (.error .invalid)
          | some high =>
            match bytes[index + 2]? with
            | none => none
            | some second =>
              match hexValue second with
              | none => some (.error .invalid)
              | some low =>
                -- `(high << 4) | low`, in a byte
                decodeLoop bytes (index + 3) (decoded ++ [(high <<< 4) % 256 ||| low])
  else some (.ok decoded)
termination_by bytes.length - index

/-- `decode_baggage_value` with its loop. -/
def decodeBaggageValueByIndex (value : Text) : Option (Except TenantIdentityError Text) :=
  match decodeLoop (utf8 value) 0 [] with
  | none => none
  | some (.error error) => some (.error error)
  | some (.ok decoded) =>
    match fromUtf8 decoded with
    | some text => some (.ok text)
    | none => some (.error .invalid)

end Shared

/-! ## What the two should do -/

namespace Grammar

/-- What a URI calls unreserved. -/
def isUnreservedChar (c : Char) : Bool := c.isAlphanum || ['-', '.', '_', '~'].contains c

/-- The digits of an escape as it is normally written. -/
def isUpperHexChar (c : Char) : Bool := c.isDigit || ['A', 'B', 'C', 'D', 'E', 'F'].contains c

/-- A query component: unreserved characters and escapes. -/
inductive Component : Text → Prop
  | nil : Component []
  | unreserved {c : Char} {rest : Text} : isUnreservedChar c = true → Component rest →
      Component (c :: rest)
  | escape {c d : Char} {rest : Text} : isUpperHexChar c = true → isUpperHexChar d = true →
      Component rest → Component ('%' :: c :: d :: rest)

/-- Some escape ends before its second digit. -/
def EscapeCut (bytes : List Nat) : Prop :=
  ∃ before rest, bytes = before ++ 0x25 :: rest ∧ rest.length < 2

/-- Some escape has a digit that is none. -/
def EscapeNotHex (bytes : List Nat) : Prop :=
  ∃ before c d after, bytes = before ++ 0x25 :: c :: d :: after ∧
    (hexValue c = none ∨ hexValue d = none)

/-- Every escape can be undone, but the bytes behind them are those of no text. -/
def BeyondUtf8 (bytes : List Nat) : Prop :=
  ∃ decoded, percentDecode bytes = some decoded ∧ ∀ text, decoded ≠ utf8 text

end Grammar

end CommercePlayground.Propagation
