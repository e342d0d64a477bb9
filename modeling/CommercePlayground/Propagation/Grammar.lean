/-
CommercePlayground.Propagation.Grammar — the grammar of a stored baggage header, and
the loop that reads a value.

The grammar is the one of the W3C header, written down as a derivation: what text a
member may have, not how a validator takes the text apart. White space may stand
around members, keys, values and properties.

`valid_baggage_value` reads bytes by index. `baggageValueLoop` has its reads one by
one, with `none` for a read past the end.
-/
import CommercePlayground.Propagation.Baggage

namespace CommercePlayground.Propagation

open Lib

namespace Grammar

/-! ## Characters -/

/-- A letter, a digit or one of the fifteen signs of a token. -/
def isTokenChar (c : Char) : Bool :=
  c.isAlphanum ||
    ['!', '#', '$', '%', '&', '*', '+', '-', '.', '^', '_', '|', '~', Char.ofNat 0x27,
      Char.ofNat 0x60].contains c

/-- A visible character of ASCII, but for the quotation mark, the comma, the
semicolon, the backslash and the percent sign. -/
def isOctet (c : Char) : Bool :=
  decide (0x21 ≤ c.toNat ∧ c.toNat ≤ 0x7e) && !(['"', ',', ';', '%', Char.ofNat 0x5c].contains c)

def isHexChar (c : Char) : Bool :=
  c.isDigit || ['a', 'b', 'c', 'd', 'e', 'f', 'A', 'B', 'C', 'D', 'E', 'F'].contains c

/-! ## Derivations -/

def IsToken (key : Text) : Prop := key ≠ [] ∧ ∀ c ∈ key, isTokenChar c = true

/-- Octets and escapes, maybe none. -/
inductive IsValue : Text → Prop where
  | nil : IsValue []
  | octet {c : Char} {rest : Text} : isOctet c = true → IsValue rest → IsValue (c :: rest)
  | escape {c d : Char} {rest : Text} : isHexChar c = true → isHexChar d = true →
      IsValue rest → IsValue ('%' :: c :: d :: rest)

structure Property where
  key : Text
  value : Option Text

structure Member where
  key : Text
  value : Text
  properties : List Property

/-- A text with optional white space around it. -/
inductive Padded (t : Text) : Text → Prop where
  | intro {before after : Text} : (∀ c ∈ before, isOws c = true) →
      (∀ c ∈ after, isOws c = true) → Padded t (before ++ (t ++ after))

inductive PropertyText : Property → Text → Prop where
  | bare {key s : Text} : IsToken key → Padded key s → PropertyText ⟨key, none⟩ s
  | valued {key value s t : Text} : IsToken key → IsValue value → Padded key s →
      Padded value t → PropertyText ⟨key, some value⟩ (s ++ '=' :: t)

inductive MemberText : Member → Text → Prop where
  | intro {member : Member} {key value : Text} {properties : List Text} :
      IsToken member.key → IsValue member.value → Padded member.key key →
      Padded member.value value →
      List.Forall₂ PropertyText member.properties properties →
      (member.properties.map Property.key).Nodup →
      MemberText member (key ++ '=' :: [';'].intercalate (value :: properties))

/-- The headers of the grammar, with the members they list. -/
structure Header (members : List Member) (header : Text) : Prop where
  bytes : (utf8 header).length ≤ Shared.maxBaggageHeaderBytes
  nonempty : members ≠ []
  count : members.length ≤ Shared.maxBaggageMembers
  texts : ∃ pieces, header = [','].intercalate pieces ∧ List.Forall₂ MemberText members pieces
  keys : (members.map Member.key).Nodup

end Grammar

/-! ## Reading by index -/

namespace Shared

/-- The loop of `valid_baggage_value`, from an index on. -/
def baggageValueLoop (bytes : List Nat) (index : Nat) : Option Bool :=
  if index < bytes.length then
    match bytes[index]? with
    | none => none
    | some byte =>
      if byte = 0x25 then
        if bytes.length ≤ index + 2 then some false
        else
          match bytes[index + 1]? with
          | none => none
          | some first =>
            if (hexValue first).isNone then some false
            else
              match bytes[index + 2]? with
              | none => none
              | some second =>
                if (hexValue second).isNone then some false
                else baggageValueLoop bytes (index + 3)
      else if !isBaggageOctet byte then some false
      else baggageValueLoop bytes (index + 1)
  else some true
termination_by bytes.length - index

end Shared

end CommercePlayground.Propagation
