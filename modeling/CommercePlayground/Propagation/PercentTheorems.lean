/-
CommercePlayground.Propagation.PercentTheorems — percent coding comes back.

The loop over indices is `percentDecode` of the bytes it has not read (`decodeLoop_eq`).
A digit of an escape is never `%`, so no escape hides another: undoing the escapes fails
exactly when some `%` of the value lacks its two digits (`percentDecode_eq_none`).
-/
import CommercePlayground.Propagation.DurableTheorems
import CommercePlayground.Propagation.GrammarTheorems
import CommercePlayground.Propagation.Percent

namespace CommercePlayground.Propagation

open Lib

/-! ## The loop -/

theorem hexValue_lt {n value : Nat} (h : hexValue n = some value) : value < 16 := by
  unfold hexValue at h
  split_ifs at h <;> cases h <;> omega

/-- Two digits make a byte: the shift loses nothing and the two halves do not meet. -/
theorem nibbles {high low : Nat} (hhigh : high < 16) (hlow : low < 16) :
    (high <<< 4) % 256 ||| low = high * 16 + low := by
  have hall : ∀ high < 16, ∀ low < 16, (high <<< 4) % 256 ||| low = high * 16 + low := by decide
  exact hall high hhigh low hlow

/-- What the loop makes of the bytes from an index on. -/
def Shared.decodedFrom (decoded bytes : List Nat) :
    Except Shared.TenantIdentityError (List Nat) :=
  match percentDecode bytes with
  | some more => .ok (decoded ++ more)
  | none => .error .invalid

theorem decodedFrom_map {bytes more rest : List Nat}
    (h : percentDecode bytes = (percentDecode rest).map (more ++ ·)) (decoded : List Nat) :
    Shared.decodedFrom (decoded ++ more) rest = Shared.decodedFrom decoded bytes := by
  unfold Shared.decodedFrom
  rw [h]
  cases percentDecode rest with
  | none => rfl
  | some after => simp

theorem decodeLoop_eq (bytes : List Nat) (index : Nat) (decoded : List Nat) :
    Shared.decodeLoop bytes index decoded =
      some (Shared.decodedFrom decoded (bytes.drop index)) := by
  induction hn : bytes.length - index using Nat.strong_induction_on generalizing index decoded with
  | _ n ih =>
    unfold Shared.decodeLoop
    by_cases hindex : index < bytes.length
    · rw [if_pos hindex, List.getElem?_eq_getElem hindex, List.drop_eq_getElem_cons hindex]
      by_cases hescape : bytes[index] = 0x25
      · rw [hescape]
        simp only [ne_eq, not_true, if_false]
        by_cases hshort : bytes.length ≤ index + 2
        · -- an escape that is cut short
          rw [if_pos hshort]
          by_cases hone : index + 1 < bytes.length
          · rw [List.drop_eq_getElem_cons hone, List.drop_eq_nil_of_le hshort]
            simp [Shared.decodedFrom, percentDecode]
          · rw [List.drop_eq_nil_of_le (by omega)]
            simp [Shared.decodedFrom, percentDecode]
        · have hfirst : index + 1 < bytes.length := by omega
          have hsecond : index + 2 < bytes.length := by omega
          rw [if_neg hshort, List.getElem?_eq_getElem hfirst, List.getElem?_eq_getElem hsecond,
            List.drop_eq_getElem_cons hfirst, List.drop_eq_getElem_cons hsecond]
          cases hc : hexValue bytes[index + 1] with
          | none => simp [hc, Shared.decodedFrom, percentDecode]
          | some high =>
            cases hd : hexValue bytes[index + 2] with
            | none => simp [hc, hd, Shared.decodedFrom, percentDecode]
            | some low =>
              simp only [hc, hd]
              rw [ih _ (by omega) _ _ rfl, nibbles (hexValue_lt hc) (hexValue_lt hd)]
              exact congrArg some (decodedFrom_map (percentDecode_escape hc hd _) decoded)
      · simp only [ne_eq, hescape, not_false_eq_true, if_true]
        rw [ih _ (by omega) _ _ rfl]
        exact congrArg some (decodedFrom_map (percentDecode_cons hescape _) decoded)
    · rw [if_neg hindex, List.drop_eq_nil_of_le (by omega)]
      simp [Shared.decodedFrom, percentDecode]

/-- The loop comes to an end without a read past the end, and it is what the resolver of
tenants runs. -/
theorem decodeBaggageValueByIndex_eq (value : Text) :
    Shared.decodeBaggageValueByIndex value = some (Shared.decodeBaggageValue value) := by
  unfold Shared.decodeBaggageValueByIndex Shared.decodeBaggageValue
  rw [decodeLoop_eq, List.drop_zero]
  unfold Shared.decodedFrom
  cases percentDecode (utf8 value) with
  | none => rfl
  | some decoded =>
    simp only [List.nil_append, Option.bind_some]
    cases fromUtf8 decoded with
    | none => rfl
    | some text => rfl

/-! ## What cannot be undone -/

/-- Some `%` lacks its two digits. -/
def Grammar.Broken (bytes : List Nat) : Prop :=
  ∃ before rest, bytes = before ++ 0x25 :: rest ∧
    ∀ c d after, rest = c :: d :: after → hexValue c = none ∨ hexValue d = none

theorem broken_cons {b : Nat} (hb : b ≠ 0x25) (rest : List Nat) :
    Grammar.Broken (b :: rest) ↔ Grammar.Broken rest := by
  constructor
  · rintro ⟨before, more, heq, hmore⟩
    cases before with
    | nil => exact absurd (List.cons.inj heq).1 hb
    | cons c before => exact ⟨before, more, (List.cons.inj heq).2, hmore⟩
  · rintro ⟨before, more, rfl, hmore⟩
    exact ⟨b :: before, more, rfl, hmore⟩

/-- After a sound escape the question starts over: its digits are no `%`. -/
theorem broken_escape {c d high low : Nat} (hc : hexValue c = some high)
    (hd : hexValue d = some low) (rest : List Nat) :
    Grammar.Broken (0x25 :: c :: d :: rest) ↔ Grammar.Broken rest := by
  have hnone : hexValue 0x25 = none := by decide
  have hpercent : ∀ n value, hexValue n = some value → n ≠ 0x25 := by
    intro n value hn heq
    rw [heq, hnone] at hn
    cases hn
  rw [← broken_cons (hpercent d low hd) rest, ← broken_cons (hpercent c high hc) (d :: rest)]
  constructor
  · rintro ⟨before, more, heq, hmore⟩
    cases before with
    | nil =>
      have := hmore c d rest (List.cons.inj heq).2.symm
      simp [hc, hd] at this
    | cons b before => exact ⟨before, more, (List.cons.inj heq).2, hmore⟩
  · rintro ⟨before, more, heq, hmore⟩
    exact ⟨0x25 :: before, more, by rw [heq]; rfl, hmore⟩

theorem percentDecode_eq_none (bytes : List Nat) :
    percentDecode bytes = none ↔ Grammar.Broken bytes := by
  induction hn : bytes.length using Nat.strong_induction_on generalizing bytes with
  | _ n ih =>
    cases bytes with
    | nil =>
      constructor
      · intro h
        cases h
      · rintro ⟨before, more, heq, -⟩
        simp at heq
    | cons b rest =>
      by_cases hb : b = 0x25
      · subst hb
        match rest with
        | [] => exact ⟨fun _ => ⟨[], [], rfl, by simp⟩, fun _ => by simp [percentDecode]⟩
        | [c] => exact ⟨fun _ => ⟨[], [c], rfl, by simp⟩, fun _ => by simp [percentDecode]⟩
        | c :: d :: after =>
          cases hc : hexValue c with
          | none =>
            refine ⟨fun _ => ⟨[], c :: d :: after, rfl, ?_⟩, fun _ => by simp [percentDecode, hc]⟩
            rintro c' d' after' heq
            cases heq
            exact .inl hc
          | some high =>
            cases hd : hexValue d with
            | none =>
              refine ⟨fun _ => ⟨[], c :: d :: after, rfl, ?_⟩,
                fun _ => by simp [percentDecode, hd]⟩
              rintro c' d' after' heq
              cases heq
              exact .inr hd
            | some low =>
              rw [percentDecode_escape hc hd, broken_escape hc hd, Option.map_eq_none_iff]
              exact ih after.length (by simp only [List.length_cons] at hn; omega) after rfl
      · rw [percentDecode_cons hb, broken_cons hb, Option.map_eq_none_iff]
        exact ih rest.length (by simp only [List.length_cons] at hn; omega) rest rfl

theorem broken_iff (bytes : List Nat) :
    Grammar.Broken bytes ↔ Grammar.EscapeCut bytes ∨ Grammar.EscapeNotHex bytes := by
  constructor
  · rintro ⟨before, rest, rfl, hrest⟩
    match rest with
    | [] => exact .inl ⟨before, [], rfl, by simp⟩
    | [c] => exact .inl ⟨before, [c], rfl, by simp⟩
    | c :: d :: after => exact .inr ⟨before, c, d, after, rfl, hrest c d after rfl⟩
  · rintro (⟨before, rest, rfl, hshort⟩ | ⟨before, c, d, after, rfl, hdigit⟩)
    · refine ⟨before, rest, rfl, ?_⟩
      rintro c d after rfl
      simp only [List.length_cons] at hshort
      omega
    · refine ⟨before, c :: d :: after, rfl, ?_⟩
      rintro c' d' after' heq
      cases heq
      exact hdigit

theorem decodeBaggageValue_error (value : Text) :
    (∃ error, Shared.decodeBaggageValue value = .error error) ↔
      Grammar.EscapeCut (utf8 value) ∨ Grammar.EscapeNotHex (utf8 value) ∨
        Grammar.BeyondUtf8 (utf8 value) := by
  rw [← or_assoc, ← broken_iff, ← percentDecode_eq_none]
  unfold Shared.decodeBaggageValue Grammar.BeyondUtf8
  cases percentDecode (utf8 value) with
  | none => simp
  | some decoded =>
    simp only [Option.bind_some, Option.some.injEq, exists_eq_left', reduceCtorEq, false_or]
    cases htext : fromUtf8 decoded with
    | none =>
      refine ⟨fun _ text heq => ?_, fun _ => ⟨_, rfl⟩⟩
      rw [fromUtf8_eq_some_iff.mpr heq] at htext
      cases htext
    | some text =>
      refine ⟨?_, fun h => absurd (fromUtf8_eq_some_iff.mp htext) (h text)⟩
      rintro ⟨error, h⟩
      cases h

theorem decodeBaggageValue_ok (value text : Text) :
    Shared.decodeBaggageValue value = .ok text ↔
      percentDecode (utf8 value) = some (utf8 text) := by
  unfold Shared.decodeBaggageValue
  cases percentDecode (utf8 value) with
  | none => simp
  | some decoded =>
    simp only [Option.bind_some, Option.some.injEq, ← fromUtf8_eq_some_iff]
    cases fromUtf8 decoded with
    | none => simp
    | some read => simp

/-! ## The writer -/

namespace CheckoutService

theorem isUnreserved_lt {byte : Nat} (h : isUnreserved byte = true) :
    byte < 128 ∧ byte ≠ 0x25 := by
  simp only [isUnreserved, isDigit, isAsciiAlphabetic, Bool.or_eq_true, decide_eq_true_eq,
    List.contains_iff_mem, List.mem_cons, List.not_mem_nil, or_false] at h
  omega

theorem isUnreserved_char {byte : Nat} (h : isUnreserved byte = true) :
    Grammar.isUnreservedChar (Char.ofNat byte) = true := by
  have hall : ∀ byte < 128, isUnreserved byte = true →
      Grammar.isUnreservedChar (Char.ofNat byte) = true := by decide
  exact hall byte (isUnreserved_lt h).1 h

theorem isUpperHexChar_hexDigit {n : Nat} (h : n < 16) :
    Grammar.isUpperHexChar (hexDigit true n) = true := by
  have hall : ∀ n < 16, Grammar.isUpperHexChar (hexDigit true n) = true := by decide
  exact hall n h

/-- The bytes of what is written for some bytes. -/
def written (bytes : List Nat) : Text :=
  bytes.flatMap fun byte => if isUnreserved byte then [Char.ofNat byte] else '%' :: hexByte true byte

theorem written_cons (byte : Nat) (bytes : List Nat) : written (byte :: bytes) =
    (if isUnreserved byte then [Char.ofNat byte] else '%' :: hexByte true byte) ++ written bytes :=
  rfl

theorem component_written {bytes : List Nat} (h : ∀ byte ∈ bytes, byte < 256) :
    Grammar.Component (written bytes) := by
  induction bytes with
  | nil => exact .nil
  | cons byte bytes ih =>
    have hbyte := h byte List.mem_cons_self
    have hrest := ih fun b hb => h b (List.mem_cons_of_mem byte hb)
    rw [written_cons]
    split
    · rename_i hunreserved
      exact .unreserved (isUnreserved_char hunreserved) hrest
    · exact .escape (isUpperHexChar_hexDigit (by omega)) (isUpperHexChar_hexDigit (by omega)) hrest

theorem component_ascii {component : Text} (h : Grammar.Component component) :
    Ascii component := by
  have halphanum : ∀ c : Char, c.isAlphanum = true → c.toNat < 128 := by
    intro c hc
    simp only [Grammar.isAlphanum_eq, Char.isDigit, Bool.or_eq_true, Bool.and_eq_true,
      decide_eq_true_eq, ge_iff_le, UInt32.le_iff_toNat_le] at hc
    simp only [Char.toNat_val, Char.reduceToNat] at hc
    omega
  have hupper : ∀ c : Char, Grammar.isUpperHexChar c = true → c.toNat < 128 := by
    intro c hc
    simp only [Grammar.isUpperHexChar, Char.isDigit, Bool.or_eq_true, Bool.and_eq_true,
      decide_eq_true_eq, ge_iff_le, UInt32.le_iff_toNat_le, List.contains_iff_mem, List.mem_cons,
      List.not_mem_nil, or_false, ← Char.toNat_inj] at hc
    simp only [Char.toNat_val, Char.reduceToNat] at hc
    omega
  induction h with
  | nil => exact fun c hc => absurd hc List.not_mem_nil
  | unreserved hc _ ih =>
    intro d hd
    rcases List.mem_cons.mp hd with rfl | hd
    · simp only [Grammar.isUnreservedChar, Bool.or_eq_true, List.contains_iff_mem, List.mem_cons,
        List.not_mem_nil, or_false] at hc
      rcases hc with hc | rfl | rfl | rfl | rfl
      · exact halphanum _ hc
      all_goals decide
    · exact ih d hd
  | escape hc hd _ ih =>
    intro e he
    simp only [List.mem_cons] at he
    rcases he with rfl | rfl | rfl | he
    · decide
    · exact hupper _ hc
    · exact hupper _ hd
    · exact ih e he

/-- Undoing the escapes of what is written for some bytes gives the bytes. -/
theorem percentDecode_written {bytes : List Nat} (h : ∀ byte ∈ bytes, byte < 256) :
    percentDecode (codes (written bytes)) = some bytes := by
  induction bytes with
  | nil => rfl
  | cons byte bytes ih =>
    have hbyte := h byte List.mem_cons_self
    have hrest := ih fun b hb => h b (List.mem_cons_of_mem byte hb)
    rw [written_cons, codes_append]
    split
    · rename_i hunreserved
      obtain ⟨hlt, hpercent⟩ := isUnreserved_lt hunreserved
      have hcode : codes [Char.ofNat byte] = [byte] :=
        congrArg (fun n => [n]) (toNat_ofNat (by omega))
      rw [hcode, List.singleton_append, percentDecode_cons hpercent, hrest]
      rfl
    · have hone : ∀ b ∈ [byte], b < 256 := by simpa using hbyte
      have hdecoded := percentDecode_escapes hone (codes (written bytes))
      rw [hrest] at hdecoded
      simpa using hdecoded

theorem lt_of_mem_utf8 {value : Text} {byte : Nat} (h : byte ∈ utf8 value) : byte < 256 := by
  obtain ⟨c, -, hbyte⟩ := List.mem_flatMap.mp h
  exact utf8Char_lt hbyte

theorem decode_component (value : Text) :
    Shared.decodeBaggageValue (recommendationQueryComponent value) = .ok value := by
  have hbytes : ∀ byte ∈ utf8 value, byte < 256 := fun _ hb => lt_of_mem_utf8 hb
  have hascii : Ascii (recommendationQueryComponent value) :=
    component_ascii (component_written hbytes)
  have hdecoded : percentDecode (codes (recommendationQueryComponent value)) = some (utf8 value) :=
    percentDecode_written hbytes
  unfold Shared.decodeBaggageValue
  rw [utf8_of_ascii hascii, hdecoded, Option.bind_some, fromUtf8_utf8]

/-- What checkout writes is a query component that the library reads back, two values are
never written alike, and reading fails on exactly the values that have no reading. -/
theorem percent_coding :
    (∀ value, Shared.decodeBaggageValueByIndex (recommendationQueryComponent value) =
      some (.ok value)) ∧
    (∀ value, Grammar.Component (recommendationQueryComponent value)) ∧
    Function.Injective recommendationQueryComponent ∧
    ∀ value, ∃ result, Shared.decodeBaggageValueByIndex value = some result ∧
      ((∃ error, result = .error error) ↔ Grammar.EscapeCut (utf8 value) ∨
        Grammar.EscapeNotHex (utf8 value) ∨ Grammar.BeyondUtf8 (utf8 value)) ∧
      ∀ text, result = .ok text ↔ percentDecode (utf8 value) = some (utf8 text) := by
  have hread : ∀ value, Shared.decodeBaggageValueByIndex (recommendationQueryComponent value) =
      some (.ok value) := by
    intro value
    rw [decodeBaggageValueByIndex_eq, decode_component]
  refine ⟨hread, fun value => component_written fun _ hb => lt_of_mem_utf8 hb, ?_, ?_⟩
  · intro a b heq
    have := hread a
    rw [heq, hread b] at this
    cases this
    rfl
  · intro value
    exact ⟨_, decodeBaggageValueByIndex_eq value, decodeBaggageValue_error value,
      decodeBaggageValue_ok value⟩

end CheckoutService

end CommercePlayground.Propagation
