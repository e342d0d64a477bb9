/-
CommercePlayground.Lib.Wire — the protobuf wire format.

A message is a sequence of fields, each a number with a value of one of four wire
types. `encode` writes a sequence of fields, `decode` reads the bytes of a whole
message, and `decode_encode` says that reading gives back what was written, as
long as every field number is legal and every length fits the 64 bits of its
varint. A reader of a message type picks its fields with `select`: the last value
counts where the field is singular, all values where it is repeated, and a
singular message that occurs more than once is merged, which is to read the
concatenation of its occurrences.
-/
import Mathlib.Data.List.Basic
import Mathlib.Data.Nat.Bitwise

namespace CommercePlayground.Lib.Wire

abbrev Bytes := List UInt8

/-! ## Numbers -/

/-- The base-128 varint of a number, the low group first. -/
def encodeVarint (n : Nat) : Bytes :=
  if n < 128 then [UInt8.ofNat n]
  else UInt8.ofNat (n % 128 + 128) :: encodeVarint (n / 128)

/-- At most `limit` groups of a varint. -/
def readGroups : Nat → Bytes → Option (Nat × Bytes)
  | 0, _ => none
  | _ + 1, [] => none
  | limit + 1, byte :: rest =>
    if byte.toNat < 128 then some (byte.toNat, rest)
    else (readGroups limit rest).map fun p => (byte.toNat - 128 + 128 * p.1, p.2)

/-- A varint has at most ten groups; bits above the 64th are dropped. -/
def readVarint (bytes : Bytes) : Option (UInt64 × Bytes) :=
  (readGroups 10 bytes).map fun p => (UInt64.ofNat p.1, p.2)

/-- A number in `width` bytes, the low one first. -/
def encodeLittle : Nat → Nat → Bytes
  | 0, _ => []
  | width + 1, n => UInt8.ofNat (n % 256) :: encodeLittle width (n / 256)

def decodeLittle : Bytes → Nat
  | [] => 0
  | byte :: rest => byte.toNat + 256 * decodeLittle rest

/-- Exactly `n` bytes, and what follows them. -/
def takeExact (n : Nat) (bytes : Bytes) : Option (Bytes × Bytes) :=
  if n ≤ bytes.length then some (bytes.take n, bytes.drop n) else none

theorem toNat_byte {n : Nat} (h : n < 256) : (UInt8.ofNat n).toNat = n :=
  UInt8.toNat_ofNat_of_lt' h

theorem encodeVarint_ne_nil (n : Nat) : encodeVarint n ≠ [] := by
  rw [encodeVarint]
  split <;> simp

theorem readGroups_encodeVarint (rest : Bytes) (limit n : Nat) (h : n < 128 ^ (limit + 1)) :
    readGroups (limit + 1) (encodeVarint n ++ rest) = some (n, rest) := by
  induction limit generalizing n with
  | zero =>
    have hn : n < 128 := by omega
    rw [encodeVarint, if_pos hn]
    have hbyte : (UInt8.ofNat n).toNat = n := toNat_byte (by omega)
    simp [readGroups, hbyte, hn]
  | succ limit ih =>
    by_cases hn : n < 128
    · rw [encodeVarint, if_pos hn]
      have hbyte : (UInt8.ofNat n).toNat = n := toNat_byte (by omega)
      simp [readGroups, hbyte, hn]
    · rw [encodeVarint, if_neg hn, List.cons_append, readGroups]
      have hbyte : (UInt8.ofNat (n % 128 + 128)).toNat = n % 128 + 128 :=
        toNat_byte (by omega)
      have hhigh : n / 128 < 128 ^ (limit + 1) := by
        rw [Nat.div_lt_iff_lt_mul (by omega), ← Nat.pow_succ]
        exact h
      rw [if_neg (by omega), ih _ hhigh, Option.map_some, hbyte]
      have hsum : n % 128 + 128 - 128 + 128 * (n / 128) = n := by omega
      simp only [hsum]

theorem readVarint_encodeVarint {n : Nat} (h : n < 2 ^ 64) (rest : Bytes) :
    readVarint (encodeVarint n ++ rest) = some (UInt64.ofNat n, rest) := by
  have hgroups : n < 128 ^ (9 + 1) := by omega
  rw [readVarint, readGroups_encodeVarint rest 9 n hgroups, Option.map_some]

theorem length_encodeLittle (width n : Nat) : (encodeLittle width n).length = width := by
  induction width generalizing n with
  | zero => rfl
  | succ width ih => simp [encodeLittle, ih]

theorem decodeLittle_encodeLittle (width n : Nat) (h : n < 256 ^ width) :
    decodeLittle (encodeLittle width n) = n := by
  induction width generalizing n with
  | zero =>
    have hn : n = 0 := by omega
    simp [encodeLittle, decodeLittle, hn]
  | succ width ih =>
    have hbyte : (UInt8.ofNat (n % 256)).toNat = n % 256 :=
      toNat_byte (by omega)
    have hhigh : n / 256 < 256 ^ width := by
      rw [Nat.div_lt_iff_lt_mul (by omega), ← Nat.pow_succ]
      exact h
    rw [encodeLittle, decodeLittle, ih _ hhigh, hbyte]
    omega

theorem takeExact_append (bytes rest : Bytes) :
    takeExact bytes.length (bytes ++ rest) = some (bytes, rest) := by
  simp [takeExact]

/-! ## Fields -/

/-- The value of a field, by its wire type. -/
inductive Value where
  | varint (value : UInt64)
  | fixed64 (value : UInt64)
  | bytes (value : Bytes)
  | fixed32 (value : UInt32)

structure Field where
  number : Nat
  value : Value

/-- The number of a wire type. -/
def Value.wireType : Value → Nat
  | .varint _ => 0
  | .fixed64 _ => 1
  | .bytes _ => 2
  | .fixed32 _ => 5

def Value.encode : Value → Bytes
  | .varint value => encodeVarint value.toNat
  | .fixed64 value => encodeLittle 8 value.toNat
  | .bytes value => encodeVarint value.length ++ value
  | .fixed32 value => encodeLittle 4 value.toNat

def Field.encode (f : Field) : Bytes :=
  encodeVarint (8 * f.number + f.value.wireType) ++ f.value.encode

/-- The bytes of a message. -/
def encode (fields : List Field) : Bytes := fields.flatMap Field.encode

/-- A value of the given wire type; the two group types are not supported. -/
def readValue (wireType : Nat) (bytes : Bytes) : Option (Value × Bytes) :=
  match wireType with
  | 0 => (readVarint bytes).map fun p => (.varint p.1, p.2)
  | 1 => (takeExact 8 bytes).map fun p => (.fixed64 (UInt64.ofNat (decodeLittle p.1)), p.2)
  | 2 => do
    let (length, rest) ← readVarint bytes
    let (value, rest) ← takeExact length.toNat rest
    some (.bytes value, rest)
  | 5 => (takeExact 4 bytes).map fun p => (.fixed32 (UInt32.ofNat (decodeLittle p.1)), p.2)
  | _ => none

/-- Field numbers run from 1 to 2 ^ 29 - 1. -/
def LegalNumber (n : Nat) : Prop := 0 < n ∧ n < 2 ^ 29

instance (n : Nat) : Decidable (LegalNumber n) := inferInstanceAs (Decidable (_ ∧ _))

def readField (bytes : Bytes) : Option (Field × Bytes) := do
  let (tag, rest) ← readVarint bytes
  if LegalNumber (tag.toNat / 8) then
    let (value, rest) ← readValue (tag.toNat % 8) rest
    some (⟨tag.toNat / 8, value⟩, rest)
  else none

/-- At most `limit` fields, up to the end of the bytes. -/
def readFields : Nat → Bytes → Option (List Field)
  | _, [] => some []
  | 0, _ :: _ => none
  | limit + 1, bytes@(_ :: _) => do
    let (field, rest) ← readField bytes
    let fields ← readFields limit rest
    some (field :: fields)

/-- The fields of a whole message: every byte belongs to one of them. -/
def decode (bytes : Bytes) : Option (List Field) := readFields bytes.length bytes

/-- A field whose number is legal and whose length fits its varint. -/
structure Field.Fits (f : Field) : Prop where
  number : LegalNumber f.number
  length : ∀ value, f.value = .bytes value → value.length < 2 ^ 64

theorem readValue_encode {v : Value} (h : ∀ value, v = .bytes value → value.length < 2 ^ 64)
    (rest : Bytes) : readValue v.wireType (v.encode ++ rest) = some (v, rest) := by
  cases v with
  | varint value =>
    simp only [Value.wireType, Value.encode, readValue]
    rw [readVarint_encodeVarint value.toNat_lt]
    simp
  | fixed64 value =>
    simp only [Value.wireType, Value.encode, readValue]
    have htake := takeExact_append (encodeLittle 8 value.toNat) rest
    rw [length_encodeLittle] at htake
    rw [htake, Option.map_some, decodeLittle_encodeLittle 8 _ value.toNat_lt]
    simp
  | bytes value =>
    have hlength : value.length < 2 ^ 64 := h value rfl
    show (readVarint ((encodeVarint value.length ++ value) ++ rest)).bind _ = _
    rw [List.append_assoc, readVarint_encodeVarint hlength, Option.bind_some]
    show (takeExact (UInt64.ofNat value.length).toNat (value ++ rest)).bind _ = _
    rw [UInt64.toNat_ofNat_of_lt' hlength, takeExact_append]
    rfl
  | fixed32 value =>
    simp only [Value.wireType, Value.encode, readValue]
    have htake := takeExact_append (encodeLittle 4 value.toNat) rest
    rw [length_encodeLittle] at htake
    rw [htake, Option.map_some, decodeLittle_encodeLittle 4 _ value.toNat_lt]
    simp

theorem readField_encode {f : Field} (h : f.Fits) (rest : Bytes) :
    readField (f.encode ++ rest) = some (f, rest) := by
  have hwire : f.value.wireType < 8 := by
    cases f.value <;> simp [Value.wireType]
  have htag : 8 * f.number + f.value.wireType < 2 ^ 64 := by
    have := h.number.2
    omega
  have hnumber : (8 * f.number + f.value.wireType) / 8 = f.number := by omega
  have htype : (8 * f.number + f.value.wireType) % 8 = f.value.wireType := by omega
  unfold readField Field.encode
  rw [List.append_assoc, readVarint_encodeVarint htag]
  simp only [Option.bind_eq_bind, Option.bind_some, UInt64.toNat_ofNat_of_lt' htag, hnumber,
    htype, if_pos h.number, readValue_encode h.length]

theorem Field.encode_ne_nil (f : Field) : f.encode ≠ [] := by
  simp [Field.encode, encodeVarint_ne_nil]

/-- Reading a message gives back the fields that were written. -/
theorem readFields_encode {fields : List Field} (h : ∀ f ∈ fields, f.Fits) {limit : Nat}
    (hlimit : (encode fields).length ≤ limit) : readFields limit (encode fields) = some fields := by
  induction fields generalizing limit with
  | nil => simp [encode, readFields]
  | cons f fields ih =>
    have hsplit : encode (f :: fields) = f.encode ++ encode fields := List.flatMap_cons
    have hlength : (encode (f :: fields)).length = f.encode.length + (encode fields).length := by
      rw [hsplit, List.length_append]
    have hpos : 0 < f.encode.length := List.length_pos_iff.mpr f.encode_ne_nil
    obtain ⟨limit, rfl⟩ : ∃ l, limit = l + 1 := ⟨limit - 1, by omega⟩
    obtain ⟨byte, tail, hbytes⟩ : ∃ byte tail, encode (f :: fields) = byte :: tail :=
      List.exists_cons_of_length_pos (by omega)
    have hrest : readFields limit (encode fields) = some fields :=
      ih (fun g hg => h g (List.mem_cons_of_mem _ hg)) (by omega)
    rw [hbytes, readFields, ← hbytes, hsplit, readField_encode (h f List.mem_cons_self)]
    simp [hrest]

theorem length_le_of_mem {fields : List Field} {number : Nat} {value : Bytes}
    (h : ⟨number, .bytes value⟩ ∈ fields) : value.length ≤ (encode fields).length := by
  induction fields with
  | nil => cases h
  | cons f fields ih =>
    have hsplit : encode (f :: fields) = f.encode ++ encode fields := List.flatMap_cons
    rw [hsplit, List.length_append]
    rcases List.mem_cons.mp h with rfl | h
    · have hpayload : value.length ≤ (Field.encode ⟨number, .bytes value⟩).length := by
        simp only [Field.encode, Value.encode, List.length_append]
        omega
      omega
    · have := ih h
      omega

/-- A message shorter than 2 ^ 63 bytes is read back if its field numbers are
legal. -/
theorem decode_encode {fields : List Field} (hnumbers : ∀ f ∈ fields, LegalNumber f.number)
    (hlength : (encode fields).length < 2 ^ 63) : decode (encode fields) = some fields := by
  apply readFields_encode _ le_rfl
  intro f hf
  refine ⟨hnumbers f hf, fun value hvalue => ?_⟩
  obtain ⟨number, fvalue⟩ := f
  subst hvalue
  have := length_le_of_mem hf
  omega

/-! ## Picking fields -/

def Value.varint? : Value → Option UInt64
  | .varint value => some value
  | _ => none

def Value.fixed64? : Value → Option UInt64
  | .fixed64 value => some value
  | _ => none

def Value.bytes? : Value → Option Bytes
  | .bytes value => some value
  | _ => none

/-- The values of a field. One of another wire type is an unknown field. -/
def select {α : Type} (read : Value → Option α) (number : Nat) (fields : List Field) : List α :=
  fields.filterMap fun f => if f.number = number then read f.value else none

section Select

variable {α : Type} (read : Value → Option α) (number : Nat)

@[simp] theorem select_nil : select read number [] = [] := rfl

@[simp] theorem select_cons (f : Field) (fields : List Field) :
    select read number (f :: fields) =
      (if f.number = number then (read f.value).toList else []) ++ select read number fields := by
  unfold select
  rw [List.filterMap_cons]
  split
  · rename_i hnone
    split at hnone
    · rename_i hn
      simp [hn, hnone]
    · rename_i hn
      simp [hn]
  · rename_i value hsome
    split at hsome
    · rename_i hn
      simp [hn, hsome]
    · cases hsome

@[simp] theorem select_append (a b : List Field) :
    select read number (a ++ b) = select read number a ++ select read number b :=
  List.filterMap_append

theorem select_map_same {β : Type} (f : β → Value) (g : β → α) (h : ∀ x, read (f x) = some (g x))
    (xs : List β) : select read number (xs.map fun x => ⟨number, f x⟩) = xs.map g := by
  induction xs with
  | nil => rfl
  | cons x xs ih => simp [h, ih]

theorem select_map_other {β : Type} {other : Nat} (f : β → Value) (h : other ≠ number)
    (xs : List β) : select read number (xs.map fun x => ⟨other, f x⟩) = [] := by
  induction xs with
  | nil => rfl
  | cons x xs ih => simp [h, ih]

end Select

/-- The text of a string field is valid UTF-8. -/
def text (bytes : Bytes) : Option String := String.fromUTF8? ⟨bytes.toArray⟩

/-- The bytes of a text. -/
def textBytes (s : String) : Bytes := s.toUTF8.data.toList

theorem text_textBytes (s : String) : text (textBytes s) = some s := by
  have hbytes : (⟨(textBytes s).toArray⟩ : ByteArray) = s.toByteArray := by
    simp [textBytes]
  unfold text String.fromUTF8?
  rw [hbytes, dif_pos (by simpa [ByteArray.validateUTF8] using s.isValidUTF8)]
  rfl

/-- The text of a string field, or of its default. -/
def stringField (number : Nat) (fields : List Field) : Option String :=
  ((select Value.bytes? number fields).mapM text).map fun texts => texts.getLastD ""

/-- A bytes field, a varint field and a fixed64 field. -/
def bytesField (number : Nat) (fields : List Field) : Bytes :=
  (select Value.bytes? number fields).getLastD []

def varintField (number : Nat) (fields : List Field) : UInt64 :=
  (select Value.varint? number fields).getLastD 0

def fixed64Field (number : Nat) (fields : List Field) : UInt64 :=
  (select Value.fixed64? number fields).getLastD 0

/-- A singular message: its occurrences are merged. -/
def messageField {α : Type} (decodeMessage : List Field → Option α) (number : Nat)
    (fields : List Field) : Option α :=
  (decode (select Value.bytes? number fields).flatten).bind decodeMessage

/-- A repeated message. -/
def repeatedField {α : Type} (decodeMessage : List Field → Option α) (number : Nat)
    (fields : List Field) : Option (List α) :=
  (select Value.bytes? number fields).mapM fun bytes => (decode bytes).bind decodeMessage

/-- The numbers of a packed field. -/
def unpack : Nat → Bytes → Option (List UInt64)
  | _, [] => some []
  | 0, _ :: _ => none
  | limit + 1, bytes@(_ :: _) => do
    let (number, rest) ← takeExact 8 bytes
    let numbers ← unpack limit rest
    some (UInt64.ofNat (decodeLittle number) :: numbers)

/-- What one occurrence of a repeated fixed64 field holds, packed or not. -/
def Value.fixed64s : Value → Option (List UInt64)
  | .fixed64 value => some [value]
  | .bytes value => unpack value.length value
  | _ => some []

/-- A repeated fixed64 field. -/
def fixed64sField (number : Nat) (fields : List Field) : Option (List UInt64) :=
  ((select some number fields).mapM Value.fixed64s).map List.flatten

/-- A fixed64 field with presence. -/
def optionalFixed64 (number : Nat) (fields : List Field) : Option UInt64 :=
  (select Value.fixed64? number fields).getLast?

/-- Of the members of a oneof, given by number and wire type, the occurrences of
the one that was written last: they are what the oneof holds, as each member
clears the others. -/
def oneof (members : List (Nat × Nat)) (fields : List Field) : List Field :=
  match (fields.filter fun f => (f.number, f.value.wireType) ∈ members).reverse with
  | [] => []
  | last :: earlier => (last :: earlier.takeWhile fun f => f.number = last.number).reverse

/-! ## Reading what was written -/

theorem mapM_map_some {α β γ : Type} {f : α → β} {g : β → Option γ} {k : α → γ} {xs : List α}
    (h : ∀ x ∈ xs, g (f x) = some (k x)) : (xs.map f).mapM g = some (xs.map k) := by
  induction xs with
  | nil => rfl
  | cons x xs ih =>
    rw [List.map_cons, List.mapM_cons, h x List.mem_cons_self,
      ih fun y hy => h y (List.mem_cons_of_mem _ hy)]
    rfl

theorem mem_of_mem_select {number : Nat} {fields : List Field} {value : Bytes}
    (h : value ∈ select Value.bytes? number fields) : ⟨number, .bytes value⟩ ∈ fields := by
  obtain ⟨⟨n, v⟩, hf, hvalue⟩ := List.mem_filterMap.mp h
  simp only at hvalue
  split at hvalue
  · rename_i hn
    subst hn
    cases v with
    | bytes b =>
      cases hvalue
      exact hf
    | varint b => cases hvalue
    | fixed64 b => cases hvalue
    | fixed32 b => cases hvalue
  · cases hvalue

theorem stringField_eq {number : Nat} {fields : List Field} {s : String}
    (h : select Value.bytes? number fields = [textBytes s]) :
    stringField number fields = some s := by
  simp [stringField, h, text_textBytes]

theorem stringField_absent {number : Nat} {fields : List Field}
    (h : select Value.bytes? number fields = []) : stringField number fields = some "" := by
  simp [stringField, h]

theorem messageField_eq {α : Type} {decodeMessage : List Field → Option α} {number : Nat}
    {fields inner : List Field} {value : α}
    (h : select Value.bytes? number fields = [encode inner])
    (hfields : (encode fields).length < 2 ^ 63) (hlegal : ∀ f ∈ inner, LegalNumber f.number)
    (hvalue : (encode inner).length < 2 ^ 63 → decodeMessage inner = some value) :
    messageField decodeMessage number fields = some value := by
  have hmem : encode inner ∈ select Value.bytes? number fields := by
    rw [h]
    exact List.mem_cons_self
  have hlength := (length_le_of_mem (mem_of_mem_select hmem)).trans_lt hfields
  unfold messageField
  rw [h, List.flatten_singleton, decode_encode hlegal hlength, Option.bind_some]
  exact hvalue hlength

theorem messageField_absent {α : Type} {decodeMessage : List Field → Option α} {number : Nat}
    {fields : List Field} (h : select Value.bytes? number fields = []) :
    messageField decodeMessage number fields = decodeMessage [] := by
  unfold messageField
  rw [h]
  rfl

/-- Every occurrence of a repeated message is short enough to be read, as the
message around it is. -/
theorem repeatedField_eq {α β : Type} {decodeMessage : List Field → Option α} {number : Nat}
    {fields : List Field} {items : List β} {inner : β → List Field} {view : β → α}
    (h : select Value.bytes? number fields = items.map fun x => encode (inner x))
    (hfields : (encode fields).length < 2 ^ 63)
    (hlegal : ∀ x, ∀ f ∈ inner x, LegalNumber f.number)
    (hview : ∀ x, (encode (inner x)).length < 2 ^ 63 → decodeMessage (inner x) = some (view x)) :
    repeatedField decodeMessage number fields = some (items.map view) := by
  unfold repeatedField
  rw [h]
  apply mapM_map_some
  intro x hx
  have hmem : encode (inner x) ∈ select Value.bytes? number fields := by
    rw [h]
    exact List.mem_map_of_mem hx
  have hlength := (length_le_of_mem (mem_of_mem_select hmem)).trans_lt hfields
  rw [decode_encode (hlegal x) hlength, Option.bind_some]
  exact hview x hlength

theorem repeatedField_one {α : Type} {decodeMessage : List Field → Option α} {number : Nat}
    {fields inner : List Field} {value : α}
    (h : select Value.bytes? number fields = [encode inner])
    (hfields : (encode fields).length < 2 ^ 63) (hlegal : ∀ f ∈ inner, LegalNumber f.number)
    (hvalue : (encode inner).length < 2 ^ 63 → decodeMessage inner = some value) :
    repeatedField decodeMessage number fields = some [value] := by
  have hone : select Value.bytes? number fields = [()].map fun _ => encode inner := h
  exact repeatedField_eq hone hfields (fun _ => hlegal) fun _ => hvalue

theorem fixed64sField_eq {number : Nat} {fields : List Field} {values : List UInt64}
    (h : select some number fields = values.map Value.fixed64) :
    fixed64sField number fields = some values := by
  have hvalues : (values.map Value.fixed64).mapM Value.fixed64s =
      some (values.map fun value => [value]) := mapM_map_some fun _ _ => rfl
  unfold fixed64sField
  rw [h, hvalues, Option.map_some, ← List.flatMap_def, List.flatMap_singleton']

end CommercePlayground.Lib.Wire
