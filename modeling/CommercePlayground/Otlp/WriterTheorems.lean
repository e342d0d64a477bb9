/-
CommercePlayground.Otlp.WriterTheorems — what the OTLP writer appends.

`Writes build fields` says that a builder appends the encoding of `fields` to
whatever was written before, as long as the result is a `Data` (its `count` is an
`Int`, so it has fewer than 2 ^ 63 bytes). There is one rule for each method of
`ProtoWriter`, one for a sequence of calls, one for a nested message and one for a
loop; the builders of the messages follow from these.
-/
import CommercePlayground.Otlp.Reader

namespace CommercePlayground.Otlp

open Lib.Wire

/-! ## The varint loop -/

theorem toNat_shiftRight_seven (v : UInt64) : (v >>> 7).toNat = v.toNat / 128 := by
  rw [UInt64.toNat_shiftRight]
  exact Nat.shiftRight_eq_div_pow _ 7

theorem low_group (v : UInt64) : (v &&& 0x7F).toUInt8 = UInt8.ofNat (v.toNat % 128) := by
  have hand : (v &&& 0x7F).toNat = v.toNat % 128 := by
    rw [UInt64.toNat_and]
    exact Nat.and_two_pow_sub_one_eq_mod v.toNat 7
  apply UInt8.toNat_inj.mp
  rw [UInt64.toNat_toUInt8, hand, toNat_byte (by omega)]
  omega

theorem continued_group {n : Nat} (h : n < 128) :
    UInt8.ofNat n ||| 0x80 = UInt8.ofNat (n + 128) := by
  apply UInt8.toNat_inj.mp
  rw [UInt8.toNat_or, toNat_byte (by omega), toNat_byte (by omega)]
  show n ||| 2 ^ 7 * 1 = n + 128
  rw [Nat.or_comm, ← Nat.two_pow_add_eq_or_of_lt h 1]
  omega

/-- The loop appends the varint of its number. -/
theorem appendVarint_eq (bytes : Bytes) (v : UInt64) :
    ProtoWriter.appendVarint bytes v = bytes ++ encodeVarint v.toNat := by
  induction hn : v.toNat using Nat.strongRecOn generalizing bytes v with
  | ind n ih =>
    subst hn
    have hnext : (v >>> 7).toNat = v.toNat / 128 := toNat_shiftRight_seven v
    rw [ProtoWriter.appendVarint, encodeVarint, low_group]
    by_cases hlast : v.toNat < 128
    · have hzero : v >>> 7 = 0 := UInt64.toNat_inj.mp (by rw [hnext]; show _ = 0; omega)
      have hmod : v.toNat % 128 = v.toNat := Nat.mod_eq_of_lt hlast
      simp [hzero, hlast, hmod]
    · have hmore : v >>> 7 ≠ 0 := by
        intro h0
        have hdiv : v.toNat / 128 = 0 := by
          rw [← hnext, h0]
          rfl
        omega
      rw [dif_pos hmore, ih _ (by omega) _ _ rfl, if_neg hlast, hnext,
        continued_group (by omega)]
      simp

theorem littleEndian_eq (v : UInt64) : ProtoWriter.littleEndian v = encodeLittle 8 v.toNat := by
  have hbyte : ∀ k < 64, (v >>> UInt64.ofNat k).toUInt8 = UInt8.ofNat (v.toNat / 2 ^ k % 256) := by
    intro k hk
    apply UInt8.toNat_inj.mp
    have hshift : (v >>> UInt64.ofNat k).toNat = v.toNat / 2 ^ k := by
      rw [UInt64.toNat_shiftRight, UInt64.toNat_ofNat_of_lt' (lt_trans hk (by decide)),
        Nat.mod_eq_of_lt hk]
      exact Nat.shiftRight_eq_div_pow _ k
    rw [UInt64.toNat_toUInt8, hshift, toNat_byte (by omega)]
  have hfirst : v.toUInt8 = UInt8.ofNat (v.toNat % 256) := by
    apply UInt8.toNat_inj.mp
    rw [UInt64.toNat_toUInt8, toNat_byte (by omega)]
  have h8 : (v >>> 8).toUInt8 = _ := hbyte 8 (by decide)
  have h16 : (v >>> 16).toUInt8 = _ := hbyte 16 (by decide)
  have h24 : (v >>> 24).toUInt8 = _ := hbyte 24 (by decide)
  have h32 : (v >>> 32).toUInt8 = _ := hbyte 32 (by decide)
  have h40 : (v >>> 40).toUInt8 = _ := hbyte 40 (by decide)
  have h48 : (v >>> 48).toUInt8 = _ := hbyte 48 (by decide)
  have h56 : (v >>> 56).toUInt8 = _ := hbyte 56 (by decide)
  simp only [ProtoWriter.littleEndian, encodeLittle, hfirst, h8, h16, h24, h32, h40, h48, h56,
    Nat.div_div_eq_div_mul, Nat.reduceMul, Nat.reducePow]

/-! ## Rules -/

/-- A builder that appends the encoding of some fields. -/
structure Writes (build : ProtoWriter → ProtoWriter) (fields : List Field) : Prop where
  grows : ∀ w, w.bytes.length ≤ (build w).bytes.length
  appends : ∀ w, (build w).bytes.length < 2 ^ 63 → (build w).bytes = w.bytes ++ encode fields
  legal : ∀ f ∈ fields, LegalNumber f.number

namespace Writes

theorem tag_eq (w : ProtoWriter) {field wire : Nat} (hfield : LegalNumber field)
    (hwire : wire < 8) :
    (w.tag field wire).bytes = w.bytes ++ encodeVarint (8 * field + wire) := by
  have htag : field <<< 3 ||| wire = 8 * field + wire := by
    rw [← Nat.shiftLeft_add_eq_or_of_lt (show wire < 2 ^ 3 from hwire) field, Nat.shiftLeft_eq]
    omega
  have hfits : 8 * field + wire < 2 ^ 64 := by
    have := hfield.2
    omega
  unfold ProtoWriter.tag
  rw [appendVarint_eq, htag, UInt64.toNat_ofNat_of_lt' hfits]

theorem encode_singleton (f : Field) : encode [f] = f.encode := by
  simp [encode]

/-- A method that always appends one field. -/
theorem of_field {build : ProtoWriter → ProtoWriter} {f : Field} (hnumber : LegalNumber f.number)
    (h : ∀ w, (build w).bytes = w.bytes ++ f.encode) : Writes build [f] := by
  constructor
  · intro w
    rw [h w, List.length_append]
    omega
  · intro w _
    rw [h w, encode_singleton]
  · intro g hg
    rw [List.mem_singleton.mp hg]
    exact hnumber

theorem varint (number : Nat) (hnumber : LegalNumber number) (value : UInt64) :
    Writes (fun w => w.varint number value) [⟨number, .varint value⟩] := by
  refine of_field hnumber fun w => ?_
  unfold ProtoWriter.varint
  rw [appendVarint_eq, tag_eq w hnumber (by decide), List.append_assoc]
  rfl

theorem fixed64 (number : Nat) (hnumber : LegalNumber number) (value : UInt64) :
    Writes (fun w => w.fixed64 number value) [⟨number, .fixed64 value⟩] := by
  refine of_field hnumber fun w => ?_
  unfold ProtoWriter.fixed64
  rw [littleEndian_eq, tag_eq w hnumber (by decide), List.append_assoc]
  rfl

/-- The length of a `Data` fits its varint. -/
theorem rawBytes (number : Nat) (hnumber : LegalNumber number) (value : Bytes) :
    Writes (fun w => w.rawBytes number value) [⟨number, .bytes value⟩] := by
  have hbytes : ∀ w : ProtoWriter, (w.rawBytes number value).bytes =
      w.bytes ++ encodeVarint (8 * number + 2) ++
        encodeVarint (UInt64.ofNat value.length).toNat ++ value := by
    intro w
    unfold ProtoWriter.rawBytes ProtoWriter.appendLenDelimited
    rw [appendVarint_eq, tag_eq w hnumber (by decide)]
  constructor
  · intro w
    simp only [hbytes w, List.length_append]
    omega
  · intro w hlength
    have hvalue : value.length < 2 ^ 64 := by
      rw [hbytes w, List.length_append] at hlength
      omega
    rw [hbytes w, UInt64.toNat_ofNat_of_lt' hvalue, encode_singleton]
    simp [Field.encode, Value.encode, Value.wireType]
  · intro g hg
    rw [List.mem_singleton.mp hg]
    exact hnumber

theorem string (number : Nat) (hnumber : LegalNumber number) (value : String) :
    Writes (fun w => w.string number value) [⟨number, .bytes (textBytes value)⟩] :=
  rawBytes number hnumber _

theorem nothing : Writes (fun w => w) [] := by
  constructor
  · intro w
    exact le_rfl
  · intro w _
    simp [encode]
  · intro f hf
    cases hf

/-- One call after another. -/
theorem comp {f g : ProtoWriter → ProtoWriter} {a b : List Field} (hf : Writes f a)
    (hg : Writes g b) : Writes (fun w => g (f w)) (a ++ b) := by
  constructor
  · intro w
    exact (hf.grows w).trans (hg.grows (f w))
  · intro w hlength
    have hfirst : (f w).bytes.length < 2 ^ 63 := (hg.grows (f w)).trans_lt hlength
    rw [hg.appends (f w) hlength, hf.appends w hfirst]
    simp [encode]
  · intro h hh
    rcases List.mem_append.mp hh with hh | hh
    · exact hf.legal h hh
    · exact hg.legal h hh

theorem message (number : Nat) (hnumber : LegalNumber number)
    {build : ProtoWriter → ProtoWriter} {inner : List Field} (h : Writes build inner) :
    Writes (fun w => w.message number build) [⟨number, .bytes (encode inner)⟩] := by
  have hraw := rawBytes number hnumber (build ⟨[]⟩).bytes
  constructor
  · exact hraw.grows
  · intro w (hlength : (w.rawBytes number (build ⟨[]⟩).bytes).bytes.length < 2 ^ 63)
    have hwritten := hraw.appends w hlength
    have hmem : (build ⟨[]⟩).bytes.length ≤
        (encode [⟨number, .bytes (build ⟨[]⟩).bytes⟩]).length :=
      length_le_of_mem List.mem_cons_self
    have hinner : (build ⟨[]⟩).bytes.length < 2 ^ 63 := by
      have hsum := congrArg List.length hwritten
      rw [List.length_append] at hsum
      omega
    have hbuilt : (build ⟨[]⟩).bytes = encode inner := by
      rw [h.appends ⟨[]⟩ hinner, List.nil_append]
    show (w.rawBytes number (build ⟨[]⟩).bytes).bytes = _
    rw [hwritten, hbuilt]
  · intro g hg
    rw [List.mem_singleton.mp hg]
    exact hnumber

/-- A loop whose body appends one field. -/
theorem forEach {α : Type} {body : ProtoWriter → α → ProtoWriter} {field : α → Field}
    (h : ∀ x, Writes (fun w => body w x) [field x]) (items : List α) :
    Writes (fun w => w.forEach items body) (items.map field) := by
  induction items with
  | nil => exact nothing
  | cons x items ih => exact (h x).comp ih

theorem decode_build {build : ProtoWriter → ProtoWriter} {fields : List Field}
    (h : Writes build fields) (hlength : (build ⟨[]⟩).bytes.length < 2 ^ 63) :
    (build ⟨[]⟩).bytes = encode fields ∧ decode (build ⟨[]⟩).bytes = some fields := by
  have hbytes : (build ⟨[]⟩).bytes = encode fields := by
    rw [h.appends ⟨[]⟩ hlength, List.nil_append]
  refine ⟨hbytes, ?_⟩
  rw [hbytes] at hlength ⊢
  exact decode_encode h.legal hlength

end Writes

end CommercePlayground.Otlp
