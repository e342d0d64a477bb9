/-
CommercePlayground.Analytics.EventIdTheorems — both services derive one id.

Masking a word masks its bytes, so the words of fulfillment are the packed bytes that the
storefront stamps (`most_eq`, `least_eq`); the rest is that a field of a word shows the
digits of the bytes it covers. What is hashed can be cut at its first NUL, which no tenant
without control characters has.
-/
import CommercePlayground.Analytics.EventId

namespace CommercePlayground.Analytics

open Lib Propagation

/-! ## The stamped bytes -/

theorem storefront_eq (sha256 : List Nat → Digest) (tenantId eventKey : Text) :
    StorefrontService.deterministicEventId sha256 tenantId eventKey =
      StorefrontService.uuidToString
        (stamped (sha256 (StorefrontService.identity tenantId eventKey))) := rfl

namespace FulfillmentService

/-- The sign of a byte does not get past the mask. -/
theorem signExtend_masked (byte : BitVec 8) : byte.signExtend 64 &&& 0xff = byte.setWidth 64 := by
  revert byte
  decide

theorem packed_eq (digest : Digest) : packed digest =
    (packBytes [digest 0, digest 1, digest 2, digest 3, digest 4, digest 5, digest 6, digest 7],
      packBytes [digest 8, digest 9, digest 10, digest 11, digest 12, digest 13, digest 14,
        digest 15]) := by
  unfold packed
  simp only [signExtend_masked]
  rfl

/-- A mask that keeps a byte and sets nothing. -/
theorem byte_kept (byte : BitVec 8) : (byte &&& 0xff) ||| 0 = byte := by
  revert byte
  decide

theorem most_eq (digest : Digest) : ((packed digest).1 &&& 0xffffffffffff0fff) ||| 0x5000 =
    packBytes ((stamped digest).take 8) := by
  have hmask : (0xffffffffffff0fff : BitVec 64) =
      packBytes [0xff, 0xff, 0xff, 0xff, 0xff, 0xff, 0x0f, 0xff] := by decide
  have hstamp : (0x5000 : BitVec 64) = packBytes [0, 0, 0, 0, 0, 0, 0x50, 0] := by decide
  rw [packed_eq, hmask, hstamp, packBytes_and (by rfl), packBytes_or (by rfl)]
  simp only [List.zipWith_cons_cons, List.zipWith_nil_left, byte_kept]
  rfl

theorem least_eq (digest : Digest) :
    ((packed digest).2 &&& 0x3fffffffffffffff) ||| 0x8000000000000000 =
      packBytes ((stamped digest).drop 8) := by
  have hmask : (0x3fffffffffffffff : BitVec 64) =
      packBytes [0x3f, 0xff, 0xff, 0xff, 0xff, 0xff, 0xff, 0xff] := by decide
  have hstamp : (0x8000000000000000 : BitVec 64) = packBytes [0x80, 0, 0, 0, 0, 0, 0, 0] := by
    decide
  rw [packed_eq, hmask, hstamp, packBytes_and (by rfl), packBytes_or (by rfl)]
  simp only [List.zipWith_cons_cons, List.zipWith_nil_left, byte_kept]
  rfl

/-! ## The fields of a word -/

theorem digits_eq (bits : BitVec 64) (count : Nat) :
    digits bits count = (nibbles bits.toNat count).map (hexDigit false) := by
  have hdigit : ∀ i, ((bits >>> (4 * i)) &&& 0xf).toNat = bits.toNat / 16 ^ i % 16 := by
    intro i
    rw [BitVec.toNat_and, BitVec.toNat_ushiftRight, Nat.shiftRight_eq_div_pow, Nat.pow_mul]
    exact Nat.and_two_pow_sub_one_eq_mod _ 4
  unfold digits nibbles
  simp only [hdigit, List.map_map]
  rfl

theorem hexBytes_eq (bytes : List (BitVec 8)) :
    (bytes.flatMap byteNibbles).map (hexDigit false) = StorefrontService.hexBytes bytes := by
  unfold StorefrontService.hexBytes
  rw [List.map_flatMap]
  rfl

/-- The field that covers a run of bytes shows their digits. -/
theorem digits_window {bytes : List (BitVec 8)} (hlength : bytes.length = 8) {i k : Nat}
    (hrun : i + k ≤ 8) :
    digits ((packBytes bytes : BitVec 64) >>> (8 * (8 - (i + k)))) (2 * k) =
      StorefrontService.hexBytes ((bytes.drop i).take k) := by
  have hcut : bytes.take i ++ (bytes.drop i).take k ++ bytes.drop (i + k) = bytes := by
    rw [List.append_assoc, ← List.drop_drop, List.take_append_drop, List.take_append_drop]
  have hlow : (bytes.drop (i + k)).length = 8 - (i + k) := by rw [List.length_drop, hlength]
  have hmid : ((bytes.drop i).take k).length = k := by
    rw [List.length_take, List.length_drop, hlength]
    omega
  have hwindow := nibbles_window (bytes.take i) ((bytes.drop i).take k) (bytes.drop (i + k))
  rw [hcut, hlow, hmid] at hwindow
  rw [digits_eq, BitVec.toNat_ushiftRight, toNat_packBytes (by omega), Nat.shiftRight_eq_div_pow,
    Nat.pow_mul, ← hexBytes_eq]
  exact congrArg (List.map (hexDigit false)) hwindow

theorem uuidToString_eq {bytes : List (BitVec 8)} (h : bytes.length = 16) :
    uuidToString (packBytes (bytes.take 8)) (packBytes (bytes.drop 8)) =
      StorefrontService.uuidToString bytes := by
  have hmost : (bytes.take 8).length = 8 := by rw [List.length_take, h]; rfl
  have hleast : (bytes.drop 8).length = 8 := by rw [List.length_drop, h]
  have hlow : digits (packBytes (bytes.take 8) >>> 32) 8 =
      StorefrontService.hexBytes (bytes.take 4) := by
    simpa [List.take_take] using digits_window hmost (i := 0) (k := 4) (by decide)
  have hmid : digits (packBytes (bytes.take 8) >>> 16) 4 =
      StorefrontService.hexBytes ((bytes.drop 4).take 2) := by
    simpa [List.drop_take, List.take_take] using digits_window hmost (i := 4) (k := 2) (by decide)
  have hversion : digits (packBytes (bytes.take 8)) 4 =
      StorefrontService.hexBytes ((bytes.drop 6).take 2) := by
    simpa [List.drop_take, List.take_take] using digits_window hmost (i := 6) (k := 2) (by decide)
  have hvariant : digits (packBytes (bytes.drop 8) >>> 48) 4 =
      StorefrontService.hexBytes ((bytes.drop 8).take 2) := by
    simpa using digits_window hleast (i := 0) (k := 2) (by decide)
  have hnode : digits (packBytes (bytes.drop 8)) 12 =
      StorefrontService.hexBytes (bytes.drop 10) := by
    have hall : (bytes.drop 10).take 6 = bytes.drop 10 :=
      List.take_of_length_le (by rw [List.length_drop, h])
    simpa [hall] using digits_window hleast (i := 2) (k := 6) (by decide)
  unfold uuidToString StorefrontService.uuidToString
  rw [hlow, hmid, hversion, hvariant, hnode]

end FulfillmentService

/-! ## What is hashed -/

theorem identity_eq (tenantId eventKey : Text) :
    FulfillmentService.identity tenantId eventKey =
      StorefrontService.identity tenantId eventKey := by
  have happend : ∀ a b : Text, utf8 (a ++ b) = utf8 a ++ utf8 b := fun a b => List.flatMap_append
  have hnul : ∀ s : Text, utf8 (Char.ofNat 0 :: s) = 0 :: utf8 s := fun s => by
    rw [utf8_cons]
    rfl
  unfold FulfillmentService.identity StorefrontService.identity
  rw [happend, happend, hnul, hnul]
  simp only [List.append_assoc, List.cons_append, List.nil_append]

/-- The two services derive the same text, whatever the digest. -/
theorem event_id_eq (sha256 : List Nat → Digest) (tenantId eventKey : Text) :
    FulfillmentService.deterministicEventId sha256 tenantId eventKey =
      StorefrontService.deterministicEventId sha256 tenantId eventKey := by
  unfold FulfillmentService.deterministicEventId
  rw [storefront_eq, identity_eq]
  simp only
  rw [FulfillmentService.most_eq, FulfillmentService.least_eq,
    FulfillmentService.uuidToString_eq rfl]

/-- No byte of such a tenant is the NUL that ends it. -/
theorem nul_not_mem {tenantId : Text} (h : ∀ c ∈ tenantId, isControl c = false) :
    0 ∉ utf8 tenantId := by
  intro hmem
  obtain ⟨c, hc, hbyte⟩ := List.mem_flatMap.mp hmem
  have hcontrol := h c hc
  have hlarge : 0x20 ≤ c.toNat := by
    simp only [isControl, Bool.or_eq_false_iff, decide_eq_false_iff_not] at hcontrol
    omega
  have hbyte : 0 ∈ utf8Char c := hbyte
  rw [utf8Char_eq] at hbyte
  split_ifs at hbyte <;> simp only [List.mem_cons, List.not_mem_nil, or_false] at hbyte <;> omega

theorem append_cons_inj {a a' b b' : List Nat} (ha : 0 ∉ a) (ha' : 0 ∉ a')
    (h : a ++ 0 :: b = a' ++ 0 :: b') : a = a' ∧ b = b' := by
  induction a generalizing a' with
  | nil =>
    cases a' with
    | nil => exact ⟨rfl, (List.cons.inj h).2⟩
    | cons n a' => exact absurd ((List.cons.inj h).1 ▸ List.mem_cons_self) ha'
  | cons n a ih =>
    cases a' with
    | nil => exact absurd ((List.cons.inj h).1 ▸ List.mem_cons_self) ha
    | cons n' a' =>
      obtain ⟨rfl, htail⟩ := List.cons.inj h
      obtain ⟨rfl, rfl⟩ := ih (fun hm => ha (List.mem_cons_of_mem _ hm))
        (fun hm => ha' (List.mem_cons_of_mem _ hm)) htail
      exact ⟨rfl, rfl⟩

theorem utf8_injective : Function.Injective utf8 := by
  intro a b h
  have := fromUtf8_utf8 a
  rw [h, fromUtf8_utf8 b] at this
  exact (Option.some.inj this).symm

theorem identity_injective {tenantId tenantId' eventKey eventKey' : Text}
    (htenant : ∀ c ∈ tenantId, isControl c = false)
    (htenant' : ∀ c ∈ tenantId', isControl c = false)
    (h : StorefrontService.identity tenantId eventKey =
      StorefrontService.identity tenantId' eventKey') :
    tenantId = tenantId' ∧ eventKey = eventKey' := by
  unfold StorefrontService.identity at h
  simp only [List.append_assoc, List.append_cancel_left_eq, List.cons_append,
    List.nil_append, List.cons.injEq, true_and] at h
  obtain ⟨hsame, hkey⟩ := append_cons_inj (nul_not_mem htenant) (nul_not_mem htenant') h
  exact ⟨utf8_injective hsame, utf8_injective hkey⟩

/-! ## What the text shows -/

theorem hexDigit_isLowerHex {n : Nat} (h : n < 16) : isLowerHex (hexDigit false n) = true := by
  have hall : ∀ n < 16, isLowerHex (hexDigit false n) = true := by decide
  exact hall n h

theorem hexBytes_length (bytes : List (BitVec 8)) :
    (StorefrontService.hexBytes bytes).length = 2 * bytes.length := by
  induction bytes with
  | nil => rfl
  | cons byte bytes ih =>
    show ((hexByte false byte.toNat) ++ StorefrontService.hexBytes bytes).length = _
    rw [List.length_append, ih, List.length_cons]
    simp only [hexByte, List.length_cons, List.length_nil]
    omega

theorem hexBytes_isLowerHex {bytes : List (BitVec 8)} {c : Char}
    (h : c ∈ StorefrontService.hexBytes bytes) : isLowerHex c = true := by
  obtain ⟨byte, -, hc⟩ := List.mem_flatMap.mp h
  have hbyte : byte.toNat < 256 := byte.isLt
  simp only [hexByte, List.mem_cons, List.not_mem_nil, or_false] at hc
  rcases hc with rfl | rfl
  · exact hexDigit_isLowerHex (by omega)
  · exact hexDigit_isLowerHex (by omega)

theorem version_digit (byte : BitVec 8) :
    hexDigit false (((byte &&& 0x0f) ||| 0x50).toNat / 16) = '5' := by
  revert byte
  decide

theorem variant_digit (byte : BitVec 8) :
    hexDigit false (((byte &&& 0x3f) ||| 0x80).toNat / 16) ∈ ['8', '9', 'a', 'b'] := by
  revert byte
  decide

theorem isVersion5_stamped (digest : Digest) :
    IsVersion5 (StorefrontService.uuidToString (stamped digest)) := by
  refine ⟨_, _, _, _, _, rfl, ?_, ?_, ?_, _, variant_digit (digest 8), rfl⟩
  · simp only [List.map_cons, List.map_nil, hexBytes_length]
    rfl
  · intro c hc
    simp only [List.mem_append] at hc
    rcases hc with (((hc | hc) | hc) | hc) | hc <;> exact hexBytes_isLowerHex hc
  · exact congrArg some (version_digit (digest 6))

/-! ## When two ids coincide -/

theorem hexBytes_injective {a b : List (BitVec 8)}
    (h : StorefrontService.hexBytes a = StorefrontService.hexBytes b) : a = b := by
  have hdigit : ∀ m < 16, ∀ n < 16, hexDigit false m = hexDigit false n → m = n := by decide
  induction a generalizing b with
  | nil =>
    cases b with
    | nil => rfl
    | cons y b => cases h
  | cons x a ih =>
    cases b with
    | nil => cases h
    | cons y b =>
      have hx : x.toNat < 256 := x.isLt
      have hy : y.toNat < 256 := y.isLt
      obtain ⟨hhigh, hrest⟩ := List.cons.inj h
      obtain ⟨hlow, hrest⟩ := List.cons.inj hrest
      have hhigh := hdigit _ (by omega) _ (by omega) hhigh
      have hlow := hdigit _ (by omega) _ (by omega) hlow
      rw [BitVec.eq_of_toNat_eq (show x.toNat = y.toNat by omega), ih hrest]

theorem filter_hyphenated (bytes : List (BitVec 8)) :
    (StorefrontService.uuidToString bytes).filter (fun c => decide (c ≠ '-')) =
      StorefrontService.hexBytes bytes := by
  have hkept : ∀ bytes, (StorefrontService.hexBytes bytes).filter (fun c => decide (c ≠ '-')) =
      StorefrontService.hexBytes bytes := by
    intro bytes
    refine List.filter_eq_self.mpr fun c hc => ?_
    have := hexBytes_isLowerHex hc
    simp only [decide_eq_true_eq]
    rintro rfl
    revert this
    decide
  have happend : ∀ a b, StorefrontService.hexBytes a ++ StorefrontService.hexBytes b =
      StorefrontService.hexBytes (a ++ b) := fun a b => List.flatMap_append.symm
  have hhyphen : ∀ rest : Text, ('-' :: rest).filter (fun c => decide (c ≠ '-')) =
      rest.filter fun c => decide (c ≠ '-') := fun rest => rfl
  have hcut : ∀ i, (bytes.drop i).take 2 ++ bytes.drop (i + 2) = bytes.drop i := by
    intro i
    rw [← List.drop_drop, List.take_append_drop]
  unfold StorefrontService.uuidToString hyphenated
  simp only [List.filter_append, List.append_assoc, List.cons_append, hhyphen, hkept, happend]
  rw [hcut 8, hcut 6, hcut 4, List.take_append_drop]

theorem uuidToString_injective {a b : List (BitVec 8)}
    (h : StorefrontService.uuidToString a = StorefrontService.uuidToString b) : a = b := by
  have hfilter := congrArg (List.filter fun c => decide (c ≠ '-')) h
  rw [filter_hyphenated, filter_hyphenated] at hfilter
  exact hexBytes_injective hfilter

theorem bits_append_inj {v w : Nat} {x x' : BitVec v} {y y' : BitVec w} :
    x ++ y = x' ++ y' ↔ x = x' ∧ y = y' := by
  constructor
  · intro h
    have hhigh : (x ++ y).extractLsb' w v = (x' ++ y').extractLsb' w v := by rw [h]
    have hlow : (x ++ y).extractLsb' 0 w = (x' ++ y').extractLsb' 0 w := by rw [h]
    rw [BitVec.extractLsb'_append_eq_left, BitVec.extractLsb'_append_eq_left] at hhigh
    rw [BitVec.extractLsb'_append_eq_right, BitVec.extractLsb'_append_eq_right] at hlow
    exact ⟨hhigh, hlow⟩
  · rintro ⟨rfl, rfl⟩
    rfl

/-- A stamp fixes the upper bits of its byte and leaves the others alone. -/
theorem version_bits (a b : BitVec 8) :
    (a &&& 0x0f) ||| 0x50 = (b &&& 0x0f) ||| 0x50 ↔ a.setWidth 4 = b.setWidth 4 := by
  have hkeeps : ∀ a : BitVec 8, ((a &&& 0x0f) ||| 0x50).setWidth 4 = a.setWidth 4 := by decide
  have hfrom : ∀ a : BitVec 8, (a &&& 0x0f) ||| 0x50 = (a.setWidth 4).setWidth 8 ||| 0x50 := by
    decide
  constructor
  · intro h
    rw [← hkeeps a, h, hkeeps b]
  · intro h
    rw [hfrom a, h, ← hfrom b]

theorem variant_bits (a b : BitVec 8) :
    (a &&& 0x3f) ||| 0x80 = (b &&& 0x3f) ||| 0x80 ↔ a.setWidth 6 = b.setWidth 6 := by
  have hkeeps : ∀ a : BitVec 8, ((a &&& 0x3f) ||| 0x80).setWidth 6 = a.setWidth 6 := by decide
  have hfrom : ∀ a : BitVec 8, (a &&& 0x3f) ||| 0x80 = (a.setWidth 6).setWidth 8 ||| 0x80 := by
    decide
  constructor
  · intro h
    rw [← hkeeps a, h, hkeeps b]
  · intro h
    rw [hfrom a, h, ← hfrom b]

theorem stamped_eq_iff (a b : Digest) : stamped a = stamped b ↔ freeBits a = freeBits b := by
  have hfree : freeBits a = freeBits b ↔ _ := bits_append_inj
  rw [hfree]
  simp only [bits_append_inj, stamped, List.cons.injEq, and_true, version_bits, variant_bits,
    and_assoc]

/-- Both services derive one id for an event, of version 5 and with the variant of the
standard; what is hashed names the event, so two events share an id exactly when their
digests agree in 122 bits. -/
theorem event_identity (sha256 : List Nat → Digest) :
    (∀ tenantId eventKey,
      FulfillmentService.deterministicEventId sha256 tenantId eventKey =
        StorefrontService.deterministicEventId sha256 tenantId eventKey ∧
      IsVersion5 (StorefrontService.deterministicEventId sha256 tenantId eventKey)) ∧
    ∀ tenantId tenantId' eventKey eventKey' : Text,
      (∀ c ∈ tenantId, isControl c = false) → (∀ c ∈ tenantId', isControl c = false) →
      (tenantId, eventKey) ≠ (tenantId', eventKey') →
        FulfillmentService.identity tenantId eventKey =
          StorefrontService.identity tenantId eventKey ∧
        StorefrontService.identity tenantId eventKey ≠
          StorefrontService.identity tenantId' eventKey' ∧
        (StorefrontService.deterministicEventId sha256 tenantId eventKey =
            StorefrontService.deterministicEventId sha256 tenantId' eventKey' ↔
          freeBits (sha256 (StorefrontService.identity tenantId eventKey)) =
            freeBits (sha256 (StorefrontService.identity tenantId' eventKey'))) := by
  refine ⟨fun tenantId eventKey => ⟨event_id_eq sha256 tenantId eventKey, ?_⟩, ?_⟩
  · rw [storefront_eq]
    exact isVersion5_stamped _
  · intro tenantId tenantId' eventKey eventKey' htenant htenant' hne
    refine ⟨identity_eq tenantId eventKey, fun h => hne ?_, ?_⟩
    · obtain ⟨rfl, rfl⟩ := identity_injective htenant htenant' h
      rfl
    · rw [storefront_eq, storefront_eq, ← stamped_eq_iff]
      exact ⟨uuidToString_injective, congrArg StorefrontService.uuidToString⟩

theorem event_identity_near_keys :
    StorefrontService.identity "eu".toList "paid:1".toList ≠
      StorefrontService.identity "eu-1".toList "paid".toList ∧
    IsVersion5 (StorefrontService.deterministicEventId (fun _ i => BitVec.ofNat 8 i) "eu".toList
      "paid:1".toList) := by
  have h := event_identity fun _ i => BitVec.ofNat 8 i
  have hdistinct := h.2 "eu".toList "eu-1".toList "paid:1".toList "paid".toList
    (forall_mem_of_all (by decide)) (forall_mem_of_all (by decide)) (by decide)
  exact ⟨hdistinct.2.1, (h.1 _ _).2⟩

example : StorefrontService.deterministicEventId (fun _ i => BitVec.ofNat 8 (15 * i)) [] [] =
    "000f1e2d-3c4b-5a69-b887-96a5b4c3d2e1".toList := by decide

end CommercePlayground.Analytics
