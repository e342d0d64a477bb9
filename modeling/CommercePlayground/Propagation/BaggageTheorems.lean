/-
CommercePlayground.Propagation.BaggageTheorems — which stored baggage fulfillment
reads.

Both parsers are one loop: every member has a form, and no key comes twice
(`EachOnce`). So it is enough to compare what they ask of a member. Fulfillment asks
for more than the shared library: a value that is not empty and has no `=`, and
properties that all have a value, of the same kind and bounded, under keys of a
smaller alphabet. The bound on the members is met because there are eight safe keys,
the one on the header is not.
-/
import Mathlib.Data.List.Perm.Subperm
import CommercePlayground.Propagation.Baggage

namespace CommercePlayground.Propagation

open Lib

/-! ## Loops that see every key once -/

section EachOnce

variable {P Q : Text → Text → Prop} {R : Text → Prop}

/-- Every piece has a key, and no key comes twice. -/
def EachOnce (P : Text → Text → Prop) : List Text → List Text → Prop
  | _, [] => True
  | seen, raw :: rest => ∃ key, P raw key ∧ key ∉ seen ∧ EachOnce P (key :: seen) rest

theorem EachOnce.keys {seen raws : List Text} (h : EachOnce P seen raws) :
    ∃ keys : List Text, keys.length = raws.length ∧ keys.Nodup ∧ (∀ key ∈ keys, key ∉ seen) ∧
      ∀ key ∈ keys, ∃ raw ∈ raws, P raw key := by
  induction raws generalizing seen with
  | nil =>
    exact ⟨[], rfl, List.nodup_nil, fun key hkey => absurd hkey List.not_mem_nil,
      fun key hkey => absurd hkey List.not_mem_nil⟩
  | cons raw raws ih =>
    obtain ⟨key, hP, hseen, hrest⟩ := h
    obtain ⟨keys, hlength, hnodup, hnew, hkeys⟩ := ih hrest
    have hkey : key ∉ keys := fun hmem => hnew key hmem List.mem_cons_self
    refine ⟨key :: keys, by simp [hlength], List.nodup_cons.mpr ⟨hkey, hnodup⟩, ?_, ?_⟩
    · intro k hk
      rcases List.mem_cons.mp hk with rfl | hk
      · exact hseen
      · exact fun hmem => hnew k hk (List.mem_cons_of_mem key hmem)
    · intro k hk
      rcases List.mem_cons.mp hk with rfl | hk
      · exact ⟨raw, List.mem_cons_self, hP⟩
      · obtain ⟨r, hr, hPr⟩ := hkeys k hk
        exact ⟨r, List.mem_cons_of_mem raw hr, hPr⟩

/-- Two loops over the same pieces: where the second asks for something more of each
piece, that is all that is between them. -/
theorem EachOnce.more {seen raws : List Text} (h : EachOnce P seen raws)
    (hkey : ∀ raw key key', P raw key → Q raw key' → key = key')
    (hmore : ∀ raw ∈ raws, ∀ key, P raw key → (Q raw key ↔ R raw)) :
    EachOnce Q seen raws ↔ ∀ raw ∈ raws, R raw := by
  induction raws generalizing seen with
  | nil => exact ⟨fun _ raw hraw => absurd hraw List.not_mem_nil, fun _ => trivial⟩
  | cons raw raws ih =>
    obtain ⟨key, hP, hseen, hrest⟩ := h
    have hrec := ih hrest fun r hr => hmore r (List.mem_cons_of_mem raw hr)
    have hraw := hmore raw List.mem_cons_self key hP
    constructor
    · rintro ⟨key', hQ, -, hafter⟩ r hr
      obtain rfl := hkey raw key key' hP hQ
      rcases List.mem_cons.mp hr with rfl | hr
      · exact hraw.mp hQ
      · exact hrec.mp hafter r hr
    · intro hall
      exact ⟨key, hraw.mpr (hall raw List.mem_cons_self), hseen,
        hrec.mpr fun r hr => hall r (List.mem_cons_of_mem raw hr)⟩

/-- A loop over pieces that are made of something with a key each. -/
theorem eachOnce_map_iff {β : Type} {text key : β → Text} {xs : List β} {seen : List Text}
    (hP : ∀ x ∈ xs, ∀ k, P (text x) k → key x = k) :
    EachOnce P seen (xs.map text) ↔ (∀ x ∈ xs, P (text x) (key x)) ∧ (xs.map key).Nodup ∧
      ∀ x ∈ xs, key x ∉ seen := by
  induction xs generalizing seen with
  | nil =>
    exact ⟨fun _ => ⟨fun x h => absurd h List.not_mem_nil, List.nodup_nil,
      fun x h => absurd h List.not_mem_nil⟩, fun _ => trivial⟩
  | cons x xs ih =>
    have hrec := fun seen => @ih seen fun y hy => hP y (List.mem_cons_of_mem x hy)
    rw [List.map_cons, List.map_cons, List.nodup_cons]
    constructor
    · rintro ⟨k, hk, hseen, hrest⟩
      obtain rfl := hP x List.mem_cons_self k hk
      obtain ⟨hall, hnodup, hnew⟩ := (hrec _).mp hrest
      refine ⟨fun y hy => ?_, ⟨fun hmem => ?_, hnodup⟩, fun y hy => ?_⟩
      · rcases List.mem_cons.mp hy with rfl | hy
        · exact hk
        · exact hall y hy
      · obtain ⟨y, hy, heq⟩ := List.mem_map.mp hmem
        exact hnew y hy (heq ▸ List.mem_cons_self)
      · rcases List.mem_cons.mp hy with rfl | hy
        · exact hseen
        · exact fun hmem => hnew y hy (List.mem_cons_of_mem _ hmem)
    · rintro ⟨hall, ⟨hx, hnodup⟩, hnew⟩
      refine ⟨key x, hall x List.mem_cons_self, hnew x List.mem_cons_self, (hrec _).mpr
        ⟨fun y hy => hall y (List.mem_cons_of_mem x hy), hnodup, fun y hy hmem => ?_⟩⟩
      rcases List.mem_cons.mp hmem with heq | hmem
      · exact hx (heq ▸ List.mem_map_of_mem hy)
      · exact hnew y (List.mem_cons_of_mem x hy) hmem

end EachOnce

/-! ## The shared library -/

/-- The value of a member and its properties. -/
def valuePieces (rawValue : Text) : Text × List Text :=
  ((rawValue.splitOn ';').headD [], (rawValue.splitOn ';').tail)

theorem valuePieces_eq (rawValue : Text) : valuePieces rawValue =
    match splitOnce ';' rawValue with
    | none => (rawValue, [])
    | some (value, properties) => (value, properties.splitOn ';') := by
  unfold valuePieces
  rw [splitOn_eq]
  cases splitOnce ';' rawValue with
  | none => rfl
  | some p => rfl

/-- The key of a property and its value, if it has one. -/
def propertyParts (raw : Text) : Text × Option Text :=
  match splitOnce '=' (trimOws raw) with
  | some (key, value) => (trimOws key, some value)
  | none => (trimOws (trimOws raw), none)

/-- What the shared library asks of a property. -/
def SharedProperty (raw key : Text) : Prop :=
  trimOws raw ≠ [] ∧ (propertyParts raw).1 = key ∧ Shared.validBaggageKey key = true ∧
    ∀ value, (propertyParts raw).2 = some value → Shared.validBaggageValue (trimOws value) = true

/-- And of a member. -/
def SharedMember (raw key : Text) : Prop :=
  ∃ rawKey rawValue, splitOnce '=' (trimOws raw) = some (rawKey, rawValue) ∧
    trimOws rawKey = key ∧ Shared.validBaggageKey key = true ∧
    Shared.validBaggageValue (trimOws (valuePieces rawValue).1) = true ∧
    EachOnce SharedProperty [] (valuePieces rawValue).2

theorem baggageProperties_ok (seen raws : List Text) :
    Shared.baggageProperties seen raws = .ok () ↔ EachOnce SharedProperty seen raws := by
  induction raws generalizing seen with
  | nil => exact ⟨fun _ => trivial, fun _ => rfl⟩
  | cons raw raws ih =>
    have hparts : Shared.baggageProperties seen (raw :: raws) =
        if (trimOws raw).isEmpty then .error "durable W3C baggage property is invalid"
        else if !Shared.validBaggageKey (propertyParts raw).1 ||
            seen.contains (propertyParts raw).1 then
          .error "durable W3C baggage property is invalid"
        else if (propertyParts raw).2.any fun value =>
            !Shared.validBaggageValue (trimOws value) then
          .error "durable W3C baggage property value is invalid"
        else Shared.baggageProperties ((propertyParts raw).1 :: seen) raws := by
      conv_lhs => unfold Shared.baggageProperties
      rfl
    rw [hparts]
    constructor
    · intro h
      split at h
      · cases h
      split at h
      · cases h
      split at h
      · cases h
      rename_i hempty hkey hvalue
      simp only [Bool.or_eq_true, Bool.not_eq_true', not_or, Bool.not_eq_false,
        List.contains_iff_mem] at hkey
      refine ⟨_, ⟨by simpa using hempty, rfl, hkey.1, fun value hv => ?_⟩, hkey.2, (ih _).mp h⟩
      rw [hv] at hvalue
      simpa using hvalue
    · rintro ⟨key, ⟨hne, rfl, hvalid, hvalue⟩, hseen, hrest⟩
      rw [if_neg (by simpa using hne), if_neg (by simp [hvalid, hseen]), if_neg, (ih _).mpr hrest]
      cases hv : (propertyParts raw).2 with
      | none => simp
      | some value => simp [hvalue value hv]

theorem baggageMembers_cons {raw rawKey rawValue : Text} (seen raws : List Text)
    (hsplit : splitOnce '=' (trimOws raw) = some (rawKey, rawValue)) :
    Shared.baggageMembers seen (raw :: raws) =
      if !Shared.validBaggageKey (trimOws rawKey) || seen.contains (trimOws rawKey) then
        .error "durable W3C baggage member is invalid"
      else if !Shared.validBaggageValue (trimOws (valuePieces rawValue).1) then
        .error "durable W3C baggage value is invalid"
      else
        match Shared.baggageProperties [] (valuePieces rawValue).2 with
        | .error message => .error message
        | .ok () => Shared.baggageMembers (trimOws rawKey :: seen) raws := by
  have hne : (trimOws raw).isEmpty = false := by
    rw [(splitOnce_some hsplit).1]
    simp
  conv_lhs => unfold Shared.baggageMembers
  rw [valuePieces_eq]
  simp only [hne, hsplit, Bool.false_eq_true, if_false]
  cases splitOnce ';' rawValue with
  | none => rfl
  | some q => rfl

theorem baggageMembers_ok (seen raws : List Text) :
    Shared.baggageMembers seen raws = .ok () ↔ EachOnce SharedMember seen raws := by
  induction raws generalizing seen with
  | nil => exact ⟨fun _ => trivial, fun _ => rfl⟩
  | cons raw raws ih =>
    cases hsplit : splitOnce '=' (trimOws raw) with
    | none =>
      have herror : Shared.baggageMembers seen (raw :: raws) =
          .error "durable W3C baggage member is invalid" := by
        unfold Shared.baggageMembers
        simp only [hsplit, ite_self]
      rw [herror]
      refine ⟨fun h => (by cases h), ?_⟩
      rintro ⟨key, ⟨rawKey, rawValue, hsome, -⟩, -⟩
      rw [hsplit] at hsome
      cases hsome
    | some p =>
      obtain ⟨rawKey, rawValue⟩ := p
      rw [baggageMembers_cons seen raws hsplit]
      constructor
      · intro h
        split at h
        · cases h
        split at h
        · cases h
        rename_i hkey hvalue
        simp only [Bool.or_eq_true, Bool.not_eq_true', not_or, Bool.not_eq_false,
          List.contains_iff_mem] at hkey hvalue
        split at h
        · cases h
        · rename_i hproperties
          exact ⟨_, ⟨rawKey, rawValue, hsplit, rfl, hkey.1, hvalue,
            (baggageProperties_ok _ _).mp hproperties⟩, hkey.2, (ih _).mp h⟩
      · rintro ⟨key, ⟨rawKey', rawValue', hsome, rfl, hvalid, hvalue, hproperties⟩, hseen, hrest⟩
        rw [hsplit] at hsome
        cases hsome
        rw [if_neg (by simp [hvalid, hseen]), if_neg (by simp [hvalue]),
          (baggageProperties_ok _ _).mpr hproperties]
        exact (ih _).mpr hrest

/-! ## The fulfillment service -/

/-- What fulfillment asks of a member. -/
def FulfillmentMember (raw key : Text) : Prop :=
  ∃ rawKey rawValue, splitOnce '=' (trimOws raw) = some (rawKey, rawValue) ∧
    rawKey ≠ [] ∧ rawValue ≠ [] ∧ trimOws rawKey = key ∧
    FulfillmentService.validBaggageKey key = true ∧
    FulfillmentService.validEncodedBaggageValue (trimOws (valuePieces rawValue).1) = true ∧
    (∃ decoded, FulfillmentService.decodeBaggageValue (trimOws (valuePieces rawValue).1) =
      some decoded) ∧
    ∀ metadata ∈ (valuePieces rawValue).2, FulfillmentService.validMetadata metadata = true

theorem not_isBlank_of_equals {s : Text} (h : '=' ∈ s) : isBlank s = false := by
  refine List.all_eq_false.mpr ⟨'=', h, ?_⟩
  decide

theorem parsedMembers_cons {raw rawKey rawValue : Text} (seen raws : List Text)
    (hsplit : splitOnce '=' (trimOws raw) = some (rawKey, rawValue)) :
    FulfillmentService.baggageMembers seen (raw :: raws) =
      if rawKey.isEmpty || rawValue.isEmpty then
        .error "RabbitMQ baggage header has an invalid member"
      else if !FulfillmentService.validBaggageKey (trimOws rawKey) ||
          !FulfillmentService.validEncodedBaggageValue (trimOws (valuePieces rawValue).1) ||
          seen.contains (trimOws rawKey) then
        .error "RabbitMQ baggage header has an invalid member"
      else
        match FulfillmentService.decodeBaggageValue (trimOws (valuePieces rawValue).1) with
        | none => .error "RabbitMQ baggage header has an invalid member"
        | some decodedValue =>
          if (valuePieces rawValue).2.all FulfillmentService.validMetadata then do
            let members ← FulfillmentService.baggageMembers (trimOws rawKey :: seen) raws
            return ⟨trimOws rawKey, decodedValue, trimOws rawKey ++
              '=' :: trimOws (valuePieces rawValue).1 ++ ((valuePieces rawValue).2.flatMap
                fun metadata => ';' :: trimOws metadata)⟩ :: members
          else .error "RabbitMQ baggage header has an invalid member" := by
  have hblank : isBlank (trimOws raw) = false := by
    apply not_isBlank_of_equals
    rw [(splitOnce_some hsplit).1]
    simp
  conv_lhs => unfold FulfillmentService.baggageMembers
  simp only [hsplit, hblank, Bool.false_or]
  rfl

theorem parsedMembers_ok (seen raws : List Text) :
    (∃ members, FulfillmentService.baggageMembers seen raws = .ok members) ↔
      EachOnce FulfillmentMember seen raws := by
  induction raws generalizing seen with
  | nil => exact ⟨fun _ => trivial, fun _ => ⟨[], rfl⟩⟩
  | cons raw raws ih =>
    cases hsplit : splitOnce '=' (trimOws raw) with
    | none =>
      have herror : FulfillmentService.baggageMembers seen (raw :: raws) =
          .error "RabbitMQ baggage header has an invalid member" := by
        unfold FulfillmentService.baggageMembers
        simp only [hsplit]
      rw [herror]
      refine ⟨?_, ?_⟩
      · rintro ⟨members, h⟩
        cases h
      · rintro ⟨key, ⟨rawKey, rawValue, hsome, -⟩, -⟩
        rw [hsplit] at hsome
        cases hsome
    | some p =>
      obtain ⟨rawKey, rawValue⟩ := p
      rw [parsedMembers_cons seen raws hsplit]
      constructor
      · rintro ⟨members, h⟩
        split at h
        · cases h
        split at h
        · cases h
        rename_i hne hkey
        simp only [Bool.or_eq_true, List.isEmpty_iff, not_or] at hne
        simp only [Bool.or_eq_true, Bool.not_eq_true', not_or, Bool.not_eq_false,
          List.contains_iff_mem] at hkey
        split at h
        · cases h
        · rename_i decoded hdecoded
          split at h
          · rename_i hmetadata
            cases hrest : FulfillmentService.baggageMembers (trimOws rawKey :: seen) raws with
            | error message =>
              rw [hrest] at h
              cases h
            | ok rest =>
              exact ⟨_, ⟨rawKey, rawValue, hsplit, hne.1, hne.2, rfl, hkey.1.1, hkey.1.2,
                ⟨decoded, hdecoded⟩, List.all_eq_true.mp hmetadata⟩, hkey.2,
                (ih _).mp ⟨rest, hrest⟩⟩
          · cases h
      · rintro ⟨key, ⟨rawKey', rawValue', hsome, hkey, hvalue, rfl, hvalid, hencoded,
          ⟨decoded, hdecoded⟩, hmetadata⟩, hseen, hrest⟩
        rw [hsplit] at hsome
        cases hsome
        obtain ⟨rest, hrest⟩ := (ih _).mpr hrest
        rw [if_neg (by simp [hkey, hvalue]), if_neg (by simp [hvalid, hencoded, hseen]), hdecoded,
          hrest]
        dsimp only
        rw [if_pos (List.all_eq_true.mpr hmetadata)]
        exact ⟨_, rfl⟩

/-! ## What is between them -/

theorem validEscaped_cons {octet : Nat → Bool} {b : Nat} (h : b ≠ 0x25) (rest : List Nat) :
    validEscaped octet (b :: rest) = (octet b && validEscaped octet rest) := by
  match rest with
  | [] => simp [validEscaped, h]
  | [c] => simp [validEscaped, h]
  | c :: d :: rest => simp [validEscaped, h]

theorem isBaggageOctet_isAllowed {b : Nat} (h : Shared.isBaggageOctet b = true) :
    FulfillmentService.isAllowed b = true ↔ b ≠ 0x3d := by
  simp only [Shared.isBaggageOctet, FulfillmentService.isAllowed, Bool.or_eq_true,
    Bool.and_eq_true, decide_eq_true_eq] at h ⊢
  omega

theorem hexValue_visible {b : Nat} (h : (hexValue b).isSome = true) :
    (0x21 ≤ b ∧ b ≤ 0x7e) ∧ b ≠ 0x3d := by
  unfold hexValue at h
  split at h
  · omega
  split at h
  · omega
  split at h
  · omega
  · cases h

/-- Of the characters of a stored value, fulfillment refuses `=` only. -/
theorem validEscaped_allowed {l : List Nat} (h : validEscaped Shared.isBaggageOctet l = true) :
    validEscaped FulfillmentService.isAllowed l = true ↔ 0x3d ∉ l := by
  induction l using validEscaped.induct with
  | case1 => simp [validEscaped]
  | case2 b =>
    simp only [validEscaped, Bool.and_eq_true] at h ⊢
    rw [isBaggageOctet_isAllowed h.2]
    simp [h.1, eq_comm]
  | case3 b c ih =>
    rw [validEscaped, Bool.and_eq_true, Bool.and_eq_true] at h ⊢
    rw [isBaggageOctet_isAllowed h.1.2, ih h.2]
    simp [h.1.1, eq_comm]
  | case4 c d rest ih =>
    simp only [validEscaped, if_true, Bool.and_eq_true] at h ⊢
    have hc := (hexValue_visible h.1.1).2
    have hd := (hexValue_visible h.1.2).2
    rw [ih h.2]
    simp [h.1.1, h.1.2, Ne.symm hc, Ne.symm hd]
  | case5 b c d rest hb ih =>
    simp only [validEscaped, if_neg hb, Bool.and_eq_true] at h ⊢
    rw [isBaggageOctet_isAllowed h.1, ih h.2]
    simp [eq_comm]

/-- A stored value is made of visible characters. -/
theorem validEscaped_visible {l : List Nat} (h : validEscaped Shared.isBaggageOctet l = true) :
    ∀ n ∈ l, 0x21 ≤ n ∧ n ≤ 0x7e := by
  have hoctet : ∀ b, Shared.isBaggageOctet b = true → 0x21 ≤ b ∧ b ≤ 0x7e := by
    intro b hb
    simp only [Shared.isBaggageOctet, Bool.or_eq_true, Bool.and_eq_true, decide_eq_true_eq] at hb
    omega
  induction l using validEscaped.induct with
  | case1 => exact fun n hn => absurd hn List.not_mem_nil
  | case2 b =>
    simp only [validEscaped, Bool.and_eq_true] at h
    simpa using hoctet b h.2
  | case3 b c ih =>
    rw [validEscaped, Bool.and_eq_true, Bool.and_eq_true] at h
    simpa [hoctet b h.1.2] using ih h.2
  | case4 c d rest ih =>
    simp only [validEscaped, if_true, Bool.and_eq_true] at h
    have hc := (hexValue_visible h.1.1).1
    have hd := (hexValue_visible h.1.2).1
    simpa [hc, hd] using ih h.2
  | case5 b c d rest hb ih =>
    simp only [validEscaped, if_neg hb, Bool.and_eq_true] at h
    simpa [hoctet b h.1] using ih h.2

theorem ascii_of_stored {value : Text} (h : Shared.validBaggageValue value = true) :
    Ascii value := by
  apply ascii_of_utf8
  intro n hn
  have := validEscaped_visible h n hn
  omega

/-- A stored value is one that fulfillment takes if it is not empty, not too long and
has no `=`. -/
theorem validEncoded_of_stored {value : Text} (h : Shared.validBaggageValue value = true) :
    FulfillmentService.validEncodedBaggageValue value = true ↔
      value ≠ [] ∧ (utf8 value).length ≤ 384 ∧ '=' ∉ value := by
  have hascii := ascii_of_stored h
  have hunits : utf16 value = utf8 value := by rw [utf16_of_ascii hascii, utf8_of_ascii hascii]
  have hequals : 0x3d ∉ utf8 value ↔ '=' ∉ value := by
    rw [utf8_of_ascii hascii, not_iff_not]
    constructor
    · intro hmem
      obtain ⟨c, hc, hcode⟩ := List.mem_map.mp hmem
      rw [show c = '=' from Char.toNat_inj.mp hcode] at hc
      exact hc
    · exact fun hmem => List.mem_map.mpr ⟨'=', hmem, rfl⟩
  unfold FulfillmentService.validEncodedBaggageValue
  rw [hunits, Bool.and_eq_true, Bool.and_eq_true, validEscaped_allowed h, hequals]
  simp only [Bool.not_eq_true', List.isEmpty_eq_false_iff, decide_eq_true_eq, and_assoc, ne_eq]
  exact Iff.rfl

/-- A property as fulfillment has it: with a value, under a key of its own alphabet. -/
def PlainProperty (raw : Text) : Prop :=
  ∃ key value, splitOnce '=' (trimOws raw) = some (key, value) ∧
    FulfillmentService.validBaggageKey (trimOws key) = true ∧ trimOws value ≠ [] ∧
    (utf8 (trimOws value)).length ≤ 384 ∧ '=' ∉ trimOws value

/-- A member as fulfillment has it. -/
def PlainMember (raw : Text) : Prop :=
  ∀ rawKey rawValue, splitOnce '=' (trimOws raw) = some (rawKey, rawValue) →
    trimOws (valuePieces rawValue).1 ≠ [] ∧ '=' ∉ trimOws (valuePieces rawValue).1 ∧
      ∀ property ∈ (valuePieces rawValue).2, PlainProperty property

theorem ne_nil_of_trimOws {s : Text} (h : trimOws s ≠ []) : s ≠ [] := by
  rintro rfl
  exact h rfl

theorem key_ne_nil_of_valid {key : Text} (h : FulfillmentService.validBaggageKey key = true) :
    key ≠ [] := by
  rintro rfl
  exact absurd h (by decide)

theorem validMetadata_of_stored {raw key : Text} (h : SharedProperty raw key) :
    FulfillmentService.validMetadata raw = true ↔ PlainProperty raw := by
  obtain ⟨-, -, -, hvalue⟩ := h
  unfold FulfillmentService.validMetadata PlainProperty
  unfold propertyParts at hvalue
  cases hsplit : splitOnce '=' (trimOws raw) with
  | none => simp
  | some p =>
    obtain ⟨rawKey, value⟩ := p
    rw [hsplit] at hvalue
    have hencoded := validEncoded_of_stored (hvalue value rfl)
    simp only [Bool.and_eq_true, Bool.not_eq_true', List.isEmpty_eq_false_iff, hencoded]
    constructor
    · rintro ⟨⟨-, hkey⟩, hrest⟩
      exact ⟨rawKey, value, rfl, hkey, hrest⟩
    · rintro ⟨rawKey', value', hsome, hkey, hrest⟩
      cases hsome
      exact ⟨⟨⟨ne_nil_of_trimOws (key_ne_nil_of_valid hkey), ne_nil_of_trimOws hrest.1⟩, hkey⟩,
        hrest⟩

theorem EachOnce.exists_key {P : Text → Text → Prop} {seen raws : List Text}
    (h : EachOnce P seen raws) : ∀ raw ∈ raws, ∃ key, P raw key := by
  induction raws generalizing seen with
  | nil => exact fun raw hraw => absurd hraw List.not_mem_nil
  | cons raw raws ih =>
    obtain ⟨key, hP, -, hrest⟩ := h
    intro r hr
    rcases List.mem_cons.mp hr with rfl | hr
    · exact ⟨key, hP⟩
    · exact ih hrest r hr

/-- A member whose key is safe and whose value decodes to one that
`is_safe_baggage_entry` lets pass. -/
def SafeMember (raw : Text) : Prop :=
  ∃ rawKey rawValue decoded, splitOnce '=' (trimOws raw) = some (rawKey, rawValue) ∧
    (percentDecode (utf8 (trimOws (valuePieces rawValue).1))).bind fromUtf8 = some decoded ∧
    Shared.isSafeBaggageEntry (trimOws rawKey) decoded = true

theorem safe_key_valid : ∀ key ∈ Shared.safeBusinessBaggageKeys,
    FulfillmentService.validBaggageKey key = true := by
  decide

theorem member_of_stored {raw key : Text} (hsafe : SafeMember raw) (h : SharedMember raw key) :
    FulfillmentMember raw key ↔ PlainMember raw := by
  obtain ⟨rawKey, rawValue, hsplit, hkey, -, hvalue, hproperties⟩ := h
  obtain ⟨rawKey', rawValue', decoded, hsplit', hdecoded, hentry⟩ := hsafe
  rw [hsplit] at hsplit'
  cases hsplit'
  simp only [Shared.isSafeBaggageEntry, Bool.and_eq_true, List.contains_iff_mem,
    decide_eq_true_eq] at hentry
  have hvalid : FulfillmentService.validBaggageKey key = true := by
    rw [← hkey]
    exact safe_key_valid _ hentry.1.1
  -- the decoded value is bounded, and the encoded one is at most three times as long
  have hlength : (utf8 (trimOws (valuePieces rawValue).1)).length ≤ 384 := by
    obtain ⟨bytes, hbytes, htext⟩ := Option.bind_eq_some_iff.mp hdecoded
    have hthree := percentDecode_length hbytes
    rw [fromUtf8_eq_some_iff.mp htext] at hthree
    have hbound := hentry.1.2
    unfold Shared.maxBusinessBaggageValueLength at hbound
    omega
  have hdecoded : FulfillmentService.decodeBaggageValue (trimOws (valuePieces rawValue).1) =
      some decoded := by
    unfold FulfillmentService.decodeBaggageValue
    rw [← utf8_of_ascii (ascii_of_stored hvalue)]
    exact hdecoded
  have hencoded := validEncoded_of_stored hvalue
  have hmetadata : ∀ property ∈ (valuePieces rawValue).2,
      FulfillmentService.validMetadata property = true ↔ PlainProperty property := by
    intro property hproperty
    obtain ⟨propertyKey, hshared⟩ := hproperties.exists_key property hproperty
    exact validMetadata_of_stored hshared
  constructor
  · rintro ⟨rawKey', rawValue', hsome, -, -, -, -, hvalid, -, hall⟩ k v hkv
    rw [hsplit] at hsome hkv
    cases hsome
    cases hkv
    obtain ⟨hne, -, hequals⟩ := hencoded.mp hvalid
    exact ⟨hne, hequals, fun property hp => (hmetadata property hp).mp (hall property hp)⟩
  · intro hplain
    obtain ⟨hne, hequals, hall⟩ := hplain rawKey rawValue hsplit
    have hvaluene : rawValue ≠ [] := by
      rintro rfl
      exact hne rfl
    exact ⟨rawKey, rawValue, hsplit, ne_nil_of_trimOws (hkey ▸ key_ne_nil_of_valid hvalid),
      hvaluene, hkey, hvalid, hencoded.mpr ⟨hne, hlength, hequals⟩, ⟨decoded, hdecoded⟩,
      fun property hp => (hmetadata property hp).mpr (hall property hp)⟩

/-- The eight safe keys bound the members of a header. -/
theorem safe_members_le {raws : List Text} (h : EachOnce SharedMember [] raws)
    (hsafe : ∀ raw ∈ raws, SafeMember raw) : raws.length ≤ 8 := by
  obtain ⟨keys, hlength, hnodup, -, hkeys⟩ := h.keys
  have hsub : keys ⊆ Shared.safeBusinessBaggageKeys := by
    intro key hkey
    obtain ⟨raw, hraw, rawKey, rawValue, hsplit, hkey, -⟩ := hkeys key hkey
    obtain ⟨rawKey', rawValue', decoded, hsplit', -, hentry⟩ := hsafe raw hraw
    rw [hsplit] at hsplit'
    cases hsplit'
    simp only [Shared.isSafeBaggageEntry, Bool.and_eq_true, List.contains_iff_mem] at hentry
    rw [← hkey]
    exact hentry.1.1
  rw [← hlength]
  exact (List.Nodup.subperm hnodup hsub).length_le

end CommercePlayground.Propagation
