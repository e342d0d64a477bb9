/-
CommercePlayground.Propagation.WebTheorems — what the web front end lets through and
the backends accept.

A `traceparent` is the same to all. A `tracestate` that passes in the browser has
bounded keys and bounded values, the backends bound the whole member. The sanitizer
for baggage keeps quotes and backslashes, vendor parts of property keys, repeated
properties and white space beyond spaces and tabs, and the shared library takes none
of these. What a function lets through it lets through again.
-/
import CommercePlayground.Propagation.MemberTheorems
import CommercePlayground.Propagation.ValidatorTheorems
import CommercePlayground.Propagation.Web

namespace CommercePlayground.Propagation

open Lib

/-! ## `traceparent` -/

theorem web_traceparent_iff {value r : Text} :
    WebClient.validTraceparent value = some r ↔ Traceparent (utf8 value) ∧ r = value := by
  rw [← traceparent_utf16, ← isTraceparent_fulfillment]
  unfold WebClient.validTraceparent FulfillmentService.isTraceparent
  have hpattern : WebClient.traceparentPattern = FulfillmentService.traceparentPattern := rfl
  rw [hpattern]
  by_cases hempty : value.isEmpty = true
  · rw [if_pos hempty, List.isEmpty_iff.mp hempty]
    refine ⟨fun h => (by cases h), fun h => absurd h.1 ?_⟩
    decide
  · rw [if_neg hempty]
    cases hmatch : FulfillmentService.Piece.matches FulfillmentService.traceparentPattern
        (utf16 value) with
    | false => simp
    | true =>
      simp only [Bool.not_true, Bool.false_eq_true, if_false, Bool.false_or, Bool.not_eq_true']
      cases hzero : ((((utf16 value).drop 3).take 32).all (fun unit => unit == 0x30) ||
          (((utf16 value).drop 36).take 16).all (fun unit => unit == 0x30)) with
      | true => simp
      | false => simp [eq_comm]

/-! ## `tracestate` -/

theorem tracestateKeyPart_eq (n : Nat) (units : List Nat) :
    WebClient.tracestateKeyPart n units = FulfillmentService.validKeyPart n units := by
  cases units with
  | nil => rfl
  | cons first units => rfl

/-- No part of a key holds an `@`. -/
theorem at_of_validKeyPart {n : Nat} {part : Text}
    (h : FulfillmentService.validKeyPart n (utf16 part) = true) : '@' ∉ part := by
  rw [validKeyPart_fulfillment] at h
  have hascii := ascii_of_utf16 (validKeyPart_ascii h)
  rw [← validKeyPart_fulfillment, utf16_of_ascii hascii] at h
  intro hmem
  have hcode : 0x40 ∈ codes part := List.mem_map_of_mem (f := Char.toNat) hmem
  cases hunits : codes part with
  | nil =>
    rw [hunits] at hcode
    exact absurd hcode List.not_mem_nil
  | cons first units =>
    rw [hunits] at h hcode
    unfold FulfillmentService.validKeyPart at h
    rw [Bool.and_eq_true, Bool.and_eq_true] at h
    rcases List.mem_cons.mp hcode with heq | hmem
    · rw [← heq] at h
      exact absurd h.1.2 (by decide)
    · exact absurd (List.all_eq_true.mp h.2 0x40 hmem) (by decide)

theorem web_tracestateKey (key : Text) :
    (WebClient.tracestateKeyPart 256 (utf16 key) || WebClient.vendorKey key) =
      OrdersService.validTracestateKey key := by
  rw [← validTracestateKey_fulfillment]
  unfold WebClient.vendorKey FulfillmentService.validTracestateKey
  simp only [tracestateKeyPart_eq]
  cases hsplit : splitOnce '@' key with
  | none => simp
  | some p =>
    obtain ⟨first, second⟩ := p
    have hno : FulfillmentService.validKeyPart 256 (utf16 key) = false := by
      rw [Bool.eq_false_iff]
      intro hvalid
      apply at_of_validKeyPart hvalid
      rw [(splitOnce_some hsplit).1]
      simp
    rw [hno, Bool.false_or, Bool.eq_iff_iff]
    simp only [Bool.and_eq_true, Bool.not_eq_true', and_assoc]
    constructor
    · rintro ⟨hfirst, hsecond⟩
      have hat : second.contains '@' = false := by
        have := at_of_validKeyPart hsecond
        simpa using this
      exact ⟨hat, hfirst, hsecond⟩
    · exact fun h => h.2

theorem web_tracestateValue (value : Text) : (WebClient.tracestateValue (utf16 value) = true ∧
      (utf8 value).length ≤ 256) ↔
    OrdersService.validTracestateValue value = true ∧ (utf8 value).length ≤ 256 := by
  rw [validTracestateValue_orders, ascii_agree (fun _ hl => isValue_ascii hl) value]
  have hform : WebClient.tracestateValue (utf16 value) =
      (isValue (utf16 value) && decide ((utf16 value).length ≤ 256)) := by
    unfold WebClient.tracestateValue isValue isValueUnit
    cases (utf16 value).isEmpty <;> cases decide ((utf16 value).length ≤ 256) <;> simp
  rw [hform, Bool.and_eq_true, decide_eq_true_eq]
  have hle := utf16_length_le value
  constructor
  · rintro ⟨⟨hvalue, -⟩, hlen⟩
    exact ⟨hvalue, hlen⟩
  · rintro ⟨hvalue, hlen⟩
    exact ⟨⟨hvalue, by omega⟩, hlen⟩

/-- What the browser asks of a member. -/
def WebMember (raw key : Text) : Prop :=
  ∃ value, splitOnce '=' (trimOws raw) = some (key, value) ∧
    OrdersService.validTracestateKey key = true ∧
    OrdersService.validTracestateValue value = true ∧ (utf8 value).length ≤ 256

theorem web_validMember {raw : Text} :
    WebClient.validTracestateMember (trimOws raw) = true ↔
      WebMember raw (WebClient.memberKey (trimOws raw)) := by
  unfold WebClient.validTracestateMember WebMember WebClient.memberKey
  cases hsplit : splitOnce '=' (trimOws raw) with
  | none => simp
  | some p =>
    obtain ⟨key, value⟩ := p
    have hvalue := web_tracestateValue value
    simp only [Bool.and_eq_true, decide_eq_true_eq, web_tracestateKey, Option.map_some,
      Option.getD_some, Bool.not_eq_true', List.isEmpty_eq_false_iff]
    constructor
    · rintro ⟨⟨⟨-, hkey⟩, hlen⟩, hvalid⟩
      obtain ⟨hvalid, hlen⟩ := hvalue.mp ⟨hvalid, hlen⟩
      exact ⟨value, rfl, hkey, hvalid, hlen⟩
    · rintro ⟨value', hsome, hkey, hvalid, hlen⟩
      cases hsome
      exact ⟨⟨⟨⟨key_ne_nil hkey, (value_facts hvalid).1⟩, hkey⟩, hlen⟩,
        (hvalue.mpr ⟨hvalid, hlen⟩).1⟩

theorem web_tracestateMembers_iff {seen raws members : List Text} :
    WebClient.tracestateMembers seen raws = some members ↔
      members = raws.map trimOws ∧ EachOnce WebMember seen raws := by
  induction raws generalizing seen members with
  | nil => simp [WebClient.tracestateMembers, EachOnce, eq_comm]
  | cons raw raws ih =>
    have hkey : ∀ key, WebMember raw key → WebClient.memberKey (trimOws raw) = key := by
      rintro key ⟨value, hsplit, -⟩
      simp [WebClient.memberKey, hsplit]
    unfold WebClient.tracestateMembers
    dsimp only
    constructor
    · intro h
      split at h
      · cases h
      split at h
      · cases h
      split at h
      · cases h
      rename_i hvalid hseen
      simp only [Bool.not_eq_true', Bool.not_eq_false] at hvalid
      obtain ⟨rest, hrest, rfl⟩ := Option.map_eq_some_iff.mp h
      obtain ⟨rfl, honce⟩ := ih.mp hrest
      exact ⟨rfl, _, web_validMember.mp hvalid, by simpa using hseen, honce⟩
    · rintro ⟨rfl, key, hmember, hseen, honce⟩
      obtain rfl := hkey key hmember
      have hne : trimOws raw ≠ [] := by
        obtain ⟨value, hsplit, -⟩ := hmember
        exact member_ne_nil hsplit
      rw [if_neg (by simpa using hne), if_neg (by simp [web_validMember.mpr hmember]),
        if_neg (by simpa using hseen), ih.mpr ⟨rfl, honce⟩]
      rfl

theorem trimOws_idem (s : Text) : trimOws (trimOws s) = trimOws s := trimMatches_idem isOws s

/-- Members that are trimmed already are the same to a loop that trims. -/
theorem eachOnce_trimmed {P : Text → Text → Prop}
    (hP : ∀ raw key, P (trimOws raw) key ↔ P raw key) {seen raws : List Text} :
    EachOnce P seen (raws.map trimOws) ↔ EachOnce P seen raws := by
  induction raws generalizing seen with
  | nil => exact Iff.rfl
  | cons raw raws ih =>
    refine exists_congr fun key => ?_
    rw [hP raw key, ih]

theorem accepts_iff_eachOnce {seen raws : List Text} :
    Accepts seen raws ↔ EachOnce (fun raw key => Member (trimOws raw) key) seen raws := by
  induction raws generalizing seen with
  | nil => exact Iff.rfl
  | cons raw raws ih =>
    refine exists_congr fun key => ?_
    rw [ih]

theorem utf8_length_intercalate_le (raws : List Text) :
    (utf8 ([','].intercalate (raws.map trimOws))).length ≤
      (utf8 ([','].intercalate raws)).length := by
  induction raws with
  | nil => exact Nat.le_refl _
  | cons raw raws ih =>
    have hraw := utf8_length_trimMatches_le isOws raw
    cases raws with
    | nil =>
      rw [List.map_singleton, List.intercalate_singleton, List.intercalate_singleton]
      exact hraw
    | cons next raws =>
      rw [List.map_cons, List.map_cons, List.intercalate_cons_cons, List.intercalate_cons_cons,
        ← List.map_cons, utf8_length_append, utf8_length_append, utf8_length_append,
        utf8_length_append]
      unfold trimOws at ih ⊢
      omega

/-- **`tracestate`.** The backends accept what passed in the browser exactly when no
member has more than 256 bytes, and the browser lets it pass again. -/
theorem web_tracestate {value r : Text} (h : WebClient.validTracestate value = some r) :
    ((Shared.validateTracestateHeader r = .ok () ∧
      FulfillmentService.validateTracestate r = .ok ()) ↔
        ∀ raw ∈ value.splitOn ',', (utf8 (trimOws raw)).length ≤ 256) ∧
      WebClient.validTracestate r = some r := by
  unfold WebClient.validTracestate at h
  split at h
  · cases h
  split at h
  · cases h
  split at h
  · cases h
  rename_i hempty hsize hcount
  obtain ⟨members, hmembers, rfl⟩ := Option.map_eq_some_iff.mp h
  obtain ⟨rfl, honce⟩ := web_tracestateMembers_iff.mp hmembers
  have hpieces : ([','].intercalate ((value.splitOn ',').map trimOws)).splitOn ',' =
      (value.splitOn ',').map trimOws := by
    apply List.splitOn_intercalate
    · intro piece hpiece
      obtain ⟨raw, hraw, rfl⟩ := List.mem_map.mp hpiece
      exact fun hmem => (mem_splitOn hraw).1 (mem_of_mem_trimMatches hmem)
    · simp
  have hlength : (utf8 ([','].intercalate ((value.splitOn ',').map trimOws))).length ≤
      maxTracestateHeaderBytes := by
    have hle := utf8_length_intercalate_le (value.splitOn ',')
    have hjoin : [','].intercalate (value.splitOn ',') = value := List.intercalate_splitOn ','
    rw [hjoin] at hle
    omega
  have hweb : ∀ raw key, WebMember (trimOws raw) key ↔ WebMember raw key := by
    intro raw key
    unfold WebMember
    rw [trimOws_idem]
  constructor
  · rw [validateTracestateHeader_iff, validateTracestate_fulfillment, and_self_iff, hpieces,
      accepts_iff_eachOnce, List.length_map]
    have hbackend : ∀ raw key, Member (trimOws (trimOws raw)) key ↔ Member (trimOws raw) key := by
      intro raw key
      rw [trimOws_idem]
    rw [eachOnce_trimmed (P := fun raw key => Member (trimOws raw) key) hbackend]
    have hmore := honce.more (Q := fun raw key => Member (trimOws raw) key)
      (R := fun raw => (utf8 (trimOws raw)).length ≤ 256) (by
        rintro raw key key' ⟨value, hsplit, -⟩ ⟨value', hsplit', -⟩
        rw [hsplit] at hsplit'
        cases hsplit'
        rfl) (by
        rintro raw - key ⟨value, hsplit, hkey, hvalid, hlen⟩
        constructor
        · rintro ⟨value', -, hbytes, -⟩
          exact hbytes
        · intro hbytes
          exact ⟨value, hsplit, hbytes, hkey, hvalid⟩)
    rw [hmore]
    exact ⟨fun hall => hall.2.2, fun hall => ⟨hlength, Nat.not_lt.mp hcount, hall⟩⟩
  · have hne : [','].intercalate ((value.splitOn ',').map trimOws) ≠ [] := by
      intro hnil
      rw [hnil, List.splitOn_nil] at hpieces
      obtain ⟨raw, rest, hcons⟩ := List.exists_cons_of_ne_nil (List.splitOn_ne_nil ',' value)
      rw [hcons, List.map_cons] at hpieces
      rw [hcons] at honce
      obtain ⟨key, ⟨v, hsplit, -⟩, -⟩ := honce
      exact member_ne_nil hsplit (List.cons.inj hpieces).1.symm
    unfold WebClient.validTracestate
    rw [if_neg (by simpa using hne), if_neg (Nat.not_lt.mpr hlength), hpieces, List.length_map,
      if_neg hcount, web_tracestateMembers_iff.mpr ⟨rfl, (eachOnce_trimmed hweb).mpr honce⟩,
      List.map_map]
    have hidem : trimOws ∘ trimOws = trimOws := funext trimOws_idem
    rw [hidem]
    rfl

/-! ## Baggage values -/

open WebClient (isJsSpace jsTrim)

theorem isJsSpace_of_isOws {c : Char} (h : isOws c = true) : isJsSpace c = true := by
  simp only [isOws, decide_eq_true_eq] at h
  rcases h with rfl | rfl
  · decide
  · decide

/-- A character of the class `[\x21-\x2b\x2d-\x3c\x3e-\x7e]`. -/
theorem not_isJsSpace_of_unit {c : Char} (h : WebClient.isBaggageUnit c.toNat = true) :
    isJsSpace c = false := by
  simp only [WebClient.isBaggageUnit, isJsSpace, Bool.or_eq_true, Bool.or_eq_false_iff,
    decide_eq_true_eq, decide_eq_false_iff_not] at h ⊢
  omega

theorem baggageUnits {s : Text} (h : (utf16 s).all WebClient.isBaggageUnit = true) :
    Ascii s ∧ ∀ c ∈ s, WebClient.isBaggageUnit c.toNat = true := by
  have hascii : Ascii s := by
    apply ascii_of_utf16
    intro n hn
    have := List.all_eq_true.mp h n hn
    simp only [WebClient.isBaggageUnit, Bool.or_eq_true, decide_eq_true_eq] at this
    omega
  rw [utf16_of_ascii hascii] at h
  exact ⟨hascii, fun c hc => List.all_eq_true.mp h _ (List.mem_map_of_mem hc)⟩

/-- What a valid encoded value is made of. -/
theorem encoded_facts {encoded : Text} (h : WebClient.validEncodedBaggageValue encoded = true) :
    encoded ≠ [] ∧ Ascii encoded ∧ (∀ c ∈ encoded, WebClient.isBaggageUnit c.toNat = true) ∧
      ∃ bytes, percentDecode (utf8 encoded) = some bytes := by
  unfold WebClient.validEncodedBaggageValue at h
  simp only [Bool.and_eq_true, Bool.not_eq_true', List.isEmpty_eq_false_iff] at h
  obtain ⟨⟨⟨hne, -⟩, hunits⟩, hdecoded⟩ := h
  obtain ⟨hascii, hchars⟩ := baggageUnits hunits
  obtain ⟨decoded, hdecoded, -⟩ := (Option.any_eq_true _ _).mp hdecoded
  obtain ⟨bytes, hbytes, -⟩ := Option.bind_eq_some_iff.mp hdecoded
  exact ⟨hne, hascii, hchars, bytes, hbytes⟩

/-- A sequence of visible characters with its escapes in order: the library refuses
quotes, backslashes and semicolons. -/
theorem validEscaped_of_units {l decoded : List Nat} (hdecoded : percentDecode l = some decoded)
    (hunits : ∀ n ∈ l, WebClient.isBaggageUnit n = true) :
    validEscaped Shared.isBaggageOctet l = true ↔ ∀ n ∈ l, n ≠ 0x22 ∧ n ≠ 0x3b ∧ n ≠ 0x5c := by
  induction hn : l.length using Nat.strong_induction_on generalizing l decoded with
  | _ n ih =>
    cases l with
    | nil => exact ⟨fun _ n hn => absurd hn List.not_mem_nil, fun _ => rfl⟩
    | cons b rest =>
      have hb := hunits b List.mem_cons_self
      rcases percentDecode_cases hdecoded with
        ⟨hne, more, hmore, -⟩ | ⟨rfl, c, d, after, high, low, more, rfl, hc, hd, hmore, -⟩
      · have hrest := ih rest.length (by simp [← hn]) hmore
          (fun n hn => hunits n (List.mem_cons_of_mem b hn)) rfl
        have hoctet : Shared.isBaggageOctet b = true ↔ b ≠ 0x22 ∧ b ≠ 0x3b ∧ b ≠ 0x5c := by
          simp only [WebClient.isBaggageUnit, Shared.isBaggageOctet, Bool.or_eq_true,
            Bool.and_eq_true, decide_eq_true_eq] at hb ⊢
          omega
        rw [validEscaped_cons hne, Bool.and_eq_true, hoctet, hrest]
        simp only [List.mem_cons, forall_eq_or_imp]
      · have hrest := ih after.length (by simp [← hn]; omega) hmore
          (fun n hn => hunits n (by simp [hn])) rfl
        have hdigit : ∀ n v, hexValue n = some v → n ≠ 0x22 ∧ n ≠ 0x3b ∧ n ≠ 0x5c := by
          intro n v hv
          refine ⟨?_, ?_, ?_⟩
          · rintro rfl
            cases hv
          · rintro rfl
            cases hv
          · rintro rfl
            cases hv
        rw [validEscaped, if_pos rfl, hc, hd]
        simp only [Option.isSome_some, Bool.true_and, hrest, List.mem_cons, forall_eq_or_imp]
        exact ⟨fun h => ⟨by decide, hdigit c high hc, hdigit d low hd, h⟩, fun h => h.2.2.2⟩

/-- The library on a value that passed in the browser. -/
theorem stored_of_web {encoded : Text} (h : WebClient.validEncodedBaggageValue encoded = true)
    (hsemicolon : ';' ∉ encoded) :
    Shared.validBaggageValue encoded = true ↔ '"' ∉ encoded ∧ '\\' ∉ encoded := by
  obtain ⟨-, hascii, hunits, bytes, hbytes⟩ := encoded_facts h
  unfold Shared.validBaggageValue
  rw [utf8_of_ascii hascii] at hbytes ⊢
  have hcode : ∀ d : Char, d.toNat ∈ codes encoded ↔ d ∈ encoded := by
    intro d
    constructor
    · intro hmem
      obtain ⟨c, hc, heq⟩ := List.mem_map.mp hmem
      rw [Char.toNat_inj.mp heq] at hc
      exact hc
    · exact fun hmem => List.mem_map_of_mem hmem
  rw [validEscaped_of_units hbytes]
  · constructor
    · intro hall
      refine ⟨fun hmem => ?_, fun hmem => ?_⟩
      · exact (hall 0x22 ((hcode '"').mpr hmem)).1 rfl
      · exact (hall 0x5c ((hcode '\\').mpr hmem)).2.2 rfl
    · rintro ⟨hquote, hback⟩ n hn
      refine ⟨?_, ?_, ?_⟩
      · rintro rfl
        exact hquote ((hcode '"').mp hn)
      · rintro rfl
        exact hsemicolon ((hcode ';').mp hn)
      · rintro rfl
        exact hback ((hcode '\\').mp hn)
  · intro n hn
    obtain ⟨c, hc, rfl⟩ := List.mem_map.mp hn
    exact hunits c hc

end CommercePlayground.Propagation
