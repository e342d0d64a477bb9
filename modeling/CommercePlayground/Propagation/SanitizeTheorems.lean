/-
CommercePlayground.Propagation.SanitizeTheorems — the baggage that the web front end
lets through, and what `validate_baggage_header` makes of it.

The sanitizer keeps the first usable member of every safe key and writes it again from
its parts. The library then asks for more than the browser did of the values, of the
properties and of the white space around them. Sanitizing twice changes nothing.
-/
import CommercePlayground.Propagation.WebTheorems

namespace CommercePlayground.Propagation

open Lib
open WebClient (isJsSpace jsTrim)

/-! ## White space -/

/-- All the white space is spaces and tabs. -/
def OwsOnly (s : Text) : Prop := ∀ c ∈ s, isJsSpace c = true → isOws c = true

theorem OwsOnly.trim_eq {s : Text} (h : OwsOnly s) : jsTrim s = trimOws s := by
  apply trimMatches_congr
  intro c hc
  cases hjs : isJsSpace c with
  | true => exact (h c hc hjs).symm
  | false =>
    cases hows : isOws c with
    | false => rfl
    | true =>
      rw [isJsSpace_of_isOws hows] at hjs
      cases hjs

theorem owsOnly_append {a b : Text} : OwsOnly (a ++ b) ↔ OwsOnly a ∧ OwsOnly b := by
  simp [OwsOnly, or_imp, forall_and]

theorem owsOnly_cons {c : Char} (hc : isJsSpace c = false) {s : Text} :
    OwsOnly (c :: s) ↔ OwsOnly s := by
  simp [OwsOnly, hc]

/-- The browser trims more than the library. A check without white space comes to the
same result where there is no more to trim. -/
theorem valid_trimOws_iff {valid : Text → Bool} {bad : Char → Prop} {s : Text}
    (hows : ∀ c, isOws c = true → ¬ bad c)
    (hspace : ∀ t, valid t = true → ∀ c ∈ t, isJsSpace c = false)
    (hweb : valid (jsTrim s) = true ↔ ∀ c ∈ jsTrim s, ¬ bad c) :
    valid (trimOws s) = true ↔ OwsOnly s ∧ ∀ c ∈ s, ¬ bad c := by
  obtain ⟨a, b, hs, ha, hb⟩ := trimMatches_between isOws s
  have hmem : ∀ c ∈ s, isOws c = true ∨ c ∈ trimOws s := by
    intro c hc
    rw [hs] at hc
    rcases List.mem_append.mp hc with hc | hc
    · exact .inl (ha c hc)
    · rcases List.mem_append.mp hc with hc | hc
      · exact .inr hc
      · exact .inl (hb c hc)
  constructor
  · intro hvalid
    have honly : OwsOnly s := by
      intro c hc hjs
      rcases hmem c hc with h | h
      · exact h
      · rw [hspace _ hvalid c h] at hjs
        cases hjs
    rw [honly.trim_eq] at hweb
    refine ⟨honly, fun c hc => ?_⟩
    rcases hmem c hc with h | h
    · exact hows c h
    · exact hweb.mp hvalid c h
  · rintro ⟨honly, hbad⟩
    rw [honly.trim_eq] at hweb
    exact hweb.mpr fun c hc => hbad c (mem_of_mem_trimMatches hc)

/-! ## Property keys -/

theorem keyPart_chars {n : Nat} {part : Text}
    (h : WebClient.baggageKeyPart n (utf16 part) = true) :
    part ≠ [] ∧ ∀ c ∈ part, isLowerAlphaNumeric c.toNat = true ∨
      c.toNat = 0x2e ∨ c.toNat = 0x5f ∨ c.toNat = 0x2d := by
  have hunits : ∀ unit ∈ utf16 part, isLowerAlphaNumeric unit = true ∨
      unit = 0x2e ∨ unit = 0x5f ∨ unit = 0x2d := by
    cases hpart : utf16 part with
    | nil => exact fun unit hunit => absurd hunit List.not_mem_nil
    | cons first units =>
      rw [hpart] at h
      unfold WebClient.baggageKeyPart at h
      rw [Bool.and_eq_true, Bool.and_eq_true] at h
      intro unit hunit
      rcases List.mem_cons.mp hunit with rfl | hunit
      · exact .inl h.1.2
      · have := List.all_eq_true.mp h.2 unit hunit
        rw [Bool.or_eq_true, decide_eq_true_eq] at this
        exact this
  have hascii : Ascii part := by
    apply ascii_of_utf16
    intro unit hunit
    have := hunits unit hunit
    simp only [isLowerAlphaNumeric, isLowercase, isDigit, Bool.or_eq_true, decide_eq_true_eq] at this
    omega
  rw [utf16_of_ascii hascii] at h hunits
  refine ⟨?_, fun c hc => hunits _ (List.mem_map_of_mem hc)⟩
  rintro rfl
  cases h

/-- The characters of a property key, as the browser takes it. -/
theorem keyPattern_chars {key : Text} (h : WebClient.baggageKeyPattern key = true) :
    key ≠ [] ∧ ∀ c ∈ key, (isLowerAlphaNumeric c.toNat = true ∨
      c.toNat = 0x2e ∨ c.toNat = 0x5f ∨ c.toNat = 0x2d) ∨ c = '@' := by
  unfold WebClient.baggageKeyPattern at h
  split at h
  · obtain ⟨hne, hchars⟩ := keyPart_chars h
    exact ⟨hne, fun c hc => .inl (hchars c hc)⟩
  · rename_i first second hsplit
    rw [Bool.and_eq_true] at h
    obtain ⟨rfl, -⟩ := splitOnce_some hsplit
    refine ⟨by simp, fun c hc => ?_⟩
    rcases List.mem_append.mp hc with hc | hc
    · exact .inl ((keyPart_chars h.1).2 c hc)
    · rcases List.mem_cons.mp hc with rfl | hc
      · exact .inr rfl
      · exact .inl ((keyPart_chars h.2).2 c hc)

theorem not_isJsSpace_of_token {c : Char} (h : Shared.isTokenByte c.toNat = true) :
    isJsSpace c = false := by
  simp only [Shared.isTokenByte, isDigit, isAsciiAlphabetic, Bool.or_eq_true, decide_eq_true_eq,
    List.contains_eq_mem, List.mem_cons, List.not_mem_nil, or_false] at h
  simp only [isJsSpace, Bool.or_eq_false_iff, decide_eq_false_iff_not]
  omega

theorem token_chars {key : Text} (h : Shared.validBaggageKey key = true) :
    ∀ c ∈ key, Shared.isTokenByte c.toNat = true := by
  unfold Shared.validBaggageKey at h
  rw [Bool.and_eq_true] at h
  have hascii : Ascii key := by
    apply ascii_of_utf8
    intro n hn
    have := List.all_eq_true.mp h.2 n hn
    simp only [Shared.isTokenByte, isDigit, isAsciiAlphabetic, Bool.or_eq_true, decide_eq_true_eq,
      List.contains_eq_mem, List.mem_cons, List.not_mem_nil, or_false] at this
    omega
  rw [utf8_of_ascii hascii] at h
  exact fun c hc => List.all_eq_true.mp h.2 _ (List.mem_map_of_mem hc)

/-- The library has no vendor part in a key. -/
theorem sharedKey_of_pattern {key : Text} (h : WebClient.baggageKeyPattern key = true) :
    Shared.validBaggageKey key = true ↔ ∀ c ∈ key, ¬ c = '@' := by
  obtain ⟨hne, hchars⟩ := keyPattern_chars h
  constructor
  · rintro hvalid c hc rfl
    exact absurd (token_chars hvalid '@' hc) (by decide)
  · intro hat
    have htoken : ∀ c ∈ key, Shared.isTokenByte c.toNat = true := by
      intro c hc
      have := (hchars c hc).resolve_right (hat c hc)
      simp only [isLowerAlphaNumeric, isLowercase, isDigit, Bool.or_eq_true,
        decide_eq_true_eq] at this
      simp only [Shared.isTokenByte, isDigit, isAsciiAlphabetic, Bool.or_eq_true,
        decide_eq_true_eq, List.contains_eq_mem, List.mem_cons, List.not_mem_nil, or_false]
      omega
    have hascii : Ascii key := by
      intro c hc
      have := htoken c hc
      simp only [Shared.isTokenByte, isDigit, isAsciiAlphabetic, Bool.or_eq_true,
        decide_eq_true_eq, List.contains_eq_mem, List.mem_cons, List.not_mem_nil, or_false] at this
      omega
    unfold Shared.validBaggageKey
    rw [utf8_of_ascii hascii, Bool.and_eq_true]
    refine ⟨by simpa using hne, List.all_eq_true.mpr fun n hn => ?_⟩
    obtain ⟨c, hc, rfl⟩ := List.mem_map.mp hn
    exact htoken c hc

/-! ## Properties -/

/-- The part of a property before its `=`. -/
def propertyKey (property : Text) : Text := jsTrim (WebClient.memberKey property)

/-- A property that the library reads as the browser does: no vendor part in its key,
no quotes and backslashes in its value, and no white space but spaces and tabs. -/
def PlainWebProperty (property : Text) : Prop :=
  OwsOnly property ∧ ∀ key value, splitOnce '=' property = some (key, value) →
    '@' ∉ key ∧ '"' ∉ value ∧ '\\' ∉ value

theorem stored_not_isJsSpace {value : Text} (h : Shared.validBaggageValue value = true) :
    ∀ c ∈ value, isJsSpace c = false := by
  intro c hc
  have hascii := ascii_of_stored h
  unfold Shared.validBaggageValue at h
  rw [utf8_of_ascii hascii] at h
  have := validEscaped_visible h c.toNat (List.mem_map_of_mem hc)
  simp only [isJsSpace, Bool.or_eq_false_iff, decide_eq_false_iff_not]
  omega

/-- The library on one property that passed in the browser. -/
theorem sharedProperty_iff {property : Text} (h : WebClient.validProperty property = true)
    (hsemicolon : ';' ∉ property) (name : Text) :
    SharedProperty property name ↔
      trimOws (WebClient.memberKey property) = name ∧ PlainWebProperty property := by
  unfold WebClient.validProperty at h
  cases hsplit : splitOnce '=' property with
  | none =>
    rw [hsplit] at h
    cases h
  | some p =>
    obtain ⟨key, value⟩ := p
    rw [hsplit] at h
    simp only [Bool.and_eq_true] at h
    obtain ⟨⟨-, hkey⟩, hvalue⟩ := h
    have hparts := propertyParts_of_split hsplit
    have hmemberKey : WebClient.memberKey property = key := by
      simp [WebClient.memberKey, hsplit]
    obtain ⟨hproperty, -⟩ := splitOnce_some hsplit
    have honly : OwsOnly property ↔ OwsOnly key ∧ OwsOnly value := by
      rw [hproperty, owsOnly_append, owsOnly_cons (by decide)]
    have hkeyValid : Shared.validBaggageKey (trimOws key) = true ↔
        OwsOnly key ∧ ∀ c ∈ key, ¬ c = '@' := by
      apply valid_trimOws_iff _ _ (sharedKey_of_pattern hkey)
      · rintro c hc rfl
        cases hc
      · exact fun t ht c hc => not_isJsSpace_of_token (token_chars ht c hc)
    have hno : ';' ∉ jsTrim value := by
      intro hmem
      apply hsemicolon
      rw [hproperty]
      simp [mem_of_mem_trimMatches hmem]
    have hweb : Shared.validBaggageValue (jsTrim value) = true ↔
        ∀ c ∈ jsTrim value, ¬ (c = '"' ∨ c = '\\') := by
      rw [stored_of_web hvalue hno]
      constructor
      · rintro ⟨hquote, hback⟩ c hc (rfl | rfl)
        · exact hquote hc
        · exact hback hc
      · exact fun hall => ⟨fun hc => hall _ hc (.inl rfl), fun hc => hall _ hc (.inr rfl)⟩
    have hvalueValid : Shared.validBaggageValue (trimOws value) = true ↔
        OwsOnly value ∧ ∀ c ∈ value, ¬ (c = '"' ∨ c = '\\') := by
      apply valid_trimOws_iff _ _ hweb
      · rintro c hc (rfl | rfl)
        · cases hc
        · cases hc
      · exact fun t ht => stored_not_isJsSpace ht
    have hne : trimOws property ≠ [] := by
      intro hnil
      have hcut := splitOnce_trimMatches (p := isOws) (by decide) hsplit
      unfold trimOws at hnil
      rw [hnil] at hcut
      cases hcut
    unfold SharedProperty PlainWebProperty
    rw [hparts, hmemberKey, honly]
    simp only [Option.some.injEq, forall_eq', trimOws_trimEnd]
    constructor
    · rintro ⟨-, rfl, hk, hv⟩
      obtain ⟨hkeyOnly, hat⟩ := hkeyValid.mp hk
      obtain ⟨hvalueOnly, hbad⟩ := hvalueValid.mp hv
      refine ⟨rfl, ⟨hkeyOnly, hvalueOnly⟩, fun k v hkv => ?_⟩
      rw [hsplit] at hkv
      cases hkv
      exact ⟨fun hc => hat _ hc rfl, fun hc => hbad _ hc (.inl rfl), fun hc => hbad _ hc (.inr rfl)⟩
    · rintro ⟨rfl, ⟨hkeyOnly, hvalueOnly⟩, hplain⟩
      obtain ⟨hat, hquote, hback⟩ := hplain key value hsplit
      refine ⟨hne, rfl, hkeyValid.mpr ⟨hkeyOnly, ?_⟩, hvalueValid.mpr ⟨hvalueOnly, ?_⟩⟩
      · rintro c hc rfl
        exact hat hc
      · rintro c hc (rfl | rfl)
        · exact hquote hc
        · exact hback hc

/-- Metadata that the library reads as the browser does. -/
def PlainWebMetadata (metadata : Text) : Prop :=
  (∀ property ∈ metadata.splitOn ';', PlainWebProperty property) ∧
    ((metadata.splitOn ';').map propertyKey).Nodup

theorem metadataFits_of_web {metadata : Text}
    (h : metadata = [] ∨ WebClient.validBaggageMetadata metadata = true) :
    MetadataFits metadata ↔ PlainWebMetadata metadata := by
  rcases h with rfl | h
  · refine ⟨fun _ => ⟨?_, ?_⟩, fun _ => .inl rfl⟩
    · intro property hproperty
      rw [List.splitOn_nil, List.mem_singleton] at hproperty
      subst hproperty
      exact ⟨fun c hc => absurd hc List.not_mem_nil, fun key value hsplit => (by cases hsplit)⟩
    · rw [List.splitOn_nil, List.map_singleton]
      simp
  · unfold WebClient.validBaggageMetadata at h
    simp only [Bool.and_eq_true, Bool.not_eq_true', List.isEmpty_eq_false_iff] at h
    obtain ⟨⟨hne, -⟩, hall⟩ := h
    have hproperty : ∀ property ∈ metadata.splitOn ';', ∀ name, SharedProperty property name ↔
        trimOws (WebClient.memberKey property) = name ∧ PlainWebProperty property := by
      intro property hmem
      exact sharedProperty_iff (List.all_eq_true.mp hall property hmem) (mem_splitOn hmem).1
    -- where the properties are plain the two ways to trim a key are the same
    have hkeys : (∀ property ∈ metadata.splitOn ';', PlainWebProperty property) →
        (metadata.splitOn ';').map (fun property => trimOws (WebClient.memberKey property)) =
          (metadata.splitOn ';').map propertyKey := by
      intro hplain
      apply List.map_congr_left
      intro property hmem
      have honly : OwsOnly (WebClient.memberKey property) := by
        intro c hc
        unfold WebClient.memberKey at hc
        cases hsplit : splitOnce '=' property with
        | none =>
          rw [hsplit] at hc
          exact absurd hc List.not_mem_nil
        | some p =>
          rw [hsplit] at hc
          apply (hplain property hmem).1
          rw [(splitOnce_some hsplit).1]
          exact List.mem_append_left _ hc
      exact honly.trim_eq.symm
    have honce := @eachOnce_map_iff SharedProperty Text id
      (fun property => trimOws (WebClient.memberKey property)) (metadata.splitOn ';') []
      (fun property hmem name hname => ((hproperty property hmem name).mp hname).1)
    rw [List.map_id] at honce
    unfold MetadataFits PlainWebMetadata
    rw [or_iff_right hne, baggageProperties_ok, honce]
    constructor
    · rintro ⟨hshared, hnodup, -⟩
      have hplain : ∀ property ∈ metadata.splitOn ';', PlainWebProperty property :=
        fun property hmem => ((hproperty property hmem _).mp (hshared property hmem)).2
      exact ⟨hplain, hkeys hplain ▸ hnodup⟩
    · rintro ⟨hplain, hnodup⟩
      exact ⟨fun property hmem => (hproperty property hmem _).mpr ⟨rfl, hplain property hmem⟩,
        (hkeys hplain).symm ▸ hnodup, fun _ _ => List.not_mem_nil⟩

/-! ## Members -/

/-- The value of a member and its metadata. -/
def cutMetadata (rest : Text) : Text × Text := (splitOnce ';' rest).getD (rest, [])

theorem cutMetadata_eq (rest : Text) : cutMetadata rest =
    ((rest.splitOn ';').headD [], [';'].intercalate (rest.splitOn ';').tail) := by
  unfold cutMetadata
  rw [splitOn_eq]
  cases splitOnce ';' rest with
  | none => rfl
  | some p =>
    have hjoin : [';'].intercalate (p.2.splitOn ';') = p.2 := List.intercalate_splitOn ';'
    simp only [Option.getD_some, List.headD_cons, List.tail_cons, hjoin]

/-- What the parts of a kept member have passed. -/
structure MemberParts.Kept (m : MemberParts) : Prop where
  key : m.key ∈ Shared.safeBusinessBaggageKeys
  encoded : WebClient.validEncodedBaggageValue m.encoded = true
  metadata : m.metadata = [] ∨ WebClient.validBaggageMetadata m.metadata = true

theorem validBaggageKey_iff {key : Text} :
    WebClient.validBaggageKey key = true ↔ key ∈ Shared.safeBusinessBaggageKeys := by
  have hpattern : ∀ key ∈ Shared.safeBusinessBaggageKeys,
      WebClient.baggageKeyPattern key = true := by decide
  have hsame : WebClient.safeBaggageKeys = Shared.safeBusinessBaggageKeys := rfl
  unfold WebClient.validBaggageKey
  rw [hsame, Bool.and_eq_true, List.contains_iff_mem]
  exact ⟨fun h => h.1, fun h => ⟨h, hpattern key h⟩⟩

theorem parseMember_eq_some {raw : Text} {m : MemberParts} :
    WebClient.parseMember raw = some m ↔ ∃ rawKey rest,
      splitOnce '=' (jsTrim raw) = some (rawKey, rest) ∧ m.key = jsTrim rawKey ∧
        m.encoded = jsTrim (cutMetadata rest).1 ∧ m.metadata = jsTrim (cutMetadata rest).2 ∧
        m.Kept := by
  unfold WebClient.parseMember
  cases hsplit : splitOnce '=' (jsTrim raw) with
  | none => simp
  | some p =>
    obtain ⟨rawKey, rest⟩ := p
    simp only [cutMetadata_eq]
    constructor
    · intro h
      split at h
      · cases h
      split at h
      · cases h
      split at h
      · cases h
      split at h
      · cases h
      rename_i hempty hkey hencoded hmetadata
      simp only [Bool.not_eq_true', Bool.not_eq_false] at hkey hencoded
      cases h
      refine ⟨rawKey, rest, rfl, rfl, rfl, rfl, validBaggageKey_iff.mp hkey, hencoded, ?_⟩
      simp only [Bool.and_eq_true, Bool.not_eq_true', List.isEmpty_eq_false_iff, not_and,
        Bool.not_eq_false] at hmetadata
      exact (Decidable.em _).imp_right hmetadata
    · rintro ⟨rawKey', rest', hsome, hkey, hencoded, hmetadata, hkept⟩
      cases hsome
      obtain ⟨hsafe, hvalid, hproperties⟩ := hkept
      rw [hkey] at hsafe
      rw [hencoded] at hvalid
      rw [hmetadata] at hproperties
      have hne : rawKey ≠ [] := by
        rintro rfl
        exact (safe_key_facts _ hsafe).1 rfl
      rw [if_neg (by simpa using hne), if_neg (by simp [validBaggageKey_iff.mpr hsafe]),
        if_neg (by rw [hvalid]; decide), if_neg, ← hkey, ← hencoded, ← hmetadata]
      simp only [Bool.and_eq_true, Bool.not_eq_true', List.isEmpty_eq_false_iff, not_and,
        Bool.not_eq_false]
      exact hproperties.resolve_left

/-- No blank, no semicolon and no comma in what a member is made of. -/
theorem parseMember_facts {raw : Text} {m : MemberParts} (hraw : ',' ∉ raw)
    (h : WebClient.parseMember raw = some m) :
    m.Kept ∧ m.Written ∧ ',' ∉ m.metadata ∧ jsTrim m.metadata = m.metadata ∧
      (utf16 m.text).length ≤ (utf16 raw).length := by
  obtain ⟨rawKey, rest, hsplit, hkey, hencoded, hmetadata, hkept⟩ := parseMember_eq_some.mp h
  obtain ⟨hmember, -⟩ := splitOnce_some hsplit
  have hmem : ∀ c ∈ rest, c ∈ raw := by
    intro c hc
    apply mem_of_mem_trimMatches (p := isJsSpace)
    unfold jsTrim at hmember
    rw [hmember]
    simp [hc]
  have hcut : (∀ c, c ∈ (cutMetadata rest).1 ∨ c ∈ (cutMetadata rest).2 → c ∈ rest) ∧
      ';' ∉ (cutMetadata rest).1 ∧
      (rest = (cutMetadata rest).1 ++ ';' :: (cutMetadata rest).2 ∨
        rest = (cutMetadata rest).1 ∧ (cutMetadata rest).2 = []) := by
    unfold cutMetadata
    cases hsemicolon : splitOnce ';' rest with
    | none => exact ⟨by simp, splitOnce_none hsemicolon, .inr ⟨rfl, rfl⟩⟩
    | some p =>
      obtain ⟨hrest, hno⟩ := splitOnce_some hsemicolon
      refine ⟨fun c hc => ?_, hno, .inl hrest⟩
      rw [hrest]
      rcases hc with hc | hc
      · exact List.mem_append_left _ hc
      · exact List.mem_append_right _ (List.mem_cons_of_mem _ hc)
  obtain ⟨hparts, hsemicolon, hrest⟩ := hcut
  have hcomma : ∀ c, c ∈ m.encoded ∨ c ∈ m.metadata → c ≠ ',' := by
    rintro c hc rfl
    apply hraw
    apply hmem
    rw [hencoded, hmetadata] at hc
    exact hparts _ (hc.imp mem_of_mem_trimMatches mem_of_mem_trimMatches)
  refine ⟨hkept, ⟨hkept.key, fun c hc => ⟨?_, ?_, hcomma c (.inl hc)⟩⟩,
    fun hc => hcomma _ (.inr hc) rfl, ?_, ?_⟩
  · have hunit := not_isJsSpace_of_unit ((encoded_facts hkept.encoded).2.2.1 c hc)
    cases hows : isOws c with
    | false => rfl
    | true =>
      rw [isJsSpace_of_isOws hows] at hunit
      cases hunit
  · rintro rfl
    rw [hencoded] at hc
    exact hsemicolon (mem_of_mem_trimMatches hc)
  · rw [hmetadata]
    exact trimMatches_idem isJsSpace _
  · have hraw := utf16_length_trimMatches_le isJsSpace raw
    have hkeyLe := utf16_length_trimMatches_le isJsSpace rawKey
    have hencodedLe := utf16_length_trimMatches_le isJsSpace (cutMetadata rest).1
    have hmetadataLe := utf16_length_trimMatches_le isJsSpace (cutMetadata rest).2
    have hcons : ∀ (c : Char) (s : Text), c.toNat < 0x10000 →
        (utf16 (c :: s)).length = (utf16 s).length + 1 := by
      intro c s hc
      simp [utf16, utf16Char, hc, Nat.add_comm]
    have hlength : (utf16 rest).length = (utf16 (cutMetadata rest).1).length +
          (utf16 (cutMetadata rest).2).length + 1 ∨
        (utf16 rest).length = (utf16 (cutMetadata rest).1).length ∧ m.metadata = [] := by
      rcases hrest with hrest | ⟨hrest, hnil⟩
      · left
        conv_lhs => rw [hrest]
        rw [utf16_length_append, hcons _ _ (by decide)]
        omega
      · right
        constructor
        · conv_lhs => rw [hrest]
        · rw [hmetadata, hnil]
          rfl
    unfold jsTrim at hkey hencoded hmetadata hmember
    rw [← hkey] at hkeyLe
    rw [← hencoded] at hencodedLe
    rw [← hmetadata] at hmetadataLe
    rw [hmember, utf16_length_append, hcons _ _ (by decide)] at hraw
    unfold MemberParts.text
    rw [utf16_length_append, utf16_length_append, hcons _ _ (by decide)]
    by_cases hempty : m.metadata.isEmpty = true
    · have hnil : (utf16 ([] : Text)).length = 0 := rfl
      rw [if_pos hempty, hnil]
      omega
    · rw [if_neg hempty, hcons _ _ (by decide)]
      have hne : m.metadata ≠ [] := fun hnil => hempty (List.isEmpty_iff.mpr hnil)
      rcases hlength with hlength | ⟨-, hnil⟩
      · omega
      · exact absurd hnil hne

theorem safe_key_not_isJsSpace {key : Text} (h : key ∈ Shared.safeBusinessBaggageKeys) :
    ∀ c ∈ key, isJsSpace c = false := by
  intro c hc
  have := ((safe_key_facts key h).2.2 c hc).1
  simp only [isJsSpace, Bool.or_eq_false_iff, decide_eq_false_iff_not]
  omega

/-- There is nothing to trim where a member is written from trimmed parts. -/
theorem text_ends {m : MemberParts} (hkept : m.Kept) (htrim : jsTrim m.metadata = m.metadata) :
    EndsOutside isJsSpace m.text := by
  obtain ⟨-, -, hunits, -⟩ := encoded_facts hkept.encoded
  unfold MemberParts.text
  constructor
  · intro c hc
    rw [List.append_assoc, List.head?_append_of_ne_nil _ (safe_key_facts m.key hkept.key).1] at hc
    exact safe_key_not_isJsSpace hkept.key c (List.mem_of_head? hc)
  · intro c hc
    by_cases hempty : m.metadata.isEmpty = true
    · rw [if_pos hempty, List.append_nil,
        List.getLast?_append_of_ne_nil _ (List.cons_ne_nil _ _)] at hc
      rcases List.mem_cons.mp (List.mem_of_getLast? hc) with rfl | hc
      · decide
      · exact not_isJsSpace_of_unit (hunits c hc)
    · have hne : m.metadata ≠ [] := fun hnil => hempty (List.isEmpty_iff.mpr hnil)
      have hends := trimMatches_ends isJsSpace m.metadata
      unfold jsTrim at htrim
      rw [htrim] at hends
      rw [if_neg hempty, List.getLast?_append_of_ne_nil _ (List.cons_ne_nil _ _),
        List.getLast?_cons_of_ne_nil hne] at hc
      exact hends.2 c hc

/-- A kept member is read again as it was written. -/
theorem parseMember_text {m : MemberParts} (hkept : m.Kept) (hwritten : m.Written)
    (htrim : jsTrim m.metadata = m.metadata) : WebClient.parseMember m.text = some m := by
  obtain ⟨-, -, hkeyChars⟩ := safe_key_facts m.key hkept.key
  obtain ⟨-, -, hunits, -⟩ := encoded_facts hkept.encoded
  have hnoSpace : ∀ s : Text, (∀ c ∈ s, isJsSpace c = false) → jsTrim s = s := by
    intro s hs
    apply trimMatches_of_ends
    exact ⟨fun c hc => hs c (List.mem_of_head? hc), fun c hc => hs c (List.mem_of_getLast? hc)⟩
  have htext : jsTrim m.text = m.text := trimMatches_of_ends (text_ends hkept htrim)
  have hcut : cutMetadata (m.encoded ++ if m.metadata.isEmpty then [] else ';' :: m.metadata) =
      (m.encoded, m.metadata) := by
    have hsemicolon : ';' ∉ m.encoded := fun hmem => (hwritten.encoded ';' hmem).2.1 rfl
    unfold cutMetadata
    by_cases hempty : m.metadata.isEmpty = true
    · rw [if_pos hempty, List.append_nil, splitOnce_of_not_mem hsemicolon,
        List.isEmpty_iff.mp hempty]
      rfl
    · rw [if_neg hempty, splitOnce_append hsemicolon]
      rfl
  have hequals : '=' ∉ m.key := fun hmem => (hkeyChars '=' hmem).2.2.1 rfl
  rw [parseMember_eq_some, htext]
  unfold MemberParts.text
  rw [List.append_assoc, List.cons_append]
  refine ⟨_, _, splitOnce_append hequals _, (hnoSpace _ (safe_key_not_isJsSpace hkept.key)).symm,
    ?_, ?_, hkept⟩
  · rw [hcut]
    exact (hnoSpace _ fun c hc => not_isJsSpace_of_unit (hunits c hc)).symm
  · rw [hcut]
    exact htrim.symm

/-! ## The loop -/

/-- The first usable member of its key. -/
def FirstMember (raws : List Text) (m : MemberParts) : Prop :=
  ∃ before raw after, raws = before ++ raw :: after ∧ WebClient.parseMember raw = some m ∧
    ∀ r ∈ before, ∀ m', WebClient.parseMember r = some m' → m'.key ≠ m.key

theorem not_firstMember_nil (m : MemberParts) : ¬ FirstMember [] m := by
  rintro ⟨before, raw, after, h, -⟩
  cases before with
  | nil => cases h
  | cons r before => cases h

theorem firstMember_cons {raw : Text} {raws : List Text} {m : MemberParts} :
    FirstMember (raw :: raws) m ↔ WebClient.parseMember raw = some m ∨
      FirstMember raws m ∧ ∀ m', WebClient.parseMember raw = some m' → m'.key ≠ m.key := by
  constructor
  · rintro ⟨before, r, after, h, hparse, hbefore⟩
    cases before with
    | nil =>
      cases h
      exact .inl hparse
    | cons r' before =>
      obtain ⟨rfl, rfl⟩ := List.cons.inj h
      exact .inr ⟨⟨before, r, after, rfl, hparse,
        fun x hx => hbefore x (List.mem_cons_of_mem _ hx)⟩, hbefore raw List.mem_cons_self⟩
  · rintro (hparse | ⟨⟨before, r, after, rfl, hparse, hbefore⟩, hraw⟩)
    · exact ⟨[], raw, raws, rfl, hparse, fun r hr => absurd hr List.not_mem_nil⟩
    · refine ⟨raw :: before, r, after, rfl, hparse, fun x hx => ?_⟩
      rcases List.mem_cons.mp hx with rfl | hx
      · exact hraw
      · exact hbefore x hx

/-- The eight safe keys keep the loop below its limit. -/
theorem seen_lt_maxBaggageEntries {seen : List Text} (hnodup : seen.Nodup)
    (hsafe : ∀ key ∈ seen, key ∈ Shared.safeBusinessBaggageKeys) :
    ¬ WebClient.maxBaggageEntries ≤ seen.length := by
  have hle : seen.length ≤ 8 := (List.Nodup.subperm hnodup hsafe).length_le
  unfold WebClient.maxBaggageEntries
  omega

/-- The loop keeps the first usable member of every key that it has not seen. -/
theorem mem_sanitizeMembers {seen raws : List Text} {m : MemberParts} (hnodup : seen.Nodup)
    (hsafe : ∀ key ∈ seen, key ∈ Shared.safeBusinessBaggageKeys) :
    m ∈ WebClient.sanitizeMembers seen.length seen raws ↔ m.key ∉ seen ∧ FirstMember raws m := by
  induction raws generalizing seen with
  | nil =>
    unfold WebClient.sanitizeMembers
    exact ⟨fun h => absurd h List.not_mem_nil, fun h => absurd h.2 (not_firstMember_nil m)⟩
  | cons raw raws ih =>
    unfold WebClient.sanitizeMembers
    rw [if_neg (seen_lt_maxBaggageEntries hnodup hsafe), firstMember_cons]
    cases hparse : WebClient.parseMember raw with
    | none => simp [ih hnodup hsafe]
    | some parts =>
      obtain ⟨-, -, -, -, -, -, hkept⟩ := parseMember_eq_some.mp hparse
      simp only [Option.some.injEq, forall_eq']
      by_cases hseen : parts.key ∈ seen
      · rw [if_pos (by simpa using hseen), ih hnodup hsafe]
        constructor
        · rintro ⟨hnew, hfirst⟩
          exact ⟨hnew, .inr ⟨hfirst, fun heq => hnew (heq ▸ hseen)⟩⟩
        · rintro ⟨hnew, rfl | hfirst⟩
          · exact absurd hseen hnew
          · exact ⟨hnew, hfirst.1⟩
      · have hcons := @ih (parts.key :: seen) (List.nodup_cons.mpr ⟨hseen, hnodup⟩) (by
          intro key hkey
          rcases List.mem_cons.mp hkey with rfl | hkey
          · exact hkept.key
          · exact hsafe key hkey)
        rw [List.length_cons] at hcons
        rw [if_neg (by simpa using hseen), List.mem_cons, hcons]
        constructor
        · rintro (rfl | ⟨hnew, hfirst⟩)
          · exact ⟨hseen, .inl rfl⟩
          · exact ⟨fun h => hnew (List.mem_cons_of_mem _ h), .inr ⟨hfirst, fun heq =>
              hnew (heq ▸ List.mem_cons_self)⟩⟩
        · rintro ⟨hnew, rfl | ⟨hfirst, hne⟩⟩
          · exact .inl rfl
          · refine .inr ⟨fun h => ?_, hfirst⟩
            rcases List.mem_cons.mp h with heq | h
            · exact hne heq.symm
            · exact hnew h

/-- What it keeps are parts of the members, one for each key. -/
theorem sanitizeMembers_keys (count : Nat) (seen raws : List Text) :
    ((WebClient.sanitizeMembers count seen raws).map MemberParts.key).Nodup ∧
      ∀ m ∈ WebClient.sanitizeMembers count seen raws,
        m.key ∉ seen ∧ ∃ raw ∈ raws, WebClient.parseMember raw = some m := by
  induction raws generalizing count seen with
  | nil =>
    unfold WebClient.sanitizeMembers
    exact ⟨List.nodup_nil, fun m hm => absurd hm List.not_mem_nil⟩
  | cons raw raws ih =>
    have hskip : ∀ seen count, ∀ m ∈ WebClient.sanitizeMembers count seen raws,
        m.key ∉ seen ∧ ∃ r ∈ raw :: raws, WebClient.parseMember r = some m := by
      intro seen count m hm
      obtain ⟨hnew, r, hr, hparse⟩ := (ih count seen).2 m hm
      exact ⟨hnew, r, List.mem_cons_of_mem raw hr, hparse⟩
    unfold WebClient.sanitizeMembers
    split
    · exact ⟨List.nodup_nil, fun m hm => absurd hm List.not_mem_nil⟩
    · split
      · exact ⟨(ih count seen).1, hskip seen count⟩
      · rename_i parts hparse
        split
        · exact ⟨(ih count seen).1, hskip seen count⟩
        · rename_i hseen
          have hrest := hskip (parts.key :: seen) (count + 1)
          rw [List.map_cons, List.nodup_cons]
          refine ⟨⟨fun hmem => ?_, (ih _ _).1⟩, fun m hm => ?_⟩
          · obtain ⟨m, hm, heq⟩ := List.mem_map.mp hmem
            exact (hrest m hm).1 (heq ▸ List.mem_cons_self)
          · rcases List.mem_cons.mp hm with rfl | hm
            · exact ⟨by simpa using hseen, raw, List.mem_cons_self, hparse⟩
            · obtain ⟨hnew, hfound⟩ := hrest m hm
              exact ⟨fun h => hnew (List.mem_cons_of_mem _ h), hfound⟩

/-- Members as the loop wrote them pass it again. -/
theorem sanitizeMembers_text {count : Nat} {seen : List Text} {members : List MemberParts}
    (hparse : ∀ m ∈ members, WebClient.parseMember m.text = some m)
    (hnodup : (members.map MemberParts.key).Nodup) (hnew : ∀ m ∈ members, m.key ∉ seen)
    (hcount : count + members.length ≤ WebClient.maxBaggageEntries) :
    WebClient.sanitizeMembers count seen (members.map MemberParts.text) = members := by
  induction members generalizing count seen with
  | nil => rfl
  | cons m members ih =>
    rw [List.map_cons, List.nodup_cons] at hnodup
    rw [List.length_cons] at hcount
    have hseen := hnew m List.mem_cons_self
    rw [List.map_cons, WebClient.sanitizeMembers, if_neg (by omega),
      hparse m List.mem_cons_self]
    dsimp only
    rw [if_neg (by simpa using hseen), ih]
    · exact fun x hx => hparse x (List.mem_cons_of_mem m hx)
    · exact hnodup.2
    · intro x hx hmem
      rcases List.mem_cons.mp hmem with heq | hmem
      · exact hnodup.1 (heq ▸ List.mem_map_of_mem hx)
      · exact hnew x (List.mem_cons_of_mem m hx) hmem
    · omega

/-! ## The header -/

/-- The units of pieces and their commas. -/
def joinedLength : List Text → Nat
  | [] => 0
  | s :: pieces => (utf16 s).length + 1 + joinedLength pieces

theorem length_intercalate_comma {pieces : List Text} (hne : pieces ≠ []) :
    (utf16 ([','].intercalate pieces)).length + 1 = joinedLength pieces := by
  induction pieces with
  | nil => exact absurd rfl hne
  | cons s pieces ih =>
    cases pieces with
    | nil => simp [List.intercalate_singleton, joinedLength]
    | cons t pieces =>
      have hrest := ih (List.cons_ne_nil t pieces)
      have hcomma : (utf16 [',']).length = 1 := rfl
      rw [List.intercalate_cons_cons, utf16_length_append, utf16_length_append, hcomma,
        joinedLength]
      omega

theorem joinedLength_sanitizeMembers_le (count : Nat) (seen : List Text) {raws : List Text}
    (hcomma : ∀ raw ∈ raws, ',' ∉ raw) :
    joinedLength ((WebClient.sanitizeMembers count seen raws).map MemberParts.text) ≤
      joinedLength raws := by
  induction raws generalizing count seen with
  | nil => exact Nat.le_refl _
  | cons raw raws ih =>
    have hrest := fun count seen => ih count seen fun r hr => hcomma r (List.mem_cons_of_mem raw hr)
    rw [joinedLength]
    unfold WebClient.sanitizeMembers
    split
    · exact Nat.zero_le _
    · split
      · have := hrest count seen
        omega
      · rename_i parts hparse
        split
        · have := hrest count seen
          omega
        · have hle := (parseMember_facts (hcomma raw List.mem_cons_self) hparse).2.2.2.2
          have := hrest (count + 1) (parts.key :: seen)
          rw [List.map_cons, joinedLength]
          omega

/-- A member whose value and metadata the library takes too. -/
def PlainKept (m : MemberParts) : Prop :=
  '"' ∉ m.encoded ∧ '\\' ∉ m.encoded ∧ PlainWebMetadata m.metadata

/-- **Baggage.** The library accepts what the sanitizer returns exactly when the members
it kept are plain, and the sanitizer returns it again. -/
theorem sanitized_baggage {value r : Text} (h : WebClient.sanitizeBaggageHeader value = some r) :
    (Shared.validateBaggageHeader r = .ok () ↔
        ∀ m, FirstMember ((jsTrim value).splitOn ',') m → PlainKept m) ∧
      WebClient.sanitizeBaggageHeader r = some r := by
  unfold WebClient.sanitizeBaggageHeader at h
  dsimp only at h
  split at h
  · cases h
  split at h
  · cases h
  split at h
  · cases h
  rename_i hempty hsize hnone
  cases h
  have hcommas : ∀ raw ∈ (jsTrim value).splitOn ',', ',' ∉ raw :=
    fun raw hraw => (mem_splitOn hraw).1
  have hmem := fun m => @mem_sanitizeMembers [] ((jsTrim value).splitOn ',') m List.nodup_nil
    fun key hkey => absurd hkey List.not_mem_nil
  rw [List.length_nil] at hmem
  obtain ⟨hdistinct, hfound⟩ := sanitizeMembers_keys 0 [] ((jsTrim value).splitOn ',')
  have hlength := joinedLength_sanitizeMembers_le 0 [] hcommas
  generalize hmembers : WebClient.sanitizeMembers 0 [] ((jsTrim value).splitOn ',') = members at *
  have hne : members ≠ [] := by simpa using hnone
  have hfacts : ∀ m ∈ members, m.Kept ∧ m.Written ∧ ',' ∉ m.metadata ∧
      jsTrim m.metadata = m.metadata := by
    intro m hm
    obtain ⟨-, raw, hraw, hparse⟩ := hfound m hm
    obtain ⟨hkept, hwritten, hcomma, htrim, -⟩ := parseMember_facts (hcommas raw hraw) hparse
    exact ⟨hkept, hwritten, hcomma, htrim⟩
  have hwritten : ∀ m ∈ members, m.Written := fun m hm => (hfacts m hm).2.1
  have hcomma : ∀ m ∈ members, ',' ∉ m.metadata := fun m hm => (hfacts m hm).2.2.1
  have hunits : (utf16 (joinMembers members)).length ≤ WebClient.maxBaggageHeaderLength := by
    have hjoin : [','].intercalate ((jsTrim value).splitOn ',') = jsTrim value :=
      List.intercalate_splitOn ','
    have hwhole := length_intercalate_comma (List.splitOn_ne_nil ',' (jsTrim value))
    have hparts := length_intercalate_comma (List.map_eq_nil_iff.not.mpr hne :
      members.map MemberParts.text ≠ [])
    rw [hjoin] at hwhole
    unfold joinMembers
    omega
  constructor
  · have hbytes := utf8_length_le (joinMembers members)
    rw [validate_joinMembers_iff hne hwritten hdistinct hcomma]
    have hmember : ∀ m ∈ members,
        ((Shared.validBaggageValue m.encoded = true ∧ MetadataFits m.metadata) ↔ PlainKept m) := by
      intro m hm
      have hsemicolon : ';' ∉ m.encoded := fun hc => ((hwritten m hm).encoded ';' hc).2.1 rfl
      rw [stored_of_web (hfacts m hm).1.encoded hsemicolon,
        metadataFits_of_web (hfacts m hm).1.metadata, and_assoc]
      exact Iff.rfl
    constructor
    · rintro ⟨-, hall⟩ m hfirst
      have hm := (hmem m).mpr ⟨List.not_mem_nil, hfirst⟩
      exact (hmember m hm).mp (hall m hm)
    · intro hall
      refine ⟨?_, fun m hm => (hmember m hm).mpr (hall m ((hmem m).mp hm).2)⟩
      unfold WebClient.maxBaggageHeaderLength at hunits
      omega
  · have hparse : ∀ m ∈ members, WebClient.parseMember m.text = some m := fun m hm =>
      parseMember_text (hfacts m hm).1 (hwritten m hm) (hfacts m hm).2.2.2
    have htrim : jsTrim (joinMembers members) = joinMembers members := by
      apply trimMatches_of_ends
      apply endsOutside_intercalate
      intro piece hpiece
      obtain ⟨m, hm, rfl⟩ := List.mem_map.mp hpiece
      have hne : m.text ≠ [] := by simp [MemberParts.text]
      exact ⟨hne, text_ends (hfacts m hm).1 (hfacts m hm).2.2.2⟩
    have hcount := written_members_le hwritten hdistinct
    have hagain : WebClient.sanitizeMembers 0 [] ((joinMembers members).splitOn ',') = members := by
      rw [splitOn_joinMembers hne hwritten hcomma]
      apply sanitizeMembers_text hparse hdistinct fun m _ => List.not_mem_nil
      unfold WebClient.maxBaggageEntries
      omega
    unfold WebClient.sanitizeBaggageHeader
    dsimp only
    rw [htrim, if_neg (by simpa using joinMembers_ne_nil hne), if_neg (Nat.not_lt.mpr hunits),
      hagain, if_neg (by simpa using hne)]

/-! ## The three headers -/

/-- What the web front end lets through, and when the backends accept it: a
`traceparent` always, a `tracestate` whose members have at most 256 bytes, baggage
whose kept members are plain. None of the three functions changes its own result. -/
theorem web_headers_accepted_iff (value : Text) :
    (∀ r, WebClient.validTraceparent value = some r →
      (Shared.validateTraceparentHeader r = .ok () ∧
        FulfillmentService.validateTraceparent r = .ok ()) ∧
      WebClient.validTraceparent r = some r) ∧
    (∀ r, WebClient.validTracestate value = some r →
      ((Shared.validateTracestateHeader r = .ok () ∧
        FulfillmentService.validateTracestate r = .ok ()) ↔
          ∀ raw ∈ value.splitOn ',', (utf8 (trimOws raw)).length ≤ 256) ∧
      WebClient.validTracestate r = some r) ∧
    ∀ r, WebClient.sanitizeBaggageHeader value = some r →
      (Shared.validateBaggageHeader r = .ok () ↔
        ∀ m, FirstMember ((jsTrim value).splitOn ',') m → PlainKept m) ∧
      WebClient.sanitizeBaggageHeader r = some r := by
  refine ⟨fun r h => ?_, fun r h => web_tracestate h, fun r h => sanitized_baggage h⟩
  obtain ⟨htraceparent, rfl⟩ := web_traceparent_iff.mp h
  rw [validateTraceparentHeader_iff, validateTraceparent_fulfillment]
  exact ⟨⟨htraceparent, htraceparent⟩, h⟩

/-- A quote in a value passes in the browser, and the library refuses it. -/
theorem web_baggage_refused : ¬ ∀ value : Text,
    (∀ r, WebClient.validTraceparent value = some r →
      (Shared.validateTraceparentHeader r = .ok () ∧
        FulfillmentService.validateTraceparent r = .ok ()) ∧
      WebClient.validTraceparent r = some r) ∧
    (∀ r, WebClient.validTracestate value = some r →
      (Shared.validateTracestateHeader r = .ok () ∧
        FulfillmentService.validateTracestate r = .ok ()) ∧
      WebClient.validTracestate r = some r) ∧
    ∀ r, WebClient.sanitizeBaggageHeader value = some r →
      Shared.validateBaggageHeader r = .ok () ∧ WebClient.sanitizeBaggageHeader r = some r := by
  intro h
  have hsome : WebClient.sanitizeBaggageHeader "region=a\"b".toList =
      some "region=a\"b".toList := by rfl
  have hok := ((h "region=a\"b".toList).2.2 _ hsome).1
  have herror : Shared.validateBaggageHeader "region=a\"b".toList =
      .error "durable W3C baggage value is invalid" := by rfl
  rw [herror] at hok
  cases hok

theorem web_headers_accepted_sample :
    Shared.validateBaggageHeader "region=eu;p=1".toList = .ok () := by
  have hsome : WebClient.sanitizeBaggageHeader " region = eu;p=1 ".toList =
      some "region=eu;p=1".toList := by decide
  apply ((web_headers_accepted_iff _).2.2 _ hsome).1.mpr
  have hpieces : (jsTrim " region = eu;p=1 ".toList).splitOn ',' =
      ["region = eu;p=1".toList] := by decide
  have hparse : WebClient.parseMember "region = eu;p=1".toList =
      some ⟨"region".toList, "eu".toList, "p=1".toList⟩ := by decide
  have hproperties : "p=1".toList.splitOn ';' = ["p=1".toList] := by rfl
  intro m hfirst
  rw [hpieces, firstMember_cons, hparse] at hfirst
  rcases hfirst with hsome | hfirst
  · cases hsome
    refine ⟨by decide, by decide, fun property hproperty => ?_, ?_⟩
    · rw [hproperties, List.mem_singleton] at hproperty
      subst hproperty
      refine ⟨forall_mem_of_all (by decide), fun key value hsplit => ?_⟩
      have hcut : splitOnce '=' "p=1".toList = some ("p".toList, "1".toList) := by decide
      rw [hcut] at hsplit
      cases hsplit
      decide
    · rw [hproperties]
      simp
  · exact absurd hfirst.1 (not_firstMember_nil m)

end CommercePlayground.Propagation
