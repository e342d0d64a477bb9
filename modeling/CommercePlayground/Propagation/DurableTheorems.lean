/-
CommercePlayground.Propagation.DurableTheorems — which contexts can be stored.

The value of an entry comes back exactly when it has no `%`, and passes the
validator exactly when it has no `\` either: the propagator writes both as they are,
the first starts an escape and the second is no baggage octet. Metadata is written as
it is, so it must be a list of properties that the validator takes. What is left is
the length of the header and the trace state.
-/
import CommercePlayground.Lib.Table
import CommercePlayground.Propagation.Durable
import CommercePlayground.Propagation.MemberTheorems
import CommercePlayground.Propagation.TenantTheorems
import CommercePlayground.Propagation.ValidatorTheorems

namespace CommercePlayground.Propagation

open Lib

/-! ## One value -/

theorem hexValue_hexDigit (upper : Bool) {n : Nat} (h : n < 16) :
    hexValue (hexDigit upper n).toNat = some n := by
  have hall : ∀ upper, ∀ n < 16, hexValue (hexDigit upper n).toNat = some n := by decide
  exact hall upper n h

theorem isVerbatim_hexDigit (upper : Bool) {n : Nat} (h : n < 16) :
    isVerbatim (hexDigit upper n) = true := by
  have hall : ∀ upper, ∀ n < 16, isVerbatim (hexDigit upper n) = true := by decide
  exact hall upper n h

theorem utf8Char_lt {c : Char} {byte : Nat} (h : byte ∈ utf8Char c) : byte < 256 := by
  obtain ⟨b, -, rfl⟩ := List.mem_map.mp h
  exact b.toNat_lt

theorem isVerbatim_escapeChar {c d : Char} (h : d ∈ escapeChar c) : isVerbatim d = true := by
  obtain ⟨byte, hbyte, hd⟩ := List.mem_flatMap.mp h
  have hlt := utf8Char_lt hbyte
  simp only [hexByte, List.mem_cons, List.not_mem_nil, or_false] at hd
  rcases hd with rfl | rfl | rfl
  · decide
  · exact isVerbatim_hexDigit true (by omega)
  · exact isVerbatim_hexDigit true (by omega)

theorem isVerbatim_writeValue {value : Text} {d : Char} (h : d ∈ writeValue value) :
    isVerbatim d = true := by
  obtain ⟨c, -, hd⟩ := List.mem_flatMap.mp h
  split at hd
  · rename_i hc
    rw [List.mem_singleton.mp hd]
    exact hc
  · exact isVerbatim_escapeChar hd

theorem isVerbatim_iff {c : Char} : isVerbatim c = true ↔
    (0x21 ≤ c.toNat ∧ c.toNat ≤ 0x7e) ∧ c ≠ '"' ∧ c ≠ ';' ∧ c ≠ ',' ∧ c ≠ '=' := by
  simp [isVerbatim]

theorem ascii_writeValue (value : Text) : Ascii (writeValue value) := by
  intro c hc
  have := (isVerbatim_iff.mp (isVerbatim_writeValue hc)).1
  omega

theorem writeValue_cons (c : Char) (value : Text) :
    writeValue (c :: value) = (if isVerbatim c then [c] else escapeChar c) ++ writeValue value :=
  rfl

theorem codes_append (a b : Text) : codes (a ++ b) = codes a ++ codes b := List.map_append

/-- The bytes behind some escapes. -/
theorem percentDecode_escapes {bytes : List Nat} (h : ∀ byte ∈ bytes, byte < 256)
    (rest : List Nat) :
    percentDecode (codes (bytes.flatMap fun byte => '%' :: hexByte true byte) ++ rest) =
      (percentDecode rest).map (bytes ++ ·) := by
  induction bytes with
  | nil =>
    show percentDecode rest = (percentDecode rest).map ([] ++ ·)
    cases percentDecode rest with
    | none => rfl
    | some more => rfl
  | cons byte bytes ih =>
    have hbyte := h byte List.mem_cons_self
    rw [List.flatMap_cons, codes_append, List.append_assoc]
    show percentDecode (0x25 :: (hexDigit true (byte / 16)).toNat ::
      (hexDigit true (byte % 16)).toNat ::
        (codes (bytes.flatMap fun byte => '%' :: hexByte true byte) ++ rest)) = _
    rw [percentDecode_escape (hexValue_hexDigit true (by omega)) (hexValue_hexDigit true (by omega)),
      ih fun b hb => h b (List.mem_cons_of_mem byte hb)]
    rw [show byte / 16 * 16 + byte % 16 = byte by omega, Option.map_map]
    rfl

theorem percentDecode_escapeChar (c : Char) (rest : List Nat) :
    percentDecode (codes (escapeChar c) ++ rest) = (percentDecode rest).map (utf8Char c ++ ·) :=
  percentDecode_escapes (fun _ hb => utf8Char_lt hb) rest

theorem utf8Char_verbatim {c : Char} (h : isVerbatim c = true) : utf8Char c = [c.toNat] := by
  have := (isVerbatim_iff.mp h).1
  exact utf8Char_ascii (by omega)

/-- A value without `%` comes back. -/
theorem percentDecode_writeValue {value : Text} (h : '%' ∉ value) :
    percentDecode (codes (writeValue value)) = some (utf8 value) := by
  induction value with
  | nil => rfl
  | cons c value ih =>
    have hrest := ih fun hmem => h (List.mem_cons_of_mem c hmem)
    have hc : c ≠ '%' := fun heq => h (heq ▸ List.mem_cons_self)
    rw [writeValue_cons, codes_append, utf8_cons]
    split
    · rename_i hverbatim
      show percentDecode (c.toNat :: codes (writeValue value)) = _
      rw [percentDecode_cons fun heq => hc (Char.toNat_inj.mp heq), hrest,
        utf8Char_verbatim hverbatim]
      rfl
    · rw [percentDecode_escapeChar, hrest]
      rfl

/-- The first character of a written value is a digit only if the value has it. -/
theorem writeValue_digit {value : Text} {d : Nat} {rest : List Nat}
    (h : codes (writeValue value) = d :: rest) (hd : (hexValue d).isSome = true) :
    ∃ c after, value = c :: after ∧ utf8Char c = [d] ∧ rest = codes (writeValue after) := by
  cases value with
  | nil => cases h
  | cons c after =>
    rw [writeValue_cons, codes_append] at h
    by_cases hverbatim : isVerbatim c = true
    · rw [if_pos hverbatim] at h
      obtain ⟨hfirst, hrest⟩ := List.cons.inj h
      exact ⟨c, after, rfl, by rw [utf8Char_verbatim hverbatim]; simpa using hfirst, hrest.symm⟩
    · rw [if_neg hverbatim] at h
      obtain ⟨b, tail, hchar, -⟩ := headUtf8_encoded c []
      unfold escapeChar at h
      rw [hchar] at h
      obtain ⟨hfirst, -⟩ := List.cons.inj h
      rw [← hfirst] at hd
      exact absurd hd (by decide)

/-- What comes back is never longer, and it is shorter where there is a `%`. -/
theorem percentDecode_shorter {value : Text} {decoded : List Nat}
    (h : percentDecode (codes (writeValue value)) = some decoded) :
    decoded.length ≤ (utf8 value).length ∧
      ('%' ∈ value → decoded.length < (utf8 value).length) := by
  induction hn : value.length using Nat.strong_induction_on generalizing value decoded with
  | _ n ih =>
    cases value with
    | nil =>
      cases h
      exact ⟨Nat.le_refl 0, fun hmem => absurd hmem List.not_mem_nil⟩
    | cons c value =>
      rw [writeValue_cons, codes_append] at h
      rw [utf8_cons, List.length_append]
      have hlen : value.length < n := by simp [← hn]
      by_cases hc : c = '%'
      · subst hc
        rw [if_pos (by decide)] at h
        rcases percentDecode_cases h with
          ⟨hne, -⟩ | ⟨-, x, y, after, high, low, more, hafter, hx, hy, hmore, rfl⟩
        · exact absurd rfl hne
        · obtain ⟨c₁, v₁, rfl, hc₁, hrest⟩ := writeValue_digit hafter (by simp [hx])
          obtain ⟨c₂, v₂, rfl, hc₂, hrest⟩ := writeValue_digit hrest.symm (by simp [hy])
          rw [hrest] at hmore
          have hshort := (ih v₂.length (by simp at hlen; omega) hmore rfl).1
          rw [utf8_cons, utf8_cons, hc₁, hc₂]
          simp only [List.length_cons, List.length_append, List.length_nil]
          omega
      · have hmem : '%' ∈ c :: value → '%' ∈ value := by
          intro hmem
          rcases List.mem_cons.mp hmem with heq | hmem
          · exact absurd heq.symm hc
          · exact hmem
        by_cases hverbatim : isVerbatim c = true
        · rw [if_pos hverbatim] at h
          have hdecode : percentDecode (c.toNat :: codes (writeValue value)) = some decoded := h
          rw [percentDecode_cons fun heq => hc (Char.toNat_inj.mp heq)] at hdecode
          obtain ⟨more, hmore, rfl⟩ := Option.map_eq_some_iff.mp hdecode
          obtain ⟨hle, hlt⟩ := ih value.length hlen hmore rfl
          rw [utf8Char_verbatim hverbatim]
          simp only [List.length_cons, List.length_nil]
          exact ⟨by omega, fun hp => by have := hlt (hmem hp); omega⟩
        · rw [if_neg hverbatim, percentDecode_escapeChar] at h
          obtain ⟨more, hmore, rfl⟩ := Option.map_eq_some_iff.mp h
          obtain ⟨hle, hlt⟩ := ih value.length hlen hmore rfl
          rw [List.length_append]
          exact ⟨by omega, fun hp => by have := hlt (hmem hp); omega⟩

theorem validEscaped_escapes {octet : Nat → Bool} {bytes : List Nat}
    (h : ∀ byte ∈ bytes, byte < 256) (rest : List Nat) :
    validEscaped octet (codes (bytes.flatMap fun byte => '%' :: hexByte true byte) ++ rest) =
      validEscaped octet rest := by
  induction bytes with
  | nil => rfl
  | cons byte bytes ih =>
    have hbyte := h byte List.mem_cons_self
    rw [List.flatMap_cons, codes_append, List.append_assoc]
    show validEscaped octet (0x25 :: (hexDigit true (byte / 16)).toNat ::
      (hexDigit true (byte % 16)).toNat ::
        (codes (bytes.flatMap fun byte => '%' :: hexByte true byte) ++ rest)) = _
    rw [validEscaped, if_pos rfl, hexValue_hexDigit true (by omega),
      hexValue_hexDigit true (by omega), ih fun b hb => h b (List.mem_cons_of_mem byte hb)]
    rfl

/-- A character that is written as it is, other than `%`, is a baggage octet unless it
is the backslash. -/
theorem isBaggageOctet_verbatim {c : Char} (h : isVerbatim c = true) (hc : c ≠ '%') :
    Shared.isBaggageOctet c.toNat = true ↔ c ≠ '\\' := by
  obtain ⟨hrange, hquote, hsemicolon, hcomma, hequals⟩ := isVerbatim_iff.mp h
  have hcode : ∀ d : Char, c ≠ d → c.toNat ≠ d.toNat := fun d hd heq => hd (Char.toNat_inj.mp heq)
  have h1 := hcode '"' hquote
  have h2 := hcode ';' hsemicolon
  have h3 := hcode ',' hcomma
  have h5 := hcode '%' hc
  have h6 : c ≠ '\\' ↔ c.toNat ≠ 0x5c := by
    rw [not_iff_not]
    exact ⟨fun heq => heq ▸ rfl, fun heq => Char.toNat_inj.mp heq⟩
  rw [h6]
  simp only [Shared.isBaggageOctet, Bool.or_eq_true, Bool.and_eq_true, decide_eq_true_eq]
  have e1 : '"'.toNat = 0x22 := rfl
  have e2 : ';'.toNat = 0x3b := rfl
  have e3 : ','.toNat = 0x2c := rfl
  have e5 : '%'.toNat = 0x25 := rfl
  omega

theorem validEscaped_writeValue {value : Text} (h : '%' ∉ value) :
    validEscaped Shared.isBaggageOctet (codes (writeValue value)) = true ↔ '\\' ∉ value := by
  induction value with
  | nil => simp [writeValue, codes, validEscaped]
  | cons c value ih =>
    have hrest := ih fun hmem => h (List.mem_cons_of_mem c hmem)
    have hc : c ≠ '%' := fun heq => h (heq ▸ List.mem_cons_self)
    rw [writeValue_cons, codes_append, List.mem_cons, not_or]
    by_cases hverbatim : isVerbatim c = true
    · rw [if_pos hverbatim]
      show validEscaped Shared.isBaggageOctet (c.toNat :: codes (writeValue value)) = true ↔ _
      rw [validEscaped_cons fun heq => hc (Char.toNat_inj.mp heq), Bool.and_eq_true, hrest,
        isBaggageOctet_verbatim hverbatim hc, ne_comm]
    · rw [if_neg hverbatim, escapeChar, validEscaped_escapes fun _ hb => utf8Char_lt hb, hrest]
      have hback : '\\' ≠ c := fun heq => hverbatim (heq ▸ by decide)
      exact ⟨fun hr => ⟨hback, hr⟩, fun hr => hr.2⟩

/-- **One value.** It is stored and comes back exactly when it has neither `%` nor
`\`. -/
theorem value_stored_iff (value : Text) :
    (Shared.validBaggageValue (writeValue value) = true ∧
      (percentDecode (utf8 (writeValue value))).bind fromUtf8 = some value) ↔
      '%' ∉ value ∧ '\\' ∉ value := by
  unfold Shared.validBaggageValue
  rw [utf8_of_ascii (ascii_writeValue value)]
  constructor
  · rintro ⟨hvalid, hback⟩
    obtain ⟨bytes, hbytes, htext⟩ := Option.bind_eq_some_iff.mp hback
    have hpercent : '%' ∉ value := by
      intro hmem
      have hlt := (percentDecode_shorter hbytes).2 hmem
      rw [fromUtf8_eq_some_iff.mp htext] at hlt
      exact Nat.lt_irrefl _ hlt
    exact ⟨hpercent, (validEscaped_writeValue hpercent).mp hvalid⟩
  · rintro ⟨hpercent, hback⟩
    refine ⟨(validEscaped_writeValue hpercent).mpr hback, ?_⟩
    rw [percentDecode_writeValue hpercent]
    exact fromUtf8_utf8 value

/-! ## One entry -/

/-- The parts of the member that an entry becomes. -/
def BaggageEntry.parts (entry : BaggageEntry) : MemberParts :=
  ⟨entry.key, writeValue entry.value, entry.metadata⟩

theorem writeEntry_eq (entry : BaggageEntry) : writeEntry entry = entry.parts.text := rfl

theorem written_parts {entry : BaggageEntry}
    (hkey : entry.key ∈ Shared.safeBusinessBaggageKeys) : entry.parts.Written where
  key := hkey
  encoded := by
    intro c hc
    obtain ⟨hrange, -, hsemicolon, hcomma, -⟩ := isVerbatim_iff.mp (isVerbatim_writeValue hc)
    refine ⟨?_, hsemicolon, hcomma⟩
    unfold isOws
    rw [decide_eq_false_iff_not]
    rintro (rfl | rfl)
    · exact absurd hrange (by decide)
    · exact absurd hrange (by decide)

/-- What a reader takes from the entry. -/
theorem readMember_writeEntry {entry : BaggageEntry}
    (hkey : entry.key ∈ Shared.safeBusinessBaggageKeys) : readMember (writeEntry entry) =
    ((percentDecode (utf8 (writeValue entry.value))).bind fromUtf8).map
      fun value => (entry.key, value) := by
  have hwritten := written_parts hkey
  unfold readMember
  rw [writeEntry_eq, hwritten.splitOnce_text]
  dsimp only
  have hpieces := congrArg Prod.fst hwritten.valuePieces_text
  dsimp only [valuePieces] at hpieces
  rw [hpieces, hwritten.trimOws_encoded, hwritten.trimOws_key]
  rfl

/-! ## The header -/

/-- The length of a value as it is written. -/
def writtenLength (value : Text) : Nat :=
  (value.map fun c => if isVerbatim c then 1 else 3 * (utf8Char c).length).sum

def entryLength (entry : BaggageEntry) : Nat :=
  (utf8 entry.key).length + 1 + writtenLength entry.value +
    if entry.metadata.isEmpty then 0 else 1 + (utf8 entry.metadata).length

/-- The length of the header: the entries and the commas between them. -/
def headerLength (entries : List BaggageEntry) : Nat :=
  (entries.map entryLength).sum + (entries.length - 1)

theorem length_writeValue (value : Text) : (utf8 (writeValue value)).length = writtenLength value := by
  rw [utf8_of_ascii (ascii_writeValue value), codes, List.length_map]
  induction value with
  | nil => rfl
  | cons c value ih =>
    have hescape : ∀ bytes : List Nat,
        (bytes.flatMap fun byte => '%' :: hexByte true byte).length = 3 * bytes.length := by
      intro bytes
      induction bytes with
      | nil => rfl
      | cons byte bytes ihb =>
        rw [List.flatMap_cons, List.length_append, ihb]
        simp only [hexByte, List.length_cons, List.length_nil]
        omega
    rw [writeValue_cons, List.length_append, ih]
    unfold writtenLength
    rw [List.map_cons, List.sum_cons]
    split
    · rfl
    · rw [escapeChar, hescape]

theorem length_writeEntry (entry : BaggageEntry) :
    (utf8 (writeEntry entry)).length = entryLength entry := by
  unfold writeEntry entryLength
  rw [List.append_assoc, utf8_length_append, List.cons_append, utf8_cons, List.length_append,
    utf8_length_append, length_writeValue]
  have hequals : (utf8Char '=').length = 1 := rfl
  rw [hequals]
  split
  · show _ + (1 + (_ + 0)) = _
    omega
  · have hsemicolon : (utf8Char ';').length = 1 := rfl
    rw [utf8_cons, List.length_append, hsemicolon]
    omega

theorem length_writeBaggage (baggage : ContextBaggage) :
    (utf8 (writeBaggage baggage)).length = headerLength baggage.entries := by
  unfold writeBaggage headerLength
  induction baggage.entries with
  | nil => rfl
  | cons entry entries ih =>
    cases entries with
    | nil =>
      rw [List.map_singleton, List.intercalate_singleton, length_writeEntry]
      simp
    | cons next entries =>
      rw [List.map_cons, List.map_cons, List.intercalate_cons_cons, utf8_length_append,
        utf8_length_append, length_writeEntry, ← List.map_cons, ih]
      have hcomma : (utf8 [',']).length = 1 := rfl
      rw [hcomma]
      simp only [List.map_cons, List.sum_cons, List.length_cons]
      omega

theorem length_mapM_some {α β : Type} {f : α → Option β} {xs : List α} {ys : List β}
    (h : xs.mapM f = some ys) : ys.length = xs.length := by
  induction xs generalizing ys with
  | nil =>
    cases h
    rfl
  | cons x xs ih =>
    rw [List.mapM_cons] at h
    obtain ⟨y, -, h⟩ := Option.bind_eq_some_iff.mp h
    obtain ⟨rest, hrest, h⟩ := Option.bind_eq_some_iff.mp h
    cases h
    rw [List.length_cons, List.length_cons, ih hrest]

theorem readMembers_iff {entries : List BaggageEntry}
    (hsafe : ∀ entry ∈ entries, entry.key ∈ Shared.safeBusinessBaggageKeys) :
    (entries.map writeEntry).mapM readMember =
        some (entries.map fun entry => (entry.key, entry.value)) ↔
      ∀ entry ∈ entries,
        (percentDecode (utf8 (writeValue entry.value))).bind fromUtf8 = some entry.value := by
  induction entries with
  | nil => exact ⟨fun _ entry h => absurd h List.not_mem_nil, fun _ => rfl⟩
  | cons entry entries ih =>
    have hrec := ih fun e he => hsafe e (List.mem_cons_of_mem entry he)
    rw [List.map_cons, List.mapM_cons, readMember_writeEntry (hsafe entry List.mem_cons_self)]
    constructor
    · intro h
      obtain ⟨first, hfirst, h⟩ := Option.bind_eq_some_iff.mp h
      obtain ⟨rest, hrest, h⟩ := Option.bind_eq_some_iff.mp h
      obtain ⟨value, hvalue, rfl⟩ := Option.map_eq_some_iff.mp hfirst
      obtain ⟨hvalues, hrests⟩ := List.cons.inj (Option.some.inj h)
      intro e he
      rcases List.mem_cons.mp he with rfl | he
      · rw [hvalue, (Prod.mk.inj hvalues).2]
      · exact hrec.mp (hrests ▸ hrest) e he
    · intro hall
      rw [hall entry List.mem_cons_self,
        hrec.mpr fun e he => hall e (List.mem_cons_of_mem entry he)]
      rfl

/-- Metadata that stays within its member. -/
def MetadataPlain (metadata : Text) : Prop :=
  Printable metadata ∧ ',' ∉ metadata ∧ MetadataFits metadata

/-- The characters of a header are those of its entries. -/
theorem printable_writeBaggage {baggage : ContextBaggage}
    (hsafe : ∀ entry ∈ baggage.entries, entry.key ∈ Shared.safeBusinessBaggageKeys)
    (hmetadata : ∀ entry ∈ baggage.entries, Printable entry.metadata) :
    Printable (writeBaggage baggage) := by
  have hverbatim : ∀ c : Char, isVerbatim c = true →
      (0x20 ≤ c.toNat ∧ c.toNat < 0x7f) ∨ c = '\t' := by
    intro c hc
    have := (isVerbatim_iff.mp hc).1
    omega
  have hentry : ∀ entry ∈ baggage.entries, Printable (writeEntry entry) := by
    intro entry hentry c hc
    unfold writeEntry at hc
    simp only [List.mem_append, List.mem_cons] at hc
    rcases hc with (hc | rfl | hc) | hc
    · have hrange := ((safe_key_facts entry.key (hsafe entry hentry)).2.2 c hc).1
      exact .inl (by omega)
    · decide
    · exact hverbatim c (isVerbatim_writeValue hc)
    · split at hc
      · exact absurd hc List.not_mem_nil
      · rcases List.mem_cons.mp hc with rfl | hc
        · decide
        · exact hmetadata entry hentry c hc
  unfold writeBaggage
  revert hentry
  induction baggage.entries with
  | nil => exact fun _ c hc => absurd hc List.not_mem_nil
  | cons entry entries ih =>
    intro hentry
    cases entries with
    | nil =>
      rw [List.map_singleton, List.intercalate_singleton]
      exact hentry entry List.mem_cons_self
    | cons next entries =>
      rw [List.map_cons, List.map_cons, List.intercalate_cons_cons, ← List.map_cons]
      intro c hc
      rcases List.mem_append.mp hc with hc | hc
      · rcases List.mem_append.mp hc with hc | hc
        · exact hentry entry List.mem_cons_self c hc
        · rw [List.mem_singleton.mp hc]
          decide
      · exact ih (fun e he => hentry e (List.mem_cons_of_mem entry he)) c hc

theorem printable_of_mem_writeBaggage {baggage : ContextBaggage}
    (h : Printable (writeBaggage baggage)) {entry : BaggageEntry}
    (hentry : entry ∈ baggage.entries) : Printable entry.metadata := by
  intro c hc
  apply h c
  have hwritten : c ∈ writeEntry entry := by
    unfold writeEntry
    rw [if_neg (by simpa using List.ne_nil_of_mem hc)]
    simp [hc]
  have hpiece := List.mem_map_of_mem (f := writeEntry) hentry
  unfold writeBaggage
  revert hpiece
  induction baggage.entries.map writeEntry with
  | nil => exact fun hmem => absurd hmem List.not_mem_nil
  | cons piece pieces ih =>
    intro hmem
    cases pieces with
    | nil =>
      rw [List.intercalate_singleton]
      rw [List.mem_singleton] at hmem
      exact hmem ▸ hwritten
    | cons next pieces =>
      rw [List.intercalate_cons_cons]
      rcases List.mem_cons.mp hmem with rfl | hmem
      · exact List.mem_append_left _ (List.mem_append_left _ hwritten)
      · exact List.mem_append_right _ (ih hmem)

/-- **The baggage header.** It passes the validator, can be read as a string and gives
the entries back exactly when every value has neither `%` nor `\`, the metadata is
plain and the header is not too long. -/
theorem baggage_stored_iff {baggage : ContextBaggage} (hne : baggage.entries ≠ [])
    (hsafe : ∀ entry ∈ baggage.entries, entry.key ∈ Shared.safeBusinessBaggageKeys) :
    (Printable (writeBaggage baggage) ∧
      Shared.validateBaggageHeader (writeBaggage baggage) = .ok () ∧
      readBaggage (writeBaggage baggage) =
        some (baggage.entries.map fun entry => (entry.key, entry.value))) ↔
      (∀ entry ∈ baggage.entries, '%' ∉ entry.value ∧ '\\' ∉ entry.value) ∧
        (∀ entry ∈ baggage.entries, MetadataPlain entry.metadata) ∧
        headerLength baggage.entries ≤ 8192 := by
  have hjoin : writeBaggage baggage = joinMembers (baggage.entries.map BaggageEntry.parts) := by
    unfold writeBaggage joinMembers
    rw [List.map_map]
    rfl
  have hnemembers : baggage.entries.map BaggageEntry.parts ≠ [] := by simpa using hne
  have hwritten : ∀ parts ∈ baggage.entries.map BaggageEntry.parts, parts.Written := by
    intro parts hparts
    obtain ⟨entry, hentry, rfl⟩ := List.mem_map.mp hparts
    exact written_parts (hsafe entry hentry)
  have hdistinct : ((baggage.entries.map BaggageEntry.parts).map MemberParts.key).Nodup := by
    rw [List.map_map]
    exact baggage.distinct
  have hread := readMembers_iff hsafe
  have hvalidate := validate_joinMembers_iff hnemembers hwritten hdistinct
  have hsplit := splitOn_joinMembers hnemembers hwritten
  rw [← hjoin, length_writeBaggage] at hvalidate
  rw [← hjoin, List.map_map] at hsplit
  simp only [List.forall_mem_map] at hvalidate hsplit
  constructor
  · rintro ⟨hprintable, hvalid, hback⟩
    -- as many members as entries, so no comma in the metadata
    have hcomma : ∀ entry ∈ baggage.entries, ',' ∉ entry.parts.metadata := by
      have hlength : ((writeBaggage baggage).splitOn ',').length =
          (baggage.entries.map writeEntry).length := by
        have := length_mapM_some hback
        simpa using this.symm
      intro entry hentry
      exact (written_parts (hsafe entry hentry)).comma_iff.mp
        ((length_splitOn_intercalate (by simpa using hne)).2 hlength _ (List.mem_map_of_mem hentry))
    obtain ⟨hsize, hparts⟩ := (hvalidate hcomma).mp hvalid
    unfold readBaggage at hback
    rw [hsplit hcomma] at hback
    have hvalues := hread.mp hback
    refine ⟨fun entry hentry => ?_, fun entry hentry => ?_, hsize⟩
    · exact (value_stored_iff entry.value).mp ⟨(hparts entry hentry).1, hvalues entry hentry⟩
    · exact ⟨printable_of_mem_writeBaggage hprintable hentry, hcomma entry hentry,
        (hparts entry hentry).2⟩
  · rintro ⟨hvalues, hmetadata, hsize⟩
    have hcomma : ∀ entry ∈ baggage.entries, ',' ∉ entry.parts.metadata :=
      fun entry hentry => (hmetadata entry hentry).2.1
    have hstored : ∀ entry ∈ baggage.entries,
        Shared.validBaggageValue (writeValue entry.value) = true ∧
          (percentDecode (utf8 (writeValue entry.value))).bind fromUtf8 = some entry.value :=
      fun entry hentry => (value_stored_iff entry.value).mpr (hvalues entry hentry)
    refine ⟨printable_writeBaggage hsafe fun entry hentry => (hmetadata entry hentry).1, ?_, ?_⟩
    · exact (hvalidate hcomma).mpr ⟨hsize, fun entry hentry =>
        ⟨(hstored entry hentry).1, (hmetadata entry hentry).2.2⟩⟩
    · unfold readBaggage
      rw [hsplit hcomma]
      exact hread.mpr fun entry hentry => (hstored entry hentry).2

/-! ## The carrier -/

theorem toStr_ok_iff {value t : Text} :
    Shared.toStr value = .ok t ↔ Printable value ∧ value = t := by
  unfold Shared.toStr
  split
  · rename_i hall
    refine ⟨fun h => ⟨printable_of_all hall, Except.ok.inj h⟩, fun h => ?_⟩
    rw [h.2]
  · rename_i hall
    refine ⟨fun h => (by cases h), fun h => absurd ?_ hall⟩
    rw [List.all_eq_true]
    intro c hc
    simpa using h.1 c hc

theorem headerTexts_ok_iff {name : String} {values texts : List Text} :
    Shared.headerTexts name values = .ok texts ↔
      (∀ value ∈ values, Printable value) ∧ values = texts := by
  have hmap : ∀ {values texts : List Text}, values.mapM Shared.toStr = .ok texts ↔
      (∀ value ∈ values, Printable value) ∧ values = texts := by
    intro values
    induction values with
    | nil =>
      intro texts
      exact ⟨fun h => ⟨fun _ hv => absurd hv List.not_mem_nil, Except.ok.inj h⟩,
        fun h => congrArg Except.ok h.2⟩
    | cons value values ih =>
      intro texts
      rw [List.mapM_cons]
      constructor
      · intro h
        obtain ⟨t, ht, h⟩ := bind_ok h
        obtain ⟨ts, hts, h⟩ := bind_ok h
        obtain ⟨hprintable, rfl⟩ := toStr_ok_iff.mp ht
        obtain ⟨hrest, rfl⟩ := ih.mp hts
        exact ⟨List.forall_mem_cons.mpr ⟨hprintable, hrest⟩, Except.ok.inj h⟩
      · rintro ⟨hall, rfl⟩
        obtain ⟨hprintable, hrest⟩ := List.forall_mem_cons.mp hall
        rw [toStr_ok_iff.mpr ⟨hprintable, rfl⟩, ih.mpr ⟨hrest, rfl⟩]
        rfl
  unfold Shared.headerTexts
  cases hvalues : values.mapM Shared.toStr with
  | error e =>
    refine ⟨fun h => (by cases h), fun h => ?_⟩
    rw [hmap.mpr ⟨h.1, rfl⟩] at hvalues
    cases hvalues
  | ok ts =>
    obtain ⟨hall, rfl⟩ := hmap.mp hvalues
    exact ⟨fun h => ⟨hall, Except.ok.inj h⟩, fun h => congrArg Except.ok h.2⟩

theorem singleHeader_ok_iff {name : String} {values : List Text} {t : Text} :
    (Shared.singleHeader name values >>= Shared.required name) = .ok t ↔
      values = [t] ∧ Printable t ∧ t ≠ [] := by
  unfold Shared.singleHeader
  constructor
  · intro h
    obtain ⟨o, h, hrequired⟩ := bind_ok h
    obtain ⟨texts, htexts, h⟩ := bind_ok h
    obtain ⟨hall, rfl⟩ := headerTexts_ok_iff.mp htexts
    match values, hall, h with
    | [], _, h =>
      cases h
      cases hrequired
    | [value], hall, h =>
      by_cases hempty : value.isEmpty = true
      · simp only [hempty, if_true] at h
        cases h
      · simp only [hempty, if_false, Bool.false_eq_true] at h
        cases h
        cases hrequired
        exact ⟨rfl, hall t List.mem_cons_self, fun hnil => hempty (List.isEmpty_iff.mpr hnil)⟩
    | _ :: _ :: _, _, h => cases h
  · rintro ⟨rfl, hprintable, hne⟩
    have htexts : Shared.headerTexts name [t] = .ok [t] :=
      headerTexts_ok_iff.mpr ⟨List.forall_mem_singleton.mpr hprintable, rfl⟩
    have hempty : t.isEmpty = false := List.isEmpty_eq_false_iff.mpr hne
    rw [htexts]
    show ((if t.isEmpty then Except.error _ else Except.ok (some t)) >>=
      Shared.required name) = _
    rw [hempty]
    rfl

theorem joinedHeader_ok_iff {name : String} {values : List Text} {t : Text} :
    (Shared.joinedHeader name values >>= Shared.required name) = .ok t ↔
      values ≠ [] ∧ (∀ value ∈ values, Printable value ∧ value ≠ []) ∧
        [','].intercalate values = t := by
  unfold Shared.joinedHeader
  constructor
  · intro h
    obtain ⟨o, h, hrequired⟩ := bind_ok h
    obtain ⟨texts, htexts, h⟩ := bind_ok h
    obtain ⟨hall, rfl⟩ := headerTexts_ok_iff.mp htexts
    by_cases hnone : values.isEmpty = true
    · rw [if_pos hnone] at h
      cases h
      cases hrequired
    rw [if_neg hnone] at h
    by_cases hempty : values.any List.isEmpty = true
    · rw [if_pos hempty] at h
      cases h
    rw [if_neg hempty] at h
    cases h
    refine ⟨fun hnil => hnone (List.isEmpty_iff.mpr hnil), fun value hvalue =>
      ⟨hall value hvalue, fun hnil => hempty ?_⟩, Except.ok.inj hrequired⟩
    exact List.any_eq_true.mpr ⟨value, hvalue, List.isEmpty_iff.mpr hnil⟩
  · rintro ⟨hne, hall, rfl⟩
    rw [headerTexts_ok_iff.mpr ⟨fun value hvalue => (hall value hvalue).1, rfl⟩]
    show ((if values.isEmpty then Except.ok none
      else if values.any List.isEmpty then Except.error _
      else Except.ok (some ([','].intercalate values))) >>= Shared.required name) = _
    rw [if_neg (fun h => hne (List.isEmpty_iff.mp h)), if_neg]
    · rfl
    · intro hany
      obtain ⟨value, hvalue, hempty⟩ := List.any_eq_true.mp hany
      exact (hall value hvalue).2 (List.isEmpty_iff.mp hempty)

/-- What passes: one `traceparent`, one `tracestate` and some lines of baggage, which
are joined. -/
structure Shared.Accepts (carrier : Carrier) (parent state : Text) : Prop where
  traceparent : carrier.traceparent = [parent]
  tracestate : carrier.tracestate = [state]
  printableTraceparent : Printable parent ∧ parent ≠ []
  printableTracestate : Printable state ∧ state ≠ []
  baggage : carrier.baggage ≠ []
  printableBaggage : ∀ line ∈ carrier.baggage, Printable line ∧ line ≠ []
  validTraceparent : Shared.validateTraceparentHeader parent = .ok ()
  validTracestate : Shared.validateTracestateHeader state = .ok ()
  validBaggage : Shared.validateBaggageHeader ([','].intercalate carrier.baggage) = .ok ()

theorem validateDurableContext_accepts {carrier : Carrier} :
    Shared.validateDurableContext carrier = .ok () ↔
      ∃ parent state, Shared.Accepts carrier parent state := by
  have hform : Shared.validateDurableContext carrier =
      ((Shared.singleHeader "traceparent" carrier.traceparent >>=
          Shared.required "traceparent") >>=
        fun tp => (Shared.singleHeader "tracestate" carrier.tracestate >>=
          Shared.required "tracestate") >>= fun ts =>
          (Shared.joinedHeader "baggage" carrier.baggage >>= Shared.required "baggage") >>=
            fun bg => Shared.validateTraceparentHeader tp >>= fun _ =>
              Shared.validateTracestateHeader ts >>= fun _ =>
                Shared.validateBaggageHeader bg) := by
    unfold Shared.validateDurableContext
    simp only [bind_assoc]
  rw [hform]
  constructor
  · intro h
    obtain ⟨tp, htp, h⟩ := bind_ok h
    obtain ⟨ts, hts, h⟩ := bind_ok h
    obtain ⟨bg, hbg, h⟩ := bind_ok h
    obtain ⟨htp, hptp⟩ := singleHeader_ok_iff.mp htp
    obtain ⟨hts, hpts⟩ := singleHeader_ok_iff.mp hts
    obtain ⟨hne, hall, rfl⟩ := joinedHeader_ok_iff.mp hbg
    obtain ⟨_, h1, h⟩ := bind_ok h
    obtain ⟨_, h2, h3⟩ := bind_ok h
    exact ⟨tp, ts, htp, hts, hptp, hpts, hne, hall, h1, h2, h3⟩
  · rintro ⟨tp, ts, h⟩
    rw [singleHeader_ok_iff.mpr ⟨h.traceparent, h.printableTraceparent⟩,
      singleHeader_ok_iff.mpr ⟨h.tracestate, h.printableTracestate⟩,
      joinedHeader_ok_iff.mpr ⟨h.baggage, h.printableBaggage, rfl⟩]
    show (Shared.validateTraceparentHeader tp >>= fun _ => _) = _
    rw [h.validTraceparent]
    show (Shared.validateTracestateHeader ts >>= fun _ => _) = _
    rw [h.validTracestate]
    exact h.validBaggage

/-- A carrier with one value of each header passes when all three do. -/
theorem validateDurableContext_ok_iff {traceparent tracestate baggage : Text} :
    Shared.validateDurableContext ⟨[traceparent], [tracestate], [baggage]⟩ = .ok () ↔
      ((Printable traceparent ∧ traceparent ≠ []) ∧
        Shared.validateTraceparentHeader traceparent = .ok ()) ∧
      ((Printable tracestate ∧ tracestate ≠ []) ∧
        Shared.validateTracestateHeader tracestate = .ok ()) ∧
      (Printable baggage ∧ baggage ≠ []) ∧ Shared.validateBaggageHeader baggage = .ok () := by
  rw [validateDurableContext_accepts]
  constructor
  · rintro ⟨tp, ts, h⟩
    obtain rfl := List.singleton_inj.mp h.traceparent
    obtain rfl := List.singleton_inj.mp h.tracestate
    have hbaggage := h.validBaggage
    rw [List.intercalate_singleton] at hbaggage
    exact ⟨⟨h.printableTraceparent, h.validTraceparent⟩,
      ⟨h.printableTracestate, h.validTracestate⟩,
      h.printableBaggage baggage List.mem_cons_self, hbaggage⟩
  · rintro ⟨⟨hptp, h1⟩, ⟨hpts, h2⟩, hpbg, h3⟩
    exact ⟨traceparent, tracestate, rfl, rfl, hptp, hpts, List.cons_ne_nil _ _,
      List.forall_mem_singleton.mpr hpbg, h1, h2, by rw [List.intercalate_singleton]; exact h3⟩

theorem hexDigit_lower {n : Nat} (h : n < 16) :
    isHexDigit (hexDigit false n).toNat = true ∧
      ((hexDigit false n).toNat = 0x30 ↔ n = 0) := by
  have hall : ∀ n < 16, isHexDigit (hexDigit false n).toNat = true ∧
      ((hexDigit false n).toNat = 0x30 ↔ n = 0) := by decide
  exact hall n h

/-- An id in hexadecimal digits: two for each byte, not all zero unless the id is. -/
theorem hexBytes_facts {bytes : List Nat} (h : ∀ byte ∈ bytes, byte < 256) :
    (codes (bytes.flatMap (hexByte false))).length = 2 * bytes.length ∧
      (codes (bytes.flatMap (hexByte false))).all isHexDigit = true ∧
      ((codes (bytes.flatMap (hexByte false))).all (fun n => n == 0x30) = true →
        ∀ byte ∈ bytes, byte = 0) := by
  induction bytes with
  | nil => exact ⟨rfl, rfl, fun _ byte hbyte => absurd hbyte List.not_mem_nil⟩
  | cons byte bytes ih =>
    have hbyte := h byte List.mem_cons_self
    obtain ⟨hlength, hdigits, hzero⟩ := ih fun b hb => h b (List.mem_cons_of_mem byte hb)
    obtain ⟨hhigh, hhighZero⟩ := hexDigit_lower (n := byte / 16) (by omega)
    obtain ⟨hlow, hlowZero⟩ := hexDigit_lower (n := byte % 16) (by omega)
    have hcons : codes ((byte :: bytes).flatMap (hexByte false)) =
        (hexDigit false (byte / 16)).toNat :: (hexDigit false (byte % 16)).toNat ::
          codes (bytes.flatMap (hexByte false)) := rfl
    rw [hcons]
    refine ⟨?_, ?_, fun hall b hb => ?_⟩
    · simp only [List.length_cons, hlength]
      omega
    · simp only [List.all_cons, hhigh, hlow, hdigits, Bool.and_self]
    · simp only [List.all_cons, Bool.and_eq_true, beq_iff_eq] at hall
      rcases List.mem_cons.mp hb with rfl | hb
      · have hhighz := hhighZero.mp hall.1
        have hlowz := hlowZero.mp hall.2.1
        omega
      · exact hzero hall.2.2 b hb

/-- The propagator writes a valid span as a `traceparent`. -/
theorem formatTraceparent_valid {span : SpanContext} (h : span.isValid = true) :
    Shared.validateTraceparentHeader (formatTraceparent span) = .ok () := by
  unfold SpanContext.isValid at h
  rw [Bool.and_eq_true] at h
  obtain ⟨htraceLength, htraceDigits, htraceZero⟩ := hexBytes_facts span.traceIdBytes
  obtain ⟨hspanLength, hspanDigits, hspanZero⟩ := hexBytes_facts span.spanIdBytes
  have hnonzero : ∀ bytes : List Nat, bytes.any (fun byte => decide (byte ≠ 0)) = true →
      ¬ ∀ byte ∈ bytes, byte = 0 := by
    intro bytes hany hall
    obtain ⟨byte, hbyte, hne⟩ := List.any_eq_true.mp hany
    rw [hall byte hbyte] at hne
    simp at hne
  have htrace : Traceparent (codes (formatTraceparent span)) := by
    refine ⟨codes (span.traceId.flatMap (hexByte false)),
      codes (span.spanId.flatMap (hexByte false)),
      [0x30, if span.sampled then 0x31 else 0x30], ?_, ⟨?_, htraceDigits, ?_⟩,
      ⟨?_, hspanDigits, ?_⟩, rfl, ?_⟩
    · unfold formatTraceparent
      cases span.sampled with
      | true => simp [codes]
      | false => simp [codes]
    · rw [htraceLength, span.traceIdLength]
    · rw [Bool.eq_false_iff]
      exact fun hall => hnonzero _ h.1 (htraceZero hall)
    · rw [hspanLength, span.spanIdLength]
    · rw [Bool.eq_false_iff]
      exact fun hall => hnonzero _ h.2 (hspanZero hall)
    · cases span.sampled with
      | true => decide
      | false => decide
  rw [validateTraceparentHeader_iff, utf8_of_ascii]
  · exact htrace
  · intro c hc
    exact htrace.ascii _ (List.mem_map_of_mem hc)

theorem printable_traceparent {s : Text} (h : Traceparent (utf8 s)) : Printable s ∧ s ≠ [] := by
  have hascii := ascii_of_utf8 h.ascii
  rw [utf8_of_ascii hascii] at h
  constructor
  · intro c hc
    have hmem : c.toNat ∈ codes s := List.mem_map_of_mem hc
    obtain ⟨t, p, f, heq, ⟨-, ht, -⟩, ⟨-, hp, -⟩, -, hf⟩ := h
    have hdigit : ∀ x : List Nat, x.all isHexDigit = true → c.toNat ∈ x →
        0x20 ≤ c.toNat ∧ c.toNat < 0x7f := by
      intro x hx hcx
      have := List.all_eq_true.mp hx _ hcx
      simp only [isHexDigit, isDigit, Bool.or_eq_true, decide_eq_true_eq] at this
      omega
    rw [heq] at hmem
    simp only [List.mem_append, List.mem_cons, List.not_mem_nil, or_false] at hmem
    rcases hmem with hdash | hmem | hdash | hmem | hdash | hmem
    · omega
    · exact .inl (hdigit t ht hmem)
    · omega
    · exact .inl (hdigit p hp hmem)
    · omega
    · exact .inl (hdigit f hf hmem)
  · rintro rfl
    obtain ⟨t, p, f, heq, -⟩ := h
    cases heq

/-! ## The context -/

/-- A trace state that is stored: the empty one and one that is no header value give
way to the default, any other must pass the validator. -/
def TraceStateFits (traceState : Text) : Prop :=
  traceState = [] ∨ (∃ c ∈ traceState, isHeaderChar c = false) ∨
    Printable traceState ∧ Shared.validateTracestateHeader traceState = .ok ()

def writtenTracestate (traceState : Text) : Text :=
  if traceState.all isHeaderChar && !traceState.isEmpty then traceState
  else Shared.defaultTracestate

theorem traceStateFits_iff (traceState : Text) : TraceStateFits traceState ↔
    (Printable (writtenTracestate traceState) ∧ writtenTracestate traceState ≠ []) ∧
      Shared.validateTracestateHeader (writtenTracestate traceState) = .ok () := by
  unfold TraceStateFits writtenTracestate
  by_cases hkept : (traceState.all isHeaderChar && !traceState.isEmpty) = true
  · rw [if_pos hkept]
    simp only [Bool.and_eq_true, List.all_eq_true, Bool.not_eq_true',
      List.isEmpty_eq_false_iff] at hkept
    constructor
    · rintro (hnil | ⟨c, hc, hchar⟩ | ⟨hprintable, hvalid⟩)
      · exact absurd hnil hkept.2
      · rw [hkept.1 c hc] at hchar
        cases hchar
      · exact ⟨⟨hprintable, hkept.2⟩, hvalid⟩
    · rintro ⟨⟨hprintable, -⟩, hvalid⟩
      exact .inr (.inr ⟨hprintable, hvalid⟩)
  · rw [if_neg hkept]
    have hdefault : (Printable Shared.defaultTracestate ∧ Shared.defaultTracestate ≠ []) ∧
        Shared.validateTracestateHeader Shared.defaultTracestate = .ok () :=
      ⟨⟨printable_of_all (by decide), by decide⟩, by decide⟩
    refine ⟨fun _ => hdefault, fun _ => ?_⟩
    simp only [Bool.and_eq_true, List.all_eq_true, Bool.not_eq_true', List.isEmpty_eq_false_iff,
      not_and, not_not] at hkept
    by_cases hall : ∀ c ∈ traceState, isHeaderChar c = true
    · exact .inl (hkept hall)
    · simp only [not_forall, Bool.not_eq_true] at hall
      obtain ⟨c, hc, hchar⟩ := hall
      exact .inr (.inl ⟨c, hc, hchar⟩)

theorem headerValue_printable {value : Text} (h : Printable value) : headerValue value = [value] := by
  unfold headerValue
  rw [if_pos]
  rw [List.all_eq_true]
  intro c hc
  unfold isHeaderChar
  rcases h c hc with hrange | rfl
  · simp only [Bool.or_eq_true, decide_eq_true_eq]
    omega
  · decide

theorem injectContextHeaders_eq {context : Context} (hspan : context.span.isValid = true)
    (hne : (cloneBaggage context.baggage).entries ≠ []) :
    Shared.injectContextHeaders context =
      ⟨[formatTraceparent context.span], [writtenTracestate context.span.traceState],
        headerValue (writeBaggage (cloneBaggage context.baggage))⟩ := by
  obtain ⟨hprintable, htpne⟩ := printable_traceparent
    ((validateTraceparentHeader_iff _).mp (formatTraceparent_valid hspan))
  have hempty : (cloneBaggage context.baggage).entries.isEmpty = false := by simpa using hne
  have hinject : injectContext (withSafeBaggage context) =
      ⟨[formatTraceparent context.span], headerValue context.span.traceState,
        headerValue (writeBaggage (cloneBaggage context.baggage))⟩ := by
    unfold injectContext withSafeBaggage
    simp only [hspan, hempty, if_true, headerValue_printable hprintable, Bool.false_eq_true,
      if_false]
  unfold Shared.injectContextHeaders Shared.addDefaultTracestateHeader
  rw [hinject]
  have htraceparent : ([formatTraceparent context.span].head?.any fun value => !value.isEmpty) =
      true := by simpa using htpne
  simp only [htraceparent, Bool.true_and]
  unfold headerValue writtenTracestate
  by_cases hall : context.span.traceState.all isHeaderChar = true
  · rw [if_pos hall, hall, Bool.true_and]
    by_cases hnil : context.span.traceState.isEmpty = true
    · simp [hnil]
    · simp [hnil]
  · simp only [Bool.not_eq_true] at hall
    simp [hall]

/-- The request goes on: the carrier is accepted, and what is stored gives the
sanitized baggage back. -/
def Stores (context : Context) : Prop :=
  (∃ carrier, Shared.injectDurableContextHeaders context = .ok carrier) ∧
    ∃ traceparent tracestate baggage,
      storedPropagation context = .ok (traceparent, tracestate, baggage) ∧
      readBaggage baggage = some
        ((cloneBaggage context.baggage).entries.map fun entry => (entry.key, entry.value))

/-- A context that can be stored. -/
structure Storable (context : Context) : Prop where
  traceState : TraceStateFits context.span.traceState
  values : ∀ entry ∈ (cloneBaggage context.baggage).entries,
    '%' ∉ entry.value ∧ '\\' ∉ entry.value
  metadata : ∀ entry ∈ (cloneBaggage context.baggage).entries, MetadataPlain entry.metadata
  length : headerLength (cloneBaggage context.baggage).entries ≤ 8192

theorem injectDurableContextHeaders_ok {context : Context} {carrier : Carrier}
    (hcarrier : Shared.injectContextHeaders context = carrier)
    (hvalid : Shared.validateDurableContext carrier = .ok ()) :
    Shared.injectDurableContextHeaders context = .ok carrier := by
  unfold Shared.injectDurableContextHeaders
  dsimp only
  rw [hcarrier, hvalid]
  rfl

theorem storedPropagation_ok {context : Context} {traceparent tracestate baggage : Text}
    (h : Shared.injectDurableContextHeaders context =
      .ok ⟨[traceparent], [tracestate], [baggage]⟩)
    (htp : Printable traceparent) (hts : Printable tracestate) (hbg : Printable baggage) :
    storedPropagation context = .ok (traceparent, tracestate, baggage) := by
  unfold storedPropagation
  rw [h]
  simp only [List.head?_cons, Option.bind_some, toStr_ok_iff.mpr ⟨htp, rfl⟩,
    toStr_ok_iff.mpr ⟨hts, rfl⟩, toStr_ok_iff.mpr ⟨hbg, rfl⟩, Except.toOption]
  rfl

theorem safe_of_clone {baggage : ContextBaggage} :
    ∀ entry ∈ (cloneBaggage baggage).entries, entry.key ∈ Shared.safeBusinessBaggageKeys := by
  intro entry hentry
  have hsafe := (List.mem_filter.mp hentry).2
  simp only [Shared.isSafeBaggageEntry, Bool.and_eq_true, List.contains_iff_mem] at hsafe
  exact hsafe.1.1

/-- A context with one entry of baggage. -/
def contextSample (value : Text) : Context where
  span :=
    { traceId := List.replicate 15 0 ++ [1]
      spanId := List.replicate 7 0 ++ [1]
      sampled := true
      traceState := []
      traceIdLength := rfl
      traceIdBytes := by decide
      spanIdLength := rfl
      spanIdBytes := by decide }
  baggage := ⟨[⟨"region".toList, value, []⟩], by simp⟩

end CommercePlayground.Propagation
