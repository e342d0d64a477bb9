/-
CommercePlayground.Propagation.GrammarTheorems — the stored baggage headers are those
of the grammar.

The validator is a loop over members in which each has a form and no key comes twice
(`baggageMembers_ok`). What is left is to read the form of one member as a derivation.
White space is where the two differ in shape: the validator trims the member before it
cuts it, the grammar lets every part have its own. Trimming does not move a separator,
so the cut is the same (`sharedMember_iff`).
-/
import CommercePlayground.Propagation.Grammar
import CommercePlayground.Propagation.MemberTheorems

namespace CommercePlayground.Propagation

open Lib

namespace Grammar

/-! ## Characters -/

theorem isAlphanum_eq (c : Char) : c.isAlphanum =
    (decide (c.val ≥ 'A'.val ∧ c.val ≤ 'Z'.val) ||
      (decide (c.val ≥ 'a'.val) && decide (c.val ≤ 'z'.val)) || c.isDigit) := rfl

theorem isTokenByte_char (c : Char) : Shared.isTokenByte c.toNat = isTokenChar c := by
  rw [Bool.eq_iff_iff]
  simp only [Shared.isTokenByte, isTokenChar, Bool.or_eq_true, List.contains_iff_mem,
    List.mem_cons, List.not_mem_nil, or_false, isDigit, isAsciiAlphabetic, isAlphanum_eq,
    Char.isDigit, decide_eq_true_eq, ← Char.toNat_inj, ge_iff_le, UInt32.le_iff_toNat_le, Bool.and_eq_true]
  simp only [Char.toNat_val, Char.reduceToNat]
  omega

theorem isBaggageOctet_char (c : Char) : Shared.isBaggageOctet c.toNat = isOctet c := by
  rw [Bool.eq_iff_iff]
  simp only [Shared.isBaggageOctet, isOctet, Bool.or_eq_true, Bool.and_eq_true,
    Bool.not_eq_true', ← Bool.not_eq_true, List.contains_iff_mem, List.mem_cons,
    List.not_mem_nil, or_false, decide_eq_true_eq, ← Char.toNat_inj]
  simp only [Char.reduceToNat]
  omega

theorem hexValue_char (c : Char) : (hexValue c.toNat).isSome = isHexChar c := by
  rw [Bool.eq_iff_iff]
  unfold hexValue
  simp only [isHexChar, Bool.or_eq_true, List.contains_iff_mem, List.mem_cons,
    List.not_mem_nil, or_false, Char.isDigit, decide_eq_true_eq, ← Char.toNat_inj, ge_iff_le,
    UInt32.le_iff_toNat_le, Bool.and_eq_true]
  simp only [Char.toNat_val, Char.reduceToNat]
  split_ifs <;> simp <;> omega

theorem isTokenChar_ascii {c : Char} (h : isTokenChar c = true) :
    c.toNat < 128 ∧ isOws c = false ∧ c ≠ '=' ∧ c ≠ ';' ∧ c ≠ ',' := by
  rw [← isTokenByte_char] at h
  simp only [Shared.isTokenByte, Bool.or_eq_true, List.contains_iff_mem, List.mem_cons,
    List.not_mem_nil, or_false, isDigit, isAsciiAlphabetic, decide_eq_true_eq] at h
  simp only [isOws, decide_eq_false_iff_not, ne_eq, ← Char.toNat_inj, Char.reduceToNat]
  omega

theorem isOctet_ascii {c : Char} (h : isOctet c = true) :
    c.toNat < 128 ∧ c ≠ '%' ∧ isOws c = false ∧ c ≠ ';' ∧ c ≠ ',' := by
  simp only [isOctet, Bool.and_eq_true, Bool.not_eq_true', ← Bool.not_eq_true,
    List.contains_iff_mem, List.mem_cons, List.not_mem_nil, or_false, decide_eq_true_eq,
    not_or] at h
  refine ⟨by omega, h.2.2.2.2.1, ?_, h.2.2.2.1, h.2.2.1⟩
  simp only [isOws, decide_eq_false_iff_not, ← Char.toNat_inj, Char.reduceToNat]
  omega

theorem isHexChar_ascii {c : Char} (h : isHexChar c = true) :
    c.toNat < 128 ∧ isOws c = false ∧ c ≠ ';' ∧ c ≠ ',' := by
  rw [← hexValue_char] at h
  have hvisible := hexValue_visible h
  unfold hexValue at h
  simp only [isOws, decide_eq_false_iff_not, ne_eq, ← Char.toNat_inj, Char.reduceToNat]
  split_ifs at h
  all_goals first | omega | cases h

/-! ## Tokens and values -/

theorem validBaggageKey_iff_token (key : Text) :
    Shared.validBaggageKey key = true ↔ IsToken key := by
  have hascii : ∀ l : List Nat, l.all Shared.isTokenByte = true → ∀ n ∈ l, n < 128 := by
    intro l hl n hn
    have hbyte := List.all_eq_true.mp hl n hn
    simp only [Shared.isTokenByte, Bool.or_eq_true, List.contains_iff_mem, List.mem_cons,
      List.not_mem_nil, or_false, isDigit, isAsciiAlphabetic, decide_eq_true_eq] at hbyte
    omega
  unfold Shared.validBaggageKey IsToken
  rw [Bool.and_eq_true, check_utf8 hascii, codes, List.all_map, List.all_eq_true]
  simp only [Function.comp_apply, isTokenByte_char, Bool.not_eq_true', List.isEmpty_eq_false_iff]
  constructor
  · rintro ⟨hne, -, hall⟩
    exact ⟨hne, hall⟩
  · rintro ⟨hne, hall⟩
    exact ⟨hne, fun c hc => (isTokenChar_ascii (hall c hc)).1, hall⟩

theorem IsValue.chars {value : Text} (h : IsValue value) :
    ∀ c ∈ value, c.toNat < 128 ∧ isOws c = false ∧ c ≠ ';' ∧ c ≠ ',' := by
  induction h with
  | nil => exact fun c hc => absurd hc List.not_mem_nil
  | octet hc _ ih =>
    intro d hd
    rcases List.mem_cons.mp hd with rfl | hd
    · obtain ⟨hlt, -, hrest⟩ := isOctet_ascii hc
      exact ⟨hlt, hrest⟩
    · exact ih d hd
  | escape hc hd _ ih =>
    intro e he
    rcases List.mem_cons.mp he with rfl | he
    · decide
    rcases List.mem_cons.mp he with rfl | he
    · exact isHexChar_ascii hc
    rcases List.mem_cons.mp he with rfl | he
    · exact isHexChar_ascii hd
    · exact ih e he

/-- The scan of the code points, one derivation step after the other. -/
theorem validEscaped_iff_value (value : Text) :
    validEscaped Shared.isBaggageOctet (codes value) = true ↔ IsValue value := by
  constructor
  · induction hn : value.length using Nat.strong_induction_on generalizing value with
    | _ n ih =>
      intro h
      match value, hn, h with
      | [], _, _ => exact .nil
      | c :: rest, hn, h =>
        by_cases hc : c.toNat = 0x25
        · -- an escape has two characters to come
          obtain rfl : c = '%' := Char.toNat_inj.mp hc
          match rest, hn, h with
          | [], _, h => simp [codes, validEscaped] at h
          | [_], _, h => simp [codes, validEscaped] at h
          | d :: e :: rest, hn, h =>
            simp only [codes, List.map_cons, validEscaped, Bool.and_eq_true, hexValue_char,
              Char.reduceToNat, if_true] at h
            exact .escape h.1.1 h.1.2 (ih _ (by simp at hn; omega) _ rfl h.2)
        · rw [codes, List.map_cons, validEscaped_cons hc, Bool.and_eq_true,
            isBaggageOctet_char] at h
          exact .octet h.1 (ih _ (by simp at hn; omega) _ rfl h.2)
  · intro h
    induction h with
    | nil => rfl
    | @octet c rest hc _ ih =>
      have hne : c.toNat ≠ 0x25 := fun heq =>
        (isOctet_ascii hc).2.1 (Char.toNat_inj.mp heq)
      rw [codes, List.map_cons, validEscaped_cons hne, isBaggageOctet_char, hc]
      exact ih
    | @escape c d rest hc hd _ ih =>
      show validEscaped Shared.isBaggageOctet (0x25 :: c.toNat :: d.toNat :: codes rest) = true
      rw [validEscaped, if_pos rfl, hexValue_char, hexValue_char, hc, hd]
      exact ih

theorem validBaggageValue_iff_value (value : Text) :
    Shared.validBaggageValue value = true ↔ IsValue value := by
  constructor
  · intro h
    rw [← validEscaped_iff_value, ← utf8_of_ascii (ascii_of_stored h)]
    exact h
  · intro h
    unfold Shared.validBaggageValue
    rw [utf8_of_ascii fun c hc => (h.chars c hc).1]
    exact (validEscaped_iff_value value).mpr h

/-! ## White space -/

theorem padded_iff {t s : Text} (ht : EndsOutside isOws t) : Padded t s ↔ trimOws s = t := by
  constructor
  · rintro ⟨hbefore, hafter⟩
    unfold trimOws
    rw [← trimMatches_dropWhile, List.dropWhile_append_of_pos hbefore, trimMatches_dropWhile,
      trimMatches_append_right hafter, trimMatches_of_ends ht]
  · rintro rfl
    obtain ⟨before, after, hs, hbefore, hafter⟩ := trimMatches_between isOws s
    have h := Padded.intro (t := trimOws s) hbefore hafter
    rwa [trimOws, ← hs] at h

theorem Padded.mem {t s : Text} (h : Padded t s) {c : Char} (hc : c ∈ s) :
    isOws c = true ∨ c ∈ t := by
  obtain ⟨hbefore, hafter⟩ := h
  rcases List.mem_append.mp hc with hc | hc
  · exact .inl (hbefore c hc)
  · rcases List.mem_append.mp hc with hc | hc
    · exact .inr hc
    · exact .inl (hafter c hc)

theorem endsOutside_of_no_ows {t : Text} (h : ∀ c ∈ t, isOws c = false) : EndsOutside isOws t :=
  ⟨fun c hc => h c (List.mem_of_head? hc), fun c hc => h c (List.mem_of_getLast? hc)⟩

theorem IsToken.padded_iff {key s : Text} (h : IsToken key) : Padded key s ↔ trimOws s = key :=
  Grammar.padded_iff (endsOutside_of_no_ows fun c hc => (isTokenChar_ascii (h.2 c hc)).2.1)

theorem IsValue.padded_iff {value s : Text} (h : IsValue value) :
    Padded value s ↔ trimOws s = value :=
  Grammar.padded_iff (endsOutside_of_no_ows fun c hc => (h.chars c hc).2.1)

/-- A separator that is no white space and not in a text is not in it padded. -/
theorem Padded.not_mem {t s : Text} (h : Padded t s) {c : Char} (hows : isOws c = false)
    (hc : c ∉ t) : c ∉ s := by
  intro hmem
  rcases h.mem hmem with hc' | hc'
  · rw [hows] at hc'
    cases hc'
  · exact hc hc'

/-! ## Properties -/

theorem propertyParts_of_none {raw : Text} (h : splitOnce '=' raw = none) :
    propertyParts raw = (trimOws raw, none) := by
  have hnone : splitOnce '=' (trimOws raw) = none :=
    splitOnce_of_not_mem fun hmem => splitOnce_none h (mem_of_mem_trimMatches hmem)
  unfold propertyParts
  rw [hnone]
  exact Prod.ext (trimMatches_idem isOws raw) rfl

theorem PropertyText.sharedProperty {p : Property} {raw : Text} (h : PropertyText p raw) :
    SharedProperty raw p.key := by
  cases h with
  | @bare key _ hkey hpadded =>
    have htrim := hkey.padded_iff.mp hpadded
    have hsplit : splitOnce '=' raw = none := splitOnce_of_not_mem
      (hpadded.not_mem (by decide) fun hmem => (isTokenChar_ascii (hkey.2 _ hmem)).2.2.1 rfl)
    refine ⟨htrim ▸ hkey.1, ?_, (validBaggageKey_iff_token key).mpr hkey, ?_⟩
    · rw [propertyParts_of_none hsplit, htrim]
    · intro value hvalue
      rw [propertyParts_of_none hsplit] at hvalue
      cases hvalue
  | @valued key value s t hkey hvalue hs ht =>
    have htrim := hkey.padded_iff.mp hs
    have hsplit : splitOnce '=' (s ++ '=' :: t) = some (s, t) := splitOnce_append
      (hs.not_mem (by decide) fun hmem => (isTokenChar_ascii (hkey.2 _ hmem)).2.2.1 rfl) t
    refine ⟨fun hnil => ?_, ?_, (validBaggageKey_iff_token key).mpr hkey, fun v hv => ?_⟩
    · have hcut := splitOnce_trimMatches (p := isOws) (by decide) hsplit
      unfold trimOws at hnil
      rw [hnil] at hcut
      cases hcut
    · rw [propertyParts_of_split hsplit]
      exact htrim
    · rw [propertyParts_of_split hsplit] at hv
      obtain rfl := Option.some.inj hv
      rw [trimOws_trimEnd, hvalue.padded_iff.mp ht]
      exact (validBaggageValue_iff_value value).mpr hvalue

theorem exists_propertyText {raw key : Text} (h : SharedProperty raw key) :
    ∃ p, p.key = key ∧ PropertyText p raw := by
  obtain ⟨-, hkey, hvalid, hvalue⟩ := h
  have htoken := (validBaggageKey_iff_token key).mp hvalid
  cases hsplit : splitOnce '=' raw with
  | none =>
    rw [propertyParts_of_none hsplit] at hkey
    exact ⟨⟨key, none⟩, rfl, .bare htoken (htoken.padded_iff.mpr hkey)⟩
  | some parts =>
    obtain ⟨s, t⟩ := parts
    rw [propertyParts_of_split hsplit] at hkey hvalue
    have hv := hvalue _ rfl
    rw [trimOws_trimEnd, validBaggageValue_iff_value] at hv
    obtain ⟨rfl, -⟩ := splitOnce_some hsplit
    exact ⟨⟨key, some (trimOws t)⟩, rfl,
      .valued htoken hv (htoken.padded_iff.mpr hkey) (hv.padded_iff.mpr rfl)⟩

theorem PropertyText.no_separator {p : Property} {raw : Text} (h : PropertyText p raw) {c : Char}
    (hows : isOws c = false) (hc : c ≠ '=') (hkey : ∀ d, isTokenChar d = true → d ≠ c)
    (hvalue : ∀ value, IsValue value → c ∉ value) : c ∉ raw := by
  cases h with
  | bare htoken hpadded =>
    exact hpadded.not_mem hows fun hmem => hkey c (htoken.2 c hmem) rfl
  | @valued _ value _ _ htoken hv hs ht =>
    intro hmem
    rcases List.mem_append.mp hmem with hmem | hmem
    · exact hs.not_mem hows (fun hmem => hkey c (htoken.2 c hmem) rfl) hmem
    · rcases List.mem_cons.mp hmem with rfl | hmem
      · exact hc rfl
      · exact ht.not_mem hows (hvalue value hv) hmem

/-! ## Loops as lists of derivations -/

section Loops

variable {α : Type} {P : Text → Text → Prop} {Q : α → Text → Prop}

theorem exists_derivation {xs : List α} {raws : List Text} (h : List.Forall₂ Q xs raws)
    {raw : Text} (hraw : raw ∈ raws) : ∃ x, Q x raw := by
  induction h with
  | nil => exact absurd hraw List.not_mem_nil
  | @cons x _ _ _ hx _ ih =>
    rcases List.mem_cons.mp hraw with rfl | hraw
    · exact ⟨x, hx⟩
    · exact ih hraw

/-- A loop that sees every key once passes when the pieces have derivations with
different keys. -/
theorem eachOnce_iff_derivations (key : α → Text) (hP : ∀ x raw, Q x raw → P raw (key x))
    (hQ : ∀ raw k, P raw k → ∃ x, key x = k ∧ Q x raw)
    {seen raws : List Text} : EachOnce P seen raws ↔
      ∃ xs, List.Forall₂ Q xs raws ∧ (xs.map key).Nodup ∧ ∀ x ∈ xs, key x ∉ seen := by
  induction raws generalizing seen with
  | nil =>
    exact ⟨fun _ => ⟨[], .nil, List.nodup_nil, fun _ hx => absurd hx List.not_mem_nil⟩,
      fun _ => trivial⟩
  | cons raw raws ih =>
    constructor
    · rintro ⟨k, hk, hseen, hrest⟩
      obtain ⟨xs, hforall, hnodup, hnew⟩ := ih.mp hrest
      obtain ⟨x, rfl, hx⟩ := hQ raw k hk
      refine ⟨x :: xs, .cons hx hforall, List.nodup_cons.mpr ⟨fun hmem => ?_, hnodup⟩, ?_⟩
      · obtain ⟨y, hy, heq⟩ := List.mem_map.mp hmem
        exact hnew y hy (heq ▸ List.mem_cons_self)
      · intro y hy
        rcases List.mem_cons.mp hy with rfl | hy
        · exact hseen
        · exact fun hmem => hnew y hy (List.mem_cons_of_mem _ hmem)
    · rintro ⟨xs, hforall, hnodup, hnew⟩
      cases hforall with
      | @cons x _ xs _ hx hforall =>
        rw [List.map_cons, List.nodup_cons] at hnodup
        refine ⟨key x, hP x raw hx, hnew x List.mem_cons_self, ih.mpr ⟨xs, hforall, hnodup.2, ?_⟩⟩
        intro y hy hmem
        rcases List.mem_cons.mp hmem with heq | hmem
        · exact hnodup.1 (heq ▸ List.mem_map_of_mem hy)
        · exact hnew y (List.mem_cons_of_mem x hy) hmem

end Loops

/-! ## Members -/

/-- What the validator asks of a member, without the outer trimming. -/
theorem sharedMember_iff (raw key : Text) :
    SharedMember raw key ↔ ∃ rawKey rawValue, splitOnce '=' raw = some (rawKey, rawValue) ∧
      trimOws rawKey = key ∧ Shared.validBaggageKey key = true ∧
      Shared.validBaggageValue (trimOws (valuePieces rawValue).1) = true ∧
      EachOnce SharedProperty [] (valuePieces rawValue).2 := by
  cases hsplit : splitOnce '=' raw with
  | none =>
    have hnone : splitOnce '=' (trimOws raw) = none :=
      splitOnce_of_not_mem fun hmem => splitOnce_none hsplit (mem_of_mem_trimMatches hmem)
    constructor
    · rintro ⟨rawKey, rawValue, hsome, -⟩
      rw [hnone] at hsome
      cases hsome
    · rintro ⟨rawKey, rawValue, hsome, -⟩
      cases hsome
  | some parts =>
    obtain ⟨rawKey, rawValue⟩ := parts
    have hcut : splitOnce '=' (trimOws raw) = some (rawKey.dropWhile isOws, trimEnd rawValue) :=
      splitOnce_trimMatches (by decide) hsplit
    -- the blanks at the end of the value are at the end of its last piece
    obtain ⟨w, hw, hows⟩ := trimEnd_append rawValue
    have hpieces := map_trim_splitOn_append (c := ';') hows (by decide) (trimEnd rawValue)
    rw [← hw] at hpieces
    have hhead : trimOws (valuePieces rawValue).1 = trimOws (valuePieces (trimEnd rawValue)).1 := by
      have := congrArg (fun l => l.headD []) hpieces
      unfold valuePieces
      cases h₁ : rawValue.splitOn ';' with
      | nil => exact absurd h₁ (List.splitOn_ne_nil _ _)
      | cons a l =>
        cases h₂ : (trimEnd rawValue).splitOn ';' with
        | nil => exact absurd h₂ (List.splitOn_ne_nil _ _)
        | cons b m =>
          rw [h₁, h₂] at this
          exact this
    have htail : EachOnce SharedProperty [] (valuePieces rawValue).2 ↔
        EachOnce SharedProperty [] (valuePieces (trimEnd rawValue)).2 := by
      apply eachOnce_congr
      have := congrArg List.tail hpieces
      rwa [← List.map_tail, ← List.map_tail] at this
    have hkey : trimOws (rawKey.dropWhile isOws) = trimOws rawKey :=
      trimMatches_dropWhile isOws rawKey
    constructor
    · rintro ⟨k, v, hsome, hk, hvalid, hvalue, hproperties⟩
      rw [hcut] at hsome
      cases hsome
      exact ⟨rawKey, rawValue, rfl, hkey ▸ hk, hvalid, hhead ▸ hvalue, htail.mpr hproperties⟩
    · rintro ⟨k, v, hsome, hk, hvalid, hvalue, hproperties⟩
      cases hsome
      exact ⟨_, _, hcut, hkey.trans hk, hvalid, hhead ▸ hvalue, htail.mp hproperties⟩

theorem eachOnce_properties_iff (raws : List Text) :
    EachOnce SharedProperty [] raws ↔
      ∃ ps, List.Forall₂ PropertyText ps raws ∧ (ps.map Property.key).Nodup := by
  rw [eachOnce_iff_derivations Property.key (fun _ _ h => h.sharedProperty)
    (fun _ _ h => exists_propertyText h)]
  simp only [List.not_mem_nil, not_false_eq_true, implies_true, and_true]

theorem isOws_separators : isOws '=' = false ∧ isOws ';' = false ∧ isOws ',' = false := by decide

theorem MemberText.sharedMember {member : Member} {raw : Text} (h : MemberText member raw) :
    SharedMember raw member.key := by
  obtain ⟨hkey, hvalue, hpadded, hpaddedValue, hproperties, hnodup⟩ := h
  rename_i key value properties
  have hsplit := splitOnce_append (hpadded.not_mem isOws_separators.1
    fun hmem => (isTokenChar_ascii (hkey.2 _ hmem)).2.2.1 rfl)
    ([';'].intercalate (value :: properties))
  have hplain : ∀ piece ∈ value :: properties, ';' ∉ piece := by
    intro piece hpiece
    rcases List.mem_cons.mp hpiece with rfl | hpiece
    · exact hpaddedValue.not_mem isOws_separators.2.1
        fun hmem => (hvalue.chars _ hmem).2.2.1 rfl
    · obtain ⟨p, hp⟩ := exists_derivation hproperties hpiece
      exact hp.no_separator isOws_separators.2.1 (by decide)
        (fun d hd => (isTokenChar_ascii hd).2.2.2.1)
        fun v hv hmem => (hv.chars _ hmem).2.2.1 rfl
  have hpieces : ([';'].intercalate (value :: properties)).splitOn ';' = value :: properties :=
    List.splitOn_intercalate _ hplain (List.cons_ne_nil _ _)
  refine (sharedMember_iff _ _).mpr ⟨key, _, hsplit, hkey.padded_iff.mp hpadded,
    (validBaggageKey_iff_token _).mpr hkey, ?_, ?_⟩
  · unfold valuePieces
    rw [hpieces, List.headD_cons, hvalue.padded_iff.mp hpaddedValue]
    exact (validBaggageValue_iff_value _).mpr hvalue
  · unfold valuePieces
    rw [hpieces, List.tail_cons]
    exact (eachOnce_properties_iff properties).mpr ⟨_, hproperties, hnodup⟩

theorem exists_memberText {raw key : Text} (h : SharedMember raw key) :
    ∃ member, member.key = key ∧ MemberText member raw := by
  obtain ⟨rawKey, rawValue, hsplit, hkey, hvalid, hvalue, hproperties⟩ :=
    (sharedMember_iff raw key).mp h
  have htoken := (validBaggageKey_iff_token key).mp hvalid
  have hv := (validBaggageValue_iff_value _).mp hvalue
  obtain ⟨ps, hps, hnodup⟩ := (eachOnce_properties_iff _).mp hproperties
  have hpieces : [';'].intercalate ((valuePieces rawValue).1 :: (valuePieces rawValue).2) =
      rawValue := by
    unfold valuePieces
    cases hcut : rawValue.splitOn ';' with
    | nil => exact absurd hcut (List.splitOn_ne_nil _ _)
    | cons first rest =>
      rw [List.headD_cons, List.tail_cons, ← hcut]
      exact List.intercalate_splitOn _
  obtain ⟨hraw, -⟩ := splitOnce_some hsplit
  have htext : MemberText ⟨key, _, ps⟩ _ := .intro htoken hv (htoken.padded_iff.mpr hkey)
    (hv.padded_iff.mpr rfl) hps hnodup
  rw [hpieces, ← hraw] at htext
  exact ⟨_, rfl, htext⟩

theorem MemberText.ne_nil {member : Member} {raw : Text} (h : MemberText member raw) :
    raw ≠ [] := by
  obtain ⟨-, -, -, -, -, -⟩ := h
  simp

theorem MemberText.no_comma {member : Member} {raw : Text} (h : MemberText member raw) :
    ',' ∉ raw := by
  obtain ⟨hkey, hvalue, hpadded, hpaddedValue, hproperties, -⟩ := h
  intro hmem
  rcases List.mem_append.mp hmem with hmem | hmem
  · exact hpadded.not_mem isOws_separators.2.2
      (fun hmem => (isTokenChar_ascii (hkey.2 _ hmem)).2.2.2.2 rfl) hmem
  rcases List.mem_cons.mp hmem with heq | hmem
  · exact absurd heq (by decide)
  rcases mem_intercalate hmem with heq | ⟨piece, hpiece, hcomma⟩
  · exact absurd heq (by decide)
  rcases List.mem_cons.mp hpiece with rfl | hpiece
  · exact hpaddedValue.not_mem isOws_separators.2.2
      (fun hmem => (hvalue.chars _ hmem).2.2.2 rfl) hcomma
  · obtain ⟨p, hp⟩ := exists_derivation hproperties hpiece
    exact hp.no_separator isOws_separators.2.2 (by decide)
      (fun d hd => (isTokenChar_ascii hd).2.2.2.2)
      (fun v hv hmem => (hv.chars _ hmem).2.2.2 rfl) hcomma

/-! ## Headers -/

theorem eachOnce_members_iff (raws : List Text) :
    EachOnce SharedMember [] raws ↔
      ∃ members, List.Forall₂ MemberText members raws ∧ (members.map Member.key).Nodup := by
  rw [eachOnce_iff_derivations Member.key (fun _ _ h => h.sharedMember)
    (fun _ _ h => exists_memberText h)]
  simp only [List.not_mem_nil, not_false_eq_true, implies_true, and_true]

theorem validate_iff_header (header : Text) :
    Shared.validateBaggageHeader header = .ok () ↔ ∃ members, Header members header := by
  unfold Shared.validateBaggageHeader
  constructor
  · intro h
    split at h
    · cases h
    split at h
    · cases h
    split at h
    · cases h
    rename_i hempty hbytes hcount
    rw [baggageMembers_ok, eachOnce_members_iff] at h
    obtain ⟨members, htexts, hnodup⟩ := h
    have hlength := htexts.length_eq
    refine ⟨members, ⟨by omega, fun hnil => ?_, by omega,
      ⟨_, (List.intercalate_splitOn ',').symm, htexts⟩, hnodup⟩⟩
    rw [hnil, List.length_nil] at hlength
    exact List.splitOn_ne_nil ',' header (List.eq_nil_of_length_eq_zero hlength.symm)
  · rintro ⟨members, hbytes, hne, hcount, ⟨pieces, rfl, htexts⟩, hnodup⟩
    have hlength := htexts.length_eq
    have hpieces : pieces ≠ [] := by
      rintro rfl
      exact hne (List.eq_nil_of_length_eq_zero hlength)
    have hsplit : ([','].intercalate pieces).splitOn ',' = pieces := by
      refine List.splitOn_intercalate ',' (fun piece hpiece => ?_) hpieces
      obtain ⟨member, hmember⟩ := exists_derivation htexts hpiece
      exact hmember.no_comma
    have hempty : [','].intercalate pieces ≠ [] := by
      intro hnil
      rw [hnil, List.splitOn_nil] at hsplit
      obtain ⟨member, hmember⟩ := exists_derivation htexts (hsplit ▸ List.mem_cons_self)
      exact hmember.ne_nil rfl
    rw [if_neg (by simpa using hempty), if_neg (by omega), hsplit, if_neg (by omega),
      baggageMembers_ok, eachOnce_members_iff]
    exact ⟨members, htexts, hnodup⟩

end Grammar

/-! ## Reading by index -/

/-- From any index on, the loop makes no read past the end, and what it says is what
the scan of the bytes that are left says. -/
theorem baggageValueLoop_eq (bytes : List Nat) (index : Nat) :
    Shared.baggageValueLoop bytes index =
      some (validEscaped Shared.isBaggageOctet (bytes.drop index)) := by
  induction hn : bytes.length - index using Nat.strong_induction_on generalizing index with
  | _ n ih =>
    unfold Shared.baggageValueLoop
    by_cases hindex : index < bytes.length
    · rw [if_pos hindex, List.getElem?_eq_getElem hindex, List.drop_eq_getElem_cons hindex]
      by_cases hescape : bytes[index] = 0x25
      · rw [hescape]
        simp only [if_true]
        by_cases hshort : bytes.length ≤ index + 2
        · -- an escape that is cut short
          rw [if_pos hshort]
          by_cases hone : index + 1 < bytes.length
          · rw [List.drop_eq_getElem_cons hone, List.drop_eq_nil_of_le hshort]
            simp [validEscaped]
          · rw [List.drop_eq_nil_of_le (by omega)]
            simp [validEscaped]
        · have hfirst : index + 1 < bytes.length := by omega
          have hsecond : index + 2 < bytes.length := by omega
          rw [if_neg hshort, List.getElem?_eq_getElem hfirst, List.getElem?_eq_getElem hsecond,
            List.drop_eq_getElem_cons hfirst, List.drop_eq_getElem_cons hsecond, validEscaped,
            if_pos rfl, ih _ (by omega) _ rfl]
          cases hc : hexValue bytes[index + 1] <;> cases hd : hexValue bytes[index + 2] <;>
            simp [hc, hd]
      · rw [validEscaped_cons hescape]
        simp only [hescape, if_false, ih _ (show bytes.length - (index + 1) < n by omega) _ rfl]
        cases Shared.isBaggageOctet bytes[index] <;> simp
    · rw [if_neg hindex, List.drop_eq_nil_of_le (by omega)]
      rfl

/-- The validator accepts exactly the headers of the grammar, and its loop over a value
comes to an end on any bytes without a read past their end. -/
theorem durable_baggage_grammar (header : Text) :
    (Shared.validateBaggageHeader header = .ok () ↔
      ∃ members, Grammar.Header members header) ∧
    ∀ bytes : List Nat, Shared.baggageValueLoop bytes 0 =
      some (validEscaped Shared.isBaggageOctet bytes) :=
  ⟨Grammar.validate_iff_header header, fun bytes => baggageValueLoop_eq bytes 0⟩

example : Shared.validateBaggageHeader "tenant.id=tenant%2".toList =
    .error "durable W3C baggage value is invalid" := by decide

end CommercePlayground.Propagation
