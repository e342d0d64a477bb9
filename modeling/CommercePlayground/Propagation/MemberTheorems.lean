/-
CommercePlayground.Propagation.MemberTheorems — a baggage header put together from
its parts, as `validate_baggage_header` sees it.

A writer joins a key, an encoded value and metadata to a member and the members to a
header. If the keys are safe and different from each other and no part holds a
separator that is not its own, the validator takes the header apart the same way:
what it asks is asked of each encoded value and of the metadata of each member.
-/
import CommercePlayground.Propagation.BaggageTheorems

namespace CommercePlayground.Propagation

open Lib

/-- A safe key, and an encoded value without blanks and separators. -/
structure MemberParts.Written (parts : MemberParts) : Prop where
  key : parts.key ∈ Shared.safeBusinessBaggageKeys
  encoded : ∀ c ∈ parts.encoded, isOws c = false ∧ c ≠ ';' ∧ c ≠ ','

/-! ## Keys and blanks -/

/-- What the safe keys have in common. -/
theorem safe_key_facts : ∀ key ∈ Shared.safeBusinessBaggageKeys,
    key ≠ [] ∧ Shared.validBaggageKey key = true ∧
      ∀ c ∈ key, (0x21 ≤ c.toNat ∧ c.toNat ≤ 0x7e) ∧ isOws c = false ∧ c ≠ '=' ∧ c ≠ ',' := by
  have hall : ∀ key ∈ Shared.safeBusinessBaggageKeys,
      key ≠ [] ∧ Shared.validBaggageKey key = true ∧ key.all (fun c => decide
        ((0x21 ≤ c.toNat ∧ c.toNat ≤ 0x7e) ∧ isOws c = false ∧ c ≠ '=' ∧ c ≠ ',')) = true := by
    decide
  intro key hkey
  obtain ⟨hne, hvalid, hchars⟩ := hall key hkey
  exact ⟨hne, hvalid, forall_mem_of_all hchars⟩

theorem trimOws_of_no_ows {s : Text} (h : ∀ c ∈ s, isOws c = false) : trimOws s = s := by
  apply trimMatches_of_ends
  constructor
  · intro c hc
    exact h c (List.mem_of_head? hc)
  · intro c hc
    exact h c (List.mem_of_getLast? hc)

/-- The spaces and tabs at the end cut off. -/
def trimEnd (s : Text) : Text := (s.reverse.dropWhile isOws).reverse

theorem trimEnd_append (s : Text) : ∃ w : Text, s = trimEnd s ++ w ∧ ∀ c ∈ w, isOws c = true := by
  refine ⟨(s.reverse.takeWhile isOws).reverse, ?_, fun c hc => ?_⟩
  · unfold trimEnd
    rw [← List.reverse_append, List.takeWhile_append_dropWhile, List.reverse_reverse]
  · exact List.all_eq_true.mp (List.all_takeWhile) c (List.mem_reverse.mp hc)

theorem trimOws_trimEnd (s : Text) : trimOws (trimEnd s) = trimOws s := by
  obtain ⟨w, hw, hows⟩ := trimEnd_append s
  conv_rhs => rw [hw]
  exact (trimMatches_append_right hows (trimEnd s)).symm

theorem propertyParts_of_split {property key value : Text}
    (h : splitOnce '=' property = some (key, value)) :
    propertyParts property = (trimOws key, some (trimEnd value)) := by
  have hsplit := splitOnce_trimMatches (p := isOws) (by decide) h
  unfold propertyParts trimOws
  rw [hsplit]
  simp only [trimMatches_dropWhile]
  rfl

/-! ## Metadata -/

theorem sharedProperty_congr {raw raw' key : Text} (h : trimOws raw = trimOws raw') :
    SharedProperty raw key ↔ SharedProperty raw' key := by
  unfold SharedProperty propertyParts
  rw [h]

theorem eachOnce_congr {seen raws raws' : List Text}
    (h : raws.map trimOws = raws'.map trimOws) :
    EachOnce SharedProperty seen raws ↔ EachOnce SharedProperty seen raws' := by
  induction raws generalizing seen raws' with
  | nil =>
    cases raws' with
    | nil => exact Iff.rfl
    | cons raw' raws' => cases h
  | cons raw raws ih =>
    cases raws' with
    | nil => cases h
    | cons raw' raws' =>
      rw [List.map_cons, List.map_cons] at h
      obtain ⟨hraw, hrest⟩ := List.cons.inj h
      constructor
      · rintro ⟨key, hkey, hseen, hafter⟩
        exact ⟨key, (sharedProperty_congr hraw).mp hkey, hseen, (ih hrest).mp hafter⟩
      · rintro ⟨key, hkey, hseen, hafter⟩
        exact ⟨key, (sharedProperty_congr hraw).mpr hkey, hseen, (ih hrest).mpr hafter⟩

/-- Metadata that the validator takes: none, or a list of properties. -/
def MetadataFits (metadata : Text) : Prop :=
  metadata = [] ∨ Shared.baggageProperties [] (metadata.splitOn ';') = .ok ()

/-- The blanks at its end do not matter. -/
theorem metadataFits_iff (metadata : Text) :
    EachOnce SharedProperty []
        (if metadata.isEmpty then [] else (trimEnd metadata).splitOn ';') ↔
      MetadataFits metadata := by
  unfold MetadataFits
  by_cases hempty : metadata.isEmpty = true
  · rw [if_pos hempty]
    exact ⟨fun _ => .inl (List.isEmpty_iff.mp hempty), fun _ => trivial⟩
  · have hne : metadata ≠ [] := fun h => hempty (List.isEmpty_iff.mpr h)
    obtain ⟨w, hw, hows⟩ := trimEnd_append metadata
    have hpieces := map_trim_splitOn_append (c := ';') hows (by decide) (trimEnd metadata)
    rw [← hw] at hpieces
    rw [if_neg hempty, ← eachOnce_congr hpieces, baggageProperties_ok]
    exact ⟨.inr, fun h => h.resolve_left hne⟩

/-! ## One member -/

section Written

variable {parts : MemberParts} (h : parts.Written)

include h

theorem MemberParts.Written.head {c : Char} (rest : Text)
    (hc : (parts.key ++ '=' :: parts.encoded ++ rest).head? = some c) : isOws c = false := by
  obtain ⟨hne, -, hchars⟩ := safe_key_facts parts.key h.key
  rw [List.append_assoc, List.head?_append_of_ne_nil _ hne] at hc
  exact (hchars c (List.mem_of_head? hc)).2.1

/-- The member that a reader sees once the ends are trimmed. -/
theorem MemberParts.Written.trimOws_text : trimOws parts.text =
    parts.key ++ '=' :: (parts.encoded ++
      if parts.metadata.isEmpty then [] else ';' :: trimEnd parts.metadata) := by
  unfold MemberParts.text
  by_cases hempty : parts.metadata.isEmpty = true
  · rw [if_pos hempty, if_pos hempty, List.append_nil, List.append_nil]
    apply trimMatches_of_ends
    refine ⟨fun c hc => h.head [] (by simpa using hc), fun c hc => ?_⟩
    rw [List.getLast?_append_of_ne_nil _ (List.cons_ne_nil _ _)] at hc
    rcases List.mem_cons.mp (List.mem_of_getLast? hc) with rfl | hc
    · decide
    · exact (h.encoded c hc).1
  · rw [if_neg hempty, if_neg hempty]
    have hsplit : parts.key ++ '=' :: parts.encoded ++ ';' :: parts.metadata =
        (parts.key ++ '=' :: parts.encoded ++ [';']) ++ parts.metadata := by simp
    rw [hsplit, trimOws, trimMatches_append_left (by simp)]
    · simp [trimEnd]
    · refine ⟨fun c hc => h.head _ hc, fun c hc => ?_⟩
      rw [List.getLast?_append_of_ne_nil _ (List.cons_ne_nil _ _)] at hc
      cases hc
      decide

theorem MemberParts.Written.splitOnce_text : splitOnce '=' (trimOws parts.text) =
    some (parts.key, parts.encoded ++
      if parts.metadata.isEmpty then [] else ';' :: trimEnd parts.metadata) := by
  rw [h.trimOws_text]
  apply splitOnce_append
  intro hmem
  exact ((safe_key_facts parts.key h.key).2.2 '=' hmem).2.2.1 rfl

theorem MemberParts.Written.trimOws_key : trimOws parts.key = parts.key :=
  trimOws_of_no_ows fun c hc => ((safe_key_facts parts.key h.key).2.2 c hc).2.1

theorem MemberParts.Written.trimOws_encoded : trimOws parts.encoded = parts.encoded :=
  trimOws_of_no_ows fun c hc => (h.encoded c hc).1

theorem MemberParts.Written.valuePieces_text : valuePieces (parts.encoded ++
      if parts.metadata.isEmpty then [] else ';' :: trimEnd parts.metadata) =
    (parts.encoded,
      if parts.metadata.isEmpty then [] else (trimEnd parts.metadata).splitOn ';') := by
  have hsemicolon : ';' ∉ parts.encoded := fun hmem => (h.encoded ';' hmem).2.1 rfl
  rw [valuePieces_eq]
  by_cases hempty : parts.metadata.isEmpty = true
  · rw [if_pos hempty, if_pos hempty, List.append_nil, splitOnce_of_not_mem hsemicolon]
  · rw [if_neg hempty, if_neg hempty, splitOnce_append hsemicolon]

/-- The validator on one member. -/
theorem MemberParts.Written.sharedMember_iff (key : Text) :
    SharedMember parts.text key ↔ parts.key = key ∧
      Shared.validBaggageValue parts.encoded = true ∧ MetadataFits parts.metadata := by
  have hvalid := (safe_key_facts parts.key h.key).2.1
  rw [← metadataFits_iff]
  constructor
  · rintro ⟨rawKey, rawValue, hsome, hk, -, hv, hproperties⟩
    rw [h.splitOnce_text] at hsome
    cases hsome
    rw [h.valuePieces_text] at hv hproperties
    rw [h.trimOws_encoded] at hv
    rw [h.trimOws_key] at hk
    exact ⟨hk, hv, hproperties⟩
  · rintro ⟨rfl, hv, hproperties⟩
    refine ⟨_, _, h.splitOnce_text, h.trimOws_key, hvalid, ?_, ?_⟩
    · rw [h.valuePieces_text, h.trimOws_encoded]
      exact hv
    · rw [h.valuePieces_text]
      exact hproperties

theorem MemberParts.Written.comma_iff : ',' ∉ parts.text ↔ ',' ∉ parts.metadata := by
  have hkeyComma : ',' ∉ parts.key := fun hmem =>
    ((safe_key_facts parts.key h.key).2.2 ',' hmem).2.2.2 rfl
  have hvalueComma : ',' ∉ parts.encoded := fun hmem => (h.encoded ',' hmem).2.2 rfl
  unfold MemberParts.text
  by_cases hempty : parts.metadata.isEmpty = true
  · rw [if_pos hempty, List.isEmpty_iff.mp hempty]
    simp [hkeyComma, hvalueComma]
  · rw [if_neg hempty]
    simp [hkeyComma, hvalueComma]

end Written

/-! ## The header -/

/-- The eight safe keys bound the members. -/
theorem written_members_le {members : List MemberParts}
    (hwritten : ∀ parts ∈ members, parts.Written)
    (hdistinct : (members.map MemberParts.key).Nodup) : members.length ≤ 8 := by
  have hsub : members.map MemberParts.key ⊆ Shared.safeBusinessBaggageKeys := by
    intro key hkey
    obtain ⟨parts, hparts, rfl⟩ := List.mem_map.mp hkey
    exact (hwritten parts hparts).key
  have hle := (List.Nodup.subperm hdistinct hsub).length_le
  rw [List.length_map] at hle
  exact hle

theorem splitOn_joinMembers {members : List MemberParts} (hne : members ≠ [])
    (hwritten : ∀ parts ∈ members, parts.Written)
    (hcomma : ∀ parts ∈ members, ',' ∉ parts.metadata) :
    (joinMembers members).splitOn ',' = members.map MemberParts.text := by
  apply List.splitOn_intercalate ',' _ (by simpa using hne)
  intro piece hpiece
  obtain ⟨parts, hparts, rfl⟩ := List.mem_map.mp hpiece
  exact (hwritten parts hparts).comma_iff.mpr (hcomma parts hparts)

theorem joinMembers_ne_nil {members : List MemberParts} (hne : members ≠ []) :
    joinMembers members ≠ [] := by
  obtain ⟨parts, rest, rfl⟩ := List.exists_cons_of_ne_nil hne
  unfold joinMembers
  cases rest with
  | nil =>
    rw [List.map_singleton, List.intercalate_singleton]
    simp [MemberParts.text]
  | cons next rest =>
    rw [List.map_cons, List.map_cons, List.intercalate_cons_cons]
    simp

/-- **A header from its parts.** The validator takes it exactly when it is not too
long and takes each value and each list of properties. -/
theorem validate_joinMembers_iff {members : List MemberParts} (hne : members ≠ [])
    (hwritten : ∀ parts ∈ members, parts.Written)
    (hdistinct : (members.map MemberParts.key).Nodup)
    (hcomma : ∀ parts ∈ members, ',' ∉ parts.metadata) :
    Shared.validateBaggageHeader (joinMembers members) = .ok () ↔
      (utf8 (joinMembers members)).length ≤ 8192 ∧ ∀ parts ∈ members,
        Shared.validBaggageValue parts.encoded = true ∧ MetadataFits parts.metadata := by
  have hloop : EachOnce SharedMember [] (members.map MemberParts.text) ↔
      ∀ parts ∈ members, SharedMember parts.text parts.key := by
    rw [eachOnce_map_iff fun parts hparts key hkey =>
      (((hwritten parts hparts).sharedMember_iff key).mp hkey).1]
    exact ⟨fun h => h.1, fun h => ⟨h, hdistinct, fun _ _ => List.not_mem_nil⟩⟩
  have hmember : (∀ parts ∈ members, SharedMember parts.text parts.key) ↔ ∀ parts ∈ members,
      Shared.validBaggageValue parts.encoded = true ∧ MetadataFits parts.metadata := by
    refine forall_congr' fun parts => forall_congr' fun hparts => ?_
    rw [(hwritten parts hparts).sharedMember_iff]
    exact ⟨fun h => h.2, fun h => ⟨rfl, h⟩⟩
  have hcount := written_members_le hwritten hdistinct
  unfold Shared.validateBaggageHeader
  rw [if_neg (by simpa using joinMembers_ne_nil hne), splitOn_joinMembers hne hwritten hcomma,
    ← hmember, ← hloop, ← baggageMembers_ok]
  by_cases hsize : Shared.maxBaggageHeaderBytes < (utf8 (joinMembers members)).length
  · rw [if_pos hsize]
    unfold Shared.maxBaggageHeaderBytes at hsize
    exact ⟨fun h => (by cases h), fun h => absurd h.1 (by omega)⟩
  · have hbound : ¬ Shared.maxBaggageMembers < (members.map MemberParts.text).length := by
      rw [List.length_map]
      unfold Shared.maxBaggageMembers
      omega
    rw [if_neg hsize, if_neg hbound]
    unfold Shared.maxBaggageHeaderBytes at hsize
    exact ⟨fun h => ⟨by omega, h⟩, fun h => h.2⟩

end CommercePlayground.Propagation
