/-
CommercePlayground.Storefront.RedactionTheorems — what the log shows of a payload.

Every string that is logged is the marker, a field name or a token of a field that is kept
(`hasString_redact`). Scalars that are not strings are kept wherever redaction comes to
one, though, also as elements of arrays: two similar documents look the same in the log
exactly when those scalars agree (`redact_eq_iff`).
-/
import CommercePlayground.Storefront.Redaction
import Mathlib.Data.List.Forall2

namespace CommercePlayground.Storefront.Redaction

open Lib

/-! ## Strings -/

theorem redactLogToken_logToken (value : Text) : LogToken (redactLogToken value) := by
  constructor
  · unfold redactLogToken
    rw [List.length_map, List.length_take]
    exact Nat.min_le_left 64 _
  · intro c hc
    obtain ⟨d, -, rfl⟩ := List.mem_map.mp hc
    by_cases hd : isLogTokenChar d = true
    · rw [if_pos hd, hd]
    · rw [if_neg hd]
      rfl

theorem redactFields_eq (fields : Members) : redactFields fields = fields.map redactField := by
  induction fields with
  | nil => rfl
  | cons field fields ih => rw [redactFields, ih, List.map_cons]

theorem redactValues_eq (values : List Json) :
    redactValues values = values.map fun value => redactDownstreamValue value none := by
  induction values with
  | nil => rfl
  | cons value values ih => rw [redactValues, ih, List.map_cons]

theorem Loggable.member {members : Members} {name : String} {value : Json} {s : Text}
    (hmem : (name, value) ∈ members) (h : Loggable value s) : Loggable (.object members) s := by
  rcases h with h | ⟨field, inner, hfield, h⟩ | ⟨field, token, hfield, h⟩
  · exact .inl h
  · exact .inr (.inl ⟨field, inner, .member hmem hfield, h⟩)
  · exact .inr (.inr ⟨field, token, .member hmem hfield, h⟩)

theorem Loggable.item {items : List Json} {value : Json} {s : Text} (hmem : value ∈ items)
    (h : Loggable value s) : Loggable (.array items) s := by
  rcases h with h | ⟨field, inner, hfield, h⟩ | ⟨field, token, hfield, h⟩
  · exact .inl h
  · exact .inr (.inl ⟨field, inner, .item hmem hfield, h⟩)
  · exact .inr (.inr ⟨field, token, .item hmem hfield, h⟩)

/-! ## What redaction leaves -/

/-- What redaction does with a value, by its kind. -/
theorem redact_cases (value : Json) (key : Option String) :
    (∃ members, value = .object members ∧
      redactDownstreamValue value key = .object (members.map redactField)) ∨
    (∃ items, value = .array items ∧ redactDownstreamValue value key =
      .array (items.map fun item => redactDownstreamValue item none)) ∨
    (∃ t, value = .text t ∧ redactDownstreamValue value key =
      .text (if key.isSome then redactLogToken t else redactedLogValue)) ∨
    isScalar value = true ∧ (∀ t, value ≠ .text t) ∧ redactDownstreamValue value key = value := by
  cases value with
  | object members =>
    rw [redactDownstreamValue, redactFields_eq]
    exact .inl ⟨members, rfl, rfl⟩
  | array items =>
    rw [redactDownstreamValue, redactValues_eq]
    exact .inr (.inl ⟨items, rfl, rfl⟩)
  | text t =>
    refine .inr (.inr (.inl ⟨t, rfl, ?_⟩))
    cases key with
    | none => rfl
    | some key => rfl
  | null => exact .inr (.inr (.inr ⟨rfl, by simp, by simp [redactDownstreamValue]⟩))
  | bool _ => exact .inr (.inr (.inr ⟨rfl, by simp, by simp [redactDownstreamValue]⟩))
  | int _ => exact .inr (.inr (.inr ⟨rfl, by simp, by simp [redactDownstreamValue]⟩))
  | double _ => exact .inr (.inr (.inr ⟨rfl, by simp, by simp [redactDownstreamValue]⟩))

theorem redact_eq_text {value : Json} {key : Option String} {s : Text}
    (h : redactDownstreamValue value key = .text s) : ∃ t, value = .text t ∧
      (s = redactedLogValue ∨ key.isSome = true ∧ s = redactLogToken t) := by
  obtain ⟨_, -, heq⟩ | ⟨_, -, heq⟩ | ⟨t, hvalue, heq⟩ | ⟨-, hnot, heq⟩ := redact_cases value key
  · cases heq.symm.trans h
  · cases heq.symm.trans h
  · refine ⟨t, hvalue, ?_⟩
    have hs := Json.text.inj (h.symm.trans heq)
    split at hs
    · exact .inr ⟨‹_›, hs⟩
    · exact .inl hs
  · exact absurd (heq.symm.trans h) (hnot s)

theorem redact_eq_object {value : Json} {key : Option String} {fields : Members}
    (h : redactDownstreamValue value key = .object fields) :
    ∃ members, value = .object members ∧ fields = members.map redactField := by
  obtain ⟨members, hvalue, heq⟩ | ⟨_, -, heq⟩ | ⟨_, -, heq⟩ | ⟨hscalar, -, heq⟩ :=
    redact_cases value key
  · exact ⟨members, hvalue, Json.object.inj (h.symm.trans heq)⟩
  · cases heq.symm.trans h
  · cases heq.symm.trans h
  · rw [heq.symm.trans h] at hscalar
    cases hscalar

theorem redact_eq_array {value : Json} {key : Option String} {values : List Json}
    (h : redactDownstreamValue value key = .array values) : ∃ items, value = .array items ∧
      values = items.map fun item => redactDownstreamValue item none := by
  obtain ⟨_, -, heq⟩ | ⟨items, hvalue, heq⟩ | ⟨_, -, heq⟩ | ⟨hscalar, -, heq⟩ :=
    redact_cases value key
  · cases heq.symm.trans h
  · exact ⟨items, hvalue, Json.array.inj (h.symm.trans heq)⟩
  · cases heq.symm.trans h
  · rw [heq.symm.trans h] at hscalar
    cases hscalar

/-- A field of a redacted object: its value is redacted, or the marker. -/
theorem mem_redactFields {members : Members} {name : String} {redacted : Json}
    (h : (name, redacted) ∈ members.map redactField) : ∃ value, (name, value) ∈ members ∧
      (isLogField name = true ∧ redactDownstreamValue value (some name) = redacted ∨
        redacted = .text redactedLogValue) := by
  obtain ⟨⟨field, value⟩, hmem, heq⟩ := List.mem_map.mp h
  rw [redactField] at heq
  obtain ⟨rfl, hvalue⟩ := Prod.mk.inj heq
  refine ⟨value, hmem, ?_⟩
  by_cases hfield : isLogField field = true
  · rw [if_pos hfield] at hvalue
    exact .inl ⟨hfield, hvalue⟩
  · rw [if_neg hfield] at hvalue
    exact .inr hvalue.symm

/-- What a redacted value shows, unless it is the token of the field that it is in. -/
theorem hasString_redact {redacted : Json} {s : Text} (h : HasString redacted s)
    {value : Json} {key : Option String} (hvalue : redactDownstreamValue value key = redacted) :
    Loggable value s ∨
      key.isSome = true ∧ ∃ token, value = .text token ∧ s = redactLogToken token := by
  induction h generalizing value key with
  | value s =>
    obtain ⟨t, rfl, hmarker | ⟨hkey, htoken⟩⟩ := redact_eq_text hvalue
    · exact .inl (.inl hmarker)
    · exact .inr ⟨hkey, t, rfl, htoken⟩
  | @name fields name redacted hmem =>
    obtain ⟨members, rfl, rfl⟩ := redact_eq_object hvalue
    obtain ⟨inner, hinner, -⟩ := mem_redactFields hmem
    exact .inl (.inr (.inl ⟨name, inner, .here hinner, rfl⟩))
  | @member fields name redacted s hmem hstring ih =>
    obtain ⟨members, rfl, rfl⟩ := redact_eq_object hvalue
    obtain ⟨inner, hinner, ⟨hfield, hredact⟩ | rfl⟩ := mem_redactFields hmem
    · rcases ih hredact with hloggable | ⟨-, token, rfl, rfl⟩
      · exact .inl (hloggable.member hinner)
      · exact .inl (.inr (.inr ⟨name, token, .here hinner, hfield, rfl,
          redactLogToken_logToken token⟩))
    · cases hstring
      exact .inl (.inl rfl)
  | @item values redacted s hmem _ ih =>
    obtain ⟨items, rfl, rfl⟩ := redact_eq_array hvalue
    obtain ⟨inner, hinner, hredact⟩ := List.mem_map.mp hmem
    rcases ih hredact with hloggable | ⟨hkey, -⟩
    · exact .inl (hloggable.item hinner)
    · cases hkey

/-! ## Scalars -/

/-- A scalar that is not a string is left as it is. -/
theorem redact_scalar {a : Json} (ha : isScalar a = true) : (∃ s, a = .text s) ∨
    (∀ s, a ≠ .text s) ∧ redactDownstreamValue a none = a := by
  obtain ⟨_, rfl, -⟩ | ⟨_, rfl, -⟩ | ⟨t, rfl, -⟩ | ⟨-, hnot, heq⟩ := redact_cases a none
  · cases ha
  · cases ha
  · exact .inl ⟨t, rfl⟩
  · exact .inr ⟨hnot, heq⟩

theorem redact_eq_redact {a b : Json} (ha : isScalar a = true) (hb : isScalar b = true) :
    redactDownstreamValue a none = redactDownstreamValue b none ↔ Indistinct a b := by
  have htext : ∀ s, redactDownstreamValue (.text s) none = .text redactedLogValue := fun _ => rfl
  rcases redact_scalar ha with ⟨s, rfl⟩ | ⟨hnota, hkeepa⟩
  · rcases redact_scalar hb with ⟨t, rfl⟩ | ⟨hnotb, hkeepb⟩
    · exact ⟨fun _ => .inr ⟨s, t, rfl, rfl⟩, fun _ => rfl⟩
    · rw [htext, hkeepb]
      constructor
      · intro h
        exact absurd h.symm (hnotb _)
      · rintro (h | ⟨_, t, -, h⟩)
        · exact absurd h.symm (hnotb _)
        · exact absurd h (hnotb _)
  · rcases redact_scalar hb with ⟨t, rfl⟩ | ⟨hnotb, hkeepb⟩
    · rw [htext, hkeepa]
      constructor
      · intro h
        exact absurd h (hnota _)
      · rintro (h | ⟨s, _, h, -⟩)
        · exact absurd h (hnota _)
        · exact absurd h (hnota _)
    · rw [hkeepa, hkeepb]
      exact ⟨.inl, fun h => h.resolve_right fun ⟨s, _, h, _⟩ => hnota s h⟩

/-! ## Similar documents -/

theorem forall₂_append_iff {α : Type} {R : α → α → Prop} {xs xs' ys ys' : List α}
    (h : xs.length = xs'.length) :
    List.Forall₂ R (xs ++ ys) (xs' ++ ys') ↔ List.Forall₂ R xs xs' ∧ List.Forall₂ R ys ys' := by
  induction xs generalizing xs' with
  | nil =>
    rw [List.length_eq_zero_iff.mp h.symm]
    simp
  | cons x xs ih =>
    cases xs' with
    | nil => cases h
    | cons x' xs' =>
      simp only [List.cons_append, List.forall₂_cons, ih (Nat.succ.inj h), and_assoc]

theorem exposed_scalar {direct : Bool} {a : Json} (ha : isScalar a = true) :
    exposed direct a = if direct = true then [] else [a] := by
  cases a with
  | array _ => cases ha
  | object _ => cases ha
  | _ => rw [exposed] <;> simp

mutual

/-- Similar documents expose as many scalars. -/
theorem length_exposed {direct : Bool} {a b : Json} (h : Similar direct a b) :
    (exposed direct a).length = (exposed direct b).length :=
  match h with
  | .scalar ha hb _ => by
    rw [exposed_scalar ha, exposed_scalar hb]
    split <;> rfl
  | .array hitems => by
    rw [exposed, exposed]
    exact length_exposedItems hitems
  | .object hmembers => by
    rw [exposed, exposed]
    exact length_exposedMembers hmembers

theorem length_exposedItems {items items' : List Json} (h : SimilarItems items items') :
    (exposedItems items).length = (exposedItems items').length :=
  match h with
  | .nil => rfl
  | .cons hitem hitems => by
    rw [exposedItems, exposedItems, List.length_append, List.length_append,
      length_exposed hitem, length_exposedItems hitems]

theorem length_exposedMembers {members members' : Members} (h : SimilarMembers members members') :
    (exposedMembers members).length = (exposedMembers members').length :=
  match h with
  | .nil => rfl
  | @SimilarMembers.cons name a b _ _ hvalue hmembers => by
    have hlength := length_exposed hvalue
    rw [exposedMembers, exposedMembers, List.length_append, List.length_append,
      length_exposedMembers hmembers, exposedMember, exposedMember]
    cases hname : isLogField name with
    | false => rfl
    | true =>
      rw [hname] at hlength
      rw [if_pos rfl, if_pos rfl, hlength]

end

mutual

/-- Redaction makes similar documents the same exactly when the scalars that it comes to
are. -/
theorem redact_eq_iff {direct : Bool} {a b : Json} (h : Similar direct a b)
    (key : Option String) (hkey : key.isSome = direct) :
    redactDownstreamValue a key = redactDownstreamValue b key ↔
      List.Forall₂ Indistinct (exposed direct a) (exposed direct b) :=
  match h with
  | .scalar ha hb hsame => by
    rw [exposed_scalar ha, exposed_scalar hb]
    cases direct with
    | true =>
      rw [hsame rfl]
      simp
    | false =>
      rw [Option.isSome_eq_false_iff, Option.isNone_iff_eq_none] at hkey
      rw [hkey, redact_eq_redact ha hb]
      simp
  | .array hitems => by
    rw [redactDownstreamValue, redactDownstreamValue, exposed, exposed, Json.array.injEq]
    exact redactValues_eq_iff hitems
  | .object hmembers => by
    rw [redactDownstreamValue, redactDownstreamValue, exposed, exposed, Json.object.injEq]
    exact redactFields_eq_iff hmembers

theorem redactValues_eq_iff {items items' : List Json} (h : SimilarItems items items') :
    redactValues items = redactValues items' ↔
      List.Forall₂ Indistinct (exposedItems items) (exposedItems items') :=
  match h with
  | .nil => by simp [exposedItems]
  | .cons hitem hitems => by
    rw [redactValues, redactValues, exposedItems, exposedItems, List.cons.injEq,
      forall₂_append_iff (length_exposed hitem), redact_eq_iff hitem none rfl,
      redactValues_eq_iff hitems]

theorem redactFields_eq_iff {members members' : Members} (h : SimilarMembers members members') :
    redactFields members = redactFields members' ↔
      List.Forall₂ Indistinct (exposedMembers members) (exposedMembers members') :=
  match h with
  | .nil => by simp [exposedMembers]
  | @SimilarMembers.cons name a b _ _ hvalue hmembers => by
    have hlength := length_exposed hvalue
    have hvalue := redact_eq_iff hvalue
    rw [redactFields, redactFields, exposedMembers, exposedMembers, List.cons.injEq,
      redactFields_eq_iff hmembers, redactField, redactField, exposedMember, exposedMember,
      Prod.mk.injEq]
    cases hname : isLogField name with
    | false => simp
    | true =>
      rw [hname] at hlength hvalue
      simp only [if_true, true_and]
      rw [hvalue (some name) rfl, forall₂_append_iff hlength]

end

/-! ## Bodies -/

theorem redactedDownstreamBody_of_parse {parse : Text → Option Json} {print : Json → Option Text}
    {body : Text} {payload : Json} (h : parse body = some payload) :
    redactedDownstreamBody parse print body =
      written print (redactDownstreamValue payload none) := by
  unfold redactedDownstreamBody
  rw [h]

/-- The bodies of two similar documents look the same in the log, and show no more than
they may, exactly when the scalars that redaction comes to are the same or both strings.
`hprint` says of the writer that it tells the two redacted documents apart. -/
theorem redacted_bodies_iff {parse : Text → Option Json} {print : Json → Option Text}
    {body body' : Text} {a b : Json} (ha : parse body = some a) (hb : parse body' = some b)
    (hsimilar : Similar false a b)
    (hprint : written print (redactDownstreamValue a none) =
        written print (redactDownstreamValue b none) →
      redactDownstreamValue a none = redactDownstreamValue b none) :
    (redactedDownstreamBody parse print body = redactedDownstreamBody parse print body' ∧
      (∀ s, HasString (redactDownstreamValue a none) s → Loggable a s) ∧
      ∀ s, HasString (redactDownstreamValue b none) s → Loggable b s) ↔
    List.Forall₂ Indistinct (exposed false a) (exposed false b) := by
  have hstrings : ∀ document s, HasString (redactDownstreamValue document none) s →
      Loggable document s := by
    intro document s h
    exact (hasString_redact h rfl).resolve_right fun ⟨hkey, _⟩ => by cases hkey
  rw [redactedDownstreamBody_of_parse ha, redactedDownstreamBody_of_parse hb,
    ← redact_eq_iff hsimilar none rfl]
  constructor
  · rintro ⟨hsame, -, -⟩
    exact hprint hsame
  · intro hsame
    exact ⟨by rw [hsame], hstrings a, hstrings b⟩

/-- A declined payment of a customer. -/
def declined (customer : Nat) : Json :=
  .object [("customer", .int customer), ("error", .text "payment_declined".toList)]

def declinedBody (customer : Nat) : Text :=
  "\x7b\"customer\":".toList ++ decimal customer ++
    ",\"error\":\"payment_declined\"\x7d".toList

/-- The customer among the errors. -/
def errorList (customer : Nat) : Json :=
  .object [("error", .array [.int customer])]

def errorListBody (customer : Nat) : Text :=
  "\x7b\"error\":[".toList ++ decimal customer ++ "]\x7d".toList

/-- The reader, on the bodies above. -/
def readBody (body : Text) : Option Json :=
  if body = declinedBody 1207 then some (declined 1207)
  else if body = declinedBody 4711 then some (declined 4711)
  else if body = errorListBody 1207 then some (errorList 1207)
  else if body = errorListBody 4711 then some (errorList 4711)
  else none

/-- The writer, on what redaction leaves of them. -/
def writeBody : Json → Option Text
  | .object [("error", .array [.int customer])] => some (errorListBody customer.toNat)
  | .object [("customer", .text customer), ("error", .text error)] =>
    some ("\x7b\"customer\":\"".toList ++ customer ++ "\",\"error\":\"".toList ++ error ++
      "\"\x7d".toList)
  | _ => none

theorem redacted_bodies_iff_declined :
    redactedDownstreamBody readBody writeBody (declinedBody 1207) =
      redactedDownstreamBody readBody writeBody (declinedBody 4711) := by
  have hsimilar : Similar false (declined 1207) (declined 4711) := by
    refine .object (.cons (.scalar rfl rfl fun h => ?_) (.cons (.scalar rfl rfl fun _ => rfl) .nil))
    exact absurd h (by decide)
  have hfirst : readBody (declinedBody 1207) = some (declined 1207) := if_pos rfl
  have hsecond : readBody (declinedBody 4711) = some (declined 4711) := by
    rw [readBody, if_neg (by decide), if_pos rfl]
  exact ((redacted_bodies_iff hfirst hsecond hsimilar fun _ => rfl).mpr .nil).1

/-- A number among the errors is seen. -/
theorem redacted_bodies_number :
    readBody (errorListBody 1207) = some (errorList 1207) ∧
      readBody (errorListBody 4711) = some (errorList 4711) ∧
      Similar false (errorList 1207) (errorList 4711) ∧
      redactedDownstreamBody readBody writeBody (errorListBody 1207) ≠
        redactedDownstreamBody readBody writeBody (errorListBody 4711) := by
  have hitems : SimilarItems [.int 1207] [.int 4711] :=
    .cons (.scalar rfl rfl fun h => (by cases h)) .nil
  refine ⟨?_, ?_, .object (.cons (.array hitems) .nil), by decide⟩
  · rw [readBody, if_neg (by decide), if_neg (by decide), if_pos rfl]
  · rw [readBody, if_neg (by decide), if_neg (by decide), if_neg (by decide), if_pos rfl]

end CommercePlayground.Storefront.Redaction
