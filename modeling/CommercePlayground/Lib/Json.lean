/-
CommercePlayground.Lib.Json — JSON values.

An object is the list of its members. `get` reads a member by name, and nothing
here depends on the order of members: `Same` is equality of values up to that
order, which is what a store or a wire between two JSON libraries keeps.

A number is an integer or a double. A double that is not finite has no JSON
text; writers print it as a string, which is what `quoted` says.
-/
import Mathlib.Algebra.Order.Ring.Rat
import CommercePlayground.Lib.Text

namespace CommercePlayground.Lib

/-! ## Values -/

inductive Double where
  | finite (value : ℚ)
  | infinity
  | negativeInfinity
  deriving DecidableEq

inductive Json where
  | null
  | bool (value : Bool)
  | int (value : Int)
  | double (value : Double)
  | text (value : Text)
  | array (items : List Json)
  | object (members : List (String × Json))

abbrev Members := List (String × Json)

namespace Json

/-- The member of a name. -/
def get (members : Members) (name : String) : Option Json := members.lookup name

/-! ## Numbers without a text -/

mutual

/-- The value that is read where this one was written. -/
def quoted : Json → Json
  | .double .infinity => .text "Infinity".toList
  | .double .negativeInfinity => .text "-Infinity".toList
  | .array items => .array (quotedItems items)
  | .object members => .object (quotedMembers members)
  | j => j

def quotedItems : List Json → List Json
  | [] => []
  | item :: items => quoted item :: quotedItems items

def quotedMembers : List (String × Json) → List (String × Json)
  | [] => []
  | member :: members => quotedMember member :: quotedMembers members

def quotedMember : String × Json → String × Json
  | (name, value) => (name, quoted value)

end

@[simp] theorem quoted_text (s : Text) : quoted (.text s) = .text s := rfl

@[simp] theorem quoted_int (n : Int) : quoted (.int n) = .int n := rfl

@[simp] theorem quoted_object (members : Members) :
    quoted (.object members) = .object (quotedMembers members) := rfl

@[simp] theorem quotedMembers_cons (name : String) (value : Json) (members : Members) :
    quotedMembers ((name, value) :: members) = (name, quoted value) :: quotedMembers members := rfl

theorem quotedMembers_append (a b : Members) :
    quotedMembers (a ++ b) = quotedMembers a ++ quotedMembers b := by
  induction a with
  | nil => rfl
  | cons member a ih =>
    rw [List.cons_append, quotedMembers, ih]
    rfl

theorem keys_quotedMembers (members : Members) :
    (quotedMembers members).map Prod.fst = members.map Prod.fst := by
  induction members with
  | nil => rfl
  | cons member members ih =>
    obtain ⟨name, value⟩ := member
    rw [quotedMembers_cons, List.map_cons, List.map_cons, ih]

theorem get_quotedMembers (members : Members) (name : String) :
    get (quotedMembers members) name = (get members name).map quoted := by
  unfold get
  induction members with
  | nil => rfl
  | cons member members ih =>
    obtain ⟨key, value⟩ := member
    rw [quotedMembers_cons, List.lookup_cons, List.lookup_cons]
    split
    · rfl
    · exact ih

/-! ## Names that are given once -/

mutual

/-- No object has two members of one name. -/
def Distinct : Json → Prop
  | .array items => DistinctItems items
  | .object members => (members.map Prod.fst).Nodup ∧ DistinctMembers members
  | _ => True

def DistinctItems : List Json → Prop
  | [] => True
  | item :: items => Distinct item ∧ DistinctItems items

def DistinctMembers : List (String × Json) → Prop
  | [] => True
  | member :: members => DistinctMember member ∧ DistinctMembers members

def DistinctMember : String × Json → Prop
  | (_, value) => Distinct value

end

mutual

def decidableDistinct : (j : Json) → Decidable j.Distinct
  | .null => .isTrue trivial
  | .bool _ => .isTrue trivial
  | .int _ => .isTrue trivial
  | .double _ => .isTrue trivial
  | .text _ => .isTrue trivial
  | .array items => decidableItems items
  | .object members =>
    @instDecidableAnd _ _ (List.nodupDecidable _) (decidableMembers members)

def decidableItems : (items : List Json) → Decidable (DistinctItems items)
  | [] => .isTrue trivial
  | item :: items => @instDecidableAnd _ _ (decidableDistinct item) (decidableItems items)

def decidableMembers : (members : List (String × Json)) → Decidable (DistinctMembers members)
  | [] => .isTrue trivial
  | member :: members =>
    @instDecidableAnd _ _ (decidableMember member) (decidableMembers members)

def decidableMember : (member : String × Json) → Decidable (DistinctMember member)
  | (_, value) => decidableDistinct value

end

instance : DecidablePred Distinct := decidableDistinct

mutual

/-- What is read for a value has its names. -/
theorem distinct_quoted : ∀ j : Json, j.Distinct → j.quoted.Distinct
  | .null, _ => trivial
  | .bool _, _ => trivial
  | .int _, _ => trivial
  | .double (.finite _), _ => trivial
  | .double .infinity, _ => trivial
  | .double .negativeInfinity, _ => trivial
  | .text _, _ => trivial
  | .array items, h => distinctItems_quoted items h
  | .object members, h =>
    ⟨(keys_quotedMembers members).symm ▸ h.1, distinctMembers_quoted members h.2⟩

theorem distinctItems_quoted : ∀ items : List Json, DistinctItems items →
    DistinctItems (quotedItems items)
  | [], _ => trivial
  | item :: items, h => ⟨distinct_quoted item h.1, distinctItems_quoted items h.2⟩

theorem distinctMembers_quoted : ∀ members : List (String × Json), DistinctMembers members →
    DistinctMembers (quotedMembers members)
  | [], _ => trivial
  | member :: members, h => ⟨distinctMember_quoted member h.1, distinctMembers_quoted members h.2⟩

theorem distinctMember_quoted : ∀ member : String × Json, DistinctMember member →
    DistinctMember (quotedMember member)
  | (_, value), h => distinct_quoted value h

end

theorem distinct_of_get {members : Members} (h : DistinctMembers members) {name : String}
    {value : Json} (hget : get members name = some value) : Distinct value := by
  unfold get at hget
  induction members with
  | nil => cases hget
  | cons member members ih =>
    obtain ⟨key, other⟩ := member
    rw [List.lookup_cons] at hget
    split at hget
    · cases hget
      exact h.1
    · exact ih h.2 hget

theorem distinctMembers_append {a b : Members} (ha : DistinctMembers a)
    (hb : DistinctMembers b) : DistinctMembers (a ++ b) := by
  induction a with
  | nil => exact hb
  | cons member a ih => exact ⟨ha.1, ih ha.2⟩

/-! ## Values that every library keeps -/

/-- A text that PostgreSQL can store. -/
def noNul (s : Text) : Bool := s.all fun c => decide (c.toNat ≠ 0)

mutual

/-- Storable texts and 64-bit integers under distinct names. -/
def Plain : Json → Prop
  | .null => True
  | .bool _ => True
  | .int n => -2 ^ 63 ≤ n ∧ n < 2 ^ 63
  | .double _ => False
  | .text s => noNul s = true
  | .array items => PlainItems items
  | .object members => (members.map Prod.fst).Nodup ∧ PlainMembers members

def PlainItems : List Json → Prop
  | [] => True
  | item :: items => Plain item ∧ PlainItems items

def PlainMembers : List (String × Json) → Prop
  | [] => True
  | member :: members => PlainMember member ∧ PlainMembers members

def PlainMember : String × Json → Prop
  | (_, value) => Plain value

end

theorem plainItems_of_forall {items : List Json} (h : ∀ item ∈ items, Plain item) :
    PlainItems items := by
  induction items with
  | nil => trivial
  | cons item items ih =>
    exact ⟨h item List.mem_cons_self, ih fun i hi => h i (List.mem_cons_of_mem _ hi)⟩

mutual

theorem Plain.distinct : ∀ j : Json, j.Plain → j.Distinct
  | .null, _ => trivial
  | .bool _, _ => trivial
  | .int _, _ => trivial
  | .double _, _ => trivial
  | .text _, _ => trivial
  | .array items, h => PlainItems.distinct items h
  | .object members, h => ⟨h.1, PlainMembers.distinct members h.2⟩

theorem PlainItems.distinct : ∀ items : List Json, PlainItems items → DistinctItems items
  | [], _ => trivial
  | item :: items, h => ⟨Plain.distinct item h.1, PlainItems.distinct items h.2⟩

theorem PlainMembers.distinct : ∀ members : List (String × Json), PlainMembers members →
    DistinctMembers members
  | [], _ => trivial
  | member :: members, h => ⟨PlainMember.distinct member h.1, PlainMembers.distinct members h.2⟩

theorem PlainMember.distinct : ∀ member : String × Json, PlainMember member →
    DistinctMember member
  | (_, value), h => Plain.distinct value h

end

mutual

/-- A plain value is read as it was written. -/
theorem Plain.quoted : ∀ j : Json, j.Plain → j.quoted = j
  | .null, _ => rfl
  | .bool _, _ => rfl
  | .int _, _ => rfl
  | .text _, _ => rfl
  | .array items, h => congrArg Json.array (PlainItems.quoted items h)
  | .object members, h => congrArg Json.object (PlainMembers.quoted members h.2)

theorem PlainItems.quoted : ∀ items : List Json, PlainItems items → quotedItems items = items
  | [], _ => rfl
  | item :: items, h => congrArg₂ List.cons (Plain.quoted item h.1) (PlainItems.quoted items h.2)

theorem PlainMembers.quoted : ∀ members : List (String × Json), PlainMembers members →
    quotedMembers members = members
  | [], _ => rfl
  | member :: members, h =>
    congrArg₂ List.cons (PlainMember.quoted member h.1) (PlainMembers.quoted members h.2)

theorem PlainMember.quoted : ∀ member : String × Json, PlainMember member →
    quotedMember member = member
  | (name, value), h => congrArg (Prod.mk name) (Plain.quoted value h)

end

/-- The same value, up to the order of members. -/
inductive Same : Json → Json → Prop
  | refl (j : Json) : Same j j
  | array {items items' : List Json} : List.Forall₂ Same items items' →
      Same (.array items) (.array items')
  | object {members members' : Members} :
      (∀ name, (get members name).isSome = (get members' name).isSome) →
      (∀ name value value', get members name = some value → get members' name = some value' →
        Same value value') →
      Same (.object members) (.object members')

theorem Same.text {s : Text} {j : Json} (h : Same (.text s) j) : j = .text s := by
  cases h
  rfl

theorem Same.int {n : Int} {j : Json} (h : Same (.int n) j) : j = .int n := by
  cases h
  rfl

/-- The members of the same object. -/
theorem Same.members {members : Members} {j : Json} (h : Same (.object members) j) :
    ∃ members', j = .object members' ∧
      (∀ name, get members name = none → get members' name = none) ∧
      ∀ name value, get members name = some value →
        ∃ value', get members' name = some value' ∧ Same value value' := by
  cases h with
  | refl => exact ⟨members, rfl, fun _ hn => hn, fun _ value hv => ⟨value, hv, .refl value⟩⟩
  | object hsome hsame =>
    rename_i members'
    refine ⟨members', rfl, fun name hn => ?_, fun name value hv => ?_⟩
    · have := hsome name
      rw [hn] at this
      exact Option.isNone_iff_eq_none.mp (by rw [← Option.not_isSome, ← this]; rfl)
    · have := hsome name
      rw [hv] at this
      obtain ⟨value', hv'⟩ := Option.isSome_iff_exists.mp this.symm
      exact ⟨value', hv', hsame name value value' hv hv'⟩

end Json

end CommercePlayground.Lib
