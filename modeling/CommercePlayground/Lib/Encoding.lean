/-
CommercePlayground.Lib.Encoding — bytes read back: percent escapes and UTF-8.

`percentDecode` undoes the escapes of a header value. `decodeUtf8` cuts bytes into
sequences, the well-formed ones with the scalar value they stand for and the others
marked: a reader that reports malformed input (`fromUtf8`) and one that replaces it
(`replacedUtf8`) differ in what they do with the marks.
-/
import CommercePlayground.Lib.Text

namespace CommercePlayground.Lib

/-! ## Percent escapes -/

/-- The value of a hexadecimal digit, in either case. -/
def hexValue (n : Nat) : Option Nat :=
  if 0x30 ≤ n ∧ n ≤ 0x39 then some (n - 0x30)
  else if 0x61 ≤ n ∧ n ≤ 0x66 then some (n - 0x61 + 10)
  else if 0x41 ≤ n ∧ n ≤ 0x46 then some (n - 0x41 + 10)
  else none

/-- The bytes behind the escapes; `none` where an escape is cut short or has no
digits. -/
def percentDecode : List Nat → Option (List Nat)
  | [] => some []
  | [b] => if b = 0x25 then none else some [b]
  | [b, c] => if b = 0x25 then none else (percentDecode [c]).map (b :: ·)
  | b :: c :: d :: rest =>
    if b = 0x25 then
      match hexValue c, hexValue d with
      | some high, some low => (percentDecode rest).map ((high * 16 + low) :: ·)
      | _, _ => none
    else (percentDecode (c :: d :: rest)).map (b :: ·)

theorem percentDecode_cons {b : Nat} (h : b ≠ 0x25) (rest : List Nat) :
    percentDecode (b :: rest) = (percentDecode rest).map (b :: ·) := by
  match rest with
  | [] => simp [percentDecode, h]
  | [c] => simp [percentDecode, h]
  | c :: d :: rest => simp [percentDecode, h]

theorem percentDecode_escape {c d high low : Nat} (hc : hexValue c = some high)
    (hd : hexValue d = some low) (rest : List Nat) :
    percentDecode (0x25 :: c :: d :: rest) =
      (percentDecode rest).map ((high * 16 + low) :: ·) := by
  simp [percentDecode, hc, hd]

/-! ## UTF-8 -/

def isTail (b : Nat) : Bool := decide (0x80 ≤ b ∧ b ≤ 0xbf)

/-- What may follow the first byte of three or four: no overlong form and nothing
past the last scalar value. -/
def isSecond (first b : Nat) : Bool :=
  isTail b && !(decide (first = 0xe0) && decide (b < 0xa0)) &&
    !(decide (first = 0xf0) && decide (b < 0x90)) &&
    !(decide (first = 0xf4) && decide (0x8f < b))

/-- The scalar value of a number, unless it is a surrogate. -/
def scalar (n : Nat) : Option Char :=
  if 0xd800 ≤ n ∧ n ≤ 0xdfff then none else some (Char.ofNat n)

/-- The first sequence: what it stands for and how many bytes it takes. A malformed
one ends before the first byte that cannot belong to it. -/
def headUtf8 (first : Nat) (rest : List Nat) : Option Char × Nat :=
  if first < 0x80 then (some (Char.ofNat first), 1)
  else if 0xc2 ≤ first ∧ first ≤ 0xdf then
    match rest with
    | b :: _ =>
      if isTail b then (some (Char.ofNat ((first - 0xc0) * 64 + (b - 0x80))), 2) else (none, 1)
    | [] => (none, 1)
  else if 0xe0 ≤ first ∧ first ≤ 0xef then
    match rest with
    | b :: c :: _ =>
      if !isSecond first b then (none, 1)
      else if !isTail c then (none, 2)
      else (scalar ((first - 0xe0) * 4096 + (b - 0x80) * 64 + (c - 0x80)), 3)
    | [b] => if isSecond first b then (none, 2) else (none, 1)
    | [] => (none, 1)
  else if 0xf0 ≤ first ∧ first ≤ 0xf4 then
    match rest with
    | b :: c :: d :: _ =>
      if !isSecond first b then (none, 1)
      else if !isTail c then (none, 2)
      else if !isTail d then (none, 3)
      else (some (Char.ofNat ((first - 0xf0) * 262144 + (b - 0x80) * 4096 + (c - 0x80) * 64 +
        (d - 0x80))), 4)
    | [b, c] =>
      if !isSecond first b then (none, 1) else if isTail c then (none, 3) else (none, 2)
    | [b] => if isSecond first b then (none, 2) else (none, 1)
    | [] => (none, 1)
  else (none, 1)

/-- The sequences of some bytes, the first `skip` of which are taken already. -/
def decodeFrom : Nat → List Nat → List (Option Char)
  | _, [] => []
  | skip + 1, _ :: rest => decodeFrom skip rest
  | 0, b :: rest => (headUtf8 b rest).1 :: decodeFrom ((headUtf8 b rest).2 - 1) rest

def decodeUtf8 (bytes : List Nat) : List (Option Char) := decodeFrom 0 bytes

/-- `String::from_utf8`, and a decoder that reports malformed input. -/
def fromUtf8 (bytes : List Nat) : Option Text :=
  if (decodeUtf8 bytes).all Option.isSome then some ((decodeUtf8 bytes).filterMap id) else none

/-- `new String(bytes, UTF_8)`, which puts U+FFFD for each malformed sequence. -/
def replacedUtf8 (bytes : List Nat) : Text := (decodeUtf8 bytes).map (·.getD (Char.ofNat 0xfffd))

/-- Where nothing is malformed there is nothing to replace. -/
theorem replacedUtf8_of_fromUtf8 {bytes : List Nat} {s : Text} (h : fromUtf8 bytes = some s) :
    replacedUtf8 bytes = s := by
  unfold fromUtf8 at h
  unfold replacedUtf8
  split at h
  · rename_i hall
    cases h
    revert hall
    induction decodeUtf8 bytes with
    | nil => intro _; rfl
    | cons c cs ih =>
      intro hall
      simp only [List.all_cons, Bool.and_eq_true] at hall
      obtain ⟨c, rfl⟩ := Option.isSome_iff_exists.mp hall.1
      simp [ih hall.2]
  · cases h

/-! ## Reading back what was written -/

/-- The bytes of one scalar value. -/
def utf8Char (c : Char) : List Nat := (String.utf8EncodeChar c).map UInt8.toNat

theorem utf8_cons (c : Char) (s : Text) : utf8 (c :: s) = utf8Char c ++ utf8 s := rfl

theorem utf8Char_eq (c : Char) : utf8Char c =
    if c.toNat ≤ 0x7f then [c.toNat]
    else if c.toNat ≤ 0x7ff then [c.toNat / 64 + 0xc0, c.toNat % 64 + 0x80]
    else if c.toNat ≤ 0xffff then
      [c.toNat / 4096 + 0xe0, c.toNat / 64 % 64 + 0x80, c.toNat % 64 + 0x80]
    else [c.toNat / 262144 + 0xf0, c.toNat / 4096 % 64 + 0x80, c.toNat / 64 % 64 + 0x80,
      c.toNat % 64 + 0x80] := by
  have hmax : c.toNat < 0x110000 := by
    rcases c.valid with h | h
    · exact Nat.lt_trans h (by decide)
    · exact h.2
  have hval : c.val.toNat = c.toNat := rfl
  unfold utf8Char String.utf8EncodeChar
  simp only [hval]
  generalize c.toNat = n at hmax
  -- the remainders of the encoder change nothing below 0x110000
  by_cases h1 : n ≤ 0x7f
  · simp only [if_pos h1, List.map_cons, List.map_nil, UInt8.toNat_ofNat', List.cons.injEq,
      and_true]
    omega
  by_cases h2 : n ≤ 0x7ff
  · simp only [if_neg h1, if_pos h2, List.map_cons, List.map_nil, UInt8.toNat_ofNat',
      List.cons.injEq, and_true]
    omega
  by_cases h3 : n ≤ 0xffff
  · simp only [if_neg h1, if_neg h2, if_pos h3, List.map_cons, List.map_nil,
      UInt8.toNat_ofNat', List.cons.injEq, and_true]
    omega
  · simp only [if_neg h1, if_neg h2, if_neg h3, List.map_cons, List.map_nil,
      UInt8.toNat_ofNat', List.cons.injEq, and_true]
    omega

theorem toNat_scalar (c : Char) : c.toNat < 0xd800 ∨ 0xdfff < c.toNat ∧ c.toNat < 0x110000 :=
  c.valid

theorem toNat_ofNat {n : Nat} (h : n < 0xd800 ∨ 0xdfff < n ∧ n < 0x110000) :
    (Char.ofNat n).toNat = n := by
  have hvalid : n.isValidChar := h
  unfold Char.ofNat
  rw [dif_pos hvalid]
  rfl

/-- What was written is read as the first sequence. -/
theorem headUtf8_encoded (c : Char) (rest : List Nat) : ∃ b tail, utf8Char c = b :: tail ∧
    headUtf8 b (tail ++ rest) = (some c, tail.length + 1) := by
  have hc := toNat_scalar c
  have hofNat : ∀ n, n = c.toNat → Char.ofNat n = c := by
    intro n hn
    rw [hn]
    exact Char.ofNat_toNat c
  rw [utf8Char_eq]
  split
  · refine ⟨_, [], rfl, ?_⟩
    unfold headUtf8
    rw [if_pos (by omega), hofNat _ rfl]
    rfl
  · split
    · refine ⟨_, [_], rfl, ?_⟩
      have htail : isTail (c.toNat % 64 + 0x80) = true := by
        simp only [isTail, decide_eq_true_eq]
        omega
      unfold headUtf8
      rw [if_neg (by omega), if_pos (by omega)]
      simp only [List.cons_append, htail, if_true]
      rw [hofNat _ (by omega)]
      rfl
    · split
      · refine ⟨_, [_, _], rfl, ?_⟩
        have htail : isTail (c.toNat % 64 + 0x80) = true := by
          simp only [isTail, decide_eq_true_eq]
          omega
        have hsecond : isSecond (c.toNat / 4096 + 0xe0) (c.toNat / 64 % 64 + 0x80) = true := by
          simp only [isSecond, isTail, Bool.and_eq_true, Bool.not_eq_true', Bool.and_eq_false_iff,
            decide_eq_true_eq, decide_eq_false_iff_not]
          omega
        unfold headUtf8
        rw [if_neg (by omega), if_neg (by omega), if_pos (by omega)]
        simp only [List.cons_append, hsecond, htail, Bool.not_true, Bool.false_eq_true, if_false]
        unfold scalar
        rw [if_neg (by omega), hofNat _ (by omega)]
        rfl
      · refine ⟨_, [_, _, _], rfl, ?_⟩
        have htail : ∀ n, isTail (n % 64 + 0x80) = true := by
          intro n
          simp only [isTail, decide_eq_true_eq]
          omega
        have hsecond : isSecond (c.toNat / 262144 + 0xf0) (c.toNat / 4096 % 64 + 0x80) = true := by
          simp only [isSecond, isTail, Bool.and_eq_true, Bool.not_eq_true', Bool.and_eq_false_iff,
            decide_eq_true_eq, decide_eq_false_iff_not]
          omega
        unfold headUtf8
        rw [if_neg (by omega), if_neg (by omega), if_neg (by omega), if_pos (by omega)]
        simp only [List.cons_append, hsecond, htail, Bool.not_true, Bool.false_eq_true, if_false]
        rw [hofNat _ (by omega)]
        rfl

/-- And what is read as a sequence is how its scalar value is written. -/
theorem encoded_of_headUtf8 {b n : Nat} {rest : List Nat} {c : Char}
    (h : headUtf8 b rest = (some c, n)) : ∃ tail after, rest = tail ++ after ∧
      utf8Char c = b :: tail ∧ n = tail.length + 1 := by
  rw [utf8Char_eq]
  unfold headUtf8 at h
  split at h
  · obtain ⟨hc, rfl⟩ := Prod.mk.inj h
    rw [← Option.some.inj hc, toNat_ofNat (by omega), if_pos (by omega)]
    exact ⟨[], rest, rfl, rfl, rfl⟩
  split at h
  · split at h
    · rename_i x after
      split at h
      · rename_i htail
        simp only [isTail, decide_eq_true_eq] at htail
        obtain ⟨hc, rfl⟩ := Prod.mk.inj h
        rw [← Option.some.inj hc, toNat_ofNat (by omega), if_neg (by omega), if_pos (by omega)]
        refine ⟨[x], after, rfl, ?_, rfl⟩
        simp only [List.cons.injEq, and_true]
        omega
      · cases h
    · cases h
  split at h
  · split at h
    · rename_i x y after
      split at h
      · cases h
      split at h
      · cases h
      rename_i hsecond htail
      rw [Bool.not_eq_true', Bool.not_eq_false] at hsecond htail
      simp only [isSecond, isTail, Bool.not_eq_true', Bool.and_eq_true,
        Bool.and_eq_false_iff, decide_eq_true_eq, decide_eq_false_iff_not] at hsecond htail
      unfold scalar at h
      split at h
      · cases h
      · obtain ⟨hc, rfl⟩ := Prod.mk.inj h
        rw [← Option.some.inj hc, toNat_ofNat (by omega), if_neg (by omega), if_neg (by omega),
          if_pos (by omega)]
        refine ⟨[x, y], after, rfl, ?_, rfl⟩
        simp only [List.cons.injEq, and_true]
        omega
    · split at h
      · cases h
      · cases h
    · cases h
  split at h
  · split at h
    · rename_i x y z after
      split at h
      · cases h
      split at h
      · cases h
      split at h
      · cases h
      rename_i hsecond hthird hfourth
      rw [Bool.not_eq_true', Bool.not_eq_false] at hsecond hthird hfourth
      simp only [isSecond, isTail, Bool.not_eq_true', Bool.and_eq_true, Bool.and_eq_false_iff,
        decide_eq_true_eq, decide_eq_false_iff_not] at hsecond hthird hfourth
      obtain ⟨hc, rfl⟩ := Prod.mk.inj h
      rw [← Option.some.inj hc, toNat_ofNat (by omega), if_neg (by omega), if_neg (by omega),
        if_neg (by omega)]
      refine ⟨[x, y, z], after, rfl, ?_, rfl⟩
      simp only [List.cons.injEq, and_true]
      omega
    · split at h
      · cases h
      · split at h
        · cases h
        · cases h
    · split at h
      · cases h
      · cases h
    · cases h
  · cases h

theorem decodeFrom_length (taken rest : List Nat) :
    decodeFrom taken.length (taken ++ rest) = decodeFrom 0 rest := by
  induction taken with
  | nil => rfl
  | cons b taken ih => exact ih

theorem decodeUtf8_append (c : Char) (rest : List Nat) :
    decodeUtf8 (utf8Char c ++ rest) = some c :: decodeUtf8 rest := by
  obtain ⟨b, tail, hchar, hhead⟩ := headUtf8_encoded c rest
  rw [hchar]
  show (headUtf8 b (tail ++ rest)).1 ::
    decodeFrom ((headUtf8 b (tail ++ rest)).2 - 1) (tail ++ rest) = _
  rw [hhead]
  exact congrArg (some c :: ·) (decodeFrom_length tail rest)

theorem decodeUtf8_utf8 (s : Text) : decodeUtf8 (utf8 s) = s.map some := by
  induction s with
  | nil => rfl
  | cons c s ih =>
    rw [utf8_cons, decodeUtf8_append, ih]
    rfl

theorem fromUtf8_utf8 (s : Text) : fromUtf8 (utf8 s) = some s := by
  unfold fromUtf8
  rw [decodeUtf8_utf8, if_pos (by simp)]
  simp

/-- Only a text reads as itself. -/
theorem utf8_of_decodeUtf8 {bytes : List Nat} {s : Text} (h : decodeUtf8 bytes = s.map some) :
    utf8 s = bytes := by
  induction s generalizing bytes with
  | nil =>
    cases bytes with
    | nil => rfl
    | cons b rest => cases h
  | cons c s ih =>
    cases bytes with
    | nil => cases h
    | cons b rest =>
      unfold decodeUtf8 decodeFrom at h
      obtain ⟨hfirst, hrest⟩ := List.cons.inj h
      obtain ⟨tail, after, rfl, hchar, hlength⟩ :=
        encoded_of_headUtf8 (n := (headUtf8 b rest).2) (Prod.ext hfirst rfl)
      rw [hlength, Nat.add_sub_cancel, decodeFrom_length] at hrest
      rw [utf8_cons, hchar, ih hrest]
      rfl

/-- Reading UTF-8 strictly is the inverse of writing it. -/
theorem fromUtf8_eq_some_iff {bytes : List Nat} {s : Text} :
    fromUtf8 bytes = some s ↔ bytes = utf8 s := by
  constructor
  · intro h
    unfold fromUtf8 at h
    split at h
    · rename_i hall
      cases h
      refine (utf8_of_decodeUtf8 ?_).symm
      revert hall
      induction decodeUtf8 bytes with
      | nil => intro _; rfl
      | cons c cs ih =>
        intro hall
        simp only [List.all_cons, Bool.and_eq_true] at hall
        obtain ⟨c, rfl⟩ := Option.isSome_iff_exists.mp hall.1
        show some c :: cs = some c :: (cs.filterMap id).map some
        rw [← ih hall.2]
    · cases h
  · rintro rfl
    exact fromUtf8_utf8 s

/-- What undoing the escapes can have met first. -/
theorem percentDecode_cases {b : Nat} {rest decoded : List Nat}
    (h : percentDecode (b :: rest) = some decoded) :
    (b ≠ 0x25 ∧ ∃ more, percentDecode rest = some more ∧ decoded = b :: more) ∨
      (b = 0x25 ∧ ∃ c d after high low more, rest = c :: d :: after ∧ hexValue c = some high ∧
        hexValue d = some low ∧ percentDecode after = some more ∧
        decoded = (high * 16 + low) :: more) := by
  by_cases hb : b = 0x25
  · subst hb
    refine .inr ⟨rfl, ?_⟩
    match rest with
    | [] => simp [percentDecode] at h
    | [c] => simp [percentDecode] at h
    | c :: d :: after =>
      simp only [percentDecode, if_true] at h
      split at h
      · rename_i high low hc hd
        obtain ⟨more, hmore, rfl⟩ := Option.map_eq_some_iff.mp h
        exact ⟨c, d, after, high, low, more, rfl, hc, hd, hmore, rfl⟩
      · cases h
  · rw [percentDecode_cons hb] at h
    obtain ⟨more, hmore, rfl⟩ := Option.map_eq_some_iff.mp h
    exact .inl ⟨hb, more, hmore, rfl⟩

/-- An escape takes three bytes for one. -/
theorem percentDecode_length {bytes decoded : List Nat} (h : percentDecode bytes = some decoded) :
    bytes.length ≤ 3 * decoded.length := by
  induction hn : bytes.length using Nat.strong_induction_on generalizing bytes decoded with
  | _ n ih =>
    cases bytes with
    | nil =>
      rw [← hn]
      exact Nat.zero_le _
    | cons b rest =>
      rcases percentDecode_cases h with
        ⟨-, more, hmore, rfl⟩ | ⟨-, c, d, after, high, low, more, rfl, -, -, hmore, rfl⟩
      · have := ih rest.length (by simp [← hn]) hmore rfl
        simp only [List.length_cons] at hn ⊢
        omega
      · have := ih after.length (by simp [← hn]; omega) hmore rfl
        simp only [List.length_cons] at hn ⊢
        omega

end CommercePlayground.Lib
