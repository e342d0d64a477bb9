/-
CommercePlayground.Lib.Bytes — bytes packed into a word, most significant first.

A word of `w` bits takes bytes at its low end (`pushByte`). As long as they fit, the word
is the number whose digits to the base 256 they are (`toNat_packBytes`), its masks work
byte by byte (`packBytes_and`, `packBytes_or`), and a run of its hexadecimal digits is
that of the bytes it covers (`nibbles_window`).
-/
import Mathlib.Algebra.Order.Ring.Int
import Mathlib.Data.List.Induction
import Mathlib.Tactic.Ring

namespace CommercePlayground.Lib

/-! ## Packing -/

/-- A word with one more byte at its low end. -/
def pushByte {w : Nat} (word : BitVec w) (byte : BitVec 8) : BitVec w :=
  (word <<< 8) ||| byte.setWidth w

/-- The word of some bytes. -/
def packBytes {w : Nat} (bytes : List (BitVec 8)) : BitVec w := bytes.foldl pushByte 0

/-- The number whose digits they are. -/
def bytesValue (bytes : List (BitVec 8)) : Nat := bytes.foldl (fun n byte => n * 256 + byte.toNat) 0

theorem bytesValue_concat (bytes : List (BitVec 8)) (byte : BitVec 8) :
    bytesValue (bytes ++ [byte]) = bytesValue bytes * 256 + byte.toNat := by
  simp [bytesValue]

theorem packBytes_concat {w : Nat} (bytes : List (BitVec 8)) (byte : BitVec 8) :
    (packBytes (bytes ++ [byte]) : BitVec w) = pushByte (packBytes bytes) byte := by
  simp [packBytes]

theorem bytesValue_lt (bytes : List (BitVec 8)) : bytesValue bytes < 256 ^ bytes.length := by
  induction bytes using List.reverseRecOn with
  | nil => exact Nat.one_pos
  | append_singleton bytes byte ih =>
    have hbyte : byte.toNat < 256 := byte.isLt
    rw [bytesValue_concat, List.length_append, List.length_singleton, Nat.pow_succ]
    omega

/-- A word with room at its upper end loses nothing. -/
theorem toNat_pushByte {w : Nat} {word : BitVec w} {n : Nat} (byte : BitVec 8)
    (hword : word.toNat < 256 ^ n) (hw : 8 * (n + 1) ≤ w) :
    (pushByte word byte).toNat = word.toNat * 256 + byte.toNat := by
  have hbyte : byte.toNat < 2 ^ 8 := byte.isLt
  have hpow : 256 ^ (n + 1) ≤ 2 ^ w := by
    rw [show 256 = 2 ^ 8 from rfl, ← Nat.pow_mul]
    exact Nat.pow_le_pow_right (by decide) hw
  have hroom : word.toNat * 256 < 2 ^ w := by
    rw [Nat.pow_succ] at hpow
    omega
  have hfits : byte.toNat < 2 ^ w := by
    have : 256 ≤ 256 ^ (n + 1) := Nat.le_self_pow (by omega) 256
    omega
  unfold pushByte
  rw [BitVec.toNat_or, BitVec.toNat_shiftLeft, BitVec.toNat_setWidth, Nat.mod_eq_of_lt hfits,
    Nat.shiftLeft_eq, Nat.mod_eq_of_lt hroom, ← Nat.shiftLeft_eq _ 8,
    ← Nat.shiftLeft_add_eq_or_of_lt hbyte, Nat.shiftLeft_eq]

theorem toNat_packBytes {w : Nat} {bytes : List (BitVec 8)} (h : 8 * bytes.length ≤ w) :
    (packBytes bytes : BitVec w).toNat = bytesValue bytes := by
  induction bytes using List.reverseRecOn with
  | nil => simp [packBytes, bytesValue]
  | append_singleton bytes byte ih =>
    rw [List.length_append, List.length_singleton] at h
    have hrest := ih (by omega)
    rw [packBytes_concat, bytesValue_concat,
      toNat_pushByte byte (hrest ▸ bytesValue_lt bytes) h, hrest]

/-! ## Masks -/

theorem pushByte_and {w : Nat} (a b : BitVec w) (x y : BitVec 8) :
    pushByte a x &&& pushByte b y = pushByte (a &&& b) (x &&& y) := by
  apply BitVec.eq_of_getLsbD_eq
  intro i hi
  by_cases hlow : i < 8
  · simp [pushByte, hi, hlow]
  · simp [pushByte, hi, hlow, BitVec.getLsbD_of_ge _ i (Nat.not_lt.mp hlow)]

theorem pushByte_or {w : Nat} (a b : BitVec w) (x y : BitVec 8) :
    pushByte a x ||| pushByte b y = pushByte (a ||| b) (x ||| y) := by
  apply BitVec.eq_of_getLsbD_eq
  intro i hi
  by_cases hlow : i < 8
  · simp [pushByte, hi, hlow]
  · simp [pushByte, hi, hlow, BitVec.getLsbD_of_ge _ i (Nat.not_lt.mp hlow)]

/-- An operation that works on each byte by itself works on the words. -/
theorem foldl_pushByte {w : Nat} {f : BitVec w → BitVec w → BitVec w}
    {g : BitVec 8 → BitVec 8 → BitVec 8}
    (h : ∀ a b x y, f (pushByte a x) (pushByte b y) = pushByte (f a b) (g x y))
    {xs ys : List (BitVec 8)} (hlength : xs.length = ys.length) (a b : BitVec w) :
    f (xs.foldl pushByte a) (ys.foldl pushByte b) =
      (List.zipWith g xs ys).foldl pushByte (f a b) := by
  induction xs generalizing ys a b with
  | nil =>
    cases ys with
    | nil => rfl
    | cons y ys => simp at hlength
  | cons x xs ih =>
    cases ys with
    | nil => simp at hlength
    | cons y ys =>
      simp only [List.foldl_cons, List.zipWith_cons_cons]
      rw [ih (by simpa using hlength), h]

theorem packBytes_and {w : Nat} {xs ys : List (BitVec 8)} (h : xs.length = ys.length) :
    (packBytes xs &&& packBytes ys : BitVec w) = packBytes (List.zipWith (· &&& ·) xs ys) := by
  unfold packBytes
  rw [foldl_pushByte pushByte_and h, BitVec.and_self]

theorem packBytes_or {w : Nat} {xs ys : List (BitVec 8)} (h : xs.length = ys.length) :
    (packBytes xs ||| packBytes ys : BitVec w) = packBytes (List.zipWith (· ||| ·) xs ys) := by
  unfold packBytes
  rw [foldl_pushByte pushByte_or h, BitVec.or_self]

/-! ## Hexadecimal digits -/

/-- The last `count` digits of a number to the base 16, the highest first. -/
def nibbles (n count : Nat) : List Nat := (List.range count).reverse.map fun i => n / 16 ^ i % 16

/-- The two digits of a byte. -/
def byteNibbles (byte : BitVec 8) : List Nat := [byte.toNat / 16, byte.toNat % 16]

theorem nibbles_succ (n count : Nat) : nibbles n (count + 1) = n / 16 ^ count % 16 :: nibbles n count := by
  simp [nibbles, List.range_succ]

/-- The low digits do not see what is above them. -/
theorem nibbles_mod {count k : Nat} (h : count ≤ k) (n : Nat) :
    nibbles (n % 16 ^ k) count = nibbles n count := by
  induction count with
  | zero => rfl
  | succ count ih =>
    rw [nibbles_succ, nibbles_succ, ih (by omega)]
    refine congrArg (· :: _) ?_
    obtain ⟨more, rfl⟩ := Nat.exists_eq_add_of_le (show count + 1 ≤ k from h)
    rw [Nat.pow_add, Nat.pow_succ, Nat.mul_assoc, Nat.mod_mul_right_div_self, Nat.mod_mod_of_dvd]
    exact Nat.dvd_mul_right 16 _

/-- A byte more at the low end is two digits more. -/
theorem nibbles_concat (n : Nat) (byte : BitVec 8) (count : Nat) :
    nibbles (n * 256 + byte.toNat) (count + 2) = nibbles n count ++ byteNibbles byte := by
  have hbyte : byte.toNat < 256 := byte.isLt
  induction count with
  | zero =>
    simp only [nibbles_succ]
    simp only [nibbles, byteNibbles, List.range_zero, List.reverse_nil, List.map_nil,
      List.nil_append, Nat.pow_zero, Nat.pow_one, Nat.div_one, List.cons.injEq, and_true]
    omega
  | succ count ih =>
    rw [nibbles_succ, ih, nibbles_succ, List.cons_append]
    refine congrArg (· :: _) ?_
    rw [show count + 2 = 2 + count from Nat.add_comm _ _, Nat.pow_add, ← Nat.div_div_eq_div_mul]
    have : (n * 256 + byte.toNat) / 16 ^ 2 = n := by omega
    rw [this]

theorem nibbles_bytesValue (bytes : List (BitVec 8)) :
    nibbles (bytesValue bytes) (2 * bytes.length) = bytes.flatMap byteNibbles := by
  induction bytes using List.reverseRecOn with
  | nil => rfl
  | append_singleton bytes byte ih =>
    rw [bytesValue_concat, List.length_append, List.length_singleton, Nat.mul_add,
      nibbles_concat, ih]
    simp

theorem bytesValue_append (xs ys : List (BitVec 8)) :
    bytesValue (xs ++ ys) = bytesValue xs * 256 ^ ys.length + bytesValue ys := by
  induction ys using List.reverseRecOn with
  | nil => simp [bytesValue]
  | append_singleton ys y ih =>
    rw [← List.append_assoc, bytesValue_concat, bytesValue_concat, ih, List.length_append,
      List.length_singleton, Nat.pow_succ]
    ring

/-- The digits of a run of bytes: those above are cut off, those below shifted out. -/
theorem nibbles_window (xs ys zs : List (BitVec 8)) :
    nibbles (bytesValue (xs ++ ys ++ zs) / 256 ^ zs.length) (2 * ys.length) =
      ys.flatMap byteNibbles := by
  have hpow : 256 ^ ys.length = 16 ^ (2 * ys.length) := by
    rw [Nat.pow_mul]
  have hshift : bytesValue (xs ++ ys ++ zs) / 256 ^ zs.length = bytesValue (xs ++ ys) := by
    rw [bytesValue_append (xs ++ ys) zs, Nat.mul_comm,
      Nat.mul_add_div (Nat.pow_pos (by decide)), Nat.div_eq_of_lt (bytesValue_lt zs), Nat.add_zero]
  have hcut : bytesValue (xs ++ ys) % 16 ^ (2 * ys.length) = bytesValue ys := by
    rw [bytesValue_append, ← hpow, Nat.mul_comm, Nat.mul_add_mod,
      Nat.mod_eq_of_lt (bytesValue_lt ys)]
  rw [hshift, ← nibbles_mod (Nat.le_refl _) (bytesValue (xs ++ ys)), hcut, nibbles_bytesValue]

end CommercePlayground.Lib
