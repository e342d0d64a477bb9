/-
CommercePlayground.Lib.Base64 — the URL alphabet of Base64, without padding.

Three bytes are four digits of six bits; one byte left over is two digits, two are three.
Nothing is lost (`octets_sextets`), so that different bytes have different texts.
-/
import CommercePlayground.Lib.Encoding

namespace CommercePlayground.Lib

/-! ## Digits -/

/-- `A`–`Z`, `a`–`z`, `0`–`9`, `-` and `_`. -/
def base64Digit (n : Nat) : Char :=
  if n < 26 then Char.ofNat (0x41 + n)
  else if n < 52 then Char.ofNat (0x61 + (n - 26))
  else if n < 62 then Char.ofNat (0x30 + (n - 52))
  else if n = 62 then '-'
  else '_'

/-- Bytes in groups of six bits. -/
def sextets : List Nat → List Nat
  | [] => []
  | [a] => [a / 4, a % 4 * 16]
  | [a, b] => [a / 4, a % 4 * 16 + b / 16, b % 16 * 4]
  | a :: b :: c :: rest =>
    [a / 4, a % 4 * 16 + b / 16, b % 16 * 4 + c / 64, c % 64] ++ sextets rest

def base64Url (bytes : List Nat) : Text := (sextets bytes).map base64Digit

/-! ## Nothing is lost -/

/-- The bytes that groups of six bits make. -/
def octets : List Nat → List Nat
  | a :: b :: c :: d :: rest =>
    [a * 4 + b / 16, b % 16 * 16 + c / 4, c % 4 * 64 + d] ++ octets rest
  | [a, b, c] => [a * 4 + b / 16, b % 16 * 16 + c / 4]
  | [a, b] => [a * 4 + b / 16]
  | _ => []

theorem octets_sextets {bytes : List Nat} (h : ∀ b ∈ bytes, b < 256) :
    octets (sextets bytes) = bytes := by
  fun_induction sextets bytes with
  | case1 => rfl
  | case2 a =>
    have ha := h a (by simp)
    simp only [octets, List.cons.injEq, and_true]
    omega
  | case3 a b =>
    have ha := h a (by simp)
    have hb := h b (by simp)
    simp only [octets, List.cons.injEq, and_true]
    omega
  | case4 a b c rest ih =>
    have ha := h a (by simp)
    have hb := h b (by simp)
    have hc := h c (by simp)
    have hrest := ih fun x hx => h x (by simp [hx])
    simp only [List.cons_append, List.nil_append, octets, hrest, List.cons.injEq, and_true]
    omega

theorem sextets_lt {bytes : List Nat} (h : ∀ b ∈ bytes, b < 256) :
    ∀ n ∈ sextets bytes, n < 64 := by
  fun_induction sextets bytes with
  | case1 => simp
  | case2 a =>
    have ha := h a (by simp)
    simp only [List.mem_cons, List.not_mem_nil, or_false, forall_eq_or_imp, forall_eq]
    omega
  | case3 a b =>
    have ha := h a (by simp)
    have hb := h b (by simp)
    simp only [List.mem_cons, List.not_mem_nil, or_false, forall_eq_or_imp, forall_eq]
    omega
  | case4 a b c rest ih =>
    have ha := h a (by simp)
    have hb := h b (by simp)
    have hc := h c (by simp)
    have hrest := ih fun x hx => h x (by simp [hx])
    simp only [List.cons_append, List.nil_append, List.mem_cons, forall_eq_or_imp]
    exact ⟨by omega, by omega, by omega, by omega, hrest⟩

theorem base64Digit_injective {a b : Nat} (ha : a < 64) (hb : b < 64)
    (h : base64Digit a = base64Digit b) : a = b := by
  have hall : ∀ x < 64, ∀ y < 64, base64Digit x = base64Digit y → x = y := by decide
  exact hall a ha b hb h

theorem map_base64Digit_injective {l m : List Nat} (hl : ∀ n ∈ l, n < 64)
    (hm : ∀ n ∈ m, n < 64) (h : l.map base64Digit = m.map base64Digit) : l = m := by
  induction l generalizing m with
  | nil => exact (List.map_eq_nil_iff.mp h.symm).symm
  | cons a l ih =>
    cases m with
    | nil => cases h
    | cons b m =>
      injection h with hhead htail
      rw [base64Digit_injective (hl a List.mem_cons_self) (hm b List.mem_cons_self) hhead,
        ih (fun n hn => hl n (List.mem_cons_of_mem a hn))
          (fun n hn => hm n (List.mem_cons_of_mem b hn)) htail]

theorem base64Url_injective {a b : List Nat} (ha : ∀ n ∈ a, n < 256) (hb : ∀ n ∈ b, n < 256)
    (h : base64Url a = base64Url b) : a = b := by
  have hsextets := map_base64Digit_injective (sextets_lt ha) (sextets_lt hb) h
  rw [← octets_sextets ha, ← octets_sextets hb, hsextets]

/-- What is not in the alphabet is in no encoded text. -/
theorem not_mem_base64Url {c : Char} {bytes : List Nat} (h : ∀ b ∈ bytes, b < 256)
    (hc : ∀ n < 64, base64Digit n ≠ c) : c ∉ base64Url bytes := by
  intro hmem
  obtain ⟨n, hn, hdigit⟩ := List.mem_map.mp hmem
  exact hc n (sextets_lt h n hn) hdigit

/-! ## Texts -/

theorem utf8_lt (s : Text) : ∀ b ∈ utf8 s, b < 256 := by
  intro b hb
  obtain ⟨c, -, hb⟩ := List.mem_flatMap.mp hb
  obtain ⟨byte, -, rfl⟩ := List.mem_map.mp hb
  exact byte.toNat_lt

theorem utf8_injective {a b : Text} (h : utf8 a = utf8 b) : a = b := by
  have hread := congrArg fromUtf8 h
  rw [fromUtf8_utf8, fromUtf8_utf8] at hread
  exact Option.some.inj hread

end CommercePlayground.Lib
