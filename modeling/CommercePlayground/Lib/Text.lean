/-
CommercePlayground.Lib.Text — texts and their two encodings.

A text is a list of Unicode scalar values, which is what a Rust `str` and a
well-formed Java `String` both hold. Rust counts and inspects the bytes of
UTF-8, Java the units of UTF-16. The two disagree beyond ASCII only, so a check
that lets nothing but ASCII pass does not tell them apart (`ascii_agree`): that
is the rule every comparison of a Rust check with a Java check uses.
-/
import Mathlib.Data.Nat.Init
import Mathlib.Data.List.Basic

namespace CommercePlayground.Lib

abbrev Text := List Char

/-! ## Encodings -/

/-- The bytes of UTF-8. -/
def utf8 (s : Text) : List Nat := s.flatMap fun c => (String.utf8EncodeChar c).map UInt8.toNat

/-- The units of one scalar value in UTF-16. -/
def utf16Char (c : Char) : List Nat :=
  if c.toNat < 0x10000 then [c.toNat]
  else [0xD800 + (c.toNat - 0x10000) / 0x400, 0xDC00 + (c.toNat - 0x10000) % 0x400]

/-- The units of UTF-16. -/
def utf16 (s : Text) : List Nat := s.flatMap utf16Char

/-- The code points. -/
def codes (s : Text) : List Nat := s.map Char.toNat

theorem codes_injective : Function.Injective codes :=
  List.map_injective_iff.mpr fun _ _ h => Char.toNat_inj.mp h

def Ascii (s : Text) : Prop := ∀ c ∈ s, c.toNat < 128

theorem utf8Char_ascii {c : Char} (h : c.toNat < 128) :
    (String.utf8EncodeChar c).map UInt8.toNat = [c.toNat] := by
  have hle : c.val ≤ 0x7f := by
    rw [UInt32.le_iff_toNat_le]
    exact Nat.le_of_lt_succ h
  have hmod : c.toNat % 256 = c.toNat := Nat.mod_eq_of_lt (by omega)
  rw [String.utf8EncodeChar_eq_utf8EncodeCharFast]
  simp only [String.utf8EncodeCharFast, hle, if_true, List.map_cons, List.map_nil,
    UInt32.toNat_toUInt8]
  exact congrArg (fun n => [n]) hmod

/-- Beyond ASCII the first byte says so. -/
theorem utf8Char_other {c : Char} (h : 128 ≤ c.toNat) :
    ∃ b ∈ (String.utf8EncodeChar c).map UInt8.toNat, 128 ≤ b := by
  have hlt : ¬ c.val ≤ 0x7f := by
    rw [UInt32.le_iff_toNat_le]
    exact Nat.not_le.mpr h
  have hbyte : ∀ b : UInt8, 128 ≤ (b ||| 0x80).toNat := by
    intro b
    rw [UInt8.toNat_or]
    exact Nat.right_le_or
  have hlast : ∀ l : List UInt8, ∃ b ∈ (l ++ [c.val.toUInt8 &&& 0x3f ||| 0x80]).map UInt8.toNat,
      128 ≤ b := by
    intro l
    exact ⟨_, List.mem_map_of_mem (List.mem_append_right l List.mem_cons_self), hbyte _⟩
  rw [String.utf8EncodeChar_eq_utf8EncodeCharFast]
  simp only [String.utf8EncodeCharFast, if_neg hlt]
  split
  · exact hlast [_]
  · split
    · exact hlast [_, _]
    · exact hlast [_, _, _]

theorem utf16Char_ascii {c : Char} (h : c.toNat < 128) : utf16Char c = [c.toNat] :=
  if_pos (by omega)

theorem utf16Char_other {c : Char} (h : 128 ≤ c.toNat) : ∃ n ∈ utf16Char c, 128 ≤ n := by
  unfold utf16Char
  split
  · exact ⟨_, List.mem_cons_self, h⟩
  · exact ⟨_, List.mem_cons_self, by omega⟩

/-- An encoding that leaves ASCII alone gives the code points of an ASCII text. -/
theorem encoded_of_ascii {e : Char → List Nat} (he : ∀ c, c.toNat < 128 → e c = [c.toNat])
    {s : Text} (h : Ascii s) : s.flatMap e = codes s := by
  induction s with
  | nil => rfl
  | cons c s ih =>
    rw [List.flatMap_cons, he c (h c List.mem_cons_self),
      ih fun d hd => h d (List.mem_cons_of_mem c hd)]
    rfl

/-- And one that marks everything else gives away a text that is not ASCII. -/
theorem ascii_of_encoded {e : Char → List Nat} (he : ∀ c, 128 ≤ c.toNat → ∃ n ∈ e c, 128 ≤ n)
    {s : Text} (h : ∀ n ∈ s.flatMap e, n < 128) : Ascii s := by
  intro c hc
  by_contra hge
  obtain ⟨n, hn, hlarge⟩ := he c (Nat.not_lt.mp hge)
  have := h n (List.mem_flatMap.mpr ⟨c, hc, hn⟩)
  omega

theorem utf8_of_ascii {s : Text} (h : Ascii s) : utf8 s = codes s :=
  encoded_of_ascii (fun _ hc => utf8Char_ascii hc) h

theorem utf16_of_ascii {s : Text} (h : Ascii s) : utf16 s = codes s :=
  encoded_of_ascii (fun _ hc => utf16Char_ascii hc) h

theorem ascii_of_utf8 {s : Text} (h : ∀ n ∈ utf8 s, n < 128) : Ascii s :=
  ascii_of_encoded (fun _ hc => utf8Char_other hc) h

theorem ascii_of_utf16 {s : Text} (h : ∀ n ∈ utf16 s, n < 128) : Ascii s :=
  ascii_of_encoded (fun _ hc => utf16Char_other hc) h

/-- A check that only ASCII passes sees the code points. -/
theorem check_utf8 {f : List Nat → Bool} (hf : ∀ l, f l = true → ∀ n ∈ l, n < 128) (s : Text) :
    f (utf8 s) = true ↔ Ascii s ∧ f (codes s) = true := by
  constructor
  · intro h
    have ha := ascii_of_utf8 (hf _ h)
    exact ⟨ha, utf8_of_ascii ha ▸ h⟩
  · rintro ⟨ha, h⟩
    rw [utf8_of_ascii ha]
    exact h

theorem check_utf16 {f : List Nat → Bool} (hf : ∀ l, f l = true → ∀ n ∈ l, n < 128) (s : Text) :
    f (utf16 s) = true ↔ Ascii s ∧ f (codes s) = true := by
  constructor
  · intro h
    have ha := ascii_of_utf16 (hf _ h)
    exact ⟨ha, utf16_of_ascii ha ▸ h⟩
  · rintro ⟨ha, h⟩
    rw [utf16_of_ascii ha]
    exact h

/-- It does not tell the two encodings apart. -/
theorem ascii_agree {f : List Nat → Bool} (hf : ∀ l, f l = true → ∀ n ∈ l, n < 128) (s : Text) :
    f (utf8 s) = f (utf16 s) := by
  rw [Bool.eq_iff_iff, check_utf8 hf, check_utf16 hf]

/-- Rust counts at least as much as Java does. -/
theorem utf16_length_le (s : Text) : (utf16 s).length ≤ (utf8 s).length := by
  induction s with
  | nil => exact Nat.le_refl 0
  | cons c s ih =>
    have hchar : (utf16Char c).length ≤ (String.utf8EncodeChar c).length := by
      rw [String.length_utf8EncodeChar]
      unfold utf16Char
      split
      · exact c.utf8Size_pos
      · rename_i hlarge
        have hval : ∀ n : UInt32, n.toNat < 0x10000 → ¬ c.val ≤ n := by
          intro n hn hle
          have := UInt32.le_iff_toNat_le.mp hle
          exact hlarge (by unfold Char.toNat; omega)
        unfold Char.utf8Size
        rw [if_neg (hval _ (by decide)), if_neg (hval _ (by decide)), if_neg (hval _ (by decide))]
        exact Nat.le_add_left 2 2
    unfold utf16 utf8 at ih ⊢
    rw [List.flatMap_cons, List.flatMap_cons, List.length_append, List.length_append,
      List.length_map]
    omega

/-- And at most three times as much. -/
theorem utf8_length_le (s : Text) : (utf8 s).length ≤ 3 * (utf16 s).length := by
  induction s with
  | nil => exact Nat.le_refl 0
  | cons c s ih =>
    have hchar : (String.utf8EncodeChar c).length ≤ 3 * (utf16Char c).length := by
      rw [String.length_utf8EncodeChar]
      unfold utf16Char
      split
      · rename_i hsmall
        have hval : c.val ≤ UInt32.ofNatLT 0xffff (by decide) := by
          rw [UInt32.le_iff_toNat_le]
          exact Nat.le_of_lt_succ hsmall
        unfold Char.utf8Size
        simp only [hval, if_true, List.length_cons, List.length_nil]
        split
        · omega
        · split
          · omega
          · omega
      · have := c.utf8Size_le_four
        simp only [List.length_cons, List.length_nil]
        omega
    unfold utf16 utf8 at ih ⊢
    rw [List.flatMap_cons, List.flatMap_cons, List.length_append, List.length_append,
      List.length_map]
    omega

theorem utf8_length_append (a b : Text) :
    (utf8 (a ++ b)).length = (utf8 a).length + (utf8 b).length := by
  unfold utf8
  rw [List.flatMap_append, List.length_append]

theorem utf16_length_append (a b : Text) :
    (utf16 (a ++ b)).length = (utf16 a).length + (utf16 b).length := by
  unfold utf16
  rw [List.flatMap_append, List.length_append]

theorem forall_mem_of_all {P : Char → Prop} [DecidablePred P] {s : Text}
    (h : s.all (fun c => decide (P c)) = true) : ∀ c ∈ s, P c := by
  intro c hc
  exact of_decide_eq_true (List.all_eq_true.mp h c hc)

/-! ## Cutting -/

/-- `str::split_once`. -/
def splitOnce (c : Char) : Text → Option (Text × Text)
  | [] => none
  | a :: s => if a = c then some ([], s) else (splitOnce c s).map fun p => (a :: p.1, p.2)

theorem splitOnce_none {c : Char} {s : Text} (h : splitOnce c s = none) : c ∉ s := by
  induction s with
  | nil => exact List.not_mem_nil
  | cons a s ih =>
    simp only [splitOnce] at h
    split at h
    · cases h
    · rename_i hne
      rw [Option.map_eq_none_iff] at h
      exact List.not_mem_cons_of_ne_of_not_mem (fun heq => hne heq.symm) (ih h)

theorem splitOnce_some {c : Char} {s a b : Text} (h : splitOnce c s = some (a, b)) :
    s = a ++ c :: b ∧ c ∉ a := by
  induction s generalizing a with
  | nil => cases h
  | cons d s ih =>
    simp only [splitOnce] at h
    split at h
    · rename_i heq
      cases h
      exact ⟨by rw [heq]; rfl, List.not_mem_nil⟩
    · rename_i hne
      obtain ⟨⟨a', b'⟩, hp, heq⟩ := Option.map_eq_some_iff.mp h
      cases heq
      obtain ⟨hs, hc⟩ := ih hp
      exact ⟨by rw [hs]; rfl, List.not_mem_cons_of_ne_of_not_mem (fun heq => hne heq.symm) hc⟩

theorem splitOnce_append {c : Char} {a : Text} (h : c ∉ a) (b : Text) :
    splitOnce c (a ++ c :: b) = some (a, b) := by
  induction a with
  | nil => simp [splitOnce]
  | cons d a ih =>
    have hne : d ≠ c := fun heq => h (heq ▸ List.mem_cons_self)
    simp only [List.cons_append, splitOnce, if_neg hne,
      ih fun hc => h (List.mem_cons_of_mem d hc), Option.map_some]

theorem splitOnce_of_not_mem {c : Char} {s : Text} (h : c ∉ s) : splitOnce c s = none := by
  cases hs : splitOnce c s with
  | none => rfl
  | some p =>
    obtain ⟨rfl, -⟩ := splitOnce_some hs
    exact absurd (by simp) h

/-- A piece holds no separator, and nothing but what the text holds. -/
theorem mem_splitOn {c : Char} {s piece : Text} (h : piece ∈ s.splitOn c) :
    c ∉ piece ∧ ∀ d ∈ piece, d ∈ s := by
  induction s generalizing piece with
  | nil =>
    rw [List.splitOn_nil, List.mem_singleton] at h
    subst h
    exact ⟨List.not_mem_nil, fun d hd => absurd hd List.not_mem_nil⟩
  | cons x xs ih =>
    rw [List.splitOn_cons_eq_if_modifyHead] at h
    split at h
    · rcases List.mem_cons.mp h with rfl | h
      · exact ⟨List.not_mem_nil, fun d hd => absurd hd List.not_mem_nil⟩
      · exact ⟨(ih h).1, fun d hd => List.mem_cons_of_mem x ((ih h).2 d hd)⟩
    · rename_i hne
      cases hsplit : xs.splitOn c with
      | nil => exact absurd hsplit (List.splitOn_ne_nil c xs)
      | cons first rest =>
        rw [hsplit, List.modifyHead_cons] at h
        rw [hsplit] at ih
        rcases List.mem_cons.mp h with rfl | h
        · obtain ⟨hc, hmem⟩ := ih List.mem_cons_self
          have hx : c ≠ x := fun heq => hne (by simp [heq])
          refine ⟨List.not_mem_cons_of_ne_of_not_mem hx hc, fun d hd => ?_⟩
          rcases List.mem_cons.mp hd with rfl | hd
          · exact List.mem_cons_self
          · exact List.mem_cons_of_mem x (hmem d hd)
        · obtain ⟨hc, hmem⟩ := ih (List.mem_cons_of_mem first h)
          exact ⟨hc, fun d hd => List.mem_cons_of_mem x (hmem d hd)⟩

/-- Pieces put together are the pieces again exactly when none holds the separator. -/
theorem length_splitOn_intercalate {c : Char} {pieces : List Text} (hne : pieces ≠ []) :
    pieces.length ≤ (([c].intercalate pieces).splitOn c).length ∧
      ((([c].intercalate pieces).splitOn c).length = pieces.length → ∀ x ∈ pieces, c ∉ x) := by
  have hone : ∀ x : Text, 1 ≤ (x.splitOn c).length ∧ ((x.splitOn c).length = 1 → c ∉ x) := by
    intro x
    refine ⟨List.length_pos_iff.mpr (List.splitOn_ne_nil c x), fun hlen hmem => ?_⟩
    obtain ⟨y, hy⟩ := List.length_eq_one_iff.mp hlen
    have hjoin : [c].intercalate (x.splitOn c) = x := List.intercalate_splitOn c
    rw [hy, List.intercalate_singleton] at hjoin
    have hpiece : y ∈ x.splitOn c := by rw [hy]; exact List.mem_singleton.mpr rfl
    exact (mem_splitOn hpiece).1 (hjoin ▸ hmem)
  induction pieces with
  | nil => exact absurd rfl hne
  | cons x pieces ih =>
    cases pieces with
    | nil =>
      rw [List.intercalate_singleton]
      refine ⟨(hone x).1, fun hlen y hy => ?_⟩
      rw [List.mem_singleton.mp hy]
      exact (hone x).2 hlen
    | cons y pieces =>
      obtain ⟨hle, hall⟩ := ih (List.cons_ne_nil y pieces)
      obtain ⟨hxle, hx⟩ := hone x
      rw [List.intercalate_cons_cons, List.append_assoc, List.singleton_append,
        List.splitOn_append_cons_self, List.length_append]
      simp only [List.length_cons] at hle hall ⊢
      refine ⟨by omega, fun hlen z hz => ?_⟩
      rcases List.mem_cons.mp hz with rfl | hz
      · exact hx (by omega)
      · exact hall (by omega) z hz

theorem mem_intercalate {c d : Char} {pieces : List Text} (h : d ∈ [c].intercalate pieces) :
    d = c ∨ ∃ piece ∈ pieces, d ∈ piece := by
  induction pieces with
  | nil => exact absurd h (by simp)
  | cons piece pieces ih =>
    by_cases hne : pieces = []
    · subst hne
      rw [List.intercalate_singleton] at h
      exact .inr ⟨piece, List.mem_cons_self, h⟩
    · rw [List.intercalate_cons_of_ne_nil hne, List.append_assoc] at h
      rcases List.mem_append.mp h with h | h
      · exact .inr ⟨piece, List.mem_cons_self, h⟩
      rcases List.mem_cons.mp h with rfl | h
      · exact .inl rfl
      · refine (ih h).imp_right ?_
        rintro ⟨other, hother, hd⟩
        exact ⟨other, List.mem_cons_of_mem _ hother, hd⟩

/-- What was joined is cut where the parts were, and where they would be. -/
theorem splitOn_intercalate_parts {c : Char} {parts : List Text} (hne : parts ≠ []) :
    ([c].intercalate parts).splitOn c = parts.flatMap fun part => part.splitOn c := by
  induction parts with
  | nil => exact absurd rfl hne
  | cons part parts ih =>
    by_cases hlast : parts = []
    · subst hlast
      rw [List.intercalate_singleton, List.flatMap_singleton]
    · rw [List.intercalate_cons_of_ne_nil hlast, List.append_assoc, List.singleton_append,
        List.splitOn_append_cons_self, ih hlast, List.flatMap_cons]

/-- All pieces, from the first cut. -/
theorem splitOn_eq (c : Char) (s : Text) : s.splitOn c =
    match splitOnce c s with
    | none => [s]
    | some (first, rest) => first :: rest.splitOn c := by
  cases h : splitOnce c s with
  | none => exact List.splitOn_eq_singleton (splitOnce_none h)
  | some p =>
    obtain ⟨hs, hc⟩ := splitOnce_some h
    rw [hs]
    exact List.splitOn_append_cons_self_of_not_mem hc p.2

/-- The last separator cuts a text in one way. -/
theorem append_cons_inj {c : Char} {a b a' b' : Text} (hb : c ∉ b) (hb' : c ∉ b')
    (h : a ++ c :: b = a' ++ c :: b') : a = a' ∧ b = b' := by
  have hrev : b.reverse ++ c :: a.reverse = b'.reverse ++ c :: a'.reverse := by
    simpa using congrArg List.reverse h
  have hsplit := congrArg (splitOnce c) hrev
  rw [splitOnce_append (by simpa using hb), splitOnce_append (by simpa using hb'),
    Option.some.injEq, Prod.mk.injEq, List.reverse_inj, List.reverse_inj] at hsplit
  exact ⟨hsplit.2, hsplit.1⟩

/-- `str::trim_matches`. -/
def trimMatches (p : Char → Bool) (s : Text) : Text :=
  ((s.dropWhile p).reverse.dropWhile p).reverse

/-- Neither end is to be trimmed. -/
def EndsOutside (p : Char → Bool) (s : Text) : Prop :=
  (∀ c, s.head? = some c → p c = false) ∧ ∀ c, s.getLast? = some c → p c = false

theorem dropWhile_of_head {p : Char → Bool} {s : Text}
    (h : ∀ c, s.head? = some c → p c = false) : s.dropWhile p = s := by
  cases s with
  | nil => rfl
  | cons c s =>
    rw [List.dropWhile_cons, h c rfl]
    rfl

theorem head_dropWhile {p : Char → Bool} {s : Text} {c : Char}
    (h : (s.dropWhile p).head? = some c) : p c = false := by
  have := List.head?_dropWhile_not p s
  rw [h] at this
  exact this

theorem dropWhile_congr {p q : Char → Bool} {s : Text} (h : ∀ c ∈ s, p c = q c) :
    s.dropWhile p = s.dropWhile q := by
  induction s with
  | nil => rfl
  | cons c s ih =>
    rw [List.dropWhile_cons, List.dropWhile_cons, h c List.mem_cons_self,
      ih fun d hd => h d (List.mem_cons_of_mem c hd)]

theorem trimMatches_congr {p q : Char → Bool} {s : Text} (h : ∀ c ∈ s, p c = q c) :
    trimMatches p s = trimMatches q s := by
  unfold trimMatches
  rw [dropWhile_congr h, dropWhile_congr]
  intro c hc
  exact h c ((List.dropWhile_suffix q).subset (List.mem_reverse.mp hc))

theorem mem_of_mem_trimMatches {p : Char → Bool} {s : Text} {c : Char}
    (h : c ∈ trimMatches p s) : c ∈ s := by
  unfold trimMatches at h
  exact (List.dropWhile_suffix p).subset
    (List.mem_reverse.mp ((List.dropWhile_suffix p).subset (List.mem_reverse.mp h)))

theorem trimMatches_ends (p : Char → Bool) (s : Text) : EndsOutside p (trimMatches p s) := by
  constructor
  · intro c hc
    -- what is left is the beginning of what was left after the first cut
    have hprefix : trimMatches p s <+: s.dropWhile p := by
      rw [← List.reverse_suffix, trimMatches, List.reverse_reverse]
      exact List.dropWhile_suffix p
    obtain ⟨rest, hrest⟩ := hprefix
    refine head_dropWhile (s := s) ?_
    rw [← hrest]
    cases hs : trimMatches p s with
    | nil =>
      rw [hs] at hc
      cases hc
    | cons d t =>
      rw [hs] at hc
      exact hc
  · intro c hc
    rw [trimMatches, List.getLast?_reverse] at hc
    exact head_dropWhile hc

theorem trimMatches_of_ends {p : Char → Bool} {s : Text} (h : EndsOutside p s) :
    trimMatches p s = s := by
  unfold trimMatches
  rw [dropWhile_of_head h.1, dropWhile_of_head, List.reverse_reverse]
  intro c hc
  rw [List.head?_reverse] at hc
  exact h.2 c hc

theorem trimMatches_idem (p : Char → Bool) (s : Text) :
    trimMatches p (trimMatches p s) = trimMatches p s :=
  trimMatches_of_ends (trimMatches_ends p s)

/-- What is left, between what was trimmed. -/
theorem trimMatches_between (p : Char → Bool) (s : Text) : ∃ a b : Text,
    s = a ++ (trimMatches p s ++ b) ∧ (∀ c ∈ a, p c = true) ∧ ∀ c ∈ b, p c = true := by
  refine ⟨s.takeWhile p, ((s.dropWhile p).reverse.takeWhile p).reverse, ?_, ?_, ?_⟩
  · unfold trimMatches
    rw [← List.reverse_append, List.takeWhile_append_dropWhile, List.reverse_reverse,
      List.takeWhile_append_dropWhile]
  · exact fun c hc => List.all_eq_true.mp List.all_takeWhile c hc
  · exact fun c hc => List.all_eq_true.mp List.all_takeWhile c (List.mem_reverse.mp hc)

theorem utf8_length_trimMatches_le (p : Char → Bool) (s : Text) :
    (utf8 (trimMatches p s)).length ≤ (utf8 s).length := by
  obtain ⟨a, b, hs, -, -⟩ := trimMatches_between p s
  have hlength := congrArg (fun t => (utf8 t).length) hs
  simp only [utf8_length_append] at hlength
  omega

theorem utf16_length_trimMatches_le (p : Char → Bool) (s : Text) :
    (utf16 (trimMatches p s)).length ≤ (utf16 s).length := by
  obtain ⟨a, b, hs, -, -⟩ := trimMatches_between p s
  have hlength := congrArg (fun t => (utf16 t).length) hs
  simp only [utf16_length_append] at hlength
  omega

/-- Trimming does not reach into a text whose ends stay. -/
theorem trimMatches_append_left {p : Char → Bool} {a : Text} (ha : a ≠ [])
    (hends : EndsOutside p a) (b : Text) :
    trimMatches p (a ++ b) = a ++ (b.reverse.dropWhile p).reverse := by
  have hfront : (a ++ b).dropWhile p = a ++ b := by
    apply dropWhile_of_head
    intro c hc
    rw [List.head?_append_of_ne_nil _ ha] at hc
    exact hends.1 c hc
  have hback : a.reverse.dropWhile p = a.reverse := by
    apply dropWhile_of_head
    intro c hc
    rw [List.head?_reverse] at hc
    exact hends.2 c hc
  unfold trimMatches
  rw [hfront, List.reverse_append, List.dropWhile_append, hback]
  split
  · rename_i hempty
    rw [List.isEmpty_iff.mp hempty]
    simp
  · simp

/-- Pieces with nothing to trim, and nothing to trim when they are put together. -/
theorem endsOutside_intercalate {p : Char → Bool} {c : Char} {pieces : List Text}
    (h : ∀ s ∈ pieces, s ≠ [] ∧ EndsOutside p s) : EndsOutside p ([c].intercalate pieces) := by
  induction pieces with
  | nil => exact ⟨fun d hd => (by cases hd), fun d hd => (by cases hd)⟩
  | cons s pieces ih =>
    obtain ⟨hne, hhead, hlast⟩ := h s List.mem_cons_self
    cases pieces with
    | nil =>
      rw [List.intercalate_singleton]
      exact ⟨hhead, hlast⟩
    | cons t pieces =>
      have hrest := ih fun x hx => h x (List.mem_cons_of_mem s hx)
      have htail : [c].intercalate (t :: pieces) ≠ [] := by
        have ht := (h t (List.mem_cons_of_mem s List.mem_cons_self)).1
        cases pieces with
        | nil =>
          rw [List.intercalate_singleton]
          exact ht
        | cons u pieces =>
          rw [List.intercalate_cons_cons]
          simp
      rw [List.intercalate_cons_cons]
      constructor
      · intro d hd
        rw [List.append_assoc, List.head?_append_of_ne_nil _ hne] at hd
        exact hhead d hd
      · intro d hd
        rw [List.getLast?_append_of_ne_nil _ htail] at hd
        exact hrest.2 d hd

/-- A separator that is not trimmed still cuts the text where it did. -/
theorem splitOnce_trimMatches {p : Char → Bool} {c : Char} (hc : p c = false) {s a b : Text}
    (h : splitOnce c s = some (a, b)) :
    splitOnce c (trimMatches p s) = some (a.dropWhile p, (b.reverse.dropWhile p).reverse) := by
  obtain ⟨rfl, ha⟩ := splitOnce_some h
  have hstop : ∀ l t : Text, (l ++ c :: t).dropWhile p = l.dropWhile p ++ c :: t := by
    intro l t
    rw [List.dropWhile_append]
    split
    · rename_i hempty
      rw [List.isEmpty_iff.mp hempty, List.dropWhile_cons, hc]
      rfl
    · rfl
  have hform : trimMatches p (a ++ c :: b) =
      a.dropWhile p ++ c :: (b.reverse.dropWhile p).reverse := by
    unfold trimMatches
    rw [hstop, List.reverse_append, List.reverse_cons, List.append_assoc, List.singleton_append,
      hstop]
    simp
  rw [hform]
  exact splitOnce_append (fun hmem => ha ((List.dropWhile_suffix p).subset hmem)) _

theorem trimMatches_dropWhile (p : Char → Bool) (s : Text) :
    trimMatches p (s.dropWhile p) = trimMatches p s := by
  unfold trimMatches
  rw [dropWhile_of_head fun c hc => head_dropWhile hc]

/-- What is trimmed anyway may be appended. -/
theorem trimMatches_append_right {p : Char → Bool} {w : Text} (hw : ∀ c ∈ w, p c = true)
    (s : Text) : trimMatches p (s ++ w) = trimMatches p s := by
  have hall : ∀ l : Text, (∀ c ∈ l, p c = true) → ∀ t : Text,
      (l ++ t).dropWhile p = t.dropWhile p := by
    intro l hl t
    rw [List.dropWhile_append_of_pos hl]
  unfold trimMatches
  rw [List.dropWhile_append]
  split
  · rename_i hempty
    rw [List.isEmpty_iff.mp hempty]
    have hw' := hall w hw []
    rw [List.append_nil] at hw'
    rw [hw']
    rfl
  · rw [List.reverse_append, hall w.reverse fun c hc => hw c (List.mem_reverse.mp hc)]

/-- So what is trimmed anyway may stand at the end of the last piece. -/
theorem map_trim_splitOn_append {p : Char → Bool} {c : Char} {w : Text}
    (hw : ∀ d ∈ w, p d = true) (hc : p c = false) (s : Text) :
    ((s ++ w).splitOn c).map (trimMatches p) = (s.splitOn c).map (trimMatches p) := by
  have hcw : c ∉ w := by
    intro hmem
    rw [hw c hmem] at hc
    cases hc
  induction hn : s.length using Nat.strong_induction_on generalizing s with
  | _ n ih =>
    cases hsplit : splitOnce c s with
    | none =>
      have hcs := splitOnce_none hsplit
      rw [List.splitOn_eq_singleton hcs, List.splitOn_eq_singleton (by simp [hcs, hcw]),
        List.map_singleton, List.map_singleton, trimMatches_append_right hw]
    | some q =>
      obtain ⟨hs, hq⟩ := splitOnce_some hsplit
      have hlen : q.2.length < n := by
        rw [← hn, hs]
        simp
        omega
      rw [hs, List.append_assoc, List.cons_append, List.splitOn_append_cons_self_of_not_mem hq,
        List.splitOn_append_cons_self_of_not_mem hq, List.map_cons, List.map_cons,
        ih q.2.length hlen q.2 rfl]

/-- `str::replace` of a pattern with nothing, with the characters of a match that are
still to be skipped. -/
def removeFrom (pattern : Text) : Nat → Text → Text
  | _, [] => []
  | skip + 1, _ :: s => removeFrom pattern skip s
  | 0, c :: s =>
    if pattern.isPrefixOf (c :: s) then removeFrom pattern (pattern.length - 1) s
    else c :: removeFrom pattern 0 s

def removeAll (pattern s : Text) : Text := removeFrom pattern 0 s

theorem mem_of_mem_removeFrom {pattern s : Text} {skip : Nat} {c : Char}
    (h : c ∈ removeFrom pattern skip s) : c ∈ s := by
  induction s generalizing skip with
  | nil =>
    cases skip with
    | zero => exact h
    | succ skip => exact h
  | cons d s ih =>
    cases skip with
    | succ skip => exact List.mem_cons_of_mem d (ih h)
    | zero =>
      unfold removeFrom at h
      split at h
      · exact List.mem_cons_of_mem d (ih h)
      · rcases List.mem_cons.mp h with rfl | h
        · exact List.mem_cons_self
        · exact List.mem_cons_of_mem d (ih h)

/-! ## Characters -/

/-- `char::is_whitespace`: the Unicode property `White_Space`. -/
def isWhitespace (c : Char) : Bool :=
  let n := c.toNat
  decide (0x9 ≤ n ∧ n ≤ 0xd) || decide (n = 0x20) || decide (n = 0x85) || decide (n = 0xa0) ||
    decide (n = 0x1680) || decide (0x2000 ≤ n ∧ n ≤ 0x200a) || decide (n = 0x2028) ||
    decide (n = 0x2029) || decide (n = 0x202f) || decide (n = 0x205f) || decide (n = 0x3000)

/-- `str::trim`. -/
def trim (s : Text) : Text := trimMatches isWhitespace s

/-- `value.trim().is_empty()`. -/
def trimIsEmpty (s : Text) : Bool := s.all isWhitespace

/-- `Character.isWhitespace`: the separators that may break, and the old ones. -/
def isJavaWhitespace (c : Char) : Bool :=
  let n := c.toNat
  decide (0x9 ≤ n ∧ n ≤ 0xd) || decide (0x1c ≤ n ∧ n ≤ 0x20) || decide (n = 0x1680) ||
    decide (0x2000 ≤ n ∧ n ≤ 0x2006) || decide (0x2008 ≤ n ∧ n ≤ 0x200a) ||
    decide (n = 0x2028) || decide (n = 0x2029) || decide (n = 0x205f) || decide (n = 0x3000)

/-- `String.isBlank`. -/
def isBlank (s : Text) : Bool := s.all isJavaWhitespace

/-- What `String.trim` strips: everything up to the space. -/
def isTrimmed (c : Char) : Bool := decide (c.toNat ≤ 0x20)

/-- `String.trim`. -/
def javaTrim (s : Text) : Text := trimMatches isTrimmed s

/-- `char::is_control`: the general category `Cc`. -/
def isControl (c : Char) : Bool :=
  let n := c.toNat
  decide (n ≤ 0x1f) || decide (0x7f ≤ n ∧ n ≤ 0x9f)

/-- What Java takes for whitespace is whitespace in Rust, or a control character. -/
theorem isWhitespace_of_java {c : Char} (h : isJavaWhitespace c = true) :
    isWhitespace c = true ∨ isControl c = true := by
  simp only [isJavaWhitespace, isWhitespace, isControl, Bool.or_eq_true, decide_eq_true_eq] at h ⊢
  omega

/-- A text that Rust takes and that has no control characters is not blank in Java. -/
theorem not_isBlank {s : Text} (hblank : trimIsEmpty s = false) (hcontrol : s.any isControl = false) :
    isBlank s = false := by
  obtain ⟨c, hc, hspace⟩ := List.all_eq_false.mp hblank
  refine List.all_eq_false.mpr ⟨c, hc, fun hjava => ?_⟩
  rcases isWhitespace_of_java hjava with hrust | hctl
  · exact hspace hrust
  · exact List.any_eq_false.mp hcontrol c hc hctl

/-- `to_ascii_uppercase`. -/
def toAsciiUppercase (s : Text) : Text :=
  s.map fun c => if 0x61 ≤ c.toNat ∧ c.toNat ≤ 0x7a then Char.ofNat (c.toNat - 0x20) else c

/-- A code that uppercasing leaves alone has no lowercase letters. -/
theorem not_lowercase {code : Text} (h : code = toAsciiUppercase code) {c : Char} (hc : c ∈ code) :
    ¬ (0x61 ≤ c.toNat ∧ c.toNat ≤ 0x7a) := by
  intro hlower
  have hmap : code.map (fun c => if 0x61 ≤ c.toNat ∧ c.toNat ≤ 0x7a then
      Char.ofNat (c.toNat - 0x20) else c) = code.map id := by
    rw [List.map_id]
    exact h.symm
  have hfix := List.map_inj_left.mp hmap c hc
  rw [if_pos hlower] at hfix
  have hletters : ∀ n < 0x7b, 0x61 ≤ n → (Char.ofNat (n - 0x20)).toNat ≠ n := by decide
  exact hletters c.toNat (by omega) hlower.1 (congrArg Char.toNat hfix)

/-- `to_ascii_lowercase`. -/
def toAsciiLowercase (s : Text) : Text :=
  s.map fun c => if 0x41 ≤ c.toNat ∧ c.toNat ≤ 0x5a then Char.ofNat (c.toNat + 0x20) else c

/-- `is_ascii_alphabetic`, of a byte. -/
def isAsciiAlphabetic (n : Nat) : Bool :=
  decide (0x41 ≤ n ∧ n ≤ 0x5a) || decide (0x61 ≤ n ∧ n ≤ 0x7a)

/-- The decimal digits of a number, as `to_string` prints it. -/
def decimal (n : Nat) : Text := Nat.toDigits 10 n

theorem digitChar_injective {a b : Nat} (ha : a < 10) (hb : b < 10)
    (h : Nat.digitChar a = Nat.digitChar b) : a = b := by
  have hall : ∀ x < 10, ∀ y < 10, Nat.digitChar x = Nat.digitChar y → x = y := by decide
  exact hall a ha b hb h

theorem decimal_injective : Function.Injective decimal := by
  intro a
  induction a using Nat.strong_induction_on with
  | _ a ih =>
    intro b h
    simp only [decimal] at h
    rw [Nat.toDigits_eq_if (n := a) (by decide), Nat.toDigits_eq_if (n := b) (by decide)] at h
    split at h <;> split at h
    · rename_i ha hb
      exact digitChar_injective ha hb (List.cons.inj h).1
    · exact absurd (congrArg List.length h) (by simp)
    · exact absurd (congrArg List.length h) (by simp)
    · rename_i ha hb
      -- the last digits agree, and so do the numbers before them
      obtain ⟨hinit, hlast⟩ := List.append_inj' h rfl
      have hdiv : a / 10 = b / 10 := ih (a / 10) (by omega) hinit
      have hmod : a % 10 = b % 10 := digitChar_injective (Nat.mod_lt _ (by decide))
        (Nat.mod_lt _ (by decide)) (List.cons.inj hlast).1
      omega

theorem decimal_isDigit {n : Nat} {c : Char} (h : c ∈ decimal n) :
    0x30 ≤ c.toNat ∧ c.toNat ≤ 0x39 := by
  have hdigit : ∀ x < 10, 0x30 ≤ (Nat.digitChar x).toNat ∧ (Nat.digitChar x).toNat ≤ 0x39 := by
    decide
  induction n using Nat.strong_induction_on with
  | _ n ih =>
    simp only [decimal] at h
    rw [Nat.toDigits_eq_if (by decide)] at h
    split at h
    · rename_i hn
      rw [List.mem_singleton.mp h]
      exact hdigit n hn
    · rcases List.mem_append.mp h with h | h
      · exact ih (n / 10) (by omega) h
      · rw [List.mem_singleton.mp h]
        exact hdigit _ (Nat.mod_lt _ (by decide))

end CommercePlayground.Lib
