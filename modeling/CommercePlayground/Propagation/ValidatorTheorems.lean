/-
CommercePlayground.Propagation.ValidatorTheorems — the three validators accept
the same headers.

Each validator is brought to one grammar. `Traceparent` says which code units a
`traceparent` has; a list that meets it is ASCII, so bytes and UTF-16 units are
the same to it. `Member` says what a member of a `tracestate` is, and `Accepts`
folds it over the members with the keys seen so far.
-/
import CommercePlayground.Propagation.Validators

namespace CommercePlayground.Propagation

open Lib

/-! ## `traceparent` -/

/-- `00-<trace id>-<parent id>-<flags>`, in code units. -/
def Traceparent (l : List Nat) : Prop :=
  ∃ t p f : List Nat, l = [0x30, 0x30, 0x2d] ++ (t ++ ([0x2d] ++ (p ++ ([0x2d] ++ f)))) ∧
    (t.length = 32 ∧ t.all isHexDigit = true ∧ t.all (fun n => n == 0x30) = false) ∧
    (p.length = 16 ∧ p.all isHexDigit = true ∧ p.all (fun n => n == 0x30) = false) ∧
    f.length = 2 ∧ f.all isHexDigit = true

theorem isHexDigit_ascii {n : Nat} (h : isHexDigit n = true) : n < 128 := by
  simp only [isHexDigit, isDigit, Bool.or_eq_true, decide_eq_true_eq] at h
  omega

theorem Traceparent.ascii {l : List Nat} (h : Traceparent l) : ∀ n ∈ l, n < 128 := by
  obtain ⟨t, p, f, rfl, ⟨-, ht, -⟩, ⟨-, hp, -⟩, -, hf⟩ := h
  have hhex : ∀ x : List Nat, x.all isHexDigit = true → ∀ n ∈ x, n < 128 := fun x hx n hn =>
    isHexDigit_ascii (List.all_eq_true.mp hx n hn)
  intro n hn
  simp only [List.mem_append, List.mem_cons, List.not_mem_nil, or_false] at hn
  rcases hn with (rfl | rfl | rfl) | hn | rfl | hn | rfl | hn
  · omega
  · omega
  · omega
  · exact hhex t ht n hn
  · omega
  · exact hhex p hp n hn
  · omega
  · exact hhex f hf n hn

/-- The slices of a `traceparent`. -/
theorem slices_traceparent {t p f : List Nat} (ht : t.length = 32) (hp : p.length = 16) :
    let l := [0x30, 0x30, 0x2d] ++ (t ++ ([0x2d] ++ (p ++ ([0x2d] ++ f))))
    l.drop 3 = t ++ ([0x2d] ++ (p ++ ([0x2d] ++ f))) ∧ l.drop 35 = [0x2d] ++ (p ++ ([0x2d] ++ f)) ∧
      l.drop 36 = p ++ ([0x2d] ++ f) ∧ l.drop 52 = [0x2d] ++ f ∧ l.drop 53 = f := by
  intro l
  have h3 : l.drop 3 = t ++ ([0x2d] ++ (p ++ ([0x2d] ++ f))) := rfl
  have h35 : l.drop 35 = [0x2d] ++ (p ++ ([0x2d] ++ f)) := by
    rw [show (35 : Nat) = 3 + 32 from rfl, ← List.drop_drop, h3, List.drop_left' ht]
  have h36 : l.drop 36 = p ++ ([0x2d] ++ f) := by
    rw [show (36 : Nat) = 35 + 1 from rfl, ← List.drop_drop, h35]
    rfl
  have h52 : l.drop 52 = [0x2d] ++ f := by
    rw [show (52 : Nat) = 36 + 16 from rfl, ← List.drop_drop, h36, List.drop_left' hp]
  have h53 : l.drop 53 = f := by
    rw [show (53 : Nat) = 52 + 1 from rfl, ← List.drop_drop, h52]
    rfl
  exact ⟨h3, h35, h36, h52, h53⟩

/-- A list that is cut into these slices. -/
theorem traceparent_of_slices {l : List Nat} (hstart : l.take 3 = [0x30, 0x30, 0x2d])
    (h35 : l.drop 35 = [0x2d] ++ l.drop 36) (h52 : l.drop 52 = [0x2d] ++ l.drop 53)
    (ht : ((l.drop 3).take 32).length = 32 ∧ ((l.drop 3).take 32).all isHexDigit = true ∧
      ((l.drop 3).take 32).all (fun n => n == 0x30) = false)
    (hp : ((l.drop 36).take 16).length = 16 ∧ ((l.drop 36).take 16).all isHexDigit = true ∧
      ((l.drop 36).take 16).all (fun n => n == 0x30) = false)
    (hf : (l.drop 53).length = 2) (hhex : (l.drop 53).all isHexDigit = true) :
    Traceparent l := by
  refine ⟨(l.drop 3).take 32, (l.drop 36).take 16, l.drop 53, ?_, ht, hp, hf, hhex⟩
  have hcut : ∀ i n, l.drop i = (l.drop i).take n ++ l.drop (i + n) := by
    intro i n
    rw [← List.drop_drop, List.take_append_drop]
  calc l = l.take 3 ++ l.drop 3 := (List.take_append_drop 3 l).symm
    _ = [0x30, 0x30, 0x2d] ++ ((l.drop 3).take 32 ++ l.drop 35) := by
      rw [hstart, ← hcut 3 32]
    _ = [0x30, 0x30, 0x2d] ++ ((l.drop 3).take 32 ++ ([0x2d] ++ l.drop 36)) := by
      rw [h35]
    _ = [0x30, 0x30, 0x2d] ++ ((l.drop 3).take 32 ++ ([0x2d] ++
          ((l.drop 36).take 16 ++ l.drop 52))) := by
      rw [← hcut 36 16]
    _ = _ := by rw [h52]

/-- The slices of the orders service. -/
theorem isTraceparent_orders (l : List Nat) :
    OrdersService.isTraceparent l = true ↔ Traceparent l := by
  simp only [OrdersService.isTraceparent, Bool.and_eq_true, Bool.not_eq_true',
    Bool.or_eq_false_iff, decide_eq_false_iff_not, not_not, Bool.not_eq_false']
  constructor
  · rintro ⟨⟨⟨⟨hlen, hstart⟩, h35⟩, h52⟩, ⟨⟨⟨ht, hp⟩, hf⟩, hzt⟩, hzp⟩
    have hdash : ∀ i, l[i]? = some 0x2d → l.drop i = [0x2d] ++ l.drop (i + 1) := by
      intro i hi
      obtain ⟨hlt, hget⟩ := List.getElem?_eq_some_iff.mp hi
      rw [List.drop_eq_getElem_cons hlt, hget]
      rfl
    have hflags : (l.drop 53).length = 2 := by simp [hlen]
    rw [List.take_of_length_le (Nat.le_of_eq hflags)] at hf
    exact traceparent_of_slices hstart (hdash 35 h35) (hdash 52 h52) ⟨by simp [hlen], ht, hzt⟩
      ⟨by simp [hlen], hp, hzp⟩ hflags hf
  · rintro ⟨t, p, f, hl, ⟨htl, ht, hzt⟩, ⟨hpl, hp, hzp⟩, hfl, hf⟩
    obtain ⟨h3, h35, h36, h52, h53⟩ := slices_traceparent (f := f) htl hpl
    rw [← hl] at h3 h35 h36 h52 h53
    have hlen : l.length = 55 := by
      rw [hl]
      simp [htl, hpl, hfl]
    rw [← List.head?_drop, ← List.head?_drop, h3, h35, h36, h52, h53, List.take_left' htl,
      List.take_left' hpl, List.take_of_length_le (Nat.le_of_eq hfl)]
    exact ⟨⟨⟨⟨hlen, by rw [hl]; rfl⟩, rfl⟩, rfl⟩, ⟨⟨⟨ht, hp⟩, hf⟩, hzt⟩, hzp⟩

/-- The pattern of the fulfillment service. -/
theorem isTraceparent_fulfillment (l : List Nat) :
    FulfillmentService.isTraceparent l = true ↔ Traceparent l := by
  simp only [FulfillmentService.isTraceparent, FulfillmentService.traceparentPattern,
    FulfillmentService.Piece.matches, Bool.not_eq_true', Bool.or_eq_false_iff, Bool.not_eq_false',
    Bool.and_eq_true, decide_eq_true_eq, List.isEmpty_iff, List.drop_drop, List.length_cons,
    List.length_nil, Nat.reduceAdd]
  constructor
  · rintro ⟨⟨⟨hstart, ⟨htl, ht⟩, h35, ⟨hpl, hp⟩, h52, ⟨hfl, hf⟩, hend⟩, hzt⟩, hzp⟩
    have hdash : ∀ i, (l.drop i).take 1 = [0x2d] → l.drop i = [0x2d] ++ l.drop (i + 1) := by
      intro i hi
      rw [← hi, ← List.drop_drop, List.take_append_drop]
    have hflags : (l.drop 53).take 2 = l.drop 53 := by
      have hdrop : (l.drop 53).drop 2 = [] := by
        rw [List.drop_drop]
        exact hend
      rw [← List.append_nil ((l.drop 53).take 2), ← hdrop, List.take_append_drop]
    rw [hflags] at hfl hf
    exact traceparent_of_slices hstart (hdash 35 h35) (hdash 52 h52) ⟨htl, ht, hzt⟩
      ⟨hpl, hp, hzp⟩ hfl hf
  · rintro ⟨t, p, f, hl, ⟨htl, ht, hzt⟩, ⟨hpl, hp, hzp⟩, hfl, hf⟩
    obtain ⟨h3, h35, h36, h52, h53⟩ := slices_traceparent (f := f) htl hpl
    rw [← hl] at h3 h35 h36 h52 h53
    have h55 : l.drop 55 = [] := by
      rw [show (55 : Nat) = 53 + 2 from rfl, ← List.drop_drop, h53,
        List.drop_of_length_le (Nat.le_of_eq hfl)]
    rw [h3, h35, h36, h52, h53, h55, List.take_left' htl, List.take_left' hpl,
      List.take_of_length_le (Nat.le_of_eq hfl)]
    exact ⟨⟨⟨by rw [hl]; rfl, ⟨htl, ht⟩, rfl, ⟨hpl, hp⟩, rfl, ⟨hfl, hf⟩, rfl⟩, hzt⟩, hzp⟩

/-- A Rust check of the bytes, and a Java check of the units, of one text. -/
theorem traceparent_utf16 (s : Text) : Traceparent (utf16 s) ↔ Traceparent (utf8 s) := by
  rw [← isTraceparent_orders, ← isTraceparent_orders,
    ascii_agree (fun l hl => ((isTraceparent_orders l).mp hl).ascii) s]

theorem isLowerHex_iff {value : Text} {n : Nat} : Shared.isLowerHex value n = true ↔
    Ascii value ∧ (codes value).length = n ∧ (codes value).all isHexDigit = true := by
  have hascii : ∀ l : List Nat, (decide (l.length = n) && l.all isHexDigit) = true →
      ∀ x ∈ l, x < 128 := by
    intro l hl x hx
    rw [Bool.and_eq_true] at hl
    exact isHexDigit_ascii (List.all_eq_true.mp hl.2 x hx)
  have hcheck := check_utf8 hascii value
  simp only [Bool.and_eq_true, decide_eq_true_eq] at hcheck
  rw [Shared.isLowerHex, Bool.and_eq_true, decide_eq_true_eq]
  exact hcheck

/-- The parts of the shared library. -/
theorem validateTraceparentHeader_iff (s : Text) :
    Shared.validateTraceparentHeader s = .ok () ↔ Traceparent (utf8 s) := by
  have hdash : ∀ x : Text, (codes x).all isHexDigit = true → '-' ∉ x := by
    intro x hx hmem
    have := List.all_eq_true.mp hx _ (List.mem_map_of_mem hmem)
    exact absurd this (by decide)
  constructor
  · intro h
    unfold Shared.validateTraceparentHeader at h
    split at h
    · rename_i version traceId parentId flags hparts
      split at h
      · cases h
      · rename_i hcond
        simp only [Bool.or_eq_true, decide_eq_true_eq, Bool.not_eq_true', not_or, not_not,
          Bool.not_eq_false, Bool.not_eq_true, isLowerHex_iff, Shared.allZeroHex] at hcond
        obtain ⟨⟨⟨⟨⟨⟨-, rfl⟩, hta, ht⟩, hzt⟩, hpa, hp⟩, hzp⟩, hfa, hf⟩ := hcond
        have hs : s = ['0', '0'] ++ ('-' :: (traceId ++ ('-' :: (parentId ++ ('-' :: flags))))) := by
          have hjoin : ['-'].intercalate (s.splitOn '-') = s := List.intercalate_splitOn '-'
          rw [← hjoin, hparts]
          simp [List.intercalate]
        have hascii : Ascii s := by
          rw [hs]
          intro c hc
          simp only [List.mem_append, List.mem_cons, List.not_mem_nil, or_false] at hc
          rcases hc with (rfl | rfl) | rfl | hc | rfl | hc | rfl | hc
          · decide
          · decide
          · decide
          · exact hta c hc
          · decide
          · exact hpa c hc
          · decide
          · exact hfa c hc
        rw [utf8_of_ascii hta] at hzt
        rw [utf8_of_ascii hpa] at hzp
        refine ⟨codes traceId, codes parentId, codes flags, ?_, ⟨ht.1, ht.2, hzt⟩,
          ⟨hp.1, hp.2, hzp⟩, hf⟩
        rw [utf8_of_ascii hascii, hs]
        simp [codes]
    · cases h
  · intro h
    have hascii := ascii_of_utf8 h.ascii
    rw [utf8_of_ascii hascii] at h
    obtain ⟨t, p, f, hl, ⟨htl, ht, hzt⟩, ⟨hpl, hp, hzp⟩, hfl, hf⟩ := h
    obtain ⟨s₀, s₁, rfl, h₀, h₁⟩ := List.map_eq_append_iff.mp hl
    obtain ⟨t', s₂, rfl, rfl, h₂⟩ := List.map_eq_append_iff.mp h₁
    obtain ⟨d, s₃, rfl, hd, h₃⟩ := List.map_eq_append_iff.mp h₂
    obtain ⟨p', s₄, rfl, rfl, h₄⟩ := List.map_eq_append_iff.mp h₃
    obtain ⟨e, f', rfl, he, rfl⟩ := List.map_eq_append_iff.mp h₄
    have hs₀ : s₀ = ['0', '0', '-'] := codes_injective h₀
    have hsd : d = ['-'] := codes_injective hd
    have hse : e = ['-'] := codes_injective he
    subst hs₀ hsd hse
    have hsub : ∀ {x : Text}, (∀ c ∈ x, c ∈ ['0', '0', '-'] ++ (t' ++ (['-'] ++ (p' ++ (['-'] ++ f')))))
        → Ascii x := fun hx c hc => hascii c (hx c hc)
    have hta : Ascii t' := hsub fun c hc => by simp [hc]
    have hpa : Ascii p' := hsub fun c hc => by simp [hc]
    have hfa : Ascii f' := hsub fun c hc => by simp [hc]
    have hparts : (['0', '0', '-'] ++ (t' ++ (['-'] ++ (p' ++ (['-'] ++ f'))))).splitOn '-' =
        [['0', '0'], t', p', f'] := by
      show (['0', '0'] ++ '-' :: (t' ++ '-' :: (p' ++ '-' :: f'))).splitOn '-' = _
      rw [List.splitOn_append_cons_self_of_not_mem (by decide),
        List.splitOn_append_cons_self_of_not_mem (hdash t' ht),
        List.splitOn_append_cons_self_of_not_mem (hdash p' hp),
        List.splitOn_eq_singleton (hdash f' hf)]
    have hlen : (utf8 (['0', '0', '-'] ++ (t' ++ (['-'] ++ (p' ++ (['-'] ++ f')))))).length =
        Shared.maxTraceparentHeaderBytes := by
      rw [utf8_of_ascii hascii, hl]
      simp only [List.length_append, htl, hpl, hfl]
      rfl
    have hzt' : Shared.allZeroHex t' = false := by
      rw [Shared.allZeroHex, utf8_of_ascii hta]
      exact hzt
    have hzp' : Shared.allZeroHex p' = false := by
      rw [Shared.allZeroHex, utf8_of_ascii hpa]
      exact hzp
    unfold Shared.validateTraceparentHeader
    rw [hparts]
    simp only [hlen, hzt', hzp', isLowerHex_iff.mpr ⟨hta, htl, ht⟩,
      isLowerHex_iff.mpr ⟨hpa, hpl, hp⟩, isLowerHex_iff.mpr ⟨hfa, hfl, hf⟩]
    simp

/-! ## Keys -/

theorem keySymbol_ascii {n : Nat} (h : (isLowerAlphaNumeric n || isKeySymbol n) = true) :
    n < 128 := by
  simp only [isLowerAlphaNumeric, isLowercase, isDigit, isKeySymbol, Bool.or_eq_true,
    decide_eq_true_eq] at h
  omega

/-- After the first byte the index asks for nothing more. -/
theorem all_zipIdx_rest (l : List Nat) (k : Nat) (hk : 0 < k) :
    ((l.zipIdx k).all fun (byte, index) =>
      (isLowercase byte || isDigit byte || isKeySymbol byte) &&
        (decide (0 < index) || isLowercase byte || isDigit byte)) =
      l.all fun byte => isLowerAlphaNumeric byte || isKeySymbol byte := by
  induction l generalizing k with
  | nil => rfl
  | cons a l ih =>
    rw [List.zipIdx_cons, List.all_cons, List.all_cons, ih (k + 1) (Nat.succ_pos k)]
    simp [hk, isLowerAlphaNumeric]

theorem validKeyPart_shared (m : Nat) (l : List Nat) :
    Shared.validKeyPart m l = OrdersService.validKeyPart m l := by
  cases l with
  | nil => rfl
  | cons a l =>
    have hfirst : ((isLowercase a || isDigit a || isKeySymbol a) &&
        (decide (0 < 0) || isLowercase a || isDigit a)) = isLowerAlphaNumeric a := by
      unfold isLowerAlphaNumeric
      cases isLowercase a <;> cases isDigit a <;> simp
    simp only [Shared.validKeyPart, OrdersService.validKeyPart, List.zipIdx_cons, List.all_cons,
      all_zipIdx_rest l (0 + 1) Nat.one_pos, hfirst]
    simp [Bool.and_assoc]

theorem validKeyPart_fulfillment (m : Nat) (l : List Nat) :
    FulfillmentService.validKeyPart m l = OrdersService.validKeyPart m l := by
  cases l with
  | nil => rfl
  | cons a l => simp [FulfillmentService.validKeyPart, OrdersService.validKeyPart, Bool.and_assoc]

theorem validKeyPart_ascii {m : Nat} {l : List Nat} (h : OrdersService.validKeyPart m l = true) :
    ∀ n ∈ l, n < 128 := by
  cases l with
  | nil => exact fun n hn => absurd hn List.not_mem_nil
  | cons a l =>
    simp only [OrdersService.validKeyPart, Bool.and_eq_true] at h
    obtain ⟨⟨-, hfirst⟩, hrest⟩ := h
    intro n hn
    rcases List.mem_cons.mp hn with rfl | hn
    · exact keySymbol_ascii (by rw [Bool.or_eq_true]; exact .inl hfirst)
    · exact keySymbol_ascii (List.all_eq_true.mp hrest n hn)

/-- A part of a key, of its bytes or of its units. -/
theorem validKeyPart_agree (m : Nat) (s : Text) :
    FulfillmentService.validKeyPart m (utf16 s) = OrdersService.validKeyPart m (utf8 s) := by
  rw [validKeyPart_fulfillment]
  exact (ascii_agree (fun _ hl => validKeyPart_ascii hl) s).symm

theorem validTracestateKey_shared (key : Text) :
    Shared.validTracestateKey key = OrdersService.validTracestateKey key := by
  unfold Shared.validTracestateKey OrdersService.validTracestateKey
  simp only [validKeyPart_shared]

theorem validTracestateKey_fulfillment (key : Text) :
    FulfillmentService.validTracestateKey key = OrdersService.validTracestateKey key := by
  unfold FulfillmentService.validTracestateKey OrdersService.validTracestateKey
  cases hk : splitOnce '@' key with
  | none =>
    rw [List.splitOn_eq_singleton (splitOnce_none hk)]
    exact validKeyPart_agree 256 key
  | some p =>
    obtain ⟨first, second⟩ := p
    obtain ⟨rfl, hfirst⟩ := splitOnce_some hk
    rw [List.splitOn_append_cons_self_of_not_mem hfirst]
    cases hs : splitOnce '@' second with
    | none =>
      have hno := splitOnce_none hs
      rw [List.splitOn_eq_singleton hno]
      simp [hno, validKeyPart_agree]
    | some q =>
      -- a second `@`: three parts or more
      obtain ⟨x, y⟩ := q
      obtain ⟨rfl, hx⟩ := splitOnce_some hs
      rw [List.splitOn_append_cons_self_of_not_mem hx]
      have hmore := List.splitOn_ne_nil '@' y
      cases hy : List.splitOn '@' y with
      | nil => exact absurd hy hmore
      | cons z zs => simp

/-! ## Values -/

/-- `0x20` to `0x7e` without the comma and the equals sign. -/
def isValueUnit (n : Nat) : Bool :=
  decide (0x20 ≤ n ∧ n ≤ 0x2b) || decide (0x2d ≤ n ∧ n ≤ 0x3c) || decide (0x3e ≤ n ∧ n ≤ 0x7e)

theorem isValueUnit_iff {n : Nat} :
    isValueUnit n = true ↔ 0x20 ≤ n ∧ n ≤ 0x7e ∧ n ≠ 0x2c ∧ n ≠ 0x3d := by
  simp only [isValueUnit, Bool.or_eq_true, decide_eq_true_eq]
  omega

/-- A value, in code units. -/
def isValue (l : List Nat) : Bool :=
  !l.isEmpty && decide (l.getLast? ≠ some 0x20) && l.all isValueUnit

theorem isValue_ascii {l : List Nat} (h : isValue l = true) : ∀ n ∈ l, n < 128 := by
  intro n hn
  rw [isValue, Bool.and_eq_true] at h
  have := isValueUnit_iff.mp (List.all_eq_true.mp h.2 n hn)
  omega

theorem validTracestateValue_orders (value : Text) :
    OrdersService.validTracestateValue value = isValue (utf8 value) := rfl

theorem validValueUnits_eq (l : List Nat) : FulfillmentService.validValueUnits l =
    (decide (l.getLast? ≠ some 0x20) && l.all isValueUnit) := by
  induction l with
  | nil => rfl
  | cons a l ih =>
    rw [FulfillmentService.validValueUnits, ih, List.all_cons]
    cases l with
    | nil =>
      show (isValueUnit a && _ && _) = _
      simp [Bool.and_comm]
    | cons b l =>
      show (isValueUnit a && _ && _) = _
      rw [List.getLast?_cons_cons]
      cases isValueUnit a <;> simp

theorem validTracestateValue_fulfillment (value : Text) :
    FulfillmentService.validTracestateValue value = OrdersService.validTracestateValue value := by
  rw [validTracestateValue_orders, ascii_agree (fun _ hl => isValue_ascii hl) value,
    FulfillmentService.validTracestateValue, validValueUnits_eq, isValue]
  cases (utf16 value).isEmpty <;> simp

theorem validTracestateValue_shared {value : Text} (h : value ≠ []) :
    Shared.validTracestateValue value = OrdersService.validTracestateValue value := by
  rw [validTracestateValue_orders]
  have hunit : (fun byte => decide (0x20 ≤ byte ∧ byte ≤ 0x7e) &&
      !decide (byte = 0x2c ∨ byte = 0x3d)) = isValueUnit := by
    funext n
    rw [Bool.eq_iff_iff, isValueUnit_iff]
    simp
    omega
  unfold Shared.validTracestateValue
  rw [hunit]
  by_cases hall : (utf8 value).all isValueUnit = true
  · have hascii : Ascii value := ascii_of_utf8 fun n hn => by
      have := isValueUnit_iff.mp (List.all_eq_true.mp hall n hn)
      omega
    -- no tab passes the units, so the last character is a space or no white space
    obtain ⟨c, hc⟩ : ∃ c, value.getLast? = some c := by
      cases hlast : value.getLast? with
      | none => exact absurd (List.getLast?_eq_none_iff.mp hlast) h
      | some c => exact ⟨c, rfl⟩
    have hunits : (codes value).getLast? = some c.toNat := by
      rw [codes, List.getLast?_map, hc]
      rfl
    have hows : isOws c = decide (c.toNat = 0x20) := by
      have htab : c ≠ '\t' := by
        rintro rfl
        rw [utf8_of_ascii hascii] at hall
        exact absurd (List.all_eq_true.mp hall _ (List.mem_of_getLast? hunits)) (by decide)
      have hspace : c.toNat = 0x20 ↔ c = ' ' := Char.toNat_inj (d := ' ')
      simp [isOws, htab, hspace]
    have hne : (codes value).isEmpty = false := by
      rw [List.isEmpty_eq_false_iff]
      intro hnil
      rw [hnil] at hunits
      cases hunits
    rw [isValue, hall, utf8_of_ascii hascii, hunits, hc, hne, Option.any_some, hows]
    simp
  · rw [Bool.not_eq_true] at hall
    simp [isValue, hall]

/-! ## Members -/

/-- `key=value`. -/
def Member (member key : Text) : Prop :=
  ∃ value, splitOnce '=' member = some (key, value) ∧
    (utf8 member).length ≤ maxTracestateMemberBytes ∧
    OrdersService.validTracestateKey key = true ∧ OrdersService.validTracestateValue value = true

/-- The members, after the keys seen so far. -/
def Accepts (seen : List Text) : List Text → Prop
  | [] => True
  | rawMember :: rest =>
    ∃ key, Member (trimOws rawMember) key ∧ key ∉ seen ∧ Accepts (key :: seen) rest

theorem Accepts.congr {seen seen' : List Text} {members : List Text}
    (h : ∀ k, k ∈ seen ↔ k ∈ seen') : Accepts seen members ↔ Accepts seen' members := by
  induction members generalizing seen seen' with
  | nil => exact Iff.rfl
  | cons rawMember rest ih =>
    refine exists_congr fun key => and_congr_right fun _ => and_congr (not_congr (h key)) (ih ?_)
    intro k
    rw [List.mem_cons, List.mem_cons, h k]

/-- What follows from a valid value. -/
theorem value_facts {value : Text} (h : OrdersService.validTracestateValue value = true) :
    value ≠ [] ∧ '=' ∉ value := by
  rw [validTracestateValue_orders] at h
  have hascii := ascii_of_utf8 (isValue_ascii h)
  rw [utf8_of_ascii hascii, isValue, Bool.and_eq_true, Bool.and_eq_true] at h
  refine ⟨?_, fun hmem => ?_⟩
  · rintro rfl
    exact absurd h.1.1 (by decide)
  · exact absurd (List.all_eq_true.mp h.2 _ (List.mem_map_of_mem hmem)) (by decide)

theorem key_ne_nil {key : Text} (h : OrdersService.validTracestateKey key = true) : key ≠ [] := by
  rintro rfl
  exact absurd h (by decide)

/-- A member bounds its value. -/
theorem utf8_value_le {member key value : Text} (h : splitOnce '=' member = some (key, value)) :
    (utf8 value).length ≤ (utf8 member).length := by
  rw [(splitOnce_some h).1]
  simp only [utf8, List.flatMap_append, List.flatMap_cons, List.length_append]
  omega

theorem member_ne_nil {member key value : Text}
    (h : splitOnce '=' member = some (key, value)) : member ≠ [] := by
  rintro rfl
  cases h

theorem ok_of_guard {c : Prop} [Decidable c] {e : String} {x : Except String Unit} :
    (if c then .error e else x) = .ok () ↔ ¬ c ∧ x = .ok () := by
  split <;> simp_all

/-- One member, once it is split. -/
theorem accepts_cons {seen rest : List Text} {rawMember key value : Text}
    (h : splitOnce '=' (trimOws rawMember) = some (key, value)) :
    Accepts seen (rawMember :: rest) ↔
      ((utf8 (trimOws rawMember)).length ≤ maxTracestateMemberBytes ∧
        OrdersService.validTracestateKey key = true ∧
        OrdersService.validTracestateValue value = true) ∧ key ∉ seen ∧
      Accepts (key :: seen) rest := by
  constructor
  · rintro ⟨k, ⟨v, hsplit, hrest⟩, hseen, hnext⟩
    cases h.symm.trans hsplit
    exact ⟨hrest, hseen, hnext⟩
  · rintro ⟨hrest, hseen, hnext⟩
    exact ⟨key, ⟨value, h, hrest⟩, hseen, hnext⟩

theorem not_accepts_cons {seen rest : List Text} {rawMember : Text}
    (h : splitOnce '=' (trimOws rawMember) = none) : ¬ Accepts seen (rawMember :: rest) := by
  rintro ⟨k, ⟨v, hsplit, -⟩, -⟩
  cases h.symm.trans hsplit

theorem members_orders (seen members : List Text) :
    OrdersService.tracestateMembers seen members = .ok () ↔ Accepts seen members := by
  induction members generalizing seen with
  | nil => simp [OrdersService.tracestateMembers, Accepts]
  | cons rawMember rest ih =>
    rw [OrdersService.tracestateMembers]
    cases hsplit : splitOnce '=' (trimOws rawMember) with
    | none => simp [not_accepts_cons hsplit]
    | some p =>
      obtain ⟨key, value⟩ := p
      have hnext : Accepts (seen ++ [key]) rest ↔ Accepts (key :: seen) rest :=
        Accepts.congr fun k => by simp [or_comm]
      simp only [ok_of_guard, ih, hnext, accepts_cons hsplit, ← and_assoc]
      refine and_congr_left fun _ => ?_
      simp only [Bool.or_eq_true, decide_eq_true_eq, Bool.not_eq_true', not_or, Nat.not_lt,
        Bool.not_eq_true, Bool.not_eq_false, List.isEmpty_eq_false_iff]
      constructor
      · rintro ⟨⟨⟨⟨⟨-, hlen⟩, hkey⟩, -⟩, hvalue⟩, hseen⟩
        refine ⟨⟨⟨hlen, hkey⟩, hvalue⟩, fun hmem => ?_⟩
        have : seen.any (fun known => known == key) = true :=
          List.any_eq_true.mpr ⟨key, hmem, beq_self_eq_true key⟩
        rw [hseen] at this
        cases this
      · rintro ⟨⟨⟨hlen, hkey⟩, hvalue⟩, hseen⟩
        obtain ⟨hne, hno⟩ := value_facts hvalue
        refine ⟨⟨⟨⟨⟨⟨⟨⟨member_ne_nil hsplit, key_ne_nil hkey⟩, hne⟩, ?_⟩, hlen⟩, hkey⟩,
          Nat.le_trans (utf8_value_le hsplit) hlen⟩, hvalue⟩, ?_⟩
        · simpa using hno
        · rw [List.any_eq_false]
          intro k hk heq
          exact hseen (beq_iff_eq.mp heq ▸ hk)

theorem members_fulfillment (seen members : List Text) :
    FulfillmentService.tracestateMembers seen members = .ok () ↔ Accepts seen members := by
  induction members generalizing seen with
  | nil => simp [FulfillmentService.tracestateMembers, Accepts]
  | cons rawMember rest ih =>
    rw [FulfillmentService.tracestateMembers]
    cases hsplit : splitOnce '=' (trimOws rawMember) with
    | none => simp [not_accepts_cons hsplit]
    | some p =>
      obtain ⟨key, value⟩ := p
      simp only [ok_of_guard, ih, accepts_cons hsplit, validTracestateKey_fulfillment,
        validTracestateValue_fulfillment, ← and_assoc]
      refine and_congr_left fun _ => ?_
      simp only [Bool.or_eq_true, decide_eq_true_eq, Bool.not_eq_true', not_or, Nat.not_lt,
        Bool.not_eq_true, Bool.not_eq_false, List.isEmpty_eq_false_iff]
      constructor
      · rintro ⟨-, ⟨⟨⟨hlen, hkey⟩, -⟩, hvalue⟩, hseen⟩
        exact ⟨⟨⟨hlen, hkey⟩, hvalue⟩, by simpa using hseen⟩
      · rintro ⟨⟨⟨hlen, hkey⟩, hvalue⟩, hseen⟩
        obtain ⟨hne, hno⟩ := value_facts hvalue
        refine ⟨⟨⟨key_ne_nil hkey, hne⟩, by simpa using hno⟩, ⟨⟨⟨hlen, hkey⟩,
          Nat.le_trans (utf8_value_le hsplit) hlen⟩, hvalue⟩, ?_⟩
        simpa using hseen

/-- The shared library counts its members on the way. -/
theorem members_shared {keys members : List Text} {n : Nat} (hn : n ≤ maxTracestateMembers) :
    Shared.tracestateMembers keys n members = .ok () ↔
      Accepts keys members ∧ n + members.length ≤ maxTracestateMembers ∧
        0 < n + members.length := by
  induction members generalizing keys n with
  | nil =>
    rw [Shared.tracestateMembers, ok_of_guard]
    simp only [Accepts, List.length_nil, Nat.add_zero, true_and, and_true]
    omega
  | cons rawMember rest ih =>
    rw [Shared.tracestateMembers]
    cases hsplit : splitOnce '=' (trimOws rawMember) with
    | none => simp [ok_of_guard, not_accepts_cons hsplit]
    | some p =>
      obtain ⟨key, value⟩ := p
      have hmember : (trimOws rawMember).isEmpty = false := by
        rw [List.isEmpty_eq_false_iff]
        exact member_ne_nil hsplit
      simp only [ok_of_guard, hmember, accepts_cons hsplit, Bool.false_or, Bool.false_eq_true,
        not_false_eq_true, true_and, Nat.not_lt, List.length_cons]
      by_cases hmax : n + 1 ≤ maxTracestateMembers
      · have hgood : (¬ (decide (maxTracestateMemberBytes < (utf8 (trimOws rawMember)).length) ||
            !Shared.validTracestateKey key || value.isEmpty ||
            decide (maxTracestateMemberBytes < (utf8 value).length) ||
            !Shared.validTracestateValue value || keys.contains key) = true) ↔
            ((utf8 (trimOws rawMember)).length ≤ maxTracestateMemberBytes ∧
              OrdersService.validTracestateKey key = true ∧
              OrdersService.validTracestateValue value = true) ∧ key ∉ keys := by
          simp only [Bool.or_eq_true, decide_eq_true_eq, Bool.not_eq_true', not_or, Nat.not_lt,
            Bool.not_eq_true, Bool.not_eq_false, List.isEmpty_eq_false_iff,
            validTracestateKey_shared]
          constructor
          · rintro ⟨⟨⟨⟨⟨hlen, hkey⟩, hne⟩, -⟩, hvalue⟩, hseen⟩
            rw [validTracestateValue_shared hne] at hvalue
            exact ⟨⟨hlen, hkey, hvalue⟩, by simpa using hseen⟩
          · rintro ⟨⟨hlen, hkey, hvalue⟩, hseen⟩
            have hne := (value_facts hvalue).1
            rw [← validTracestateValue_shared hne] at hvalue
            exact ⟨⟨⟨⟨⟨hlen, hkey⟩, hne⟩, Nat.le_trans (utf8_value_le hsplit) hlen⟩, hvalue⟩,
              by simpa using hseen⟩
        rw [hgood, ih hmax]
        have hcount : n + 1 + rest.length = n + (rest.length + 1) := by omega
        rw [hcount]
        simp only [hmax, true_and, and_assoc]
      · -- the count stops the loop here
        have hover : ¬ n + (rest.length + 1) ≤ maxTracestateMembers := by omega
        simp [hmax, hover]

/-! ## Headers -/

theorem validateTracestateHeader_iff (s : Text) :
    Shared.validateTracestateHeader s = .ok () ↔
      (utf8 s).length ≤ maxTracestateHeaderBytes ∧
        (s.splitOn ',').length ≤ maxTracestateMembers ∧ Accepts [] (s.splitOn ',') := by
  have hpos : 0 < (s.splitOn ',').length :=
    List.length_pos_iff.mpr (List.splitOn_ne_nil ',' s)
  rw [Shared.validateTracestateHeader, ok_of_guard, Nat.not_lt, members_shared (Nat.zero_le _),
    Nat.zero_add]
  refine and_congr_right fun _ => ?_
  constructor
  · rintro ⟨hacc, hle, -⟩
    exact ⟨hle, hacc⟩
  · rintro ⟨hle, hacc⟩
    exact ⟨hacc, hle, hpos⟩

theorem validateTracestate_orders (s : Text) :
    OrdersService.validateTracestate s = .ok () ↔
      (utf8 s).length ≤ maxTracestateHeaderBytes ∧
        (s.splitOn ',').length ≤ maxTracestateMembers ∧ Accepts [] (s.splitOn ',') := by
  simp only [OrdersService.validateTracestate, ok_of_guard, Nat.not_lt, members_orders,
    Bool.or_eq_true, decide_eq_true_eq, not_or, List.isEmpty_iff, List.splitOn_ne_nil,
    not_false_eq_true, true_and]

theorem validateTracestate_fulfillment (s : Text) :
    FulfillmentService.validateTracestate s = .ok () ↔
      (utf8 s).length ≤ maxTracestateHeaderBytes ∧
        (s.splitOn ',').length ≤ maxTracestateMembers ∧ Accepts [] (s.splitOn ',') := by
  simp only [FulfillmentService.validateTracestate, ok_of_guard, Nat.not_lt, members_fulfillment,
    Bool.or_eq_true, decide_eq_true_eq, not_or, List.length_eq_zero_iff, List.splitOn_ne_nil,
    not_false_eq_true, true_and]

theorem validateTraceparent_orders (s : Text) :
    OrdersService.validateTraceparent s = .ok () ↔ Traceparent (utf8 s) := by
  rw [← isTraceparent_orders, OrdersService.validateTraceparent]
  split <;> simp_all

theorem validateTraceparent_fulfillment (s : Text) :
    FulfillmentService.validateTraceparent s = .ok () ↔ Traceparent (utf8 s) := by
  rw [← traceparent_utf16, ← isTraceparent_fulfillment, FulfillmentService.validateTraceparent]
  split <;> simp_all

/-- No white space at either end. -/
def Trimmed (s : Text) : Prop := s.head?.any isOws = false ∧ s.getLast?.any isOws = false

theorem trimOws_of_trimmed {s : Text} (h : Trimmed s) : trimOws s = s := by
  have hdrop : ∀ l : Text, l.head?.any isOws = false → l.dropWhile isOws = l := by
    intro l hl
    cases l with
    | nil => rfl
    | cons c l => exact List.dropWhile_cons_of_neg (by simpa using hl)
  rw [trimOws, trimMatches, hdrop s h.1, hdrop s.reverse (by simpa using h.2), List.reverse_reverse]

/-- The three services accept the same `traceparent` and `tracestate` headers. -/
theorem trace_validators_agree (s : Text) :
    (Shared.validateTraceparentHeader s = .ok () ↔ OrdersService.validateTraceparent s = .ok ()) ∧
      (Shared.validateTracestateHeader s = .ok () ↔ OrdersService.validateTracestate s = .ok ()) ∧
      (Trimmed s →
        (FulfillmentService.validateTraceparent (trimOws s) = .ok () ↔
          Shared.validateTraceparentHeader s = .ok ()) ∧
        (FulfillmentService.validateTracestate (trimOws s) = .ok () ↔
          Shared.validateTracestateHeader s = .ok ())) := by
  refine ⟨?_, ?_, fun htrim => ?_⟩
  · rw [validateTraceparentHeader_iff, validateTraceparent_orders]
  · rw [validateTracestateHeader_iff, validateTracestate_orders]
  · rw [trimOws_of_trimmed htrim, validateTraceparentHeader_iff, validateTracestateHeader_iff,
      validateTraceparent_fulfillment, validateTracestate_fulfillment]
    exact ⟨Iff.rfl, Iff.rfl⟩

theorem trace_validators_agree_sample :
    Trimmed "vendor/name=state,k@v=1".toList ∧
      Shared.validateTracestateHeader "vendor/name=state,k@v=1".toList = .ok () ∧
      FulfillmentService.validateTracestate (trimOws "vendor/name=state,k@v=1".toList) = .ok () := by
  have htrim : Trimmed "vendor/name=state,k@v=1".toList := ⟨rfl, rfl⟩
  have hshared : Shared.validateTracestateHeader "vendor/name=state,k@v=1".toList = .ok () := by
    decide
  exact ⟨htrim, hshared, ((trace_validators_agree _).2.2 htrim).2.mpr hshared⟩

end CommercePlayground.Propagation
