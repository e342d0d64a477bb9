/-
CommercePlayground.Lib.Table — relational tables as lists of rows.

A table is the list of its rows in insertion order. The three write
statements of the services are an INSERT (append), an `UPDATE … WHERE`
(`updateWhere`) and nothing else: no modelled function deletes a row. The
file gives

* `updateWhere`, with its membership, length and key lemmas;
* `sumWhere`, an aggregate over the rows a predicate selects, with the
  balance law of an update (`sumWhere_updateWhere`);
* `KeyUnique`, the primary-key constraint, kept by key-preserving updates
  and by inserts of a fresh key;
* `Tri`, the three-valued logic of CHECK constraints;
* `Evolves`, what every sequence of such writes does to the rows that were
  there: each is still in the table, in a form related to the old one.

Nothing here names a table of the repository.
-/
import Mathlib.Data.List.Basic
import Mathlib.Algebra.BigOperators.Group.List.Basic
import Mathlib.Algebra.Order.Ring.Int
import Mathlib.Algebra.Order.BigOperators.Group.List
import Mathlib.Data.List.Nodup

namespace CommercePlayground.Lib

variable {α β : Type}

/-! ## Updates -/

/-- `UPDATE t SET … WHERE p`: rewrite the rows `p` selects, keep the others. -/
def updateWhere (p : α → Bool) (f : α → α) (t : List α) : List α :=
  t.map fun r => if p r then f r else r

/-- `INSERT … ON CONFLICT DO NOTHING`: append the row unless one of the same
key, which `p` selects, is there. -/
def insertMissing (p : α → Bool) (r : α) (t : List α) : List α :=
  if t.any p then t else t ++ [r]

/-- The number of rows an `UPDATE … WHERE p` reports. -/
def affected (p : α → Bool) (t : List α) : Nat := t.countP p

@[simp] theorem updateWhere_nil (p : α → Bool) (f : α → α) :
    updateWhere p f [] = [] := rfl

theorem updateWhere_cons (p : α → Bool) (f : α → α) (r : α) (t : List α) :
    updateWhere p f (r :: t) = (if p r then f r else r) :: updateWhere p f t := rfl

@[simp] theorem length_updateWhere (p : α → Bool) (f : α → α) (t : List α) :
    (updateWhere p f t).length = t.length := by
  simp [updateWhere]

theorem mem_updateWhere {p : α → Bool} {f : α → α} {t : List α} {r' : α} :
    r' ∈ updateWhere p f t ↔ ∃ r ∈ t, r' = if p r then f r else r := by
  simp only [updateWhere, List.mem_map]
  constructor
  · rintro ⟨r, hr, rfl⟩
    exact ⟨r, hr, rfl⟩
  · rintro ⟨r, hr, rfl⟩
    exact ⟨r, hr, rfl⟩

/-- A row the update leaves alone is still there. -/
theorem mem_updateWhere_of_not {p : α → Bool} {f : α → α} {t : List α} {r : α}
    (hr : r ∈ t) (hp : p r = false) : r ∈ updateWhere p f t :=
  mem_updateWhere.mpr ⟨r, hr, by simp [hp]⟩

/-- A row the update selects is there in its new form. -/
theorem mem_updateWhere_of_pos {p : α → Bool} {f : α → α} {t : List α} {r : α}
    (hr : r ∈ t) (hp : p r = true) : f r ∈ updateWhere p f t :=
  mem_updateWhere.mpr ⟨r, hr, by simp [hp]⟩

/-- What every row satisfies, every row satisfies after an update that keeps
it. -/
theorem forall_updateWhere {P : α → Prop} {p : α → Bool} {f : α → α} {t : List α}
    (h : ∀ r ∈ t, P r) (hf : ∀ r ∈ t, p r = true → P r → P (f r)) :
    ∀ r ∈ updateWhere p f t, P r := by
  intro r' hr'
  obtain ⟨r, hr, rfl⟩ := mem_updateWhere.mp hr'
  split
  · rename_i hp
    exact hf r hr hp (h r hr)
  · exact h r hr

theorem forall_append_singleton {P : α → Prop} {t : List α} {r : α} (h : ∀ s ∈ t, P s)
    (hr : P r) : ∀ s ∈ t ++ [r], P s := by
  intro s hs
  rcases List.mem_append.mp hs with hs | hs
  · exact h s hs
  · rw [List.mem_singleton.mp hs]
    exact hr

/-- An update within the rows outside `P` keeps the rows of `P` as they
are. -/
theorem mem_updateWhere_outside {P : α → Prop} {p : α → Bool} {f : α → α} {t : List α}
    (h : ∀ r ∈ t, p r = true → ¬ P r ∧ ¬ P (f r)) {x : α} (hx : P x) :
    x ∈ updateWhere p f t ↔ x ∈ t := by
  constructor
  · intro hmem
    obtain ⟨r, hr, rfl⟩ := mem_updateWhere.mp hmem
    by_cases hp : p r = true
    · rw [if_pos hp] at hx
      exact absurd hx (h r hr hp).2
    · rw [if_neg hp]
      exact hr
  · intro hmem
    refine mem_updateWhere_of_not hmem ?_
    by_contra hp
    exact (h x hmem (by simpa using hp)).1 hx

/-- An update that selects no row is the identity. -/
theorem updateWhere_eq_self {p : α → Bool} {f : α → α} {t : List α}
    (h : ∀ r ∈ t, p r = false) : updateWhere p f t = t := by
  induction t with
  | nil => rfl
  | cons r t ih =>
    rw [updateWhere_cons, h r (by simp), ih fun r' hr' => h r' (by simp [hr'])]
    rfl

/-- An update changes nothing for a predicate that the rows it selects fail before and
after. -/
theorem filter_updateWhere {p q : α → Bool} {f : α → α} {t : List α}
    (h : ∀ r ∈ t, p r = true → q r = false ∧ q (f r) = false) :
    (updateWhere p f t).filter q = t.filter q := by
  induction t with
  | nil => rfl
  | cons r t ih =>
    obtain ⟨hr, ht⟩ := List.forall_mem_cons.mp h
    rw [updateWhere_cons, List.filter_cons, List.filter_cons, ih ht]
    cases hp : p r with
    | true => simp [hr hp]
    | false => simp

theorem affected_eq_zero {p : α → Bool} {t : List α} (h : affected p t = 0) :
    ∀ r ∈ t, p r = false := by
  intro r hr
  have := List.countP_eq_zero.mp h r hr
  simpa using this

theorem exists_of_affected_ne_zero {p : α → Bool} {t : List α} (h : affected p t ≠ 0) :
    ∃ r ∈ t, p r = true := by
  have := List.countP_pos_iff.mp (Nat.pos_of_ne_zero h)
  exact this

/-- Looking up by a predicate the update respects finds the row in its new
form. -/
theorem find?_updateWhere {p q : α → Bool} {f : α → α} {t : List α}
    (h : ∀ r ∈ t, p r = true → q (f r) = q r) :
    (updateWhere p f t).find? q = (t.find? q).map fun r => if p r then f r else r := by
  induction t with
  | nil => rfl
  | cons a t ih =>
    have hhead : q (if p a then f a else a) = q a := by
      split
      · rename_i hp
        exact h a (by simp) hp
      · rfl
    rw [updateWhere_cons, List.find?_cons, List.find?_cons, hhead,
      ih fun r hr => h r (by simp [hr])]
    cases q a <;> rfl

/-- `t'` is `t` with one row rewritten. -/
def Replaces (r r' : α) (t t' : List α) : Prop :=
  ∃ l₁ l₂, t = l₁ ++ r :: l₂ ∧ t' = l₁ ++ r' :: l₂

/-- An update that affects one row rewrites that row only. -/
theorem replaces_updateWhere {p : α → Bool} {f : α → α} {t : List α} (h : affected p t = 1) :
    ∃ r, p r = true ∧ Replaces r (f r) t (updateWhere p f t) := by
  unfold affected at h
  induction t with
  | nil => cases h
  | cons a t ih =>
    rw [updateWhere_cons]
    cases ha : p a with
    | true =>
      rw [List.countP_cons_of_pos ha] at h
      have hrest : updateWhere p f t = t :=
        updateWhere_eq_self (affected_eq_zero (Nat.succ.inj h))
      exact ⟨a, ha, [], t, rfl, by simp [hrest]⟩
    | false =>
      rw [List.countP_cons_of_neg (by simp [ha])] at h
      obtain ⟨r, hr, l₁, l₂, heq, heq'⟩ := ih h
      exact ⟨r, hr, a :: l₁, l₂, by simp [heq], by simp [heq']⟩

theorem Replaces.mem {r r' : α} {t t' : List α} (h : Replaces r r' t t') : r ∈ t ∧ r' ∈ t' := by
  obtain ⟨l₁, l₂, rfl, rfl⟩ := h
  simp

theorem Replaces.old {r r' x : α} {t t' : List α} (h : Replaces r r' t t') (hx : x ∈ t')
    (hne : x ≠ r') : x ∈ t := by
  obtain ⟨l₁, l₂, rfl, rfl⟩ := h
  simp only [List.mem_append, List.mem_cons] at hx ⊢
  rcases hx with hx | hx | hx
  · exact .inl hx
  · exact absurd hx hne
  · exact .inr (.inr hx)

theorem Replaces.kept {r r' x : α} {t t' : List α} (h : Replaces r r' t t') (hx : x ∈ t)
    (hne : x ≠ r) : x ∈ t' := by
  obtain ⟨l₁, l₂, rfl, rfl⟩ := h
  exact Replaces.old ⟨l₁, l₂, rfl, rfl⟩ hx hne

theorem map_updateWhere_of_eq {p : α → Bool} {f : α → α} {g : α → β} {t : List α}
    (h : ∀ r ∈ t, p r = true → g (f r) = g r) :
    (updateWhere p f t).map g = t.map g := by
  induction t with
  | nil => rfl
  | cons r t ih =>
    rw [updateWhere_cons, List.map_cons, List.map_cons,
      ih fun r' hr' => h r' (by simp [hr'])]
    cases hp : p r with
    | false => simp
    | true => simp [h r (by simp) hp]

/-! ## CHECK constraints -/

/-- SQL truth values: `none` is NULL. -/
abbrev Tri := Option Bool

/-- Kleene conjunction: FALSE wins over NULL. -/
def Tri.and : Tri → Tri → Tri
  | some false, _ => some false
  | _, some false => some false
  | some true, some true => some true
  | _, _ => none

/-- Kleene disjunction: TRUE wins over NULL. -/
def Tri.or : Tri → Tri → Tri
  | some true, _ => some true
  | _, some true => some true
  | some false, some false => some false
  | _, _ => none

/-- `c IN (vs)`, NULL when the column is NULL. -/
def Tri.isIn [DecidableEq α] (c : Option α) (vs : List α) : Tri := c.map fun v => decide (v ∈ vs)

/-- `c IS NULL`. -/
def Tri.isNull (c : Option α) : Tri := some c.isNone

/-- `c IS NOT NULL`. -/
def Tri.notNull (c : Option α) : Tri := some c.isSome

/-- A CHECK constraint rejects a row only when it evaluates to FALSE. -/
def Tri.passes (t : Tri) : Bool := t != some false

@[simp] theorem Tri.and_eq_true (s t : Tri) :
    Tri.and s t = some true ↔ s = some true ∧ t = some true := by
  rcases s with _ | _ | _ <;> rcases t with _ | _ | _ <;> simp [Tri.and]

@[simp] theorem Tri.or_eq_true (s t : Tri) :
    Tri.or s t = some true ↔ s = some true ∨ t = some true := by
  rcases s with _ | _ | _ <;> rcases t with _ | _ | _ <;> simp [Tri.or]

@[simp] theorem Tri.isIn_eq_true [DecidableEq α] (c : Option α) (vs : List α) :
    Tri.isIn c vs = some true ↔ ∃ v ∈ vs, c = some v := by
  cases c <;> simp [Tri.isIn]

@[simp] theorem Tri.isNull_eq_true (c : Option α) : Tri.isNull c = some true ↔ c = none := by
  cases c <;> simp [Tri.isNull]

@[simp] theorem Tri.notNull_eq_true (c : Option α) :
    Tri.notNull c = some true ↔ c.isSome = true := by
  cases c <;> simp [Tri.notNull]

theorem Tri.passes_of_eq_true {t : Tri} (h : t = some true) : t.passes = true := by
  rw [h]
  rfl

/-! ## Lookups -/

theorem find?_some_spec {p : α → Bool} {t : List α} {r : α} (h : t.find? p = some r) :
    r ∈ t ∧ p r = true :=
  ⟨List.mem_of_find?_eq_some h, List.find?_some h⟩

theorem mem_of_lookup [BEq α] [LawfulBEq α] {key : α} {entry : β} {cache : List (α × β)}
    (h : cache.lookup key = some entry) : (key, entry) ∈ cache := by
  obtain ⟨l, r, hsplit, -⟩ := List.lookup_eq_some_iff.mp h
  rw [hsplit]
  simp

/-- A table of values by key. -/
theorem lookup_filterMap [BEq α] [LawfulBEq α] (f : α → Option β) (keys : List α) (k : α) :
    (keys.filterMap fun k => (f k).map fun v => (k, v)).lookup k =
      if k ∈ keys then f k else none := by
  induction keys with
  | nil => rfl
  | cons other keys ih =>
    by_cases hother : k = other
    · subst hother
      rw [if_pos List.mem_cons_self]
      cases hk : f k with
      | none =>
        rw [List.filterMap_cons_none (by rw [hk]; rfl), ih, hk, ite_self]
      | some v =>
        rw [List.filterMap_cons_some (by rw [hk]; rfl), List.lookup_cons, beq_self_eq_true]
    · have hmem : k ∈ other :: keys ↔ k ∈ keys := by simp [hother]
      rw [if_congr hmem rfl rfl, ← ih]
      cases hk : f other with
      | none => rw [List.filterMap_cons_none (by rw [hk]; rfl)]
      | some v =>
        rw [List.filterMap_cons_some (by rw [hk]; rfl), List.lookup_cons,
          beq_eq_false_iff_ne.mpr hother]

/-! ## Aggregates -/

theorem le_foldr_max {l : List Nat} {n : Nat} (h : n ∈ l) : n ≤ l.foldr max 0 := by
  induction l with
  | nil => cases h
  | cons m l ih =>
    rcases List.mem_cons.mp h with rfl | h
    · exact Nat.le_max_left _ _
    · exact (ih h).trans (Nat.le_max_right _ _)

theorem foldr_max_mem (l : List Nat) : l.foldr max 0 = 0 ∨ l.foldr max 0 ∈ l := by
  induction l with
  | nil => exact .inl rfl
  | cons m l ih =>
    rw [List.foldr_cons]
    rcases max_choice m (l.foldr max 0) with hmax | hmax
    · exact .inr (by rw [hmax]; exact List.mem_cons_self)
    · rw [hmax]
      exact ih.imp id (List.mem_cons_of_mem _)

theorem foldr_max_append (l : List Nat) (n : Nat) :
    (l ++ [n]).foldr max 0 = max (l.foldr max 0) n := by
  induction l with
  | nil => simp
  | cons m l ih => rw [List.cons_append, List.foldr_cons, List.foldr_cons, ih, max_assoc]

/-- The sum of `g` over the rows `p` selects (`SELECT sum(g) FROM t WHERE p`). -/
def sumWhere (p : α → Bool) (g : α → Int) (t : List α) : Int :=
  ((t.filter p).map g).sum

@[simp] theorem sumWhere_nil (p : α → Bool) (g : α → Int) : sumWhere p g [] = 0 := rfl

theorem sumWhere_cons (p : α → Bool) (g : α → Int) (r : α) (t : List α) :
    sumWhere p g (r :: t) = (if p r then g r else 0) + sumWhere p g t := by
  cases hp : p r <;> simp [sumWhere, hp]

@[simp] theorem sumWhere_append (p : α → Bool) (g : α → Int) (t u : List α) :
    sumWhere p g (t ++ u) = sumWhere p g t + sumWhere p g u := by
  simp [sumWhere]

@[simp] theorem sumWhere_singleton (p : α → Bool) (g : α → Int) (r : α) :
    sumWhere p g [r] = if p r then g r else 0 := by
  simp [sumWhere_cons]

/-- A sum no row of which changes its share is unchanged. -/
theorem sumWhere_updateWhere_of_eq {p q : α → Bool} {f : α → α} {g : α → Int} {t : List α}
    (h : ∀ r ∈ t, q r = true →
      (if p (f r) then g (f r) else 0) = if p r then g r else 0) :
    sumWhere p g (updateWhere q f t) = sumWhere p g t := by
  induction t with
  | nil => rfl
  | cons r t ih =>
    rw [updateWhere_cons, sumWhere_cons, sumWhere_cons,
      ih fun r' hr' => h r' (by simp [hr'])]
    cases hq : q r with
    | false => simp
    | true => simp [h r (by simp) hq]

theorem sumWhere_eq_zero {p : α → Bool} {g : α → Int} {t : List α}
    (h : ∀ r ∈ t, p r = false) : sumWhere p g t = 0 := by
  have hnil : t.filter p = [] := List.filter_eq_nil_iff.mpr fun r hr => by simp [h r hr]
  simp [sumWhere, hnil]

theorem sumWhere_nonneg {p : α → Bool} {g : α → Int} {t : List α}
    (h : ∀ r ∈ t, p r = true → 0 ≤ g r) : 0 ≤ sumWhere p g t := by
  induction t with
  | nil => simp
  | cons r t ih =>
    rw [sumWhere_cons]
    have hrest := ih fun r' hr' => h r' (by simp [hr'])
    cases hp : p r with
    | false => simpa using hrest
    | true =>
      have := h r (by simp) hp
      simp only [if_true]
      omega

/-- One row's share is at most the whole sum. -/
theorem le_sumWhere_of_mem {p : α → Bool} {g : α → Int} {t : List α} {r : α}
    (h : ∀ r ∈ t, p r = true → 0 ≤ g r) (hr : r ∈ t) (hp : p r = true) :
    g r ≤ sumWhere p g t := by
  induction t with
  | nil => cases hr
  | cons a t ih =>
    rw [sumWhere_cons]
    have hrest : 0 ≤ sumWhere p g t :=
      sumWhere_nonneg fun r' hr' => h r' (by simp [hr'])
    rcases List.mem_cons.mp hr with rfl | hmem
    · simp only [hp, if_true]
      omega
    · have hle := ih (fun r' hr' => h r' (by simp [hr'])) hmem
      have ha : 0 ≤ if p a then g a else 0 := by
        cases hpa : p a with
        | false => simp
        | true => simpa using h a (by simp) hpa
      omega

/-! ## Primary keys -/

/-- No two rows share a key: the primary-key constraint of a table. -/
def KeyUnique (key : α → β) (t : List α) : Prop := (t.map key).Nodup

instance [DecidableEq β] (key : α → β) (t : List α) : Decidable (KeyUnique key t) :=
  inferInstanceAs (Decidable (t.map key).Nodup)

theorem KeyUnique.nil (key : α → β) : KeyUnique key ([] : List α) := List.nodup_nil

theorem KeyUnique.eq_of_mem {key : α → β} {t : List α} (hu : KeyUnique key t)
    {r s : α} (hr : r ∈ t) (hs : s ∈ t) (hk : key r = key s) : r = s :=
  List.inj_on_of_nodup_map hu hr hs hk

theorem KeyUnique.append_singleton {key : α → β} {t : List α} {r : α}
    (hu : KeyUnique key t) (hfresh : ∀ s ∈ t, key s ≠ key r) :
    KeyUnique key (t ++ [r]) := by
  unfold KeyUnique at *
  rw [List.map_append, List.nodup_append]
  refine ⟨hu, by simp, ?_⟩
  intro a ha b hb hab
  obtain ⟨s, hs, rfl⟩ := List.mem_map.mp ha
  simp only [List.map_cons, List.map_nil, List.mem_singleton] at hb
  exact hfresh s hs (hab.trans hb)

theorem KeyUnique.updateWhere {key : α → β} {t : List α} {p : α → Bool} {f : α → α}
    (hu : KeyUnique key t) (hk : ∀ r ∈ t, p r = true → key (f r) = key r) :
    KeyUnique key (updateWhere p f t) := by
  unfold KeyUnique at *
  rw [map_updateWhere_of_eq hk]
  exact hu

/-- With a unique key, looking a row up by its key finds that row. -/
theorem KeyUnique.find?_eq_some {key : α → β} [DecidableEq β] {t : List α}
    (hu : KeyUnique key t) {r : α} (hr : r ∈ t) :
    t.find? (fun s => decide (key s = key r)) = some r := by
  cases h : t.find? (fun s => decide (key s = key r)) with
  | none => simpa using List.find?_eq_none.mp h r hr
  | some s =>
    obtain ⟨hs, hks⟩ := find?_some_spec h
    rw [hu.eq_of_mem hs hr (by simpa using hks)]

/-- With a unique key, a predicate that holds of one row and of no other key
affects exactly one row. -/
theorem KeyUnique.affected_eq_one {key : α → β} {t : List α} {p : α → Bool} {r : α}
    (hu : KeyUnique key t) (hr : r ∈ t) (hp : p r = true)
    (honly : ∀ s ∈ t, p s = true → key s = key r) : affected p t = 1 := by
  induction t with
  | nil => cases hr
  | cons a t ih =>
    have hnd : key a ∉ t.map key ∧ KeyUnique key t := by
      simpa [KeyUnique] using hu
    unfold affected at *
    rcases List.mem_cons.mp hr with rfl | hmem
    · have hzero : t.countP p = 0 := by
        refine List.countP_eq_zero.mpr fun s hs hps => ?_
        exact hnd.1 (List.mem_map.mpr ⟨s, hs, honly s (by simp [hs]) hps⟩)
      rw [List.countP_cons_of_pos hp, hzero]
    · have hpa : ¬ p a = true := fun hpa =>
        hnd.1 (List.mem_map.mpr ⟨r, hmem, (honly a (by simp) hpa).symm⟩)
      rw [List.countP_cons_of_neg hpa]
      exact ih hnd.2 hmem fun s hs => honly s (by simp [hs])

/-- With a unique key, a predicate that holds of one row and of no other key selects
that row. -/
theorem KeyUnique.filter_eq {key : α → β} {t : List α} {p : α → Bool} {r : α}
    (hu : KeyUnique key t) (hr : r ∈ t) (hp : p r = true)
    (honly : ∀ s ∈ t, p s = true → key s = key r) : t.filter p = [r] := by
  have hlength : (t.filter p).length = 1 :=
    List.countP_eq_length_filter.symm.trans (hu.affected_eq_one hr hp honly)
  obtain ⟨s, hs⟩ := List.length_eq_one_iff.mp hlength
  have hmem : r ∈ t.filter p := List.mem_filter.mpr ⟨hr, hp⟩
  rw [hs, List.mem_singleton] at hmem
  rw [hs, hmem]

/-- **The balance law of an update.** Rewriting the one row with key `key r`
moves the aggregate by the difference of that row's shares. -/
theorem sumWhere_updateWhere {key : α → β} {p q : α → Bool} {f : α → α} {g : α → Int}
    {t : List α} {r : α} (hu : KeyUnique key t) (hr : r ∈ t) (hq : q r = true)
    (honly : ∀ s ∈ t, q s = true → key s = key r) :
    sumWhere p g (updateWhere q f t) =
      sumWhere p g t - (if p r then g r else 0) + (if p (f r) then g (f r) else 0) := by
  induction t with
  | nil => cases hr
  | cons a t ih =>
    have hnd : key a ∉ t.map key ∧ KeyUnique key t := by
      simpa [KeyUnique] using hu
    rw [updateWhere_cons, sumWhere_cons, sumWhere_cons]
    rcases List.mem_cons.mp hr with rfl | hmem
    · -- the row is the head: the tail holds no other row with its key
      have htail : updateWhere q f t = t := by
        refine updateWhere_eq_self fun s hs => ?_
        cases hqs : q s with
        | false => rfl
        | true =>
          have hks := honly s (by simp [hs]) hqs
          exact absurd (List.mem_map.mpr ⟨s, hs, hks⟩) hnd.1
      rw [htail, hq]
      simp only [if_true]
      omega
    · have hqa : q a = false := by
        cases hqa : q a with
        | false => rfl
        | true =>
          have hka := honly a (by simp) hqa
          exact absurd (List.mem_map.mpr ⟨r, hmem, hka.symm⟩) hnd.1
      rw [ih hnd.2 hmem fun s hs => honly s (by simp [hs]), hqa]
      simp only [Bool.false_eq_true, if_false]
      omega

/-! ## Evolution -/

/-- Every row of `t` is still in `t'`, in a form `R` relates to the old one.
Inserts and updates within `R` are of this shape, so facts about a row that
`R` keeps hold of its descendant for ever. -/
def Evolves (R : α → α → Prop) (t t' : List α) : Prop := ∀ r ∈ t, ∃ r' ∈ t', R r r'

theorem Evolves.refl {R : α → α → Prop} (hR : ∀ r, R r r) (t : List α) : Evolves R t t :=
  fun r hr => ⟨r, hr, hR r⟩

theorem Evolves.insert {R : α → α → Prop} (hR : ∀ r, R r r) (t new : List α) :
    Evolves R t (t ++ new) :=
  fun r hr => ⟨r, List.mem_append_left new hr, hR r⟩

theorem Evolves.update {R : α → α → Prop} {p : α → Bool} {f : α → α} {t : List α}
    (hR : ∀ r, R r r) (h : ∀ r ∈ t, p r = true → R r (f r)) :
    Evolves R t (updateWhere p f t) := by
  intro r hr
  cases hp : p r with
  | false => exact ⟨r, mem_updateWhere_of_not hr hp, hR r⟩
  | true => exact ⟨f r, mem_updateWhere_of_pos hr hp, h r hr hp⟩

theorem Evolves.trans {R : α → α → Prop} (hR : ∀ a b c, R a b → R b c → R a c)
    {t u v : List α} (h₁ : Evolves R t u) (h₂ : Evolves R u v) : Evolves R t v := by
  intro r hr
  obtain ⟨s, hs, hrs⟩ := h₁ r hr
  obtain ⟨w, hw, hsw⟩ := h₂ s hs
  exact ⟨w, hw, hR r s w hrs hsw⟩

/-! ## Transactions -/

/-- A transaction that commits committed all of its statements. -/
theorem bind_ok {ε α β : Type} {x : Except ε α} {f : α → Except ε β} {b : β}
    (h : (x >>= f) = .ok b) : ∃ a, x = .ok a ∧ f a = .ok b := by
  cases x with
  | error e => cases h
  | ok a => exact ⟨a, rfl, h⟩

theorem bind_ok_iff {ε α β : Type} {x : Except ε α} {f : α → Except ε β} {b : β} :
    (x >>= f) = .ok b ↔ ∃ a, x = .ok a ∧ f a = .ok b := by
  refine ⟨bind_ok, ?_⟩
  rintro ⟨a, rfl, hf⟩
  exact hf

theorem exists_mapM_ok {α β ε : Type} {f : α → Except ε β} {xs : List α} :
    (∃ ys, xs.mapM f = .ok ys) ↔ ∀ x ∈ xs, ∃ y, f x = .ok y := by
  induction xs with
  | nil => exact ⟨fun _ x hx => absurd hx List.not_mem_nil, fun _ => ⟨[], rfl⟩⟩
  | cons x xs ih =>
    simp only [List.mapM_cons, bind_ok_iff, List.forall_mem_cons, ← ih]
    constructor
    · rintro ⟨_, y, hy, ys, hys, -⟩
      exact ⟨⟨y, hy⟩, ys, hys⟩
    · rintro ⟨⟨y, hy⟩, ys, hys⟩
      exact ⟨_, y, hy, ys, hys, rfl⟩

/-- What the results show of their inputs. -/
theorem map_of_mapM_ok {α β γ ε : Type} {f : α → Except ε β} {g : β → γ} {k : α → γ}
    {xs : List α} {ys : List β} (h : xs.mapM f = .ok ys)
    (hf : ∀ x ∈ xs, ∀ y, f x = .ok y → g y = k x) : ys.map g = xs.map k := by
  induction xs generalizing ys with
  | nil =>
    cases h
    rfl
  | cons x xs ih =>
    rw [List.mapM_cons] at h
    obtain ⟨y, hy, h⟩ := bind_ok h
    obtain ⟨rest, hrest, h⟩ := bind_ok h
    cases h
    rw [List.map_cons, List.map_cons, hf x List.mem_cons_self y hy,
      ih hrest fun x' hx' => hf x' (List.mem_cons_of_mem x hx')]

theorem mem_of_mapM_ok {α β ε : Type} {f : α → Except ε β} {xs : List α} {ys : List β}
    (h : xs.mapM f = .ok ys) {y : β} (hy : y ∈ ys) : ∃ x ∈ xs, f x = .ok y := by
  induction xs generalizing ys with
  | nil =>
    cases h
    cases hy
  | cons x xs ih =>
    rw [List.mapM_cons] at h
    obtain ⟨z, hz, h⟩ := bind_ok h
    obtain ⟨zs, hzs, h⟩ := bind_ok h
    cases h
    rcases List.mem_cons.mp hy with rfl | hy
    · exact ⟨x, List.mem_cons_self, hz⟩
    · obtain ⟨w, hw, hfw⟩ := ih hzs hy
      exact ⟨w, List.mem_cons_of_mem x hw, hfw⟩

theorem mapM_append_ok {α β ε : Type} {f : α → Except ε β} {xs ys : List α} {zs : List β} :
    (xs ++ ys).mapM f = .ok zs ↔
      ∃ as, xs.mapM f = .ok as ∧ ∃ bs, ys.mapM f = .ok bs ∧ as ++ bs = zs := by
  rw [List.mapM_append]
  simp only [bind_ok_iff]
  constructor
  · rintro ⟨as, has, bs, hbs, h⟩
    exact ⟨as, has, bs, hbs, Except.ok.inj h⟩
  · rintro ⟨as, has, bs, hbs, rfl⟩
    exact ⟨as, has, bs, hbs, rfl⟩

theorem bind_error {ε α β : Type} {x : Except ε α} {f : α → Except ε β} {e : ε}
    (h : (x >>= f) = .error e) : x = .error e ∨ ∃ a, x = .ok a ∧ f a = .error e := by
  cases x with
  | error e' =>
    cases h
    exact .inl rfl
  | ok a => exact .inr ⟨a, rfl, h⟩

theorem map_ok {ε α β : Type} {x : Except ε α} {f : α → β} {b : β}
    (h : x.map f = .ok b) : ∃ a, x = .ok a ∧ f a = b := by
  cases x with
  | error e => cases h
  | ok a => exact ⟨a, rfl, by cases h; rfl⟩

theorem map_error {ε α β : Type} {x : Except ε α} {f : α → β} {e : ε}
    (h : x.map f = .error e) : x = .error e := by
  cases x with
  | error e' => cases h; rfl
  | ok a => cases h

end CommercePlayground.Lib
