/-
CommercePlayground.Lib.Rows — two tables compared row by row, and sums over one
table bounded by sums over another.

* `Rewrites R t t'`: `t'` has the rows of `t`, each rewritten as `R` allows.
* `sum_le_sumWhere_of_keys`: rows of one table that each point at a row of their own
  in another weigh no more than that other table.
* `sumWhere_le_sum_of_cover`: rows that are each counted in some class weigh no more
  than all the classes together.
* `Replaces.countP`, `Replaces.of_map`: what rewriting one row does to a count, and to a
  table that is another one read through a function.
* `newest`: the last row of every key, and how many there are of one (`countP_newest`).
-/
import CommercePlayground.Lib.Table
import Mathlib.Data.List.Perm.Subperm
import Mathlib.Algebra.Order.BigOperators.Group.List

namespace CommercePlayground.Lib

variable {α β γ κ : Type}

/-! ## Rewriting a table -/

/-- Every row is rewritten in its place; none is inserted or deleted. -/
def Rewrites (R : α → α → Prop) (t t' : List α) : Prop := List.Forall₂ R t t'

section Rewrites

variable {R : α → α → Prop} {t t' t'' : List α}

theorem Rewrites.refl (hR : ∀ r, R r r) (t : List α) : Rewrites R t t :=
  List.forall₂_same.mpr fun r _ => hR r

theorem Rewrites.trans (hR : ∀ a b c, R a b → R b c → R a c) (h₁ : Rewrites R t t')
    (h₂ : Rewrites R t' t'') : Rewrites R t t'' := by
  unfold Rewrites at *
  induction h₁ generalizing t'' with
  | nil =>
    cases h₂
    exact .nil
  | cons hr _ ih =>
    cases h₂ with
    | cons hr' h₂ => exact .cons (hR _ _ _ hr hr') (ih h₂)

theorem Rewrites.update {p : α → Bool} {f : α → α} (hR : ∀ r, R r r)
    (h : ∀ r, p r = true → R r (f r)) : Rewrites R t (updateWhere p f t) := by
  refine List.forall₂_map_right_iff.mpr (List.forall₂_same.mpr fun r _ => ?_)
  split
  · rename_i hp
    exact h r hp
  · exact hR r

/-- Every row has a successor. -/
theorem Rewrites.evolves (h : Rewrites R t t') : Evolves R t t' := by
  unfold Rewrites at h
  induction h with
  | nil => exact nofun
  | cons hr _ ih =>
    intro x hx
    rcases List.mem_cons.mp hx with rfl | hx
    · exact ⟨_, List.mem_cons_self, hr⟩
    · obtain ⟨y, hy, hxy⟩ := ih x hx
      exact ⟨y, List.mem_cons_of_mem _ hy, hxy⟩

/-- Every row has a predecessor. -/
theorem Rewrites.back (h : Rewrites R t t') : ∀ r' ∈ t', ∃ r ∈ t, R r r' :=
  Rewrites.evolves (R := fun a b => R b a) (List.Forall₂.flip h)

end Rewrites

/-! ## Sums -/

/-- Rows with keys of their own, each found under its key in another table with its
weight, weigh no more than what is found there. -/
theorem sum_le_sumWhere_of_keys {xs : List α} {rs : List β} {k : α → κ} (key : β → κ)
    {w : α → Int} {g : β → Int} {p : β → Bool} (hk : (xs.map k).Nodup)
    (hx : ∀ x ∈ xs, ∃ r ∈ rs, key r = k x ∧ p r = true ∧ g r = w x)
    (hg : ∀ r ∈ rs, p r = true → 0 ≤ g r) : (xs.map w).sum ≤ sumWhere p g rs := by
  rcases xs.eq_nil_or_concat with rfl | ⟨ys, y, rfl⟩
  · exact sumWhere_nonneg hg
  have : Nonempty β := ⟨(hx y (by simp)).choose⟩
  -- the row each of them points at
  choose! f hmem hkey hp hw using hx
  generalize ys.concat y = xs at *
  have hnodup : (xs.map f).Nodup := by
    refine List.Nodup.of_map key ?_
    have hkeys : xs.map (key ∘ f) = xs.map k := List.map_congr_left hkey
    rw [List.map_map, hkeys]
    exact hk
  have hsub : xs.map f ⊆ rs.filter p := by
    intro r hr
    obtain ⟨x, hx, rfl⟩ := List.mem_map.mp hr
    exact List.mem_filter.mpr ⟨hmem x hx, hp x hx⟩
  obtain ⟨l, hperm, hl⟩ := hnodup.subperm hsub
  have hsum : (xs.map w).sum = (l.map g).sum := by
    rw [(hperm.map g).sum_eq, List.map_map]
    exact congrArg List.sum (List.map_congr_left fun x hx => (hw x hx).symm)
  rw [hsum, sumWhere]
  refine (hl.map g).sum_le_sum fun a ha => ?_
  obtain ⟨r, hr, rfl⟩ := List.mem_map.mp ha
  obtain ⟨hr, hpr⟩ := List.mem_filter.mp hr
  exact hg r hr hpr

/-- Rows that are each counted in some class weigh no more than the classes do. -/
theorem sumWhere_le_sum_of_cover {rs : List α} {ss : List β} {p : α → Bool}
    {q : β → α → Bool} {g : α → Int} (hcover : ∀ r ∈ rs, p r = true → ∃ s ∈ ss, q s r = true)
    (hg : ∀ r ∈ rs, 0 ≤ g r) :
    sumWhere p g rs ≤ (ss.map fun s => sumWhere (q s) g rs).sum := by
  induction rs with
  | nil => simp
  | cons r rs ih =>
    have hrest := ih (fun x hx => hcover x (List.mem_cons_of_mem _ hx))
      fun x hx => hg x (List.mem_cons_of_mem _ hx)
    have hr := hg r List.mem_cons_self
    simp only [sumWhere_cons, List.sum_map_add]
    refine add_le_add ?_ hrest
    have hnonneg : ∀ n ∈ ss.map fun s => if q s r then g r else 0, 0 ≤ n := by
      intro n hn
      obtain ⟨s, -, rfl⟩ := List.mem_map.mp hn
      split
      · exact hr
      · exact le_rfl
    split
    · rename_i hp
      obtain ⟨s, hs, hq⟩ := hcover r List.mem_cons_self hp
      refine List.single_le_sum hnonneg _ (List.mem_map.mpr ⟨s, hs, ?_⟩)
      rw [if_pos hq]
    · exact List.sum_nonneg hnonneg

/-! ## One row rewritten -/

theorem KeyUnique.nodup {key : α → κ} {t : List α} (h : KeyUnique key t) : t.Nodup :=
  List.Nodup.of_map key h

/-- Two tables with the same rows of a kind have as many of them. -/
theorem countP_eq_of_mem {key : α → κ} {p : α → Bool} {t t' : List α} (ht : KeyUnique key t)
    (ht' : KeyUnique key t') (h : ∀ r ∈ t, p r = true → r ∈ t')
    (h' : ∀ r ∈ t', p r = true → r ∈ t) : t.countP p = t'.countP p := by
  rw [List.countP_eq_length_filter, List.countP_eq_length_filter]
  refine ((List.perm_ext_iff_of_nodup (ht.nodup.filter p) (ht'.nodup.filter p)).mpr
    fun r => ?_).length_eq
  simp only [List.mem_filter]
  exact ⟨fun hr => ⟨h r hr.1 hr.2, hr.2⟩, fun hr => ⟨h' r hr.1 hr.2, hr.2⟩⟩

theorem Replaces.countP {r r' : α} {t t' : List α} (h : Replaces r r' t t') (p : α → Bool) :
    t'.countP p + (if p r then 1 else 0) = t.countP p + (if p r' then 1 else 0) := by
  obtain ⟨l₁, l₂, rfl, rfl⟩ := h
  simp only [List.countP_append, List.countP_cons]
  omega

theorem Replaces.set {r r' : α} {t : List α} {i : Nat} (h : t[i]? = some r) :
    Replaces r r' t (t.set i r') := by
  obtain ⟨hi, rfl⟩ := List.getElem?_eq_some_iff.mp h
  refine ⟨t.take i, t.drop (i + 1), ?_, List.set_eq_take_append_cons_drop.trans (if_pos hi)⟩
  rw [← List.drop_eq_getElem_cons hi, List.take_append_drop]

/-- A table read through `f` in which one row is rewritten is the table read through
`g`, if `g` differs from `f` at the key of that row only. -/
theorem Replaces.of_map {key : α → κ} {f g : α → β} {t : List α} {t' : List β} {r r' : β}
    (h : Replaces r r' (t.map f) t') (hu : KeyUnique key t)
    (hnew : ∀ q ∈ t, f q = r → g q = r')
    (hsame : ∀ q ∈ t, f q = r → ∀ x ∈ t, key x ≠ key q → g x = f x) : t' = t.map g := by
  obtain ⟨l₁, l₂, hold, rfl⟩ := h
  obtain ⟨a, b, rfl, rfl, hb⟩ := List.map_eq_append_iff.mp hold
  obtain ⟨q, c, rfl, hq, rfl⟩ := List.map_eq_cons_iff.mp hb
  have hmem : q ∈ a ++ q :: c := by simp
  have hkeys : ∀ x, x ∈ a ∨ x ∈ c → key x ≠ key q := by
    have hnd := hu
    simp only [KeyUnique, List.map_append, List.map_cons, List.nodup_append,
      List.nodup_cons, List.mem_map, List.mem_cons] at hnd
    obtain ⟨-, ⟨hqc, -⟩, hac⟩ := hnd
    rintro x (hx | hx) heq
    · exact hac _ ⟨x, hx, rfl⟩ _ (.inl rfl) heq
    · exact hqc ⟨x, hx, heq⟩
  rw [List.map_append, List.map_cons, hnew q hmem hq]
  congr 1
  · exact List.map_congr_left fun x hx =>
      (hsame q hmem hq x (by simp [hx]) (hkeys x (.inl hx))).symm
  · congr 1
    exact List.map_congr_left fun x hx =>
      (hsame q hmem hq x (by simp [hx]) (hkeys x (.inr hx))).symm

/-! ## The newest rows -/

/-- A row is kept unless a later one has its key. -/
def newest [DecidableEq κ] (key : α → κ) : List α → List α
  | [] => []
  | r :: t =>
    if t.any fun r' => decide (key r' = key r) then newest key t else r :: newest key t

/-- One row of every key that is there, none of any other. -/
theorem countP_newest [DecidableEq κ] (key : α → κ) (t : List α) (k : κ) :
    (newest key t).countP (fun r => decide (key r = k)) =
      if t.any fun r => decide (key r = k) then 1 else 0 := by
  induction t with
  | nil => rfl
  | cons r t ih =>
    unfold newest
    by_cases hk : key r = k
    · subst hk
      by_cases hany : (t.any fun r' => decide (key r' = key r)) = true
      · rw [if_pos hany, ih, if_pos hany]
        simp
      · rw [if_neg hany, List.countP_cons, ih, if_neg hany]
        simp
    · have hskip : (newest key t).countP (fun r => decide (key r = k)) =
          (r :: newest key t).countP fun r => decide (key r = k) := by simp [hk]
      simp only [List.any_cons, hk, decide_false, Bool.false_or]
      rw [← ih]
      split
      · rfl
      · exact hskip.symm

end CommercePlayground.Lib
