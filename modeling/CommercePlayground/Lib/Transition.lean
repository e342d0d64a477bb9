/-
CommercePlayground.Lib.Transition — runs of a labelled step function.

`step s a = some t` is one atomic step of label `a`; `none` means that the
label is not enabled in `s`. A run may be restricted by a condition
`ok s a` on the label and the state before the step: `Reach step ok s t`
says that some run whose steps all meet `ok` leads from `s` to `t`. The
rules are the two inductions every safety proof of the development uses:
`Reach.invariant` (one state) and `Reach.relates` (a reflexive, transitive
relation between the two ends), and `reach_of_run` for concrete runs.
-/
import Mathlib.Logic.Basic

namespace CommercePlayground.Lib

variable {σ ι : Type}

/-- Some run from `s` to `t`, every step of which meets `ok`. -/
inductive Reach (step : σ → ι → Option σ) (ok : σ → ι → Prop) (s : σ) : σ → Prop where
  | refl : Reach step ok s s
  | tail {t u : σ} {a : ι} :
      Reach step ok s t → ok t a → step t a = some u → Reach step ok s u

variable {step : σ → ι → Option σ} {ok : σ → ι → Prop} {s t u : σ}

theorem Reach.trans (h₁ : Reach step ok s t) (h₂ : Reach step ok t u) :
    Reach step ok s u := by
  induction h₂ with
  | refl => exact h₁
  | tail _ hok hstep ih => exact Reach.tail ih hok hstep

/-- What holds at the start and is kept by every permitted step holds in
every state reached. -/
theorem Reach.invariant {I : σ → Prop} (h : Reach step ok s t) (h0 : I s)
    (hstep : ∀ t a u, I t → ok t a → step t a = some u → I u) : I t := by
  induction h with
  | refl => exact h0
  | tail _ hok hs ih => exact hstep _ _ _ ih hok hs

/-- A reflexive, transitive relation that every permitted step from an
invariant state respects relates the two ends of a run. -/
theorem Reach.relates {I : σ → Prop} {R : σ → σ → Prop} (h : Reach step ok s t) (h0 : I s)
    (hstep : ∀ t a u, I t → ok t a → step t a = some u → I u)
    (hrefl : ∀ t, R t t) (htrans : ∀ a b c, R a b → R b c → R a c)
    (hR : ∀ t a u, I t → ok t a → step t a = some u → R t u) : R s t := by
  induction h with
  | refl => exact hrefl s
  | tail hr hok hs ih =>
    exact htrans _ _ _ ih (hR _ _ _ (hr.invariant h0 hstep) hok hs)

/-- A run under a condition is a run under any weaker one. -/
theorem Reach.weaken {ok' : σ → ι → Prop} (h : Reach step ok s t)
    (hw : ∀ t a, ok t a → ok' t a) : Reach step ok' s t := by
  induction h with
  | refl => exact Reach.refl
  | tail _ hok hs ih => exact Reach.tail ih (hw _ _ hok) hs

/-- The run of a list of labels. -/
def run (step : σ → ι → Option σ) : σ → List ι → Option σ
  | s, [] => some s
  | s, a :: as => (step s a).bind fun t => run step t as

/-- The run of a list of labels, stopped where a step breaks the condition. -/
def runWhere (step : σ → ι → Option σ) (ok : σ → ι → Bool) : σ → List ι → Option σ
  | s, [] => some s
  | s, a :: as => if ok s a then (step s a).bind fun t => runWhere step ok t as else none

/-- A concrete run that meets its condition. -/
theorem reach_of_runWhere {ok : σ → ι → Bool} {as : List ι}
    (h : runWhere step ok s as = some t) : Reach step (fun s a => ok s a = true) s t := by
  induction as generalizing s with
  | nil =>
    simp only [runWhere, Option.some.injEq] at h
    subst h
    exact Reach.refl
  | cons a as ih =>
    simp only [runWhere] at h
    split at h
    · rename_i hok
      obtain ⟨v, hv, hrest⟩ := Option.bind_eq_some_iff.mp h
      exact Reach.trans (Reach.tail Reach.refl hok hv) (ih hrest)
    · cases h

/-- A concrete run of labels that meet the condition in every state. -/
theorem reach_of_run_all {as : List ι} (h : run step s as = some t)
    (hok : ∀ a ∈ as, ∀ v, ok v a) : Reach step ok s t := by
  induction as generalizing s with
  | nil =>
    simp only [run, Option.some.injEq] at h
    subst h
    exact Reach.refl
  | cons a as ih =>
    simp only [run, Option.bind_eq_some_iff] at h
    obtain ⟨v, hv, hrest⟩ := h
    exact Reach.trans (Reach.tail Reach.refl (hok a (by simp) s) hv)
      (ih hrest fun b hb => hok b (by simp [hb]))

/-- A concrete run is a run without conditions. -/
theorem reach_of_run {as : List ι} (h : run step s as = some t) :
    Reach step (fun _ _ => True) s t :=
  reach_of_run_all h fun _ _ _ => trivial

end CommercePlayground.Lib
