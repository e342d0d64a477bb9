/-
CommercePlayground.Lib.Program — programs that act through effects, and what
they know.

A program is a tree: it is done, or it performs one effect and goes on with
the effect's result. Nothing is said about what the effects do, so a program
can be run one effect at a time, in any interleaving with others.

A program learns from the results of its effects, and it may only perform an
effect when it knows enough. `Contract` says, for each effect, what has to be
known (`needs`), which results are possible (`allows`) and which facts a
result teaches (`learns`). `Safe` says that a program that starts with the
facts `K` meets every need on every path. Facts are never forgotten: whoever
runs the program has to see to it that a fact, once it holds, goes on holding.

* `safe_bind`, `Safe.imp`, `Safe.mono`, `Safe.grows`: sequencing, weaker
  postconditions, more knowledge, and that knowledge only grows.
* `Ensures`: the same for programs that may fail, whose errors carry no facts.
* `Sound`: a program that may fail is safe, and nothing is said of its result.

`Ran` is the other view of a program: one run of it, with the effects it
performed and their results in order (`ran_bind`, `ran_attempt`).
-/
import Mathlib.Data.Set.Basic

namespace CommercePlayground.Lib

variable {E : Type} {R : E → Type} {F : Type} {α β ε : Type}

/-! ## Programs -/

/-- A program over the effects `E` with results `R`. -/
inductive Prog (E : Type) (R : E → Type) (α : Type) where
  | done (a : α)
  | perform (e : E) (k : R e → Prog E R α)

namespace Prog

/-- Sequencing. -/
def bind : Prog E R α → (α → Prog E R β) → Prog E R β
  | .done a, f => f a
  | .perform e k, f => .perform e fun r => (k r).bind f

instance : Monad (Prog E R) where
  pure := .done
  bind := Prog.bind

/-- A single effect. -/
def lift (e : E) : Prog E R (R e) := .perform e .done

end Prog

/-- Run a program that may fail and go on with its outcome, whatever it is. -/
def attempt (x : ExceptT ε (Prog E R) α) : ExceptT ε (Prog E R) (Except ε α) :=
  ExceptT.lift x.run

/-! ## Contracts -/

/-- What each effect needs, what it can answer and what the answer teaches. -/
structure Contract (E : Type) (R : E → Type) (F : Type) where
  needs : E → Set F → Prop
  allows : (e : E) → R e → Prop
  learns : (e : E) → R e → Set F
  /-- Knowing more never hurts. -/
  needs_mono : ∀ {e : E} {K K' : Set F}, K ⊆ K' → needs e K → needs e K'

/-- Started with the facts `K`, the program meets every need, and ends in a
result and a knowledge that satisfy `Q`. -/
def Safe (c : Contract E R F) : Prog E R α → Set F → (α → Set F → Prop) → Prop
  | .done a, K, Q => Q a K
  | .perform e k, K, Q =>
    c.needs e K ∧ ∀ r, c.allows e r → Safe c (k r) (K ∪ c.learns e r) Q

variable {c : Contract E R F} {K K' : Set F}

/-- Sequencing: the second program starts with what the first one learned. -/
theorem safe_bind {p : Prog E R α} {f : α → Prog E R β} {Q : β → Set F → Prop} :
    Safe c (p >>= f) K Q ↔ Safe c p K fun a K' => Safe c (f a) K' Q := by
  induction p generalizing K with
  | done a => exact Iff.rfl
  | perform e k ih =>
    constructor
    · rintro ⟨hneeds, hk⟩
      exact ⟨hneeds, fun r hr => (ih r).mp (hk r hr)⟩
    · rintro ⟨hneeds, hk⟩
      exact ⟨hneeds, fun r hr => (ih r).mpr (hk r hr)⟩

theorem Safe.imp {p : Prog E R α} {P Q : α → Set F → Prop} (h : Safe c p K P)
    (hPQ : ∀ a K', P a K' → Q a K') : Safe c p K Q := by
  induction p generalizing K with
  | done a => exact hPQ a K h
  | perform e k ih => exact ⟨h.1, fun r hr => ih r (h.2 r hr)⟩

/-- A program that is safe stays so with more knowledge, if the
postcondition does not mind. -/
theorem Safe.mono {p : Prog E R α} {Q : α → Set F → Prop} (h : Safe c p K Q) (hK : K ⊆ K')
    (hQ : ∀ a L L', L ⊆ L' → Q a L → Q a L') : Safe c p K' Q := by
  induction p generalizing K K' with
  | done a => exact hQ a K K' hK h
  | perform e k ih =>
    refine ⟨c.needs_mono hK h.1, fun r hr => ih r (h.2 r hr) ?_⟩
    exact Set.union_subset_union_left _ hK

/-- Knowledge only grows. -/
theorem Safe.grows {p : Prog E R α} {Q : α → Set F → Prop} (h : Safe c p K Q) :
    Safe c p K fun a K' => K ⊆ K' ∧ Q a K' := by
  induction p generalizing K with
  | done a => exact ⟨Set.Subset.rfl, h⟩
  | perform e k ih =>
    refine ⟨h.1, fun r hr => (ih r (h.2 r hr)).imp ?_⟩
    rintro a K' ⟨hsub, hQ⟩
    exact ⟨Set.subset_union_left.trans hsub, hQ⟩

/-- Sequencing with the intermediate knowledge at hand. -/
theorem Safe.bind {p : Prog E R α} {f : α → Prog E R β} {P : α → Set F → Prop}
    {Q : β → Set F → Prop} (hp : Safe c p K P)
    (hf : ∀ a K', K ⊆ K' → P a K' → Safe c (f a) K' Q) : Safe c (p >>= f) K Q := by
  rw [safe_bind]
  refine hp.grows.imp ?_
  rintro a K' ⟨hsub, hP⟩
  exact hf a K' hsub hP

/-! ## Programs that may fail -/

/-- A program that may fail is safe, and what it returns satisfies `P`. An
error says nothing. -/
def Ensures (c : Contract E R F) (x : ExceptT ε (Prog E R) α) (K : Set F)
    (P : α → Set F → Prop) : Prop :=
  Safe c x.run K fun r K' => ∀ a, r = .ok a → P a K'

section Ensures

variable {x : ExceptT ε (Prog E R) α} {P : α → Set F → Prop} {Q : β → Set F → Prop}

theorem Ensures.imp {P' : α → Set F → Prop} (h : Ensures c x K P)
    (hP : ∀ a K', P a K' → P' a K') : Ensures c x K P' :=
  Safe.imp h fun _ K' hr a ha => hP a K' (hr a ha)

theorem Ensures.mono (h : Ensures c x K P) (hK : K ⊆ K')
    (hP : ∀ a L L', L ⊆ L' → P a L → P a L') : Ensures c x K' P :=
  Safe.mono h hK fun _ L L' hL hr a ha => hP a L L' hL (hr a ha)

theorem Ensures.pure {a : α} (h : P a K) :
    Ensures c (pure a : ExceptT ε (Prog E R) α) K P := by
  intro b hb
  cases hb
  exact h

theorem Ensures.error {e : ε} :
    Ensures c (ExceptT.mk (Prog.done (.error e)) : ExceptT ε (Prog E R) α) K P := by
  intro a ha
  cases ha

/-- `x?; f`: an error ends the program. -/
theorem Ensures.bind {f : α → ExceptT ε (Prog E R) β} (hx : Ensures c x K P)
    (hf : ∀ a K', K ⊆ K' → P a K' → Ensures c (f a) K' Q) : Ensures c (x >>= f) K Q := by
  refine Safe.bind hx ?_
  intro r K' hsub hP
  cases r with
  | ok a => exact hf a K' hsub (hP a rfl)
  | error e => exact Ensures.error

/-- `match x { Ok(a) => …, Err(e) => … }`. -/
theorem Ensures.attempt {f : Except ε α → ExceptT ε (Prog E R) β} (hx : Ensures c x K P)
    (hok : ∀ a K', K ⊆ K' → P a K' → Ensures c (f (.ok a)) K' Q)
    (herr : ∀ e K', K ⊆ K' → Ensures c (f (.error e)) K' Q) :
    Ensures c (Lib.attempt x >>= f) K Q := by
  refine Ensures.bind (P := fun r K' => K ⊆ K' ∧ ∀ a, r = .ok a → P a K') ?_ ?_
  · refine Safe.bind hx ?_
    intro r K' hsub hP r' hr'
    cases hr'
    exact ⟨hsub, hP⟩
  · rintro r K' - ⟨hsub, hP⟩
    cases r with
    | ok a => exact hok a K' hsub (hP a rfl)
    | error e => exact herr e K' hsub

theorem Ensures.ite {b : Prop} [Decidable b] {y : ExceptT ε (Prog E R) α}
    (hx : b → Ensures c x K P) (hy : ¬ b → Ensures c y K P) :
    Ensures c (if b then x else y) K P := by
  by_cases h : b
  · rw [if_pos h]
    exact hx h
  · rw [if_neg h]
    exact hy h

/-- The program is safe; its result may be anything. -/
def Sound (c : Contract E R F) (x : ExceptT ε (Prog E R) α) (K : Set F) : Prop :=
  Ensures c x K fun _ _ => True

theorem Ensures.sound (h : Ensures c x K P) : Sound c x K := h.imp fun _ _ _ => trivial

theorem Sound.mono (h : Sound c x K) (hK : K ⊆ K') : Sound c x K' :=
  Ensures.mono h hK fun _ _ _ _ _ => trivial

theorem Sound.bind {f : α → ExceptT ε (Prog E R) β} (hx : Sound c x K)
    (hf : ∀ a K', K ⊆ K' → Ensures c (f a) K' Q) : Ensures c (x >>= f) K Q :=
  Ensures.bind hx fun a K' hK _ => hf a K' hK

theorem Sound.attempt {f : Except ε α → ExceptT ε (Prog E R) β} (hx : Sound c x K)
    (hf : ∀ r K', K ⊆ K' → Ensures c (f r) K' Q) : Ensures c (Lib.attempt x >>= f) K Q :=
  Ensures.attempt hx (fun a K' hK _ => hf (.ok a) K' hK) fun e K' hK => hf (.error e) K' hK

end Ensures

/-! ## Runs -/

/-- A run of a program: the effects it performed, each with its result, and
the program's result. -/
inductive Ran : Prog E R α → List (Σ e, R e) → α → Prop where
  | done {a : α} : Ran (.done a) [] a
  | perform {e : E} {k : R e → Prog E R α} {r : R e} {trace : List (Σ e, R e)} {a : α} :
      Ran (k r) trace a → Ran (.perform e k) (⟨e, r⟩ :: trace) a

section Runs

variable {p : Prog E R α} {t t₁ t₂ : List (Σ e, R e)} {a : α} {b : β}

theorem ran_done {a' : α} (h : Ran (.done a : Prog E R α) t a') : t = [] ∧ a' = a := by
  cases h
  exact ⟨rfl, rfl⟩

theorem ran_lift {e : E} {r : R e} (h : Ran (Prog.lift e) t r) : t = [⟨e, r⟩] := by
  cases h with
  | perform hk =>
    cases hk
    rfl

theorem Ran.lift (e : E) (r : R e) : Ran (Prog.lift e) [⟨e, r⟩] r := .perform .done

theorem Ran.bind {f : α → Prog E R β} (hp : Ran p t₁ a) (hf : Ran (f a) t₂ b) :
    Ran (p >>= f) (t₁ ++ t₂) b := by
  induction hp with
  | done => exact hf
  | perform _ ih => exact .perform (ih hf)

/-- A run of a sequence is a run of its first part and one of the rest. -/
theorem ran_bind {f : α → Prog E R β} (h : Ran (p >>= f) t b) :
    ∃ t₁ t₂ a, t = t₁ ++ t₂ ∧ Ran p t₁ a ∧ Ran (f a) t₂ b := by
  induction p generalizing t with
  | done a => exact ⟨[], t, a, rfl, .done, h⟩
  | perform e k ih =>
    cases h with
    | perform hk =>
      obtain ⟨t₁, t₂, a, rfl, hp, hf⟩ := ih _ hk
      exact ⟨_ :: t₁, t₂, a, rfl, .perform hp, hf⟩

variable {x : ExceptT ε (Prog E R) α} {r : Except ε β}

/-- A run of `x?; f`. -/
theorem ran_andThen {f : α → ExceptT ε (Prog E R) β} (h : Ran (x >>= f).run t r) :
    (∃ e, r = .error e ∧ Ran x.run t (.error e)) ∨
      ∃ t₁ t₂ a, t = t₁ ++ t₂ ∧ Ran x.run t₁ (.ok a) ∧ Ran (f a).run t₂ r := by
  obtain ⟨t₁, t₂, res, rfl, hx, hf⟩ := ran_bind h
  cases res with
  | ok a => exact .inr ⟨t₁, t₂, a, rfl, hx, hf⟩
  | error e =>
    obtain ⟨rfl, rfl⟩ := ran_done hf
    exact .inl ⟨e, rfl, by rw [List.append_nil]; exact hx⟩

/-- A run of `x?; f` that succeeds. -/
theorem ran_andThen_ok {f : α → ExceptT ε (Prog E R) β} (h : Ran (x >>= f).run t (.ok b)) :
    ∃ t₁ t₂ a, t = t₁ ++ t₂ ∧ Ran x.run t₁ (.ok a) ∧ Ran (f a).run t₂ (.ok b) := by
  rcases ran_andThen h with ⟨e, he, -⟩ | h
  · cases he
  · exact h

theorem Ran.andThen {f : α → ExceptT ε (Prog E R) β} (hx : Ran x.run t₁ (.ok a))
    (hf : Ran (f a).run t₂ r) : Ran (x >>= f).run (t₁ ++ t₂) r := Ran.bind hx hf

/-- A run that goes on with the outcome of `x`. -/
theorem ran_attempt {f : Except ε α → ExceptT ε (Prog E R) β}
    (h : Ran (attempt x >>= f).run t r) :
    ∃ t₁ t₂ a, t = t₁ ++ t₂ ∧ Ran x.run t₁ a ∧ Ran (f a).run t₂ r := by
  rcases ran_andThen h with ⟨e, -, hx⟩ | ⟨t₁, t₂, a, rfl, hx, hf⟩
  · obtain ⟨t₁, t₂, a, -, -, hdone⟩ := ran_bind hx
    obtain ⟨-, he⟩ := ran_done hdone
    cases he
  · obtain ⟨t₃, t₄, a', rfl, hx', hdone⟩ := ran_bind hx
    obtain ⟨rfl, he⟩ := ran_done hdone
    cases he
    exact ⟨t₃, t₂, a, by simp, hx', hf⟩

theorem Ran.attempt {f : Except ε α → ExceptT ε (Prog E R) β} {a : Except ε α}
    (hx : Ran x.run t₁ a) (hf : Ran (f a).run t₂ r) :
    Ran (Lib.attempt x >>= f).run (t₁ ++ t₂) r := by
  have hlift : Ran (Lib.attempt x).run (t₁ ++ []) (.ok a) := Ran.bind hx .done
  rw [List.append_nil] at hlift
  exact hlift.andThen hf

end Runs

end CommercePlayground.Lib
