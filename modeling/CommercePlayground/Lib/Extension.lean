/-
CommercePlayground.Lib.Extension — contracts extended by facts of another kind.

A second thing to know about a program often concerns few of its effects. An
`Extension` adds to a contract what these effects need, promise and teach
beyond it. A part of a program that performs none of them (`Stays`) keeps to
the extended contract as it kept to the old one (`Ensures.extend`), so only
the rest is walked again.
-/
import CommercePlayground.Lib.Program

namespace CommercePlayground.Lib

variable {E : Type} {R : E → Type} {F G : Type} {α β ε : Type}

/-! ## Programs within a set of effects -/

/-- Every effect the program can perform is in `S`. -/
def Within (S : E → Prop) : Prog E R α → Prop
  | .done _ => True
  | .perform e k => S e ∧ ∀ r, Within S (k r)

theorem Within.bind {S : E → Prop} {p : Prog E R α} {f : α → Prog E R β} (hp : Within S p)
    (hf : ∀ a, Within S (f a)) : Within S (p >>= f) := by
  induction p with
  | done a => exact hf a
  | perform e k ih => exact ⟨hp.1, fun r => ih r (hp.2 r)⟩

/-- The same for a program that may fail. -/
def Stays (S : E → Prop) (x : ExceptT ε (Prog E R) α) : Prop := Within S x.run

section Stays

variable {S : E → Prop} {x : ExceptT ε (Prog E R) α}

theorem Stays.pure {a : α} : Stays S (pure a : ExceptT ε (Prog E R) α) := trivial

theorem Stays.bind {f : α → ExceptT ε (Prog E R) β} (hx : Stays S x)
    (hf : ∀ a, Stays S (f a)) : Stays S (x >>= f) := by
  refine Within.bind hx fun r => ?_
  cases r with
  | ok a => exact hf a
  | error e => trivial

theorem Stays.attempt {f : Except ε α → ExceptT ε (Prog E R) β} (hx : Stays S x)
    (hf : ∀ r, Stays S (f r)) : Stays S (Lib.attempt x >>= f) :=
  Stays.bind (Within.bind hx fun _ => trivial) hf

theorem Stays.ite {b : Prop} [Decidable b] {y : ExceptT ε (Prog E R) α} (hx : Stays S x)
    (hy : Stays S y) : Stays S (if b then x else y) := by
  split
  · exact hx
  · exact hy

end Stays

/-! ## Extensions -/

/-- What the effects need, promise and teach beyond a contract; a need may ask
for facts of both kinds. -/
structure Extension (E : Type) (R : E → Type) (F G : Type) where
  needs : E → Set F → Set G → Prop
  allows : (e : E) → R e → Prop
  learns : (e : E) → R e → Set G
  needs_mono : ∀ {e : E} {K K' : Set F} {L L' : Set G}, K ⊆ K' → L ⊆ L' → needs e K L →
    needs e K' L'

/-- The known facts of the first kind. -/
def olds (K : Set (F ⊕ G)) : Set F := { f | Sum.inl f ∈ K }

/-- The known facts of the second kind. -/
def news (K : Set (F ⊕ G)) : Set G := { g | Sum.inr g ∈ K }

/-- The facts of both kinds. -/
def both (K : Set F) (L : Set G) : Set (F ⊕ G) := { f | Sum.elim (· ∈ K) (· ∈ L) f }

section Facts

variable {K K' : Set (F ⊕ G)} {A A' : Set F} {B B' : Set G}

theorem olds_mono (h : K ⊆ K') : olds K ⊆ olds K' := fun _ hf => h hf

theorem news_mono (h : K ⊆ K') : news K ⊆ news K' := fun _ hf => h hf

theorem both_mono (hA : A ⊆ A') (hB : B ⊆ B') : both A B ⊆ both A' B' := by
  rintro (f | g) hf
  · exact hA hf
  · exact hB hf

end Facts

/-- The extended contract. -/
def Contract.extend (c : Contract E R F) (x : Extension E R F G) : Contract E R (F ⊕ G) where
  needs e K := c.needs e (olds K) ∧ x.needs e (olds K) (news K)
  allows e r := c.allows e r ∧ x.allows e r
  learns e r := both (c.learns e r) (x.learns e r)
  needs_mono hK h :=
    ⟨c.needs_mono (olds_mono hK) h.1, x.needs_mono (olds_mono hK) (news_mono hK) h.2⟩

/-- The effects without a further need. -/
def Extension.Quiet (x : Extension E R F G) (e : E) : Prop := ∀ K L, x.needs e K L

variable {c : Contract E R F} {x : Extension E R F G} {K : Set (F ⊕ G)}

/-- A program without a further need is safe as before. -/
theorem Safe.extend {p : Prog E R α} {Q : α → Set F → Prop} (h : Safe c p (olds K) Q)
    (hp : Within x.Quiet p) : Safe (c.extend x) p K fun a K' => Q a (olds K') := by
  induction p generalizing K with
  | done a => exact h
  | perform e k ih =>
    refine ⟨⟨h.1, hp.1 _ _⟩, fun r hr => ih r ?_ (hp.2 r)⟩
    exact h.2 r hr.1

theorem Ensures.extend {y : ExceptT ε (Prog E R) α} {P : α → Set F → Prop}
    (h : Ensures c y (olds K) P) (hy : Stays x.Quiet y) :
    Ensures (c.extend x) y K fun a K' => P a (olds K') :=
  Safe.extend h hy

end CommercePlayground.Lib
