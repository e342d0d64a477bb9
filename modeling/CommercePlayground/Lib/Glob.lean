/-
CommercePlayground.Lib.Glob — the patterns of `SCAN … MATCH`.

`*` takes any text, `?` one character, `[…]` one of a class, and a backslash takes away
what the next character means.
-/
import Mathlib.Data.List.Infix
import CommercePlayground.Lib.Text

namespace CommercePlayground.Lib

namespace Glob

inductive Piece where
  | star
  | any
  | oneOf (negated : Bool) (ranges : List (Char × Char))
  | exactly (c : Char)

/-- Whether a piece other than `*` takes a character. -/
def Piece.takes : Piece → Char → Bool
  | .star, _ => false
  | .any, _ => true
  | .oneOf negated ranges, c =>
    negated != ranges.any fun range => decide (min range.1.toNat range.2.toNat ≤ c.toNat ∧
      c.toNat ≤ max range.1.toNat range.2.toNat)
  | .exactly d, c => c == d

def backslash : Char := Char.ofNat 0x5c

/-- The ranges of a class, and what comes after its bracket. -/
def readClass : Text → List (Char × Char) × Text
  | [] => ([], [])
  | [c] => if c = ']' then ([], []) else ([(c, c)], [])
  | c :: d :: s =>
    if c = ']' then ([], d :: s)
    else if c = backslash then ((d, d) :: (readClass s).1, (readClass s).2)
    else if d = '-' ∧ s ≠ [] then
      ((c, s.headD c) :: (readClass s.tail).1, (readClass s.tail).2)
    else ((c, c) :: (readClass (d :: s)).1, (readClass (d :: s)).2)
termination_by s => s.length

/-- The pieces of a pattern; no more than it has characters. -/
def pieces : Nat → Text → List Piece
  | 0, _ => []
  | _ + 1, [] => []
  | n + 1, c :: s =>
    if c = '*' then .star :: pieces n s
    else if c = '?' then .any :: pieces n s
    else if c = '[' then
      if s.head? = some '^' then .oneOf true (readClass s.tail).1 :: pieces n (readClass s.tail).2
      else .oneOf false (readClass s).1 :: pieces n (readClass s).2
    else if c = backslash ∧ s ≠ [] then .exactly (s.headD c) :: pieces n s.tail
    else .exactly c :: pieces n s

def accepts : List Piece → Text → Bool
  | [], s => s.isEmpty
  | .star :: ps, s => s.tails.any (accepts ps)
  | _ :: _, [] => false
  | p :: ps, c :: s => p.takes c && accepts ps s

/-- `MATCH pattern`. -/
def scanMatches (pattern s : Text) : Bool := accepts (pieces pattern.length pattern) s

/-! ## Plain texts and stars -/

/-- A character that stands for itself. -/
def Plain (c : Char) : Prop := c ≠ '*' ∧ c ≠ '?' ∧ c ≠ '[' ∧ c ≠ backslash

instance (c : Char) : Decidable (Plain c) := inferInstanceAs (Decidable (_ ∧ _))

theorem scanMatches_plain {t : Text} (h : ∀ c ∈ t, Plain c) (pattern s : Text) :
    scanMatches (t ++ pattern) (t ++ s) = scanMatches pattern s := by
  induction t with
  | nil => rfl
  | cons c t ih =>
    obtain ⟨hstar, hany, hclass, hescape⟩ := h c List.mem_cons_self
    unfold scanMatches at ih ⊢
    rw [List.cons_append, List.length_cons, pieces, if_neg hstar, if_neg hany, if_neg hclass,
      if_neg (fun hand => hescape hand.1), List.cons_append, accepts]
    · rw [ih fun d hd => h d (List.mem_cons_of_mem c hd), Piece.takes, beq_self_eq_true,
        Bool.true_and]
    · simp

theorem scanMatches_star {pattern s : Text} (t : Text) (h : scanMatches pattern s = true) :
    scanMatches ('*' :: pattern) (t ++ s) = true := by
  unfold scanMatches at h ⊢
  rw [List.length_cons, pieces, if_pos rfl, accepts]
  exact List.any_eq_true.mpr ⟨s, (List.mem_tails _ _).mpr (List.suffix_append t s), h⟩

end Glob

end CommercePlayground.Lib
