/-
CommercePlayground.Lib.Transaction — a transaction and the connection it runs
over.

The transaction itself is a function from a store to an answer and a new store,
or an error. The connection may fail before it runs, or after it has committed:
then the store has changed and the caller sees an error all the same.
-/
import Mathlib.Logic.Basic

namespace CommercePlayground.Lib

/-- How a transaction meets the database. -/
inductive Fault where
  | none
  | before
  /-- It commits and its answer is lost. -/
  | after
  deriving DecidableEq

variable {σ ε α : Type}

/-- What the caller sees, and the store a transaction leaves. -/
def execute (lost : ε) (fault : Fault) (s : σ) (r : Except ε (α × σ)) : Except ε α × σ :=
  match fault, r with
  | .none, .ok (a, s') => (.ok a, s')
  | .none, .error e => (.error e, s)
  | .before, _ => (.error lost, s)
  | .after, .ok (_, s') => (.error lost, s')
  | .after, .error _ => (.error lost, s)

variable {lost : ε} {fault : Fault} {s s' : σ} {r : Except ε (α × σ)}

/-- An answer is the answer of the transaction, which has committed. -/
theorem execute_ok {a : α} (h : execute lost fault s r = (.ok a, s')) :
    fault = .none ∧ r = .ok (a, s') := by
  unfold execute at h
  split at h <;> cases h
  exact ⟨rfl, rfl⟩

/-- Behind an error the transaction may have committed. -/
theorem execute_error {e : ε} (h : execute lost fault s r = (.error e, s')) :
    s' = s ∨ ∃ a, r = .ok (a, s') := by
  unfold execute at h
  split at h
  · cases h
  · cases h
    exact .inl rfl
  · cases h
    exact .inl rfl
  · cases h
    exact .inr ⟨_, rfl⟩
  · cases h
    exact .inl rfl

/-- The store is the one it was, or the one that was committed. -/
theorem execute_store {x : Except ε α} (h : execute lost fault s r = (x, s')) :
    s' = s ∨ ∃ a, r = .ok (a, s') := by
  cases x with
  | error e => exact execute_error h
  | ok a => exact .inr ⟨a, (execute_ok h).2⟩

end CommercePlayground.Lib
