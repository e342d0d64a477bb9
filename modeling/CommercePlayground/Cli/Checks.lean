/-
CommercePlayground.Cli.Checks — the two ways in which a verifier gives up.

`ensure!` fails unless its condition holds, `context` where there is no value. A check
that passes is one that did not get to either (`ensure_bind_ok`, `context_bind_ok`).
-/
import CommercePlayground.Lib.Table

namespace CommercePlayground.Cli

open Lib

/-- `ensure!` -/
def ensure (condition : Bool) (message : String) : Except String Unit :=
  if condition then .ok () else .error message

/-- `context`, of an option. -/
def context {α : Type} (value : Option α) (message : String) : Except String α :=
  match value with
  | some value => .ok value
  | none => .error message

theorem ensure_ok {condition : Bool} {message : String} {u : Unit} :
    ensure condition message = .ok u ↔ condition = true := by
  cases condition with
  | false => simp [ensure]
  | true => simp [ensure]

theorem context_ok {α : Type} {value : Option α} {message : String} {a : α} :
    context value message = .ok a ↔ value = some a := by
  cases value with
  | none => simp [context]
  | some b => simp [context]

theorem ensure_bind_ok {β : Type} {condition : Bool} {message : String}
    {f : Unit → Except String β} {b : β} :
    (ensure condition message >>= f) = .ok b ↔ condition = true ∧ f () = .ok b := by
  rw [bind_ok_iff]
  simp only [ensure_ok]
  exact ⟨fun ⟨_, h⟩ => h, fun h => ⟨(), h⟩⟩

theorem context_bind_ok {α β : Type} {value : Option α} {message : String}
    {f : α → Except String β} {b : β} :
    (context value message >>= f) = .ok b ↔ ∃ a, value = some a ∧ f a = .ok b := by
  rw [bind_ok_iff]
  simp only [context_ok]

end CommercePlayground.Cli
