/-
CommercePlayground.Lib.Worklist — what a search with a frontier visits.

A search takes a node from its frontier, leaves it if it was seen before, and else visits
it and adds its successors. It ends because a node that has successors is one of finitely
many and is visited once. It visits exactly what can be reached, each node once
(`run_spec`); whether the frontier is a stack or a queue decides the order only.
-/
import Mathlib.Data.List.Nodup
import Mathlib.Data.List.Count
import Mathlib.Data.Prod.Lex

namespace CommercePlayground.Lib

/-- A graph whose edges leave finitely many nodes. -/
structure Graph (α : Type) where
  nodes : List α
  next : α → List α
  closed : ∀ x, x ∉ nodes → next x = []

/-- Where a search adds to its frontier, which it takes from the head. -/
inductive Discipline where
  | stack
  | queue

def Discipline.push {α : Type} : Discipline → List α → List α → List α
  | .stack, rest, added => added.reverse ++ rest
  | .queue, rest, added => rest ++ added

@[simp] theorem Discipline.push_nil {α : Type} (discipline : Discipline) (rest : List α) :
    discipline.push rest [] = rest := by
  cases discipline with
  | stack => rfl
  | queue => exact List.append_nil rest

@[simp] theorem Discipline.mem_push {α : Type} (discipline : Discipline) (rest added : List α)
    (x : α) : x ∈ discipline.push rest added ↔ x ∈ rest ∨ x ∈ added := by
  cases discipline with
  | stack => simp [Discipline.push, or_comm]
  | queue => simp [Discipline.push]

/-! ## What is left -/

/-- The number of nodes that are still to be seen. -/
def unseen {α : Type} [DecidableEq α] (nodes seen : List α) : Nat :=
  (nodes.filter fun x => decide (x ∉ seen)).length

theorem unseen_sublist {α : Type} [DecidableEq α] (nodes : List α) (x : α) (seen : List α) :
    (nodes.filter fun y => decide (y ∉ x :: seen)).Sublist
      (nodes.filter fun y => decide (y ∉ seen)) := by
  refine List.monotone_filter_right nodes fun y hy => ?_
  simp only [List.mem_cons, not_or, decide_eq_true_eq] at hy ⊢
  exact hy.2

theorem unseen_cons_le {α : Type} [DecidableEq α] (nodes : List α) (x : α) (seen : List α) :
    unseen nodes (x :: seen) ≤ unseen nodes seen :=
  (unseen_sublist nodes x seen).length_le

/-- Seeing another node leaves one less. -/
theorem unseen_cons_lt {α : Type} [DecidableEq α] {nodes seen : List α} {x : α}
    (hx : x ∈ nodes) (hseen : x ∉ seen) : unseen nodes (x :: seen) < unseen nodes seen := by
  refine Nat.lt_of_le_of_ne (unseen_cons_le nodes x seen) fun heq => ?_
  have hmem : x ∈ nodes.filter fun y => decide (y ∉ seen) :=
    List.mem_filter.mpr ⟨hx, decide_eq_true hseen⟩
  rw [← (unseen_sublist nodes x seen).eq_of_length heq] at hmem
  simpa using (List.mem_filter.mp hmem).2

namespace Graph

variable {α σ : Type}

section Search

variable [DecidableEq α]

/-! ## The search -/

/-- The search from a frontier: what it has seen in the end, the last first, and what
visiting made of its state. -/
def run (graph : Graph α) (discipline : Discipline) (visit : σ → α → σ) :
    List α → List α → σ → List α × σ
  | [], seen, state => (seen, state)
  | x :: rest, seen, state =>
    if x ∈ seen then run graph discipline visit rest seen state
    else run graph discipline visit (discipline.push rest (graph.next x)) (x :: seen)
      (visit state x)
termination_by frontier seen => (unseen graph.nodes seen, frontier.length)
decreasing_by
  · exact Prod.Lex.right _ (Nat.lt_succ_self _)
  · rename_i hseen
    by_cases hx : x ∈ graph.nodes
    · exact Prod.Lex.left _ _ (unseen_cons_lt hx hseen)
    · rw [graph.closed x hx, Discipline.push_nil]
      rcases Nat.lt_or_eq_of_le (unseen_cons_le graph.nodes x seen) with hlt | heq
      · exact Prod.Lex.left _ _ hlt
      · rw [heq]
        exact Prod.Lex.right _ (Nat.lt_succ_self _)

end Search

/-! ## What it visits -/

/-- What can be reached from some roots. -/
inductive Reach (graph : Graph α) (roots : List α) : α → Prop
  | root {x : α} : x ∈ roots → Reach graph roots x
  | step {x y : α} : Reach graph roots x → y ∈ graph.next x → Reach graph roots y

/-- What holds at every turn of a search. -/
structure Searching (graph : Graph α) (roots : List α) (visit : σ → α → σ) (init : σ)
    (frontier seen : List α) (state : σ) : Prop where
  nodup : seen.Nodup
  sound : ∀ x, x ∈ seen ∨ x ∈ frontier → graph.Reach roots x
  roots : ∀ x ∈ roots, x ∈ seen ∨ x ∈ frontier
  edges : ∀ x ∈ seen, ∀ y ∈ graph.next x, y ∈ seen ∨ y ∈ frontier
  state : state = seen.reverse.foldl visit init

variable {graph : Graph α} {visit : σ → α → σ} {init state : σ} {roots frontier seen : List α}

theorem Searching.start : Searching graph roots visit init roots [] init where
  nodup := List.nodup_nil
  sound := fun _ h => .root (h.resolve_left List.not_mem_nil)
  roots := fun _ h => .inr h
  edges := fun _ h => absurd h List.not_mem_nil
  state := rfl

theorem Searching.skip {x : α}
    (h : Searching graph roots visit init (x :: frontier) seen state) (hx : x ∈ seen) :
    Searching graph roots visit init frontier seen state := by
  have hcovered : ∀ y, y ∈ seen ∨ y ∈ x :: frontier → y ∈ seen ∨ y ∈ frontier := by
    intro y hy
    rcases hy with hy | hy
    · exact .inl hy
    · rcases List.mem_cons.mp hy with rfl | hy
      · exact .inl hx
      · exact .inr hy
  exact {
    nodup := h.nodup
    sound := fun y hy => h.sound y (hy.imp_right (List.mem_cons_of_mem x))
    roots := fun y hy => hcovered y (h.roots y hy)
    edges := fun y hy z hz => hcovered z (h.edges y hy z hz)
    state := h.state }

theorem Searching.visited {x : α} (discipline : Discipline)
    (h : Searching graph roots visit init (x :: frontier) seen state) (hx : x ∉ seen) :
    Searching graph roots visit init (discipline.push frontier (graph.next x)) (x :: seen)
      (visit state x) := by
  have hreach := h.sound x (.inr List.mem_cons_self)
  have hcovered : ∀ y, y ∈ seen ∨ y ∈ x :: frontier →
      y ∈ x :: seen ∨ y ∈ discipline.push frontier (graph.next x) := by
    intro y hy
    rw [Discipline.mem_push, List.mem_cons]
    rw [List.mem_cons] at hy
    tauto
  refine {
    nodup := List.nodup_cons.mpr ⟨hx, h.nodup⟩
    sound := fun y hy => ?_
    roots := fun y hy => hcovered y (h.roots y hy)
    edges := fun y hy z hz => ?_
    state := ?_ }
  · rw [Discipline.mem_push, List.mem_cons] at hy
    rcases hy with (rfl | hy) | hy | hy
    · exact hreach
    · exact h.sound y (.inl hy)
    · exact h.sound y (.inr (List.mem_cons_of_mem x hy))
    · exact .step hreach hy
  · rcases List.mem_cons.mp hy with rfl | hy
    · exact .inr ((Discipline.mem_push _ _ _ _).mpr (.inr hz))
    · exact hcovered z (h.edges y hy z hz)
  · rw [List.reverse_cons, List.foldl_append, ← h.state]
    rfl

theorem Searching.run [DecidableEq α] (discipline : Discipline)
    (h : Searching graph roots visit init frontier seen state) :
    Searching graph roots visit init [] (graph.run discipline visit frontier seen state).1
      (graph.run discipline visit frontier seen state).2 := by
  induction frontier, seen, state using Graph.run.induct graph discipline visit with
  | case1 seen state =>
    rw [Graph.run]
    exact h
  | case2 x rest seen state hx ih =>
    rw [Graph.run, if_pos hx]
    exact ih (h.skip hx)
  | case3 x rest seen state hx ih =>
    rw [Graph.run, if_neg hx]
    exact ih (h.visited discipline hx)

/-- A search visits what can be reached, each node once. -/
theorem run_spec [DecidableEq α] (graph : Graph α) (discipline : Discipline) (visit : σ → α → σ)
    (roots : List α) (init : σ) :
    (graph.run discipline visit roots [] init).1.Nodup ∧
      (∀ x, x ∈ (graph.run discipline visit roots [] init).1 ↔ graph.Reach roots x) ∧
      (graph.run discipline visit roots [] init).2 =
        (graph.run discipline visit roots [] init).1.reverse.foldl visit init := by
  have hstart : Searching graph roots visit init roots [] init := .start
  have h := hstart.run discipline
  refine ⟨h.nodup, fun x => ⟨fun hx => h.sound x (.inl hx), fun hx => ?_⟩, h.state⟩
  induction hx with
  | root hx => exact (h.roots _ hx).resolve_right List.not_mem_nil
  | step _ hy ih => exact (h.edges _ ih _ hy).resolve_right List.not_mem_nil

end Graph

end CommercePlayground.Lib
