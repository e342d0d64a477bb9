/-
CommercePlayground.Lib.Pattern — regular expressions without alternatives and groups.

A pattern is a row of pieces: a character of a class, a star of a class, a word boundary.
`run` tries it the way a backtracking engine does, `find` looks for the leftmost place and
`replaceFirst` puts a replacement there, whose `$` sequences stand for parts of the text.
`Matches` says the same without an order of trials (`run_sound`, `run_complete`). A pattern
that is closed by a character (`closedBy`) cannot match across it, so it sees a text piece
by piece (`find_append`).
-/
import Mathlib.Data.List.Basic
import CommercePlayground.Lib.Text

namespace CommercePlayground.Lib

namespace Pattern

inductive Piece where
  | one (p : Char → Bool)
  | many (p : Char → Bool)
  | boundary

def isWordChar (c : Char) : Bool := c.isAlphanum || c == '_'

/-- Whether there is a word boundary between two characters, or at an end of the text. -/
def isBoundary (before after : Option Char) : Bool :=
  before.any isWordChar != after.any isWordChar

/-! ## Trying a pattern -/

/-- A star takes as much as it can, and gives back what the rest of the pattern needs. -/
def manyThen (p : Char → Bool) (next : Option Char → Text → Option Text) :
    Option Char → Text → Option Text
  | prev, [] => next prev []
  | prev, c :: s =>
    if p c then (manyThen p next (some c) s).or (next prev (c :: s)) else next prev (c :: s)

/-- What is left of a text when the pattern matches at its beginning; `prev` is the character
before it. -/
def run : List Piece → Option Char → Text → Option Text
  | [], _, s => some s
  | .one _ :: _, _, [] => none
  | .one p :: ps, _, c :: s => if p c then run ps (some c) s else none
  | .many p :: ps, prev, s => manyThen p (run ps) prev s
  | .boundary :: ps, prev, s => if isBoundary prev s.head? then run ps prev s else none

/-- A match and what stands around it. -/
structure Found where
  before : Text
  text : Text
  after : Text
  deriving DecidableEq

/-- The leftmost match. -/
def find (ps : List Piece) : Option Char → Text → Option Found
  | prev, [] => (run ps prev []).map fun _ => ⟨[], [], []⟩
  | prev, c :: s =>
    match run ps prev (c :: s) with
    | some rest => some ⟨[], (c :: s).take ((c :: s).length - rest.length), rest⟩
    | none => (find ps (some c) s).map fun m => { m with before := c :: m.before }

def test (ps : List Piece) (s : Text) : Bool := (find ps none s).isSome

/-! ## Replacing -/

/-- What a dollar sign stands for with the character after it. -/
def substitution (m : Found) (c : Char) : Option Text :=
  if c = '$' then some ['$']
  else if c = '&' then some m.text
  else if c = Char.ofNat 0x60 then some m.before
  else if c = Char.ofNat 0x27 then some m.after
  else none

/-- A replacement with its dollar signs expanded; there are no groups to refer to. -/
def expand (m : Found) : Text → Text
  | [] => []
  | [c] => [c]
  | c :: d :: t =>
    if c = '$' then
      match substitution m d with
      | some x => x ++ expand m t
      | none => c :: expand m (d :: t)
    else c :: expand m (d :: t)

/-- Puts a replacement in the place of the first match. -/
def replaceFirst (ps : List Piece) (replacement s : Text) : Text :=
  match find ps none s with
  | none => s
  | some m => m.before ++ expand m replacement ++ m.after

/-- The characters of a text, in either case. -/
def literal (s : Text) : List Piece := s.map fun c => .one fun d => d.toLower == c

/-! ## What matches -/

/-- The character before what comes after `a`. -/
def lastOr (prev : Option Char) (a : Text) : Option Char := a.foldl (fun _ c => some c) prev

theorem lastOr_append (prev : Option Char) (a b : Text) :
    lastOr prev (a ++ b) = lastOr (lastOr prev a) b := List.foldl_append

/-- The pattern matches `u` when `v` stands after it. -/
def Matches : List Piece → Option Char → Text → Text → Prop
  | [], _, u, _ => u = []
  | .one p :: ps, _, u, v => ∃ c u', u = c :: u' ∧ p c = true ∧ Matches ps (some c) u' v
  | .many p :: ps, prev, u, v =>
    ∃ a u', u = a ++ u' ∧ (∀ c ∈ a, p c = true) ∧ Matches ps (lastOr prev a) u' v
  | .boundary :: ps, prev, u, v =>
    isBoundary prev (u ++ v).head? = true ∧ Matches ps prev u v

theorem manyThen_sound {p : Char → Bool} {next : Option Char → Text → Option Text}
    {prev : Option Char} {s v : Text} (h : manyThen p next prev s = some v) :
    ∃ a s', s = a ++ s' ∧ (∀ c ∈ a, p c = true) ∧ next (lastOr prev a) s' = some v := by
  induction s generalizing prev with
  | nil => exact ⟨[], [], rfl, by simp, h⟩
  | cons c s ih =>
    unfold manyThen at h
    split at h
    · next hc =>
      rcases Option.or_eq_some_iff.mp h with hmore | ⟨-, hdone⟩
      · obtain ⟨a, s', rfl, ha, hnext⟩ := ih hmore
        refine ⟨c :: a, s', rfl, List.forall_mem_cons.mpr ⟨hc, ha⟩, ?_⟩
        exact hnext
      · exact ⟨[], c :: s, rfl, by simp, hdone⟩
    · exact ⟨[], c :: s, rfl, by simp, h⟩

theorem manyThen_complete {p : Char → Bool} {next : Option Char → Text → Option Text}
    {prev : Option Char} {a s : Text} (ha : ∀ c ∈ a, p c = true)
    (h : (next (lastOr prev a) s).isSome = true) :
    (manyThen p next prev (a ++ s)).isSome = true := by
  induction a generalizing prev with
  | nil =>
    cases s with
    | nil => exact h
    | cons c s =>
      show (manyThen p next prev (c :: s)).isSome = true
      unfold manyThen
      split
      · rw [Option.isSome_or, Bool.or_eq_true]
        exact .inr h
      · exact h
  | cons c a ih =>
    obtain ⟨hc, ha⟩ := List.forall_mem_cons.mp ha
    show (manyThen p next prev (c :: (a ++ s))).isSome = true
    unfold manyThen
    rw [if_pos hc, Option.isSome_or, Bool.or_eq_true]
    refine .inl (ih ha ?_)
    exact h

theorem run_sound {ps : List Piece} {prev : Option Char} {s v : Text}
    (h : run ps prev s = some v) : ∃ u, s = u ++ v ∧ Matches ps prev u v := by
  induction ps generalizing prev s with
  | nil =>
    obtain rfl : s = v := by simpa [run] using h
    exact ⟨[], rfl, rfl⟩
  | cons piece ps ih =>
    cases piece with
    | one p =>
      cases s with
      | nil => simp [run] at h
      | cons c s =>
        by_cases hc : p c = true
        · obtain ⟨u, rfl, hu⟩ := ih ((if_pos hc).symm.trans h)
          exact ⟨c :: u, rfl, c, u, rfl, hc, hu⟩
        · simp [run, hc] at h
    | many p =>
      obtain ⟨a, s', rfl, ha, hnext⟩ := manyThen_sound h
      obtain ⟨u, rfl, hu⟩ := ih hnext
      exact ⟨a ++ u, (List.append_assoc a u v).symm, a, u, rfl, ha, hu⟩
    | boundary =>
      by_cases hb : isBoundary prev s.head? = true
      · obtain ⟨u, rfl, hu⟩ := ih ((if_pos hb).symm.trans h)
        exact ⟨u, rfl, hb, hu⟩
      · simp [run, hb] at h

theorem run_complete {ps : List Piece} {prev : Option Char} {u v : Text}
    (h : Matches ps prev u v) : (run ps prev (u ++ v)).isSome = true := by
  induction ps generalizing prev u with
  | nil => rfl
  | cons piece ps ih =>
    cases piece with
    | one p =>
      obtain ⟨c, u', rfl, hc, hu⟩ := h
      show (if p c then run ps (some c) (u' ++ v) else none).isSome = true
      rw [if_pos hc]
      exact ih hu
    | many p =>
      obtain ⟨a, u', rfl, ha, hu⟩ := h
      rw [List.append_assoc]
      exact manyThen_complete ha (ih hu)
    | boundary =>
      obtain ⟨hb, hu⟩ := h
      show (if isBoundary prev (u ++ v).head? then run ps prev (u ++ v) else none).isSome = true
      rw [if_pos hb]
      exact ih hu

theorem matches_append {ps qs : List Piece} {prev : Option Char} {u v : Text} :
    Matches (ps ++ qs) prev u v ↔ ∃ a b, u = a ++ b ∧ Matches ps prev a (b ++ v) ∧
      Matches qs (lastOr prev a) b v := by
  induction ps generalizing prev u with
  | nil =>
    constructor
    · intro h
      exact ⟨[], u, rfl, rfl, h⟩
    · rintro ⟨a, b, rfl, rfl, h⟩
      exact h
  | cons piece ps ih =>
    cases piece with
    | one p =>
      constructor
      · rintro ⟨c, u', rfl, hc, hu⟩
        obtain ⟨a, b, rfl, ha, hb⟩ := ih.mp hu
        refine ⟨c :: a, b, rfl, ⟨c, a, rfl, hc, ha⟩, ?_⟩
        exact hb
      · rintro ⟨-, b, rfl, ⟨c, a, rfl, hc, ha⟩, hb⟩
        refine ⟨c, a ++ b, rfl, hc, ih.mpr ⟨a, b, rfl, ha, ?_⟩⟩
        exact hb
    | many p =>
      constructor
      · rintro ⟨w, u', rfl, hw, hu⟩
        obtain ⟨a, b, rfl, ha, hb⟩ := ih.mp hu
        refine ⟨w ++ a, b, (List.append_assoc w a b).symm, ⟨w, a, rfl, hw, ha⟩, ?_⟩
        rwa [← lastOr_append] at hb
      · rintro ⟨-, b, rfl, ⟨w, a, rfl, hw, ha⟩, hb⟩
        refine ⟨w, a ++ b, List.append_assoc w a b, hw, ih.mpr ⟨a, b, rfl, ha, ?_⟩⟩
        rwa [← lastOr_append]
    | boundary =>
      constructor
      · rintro ⟨hboundary, hu⟩
        obtain ⟨a, b, rfl, ha, hb⟩ := ih.mp hu
        rw [List.append_assoc] at hboundary
        exact ⟨a, b, rfl, ⟨hboundary, ha⟩, hb⟩
      · rintro ⟨a, b, rfl, ⟨hboundary, ha⟩, hb⟩
        refine ⟨?_, ih.mpr ⟨a, b, rfl, ha, hb⟩⟩
        rwa [List.append_assoc]

theorem matches_congr {ps : List Piece} {prev : Option Char} {u v v' : Text}
    (h : Matches ps prev u v) (hv : v.head? = v'.head?) : Matches ps prev u v' := by
  induction ps generalizing prev u with
  | nil => exact h
  | cons piece ps ih =>
    cases piece with
    | one p =>
      obtain ⟨c, u', rfl, hc, hu⟩ := h
      exact ⟨c, u', rfl, hc, ih hu⟩
    | many p =>
      obtain ⟨a, u', rfl, ha, hu⟩ := h
      exact ⟨a, u', rfl, ha, ih hu⟩
    | boundary =>
      obtain ⟨hb, hu⟩ := h
      refine ⟨?_, ih hu⟩
      rwa [List.head?_append, ← hv, ← List.head?_append]

/-- A literal matches its text in either case. -/
theorem matches_literal {s : Text} {prev : Option Char} {u v : Text} :
    Matches (literal s) prev u v ↔ u.map Char.toLower = s := by
  induction s generalizing prev u with
  | nil => exact List.map_eq_nil_iff.symm
  | cons c s ih =>
    constructor
    · rintro ⟨d, u', rfl, hd, hu⟩
      rw [List.map_cons, beq_iff_eq.mp hd, ih.mp hu]
    · intro h
      obtain ⟨d, u', rfl, hd, hu⟩ := List.map_eq_cons_iff.mp h
      exact ⟨d, u', rfl, beq_iff_eq.mpr hd, ih.mpr hu⟩

/-! ## The leftmost match -/

theorem find_here {ps : List Piece} {prev : Option Char} {u v : Text}
    (h : run ps prev (u ++ v) = some v) : find ps prev (u ++ v) = some ⟨[], u, v⟩ := by
  cases hs : u ++ v with
  | nil =>
    obtain ⟨rfl, rfl⟩ := List.append_eq_nil_iff.mp hs
    unfold find
    rw [show run ps prev [] = some [] from h]
    rfl
  | cons c s =>
    rw [hs] at h
    unfold find
    rw [h]
    have hlength : (c :: s).length - v.length = u.length := by
      rw [← hs, List.length_append]
      omega
    show some (⟨[], (c :: s).take ((c :: s).length - v.length), v⟩ : Found) = _
    rw [hlength, ← hs, List.take_left]

theorem find_later {ps : List Piece} {prev : Option Char} {c : Char} {s : Text}
    (h : run ps prev (c :: s) = none) : find ps prev (c :: s) =
      (find ps (some c) s).map fun m => { m with before := c :: m.before } := by
  rw [find, h]

theorem find_sound {ps : List Piece} {prev : Option Char} {s : Text} {m : Found}
    (h : find ps prev s = some m) : s = m.before ++ (m.text ++ m.after) ∧
      Matches ps (lastOr prev m.before) m.text m.after := by
  induction s generalizing prev m with
  | nil =>
    obtain ⟨v, hv, rfl⟩ := Option.map_eq_some_iff.mp h
    obtain ⟨u, hs, hu⟩ := run_sound hv
    obtain ⟨rfl, rfl⟩ := List.append_eq_nil_iff.mp hs.symm
    exact ⟨rfl, hu⟩
  | cons c s ih =>
    cases hrun : run ps prev (c :: s) with
    | some v =>
      obtain ⟨u, hs, hu⟩ := run_sound hrun
      rw [hs] at hrun h ⊢
      obtain rfl := Option.some.inj ((find_here hrun).symm.trans h)
      exact ⟨rfl, hu⟩
    | none =>
      rw [find_later hrun] at h
      obtain ⟨m, hm, rfl⟩ := Option.map_eq_some_iff.mp h
      obtain ⟨rfl, hmatches⟩ := ih hm
      exact ⟨rfl, hmatches⟩

/-! ## Patterns closed by a character -/

/-- A piece that does not take the character. -/
def Piece.Avoids (stop : Char) : Piece → Prop
  | .one p => p stop = false
  | .many p => p stop = false
  | .boundary => True

/-- A pattern that takes the character at its end, and only there. -/
def ClosedBy (stop : Char) (ps : List Piece) : Prop :=
  ∃ qs, (∀ piece ∈ qs, piece.Avoids stop) ∧ ps = qs ++ [.one (· == stop)]

theorem matches_avoids {stop : Char} {ps : List Piece} (havoids : ∀ piece ∈ ps, piece.Avoids stop)
    {prev : Option Char} {u v : Text} (h : Matches ps prev u v) : stop ∉ u := by
  induction ps generalizing prev u with
  | nil =>
    obtain rfl : u = [] := h
    exact List.not_mem_nil
  | cons piece ps ih =>
    obtain ⟨hpiece, hps⟩ := List.forall_mem_cons.mp havoids
    cases piece with
    | one p =>
      obtain ⟨c, u', rfl, hc, hu⟩ := h
      have hstop : p stop = false := hpiece
      refine fun hmem => (List.mem_cons.mp hmem).elim (fun heq => ?_) (ih hps hu)
      rw [← heq, hstop] at hc
      cases hc
    | many p =>
      obtain ⟨a, u', rfl, ha, hu⟩ := h
      have hstop : p stop = false := hpiece
      refine fun hmem => (List.mem_append.mp hmem).elim (fun hmem => ?_) (ih hps hu)
      have hp := ha stop hmem
      rw [hstop] at hp
      cases hp
    | boundary => exact ih hps h.2

section Closed

variable {stop : Char} {ps : List Piece}

theorem ClosedBy.ends (h : ClosedBy stop ps) {prev : Option Char} {u v : Text}
    (hu : Matches ps prev u v) : ∃ p, stop ∉ p ∧ u = p ++ [stop] := by
  obtain ⟨qs, havoids, rfl⟩ := h
  obtain ⟨a, b, rfl, ha, c, b', rfl, hc, rfl⟩ := matches_append.mp hu
  obtain rfl : c = stop := by simpa using hc
  exact ⟨a, matches_avoids havoids ha, rfl⟩

/-- What stands after a match does not matter. -/
theorem ClosedBy.any_after (h : ClosedBy stop ps) {prev : Option Char} {u v : Text}
    (hu : Matches ps prev u v) (v' : Text) : Matches ps prev u v' := by
  obtain ⟨qs, havoids, rfl⟩ := h
  obtain ⟨a, b, rfl, ha, c, b', rfl, hc, rfl⟩ := matches_append.mp hu
  exact matches_append.mpr ⟨a, [c], rfl, matches_congr ha rfl, c, [], rfl, hc, rfl⟩

theorem append_stop_inj {p p' q q' : Text} (hp : stop ∉ p) (hp' : stop ∉ p')
    (h : p ++ stop :: q = p' ++ stop :: q') : p = p' ∧ q = q' := by
  have hsplit := congrArg (splitOnce stop) h
  rw [splitOnce_append hp, splitOnce_append hp'] at hsplit
  simpa using hsplit

/-- A match takes a text up to the first time that the character stands in it. -/
theorem ClosedBy.run_iff (h : ClosedBy stop ps) {prev : Option Char} {p q v : Text}
    (hp : stop ∉ p) : run ps prev (p ++ stop :: q) = some v ↔
      Matches ps prev (p ++ [stop]) q ∧ v = q := by
  have hsound : ∀ v, run ps prev (p ++ stop :: q) = some v →
      Matches ps prev (p ++ [stop]) q ∧ v = q := by
    intro v hrun
    obtain ⟨u, hs, hu⟩ := run_sound hrun
    obtain ⟨p', hp', rfl⟩ := h.ends hu
    rw [List.append_assoc] at hs
    obtain ⟨rfl, rfl⟩ := append_stop_inj hp hp' hs
    exact ⟨hu, rfl⟩
  constructor
  · exact hsound v
  · rintro ⟨hu, rfl⟩
    have hsome := run_complete hu
    rw [List.append_assoc] at hsome
    obtain ⟨v', hv'⟩ := Option.isSome_iff_exists.mp hsome
    obtain ⟨-, rfl⟩ := hsound v' hv'
    exact hv'

/-- A text in which the character stands may go on. -/
theorem ClosedBy.run_append (h : ClosedBy stop ps) {prev : Option Char} {s : Text}
    (hs : stop ∈ s) (r : Text) : run ps prev (s ++ r) = (run ps prev s).map (· ++ r) := by
  obtain ⟨p, q, rfl, hp⟩ := List.eq_append_cons_of_mem hs
  apply Option.ext
  intro v
  rw [List.append_assoc, List.cons_append, h.run_iff hp, Option.map_eq_some_iff]
  constructor
  · rintro ⟨hu, rfl⟩
    exact ⟨q, (h.run_iff hp).mpr ⟨h.any_after hu q, rfl⟩, rfl⟩
  · rintro ⟨v', hv', rfl⟩
    obtain ⟨hu, rfl⟩ := (h.run_iff hp).mp hv'
    exact ⟨h.any_after hu _, rfl⟩

/-- A text that ends in the character is searched by itself, and then what comes after it. -/
theorem ClosedBy.find_append (h : ClosedBy stop ps) {prev : Option Char} {s : Text}
    (hs : s.getLast? = some stop) (r : Text) : find ps prev (s ++ r) =
      ((find ps prev s).map fun m => { m with after := m.after ++ r }).or
        ((find ps (some stop) r).map fun m => { m with before := s ++ m.before }) := by
  induction s generalizing prev with
  | nil => cases hs
  | cons c s ih =>
    have hmem : stop ∈ c :: s := List.mem_of_getLast? hs
    have happend : run ps prev (c :: s ++ r) = _ := h.run_append hmem r
    cases hrun : run ps prev (c :: s) with
    | some v =>
      obtain ⟨u, hu, -⟩ := run_sound hrun
      rw [hrun, hu, List.append_assoc] at happend
      rw [hu] at hrun
      rw [hu, List.append_assoc, find_here happend, find_here hrun]
      rfl
    | none =>
      rw [hrun] at happend
      rw [find_later hrun]
      refine (find_later happend).trans ?_
      show ((find ps (some c) (s ++ r)).map _) = _
      cases s with
      | nil =>
        obtain rfl : c = stop := by simpa using hs
        have hnil : find ps (some c) [] = none := by
          cases hfind : find ps (some c) [] with
          | none => rfl
          | some m =>
            obtain ⟨hm, hmatches⟩ := find_sound hfind
            obtain ⟨p, -, htext⟩ := h.ends hmatches
            rw [htext] at hm
            simp at hm
        rw [hnil]
        rfl
      | cons d s =>
        rw [ih ((List.getLast?_cons_cons).symm.trans hs)]
        cases find ps (some c) (d :: s) with
        | some m => rfl
        | none => cases find ps (some stop) r <;> rfl

theorem ClosedBy.ends_found (h : ClosedBy stop ps) {prev : Option Char} {s : Text} {m : Found}
    (hm : find ps prev s = some m) : ∃ p, stop ∉ p ∧ m.text = p ++ [stop] :=
  h.ends (find_sound hm).2

/-- What stands after the first match does not matter. -/
theorem ClosedBy.find_any_after (h : ClosedBy stop ps) {prev : Option Char} {s : Text} {m : Found}
    (hm : find ps prev s = some m) (r : Text) :
    find ps prev (m.before ++ m.text ++ r) = some ⟨m.before, m.text, r⟩ := by
  obtain ⟨p, -, htext⟩ := h.ends_found hm
  have hlast : (m.before ++ m.text).getLast? = some stop := by
    rw [htext, ← List.append_assoc, List.getLast?_concat]
  have hs := (find_sound hm).1
  rw [hs, ← List.append_assoc, h.find_append hlast] at hm
  cases hfind : find ps prev (m.before ++ m.text) with
  | some m' =>
    rw [hfind] at hm
    have heq : ({ m' with after := m'.after ++ m.after } : Found) = m := Option.some.inj hm
    have hbefore := congrArg Found.before heq
    have hmtext := congrArg Found.text heq
    dsimp only at hbefore hmtext
    have hsplit := (find_sound hfind).1
    rw [hbefore, hmtext, ← List.append_assoc] at hsplit
    have hafter : m'.after = [] := List.self_eq_append_right.mp hsplit
    rw [h.find_append hlast, hfind]
    show some ({ m' with after := m'.after ++ r } : Found) = _
    rw [hbefore, hmtext, hafter]
    rfl
  | none =>
    rw [hfind] at hm
    obtain ⟨m', -, heq⟩ := Option.map_eq_some_iff.mp hm
    have hbefore : m.before ++ m.text ++ m'.before = m.before := congrArg Found.before heq
    rw [htext] at hbefore
    simp at hbefore

end Closed

/-! ## Expansions -/

section Expand

theorem expand_plain (m : Found) {t : Text} (h : '$' ∉ t) (r : Text) :
    expand m (t ++ r) = t ++ expand m r := by
  induction t with
  | nil => rfl
  | cons c t ih =>
    obtain ⟨hc, ht⟩ := List.ne_and_not_mem_of_not_mem_cons h
    rw [List.cons_append, List.cons_append, ← ih ht]
    cases hrest : t ++ r with
    | nil => rfl
    | cons d rest =>
      rw [expand, if_neg (Ne.symm hc)]

/-- A character that means nothing after a dollar sign. -/
def Inert (c : Char) : Prop := c ≠ '$' ∧ ∀ m, substitution m c = none

/-- Whether a character means something after a dollar sign is no matter of the match. -/
theorem substitution_none {m : Found} {d : Char} (h : substitution m d = none) (m' : Found) :
    substitution m' d = none := by
  unfold substitution at h ⊢
  grind

theorem expand_concat {c : Char} (hc : Inert c) (m : Found) (t : Text) :
    expand m (t ++ [c]) = expand m t ++ [c] := by
  induction t using expand.induct m with
  | case1 => rfl
  | case2 d =>
    show expand m [d, c] = [d, c]
    rw [expand, hc.2 m]
    split <;> rfl
  | case3 d t x hd ih =>
    show expand m ('$' :: d :: (t ++ [c])) = _
    rw [expand, expand, if_pos rfl, if_pos rfl, hd, ih, List.append_assoc]
  | case4 d t hd ih =>
    show expand m ('$' :: d :: (t ++ [c])) = _
    rw [expand, if_pos rfl, expand, if_pos rfl, hd]
    exact congrArg ('$' :: ·) ih
  | case5 e d t he ih =>
    show expand m (e :: d :: (t ++ [c])) = _
    rw [expand, if_neg he, expand, if_neg he]
    exact congrArg (e :: ·) ih

/-- An expansion takes nothing away that means nothing after a dollar sign. -/
theorem count_expand {c : Char} (hc : Inert c) (m : Found) (t : Text) :
    t.count c ≤ (expand m t).count c := by
  induction t using expand.induct m with
  | case1 => exact Nat.le_refl _
  | case2 d => exact Nat.le_refl _
  | case3 d t x hd ih =>
    have hne : d ≠ c := by
      rintro rfl
      rw [hc.2 m] at hd
      cases hd
    rw [expand, if_pos rfl, hd, List.count_cons_of_ne (Ne.symm hc.1), List.count_cons_of_ne hne]
    show _ ≤ (x ++ expand m t).count c
    rw [List.count_append]
    omega
  | case4 d t hd ih =>
    rw [expand, if_pos rfl, hd]
    simp only [List.count_cons] at ih ⊢
    omega
  | case5 e d t he ih =>
    rw [expand, if_neg he]
    simp only [List.count_cons] at ih ⊢
    omega

/-- `t` is `s` with some of its dollar signs doubled. -/
inductive Doubled : Text → Text → Prop where
  | nil : Doubled [] []
  | cons (c : Char) {s t : Text} : Doubled s t → Doubled (c :: s) (c :: t)
  | sign {s t : Text} : Doubled s t → Doubled ('$' :: s) ('$' :: '$' :: t)

/-- An expansion that brings in nothing of the text only halves doubled dollar signs, wherever
it takes place. -/
theorem expand_doubled {c : Char} (hc : Inert c) {m : Found} (hbefore : c ∈ m.before)
    (htext : c ∈ m.text) (hafter : c ∈ m.after) {t : Text}
    (h : (expand m t).count c ≤ t.count c) :
    Doubled (expand m t) t ∧ ∀ m', expand m' t = expand m t := by
  induction t using expand.induct m with
  | case1 => exact ⟨.nil, fun _ => rfl⟩
  | case2 d => exact ⟨.cons d .nil, fun _ => rfl⟩
  | case3 d t x hd ih =>
    have hle := count_expand hc m t
    have hexpand : expand m ('$' :: d :: t) = x ++ expand m t := by
      rw [expand, if_pos rfl, hd]
    have hne : d ≠ c := by
      rintro rfl
      rw [hc.2 m] at hd
      cases hd
    rw [hexpand, List.count_append, List.count_cons_of_ne (Ne.symm hc.1),
      List.count_cons_of_ne hne] at h
    have hx : c ∉ x := fun hmem => by
      have hpos := List.count_pos_iff.mpr hmem
      omega
    have hself : d = '$' ∧ x = ['$'] := by
      unfold substitution at hd
      split at hd
      · next hsign => exact ⟨hsign, (Option.some.inj hd).symm⟩
      · exfalso
        split at hd
        · exact hx (Option.some.inj hd ▸ htext)
        · split at hd
          · exact hx (Option.some.inj hd ▸ hbefore)
          · split at hd
            · exact hx (Option.some.inj hd ▸ hafter)
            · cases hd
    obtain ⟨rfl, rfl⟩ := hself
    obtain ⟨hdoubled, hall⟩ := ih (by omega)
    rw [hexpand]
    refine ⟨.sign hdoubled, fun m' => ?_⟩
    show expand m' ('$' :: '$' :: t) = '$' :: expand m t
    rw [expand, if_pos rfl, ← hall m']
    rfl
  | case4 d t hd ih =>
    have hexpand : ∀ m', expand m' ('$' :: d :: t) = '$' :: expand m' (d :: t) := by
      intro m'
      rw [expand, if_pos rfl, substitution_none hd m']
    rw [hexpand m] at h ⊢
    obtain ⟨hdoubled, hall⟩ := ih (by simp only [List.count_cons] at h ⊢; omega)
    exact ⟨.cons '$' hdoubled, fun m' => by rw [hexpand m', hall m']⟩
  | case5 e d t he ih =>
    have hexpand : ∀ m', expand m' (e :: d :: t) = e :: expand m' (d :: t) := by
      intro m'
      rw [expand, if_neg he]
    rw [hexpand m] at h ⊢
    obtain ⟨hdoubled, hall⟩ := ih (by simp only [List.count_cons] at h ⊢; omega)
    exact ⟨.cons e hdoubled, fun m' => by rw [hexpand m', hall m']⟩

theorem Doubled.lastOr {s t : Text} (h : Doubled s t) (prev : Option Char) :
    lastOr prev t = lastOr prev s := by
  induction h generalizing prev with
  | nil => rfl
  | cons c _ ih => exact ih (some c)
  | sign _ ih => exact ih (some '$')

theorem Doubled.head {s t : Text} (h : Doubled s t) (v : Text) :
    (t ++ v).head? = (s ++ v).head? := by
  cases h <;> rfl

theorem Doubled.mem {s t : Text} (h : Doubled s t) {c : Char} (hc : c ∈ t) : c ∈ s := by
  induction h with
  | nil => exact hc
  | cons d _ ih => exact (List.mem_cons.mp hc).elim (fun h => h ▸ .head _) fun h => .tail _ (ih h)
  | sign _ ih =>
    rcases List.mem_cons.mp hc with rfl | hc
    · exact .head _
    · rcases List.mem_cons.mp hc with rfl | hc
      · exact .head _
      · exact .tail _ (ih hc)

theorem Doubled.split {a b t : Text} (h : Doubled (a ++ b) t) :
    ∃ a' b', t = a' ++ b' ∧ Doubled a a' ∧ Doubled b b' := by
  induction a generalizing t with
  | nil => exact ⟨[], t, rfl, .nil, h⟩
  | cons c a ih =>
    cases h with
    | cons _ h =>
      obtain ⟨a', b', rfl, ha, hb⟩ := ih h
      exact ⟨c :: a', b', rfl, .cons c ha, hb⟩
    | sign h =>
      obtain ⟨a', b', rfl, ha, hb⟩ := ih h
      exact ⟨'$' :: '$' :: a', b', rfl, .sign ha, hb⟩

/-- A piece that takes a dollar sign only among any number of them. -/
def Piece.Indifferent : Piece → Prop
  | .one p => p '$' = false
  | .many _ => True
  | .boundary => True

/-- Doubling dollar signs takes no match away. -/
theorem Matches.doubled {ps : List Piece} (hps : ∀ piece ∈ ps, piece.Indifferent)
    {prev : Option Char} {u u' v : Text} (h : Matches ps prev u v) (hu : Doubled u u') :
    Matches ps prev u' v := by
  induction ps generalizing prev u u' with
  | nil =>
    obtain rfl : u = [] := h
    cases hu
    rfl
  | cons piece ps ih =>
    obtain ⟨hpiece, hrest⟩ := List.forall_mem_cons.mp hps
    cases piece with
    | one p =>
      obtain ⟨c, w, rfl, hc, hw⟩ := h
      have hsign : p '$' = false := hpiece
      cases hu with
      | cons _ hu => exact ⟨c, _, rfl, hc, ih hrest hw hu⟩
      | sign hu =>
        rw [hsign] at hc
        cases hc
    | many p =>
      obtain ⟨a, w, rfl, ha, hw⟩ := h
      obtain ⟨a', w', rfl, ha', hw'⟩ := hu.split
      refine ⟨a', w', rfl, fun c hc => ha c (ha'.mem hc), ?_⟩
      rw [ha'.lastOr]
      exact ih hrest hw hw'
    | boundary =>
      obtain ⟨hb, hw⟩ := h
      refine ⟨?_, ih hrest hw hu⟩
      rw [hu.head]
      exact hb

end Expand

end Pattern

end CommercePlayground.Lib
