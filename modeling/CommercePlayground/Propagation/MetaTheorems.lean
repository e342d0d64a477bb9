/-
CommercePlayground.Propagation.MetaTheorems — when the trace headers stand in a page as
they should.

Between the opening `head` and what comes after it the page is a row of tags
(`document`), and a name finds the first tag that its pattern matches (`find_document`).
Where no tag is found the new one goes first; otherwise it takes the place of the tag that
was found. `count '>'` tells the two apart: going over a page again leaves it as it is only
when every round replaces a tag by one (`Rewrites`), and then a tag is itself again
(`harmless_of_injected`).
-/
import CommercePlayground.Propagation.Meta

namespace CommercePlayground.Propagation

open Lib Lib.Pattern

namespace WebClient

/-! ## The patterns -/

/-- A character that the literals of a pattern leave alone. -/
theorem literal_avoids {stop : Char} (hstop : stop.toLower = stop) {s : Text} (hs : stop ∉ s) :
    ∀ piece ∈ literal s, piece.Avoids stop := by
  intro piece hpiece
  obtain ⟨c, hc, rfl⟩ := List.mem_map.mp hpiece
  show (stop.toLower == c) = false
  rw [hstop, beq_eq_false_iff_ne]
  rintro rfl
  exact hs hc

theorem literal_indifferent {s : Text} (hs : '$' ∉ s) :
    ∀ piece ∈ literal s, piece.Indifferent := by
  intro piece hpiece
  obtain ⟨c, hc, rfl⟩ := List.mem_map.mp hpiece
  show (Char.toLower '$' == c) = false
  rw [beq_eq_false_iff_ne]
  rintro rfl
  exact hs hc

/-- What a name is made of: no upper case, and nothing that ends an attribute or a tag. -/
structure IsName (name : Text) : Prop where
  lower : name.map Char.toLower = name
  tag : '>' ∉ name
  sign : '$' ∉ name
  quote : '"' ∉ name

/-- What comes after the beginning of a tag. -/
def namePattern (name : Text) : List Piece :=
  .boundary :: (literal "name=".toList ++ (.one isQuote :: (literal name ++
    ([.one isQuote, .many (· != '>')] ++ [.one (· == '>')]))))

theorem existingPattern_eq (name : Text) : existingPattern name =
    literal "<meta".toList ++ (.boundary :: .many (· != '>') :: namePattern name) := rfl

theorem existing_closed {name : Text} (hname : IsName name) :
    ClosedBy '>' (existingPattern name) := by
  refine ⟨literal "<meta".toList ++ ([.boundary, .many (· != '>'), .boundary] ++
    (literal "name=".toList ++ (.one isQuote :: (literal name ++
      [.one isQuote, .many (· != '>')])))), ?_, ?_⟩
  · have hquote : Piece.Avoids '>' (.one isQuote) := rfl
    have hmany : Piece.Avoids '>' (.many (· != '>')) := rfl
    intro piece hpiece
    simp only [List.mem_append, List.mem_cons, List.not_mem_nil, or_false] at hpiece
    rcases hpiece with hpiece | (rfl | rfl | rfl) | hpiece | rfl | hpiece | rfl | rfl
    · exact literal_avoids (by decide) (by decide) piece hpiece
    · trivial
    · exact hmany
    · trivial
    · exact literal_avoids (by decide) (by decide) piece hpiece
    · exact hquote
    · exact literal_avoids (by decide) hname.tag piece hpiece
    · exact hquote
    · exact hmany
  · unfold existingPattern
    simp only [List.append_assoc, List.cons_append, List.nil_append]

theorem existing_indifferent {name : Text} (hname : IsName name) :
    ∀ piece ∈ existingPattern name, piece.Indifferent := by
  have hquote : Piece.Indifferent (.one isQuote) := rfl
  intro piece hpiece
  unfold existingPattern at hpiece
  simp only [List.mem_append, List.mem_cons, List.not_mem_nil, or_false] at hpiece
  rcases hpiece with hpiece | (rfl | rfl | rfl) | hpiece | rfl | hpiece | (rfl | rfl) | rfl
  · exact literal_indifferent (by decide) piece hpiece
  · trivial
  · trivial
  · trivial
  · exact literal_indifferent (by decide) piece hpiece
  · exact hquote
  · exact literal_indifferent hname.sign piece hpiece
  · exact hquote
  · trivial
  · rfl

theorem head_closed : ClosedBy '>' headPattern := by
  refine ⟨_, fun piece hpiece => ?_, rfl⟩
  rcases List.mem_append.mp hpiece with hpiece | hpiece
  · exact literal_avoids (by decide) (by decide) piece hpiece
  · simp only [List.mem_cons, List.not_mem_nil, or_false] at hpiece
    rcases hpiece with rfl | rfl
    · trivial
    · rfl

/-- The patterns begin with a character, so what stands before it does not matter. -/
theorem find_existing_prev (name : Text) (prev : Option Char) (s : Text) :
    find (existingPattern name) prev s = find (existingPattern name) none s := by
  cases s <;> rfl

/-! ## Elements -/

/-- A tag by itself: it begins like one, and ends where it is first closed. -/
def Element (e : Text) : Prop := ∃ t, '>' ∉ t ∧ e = "<meta ".toList ++ (t ++ ['>'])

theorem Element.last {e : Text} (h : Element e) : e.getLast? = some '>' := by
  obtain ⟨t, -, rfl⟩ := h
  rw [← List.append_assoc, List.getLast?_concat]

theorem Element.init {e : Text} (h : Element e) : ∃ p, '>' ∉ p ∧ e = p ++ ['>'] := by
  obtain ⟨t, ht, rfl⟩ := h
  refine ⟨"<meta ".toList ++ t, fun hmem => ?_, (List.append_assoc _ _ _).symm⟩
  rcases List.mem_append.mp hmem with hmem | hmem
  · exact absurd hmem (by decide)
  · exact ht hmem

theorem Element.count {e : Text} (h : Element e) : e.count '>' = 1 := by
  obtain ⟨p, hp, rfl⟩ := h.init
  rw [List.count_append, List.count_eq_zero.mpr hp]
  rfl

/-- Anything that begins and ends like a tag, and is closed once. -/
theorem element_of_count {t : Text}
    (h : ("<meta ".toList ++ (t ++ ['>'])).count '>' = 1) :
    Element ("<meta ".toList ++ (t ++ ['>'])) := by
  refine ⟨t, ?_, rfl⟩
  rw [List.count_append, List.count_append] at h
  have hhead : ("<meta ".toList).count '>' = 0 := by decide
  have hlast : (['>'] : Text).count '>' = 1 := by decide
  exact List.count_eq_zero.mp (by omega)

/-- Where a match begins later in an element, one begins at its beginning. -/
theorem Element.matches_start {e : Text} (h : Element e) {name : Text} {w u : Text}
    (heq : e = w ++ u) (hu : Matches (existingPattern name) (lastOr none w) u []) :
    Matches (existingPattern name) none e [] := by
  cases w with
  | nil => exact heq ▸ hu
  | cons c w =>
    rw [existingPattern_eq] at hu ⊢
    obtain ⟨x, y, rfl, hx, hboundary, a, b, rfl, ha, hb⟩ := matches_append.mp hu
    have hlength : x.length = 5 := by
      rw [← List.length_map Char.toLower, matches_literal.mp hx]
      decide
    obtain ⟨t, ht, rfl⟩ := h
    have hb' : b ≠ [] := by
      rintro rfl
      obtain ⟨-, d, u', hd, -⟩ := hb
      cases hd
    -- all that stands before the name, from the beginning of the element
    have hbefore : ∃ a', c :: w ++ (x ++ a) = "<meta ".toList ++ a' ∧ t ++ ['>'] = a' ++ b := by
      have hparts : "<meta ".toList ++ (t ++ ['>']) = (c :: w ++ (x ++ a)) ++ b := by
        rw [heq]
        simp only [List.append_assoc]
      rcases List.append_eq_append_iff.mp hparts with ⟨a', ha', hrest⟩ | ⟨d, hd, hrest⟩
      · exact ⟨a', ha', hrest⟩
      · have hsix := congrArg List.length hd
        have hmeta : ("<meta ".toList).length = 6 := by decide
        simp only [hmeta, List.length_append, List.length_cons, hlength] at hsix
        obtain rfl : d = [] := List.length_eq_zero_iff.mp (by omega)
        rw [List.append_nil] at hd
        exact ⟨[], by rw [← hd, List.append_nil], hrest.symm⟩
    obtain ⟨a', hbefore, hrest⟩ := hbefore
    have ha' : '>' ∉ a' := by
      have hinit := congrArg List.dropLast hrest
      rw [List.dropLast_concat, List.dropLast_append_of_ne_nil hb'] at hinit
      rw [hinit] at ht
      exact fun hmem => ht (List.mem_append_left _ hmem)
    have hlast : lastOr (lastOr (lastOr none (c :: w)) x) a =
        lastOr (lastOr none "<meta".toList) (' ' :: a') := by
      rw [← lastOr_append, ← lastOr_append, hbefore]
      rfl
    rw [hlast] at hb
    rw [hrest]
    refine matches_append.mpr ⟨"<meta".toList, ' ' :: a' ++ b, rfl, ?_, ?_, ' ' :: a', b, rfl,
      ?_, hb⟩
    · exact matches_literal.mpr (by decide)
    · rfl
    · intro d hd
      rw [bne_iff_ne]
      rintro rfl
      rcases List.mem_cons.mp hd with hd | hd
      · exact absurd hd (by decide)
      · exact ha' hd

theorem Element.find_of_matches {e : Text} (h : Element e) {name : Text} (hname : IsName name)
    (hmatches : Matches (existingPattern name) none e []) :
    find (existingPattern name) none e = some ⟨[], e, []⟩ := by
  obtain ⟨p, hp, hinit⟩ := h.init
  have hrun : run (existingPattern name) none (e ++ []) = some [] := by
    rw [hinit, List.append_assoc]
    refine ((existing_closed hname).run_iff hp).mpr ⟨?_, rfl⟩
    rw [← hinit]
    exact hmatches
  have hhere := find_here hrun
  rw [List.append_nil] at hhere
  exact hhere

/-- A pattern matches an element as a whole, or not at all. -/
theorem Element.find_eq {e : Text} (h : Element e) {name : Text} (hname : IsName name)
    (prev : Option Char) : find (existingPattern name) prev e =
      if test (existingPattern name) e then some ⟨[], e, []⟩ else none := by
  have hclosed := existing_closed hname
  rw [find_existing_prev]
  unfold test
  cases hfind : find (existingPattern name) none e with
  | none => rfl
  | some m =>
    obtain ⟨heq, hmatches⟩ := find_sound hfind
    obtain ⟨p, hp, htext⟩ := hclosed.ends hmatches
    obtain ⟨q, hq, hinit⟩ := h.init
    have hcount := h.count
    rw [heq, htext, List.count_append, List.count_append, List.count_append] at hcount
    have hone : (['>'] : Text).count '>' = 1 := by decide
    have hafter : m.after = [] := by
      have hbefore : '>' ∉ m.before := List.count_eq_zero.mp (by omega)
      have hparts : q ++ '>' :: [] = (m.before ++ p) ++ '>' :: m.after := by
        rw [← hinit, heq, htext]
        simp only [List.append_assoc, List.cons_append, List.nil_append]
      exact (append_stop_inj hq (fun hmem => (List.mem_append.mp hmem).elim hbefore hp)
        hparts).2.symm
    rw [hafter, List.append_nil] at heq
    rw [hafter] at hmatches
    have hwhole := h.find_of_matches hname (h.matches_start heq hmatches)
    rw [hfind] at hwhole
    rw [hwhole]
    rfl

theorem Element.test_iff {e : Text} (h : Element e) {name : Text} (hname : IsName name) :
    test (existingPattern name) e = true ↔ Matches (existingPattern name) none e [] := by
  constructor
  · intro htest
    have hfind := h.find_eq hname none
    rw [if_pos htest] at hfind
    exact (find_sound hfind).2
  · intro hmatches
    unfold test
    rw [h.find_of_matches hname hmatches]
    rfl

/-! ## The tags of values -/

theorem mem_replaceAll {c d : Char} {entity value : Text} (h : d ∈ replaceAll c entity value) :
    d ∈ entity ∨ (d ∈ value ∧ d ≠ c) := by
  obtain ⟨e, he, hd⟩ := List.mem_flatMap.mp h
  split at hd
  · exact .inl hd
  · next hne =>
    obtain rfl := List.mem_singleton.mp hd
    exact .inr ⟨he, hne⟩

theorem escapeHtmlAttribute_closed (value : Text) : '>' ∉ escapeHtmlAttribute value := by
  intro h
  rcases mem_replaceAll h with h | ⟨-, h⟩
  · exact absurd h (by decide)
  · exact h rfl

/-- A tag up to its value. -/
def tagStart (name : Text) : Text := "<meta name=\"".toList ++ (name ++ "\" content=\"".toList)

theorem metaTag_eq (name value : Text) : metaTag name value =
    tagStart name ++ (escapeHtmlAttribute value ++ "\">".toList) := by
  unfold metaTag tagStart
  simp only [List.append_assoc]

theorem metaTag_element {name : Text} (hname : IsName name) (value : Text) :
    Element (metaTag name value) := by
  refine ⟨"name=\"".toList ++ (name ++ ("\" content=\"".toList ++
    (escapeHtmlAttribute value ++ ['"']))), ?_, ?_⟩
  · simp only [List.mem_append, not_or]
    exact ⟨by decide, hname.tag, by decide, escapeHtmlAttribute_closed value, by decide⟩
  · unfold metaTag
    simp only [List.append_assoc]
    rfl

/-- A tag is found by its own name. -/
theorem metaTag_own {name : Text} (hname : IsName name) (value : Text) :
    test (existingPattern name) (metaTag name value) = true := by
  have hspace : ∀ c ∈ [' '], (c != '>') = true := by
    intro c hc
    rw [List.mem_singleton.mp hc]
    rfl
  have hmatches : Matches (existingPattern name) none (metaTag name value) [] := by
    rw [existingPattern_eq]
    refine matches_append.mpr ⟨"<meta".toList, ' ' :: ("name=\"".toList ++ (name ++
      ("\" content=\"".toList ++ (escapeHtmlAttribute value ++ "\">".toList)))), rfl,
      matches_literal.mpr (by decide), rfl, [' '], _, rfl, hspace, rfl, ?_⟩
    refine matches_append.mpr ⟨"name=".toList, _, rfl, matches_literal.mpr (by decide),
      '"', _, rfl, by decide, ?_⟩
    refine matches_append.mpr ⟨name, _, rfl, matches_literal.mpr hname.lower,
      '"', _, rfl, by decide, " content=\"".toList ++ (escapeHtmlAttribute value ++ ['"']), ['>'],
      ?_, ?_, '>', [], rfl, rfl, rfl⟩
    · simp only [List.append_assoc]
      rfl
    · intro c hc
      rw [bne_iff_ne]
      rintro rfl
      simp only [List.mem_append] at hc
      rcases hc with hc | hc | hc
      · exact absurd hc (by decide)
      · exact escapeHtmlAttribute_closed value hc
      · exact absurd hc (by decide)
  exact ((metaTag_element hname value).test_iff hname).mpr hmatches

/-- Tags of different names are different, whatever their values are. -/
theorem tagStart_inj {name name' : Text} (hname : IsName name) (hname' : IsName name')
    {r r' : Text} (h : tagStart name ++ r = tagStart name' ++ r') : name = name' := by
  unfold tagStart at h
  simp only [List.append_assoc] at h
  have hparts : name ++ '"' :: (" content=\"".toList ++ r) =
      name' ++ '"' :: (" content=\"".toList ++ r') := List.append_cancel_left h
  exact (append_stop_inj hname.quote hname'.quote hparts).1

/-! ## One round -/

section Round

variable {names : List Text} {html : Text} {page : Found}

theorem Blank.html_eq (h : Blank names html page) :
    html = page.before ++ page.text ++ page.after := by
  rw [(find_sound h.head).1, List.append_assoc]

/-- All that stands before the tags ends in a tag. -/
theorem Blank.last (h : Blank names html page) :
    (page.before ++ page.text).getLast? = some '>' := by
  obtain ⟨p, -, htext⟩ := head_closed.ends_found h.head
  rw [htext, ← List.append_assoc, List.getLast?_concat]

theorem find_none_of_test {ps : List Piece} {s : Text} (h : test ps s = false) :
    find ps none s = none := by
  unfold test at h
  rw [Option.isSome_eq_false_iff, Option.isNone_iff_eq_none] at h
  exact h

/-- A name finds nothing outside the tags. -/
theorem Blank.find_rest (h : Blank names html page) {name : Text} (hmem : name ∈ names)
    (hname : IsName name) : find (existingPattern name) none (page.before ++ page.text) = none ∧
      find (existingPattern name) none page.after = none := by
  have hnone := find_none_of_test (h.unnamed name hmem)
  rw [h.html_eq, (existing_closed hname).find_append h.last, Option.or_eq_none_iff,
    Option.map_eq_none_iff, Option.map_eq_none_iff,
    find_existing_prev name (some '>') page.after] at hnone
  exact hnone

/-- Among tags the first one that matches is found. -/
theorem find_tags {name : Text} (hname : IsName name) {tags : List Text}
    (htags : ∀ e ∈ tags, Element e ∧ test (existingPattern name) e = false) (r : Text) :
    find (existingPattern name) none (tags.flatten ++ r) =
      (find (existingPattern name) none r).map fun m =>
        { m with before := tags.flatten ++ m.before } := by
  induction tags with
  | nil =>
    show find (existingPattern name) none r = _
    cases find (existingPattern name) none r <;> rfl
  | cons e tags ih =>
    obtain ⟨⟨helement, htest⟩, hrest⟩ := List.forall_mem_cons.mp htags
    rw [List.flatten_cons, List.append_assoc, (existing_closed hname).find_append helement.last,
      find_none_of_test htest, find_existing_prev, ih hrest, Option.map_map]
    cases find (existingPattern name) none r with
    | none => rfl
    | some m =>
      show some (⟨e ++ (tags.flatten ++ m.before), m.text, m.after⟩ : Found) = _
      rw [← List.append_assoc]
      rfl

theorem Blank.find_document (h : Blank names html page) {name : Text} (hmem : name ∈ names)
    (hname : IsName name) (tags : List Text) : find (existingPattern name) none
      (document page tags) = (find (existingPattern name) none (tags.flatten ++ page.after)).map
        fun m => { m with before := page.before ++ page.text ++ m.before } := by
  unfold document
  rw [(existing_closed hname).find_append h.last, (h.find_rest hmem hname).1, find_existing_prev]
  rfl

/-- Where no tag matches, the new one goes first. -/
theorem Blank.injectMeta_insert (h : Blank names html page) {entry : Text × Text}
    (hmem : entry.1 ∈ names) (hname : IsName entry.1) {tags : List Text}
    (htags : ∀ e ∈ tags, Element e ∧ test (existingPattern entry.1) e = false) :
    injectMeta (document page tags) entry = document page (tagOf entry :: tags) := by
  have hfind : find (existingPattern entry.1) none (document page tags) = none := by
    rw [h.find_document hmem hname, find_tags hname htags, (h.find_rest hmem hname).2]
    rfl
  have htest : test (existingPattern entry.1) (document page tags) = false := by
    unfold test
    rw [hfind]
    rfl
  unfold injectMeta
  simp only [htest, Bool.false_eq_true, if_false]
  unfold insertMetaIntoHead document
  rw [head_closed.find_any_after h.head]
  show page.before ++ (page.text ++ tagOf entry) ++ (tags.flatten ++ page.after) = _
  rw [List.flatten_cons]
  simp only [List.append_assoc]

/-- What a tag becomes in the place of another. -/
def replaced (page : Found) (before : List Text) (e : Text) (after : List Text)
    (entry : Text × Text) : Text :=
  expand ⟨page.before ++ page.text ++ before.flatten, e, after.flatten ++ page.after⟩
    (tagOf entry)

/-- Otherwise it takes the place of the first tag that matches. -/
theorem Blank.injectMeta_replace (h : Blank names html page) {entry : Text × Text}
    (hmem : entry.1 ∈ names) (hname : IsName entry.1) {before after : List Text} {e : Text}
    (hbefore : ∀ e ∈ before, Element e ∧ test (existingPattern entry.1) e = false)
    (he : Element e) (htest : test (existingPattern entry.1) e = true) :
    injectMeta (document page (before ++ e :: after)) entry =
      document page (before ++ replaced page before e after entry :: after) := by
  have hfind : find (existingPattern entry.1) none (document page (before ++ e :: after)) =
      some ⟨page.before ++ page.text ++ before.flatten, e, after.flatten ++ page.after⟩ := by
    rw [h.find_document hmem hname, List.flatten_append, List.append_assoc,
      find_tags hname hbefore, List.flatten_cons, List.append_assoc,
      (existing_closed hname).find_append he.last, he.find_eq hname, if_pos htest]
    show some (⟨page.before ++ page.text ++ (before.flatten ++ []), e,
      [] ++ (after.flatten ++ page.after)⟩ : Found) = _
    rw [List.append_nil, List.nil_append]
  have htest : test (existingPattern entry.1) (document page (before ++ e :: after)) = true := by
    unfold test
    rw [hfind]
    rfl
  unfold injectMeta
  simp only [htest, if_true]
  unfold replaceFirst
  rw [hfind]
  show page.before ++ page.text ++ before.flatten ++ replaced page before e after entry ++
    (after.flatten ++ page.after) = _
  unfold document
  rw [List.flatten_append, List.flatten_cons]
  simp only [List.append_assoc]

/-- A row of tags has a first one that matches, or none. -/
theorem first_match (name : Text) (tags : List Text) :
    (∀ e ∈ tags, test (existingPattern name) e = false) ∨
      ∃ before e after, tags = before ++ e :: after ∧
        (∀ d ∈ before, test (existingPattern name) d = false) ∧
          test (existingPattern name) e = true := by
  induction tags with
  | nil => exact .inl fun _ he => absurd he List.not_mem_nil
  | cons d tags ih =>
    cases hd : test (existingPattern name) d with
    | true => exact .inr ⟨[], d, tags, rfl, fun _ h => absurd h List.not_mem_nil, hd⟩
    | false =>
      rcases ih with hnone | ⟨before, e, after, rfl, hbefore, he⟩
      · exact .inl (List.forall_mem_cons.mpr ⟨hd, hnone⟩)
      · exact .inr ⟨d :: before, e, after, rfl, List.forall_mem_cons.mpr ⟨hd, hbefore⟩, he⟩

end Round

/-! ## Values that do not get in the way of each other -/

/-- Values of different names, all of them among those that the page has no tag for. -/
structure Named (names : List Text) (values : List (Text × Text)) : Prop where
  named : ∀ x ∈ values, x.1 ∈ names ∧ IsName x.1
  nodup : (values.map Prod.fst).Nodup

section Injected

variable {names : List Text} {html : Text} {page : Found} {values : List (Text × Text)}

theorem Named.element (h : Named names values) {x : Text × Text} (hx : x ∈ values) :
    Element (tagOf x) := metaTag_element (h.named x hx).2 x.2

/-- Values before and after one of them have other names. -/
theorem Named.ne (h : Named names values) {before after : List (Text × Text)} {x : Text × Text}
    (hsplit : values = before ++ x :: after) :
    (∀ y ∈ before, x.1 ≠ y.1) ∧ ∀ y ∈ after, x.1 ≠ y.1 := by
  have hnodup := h.nodup
  rw [hsplit, List.map_append, List.map_cons, List.nodup_append] at hnodup
  obtain ⟨-, hafter, hbefore⟩ := hnodup
  constructor
  · intro y hy heq
    exact hbefore y.1 (List.mem_map_of_mem hy) x.1 List.mem_cons_self heq.symm
  · intro y hy heq
    exact (List.nodup_cons.mp hafter).1 (heq ▸ List.mem_map_of_mem hy)

theorem Harmless.apart_tags (h : Harmless page values) (hvalues : Named names values)
    {x : Text × Text} (hx : x ∈ values) {others : List (Text × Text)}
    (hothers : ∀ y ∈ others, y ∈ values ∧ x.1 ≠ y.1) :
    ∀ e ∈ others.map tagOf, Element e ∧ test (existingPattern x.1) e = false := by
  intro e he
  obtain ⟨y, hy, rfl⟩ := List.mem_map.mp he
  obtain ⟨hmem, hne⟩ := hothers y hy
  exact ⟨hvalues.element hmem, h.apart x hx y hmem hne⟩

/-- The first time every tag is new. -/
theorem Harmless.insert (h : Harmless page values) (hblank : Blank names html page)
    (hvalues : Named names values) {done rest : List (Text × Text)}
    (hsplit : values = done ++ rest) :
    rest.foldl injectMeta (document page (done.reverse.map tagOf)) = withTags page values := by
  induction rest generalizing done with
  | nil =>
    rw [List.append_nil] at hsplit
    rw [hsplit]
    rfl
  | cons x rest ih =>
    have hx : x ∈ values := hsplit ▸ List.mem_append_right _ List.mem_cons_self
    have htags : ∀ e ∈ done.reverse.map tagOf,
        Element e ∧ test (existingPattern x.1) e = false :=
      h.apart_tags hvalues hx fun y hy =>
        ⟨hsplit ▸ List.mem_append_left _ (List.mem_reverse.mp hy),
          (hvalues.ne hsplit).1 y (List.mem_reverse.mp hy)⟩
    rw [List.foldl_cons, hblank.injectMeta_insert (hvalues.named x hx).1 (hvalues.named x hx).2
      htags]
    have hdone : values = (done ++ [x]) ++ rest := by
      rw [hsplit, List.append_assoc]
      rfl
    have hnext := ih hdone
    rw [List.reverse_append] at hnext
    exact hnext

/-- The second time every tag finds itself. -/
theorem Harmless.again (h : Harmless page values) (hblank : Blank names html page)
    (hvalues : Named names values) {x : Text × Text} (hx : x ∈ values) :
    injectMeta (withTags page values) x = withTags page values := by
  obtain ⟨earlier, later, hsplit⟩ := List.append_of_mem hx
  have hreverse : values.reverse = later.reverse ++ x :: earlier.reverse := by
    rw [hsplit, List.reverse_append, List.reverse_cons, List.append_assoc]
    rfl
  have hlater : ∀ e ∈ later.reverse.map tagOf,
      Element e ∧ test (existingPattern x.1) e = false :=
    h.apart_tags hvalues hx fun y hy =>
      ⟨hsplit ▸ List.mem_append_right _ (List.mem_cons_of_mem _ (List.mem_reverse.mp hy)),
        (hvalues.ne hsplit).2 y (List.mem_reverse.mp hy)⟩
  have hself : replaced page (later.reverse.map tagOf) (tagOf x) (earlier.reverse.map tagOf) x =
      tagOf x := h.expands _ _ _ hreverse
  have hdocument : withTags page values = document page
      (later.reverse.map tagOf ++ tagOf x :: earlier.reverse.map tagOf) := by
    unfold withTags
    rw [hreverse, List.map_append, List.map_cons]
  rw [hdocument, hblank.injectMeta_replace (hvalues.named x hx).1 (hvalues.named x hx).2 hlater
    (hvalues.element hx) (metaTag_own (hvalues.named x hx).2 x.2), hself]

theorem foldl_fixed {α β : Type} {f : β → α → β} {b : β} {l : List α}
    (h : ∀ a ∈ l, f b a = b) : l.foldl f b = b := by
  induction l with
  | nil => rfl
  | cons a l ih =>
    rw [List.foldl_cons, h a List.mem_cons_self]
    exact ih fun a ha => h a (List.mem_cons_of_mem _ ha)

theorem Blank.document_nil (h : Blank names html page) : document page [] = html :=
  h.html_eq.symm

/-- Values that do not get in the way of each other are written as they should be, and
writing them again changes nothing. -/
theorem Harmless.injected (h : Harmless page values) (hblank : Blank names html page)
    (hvalues : Named names values) :
    values.foldl injectMeta html = withTags page values ∧
      values.foldl injectMeta (withTags page values) = withTags page values := by
  refine ⟨?_, foldl_fixed fun x hx => h.again hblank hvalues hx⟩
  have hinsert := h.insert hblank hvalues (List.nil_append values).symm
  rw [← hblank.document_nil]
  exact hinsert

end Injected

/-! ## Rounds that only replace -/

theorem inert_close : Inert '>' :=
  ⟨by decide, fun _ => rfl⟩

/-- A replaced tag begins and ends like the tag that it was. -/
theorem expand_metaTag {entry : Text × Text} (hname : IsName entry.1) (m : Found) :
    ∃ t, expand m (tagOf entry) = tagStart entry.1 ++ (t ++ ['>']) := by
  have hstart : '$' ∉ tagStart entry.1 := by
    unfold tagStart
    simp only [List.mem_append, not_or]
    exact ⟨by decide, hname.sign, by decide⟩
  unfold tagOf
  rw [metaTag_eq, expand_plain m hstart]
  have hend : escapeHtmlAttribute entry.2 ++ "\">".toList =
      (escapeHtmlAttribute entry.2 ++ ['"']) ++ ['>'] := by
    rw [List.append_assoc]
    rfl
  rw [hend, expand_concat inert_close]
  exact ⟨_, rfl⟩

theorem expand_metaTag_element {entry : Text × Text} (hname : IsName entry.1) {m : Found}
    (hcount : (expand m (tagOf entry)).count '>' ≤ 1) : Element (expand m (tagOf entry)) := by
  obtain ⟨t, ht⟩ := expand_metaTag hname m
  have hparts : tagStart entry.1 ++ (t ++ ['>']) = "<meta ".toList ++
      (("name=\"".toList ++ (entry.1 ++ ("\" content=\"".toList ++ t))) ++ ['>']) := by
    unfold tagStart
    simp only [List.append_assoc]
    rfl
  have hone := (metaTag_element hname entry.2).count
  have hle := count_expand inert_close m (tagOf entry)
  unfold tagOf at hle hcount
  rw [hone] at hle
  unfold tagOf at ht ⊢
  rw [ht, hparts] at hcount hle ⊢
  exact element_of_count (by omega)

theorem count_flatten {tags : List Text} (h : ∀ e ∈ tags, Element e) :
    tags.flatten.count '>' = tags.length := by
  induction tags with
  | nil => rfl
  | cons e tags ih =>
    obtain ⟨he, htags⟩ := List.forall_mem_cons.mp h
    rw [List.flatten_cons, List.count_append, he.count, ih htags, List.length_cons]
    omega

theorem flatten_inj {tags tags' : List Text} (h : ∀ e ∈ tags, Element e)
    (h' : ∀ e ∈ tags', Element e) {r : Text}
    (heq : tags.flatten ++ r = tags'.flatten ++ r) : tags = tags' := by
  have hflatten : tags.flatten = tags'.flatten := List.append_cancel_right heq
  clear heq
  induction tags generalizing tags' with
  | nil =>
    cases tags' with
    | nil => rfl
    | cons e' tags' =>
      obtain ⟨t, -, rfl⟩ := h' e' List.mem_cons_self
      cases hflatten
  | cons e tags ih =>
    cases tags' with
    | nil =>
      obtain ⟨t, -, rfl⟩ := h e List.mem_cons_self
      cases hflatten
    | cons e' tags' =>
      obtain ⟨he, htags⟩ := List.forall_mem_cons.mp h
      obtain ⟨he', htags'⟩ := List.forall_mem_cons.mp h'
      obtain ⟨p, hp, rfl⟩ := he.init
      obtain ⟨p', hp', rfl⟩ := he'.init
      simp only [List.flatten_cons, List.append_assoc, List.cons_append,
        List.nil_append] at hflatten
      obtain ⟨rfl, hrest⟩ := append_stop_inj hp hp' hflatten
      rw [ih htags htags' hrest]

section Count

variable {entry : Text × Text}

/-- No round loses the end of a tag. -/
theorem count_injectMeta (hname : IsName entry.1) (s : Text) :
    s.count '>' ≤ (injectMeta s entry).count '>' := by
  unfold injectMeta
  dsimp only
  split
  · unfold replaceFirst
    cases hfind : find (existingPattern entry.1) none s with
    | none => exact Nat.le_refl _
    | some m =>
      obtain ⟨p, hp, htext⟩ := (existing_closed hname).ends_found hfind
      have hone : (['>'] : Text).count '>' = 1 := by decide
      have hle := count_expand inert_close m (metaTag entry.1 entry.2)
      rw [(metaTag_element hname entry.2).count] at hle
      show s.count '>' ≤ (m.before ++ expand m (metaTag entry.1 entry.2) ++ m.after).count '>'
      rw [(find_sound hfind).1, htext]
      simp only [List.count_append, List.count_eq_zero.mpr hp, hone]
      omega
  · unfold insertMetaIntoHead
    cases hfind : find headPattern none s with
    | none => exact Nat.le_refl _
    | some m =>
      show s.count '>' ≤ (m.before ++ (m.text ++ metaTag entry.1 entry.2) ++ m.after).count '>'
      rw [(find_sound hfind).1]
      simp only [List.count_append]
      omega

/-- A value whose tag stays one tag wherever it is put. -/
def Flat (entry : Text × Text) : Prop :=
  ∀ m, (expand m (tagOf entry)).count '>' = 1

/-- Such a value adds one end of a tag at most. -/
theorem Flat.count_le (h : Flat entry) (hname : IsName entry.1) (s : Text) :
    (injectMeta s entry).count '>' ≤ s.count '>' + 1 := by
  unfold injectMeta
  dsimp only
  split
  · unfold replaceFirst
    cases hfind : find (existingPattern entry.1) none s with
    | none => exact Nat.le_succ _
    | some m =>
      show (m.before ++ expand m (tagOf entry) ++ m.after).count '>' ≤ _
      rw [(find_sound hfind).1]
      simp only [List.count_append, h m]
      omega
  · unfold insertMetaIntoHead
    cases hfind : find headPattern none s with
    | none => exact Nat.le_succ _
    | some m =>
      show (m.before ++ (m.text ++ tagOf entry) ++ m.after).count '>' ≤ _
      have hone : (tagOf entry).count '>' = 1 := (metaTag_element hname entry.2).count
      rw [(find_sound hfind).1]
      simp only [List.count_append, hone]
      omega

theorem count_foldl {entries : List (Text × Text)} (h : ∀ x ∈ entries, IsName x.1) (s : Text) :
    s.count '>' ≤ (entries.foldl injectMeta s).count '>' := by
  induction entries generalizing s with
  | nil => exact Nat.le_refl _
  | cons x entries ih =>
    obtain ⟨hx, hentries⟩ := List.forall_mem_cons.mp h
    exact Nat.le_trans (count_injectMeta hx s) (ih hentries (injectMeta s x))

theorem count_foldl_le {entries : List (Text × Text)}
    (h : ∀ x ∈ entries, IsName x.1 ∧ Flat x) (s : Text) :
    (entries.foldl injectMeta s).count '>' ≤ s.count '>' + entries.length := by
  induction entries generalizing s with
  | nil => exact Nat.le_refl _
  | cons x entries ih =>
    obtain ⟨⟨hx, hflat⟩, hentries⟩ := List.forall_mem_cons.mp h
    have hhead := hflat.count_le hx s
    have htail := ih hentries (injectMeta s x)
    rw [List.foldl_cons, List.length_cons]
    omega

end Count

/-- Rounds that each put one tag in the place of one. -/
inductive Rewrites (page : Found) : List (Text × Text) → List Text → List Text → Prop where
  | nil (tags : List Text) : Rewrites page [] tags tags
  | cons {x : Text × Text} {rest : List (Text × Text)} {before after final : List Text} {e : Text} :
      (∀ d ∈ before ++ e :: after, Element d) →
      (∀ d ∈ before, test (existingPattern x.1) d = false) →
      test (existingPattern x.1) e = true →
      Element (replaced page before e after x) →
      Rewrites page rest (before ++ replaced page before e after x :: after) final →
      Rewrites page (x :: rest) (before ++ e :: after) final

section Again

variable {names : List Text} {html : Text} {page : Found} {values : List (Text × Text)}

theorem count_document (tags : List Text) : (document page tags).count '>' =
    tags.flatten.count '>' + (document page []).count '>' := by
  unfold document
  simp only [List.count_append, List.flatten_nil, List.count_nil]
  omega

/-- Rounds that end with no more ends of tags than they began with only replace. -/
theorem Blank.rewrites (hblank : Blank names html page) {entries : List (Text × Text)}
    (hentries : ∀ x ∈ entries, x.1 ∈ names ∧ IsName x.1) {tags : List Text}
    (htags : ∀ e ∈ tags, Element e)
    (hcount : (entries.foldl injectMeta (document page tags)).count '>' ≤
      (document page tags).count '>') :
    ∃ final, entries.foldl injectMeta (document page tags) = document page final ∧
      (∀ e ∈ final, Element e) ∧ Rewrites page entries tags final := by
  induction entries generalizing tags with
  | nil => exact ⟨tags, rfl, htags, .nil tags⟩
  | cons x entries ih =>
    obtain ⟨⟨hmem, hname⟩, hentries⟩ := List.forall_mem_cons.mp hentries
    have hnames : ∀ y ∈ entries, IsName y.1 := fun y hy => (hentries y hy).2
    rw [List.foldl_cons] at hcount ⊢
    rcases first_match x.1 tags with hnone | ⟨before, e, after, rfl, hbefore, he⟩
    · -- a new tag would be one too many
      rw [hblank.injectMeta_insert hmem hname fun e he => ⟨htags e he, hnone e he⟩] at hcount
      have hgrows := count_foldl hnames (document page (tagOf x :: tags))
      have hone : (tagOf x).count '>' = 1 := (metaTag_element hname x.2).count
      rw [count_document, List.flatten_cons, List.count_append] at hgrows
      rw [count_document tags] at hcount
      omega
    · have helement : Element e := htags e (List.mem_append_right _ List.mem_cons_self)
      have hreplace : injectMeta (document page (before ++ e :: after)) x = _ :=
        hblank.injectMeta_replace hmem hname
          (fun d hd => ⟨htags d (List.mem_append_left _ hd), hbefore d hd⟩) helement he
      rw [hreplace] at hcount ⊢
      have hgrows := count_foldl hnames
        (document page (before ++ replaced page before e after x :: after))
      have hone := helement.count
      rw [count_document] at hgrows
      rw [count_document (before ++ e :: after)] at hcount
      simp only [List.flatten_append, List.flatten_cons, List.count_append] at hcount hgrows
      have hx : Element (replaced page before e after x) :=
        expand_metaTag_element hname (show (replaced page before e after x).count '>' ≤ 1 by omega)
      have htags' : ∀ d ∈ before ++ replaced page before e after x :: after, Element d := by
        intro d hd
        rcases List.mem_append.mp hd with hd | hd
        · exact htags d (List.mem_append_left _ hd)
        · rcases List.mem_cons.mp hd with rfl | hd
          · exact hx
          · exact htags d (List.mem_append_right _ (List.mem_cons_of_mem _ hd))
      have hnext : (entries.foldl injectMeta (document page
          (before ++ replaced page before e after x :: after))).count '>' ≤
            (document page (before ++ replaced page before e after x :: after)).count '>' := by
        rw [count_document (before ++ replaced page before e after x :: after)]
        simp only [List.flatten_append, List.flatten_cons, List.count_append]
        have hcount' := hx.count
        omega
      obtain ⟨final, hfinal, helements, hrewrites⟩ := ih hentries htags' hnext
      exact ⟨final, hfinal, helements, .cons htags hbefore he hx hrewrites⟩

theorem Rewrites.length {entries : List (Text × Text)} {tags final : List Text}
    (h : Rewrites page entries tags final) : final.length = tags.length := by
  induction h with
  | nil tags => rfl
  | cons _ _ _ _ _ ih =>
    rw [ih]
    simp only [List.length_append, List.length_cons]

theorem Rewrites.inv {x : Text × Text} {rest : List (Text × Text)} {tags final : List Text}
    (h : Rewrites page (x :: rest) tags final) : ∃ before e after, tags = before ++ e :: after ∧
      (∀ d ∈ tags, Element d) ∧ (∀ d ∈ before, test (existingPattern x.1) d = false) ∧
      test (existingPattern x.1) e = true ∧ Element (replaced page before e after x) ∧
      Rewrites page rest (before ++ replaced page before e after x :: after) final := by
  cases h with
  | cons htags hbefore htest hx hrest =>
    exact ⟨_, _, _, rfl, htags, hbefore, htest, hx, hrest⟩

theorem Rewrites.reach {done rest : List (Text × Text)} {tags final : List Text}
    (h : Rewrites page (done ++ rest) tags final) : ∃ tags', Rewrites page rest tags' final := by
  induction done generalizing tags with
  | nil => exact ⟨tags, h⟩
  | cons x done ih =>
    obtain ⟨before, e, after, rfl, -, -, -, -, hrest⟩ := h.inv
    exact ih hrest

theorem getElem?_middle {α : Type} (l : List α) (a : α) (r : List α) :
    (l ++ a :: r)[l.length]? = some a := by
  rw [List.getElem?_append_right (Nat.le_refl _), Nat.sub_self]
  rfl

theorem getElem?_middle_ne {α : Type} {l r : List α} {i : Nat} (h : i ≠ l.length) (a b : α) :
    (l ++ a :: r)[i]? = (l ++ b :: r)[i]? := by
  by_cases hi : i < l.length
  · rw [List.getElem?_append_left hi, List.getElem?_append_left hi]
  · rw [List.getElem?_append_right (by omega), List.getElem?_append_right (by omega)]
    obtain ⟨k, hk⟩ : ∃ k, i - l.length = k + 1 := ⟨i - l.length - 1, by omega⟩
    rw [hk]
    rfl

/-- A tag in the place of another still has its own name. -/
theorem replaced_ne {x y : Text × Text} (hx : IsName x.1) (hy : IsName y.1) (hne : x.1 ≠ y.1)
    (before : List Text) (e : Text) (after : List Text) :
    replaced page before e after x ≠ tagOf y := by
  intro heq
  obtain ⟨t, ht⟩ := expand_metaTag hx ⟨page.before ++ page.text ++ before.flatten, e,
    after.flatten ++ page.after⟩
  unfold replaced at heq
  rw [ht] at heq
  unfold tagOf at heq
  rw [metaTag_eq] at heq
  exact hne (tagStart_inj hx hy heq)

/-- No round of another name restores a tag. -/
theorem Rewrites.stays {rest : List (Text × Text)} {tags final : List Text}
    (h : Rewrites page rest tags final) {k : Text × Text} (hk : IsName k.1)
    (hrest : ∀ x ∈ rest, IsName x.1 ∧ x.1 ≠ k.1) {i : Nat}
    (hi : final[i]? = some (tagOf k)) : tags[i]? = some (tagOf k) := by
  induction rest generalizing tags with
  | nil =>
    cases h
    exact hi
  | cons x rest ih =>
    obtain ⟨before, e, after, rfl, -, -, -, -, hrewrites⟩ := h.inv
    obtain ⟨⟨hname, hne⟩, hrest⟩ := List.forall_mem_cons.mp hrest
    have hnext := ih hrewrites hrest
    by_cases hplace : i = before.length
    · rw [hplace, getElem?_middle] at hnext
      exact absurd (Option.some.inj hnext) (replaced_ne hname hk hne before e after)
    · rwa [getElem?_middle_ne hplace _ e] at hnext

/-! ## Going over a page again -/

theorem getElem?_middle_cases {α : Type} {l r : List α} {a k : α} {i : Nat}
    (h : (l ++ a :: r)[i]? = some k) :
    (i < l.length ∧ k ∈ l) ∨ (i = l.length ∧ k = a) ∨ (l.length < i ∧ k ∈ r) := by
  by_cases hlt : i < l.length
  · rw [List.getElem?_append_left hlt] at h
    exact .inl ⟨hlt, List.mem_of_getElem? h⟩
  · rw [List.getElem?_append_right (by omega)] at h
    cases hrest : i - l.length with
    | zero =>
      rw [hrest] at h
      exact .inr (.inl ⟨by omega, (Option.some.inj h).symm⟩)
    | succ n =>
      rw [hrest, List.getElem?_cons_succ] at h
      exact .inr (.inr ⟨by omega, List.mem_of_getElem? h⟩)

theorem reverse_split {done rest : List (Text × Text)} {x : Text × Text}
    (hsplit : values = done ++ x :: rest) :
    values.reverse = rest.reverse ++ x :: done.reverse := by
  rw [hsplit, List.reverse_append, List.reverse_cons, List.append_assoc]
  rfl

/-- The value whose tag stands at a place, told from the value of the round. -/
theorem owner_cases {done rest : List (Text × Text)} {x k : Text × Text}
    (hsplit : values = done ++ x :: rest) {i : Nat} (hi : values.reverse[i]? = some k) :
    (i < rest.length ∧ k ∈ rest) ∨ (i = rest.length ∧ k = x) ∨ (rest.length < i ∧ k ∈ done) := by
  rw [reverse_split hsplit] at hi
  have hcases := getElem?_middle_cases hi
  rwa [List.length_reverse, List.mem_reverse, List.mem_reverse] at hcases

theorem owner_tag {k : Text × Text} {i : Nat} (hi : values.reverse[i]? = some k) :
    (values.reverse.map tagOf)[i]? = some (tagOf k) := by
  rw [List.getElem?_map, hi]
  rfl

theorem Named.disjoint (h : Named names values) {done rest : List (Text × Text)}
    (hsplit : values = done ++ rest) {y z : Text × Text} (hy : y ∈ done) (hz : z ∈ rest) :
    y.1 ≠ z.1 := by
  have hnodup := h.nodup
  rw [hsplit, List.map_append, List.nodup_append] at hnodup
  exact hnodup.2.2 y.1 (List.mem_map_of_mem hy) z.1 (List.mem_map_of_mem hz)

/-- Each round of a page that is left as it is goes to its own place, or to one of a round
still to come. -/
theorem Named.place_le (hvalues : Named names values) {done rest : List (Text × Text)}
    {x : Text × Text} (hsplit : values = done ++ x :: rest) {before after : List Text} {e : Text}
    (h : Rewrites page rest (before ++ replaced page before e after x :: after)
      (values.reverse.map tagOf)) : before.length ≤ rest.length := by
  have hlength := h.length
  rw [List.length_map, List.length_reverse, List.length_append, List.length_cons] at hlength
  have hbound : before.length < values.reverse.length := by
    rw [List.length_reverse]
    omega
  obtain ⟨k, hk⟩ : ∃ k, values.reverse[before.length]? = some k :=
    ⟨_, List.getElem?_eq_getElem hbound⟩
  rcases owner_cases hsplit hk with ⟨hlt, -⟩ | ⟨heq, -⟩ | ⟨-, hdone⟩
  · exact Nat.le_of_lt hlt
  · exact Nat.le_of_eq heq
  · -- the tag of a round that is over is lost
    exfalso
    have hname := hvalues.named k (hsplit ▸ List.mem_append_left _ hdone)
    have hx := hvalues.named x (hsplit ▸ List.mem_append_right _ List.mem_cons_self)
    have hstays := h.stays hname.2 (fun y hy => ⟨(hvalues.named y (hsplit ▸
      List.mem_append_right _ (List.mem_cons_of_mem _ hy))).2, Ne.symm (hvalues.disjoint hsplit
        hdone (List.mem_cons_of_mem _ hy))⟩) (owner_tag hk)
    rw [getElem?_middle] at hstays
    exact replaced_ne hx.2 hname.2 (Ne.symm (hvalues.disjoint hsplit hdone List.mem_cons_self))
      before e after (Option.some.inj hstays)

/-- Where tags stand after the place of a round, its tag only has dollar signs halved. -/
theorem Named.doubled (hvalues : Named names values) (hblank : Blank names html page)
    {x : Text × Text} (hx : x ∈ values) {before after : List Text} {e : Text}
    (htags : ∀ d ∈ before ++ e :: after, Element d) (hafter : after ≠ [])
    (helement : Element (replaced page before e after x)) :
    Doubled (replaced page before e after x) (tagOf x) ∧
      ∀ m, expand m (tagOf x) = replaced page before e after x := by
  have hclose : ∀ {d : Text}, Element d → '>' ∈ d := fun hd => List.mem_of_getLast? hd.last
  have hcount : (tagOf x).count '>' = 1 := (hvalues.element hx).count
  refine expand_doubled inert_close ?_ ?_ ?_ (by rw [hcount]; exact Nat.le_of_eq helement.count)
  · exact List.mem_append_left _ (List.mem_of_getLast? hblank.last)
  · exact hclose (htags e (List.mem_append_right _ List.mem_cons_self))
  · obtain ⟨d, hd⟩ := List.exists_mem_of_ne_nil after hafter
    refine List.mem_append_left _ (List.mem_flatten.mpr ⟨d, hd, hclose (htags d ?_)⟩)
    exact List.mem_append_right _ (List.mem_cons_of_mem _ hd)

/-- A value after the first one is the same tag wherever it is put. -/
theorem Named.flat (hvalues : Named names values) (hblank : Blank names html page)
    (h : Rewrites page values (values.reverse.map tagOf) (values.reverse.map tagOf))
    {done rest : List (Text × Text)} {x : Text × Text} (hsplit : values = done ++ x :: rest)
    (hdone : done ≠ []) : Flat x := by
  have hx : x ∈ values := hsplit ▸ List.mem_append_right _ List.mem_cons_self
  have hreach := h
  rw [hsplit] at hreach
  obtain ⟨tags, hround⟩ := hreach.reach
  rw [← hsplit] at hround
  obtain ⟨before, e, after, rfl, htags, -, -, helement, hrest⟩ := hround.inv
  have hplace := hvalues.place_le hsplit hrest
  have hlength := hrest.length
  rw [List.length_map, List.length_reverse, List.length_append, List.length_cons, hsplit,
    List.length_append, List.length_cons] at hlength
  have hafter : after ≠ [] := by
    rintro rfl
    have hpos := List.length_pos_iff.mpr hdone
    rw [List.length_nil] at hlength
    omega
  obtain ⟨-, hall⟩ := hvalues.doubled hblank hx htags hafter helement
  intro m
  rw [hall m]
  exact helement.count

/-- Every value but the first stays one tag wherever it is put. -/
def TailFlat (values : List (Text × Text)) : Prop :=
  ∀ done x rest, values = done ++ x :: rest → done ≠ [] → Flat x

/-- When the first time gives the page that is meant, each round of it adds a tag. -/
theorem Named.first_round (hvalues : Named names values) (hblank : Blank names html page)
    (hflat : TailFlat values) {done rest : List (Text × Text)} {x : Text × Text}
    (hsplit : values = done ++ x :: rest)
    (hfirst : (x :: rest).foldl injectMeta (document page (done.reverse.map tagOf)) =
      withTags page values) :
    (∀ y ∈ done, test (existingPattern x.1) (tagOf y) = false) ∧
      rest.foldl injectMeta (document page ((done ++ [x]).reverse.map tagOf)) =
        withTags page values := by
  have hmem : ∀ y ∈ done, y ∈ values := fun y hy => hsplit ▸ List.mem_append_left _ hy
  have hx : x ∈ values := hsplit ▸ List.mem_append_right _ List.mem_cons_self
  obtain ⟨hname, hisName⟩ := hvalues.named x hx
  have htags : ∀ e ∈ done.reverse.map tagOf, Element e := by
    intro e he
    obtain ⟨y, hy, rfl⟩ := List.mem_map.mp he
    exact hvalues.element (hmem y (List.mem_reverse.mp hy))
  rw [List.foldl_cons] at hfirst
  rcases first_match x.1 (done.reverse.map tagOf) with hnone | ⟨before, e, after, heq, hbefore, he⟩
  · rw [hblank.injectMeta_insert hname hisName fun e he => ⟨htags e he, hnone e he⟩] at hfirst
    refine ⟨fun y hy => hnone _ (List.mem_map_of_mem (List.mem_reverse.mpr hy)), ?_⟩
    rw [List.reverse_append]
    exact hfirst
  · -- a tag that is replaced is missing at the end
    exfalso
    have hdone : done ≠ [] := by
      rintro rfl
      exact absurd heq (by simp)
    have hrest : ∀ y ∈ rest, IsName y.1 ∧ Flat y := by
      intro y hy
      refine ⟨(hvalues.named y (hsplit ▸ List.mem_append_right _
        (List.mem_cons_of_mem _ hy))).2, ?_⟩
      obtain ⟨a, b, rfl⟩ := List.append_of_mem hy
      exact hflat (done ++ x :: a) y b (by rw [hsplit, List.append_assoc]; rfl) (by simp)
    have hold := count_flatten htags
    rw [heq] at htags hold hfirst
    have helement : Element e := htags e (List.mem_append_right _ List.mem_cons_self)
    have hreplace : injectMeta (document page (before ++ e :: after)) x = _ :=
      hblank.injectMeta_replace hname hisName
        (fun d hd => ⟨htags d (List.mem_append_left _ hd), hbefore d hd⟩) helement he
    have hone : (replaced page before e after x).count '>' = 1 := hflat done x rest hsplit hdone _
    have hle := count_foldl_le hrest (injectMeta (document page (before ++ e :: after)) x)
    have hmeant : ∀ e ∈ values.reverse.map tagOf, Element e := by
      intro e he
      obtain ⟨y, hy, rfl⟩ := List.mem_map.mp he
      exact hvalues.element (List.mem_reverse.mp hy)
    have hnew := count_flatten hmeant
    have hlength := congrArg List.length heq
    rw [hfirst, hreplace] at hle
    unfold withTags at hle
    rw [count_document, count_document (before ++ _ :: after), hnew] at hle
    simp only [List.flatten_append, List.flatten_cons, List.count_append, helement.count, hone,
      List.length_append, List.length_cons, List.length_map, List.length_reverse] at *
    have htotal := congrArg List.length hsplit
    simp only [List.length_append, List.length_cons] at htotal
    omega

/-- So no tag is taken for that of a later value. -/
theorem Named.earlier_apart (hvalues : Named names values) (hblank : Blank names html page)
    (hflat : TailFlat values) {done between later : List (Text × Text)} {x : Text × Text}
    (hsplit : values = done ++ (between ++ x :: later))
    (hfirst : (between ++ x :: later).foldl injectMeta
      (document page (done.reverse.map tagOf)) = withTags page values) :
    ∀ y ∈ done ++ between, test (existingPattern x.1) (tagOf y) = false := by
  induction between generalizing done with
  | nil =>
    rw [List.append_nil]
    exact (hvalues.first_round hblank hflat hsplit hfirst).1
  | cons z between ih =>
    obtain ⟨-, hnext⟩ := hvalues.first_round hblank hflat hsplit hfirst
    have hdone : values = (done ++ [z]) ++ (between ++ x :: later) := by
      rw [hsplit, List.append_assoc]
      rfl
    have hrest := ih hdone hnext
    rwa [List.append_assoc] at hrest

/-- No tag is taken for that of a later value. -/
def EarlierApart (values : List (Text × Text)) : Prop :=
  ∀ done x rest, values = done ++ x :: rest →
    ∀ y ∈ done, test (existingPattern x.1) (tagOf y) = false

/-- Nor is one that stands in the place of another. -/
theorem Named.replaced_apart (hvalues : Named names values) (hblank : Blank names html page)
    (hapart : EarlierApart values) {done rest : List (Text × Text)} {x k : Text × Text}
    (hsplit : values = done ++ x :: rest) (hk : k ∈ rest) {before after : List Text} {e : Text}
    (htags : ∀ d ∈ before ++ e :: after, Element d) (hafter : after ≠ [])
    (helement : Element (replaced page before e after x)) :
    test (existingPattern k.1) (replaced page before e after x) = false := by
  have hx : x ∈ values := hsplit ▸ List.mem_append_right _ List.mem_cons_self
  have hname : IsName k.1 := (hvalues.named k
    (hsplit ▸ List.mem_append_right _ (List.mem_cons_of_mem _ hk))).2
  obtain ⟨hdoubled, -⟩ := hvalues.doubled hblank hx htags hafter helement
  obtain ⟨a, b, hab⟩ := List.append_of_mem hk
  have hfalse := hapart (done ++ x :: a) k b (by rw [hsplit, hab, List.append_assoc]; rfl) x
    (List.mem_append_right _ List.mem_cons_self)
  rw [Bool.eq_false_iff] at hfalse ⊢
  intro htest
  have hmatches := (helement.test_iff hname).mp htest
  exact hfalse (((hvalues.element hx).test_iff hname).mpr
    (hmatches.doubled (existing_indifferent hname) hdoubled))

/-- A tag that a later round does not find again is lost. -/
theorem Named.lost (hvalues : Named names values) (hblank : Blank names html page)
    (hapart : EarlierApart values) {done rest : List (Text × Text)} (hsplit : values = done ++ rest)
    {tags : List Text} (h : Rewrites page rest tags (values.reverse.map tagOf))
    {k : Text × Text} (hk : k ∈ rest) {i : Nat} (hi : values.reverse[i]? = some k) {c : Text}
    (hc : tags[i]? = some c) (hne : c ≠ tagOf k)
    (htest : test (existingPattern k.1) c = false) : False := by
  induction rest generalizing done tags c with
  | nil => exact absurd hk List.not_mem_nil
  | cons x rest ih =>
    obtain ⟨before, e, after, rfl, htags, -, he, helement, hrest⟩ := h.inv
    have hnext : values = (done ++ [x]) ++ rest := by
      rw [hsplit, List.append_assoc]
      rfl
    have hisName : ∀ y ∈ x :: rest, IsName y.1 := fun y hy =>
      (hvalues.named y (hsplit ▸ List.mem_append_right _ hy)).2
    rcases List.mem_cons.mp hk with rfl | hmem
    · -- its own round: it does not go to this place
      by_cases hplace : i = before.length
      · rw [hplace, getElem?_middle] at hc
        rw [← Option.some.inj hc, he] at htest
        cases htest
      · have hstays := hrest.stays (hisName k List.mem_cons_self) (fun y hy =>
          ⟨hisName y (List.mem_cons_of_mem _ hy), Ne.symm (hvalues.disjoint hnext
            (List.mem_append_right _ List.mem_cons_self) hy)⟩) (owner_tag hi)
        rw [getElem?_middle_ne hplace _ e, hc] at hstays
        exact hne (Option.some.inj hstays)
    · have hother : x.1 ≠ k.1 :=
        hvalues.disjoint hnext (List.mem_append_right _ List.mem_cons_self) hmem
      by_cases hplace : i = before.length
      · -- another round before that: what it writes is not found either
        have hlt : i < rest.length := by
          rcases owner_cases hsplit hi with ⟨hlt, -⟩ | ⟨-, rfl⟩ | ⟨-, hdone⟩
          · exact hlt
          · exact absurd rfl hother
          · exact absurd rfl (hvalues.disjoint hsplit hdone (List.mem_cons_of_mem _ hmem))
        have hlength := hrest.length
        rw [List.length_map, List.length_reverse, List.length_append, List.length_cons, hsplit,
          List.length_append, List.length_cons] at hlength
        have hafter : after ≠ [] := by
          rintro rfl
          rw [List.length_nil] at hlength
          omega
        refine ih hnext hrest hmem ?_ (replaced_ne (hisName x List.mem_cons_self)
          (hisName k hk) hother before e after)
          (hvalues.replaced_apart hblank hapart hsplit hmem htags hafter helement)
        rw [hplace, getElem?_middle]
      · refine ih hnext hrest hmem ?_ hne htest
        rw [getElem?_middle_ne hplace _ e]
        exact hc

/-- A round over the page that is meant finds its own tag, and leaves it as it is. -/
theorem Named.own_round (hvalues : Named names values) (hblank : Blank names html page)
    (hapart : EarlierApart values) {done rest : List (Text × Text)} {x : Text × Text}
    (hsplit : values = done ++ x :: rest)
    (h : Rewrites page (x :: rest) (values.reverse.map tagOf) (values.reverse.map tagOf)) :
    (∀ y ∈ rest, test (existingPattern x.1) (tagOf y) = false) ∧
      replaced page (rest.reverse.map tagOf) (tagOf x) (done.reverse.map tagOf) x = tagOf x ∧
      Rewrites page rest (values.reverse.map tagOf) (values.reverse.map tagOf) := by
  obtain ⟨before, e, after, heq, htags, hbefore, -, helement, hrest⟩ := h.inv
  have hnext : values = (done ++ [x]) ++ rest := by
    rw [hsplit, List.append_assoc]
    rfl
  have hisName : ∀ y ∈ x :: rest, IsName y.1 := fun y hy =>
    (hvalues.named y (hsplit ▸ List.mem_append_right _ hy)).2
  have hlength := congrArg List.length heq
  rw [List.length_map, List.length_reverse, List.length_append, List.length_cons, hsplit,
    List.length_append, List.length_cons] at hlength
  rcases Nat.lt_or_eq_of_le (hvalues.place_le hsplit hrest) with hlt | hplace
  · exfalso
    have hbound : before.length < values.reverse.length := by
      rw [List.length_reverse, hsplit, List.length_append, List.length_cons]
      omega
    obtain ⟨k, hk⟩ : ∃ k, values.reverse[before.length]? = some k :=
      ⟨_, List.getElem?_eq_getElem hbound⟩
    have hmem : k ∈ rest := by
      rcases owner_cases hsplit hk with ⟨-, hmem⟩ | ⟨hlen, -⟩ | ⟨hgt, -⟩
      · exact hmem
      · omega
      · omega
    have hother : x.1 ≠ k.1 :=
      hvalues.disjoint hnext (List.mem_append_right _ List.mem_cons_self) hmem
    have hafter : after ≠ [] := by
      rintro rfl
      rw [List.length_nil] at hlength
      omega
    rw [heq] at htags
    exact hvalues.lost hblank hapart hnext hrest hmem hk (getElem?_middle _ _ _)
      (replaced_ne (hisName x List.mem_cons_self) (hisName k (List.mem_cons_of_mem _ hmem)) hother
        before e after)
      (hvalues.replaced_apart hblank hapart hsplit hmem htags hafter helement)
  · have hparts : rest.reverse.map tagOf ++ tagOf x :: done.reverse.map tagOf =
        before ++ e :: after := by
      rw [← heq, reverse_split hsplit, List.map_append, List.map_cons]
    obtain ⟨rfl, hcons⟩ := List.append_inj hparts
      (by rw [List.length_map, List.length_reverse, hplace])
    obtain ⟨rfl, rfl⟩ := List.cons.inj hcons
    have hown : values.reverse[rest.length]? = some x := by
      rw [reverse_split hsplit, ← List.length_reverse, getElem?_middle]
    have hstays := hrest.stays (hisName x List.mem_cons_self) (fun y hy =>
      ⟨hisName y (List.mem_cons_of_mem _ hy), Ne.symm (hvalues.disjoint hnext
        (List.mem_append_right _ List.mem_cons_self) hy)⟩) (owner_tag hown)
    rw [← hplace, getElem?_middle] at hstays
    have hself := Option.some.inj hstays
    refine ⟨fun y hy => hbefore _ (List.mem_map_of_mem (List.mem_reverse.mpr hy)), hself, ?_⟩
    rwa [hself, ← heq] at hrest

theorem Named.every_round (hvalues : Named names values) (hblank : Blank names html page)
    (hapart : EarlierApart values) {done between later : List (Text × Text)} {x : Text × Text}
    (hsplit : values = done ++ (between ++ x :: later))
    (h : Rewrites page (between ++ x :: later) (values.reverse.map tagOf)
      (values.reverse.map tagOf)) :
    (∀ y ∈ later, test (existingPattern x.1) (tagOf y) = false) ∧
      replaced page (later.reverse.map tagOf) (tagOf x) ((done ++ between).reverse.map tagOf) x =
        tagOf x := by
  induction between generalizing done with
  | nil =>
    obtain ⟨hlater, hself, -⟩ := hvalues.own_round hblank hapart hsplit h
    rw [List.append_nil]
    exact ⟨hlater, hself⟩
  | cons z between ih =>
    obtain ⟨-, -, hrest⟩ := hvalues.own_round hblank hapart hsplit h
    have hdone : values = (done ++ [z]) ++ (between ++ x :: later) := by
      rw [hsplit, List.append_assoc]
      rfl
    have hnext := ih hdone hrest
    rwa [List.append_assoc] at hnext

/-- Values that are written as they should be, and again as they are, do not get in the way
of each other. -/
theorem Named.harmless_of_injected (hvalues : Named names values)
    (hblank : Blank names html page)
    (hfirst : values.foldl injectMeta html = withTags page values)
    (hagain : values.foldl injectMeta (withTags page values) = withTags page values) :
    Harmless page values := by
  have htags : ∀ e ∈ values.reverse.map tagOf, Element e := by
    intro e he
    obtain ⟨y, hy, rfl⟩ := List.mem_map.mp he
    exact hvalues.element (List.mem_reverse.mp hy)
  have hrewrites : Rewrites page values (values.reverse.map tagOf)
      (values.reverse.map tagOf) := by
    obtain ⟨final, hfinal, helements, hrewrites⟩ := hblank.rewrites hvalues.named htags
      (Nat.le_of_eq (congrArg (List.count '>') hagain))
    have hdocument : document page final = document page (values.reverse.map tagOf) :=
      hfinal.symm.trans hagain
    rwa [flatten_inj helements htags (List.append_cancel_left hdocument)] at hrewrites
  have hflat : TailFlat values := fun done x rest hsplit hdone =>
    hvalues.flat hblank hrewrites hsplit hdone
  have hearlier : EarlierApart values := by
    intro done x rest hsplit
    have hall : values = [] ++ (done ++ x :: rest) := hsplit
    rw [← hblank.document_nil] at hfirst
    exact hvalues.earlier_apart hblank hflat hall (hsplit ▸ hfirst)
  have hround : ∀ done x rest, values = done ++ x :: rest →
      (∀ y ∈ rest, test (existingPattern x.1) (tagOf y) = false) ∧
        replaced page (rest.reverse.map tagOf) (tagOf x) (done.reverse.map tagOf) x =
          tagOf x := by
    intro done x rest hsplit
    have hall : values = [] ++ (done ++ x :: rest) := hsplit
    exact hvalues.every_round hblank hearlier hall (hsplit ▸ hrewrites)
  constructor
  · intro x hx y hy hne
    obtain ⟨done, rest, hsplit⟩ := List.append_of_mem hx
    rw [hsplit] at hy
    rcases List.mem_append.mp hy with hy | hy
    · exact hearlier done x rest hsplit y hy
    · rcases List.mem_cons.mp hy with rfl | hy
      · exact absurd rfl hne
      · exact (hround done x rest hsplit).1 y hy
  · intro later x earlier hreverse
    have hsplit : values = earlier.reverse ++ x :: later.reverse := by
      rw [← List.reverse_reverse values, hreverse, List.reverse_append, List.reverse_cons,
        List.append_assoc]
      rfl
    have hself := (hround earlier.reverse x later.reverse hsplit).2
    rw [List.reverse_reverse, List.reverse_reverse] at hself
    exact hself

end Again

/-! ## `injectPropagationMeta` -/

/-- Only names with a value are written. -/
theorem injectPropagationMeta_eq (html : Text) (headers : PropagationHeaders) :
    injectPropagationMeta html headers = (definedValues headers).foldl injectMeta html := by
  unfold injectPropagationMeta definedValues
  rw [List.foldl_filterMap]
  congr 1
  funext result entry
  cases entry.2 <;> rfl

theorem isName_metaNames : ∀ name ∈ metaNames, IsName name := by
  have hall : ∀ name ∈ metaNames, name.map Char.toLower = name ∧ '>' ∉ name ∧ '$' ∉ name ∧
      '"' ∉ name := by decide
  intro name hname
  obtain ⟨hlower, htag, hsign, hquote⟩ := hall name hname
  exact ⟨hlower, htag, hsign, hquote⟩

theorem definedValues_sublist (headers : PropagationHeaders) :
    ((definedValues headers).map Prod.fst).Sublist metaNames := by
  have hsublist : ∀ entries : List (Text × Option Text),
      ((entries.filterMap fun entry => entry.2.map fun value => (entry.1, value)).map
        Prod.fst).Sublist (entries.map Prod.fst) := by
    intro entries
    induction entries with
    | nil => exact .slnil
    | cons entry entries ih =>
      obtain ⟨name, value⟩ := entry
      cases value with
      | none => exact .cons name ih
      | some value => exact .cons_cons name ih
  exact hsublist (propagationValues headers)

theorem definedValues_named (headers : PropagationHeaders) :
    Named metaNames (definedValues headers) where
  named x hx := by
    have hmem := (definedValues_sublist headers).subset (List.mem_map_of_mem hx)
    exact ⟨hmem, isName_metaNames _ hmem⟩
  nodup := (definedValues_sublist headers).nodup (by decide)

/-- A page without tags of its own gets the tags that are meant, and keeps them when it is
gone over again, just if the values do not get in the way of each other. -/
theorem injected_iff {html : Text} {page : Found} (hblank : Blank metaNames html page)
    (headers : PropagationHeaders) :
    (injectPropagationMeta html headers = withTags page (definedValues headers) ∧
      injectPropagationMeta (injectPropagationMeta html headers) headers =
        injectPropagationMeta html headers) ↔ Harmless page (definedValues headers) := by
  rw [injectPropagationMeta_eq, injectPropagationMeta_eq]
  have hnamed := definedValues_named headers
  constructor
  · intro ⟨hfirst, hagain⟩
    rw [hfirst] at hagain
    exact hnamed.harmless_of_injected hblank hfirst hagain
  · intro hharmless
    obtain ⟨hfirst, hagain⟩ := hharmless.injected hblank hnamed
    rw [hfirst]
    exact ⟨rfl, hagain⟩

def plainPage : Text := "<head></head>".toList

def plainFound : Found := ⟨[], "<head>".toList, "</head>".toList⟩

theorem plainPage_blank : Blank metaNames plainPage plainFound := ⟨by decide, by decide⟩

def plainHeaders : PropagationHeaders :=
  ⟨none, some "vendor=1".toList, some "region=eu".toList⟩

/-- Plain values do not get in the way of each other. -/
theorem plainHeaders_harmless : Harmless plainFound (definedValues plainHeaders) :=
  (injected_iff plainPage_blank plainHeaders).mp (by decide)

/-- A `tracestate` whose member is called `name`. -/
def quotedHeaders : PropagationHeaders :=
  ⟨none, some "name='baggage'".toList, some "region=eu".toList⟩

/-- Its tag is taken for that of the baggage, which takes its place. -/
theorem quotedHeaders_lost : Blank metaNames plainPage plainFound ∧
    injectPropagationMeta plainPage quotedHeaders =
      "<head><meta name=\"baggage\" content=\"region=eu\"></head>".toList ∧
    injectPropagationMeta plainPage quotedHeaders ≠
      withTags plainFound (definedValues quotedHeaders) :=
  ⟨plainPage_blank, by decide, by decide⟩

end WebClient

end CommercePlayground.Propagation
