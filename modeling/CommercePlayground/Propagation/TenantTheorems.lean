/-
CommercePlayground.Propagation.TenantTheorems — where the two tenant resolvers agree.

Each resolver is the same fold over the same sources: read each, insist on one
answer (`shared_ok_iff`, `catalog_ok_iff`). So they can only differ in how they read
one source, and there they differ in three ways: the catalog replaces malformed
UTF-8 where the library refuses it, the two strip different characters from the
ends, and one counts bytes where the other counts UTF-16 units. A source that meets
none of the three is `Plain`.
-/
import CommercePlayground.Propagation.Tenant

namespace CommercePlayground.Propagation

open Lib

/-! ## Stripping the ends -/

section Ends

variable {p q e : Char → Bool}

/-- Stripping fewer characters is the same where the run at the beginning has no
others. -/
theorem dropWhile_of_run (hsub : ∀ c, p c = true → e c = true) {s : Text}
    (h : ∀ c ∈ s.takeWhile e, p c = true) : s.dropWhile p = s.dropWhile e := by
  induction s with
  | nil => rfl
  | cons c s ih =>
    rw [List.dropWhile_cons, List.dropWhile_cons]
    rw [List.takeWhile_cons] at h
    by_cases he : e c = true
    · rw [if_pos he] at h ⊢
      rw [if_pos (h c List.mem_cons_self)]
      exact ih fun d hd => h d (List.mem_cons_of_mem c hd)
    · have hp : ¬ p c = true := fun hp => he (hsub c hp)
      rw [if_neg he, if_neg hp]

theorem trimMatches_of_runs (hsub : ∀ c, p c = true → e c = true) {s : Text}
    (hhead : ∀ c ∈ s.takeWhile e, p c = true)
    (hlast : ∀ c ∈ s.reverse.takeWhile e, p c = true) : trimMatches p s = trimMatches e s := by
  unfold trimMatches
  rw [dropWhile_of_run hsub hhead, dropWhile_of_run hsub]
  intro c hc
  apply hlast c
  have hrev : s.reverse = (s.dropWhile e).reverse ++ (s.takeWhile e).reverse := by
    rw [← List.reverse_append, List.takeWhile_append_dropWhile]
  rw [hrev, List.takeWhile_append]
  split
  · rename_i hlen
    exact List.mem_append_left _ ((List.takeWhile_prefix e).subset hc)
  · exact hc

/-- Two strippings that end at a character neither strips have stripped the same
characters. -/
theorem run_of_heads {s : Text} (hp : ∀ c, (s.dropWhile p).head? = some c → q c = false)
    (hq : ∀ c, (s.dropWhile q).head? = some c → p c = false) :
    ∀ c ∈ s.takeWhile (fun c => p c || q c), p c = true ∧ q c = true := by
  induction s with
  | nil => intro c hc; cases hc
  | cons x s ih =>
    rw [List.dropWhile_cons] at hp hq
    intro c hc
    rw [List.takeWhile_cons] at hc
    by_cases hpx : p x = true
    · rw [if_pos hpx] at hp
      by_cases hqx : q x = true
      · rw [if_pos hqx] at hq
        rw [if_pos (by simp [hpx])] at hc
        rcases List.mem_cons.mp hc with rfl | hc
        · exact ⟨hpx, hqx⟩
        · exact ih hp hq c hc
      · rw [if_neg hqx] at hq
        rw [hq x rfl] at hpx
        cases hpx
    · rw [if_neg hpx] at hp
      rw [Bool.not_eq_true] at hpx
      rw [if_neg (by simp [hpx, hp x rfl])] at hc
      cases hc

theorem head_of_trimMatches {s t : Text} (h : trimMatches p s = t) (hne : t ≠ []) :
    (s.dropWhile p).head? = t.head? ∧ (s.reverse.dropWhile p).head? = t.getLast? := by
  have hinner : (s.dropWhile p).reverse.dropWhile p = t.reverse := by
    rw [← h, trimMatches, List.reverse_reverse]
  constructor
  · have hprefix : t <+: s.dropWhile p := by
      rw [← List.reverse_suffix, ← hinner]
      exact List.dropWhile_suffix p
    obtain ⟨rest, hrest⟩ := hprefix
    rw [← hrest, List.head?_append_of_ne_nil _ hne]
  · have hrev : s.reverse = (s.dropWhile p).reverse ++ (s.takeWhile p).reverse := by
      rw [← List.reverse_append, List.takeWhile_append_dropWhile]
    rw [hrev, List.dropWhile_append, hinner, if_neg (by simpa using hne),
      List.head?_append_of_ne_nil _ (by simpa using hne), List.head?_reverse]

/-- Equal strippings that leave something have stripped only what both strip. -/
theorem runs_of_trimMatches_eq {s t : Text} (hp : trimMatches p s = t)
    (hq : trimMatches q s = t) (hne : t ≠ []) :
    (∀ c ∈ s.takeWhile (fun c => p c || q c), p c = true ∧ q c = true) ∧
      ∀ c ∈ s.reverse.takeWhile (fun c => p c || q c), p c = true ∧ q c = true := by
  have hendp : EndsOutside p t := hp ▸ trimMatches_ends p s
  have hendq : EndsOutside q t := hq ▸ trimMatches_ends q s
  obtain ⟨hphead, hplast⟩ := head_of_trimMatches hp hne
  obtain ⟨hqhead, hqlast⟩ := head_of_trimMatches hq hne
  constructor
  · apply run_of_heads
    · intro c hc
      exact hendq.1 c (hphead ▸ hc)
    · intro c hc
      exact hendp.1 c (hqhead ▸ hc)
  · apply run_of_heads
    · intro c hc
      exact hendq.2 c (hplast ▸ hc)
    · intro c hc
      exact hendp.2 c (hqlast ▸ hc)

end Ends

/-- What either language may strip from an end. -/
def isEdge (c : Char) : Bool := isWhitespace c || isTrimmed c

/-- The runs at both ends hold only what both languages strip: ASCII white space. -/
def PlainEdges (s : Text) : Prop :=
  (∀ c ∈ s.takeWhile isEdge, isWhitespace c = true ∧ isTrimmed c = true) ∧
    ∀ c ∈ s.reverse.takeWhile isEdge, isWhitespace c = true ∧ isTrimmed c = true

instance (s : Text) : Decidable (PlainEdges s) :=
  @instDecidableAnd _ _ (List.decidableBAll _ _) (List.decidableBAll _ _)

theorem PlainEdges.trim_eq {s : Text} (h : PlainEdges s) : trim s = javaTrim s := by
  have hrust : trim s = trimMatches isEdge s :=
    trimMatches_of_runs (fun c hc => by simp [isEdge, hc]) (fun c hc => (h.1 c hc).1)
      fun c hc => (h.2 c hc).1
  have hjava : javaTrim s = trimMatches isEdge s :=
    trimMatches_of_runs (fun c hc => by simp [isEdge, hc]) (fun c hc => (h.1 c hc).2)
      fun c hc => (h.2 c hc).2
  rw [hrust, hjava]

theorem plainEdges_of_trim_eq {s t : Text} (hrust : trim s = t) (hjava : javaTrim s = t)
    (hne : t ≠ []) : PlainEdges s :=
  runs_of_trimMatches_eq hrust hjava hne

/-! ## Reading one source -/

theorem isISOControl_utf16Char (c : Char) :
    (utf16Char c).any CatalogService.isISOControl = isControl c := by
  unfold utf16Char
  split
  · simp [CatalogService.isISOControl, isControl]
  · rename_i hlarge
    have hchar : isControl c = false := by
      simp only [isControl, Bool.or_eq_false_iff, decide_eq_false_iff_not]
      omega
    simp only [List.any_cons, List.any_nil, CatalogService.isISOControl, Bool.or_false, hchar,
      Bool.or_eq_false_iff, decide_eq_false_iff_not]
    omega

/-- A unit of a surrogate pair is no control character. -/
theorem isISOControl_utf16 (s : Text) :
    (utf16 s).any CatalogService.isISOControl = s.any isControl := by
  unfold utf16
  rw [List.any_flatMap]
  exact congrArg (List.any s) (funext isISOControl_utf16Char)

/-- What a tenant may look like, but for its length. -/
def TenantName (t : Text) : Prop := t ≠ [] ∧ t.any isControl = false

theorem bounded_ok {ε : Type} {e : ε} {f : Text → Nat} {x t : Text} :
    (if x.isEmpty || decide (128 < f x) || x.any isControl then Except.error e
      else Except.ok x) = .ok t ↔ x = t ∧ TenantName t ∧ f t ≤ 128 := by
  by_cases hbad : (x.isEmpty || decide (128 < f x) || x.any isControl) = true
  · rw [if_pos hbad]
    simp only [Bool.or_eq_true, List.isEmpty_iff, decide_eq_true_eq] at hbad
    refine ⟨fun h => (by cases h), ?_⟩
    rintro ⟨rfl, ⟨hne, hcontrol⟩, hlen⟩
    rcases hbad with (hempty | hlong) | hany
    · exact absurd hempty hne
    · omega
    · rw [hany] at hcontrol
      cases hcontrol
  · rw [if_neg hbad]
    simp only [Bool.or_eq_true, List.isEmpty_iff, decide_eq_true_eq, not_or, Nat.not_lt,
      Bool.not_eq_true] at hbad
    constructor
    · intro h
      cases h
      exact ⟨rfl, ⟨hbad.1.1, hbad.2⟩, hbad.1.2⟩
    · rintro ⟨rfl, -⟩
      rfl

theorem normalize_shared_ok {s t : Text} : Shared.normalizeTenantCandidate s = .ok t ↔
    trim s = t ∧ TenantName t ∧ (utf8 t).length ≤ 128 :=
  bounded_ok (f := fun t => (utf8 t).length)

theorem normalize_catalog_ok {s t : Text} : CatalogService.normalize s = .ok t ↔
    javaTrim s = t ∧ TenantName t ∧ (utf16 t).length ≤ 128 := by
  have h := bounded_ok (e := "tenant identity is invalid") (x := javaTrim s) (t := t)
    (f := fun t => (utf16 t).length)
  rw [← isISOControl_utf16] at h
  exact h

/-- A text that both read alike: it has plain ends, and it is not too long in bytes
only. -/
def PlainText (s : Text) : Prop :=
  PlainEdges s ∧ ((utf8 (trim s)).length ≤ 128 ∨ 128 < (utf16 (trim s)).length)

instance (s : Text) : Decidable (PlainText s) := inferInstanceAs (Decidable (_ ∧ _))

theorem plainText_of_shared {s t : Text} (h : Shared.normalizeTenantCandidate s = .ok t) :
    CatalogService.normalize s = .ok t ↔ PlainText s := by
  obtain ⟨htrim, hname, hlen⟩ := normalize_shared_ok.mp h
  constructor
  · intro hcatalog
    have hjava := (normalize_catalog_ok.mp hcatalog).1
    exact ⟨plainEdges_of_trim_eq htrim hjava hname.1, .inl (htrim ▸ hlen)⟩
  · intro hplain
    exact normalize_catalog_ok.mpr ⟨hplain.1.trim_eq ▸ htrim, hname,
      Nat.le_trans (utf16_length_le t) hlen⟩

theorem plainText_of_catalog {s t : Text} (h : CatalogService.normalize s = .ok t) :
    Shared.normalizeTenantCandidate s = .ok t ↔ PlainText s := by
  obtain ⟨hjava, hname, hunits⟩ := normalize_catalog_ok.mp h
  constructor
  · intro hshared
    exact (plainText_of_shared hshared).mp h
  · rintro ⟨hedges, hlen⟩
    have htrim : trim s = t := hedges.trim_eq.trans hjava
    rw [htrim] at hlen
    exact normalize_shared_ok.mpr ⟨htrim, hname, hlen.resolve_right (Nat.not_lt.mpr hunits)⟩

/-- A place a tenant may be named: a header or an argument, or a baggage value with
its escapes. -/
inductive Source where
  | text (value : Text)
  | baggage (value : Text)
  deriving DecidableEq

def Source.shared : Source → Except Shared.TenantIdentityError Text
  | .text value => Shared.normalizeTenantCandidate value
  | .baggage value => Shared.decodeBaggageValue value >>= Shared.normalizeTenantCandidate

def Source.catalog : Source → Except String Text
  | .text value => CatalogService.normalize value
  | .baggage value => CatalogService.decodeBaggageValue value >>= CatalogService.normalize

/-- A source that both read alike. -/
def Source.Plain : Source → Prop
  | .text value => PlainText value
  | .baggage value => ∀ bytes, percentDecode (utf8 value) = some bytes →
      ∃ s, fromUtf8 bytes = some s ∧ PlainText s

theorem baggage_shared {value t : Text} : (Source.baggage value).shared = .ok t ↔
    ∃ bytes s, percentDecode (utf8 value) = some bytes ∧ fromUtf8 bytes = some s ∧
      Shared.normalizeTenantCandidate s = .ok t := by
  simp only [Source.shared, Shared.decodeBaggageValue]
  constructor
  · intro h
    cases hbytes : percentDecode (utf8 value) with
    | none =>
      rw [hbytes] at h
      cases h
    | some bytes =>
      cases hs : fromUtf8 bytes with
      | none =>
        rw [hbytes, Option.bind_some, hs] at h
        cases h
      | some s =>
        rw [hbytes, Option.bind_some, hs] at h
        exact ⟨bytes, s, rfl, hs, h⟩
  · rintro ⟨bytes, s, hbytes, hs, h⟩
    rw [hbytes, Option.bind_some, hs]
    exact h

theorem baggage_catalog {value t : Text} : (Source.baggage value).catalog = .ok t ↔
    ∃ bytes, percentDecode (utf8 value) = some bytes ∧
      CatalogService.normalize (replacedUtf8 bytes) = .ok t := by
  simp only [Source.catalog, CatalogService.decodeBaggageValue]
  constructor
  · intro h
    cases hbytes : percentDecode (utf8 value) with
    | none =>
      rw [hbytes] at h
      cases h
    | some bytes =>
      rw [hbytes] at h
      exact ⟨bytes, rfl, h⟩
  · rintro ⟨bytes, hbytes, h⟩
    rw [hbytes]
    exact h

/-- What the library reads from a source, the catalog reads if the source is plain. -/
theorem plain_of_shared {source : Source} {t : Text} (h : source.shared = .ok t) :
    source.catalog = .ok t ↔ source.Plain := by
  cases source with
  | text value => exact plainText_of_shared h
  | baggage value =>
    obtain ⟨bytes, s, hbytes, hs, hnormal⟩ := baggage_shared.mp h
    have hreplaced := replacedUtf8_of_fromUtf8 hs
    rw [baggage_catalog]
    constructor
    · rintro ⟨bytes', hbytes', hcatalog⟩
      rw [hbytes] at hbytes'
      cases hbytes'
      rw [hreplaced] at hcatalog
      intro bytes' hbytes'
      rw [hbytes] at hbytes'
      cases hbytes'
      exact ⟨s, hs, (plainText_of_shared hnormal).mp hcatalog⟩
    · intro hplain
      obtain ⟨s', hs', hplain⟩ := hplain bytes hbytes
      rw [hs] at hs'
      cases hs'
      refine ⟨bytes, hbytes, ?_⟩
      rw [hreplaced]
      exact (plainText_of_shared hnormal).mpr hplain

/-- And the other way round. -/
theorem plain_of_catalog {source : Source} {t : Text} (h : source.catalog = .ok t) :
    source.shared = .ok t ↔ source.Plain := by
  constructor
  · intro hshared
    exact (plain_of_shared hshared).mp h
  · intro hplain
    cases source with
    | text value => exact (plainText_of_catalog h).mpr hplain
    | baggage value =>
      obtain ⟨bytes, hbytes, hnormal⟩ := baggage_catalog.mp h
      obtain ⟨s, hs, hplain⟩ := hplain bytes hbytes
      rw [replacedUtf8_of_fromUtf8 hs] at hnormal
      exact baggage_shared.mpr ⟨bytes, s, hbytes, hs, (plainText_of_catalog hnormal).mpr hplain⟩

/-! ## Collecting the sources -/

/-- The baggage value a member carries for the tenant, before its escapes are undone. -/
def memberSource (member : Text) : Option Source :=
  match splitOnce '=' member with
  | none => none
  | some (key, rawValue) =>
    if trim key = tenantBaggageKey then
      some (.baggage (trim ((rawValue.splitOn ';').headD [])))
    else none

/-- All sources of a request, in the order the library looks at them. -/
def sources (headers : TenantHeaders) (requestTenant : Option Text) : List Source :=
  requestTenant.toList.map .text ++
    ((headers.xTenantId ++ headers.tenantId).map .text ++
      (headers.baggage.flatMap fun value => value.splitOn ',').filterMap memberSource)

/-- Visible ASCII, spaces and tabs. -/
def Printable (s : Text) : Prop := ∀ c ∈ s, (0x20 ≤ c.toNat ∧ c.toNat < 0x7f) ∨ c = '\t'

structure TenantHeaders.Printable (headers : TenantHeaders) : Prop where
  xTenantId : ∀ value ∈ headers.xTenantId, Propagation.Printable value
  tenantId : ∀ value ∈ headers.tenantId, Propagation.Printable value
  baggage : ∀ value ∈ headers.baggage, Propagation.Printable value

theorem Printable.trim_eq {s : Text} (h : Printable s) : javaTrim s = trim s := by
  apply trimMatches_congr
  intro c hc
  rw [Bool.eq_iff_iff]
  simp only [isTrimmed, isWhitespace, Bool.or_eq_true, decide_eq_true_eq]
  rcases h c hc with hvisible | rfl
  · omega
  · decide

theorem toStr_of_printable {values : List Text} (h : ∀ value ∈ values, Printable value) :
    values.mapM Shared.toStr = .ok values := by
  induction values with
  | nil => rfl
  | cons value values ih =>
    have hvalue : Shared.toStr value = .ok value := by
      unfold Shared.toStr
      rw [if_pos]
      rw [List.all_eq_true]
      intro c hc
      have hprintable := h value List.mem_cons_self c hc
      simpa using hprintable
    rw [List.mapM_cons, hvalue, ih fun v hv => h v (List.mem_cons_of_mem value hv)]
    rfl

/-- Reading members one by one is reading the sources among them. -/
theorem mapM_members {ε : Type} {read : Text → Except ε (Option Text)}
    {f : Source → Except ε Text} {members : List Text}
    (h : ∀ member ∈ members, read member =
      match memberSource member with
      | none => .ok none
      | some source => (f source).map some) :
    (members.mapM read).map (List.filterMap id) = (members.filterMap memberSource).mapM f := by
  induction members with
  | nil => rfl
  | cons member members ih =>
    have hrest := ih fun m hm => h m (List.mem_cons_of_mem member hm)
    rw [List.mapM_cons, List.filterMap_cons, h member List.mem_cons_self]
    cases memberSource member with
    | none =>
      rw [← hrest]
      cases members.mapM read with
      | error e => rfl
      | ok ys => rfl
    | some source =>
      dsimp only
      rw [List.mapM_cons, ← hrest]
      cases f source with
      | error e => rfl
      | ok y =>
        cases members.mapM read with
        | error e => rfl
        | ok ys => rfl

theorem member_shared (member : Text) : Shared.memberCandidate member =
    match memberSource member with
    | none => .ok none
    | some source => source.shared.map some := by
  unfold Shared.memberCandidate memberSource
  cases splitOnce '=' member with
  | none => rfl
  | some p =>
    dsimp only
    by_cases hkey : trim p.1 = tenantBaggageKey
    · rw [if_neg (not_not_intro hkey), if_pos hkey]
      dsimp only [Source.shared]
      cases Shared.decodeBaggageValue (trim ((p.2.splitOn ';').headD [])) with
      | error e => rfl
      | ok value =>
        show (Shared.normalizeTenantCandidate value >>= fun c => Except.ok (some c)) =
          (Shared.normalizeTenantCandidate value).map some
        cases Shared.normalizeTenantCandidate value with
        | error e => rfl
        | ok candidate => rfl
    · rw [if_pos hkey, if_neg hkey]

theorem member_catalog {member : Text} (h : Printable member) :
    CatalogService.memberCandidate member =
      match memberSource member with
      | none => .ok none
      | some source => source.catalog.map some := by
  unfold CatalogService.memberCandidate memberSource
  cases hsplit : splitOnce '=' member with
  | none => rfl
  | some p =>
    obtain ⟨hmember, -⟩ := splitOnce_some hsplit
    have hkeyPrintable : Printable p.1 := fun c hc => h c (by rw [hmember]; simp [hc])
    have hvalue : ((splitOnce ';' p.2).map Prod.fst).getD p.2 = (p.2.splitOn ';').headD [] := by
      rw [splitOn_eq]
      cases splitOnce ';' p.2 with
      | none => rfl
      | some q => rfl
    have hvaluePrintable : Printable ((p.2.splitOn ';').headD []) := by
      intro c hc
      have hpiece : (p.2.splitOn ';').headD [] ∈ p.2.splitOn ';' := by
        cases hpieces : p.2.splitOn ';' with
        | nil => exact absurd hpieces (List.splitOn_ne_nil ';' p.2)
        | cons first rest => exact List.mem_cons_self
      have hc := (mem_splitOn hpiece).2 c hc
      exact h c (by rw [hmember]; simp [hc])
    dsimp only
    rw [hkeyPrintable.trim_eq, hvalue, hvaluePrintable.trim_eq]
    by_cases hkey : trim p.1 = tenantBaggageKey
    · rw [if_neg (not_not_intro hkey), if_pos hkey]
      dsimp only [Source.catalog]
      cases CatalogService.decodeBaggageValue (trim ((p.2.splitOn ';').headD [])) with
      | error e => rfl
      | ok value =>
        show (CatalogService.normalize value >>= fun c => Except.ok (some c)) =
          (CatalogService.normalize value).map some
        cases CatalogService.normalize value with
        | error e => rfl
        | ok candidate => rfl
    · rw [if_pos hkey, if_neg hkey]

/-- The empty members that Java drops name no tenant. -/
theorem filterMap_javaSplit (c : Char) (s : Text) :
    (CatalogService.javaSplit c s).filterMap memberSource =
      (s.splitOn c).filterMap memberSource := by
  have hdrop : ∀ pieces : List Text, (pieces.dropWhile List.isEmpty).filterMap memberSource =
      pieces.filterMap memberSource := by
    intro pieces
    induction pieces with
    | nil => rfl
    | cons piece pieces ih =>
      cases piece with
      | nil => exact ih
      | cons d piece => rfl
  unfold CatalogService.javaSplit
  split
  · rw [List.filterMap_reverse, hdrop, List.filterMap_reverse, List.reverse_reverse]
  · rename_i hcontains
    rw [List.splitOn_eq_singleton (by simpa using hcontains)]

/-! ## One answer -/

section Answers

variable {ε : Type} {f : Source → Except ε Text}

/-- Every source names one tenant, and there is a source. -/
def Names (f : Source → Except ε Text) (found : List Source) (t : Text) : Prop :=
  found ≠ [] ∧ ∀ source ∈ found, f source = .ok t

theorem mapM_of_names {found : List Source} {t : Text}
    (h : ∀ source ∈ found, f source = .ok t) :
    found.mapM f = .ok (List.replicate found.length t) := by
  induction found with
  | nil => rfl
  | cons source found ih =>
    rw [List.mapM_cons, h source List.mem_cons_self,
      ih fun s hs => h s (List.mem_cons_of_mem source hs)]
    rfl

theorem names_of_mapM {found : List Source} {ys : List Text} (h : found.mapM f = .ok ys) :
    ys.length = found.length ∧
      ∀ t, (∀ y ∈ ys, y = t) → ∀ source ∈ found, f source = .ok t := by
  induction found generalizing ys with
  | nil =>
    cases h
    exact ⟨rfl, fun t _ source hsource => absurd hsource List.not_mem_nil⟩
  | cons source found ih =>
    rw [List.mapM_cons] at h
    cases hsource : f source with
    | error e =>
      rw [hsource] at h
      cases h
    | ok y =>
      rw [hsource] at h
      cases hrest : found.mapM f with
      | error e =>
        rw [hrest] at h
        cases h
      | ok rest =>
        rw [hrest] at h
        cases h
        obtain ⟨hlength, hnames⟩ := ih hrest
        refine ⟨by simp [hlength], fun t ht s hs => ?_⟩
        rcases List.mem_cons.mp hs with rfl | hs
        · rw [hsource, ht y List.mem_cons_self]
        · exact hnames t (fun z hz => ht z (List.mem_cons_of_mem y hz)) s hs

/-- A fold that ends with the one answer of all sources. -/
theorem mapM_bind_iff {found : List Source} {t : Text} {agreed : List Text → Except ε Text}
    (hagreed : ∀ ys, agreed ys = .ok t ↔ ys ≠ [] ∧ ∀ y ∈ ys, y = t) :
    (found.mapM f >>= agreed) = .ok t ↔ Names f found t := by
  constructor
  · intro h
    cases hys : found.mapM f with
    | error e =>
      rw [hys] at h
      cases h
    | ok ys =>
      rw [hys] at h
      obtain ⟨hne, hall⟩ := (hagreed ys).mp h
      obtain ⟨hlength, hnames⟩ := names_of_mapM hys
      refine ⟨fun hnil => hne ?_, hnames t hall⟩
      rw [hnil] at hlength
      exact List.eq_nil_of_length_eq_zero hlength
  · rintro ⟨hne, hall⟩
    rw [mapM_of_names hall]
    refine (hagreed _).mpr ⟨?_, fun y hy => List.eq_of_mem_replicate hy⟩
    simpa using hne

end Answers

theorem agreedTenant_ok {ys : List Text} {t : Text} :
    Shared.agreedTenant ys = .ok t ↔ ys ≠ [] ∧ ∀ y ∈ ys, y = t := by
  cases ys with
  | nil => simp [Shared.agreedTenant]
  | cons y ys =>
    dsimp only [Shared.agreedTenant]
    by_cases hany : ((y :: ys).any fun candidate => decide (candidate ≠ y)) = true
    · rw [if_pos hany]
      refine ⟨fun h => (by cases h), fun h => ?_⟩
      obtain ⟨z, hz, hne⟩ := List.any_eq_true.mp hany
      rw [h.2 z hz, h.2 y List.mem_cons_self] at hne
      simp at hne
    · rw [if_neg hany]
      simp only [List.any_eq_true, decide_eq_true_eq, not_exists, not_and, not_not] at hany
      constructor
      · intro h
        cases h
        exact ⟨List.cons_ne_nil _ _, hany⟩
      · intro h
        rw [h.2 y List.mem_cons_self]

theorem fromCandidates_ok {ys : List Text} {t : Text} :
    (CatalogService.fromCandidates ys).tenantIdOrThrow = .ok t ↔ ys ≠ [] ∧ ∀ y ∈ ys, y = t := by
  rw [← agreedTenant_ok]
  cases ys with
  | nil => simp [CatalogService.fromCandidates, Shared.agreedTenant,
      CatalogService.CatalogRequestIdentity.tenantIdOrThrow]
  | cons y ys =>
    have hsym : (fun c : Text => decide (y ≠ c)) = fun c => decide (c ≠ y) := by
      funext c
      rw [decide_eq_decide]
      exact ne_comm
    dsimp only [CatalogService.fromCandidates, Shared.agreedTenant]
    rw [hsym]
    by_cases hany : ((y :: ys).any fun candidate => decide (candidate ≠ y)) = true
    · rw [if_pos hany, if_pos hany]
      simp [CatalogService.CatalogRequestIdentity.tenantIdOrThrow]
    · rw [if_neg hany, if_neg hany]
      simp [CatalogService.CatalogRequestIdentity.tenantIdOrThrow]

/-- The library reads every source and looks for one answer. -/
theorem resolveHttpTenantIdentity_eq {headers : TenantHeaders} (h : headers.Printable)
    (requestTenant : Option Text) :
    Shared.resolveHttpTenantIdentity headers requestTenant =
      ((sources headers requestTenant).mapM Source.shared >>= Shared.agreedTenant) := by
  have hexplicit : ∀ value ∈ headers.xTenantId ++ headers.tenantId, Printable value := by
    intro value hvalue
    rcases List.mem_append.mp hvalue with hx | ht
    · exact h.xTenantId value hx
    · exact h.tenantId value ht
  unfold Shared.resolveHttpTenantIdentity sources
  rw [toStr_of_printable hexplicit, toStr_of_printable h.baggage, List.mapM_append,
    List.mapM_append, ← mapM_members fun member _ => member_shared member, List.mapM_map,
    List.mapM_map]
  show Shared.resolveTenantCandidates requestTenant _ _ = _
  unfold Shared.resolveTenantCandidates
  show (requestTenant.toList.mapM Shared.normalizeTenantCandidate >>= _) =
    ((requestTenant.toList.mapM Shared.normalizeTenantCandidate >>= _) >>= _)
  cases requestTenant.toList.mapM Shared.normalizeTenantCandidate with
  | error e => rfl
  | ok requested =>
    show ((headers.xTenantId ++ headers.tenantId).mapM Shared.normalizeTenantCandidate >>= _) =
      (((((headers.xTenantId ++ headers.tenantId).mapM
        Shared.normalizeTenantCandidate >>= _) >>= _) >>= _))
    cases (headers.xTenantId ++ headers.tenantId).mapM Shared.normalizeTenantCandidate with
    | error e => rfl
    | ok explicit =>
      cases (headers.baggage.flatMap fun value => value.splitOn ',').mapM
          Shared.memberCandidate with
      | error e => rfl
      | ok members =>
        show Shared.agreedTenant (requested ++ explicit ++ members.filterMap id) =
          Shared.agreedTenant (requested ++ (explicit ++ members.filterMap id))
        rw [List.append_assoc]

/-- The library answers with the tenant that all sources name. -/
theorem shared_ok_iff {headers : TenantHeaders} (h : headers.Printable)
    (requestTenant : Option Text) (t : Text) :
    Shared.resolveHttpTenantIdentity headers requestTenant = .ok t ↔
      Names Source.shared (sources headers requestTenant) t := by
  rw [resolveHttpTenantIdentity_eq h, mapM_bind_iff fun ys => agreedTenant_ok]

theorem resolve_fromCandidates {ys : List Text} {requestedTenant : Option Text} {t : Text} :
    CatalogService.resolve (CatalogService.fromCandidates ys) requestedTenant = .ok t ↔
      requestedTenant.toList ++ ys ≠ [] ∧
        (∀ q ∈ requestedTenant.toList, CatalogService.normalize q = .ok t) ∧ ∀ y ∈ ys, y = t := by
  have hrequested : ∀ stored : List Text,
      (requestedTenant.toList.mapM CatalogService.normalize >>= fun requested =>
        (CatalogService.fromCandidates (stored ++ requested)).tenantIdOrThrow) = .ok t ↔
      requestedTenant.toList ++ stored ≠ [] ∧
        (∀ q ∈ requestedTenant.toList, CatalogService.normalize q = .ok t) ∧
          ∀ y ∈ stored, y = t := by
    intro stored
    cases requestedTenant with
    | none =>
      show (CatalogService.fromCandidates (stored ++ [])).tenantIdOrThrow = _ ↔ _
      rw [fromCandidates_ok]
      simp
    | some q =>
      cases hq : CatalogService.normalize q with
      | error message => simp [hq, bind, Except.bind]
      | ok candidate =>
        simp only [Option.toList_some, List.mapM_cons, List.mapM_nil, hq, List.mem_singleton,
          forall_eq]
        show (CatalogService.fromCandidates (stored ++ [candidate])).tenantIdOrThrow = _ ↔ _
        rw [fromCandidates_ok]
        simp [or_imp, forall_and, and_comm]
  cases ys with
  | nil => exact hrequested []
  | cons y ys =>
    by_cases hany : ((y :: ys).any fun candidate => decide (y ≠ candidate)) = true
    · have hconflict : CatalogService.fromCandidates (y :: ys) =
          ⟨none, some "tenant identity sources conflict"⟩ := if_pos hany
      rw [hconflict]
      refine ⟨fun h => (by cases h), fun h => ?_⟩
      obtain ⟨z, hz, hne⟩ := List.any_eq_true.mp hany
      rw [h.2.2 z hz, h.2.2 y List.mem_cons_self] at hne
      simp at hne
    · have hagree : CatalogService.fromCandidates (y :: ys) = ⟨some y, none⟩ := if_neg hany
      simp only [List.any_eq_true, decide_eq_true_eq, not_exists, not_and, not_not] at hany
      rw [hagree]
      refine (hrequested [y]).trans ?_
      constructor
      · rintro ⟨-, hq, hy⟩
        refine ⟨by simp, hq, fun z hz => ?_⟩
        rw [← hany z hz]
        exact hy y List.mem_cons_self
      · rintro ⟨-, hq, hy⟩
        refine ⟨by simp, hq, fun z hz => ?_⟩
        rw [List.mem_singleton.mp hz]
        exact hy y List.mem_cons_self

/-- What the interceptor stores. -/
def storedIdentity : Except String (List Text) → CatalogService.CatalogRequestIdentity
  | .ok candidates => CatalogService.fromCandidates candidates
  | .error message => ⟨none, some message⟩

theorem fromHeaders_eq {headers : TenantHeaders} (h : headers.Printable) :
    CatalogService.fromHeaders headers =
      storedIdentity (((headers.xTenantId ++ headers.tenantId).map Source.text ++
        (headers.baggage.flatMap fun value => value.splitOn ',').filterMap
          memberSource).mapM Source.catalog) := by
  have hmembers : ∀ member ∈ headers.baggage.flatMap (CatalogService.javaSplit ','),
      Printable member := by
    intro member hmember c hc
    obtain ⟨value, hvalue, hpiece⟩ := List.mem_flatMap.mp hmember
    refine h.baggage value hvalue c ?_
    unfold CatalogService.javaSplit at hpiece
    split at hpiece
    · have hpiece : member ∈ value.splitOn ',' :=
        List.mem_reverse.mp ((List.dropWhile_suffix _).subset (List.mem_reverse.mp hpiece))
      exact (mem_splitOn hpiece).2 c hc
    · rw [List.mem_singleton.mp hpiece] at hc
      exact hc
  have hsame : (headers.baggage.flatMap (CatalogService.javaSplit ',')).filterMap memberSource =
      (headers.baggage.flatMap fun value => value.splitOn ',').filterMap memberSource := by
    rw [List.filterMap_flatMap, List.filterMap_flatMap]
    exact congrArg (fun g => headers.baggage.flatMap g) (funext (filterMap_javaSplit ','))
  rw [List.mapM_append, ← hsame, ← mapM_members fun member hm => member_catalog (hmembers member hm),
    List.mapM_map]
  unfold CatalogService.fromHeaders
  show storedIdentity ((headers.xTenantId ++ headers.tenantId).mapM CatalogService.normalize >>= _) =
    storedIdentity ((headers.xTenantId ++ headers.tenantId).mapM CatalogService.normalize >>= _)
  cases (headers.xTenantId ++ headers.tenantId).mapM CatalogService.normalize with
  | error e => rfl
  | ok explicit =>
    cases (headers.baggage.flatMap (CatalogService.javaSplit ',')).mapM
        CatalogService.memberCandidate with
    | error e => rfl
    | ok members => rfl

/-- The catalog, once with the headers and once with the argument, does the same. -/
theorem catalog_ok_iff {headers : TenantHeaders} (h : headers.Printable)
    (requestedTenant : Option Text) (t : Text) :
    CatalogService.resolve (CatalogService.fromHeaders headers) requestedTenant = .ok t ↔
      Names Source.catalog (sources headers requestedTenant) t := by
  rw [fromHeaders_eq h]
  unfold sources
  cases hys : ((headers.xTenantId ++ headers.tenantId).map Source.text ++
      (headers.baggage.flatMap fun value => value.splitOn ',').filterMap
        memberSource).mapM Source.catalog with
  | error message =>
    refine ⟨fun hok => (by cases hok), fun hnames => ?_⟩
    rw [mapM_of_names fun s hs => hnames.2 s (List.mem_append_right _ hs)] at hys
    cases hys
  | ok ys =>
    obtain ⟨hlength, hnames⟩ := names_of_mapM hys
    refine resolve_fromCandidates.trans ?_
    constructor
    · rintro ⟨hne, hrequested, hall⟩
      refine ⟨fun hnil => hne ?_, fun source hsource => ?_⟩
      · rw [List.append_eq_nil_iff, List.map_eq_nil_iff] at hnil
        rw [hnil.2] at hlength
        exact List.append_eq_nil_iff.mpr ⟨hnil.1, List.eq_nil_of_length_eq_zero hlength⟩
      · rcases List.mem_append.mp hsource with hsource | hsource
        · obtain ⟨q, hq, rfl⟩ := List.mem_map.mp hsource
          exact hrequested q hq
        · exact hnames t hall source hsource
    · rintro ⟨hne, hall⟩
      have hreplicate := mapM_of_names fun s hs => hall s (List.mem_append_right _ hs)
      rw [hys] at hreplicate
      cases hreplicate
      refine ⟨fun hnil => hne ?_, fun q hq => ?_, fun y hy => List.eq_of_mem_replicate hy⟩
      · rw [List.append_eq_nil_iff, List.replicate_eq_nil_iff] at hnil
        exact List.append_eq_nil_iff.mpr
          ⟨List.map_eq_nil_iff.mpr hnil.1, List.eq_nil_of_length_eq_zero hnil.2⟩
      · exact hall (.text q) (List.mem_append_left _ (List.mem_map_of_mem hq))

/-- The two resolvers answer alike: with the same tenant, or both with an error. -/
def ResolversAgree (headers : TenantHeaders) (requestTenant : Option Text) : Prop :=
  (∀ t, Shared.resolveHttpTenantIdentity headers requestTenant = .ok t ↔
    CatalogService.resolve (CatalogService.fromHeaders headers) requestTenant = .ok t) ∧
  ((∃ e, Shared.resolveHttpTenantIdentity headers requestTenant = .error e) ↔
    ∃ e, CatalogService.resolve (CatalogService.fromHeaders headers) requestTenant = .error e)

theorem error_iff_not_ok {ε : Type} {x : Except ε Text} :
    (∃ e, x = .error e) ↔ ∀ t, x ≠ .ok t := by
  cases x with
  | error e => simp
  | ok t => simp

theorem resolversAgree_of_ok {headers : TenantHeaders} {requestTenant : Option Text}
    (h : ∀ t, Shared.resolveHttpTenantIdentity headers requestTenant = .ok t ↔
      CatalogService.resolve (CatalogService.fromHeaders headers) requestTenant = .ok t) :
    ResolversAgree headers requestTenant := by
  refine ⟨h, ?_⟩
  rw [error_iff_not_ok, error_iff_not_ok]
  exact forall_congr' fun t => not_congr (h t)

/-- **Both tenant resolvers.** They answer alike exactly when every source of the
request is plain, or in neither do all sources name one tenant. -/
theorem tenant_resolvers_agree_iff {headers : TenantHeaders} (h : headers.Printable)
    (requestTenant : Option Text) :
    ResolversAgree headers requestTenant ↔
      (∀ source ∈ sources headers requestTenant, source.Plain) ∨
        ¬ ∃ t, (∀ source ∈ sources headers requestTenant, source.shared = .ok t) ∨
          ∀ source ∈ sources headers requestTenant, source.catalog = .ok t := by
  have hshared := shared_ok_iff h requestTenant
  have hcatalog := catalog_ok_iff h requestTenant
  constructor
  · rintro ⟨hagree, -⟩
    by_cases hnames : ∃ t, (∀ source ∈ sources headers requestTenant, source.shared = .ok t) ∨
        ∀ source ∈ sources headers requestTenant, source.catalog = .ok t
    · refine .inl fun source hsource => ?_
      have hne : sources headers requestTenant ≠ [] := List.ne_nil_of_mem hsource
      obtain ⟨t, hnamed | hnamed⟩ := hnames
      · have hother := (hcatalog t).mp ((hagree t).mp ((hshared t).mpr ⟨hne, hnamed⟩))
        exact (plain_of_shared (hnamed source hsource)).mp (hother.2 source hsource)
      · have hother := (hshared t).mp ((hagree t).mpr ((hcatalog t).mpr ⟨hne, hnamed⟩))
        exact (plain_of_catalog (hnamed source hsource)).mp (hother.2 source hsource)
    · exact .inr hnames
  · rintro (hplain | hnone)
    · refine resolversAgree_of_ok fun t => ?_
      rw [hshared, hcatalog]
      constructor
      · rintro ⟨hne, hnamed⟩
        exact ⟨hne, fun source hs => (plain_of_shared (hnamed source hs)).mpr (hplain source hs)⟩
      · rintro ⟨hne, hnamed⟩
        exact ⟨hne, fun source hs => (plain_of_catalog (hnamed source hs)).mpr (hplain source hs)⟩
    · refine resolversAgree_of_ok fun t => ?_
      rw [hshared, hcatalog]
      constructor
      · intro hnamed
        exact absurd ⟨t, .inl hnamed.2⟩ hnone
      · intro hnamed
        exact absurd ⟨t, .inr hnamed.2⟩ hnone

/-- A tenant behind a no-break space in baggage. -/
def nbspTenant : TenantHeaders where
  xTenantId := []
  tenantId := []
  baggage := ["tenant.id=%C2%A0acme".toList]

theorem printable_of_all {s : Text}
    (h : (s.all fun c => decide (0x20 ≤ c.toNat ∧ c.toNat < 0x7f) || decide (c = '\t')) = true) :
    Printable s := by
  intro c hc
  have hchar := List.all_eq_true.mp h c hc
  simpa using hchar

theorem nbspTenant_printable : nbspTenant.Printable where
  xTenantId := fun _ h => absurd h List.not_mem_nil
  tenantId := fun _ h => absurd h List.not_mem_nil
  baggage := by
    intro value hvalue
    rw [List.mem_singleton.mp hvalue]
    exact printable_of_all (by decide)

/-- The library reads `acme`, the catalog keeps the no-break space in the name. -/
theorem tenant_resolvers_disagree : ¬ ∀ (headers : TenantHeaders) (requestTenant : Option Text),
    headers.Printable → ResolversAgree headers requestTenant := by
  intro h
  have hagree := (h nbspTenant none nbspTenant_printable).1 "acme".toList
  have hshared : Shared.resolveHttpTenantIdentity nbspTenant none = .ok "acme".toList := by
    decide
  have hcatalog : CatalogService.resolve (CatalogService.fromHeaders nbspTenant) none =
      .ok (Char.ofNat 0xa0 :: "acme".toList) := by
    decide +kernel
  rw [hagree, hcatalog] at hshared
  have hname : Char.ofNat 0xa0 :: "acme".toList ≠ "acme".toList := by decide
  exact hname (Except.ok.inj hshared)

theorem tenant_resolvers_agree_sample :
    ResolversAgree ⟨["acme ".toList], [], ["tenant.id = %61cme;p=1,region=eu".toList]⟩
      (some "acme".toList) := by
  refine (tenant_resolvers_agree_iff ⟨?_, ?_, ?_⟩ _).mpr (.inl ?_)
  · intro value hvalue
    rw [List.mem_singleton.mp hvalue]
    exact printable_of_all (by decide)
  · exact fun _ h => absurd h List.not_mem_nil
  · intro value hvalue
    rw [List.mem_singleton.mp hvalue]
    exact printable_of_all (by decide)
  · have hsources : sources ⟨["acme ".toList], [], ["tenant.id = %61cme;p=1,region=eu".toList]⟩
        (some "acme".toList) = [.text "acme".toList, .text "acme ".toList,
          .baggage "%61cme".toList] := by
      decide
    rw [hsources]
    intro source hsource
    simp only [List.mem_cons, List.not_mem_nil, or_false] at hsource
    rcases hsource with rfl | rfl | rfl
    · show PlainText _
      decide
    · show PlainText _
      decide
    · intro bytes hbytes
      have hdecoded : percentDecode (utf8 "%61cme".toList) = some (utf8 "acme".toList) := by
        decide
      rw [hdecoded] at hbytes
      cases hbytes
      exact ⟨"acme".toList, by decide, by decide⟩

end CommercePlayground.Propagation
