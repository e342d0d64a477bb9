/-
CommercePlayground.Propagation.BusinessTheorems — what the functions of the business context
set and what they keep.

A sanitized baggage has at most one entry for each of the eight safe keys, so that with plain
metadata it is never too large for the map of the library (`ContextBaggage.Plain.room`): an
entry that is inserted is there. From this every function gets two lemmas, that its baggage is
plain and what `get` finds in it.
-/
import CommercePlayground.Propagation.Calls
import CommercePlayground.Propagation.DurableTheorems

namespace CommercePlayground.Propagation

open Lib Shared

/-! ## The map -/

theorem find?_setEntry (entry : BaggageEntry) (entries : List BaggageEntry) (key : Text) :
    (setEntry entry entries).find? (fun e => decide (e.key = key)) =
      if entry.key = key then some entry else entries.find? fun e => decide (e.key = key) := by
  induction entries with
  | nil =>
    by_cases hkey : entry.key = key
    · simp [setEntry, hkey]
    · simp [setEntry, hkey]
  | cons first rest ih =>
    unfold setEntry
    split
    · rename_i hfirst
      by_cases hkey : entry.key = key
      · simp [hkey]
      · simp [hkey, hfirst]
    · rename_i hfirst
      rw [List.find?_cons, List.find?_cons, ih]
      by_cases hkey : entry.key = key
      · have hne : first.key ≠ key := fun heq => hfirst (heq.trans hkey.symm)
        simp [hkey, hne]
      · simp [hkey]

theorem ContextBaggage.get_of_mem {baggage : ContextBaggage} {entry : BaggageEntry}
    (h : entry ∈ baggage.entries) : baggage.get entry.key = some entry.value := by
  have hdistinct := baggage.distinct
  unfold ContextBaggage.get
  revert h hdistinct
  induction baggage.entries with
  | nil => exact fun h _ => absurd h List.not_mem_nil
  | cons first rest ih =>
    intro h hdistinct
    rw [List.map_cons, List.nodup_cons] at hdistinct
    rcases List.mem_cons.mp h with rfl | h
    · simp
    · have hne : first.key ≠ entry.key := fun heq =>
        hdistinct.1 (heq ▸ List.mem_map_of_mem h)
      rw [List.find?_cons_of_neg (by simpa using hne)]
      exact ih h hdistinct.2

theorem ContextBaggage.mem_of_get {baggage : ContextBaggage} {key value : Text}
    (h : baggage.get key = some value) :
    ∃ entry ∈ baggage.entries, entry.key = key ∧ entry.value = value := by
  obtain ⟨entry, hfind, hvalue⟩ := Option.map_eq_some_iff.mp h
  exact ⟨entry, List.mem_of_find?_eq_some hfind, by simpa using List.find?_some hfind, hvalue⟩

/-! ## Plain baggage -/

theorem safe_entry_facts {key value : Text} (h : isSafeBaggageEntry key value = true) :
    key ∈ safeBusinessBaggageKeys ∧ (utf8 value).length ≤ 128 := by
  simp only [isSafeBaggageEntry, Bool.and_eq_true, List.contains_iff_mem, decide_eq_true_eq] at h
  exact h.1

theorem PlainMetadata.nil : PlainMetadata [] where
  printable := fun _ hc => absurd hc List.not_mem_nil
  comma := List.not_mem_nil
  percent := List.not_mem_nil
  length := Nat.zero_le _

namespace ContextBaggage.Plain

variable {baggage : ContextBaggage} (h : baggage.Plain)

include h

theorem keys : ∀ entry ∈ baggage.entries, entry.key ∈ safeBusinessBaggageKeys :=
  fun entry hentry => (safe_entry_facts (h.safe entry hentry)).1

/-- One entry for each safe key, so there is room for all of them. -/
theorem room {library : Library} (hlibrary : library.Documented) :
    library.room baggage.entries = true := by
  have hlength : baggage.entries.length ≤ 8 := by
    have hsub : baggage.entries.map BaggageEntry.key ⊆ safeBusinessBaggageKeys := by
      intro key hkey
      obtain ⟨entry, hentry, rfl⟩ := List.mem_map.mp hkey
      exact h.keys entry hentry
    have := (List.subperm_of_subset baggage.distinct hsub).length_le
    rwa [List.length_map] at this
  have hshort : ∀ key ∈ safeBusinessBaggageKeys, (utf8 key).length ≤ 17 := by decide
  have hcontent : contentLength baggage.entries ≤ baggage.entries.length * 273 := by
    have hentry : ∀ n ∈ baggage.entries.map (fun entry => (utf8 entry.key).length +
        (utf8 entry.value).length + (utf8 entry.metadata).length), n ≤ 273 := by
      intro n hn
      obtain ⟨entry, hentry, rfl⟩ := List.mem_map.mp hn
      have hkey := hshort entry.key (h.keys entry hentry)
      have hvalue := (safe_entry_facts (h.safe entry hentry)).2
      have hmetadata := (h.metadata entry hentry).length
      omega
    have hsum := List.sum_le_card_nsmul _ 273 hentry
    rwa [List.length_map, nsmul_eq_mul, Nat.cast_id] at hsum
  exact hlibrary.room _ (by omega) (by omega)

theorem set {entry : BaggageEntry} (hsafe : isSafeBaggageEntry entry.key entry.value = true)
    (hmetadata : PlainMetadata entry.metadata) :
    (ContextBaggage.mk (setEntry entry baggage.entries) (setEntry_nodup baggage.distinct)).Plain
    where
  safe := fun e he => (mem_setEntry he).elim (fun heq => heq ▸ hsafe) (h.safe e)
  metadata := fun e he => (mem_setEntry he).elim (fun heq => heq ▸ hmetadata) (h.metadata e)

theorem insert {library : Library} {entry : BaggageEntry}
    (hsafe : isSafeBaggageEntry entry.key entry.value = true)
    (hmetadata : PlainMetadata entry.metadata) : (baggage.insert library entry).Plain := by
  unfold ContextBaggage.insert
  split
  · exact h.set hsafe hmetadata
  · exact h

/-- What is inserted is there, and nothing else changes. -/
theorem get_insert {library : Library} (hlibrary : library.Documented) {entry : BaggageEntry}
    (hsafe : isSafeBaggageEntry entry.key entry.value = true)
    (hmetadata : PlainMetadata entry.metadata) (key : Text) :
    (baggage.insert library entry).get key =
      if entry.key = key then some entry.value else baggage.get key := by
  have hroom : library.room (setEntry entry baggage.entries) = true :=
    (h.set hsafe hmetadata).room hlibrary
  unfold ContextBaggage.insert
  rw [if_pos hroom]
  unfold ContextBaggage.get
  rw [find?_setEntry]
  split
  · rfl
  · rfl

theorem clone : cloneBaggage baggage = baggage := by
  have hfilter : (baggage.entries.filter fun entry =>
      isSafeBaggageEntry entry.key entry.value) = baggage.entries :=
    List.filter_eq_self.mpr h.safe
  unfold cloneBaggage
  congr 1

end ContextBaggage.Plain

theorem Context.Plain.of_baggage {context : Context} (h : context.baggage.Plain) :
    context.Plain := by
  unfold Context.Plain
  rw [h.clone]
  exact h

theorem Context.Plain.sanitized {context : Context} (h : context.Plain) :
    (withSafeBaggage context).Plain :=
  .of_baggage h

/-! ## Inserting several entries -/

section Inserting

/-- A step of the loops in `with_safe_parent_baggage` and `extend_baggage`. -/
def insertSafe (library : Library) (baggage : ContextBaggage) (entry : BaggageEntry) :
    ContextBaggage :=
  if isSafeBaggageEntry entry.key entry.value then baggage.insert library entry else baggage

/-- Where an entry is safe, its metadata is plain. -/
def PlainWhereSafe (entry : BaggageEntry) : Prop :=
  isSafeBaggageEntry entry.key entry.value = true → PlainMetadata entry.metadata

variable {library : Library} {baggage : ContextBaggage}

theorem ContextBaggage.Plain.insertSafe {entry : BaggageEntry} (h : baggage.Plain)
    (hentry : PlainWhereSafe entry) : (insertSafe library baggage entry).Plain := by
  unfold Propagation.insertSafe
  split
  · rename_i hsafe
    exact h.insert hsafe (hentry hsafe)
  · exact h

theorem ContextBaggage.Plain.insertAll {entries : List BaggageEntry} (h : baggage.Plain)
    (hentries : ∀ entry ∈ entries, PlainWhereSafe entry) :
    (entries.foldl (Propagation.insertSafe library) baggage).Plain := by
  induction entries generalizing baggage with
  | nil => exact h
  | cons entry entries ih =>
    exact ih (h.insertSafe (hentries entry List.mem_cons_self))
      fun e he => hentries e (List.mem_cons_of_mem entry he)

variable (hlibrary : library.Documented)

include hlibrary

theorem get_insertAll_of_not {entries : List BaggageEntry} {key : Text} (h : baggage.Plain)
    (hentries : ∀ entry ∈ entries, PlainWhereSafe entry)
    (hkey : ∀ entry ∈ entries, isSafeBaggageEntry entry.key entry.value = true →
      entry.key ≠ key) :
    (entries.foldl (insertSafe library) baggage).get key = baggage.get key := by
  induction entries generalizing baggage with
  | nil => rfl
  | cons entry entries ih =>
    have hentry := hentries entry List.mem_cons_self
    have hplain : (insertSafe library baggage entry).Plain := h.insertSafe hentry
    have hrest := ih hplain (fun e he => hentries e (List.mem_cons_of_mem entry he))
      fun e he => hkey e (List.mem_cons_of_mem entry he)
    rw [List.foldl_cons, hrest]
    unfold insertSafe
    split
    · rename_i hsafe
      rw [h.get_insert hlibrary hsafe (hentry hsafe),
        if_neg (hkey entry List.mem_cons_self hsafe)]
    · rfl

theorem get_insertAll_of_mem {entries : List BaggageEntry} {entry : BaggageEntry}
    (h : baggage.Plain) (hentries : ∀ entry ∈ entries, PlainWhereSafe entry)
    (hdistinct : (entries.map BaggageEntry.key).Nodup) (hmem : entry ∈ entries)
    (hsafe : isSafeBaggageEntry entry.key entry.value = true) :
    (entries.foldl (insertSafe library) baggage).get entry.key = some entry.value := by
  induction entries generalizing baggage with
  | nil => cases hmem
  | cons first entries ih =>
    have hfirst := hentries first List.mem_cons_self
    have hrest := fun e he => hentries e (List.mem_cons_of_mem first he)
    obtain ⟨hnew, hdistinct⟩ := List.nodup_cons.mp hdistinct
    rw [List.foldl_cons]
    rcases List.mem_cons.mp hmem with rfl | hmem
    · -- the entries after it have other keys
      have hother : ∀ e ∈ entries, isSafeBaggageEntry e.key e.value = true →
          e.key ≠ entry.key := fun e he _ heq => hnew (heq ▸ List.mem_map_of_mem he)
      rw [get_insertAll_of_not hlibrary (h.insertSafe hfirst) hrest hother]
      unfold insertSafe
      rw [if_pos hsafe, h.get_insert hlibrary hsafe (hfirst hsafe), if_pos rfl]
    · exact ih (h.insertSafe hfirst) hrest hdistinct hmem

end Inserting

/-! ## `extend_baggage` -/

/-- The entry that a value becomes. -/
def entryOf (value : Text × Text) : BaggageEntry := ⟨value.1, value.2, []⟩

section Extend

variable {library : Library} {context : Context} {values : List (Text × Text)}

theorem extendBaggage_baggage : (extendBaggage library context values).baggage =
    (values.map entryOf).foldl (insertSafe library) (cloneBaggage context.baggage) := by
  rw [List.foldl_map]
  rfl

theorem plainWhereSafe_entryOf : ∀ entry ∈ values.map entryOf, PlainWhereSafe entry := by
  intro entry hentry _
  obtain ⟨value, -, rfl⟩ := List.mem_map.mp hentry
  exact .nil

theorem extendBaggage_plain (h : context.Plain) :
    (extendBaggage library context values).baggage.Plain := by
  rw [extendBaggage_baggage]
  exact ContextBaggage.Plain.insertAll h plainWhereSafe_entryOf

variable (hlibrary : library.Documented) (h : context.Plain)

include hlibrary h

theorem get_extendBaggage_of_mem {key value : Text} (hdistinct : (values.map Prod.fst).Nodup)
    (hmem : (key, value) ∈ values) (hsafe : isSafeBaggageEntry key value = true) :
    (extendBaggage library context values).baggage.get key = some value := by
  rw [extendBaggage_baggage]
  have hentry : entryOf (key, value) ∈ values.map entryOf := List.mem_map_of_mem hmem
  refine get_insertAll_of_mem hlibrary h plainWhereSafe_entryOf ?_ hentry hsafe
  rwa [List.map_map]

theorem get_extendBaggage_of_not {key : Text} (hkey : ∀ value ∈ values, value.1 ≠ key) :
    (extendBaggage library context values).baggage.get key =
      (cloneBaggage context.baggage).get key := by
  rw [extendBaggage_baggage]
  refine get_insertAll_of_not hlibrary h plainWhereSafe_entryOf fun entry hentry _ => ?_
  obtain ⟨value, hvalue, rfl⟩ := List.mem_map.mp hentry
  exact hkey value hvalue

end Extend

/-! ## `with_safe_parent_baggage` -/

section Parent

variable {library : Library} {context parent : Context}

theorem plainWhereSafe_parent (hparent : parent.Plain) :
    ∀ entry ∈ parent.baggage.entries, PlainWhereSafe entry :=
  fun entry hentry hsafe => hparent.metadata entry (List.mem_filter.mpr ⟨hentry, hsafe⟩)

theorem withSafeParentBaggage_plain (h : context.Plain) (hparent : parent.Plain) :
    (withSafeParentBaggage library context parent).baggage.Plain :=
  ContextBaggage.Plain.insertAll h (plainWhereSafe_parent hparent)

/-- What the parent has, the result has. -/
theorem get_withSafeParentBaggage (hlibrary : library.Documented) (h : context.Plain)
    (hparent : parent.Plain) {key value : Text}
    (hget : (cloneBaggage parent.baggage).get key = some value) :
    (withSafeParentBaggage library context parent).baggage.get key = some value := by
  obtain ⟨entry, hentry, rfl, rfl⟩ := ContextBaggage.mem_of_get hget
  obtain ⟨hentry, hsafe⟩ := List.mem_filter.mp hentry
  exact get_insertAll_of_mem hlibrary h (plainWhereSafe_parent hparent) parent.baggage.distinct
    hentry hsafe

end Parent

/-! ## `with_business_context_from_parent` -/

section Business

variable {library : Library} {context parent : Context} {tenant tier segment region
  priority : Text}

theorem withDefaults_plain {fields : List (Text × Text)} (h : context.baggage.Plain) :
    (fields.foldl (withDefault library) context).baggage.Plain := by
  induction fields generalizing context with
  | nil => exact h
  | cons field fields ih =>
    refine ih ?_
    unfold withDefault
    split
    · exact extendBaggage_plain (.of_baggage h)
    · exact h

/-- A default overwrites nothing. -/
theorem get_withDefaults (hlibrary : library.Documented) {fields : List (Text × Text)}
    (h : context.baggage.Plain) {key value : Text} (hget : context.baggage.get key = some value) :
    (fields.foldl (withDefault library) context).baggage.get key = some value := by
  induction fields generalizing context with
  | nil => exact hget
  | cons field fields ih =>
    have hplain : ([field].foldl (withDefault library) context).baggage.Plain :=
      withDefaults_plain h
    refine ih hplain ?_
    unfold withDefault
    split
    · rename_i hnone
      have hne : field.1 ≠ key := by
        rintro rfl
        rw [hget] at hnone
        cases hnone
      rw [get_extendBaggage_of_not hlibrary (.of_baggage h) (by simpa using hne), h.clone]
      exact hget
    · exact hget

theorem withBusinessContextFromParent_plain (h : context.Plain) (hparent : parent.Plain) :
    (withBusinessContextFromParent library context parent tenant tier segment region
      priority).baggage.Plain :=
  withDefaults_plain (extendBaggage_plain (.of_baggage (withSafeParentBaggage_plain h hparent)))

variable (hlibrary : library.Documented) (h : context.Plain) (hparent : parent.Plain)

include hlibrary h hparent

/-- The tenant is the one of the request, whatever the parent says. -/
theorem get_tenant_withBusinessContextFromParent
    (hsafe : isSafeBaggageEntry tenantBaggageKey tenant = true) :
    (withBusinessContextFromParent library context parent tenant tier segment region
      priority).baggage.get tenantBaggageKey = some tenant := by
  have hplain : (withSafeParentBaggage library context parent).baggage.Plain :=
    withSafeParentBaggage_plain h hparent
  exact get_withDefaults hlibrary (extendBaggage_plain (.of_baggage hplain))
    (get_extendBaggage_of_mem hlibrary (.of_baggage hplain) (by simp) List.mem_cons_self hsafe)

/-- What the parent has chosen stays. -/
theorem get_withBusinessContextFromParent {key value : Text} (hkey : tenantBaggageKey ≠ key)
    (hget : (cloneBaggage parent.baggage).get key = some value) :
    (withBusinessContextFromParent library context parent tenant tier segment region
      priority).baggage.get key = some value := by
  have hplain : (withSafeParentBaggage library context parent).baggage.Plain :=
    withSafeParentBaggage_plain h hparent
  refine get_withDefaults hlibrary (extendBaggage_plain (.of_baggage hplain)) ?_
  rw [get_extendBaggage_of_not hlibrary (.of_baggage hplain) (by simpa using hkey), hplain.clone]
  exact get_withSafeParentBaggage hlibrary h hparent hget

end Business

end CommercePlayground.Propagation
