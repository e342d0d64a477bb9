/-
CommercePlayground.Web.CartTheorems — no change is lost while tabs are up to date.

A tidy cart is left alone by `normalizeCart`, and a call on it does what the call means;
so a call of a tab that shows the stored cart stores the meaning of the call. By induction
over a run, the stored cart is the result of all calls.
-/
import CommercePlayground.Web.Cart

namespace CommercePlayground.Web.Cart

open Lib
open Propagation.WebClient (jsTrim isJsSpace)

/-! ## Lines -/

theorem addLine_of_not_mem {sku : Text} {quantity : Int} {items : List CartEntry}
    (h : ∀ item ∈ items, item.sku ≠ sku) :
    addLine sku quantity items = items ++ [⟨sku, min maxQuantity quantity⟩] := by
  induction items with
  | nil => rfl
  | cons item items ih =>
    rw [addLine, if_neg (h item List.mem_cons_self),
      ih fun other hother => h other (List.mem_cons_of_mem item hother)]
    rfl

/-- A cart with one line of each SKU has one to change. -/
theorem addLine_of_mem {sku : Text} {quantity : Int} {items : List CartEntry}
    (hu : KeyUnique CartEntry.sku items) (h : ∃ item ∈ items, item.sku = sku) :
    addLine sku quantity items = items.map fun item =>
      if item.sku = sku then ⟨item.sku, min maxQuantity (item.quantity + quantity)⟩ else item := by
  induction items with
  | nil =>
    obtain ⟨item, hitem, -⟩ := h
    cases hitem
  | cons item items ih =>
    have hnodup : item.sku ∉ items.map CartEntry.sku ∧ KeyUnique CartEntry.sku items := by
      simpa [KeyUnique] using hu
    by_cases hsku : item.sku = sku
    · have hrest : items.map (fun other => if other.sku = sku then
          ⟨other.sku, min maxQuantity (other.quantity + quantity)⟩ else other) = items := by
        refine (List.map_congr_left fun other hother => if_neg fun hother' => ?_).trans
          (List.map_id items)
        exact hnodup.1 (List.mem_map.mpr ⟨other, hother, hother'.trans hsku.symm⟩)
      rw [addLine, if_pos hsku, List.map_cons, if_pos hsku, hrest, hsku]
    · obtain ⟨other, hother, hothersku⟩ := h
      have hmem : other ∈ items := by
        rcases List.mem_cons.mp hother with rfl | hmem
        · exact absurd hothersku hsku
        · exact hmem
      rw [addLine, if_neg hsku, List.map_cons, if_neg hsku,
        ih hnodup.2 ⟨other, hmem, hothersku⟩]

theorem mem_addLine {sku : Text} {quantity : Int} {items : List CartEntry} {item : CartEntry}
    (h : item ∈ addLine sku quantity items) : item ∈ items ∨ item.sku = sku ∧
      (item.quantity = min maxQuantity quantity ∨
        ∃ old ∈ items, item.quantity = min maxQuantity (old.quantity + quantity)) := by
  induction items with
  | nil =>
    rw [addLine, List.mem_singleton] at h
    subst h
    exact .inr ⟨rfl, .inl rfl⟩
  | cons head items ih =>
    rw [addLine] at h
    split at h
    · rcases List.mem_cons.mp h with rfl | h
      · exact .inr ⟨rfl, .inr ⟨head, List.mem_cons_self, rfl⟩⟩
      · exact .inl (List.mem_cons_of_mem head h)
    · rcases List.mem_cons.mp h with rfl | h
      · exact .inl List.mem_cons_self
      · rcases ih h with h | ⟨hsku, h | ⟨old, hold, h⟩⟩
        · exact .inl (List.mem_cons_of_mem head h)
        · exact .inr ⟨hsku, .inl h⟩
        · exact .inr ⟨hsku, .inr ⟨old, List.mem_cons_of_mem head hold, h⟩⟩

theorem addLine_skus {sku : Text} {quantity : Int} {items : List CartEntry}
    (hu : KeyUnique CartEntry.sku items) :
    KeyUnique CartEntry.sku (addLine sku quantity items) := by
  by_cases h : ∃ item ∈ items, item.sku = sku
  · rw [addLine_of_mem hu h]
    have hskus : (items.map fun item => if item.sku = sku then
        (⟨item.sku, min maxQuantity (item.quantity + quantity)⟩ : CartEntry) else item).map
          CartEntry.sku = items.map CartEntry.sku := by
      rw [List.map_map]
      refine List.map_congr_left fun item _ => ?_
      show CartEntry.sku (if item.sku = sku then _ else item) = item.sku
      split <;> rfl
    unfold KeyUnique
    rw [hskus]
    exact hu
  · have hnone : ∀ item ∈ items, item.sku ≠ sku := fun item hitem hsku => h ⟨item, hitem, hsku⟩
    rw [addLine_of_not_mem hnone]
    exact hu.append_singleton hnone

/-! ## Tidy carts -/

theorem Tidy.nil : Tidy [] :=
  ⟨by simp, KeyUnique.nil _, by simp⟩

theorem Tidy.addLine {sku : Text} {quantity : Int} {items : List CartEntry} (h : Tidy items)
    (hsku : sku ≠ [] ∧ jsTrim sku = sku) (hquantity : 0 < quantity) :
    Tidy (addLine sku quantity items) := by
  refine ⟨fun item hitem => ?_, addLine_skus h.unique, fun item hitem => ?_⟩
  · rcases mem_addLine hitem with hitem | ⟨rfl, -⟩
    · exact h.skus item hitem
    · exact hsku
  · unfold maxQuantity at *
    rcases mem_addLine hitem with hitem | ⟨-, hq | ⟨old, hold, hq⟩⟩
    · exact h.quantities item hitem
    · unfold maxQuantity at hq
      omega
    · have := (h.quantities old hold).1
      unfold maxQuantity at hq
      omega

theorem Tidy.filter {items : List CartEntry} (h : Tidy items) (p : CartEntry → Bool) :
    Tidy (items.filter p) :=
  ⟨fun item hitem => h.skus item (List.mem_filter.mp hitem).1,
    h.unique.sublist (List.filter_sublist.map _),
    fun item hitem => h.quantities item (List.mem_filter.mp hitem).1⟩

/-- What `mergeInto` makes is tidy. -/
theorem mergeInto_tidy {merged entries result : List CartEntry} (hmerged : Tidy merged)
    (h : mergeInto merged entries = .ok result) : Tidy result := by
  induction entries generalizing merged with
  | nil =>
    cases h
    exact hmerged
  | cons entry entries ih =>
    rw [mergeInto] at h
    split at h
    · cases h
    · rename_i hvalid
      simp only [Bool.or_eq_true, List.isEmpty_iff, decide_eq_true_eq, not_or] at hvalid
      exact ih (hmerged.addLine ⟨hvalid.1.1, trimMatches_idem _ _⟩ (Int.not_le.mp hvalid.2)) h

/-- A tidy cart is what `normalizeCart` makes of it. -/
theorem mergeInto_of_tidy {merged entries : List CartEntry} (h : Tidy (merged ++ entries)) :
    mergeInto merged entries = .ok (merged ++ entries) := by
  induction entries generalizing merged with
  | nil => rw [mergeInto, List.append_nil]
  | cons entry entries ih =>
    have hmem : entry ∈ merged ++ entry :: entries := by simp
    obtain ⟨hne, htrim⟩ := h.skus entry hmem
    obtain ⟨hpos, hmax⟩ := h.quantities entry hmem
    unfold maxQuantity at hmax
    have hvalid : ¬ ((jsTrim entry.sku).isEmpty || !isSafeInteger entry.quantity ||
        decide (entry.quantity ≤ 0)) = true := by
      rw [htrim]
      simp only [Bool.or_eq_true, List.isEmpty_iff, decide_eq_true_eq, not_or, isSafeInteger,
        Bool.not_eq_true', decide_eq_false_iff_not, not_not]
      exact ⟨⟨hne, by omega⟩, by omega⟩
    have hfresh : ∀ item ∈ merged, item.sku ≠ entry.sku := by
      intro item hitem hsku
      have hnodup := h.unique
      unfold KeyUnique at hnodup
      rw [List.map_append, List.nodup_append] at hnodup
      exact hnodup.2.2 item.sku (List.mem_map_of_mem hitem) entry.sku (by simp) hsku
    have hline : addLine (jsTrim entry.sku) entry.quantity merged = merged ++ [entry] := by
      rw [htrim, addLine_of_not_mem hfresh]
      have hmin : min maxQuantity entry.quantity = entry.quantity := by
        unfold maxQuantity
        omega
      rw [hmin]
    rw [mergeInto, if_neg hvalid, hline]
    have happend : merged ++ entry :: entries = merged ++ [entry] ++ entries := by simp
    rw [happend] at h ⊢
    exact ih h

theorem normalizeCart_of_tidy {items : List CartEntry} (h : Tidy items) :
    normalizeCart items = .ok items := by
  show mergeInto [] items = .ok ([] ++ items)
  exact mergeInto_of_tidy h

/-! ## Calls -/

theorem addItem_valid_iff {sku : Text} {quantity : Int} :
    ¬ ((jsTrim sku).isEmpty || !isSafeInteger quantity || decide (quantity ≤ 0)) = true ↔
      jsTrim sku ≠ [] ∧ isSafeInteger quantity = true ∧ 0 < quantity := by
  simp only [Bool.or_eq_true, List.isEmpty_iff, decide_eq_true_eq, not_or, Bool.not_eq_true',
    Bool.not_eq_false, Int.not_le, and_assoc, ne_eq]

/-- On a tidy cart a call commits what it means. -/
theorem nextItems_eq {items next : List CartEntry} {call : Call} (h : Tidy items)
    (hnext : nextItems items call = some next) : next = applyCall items call := by
  cases call with
  | addItem sku quantity =>
    unfold nextItems addItem at hnext
    dsimp only at hnext
    split at hnext
    · cases hnext
    · rename_i hvalid
      rw [applyCall, if_pos (addItem_valid_iff.mp hvalid)]
      split at hnext
      · rename_i hany
        cases hnext
        obtain ⟨item, hitem, hsku⟩ := List.any_eq_true.mp hany
        exact (addLine_of_mem h.unique ⟨item, hitem, of_decide_eq_true hsku⟩).symm
      · rename_i hnone
        cases hnext
        refine (addLine_of_not_mem fun item hitem hsku => hnone ?_).symm
        exact List.any_eq_true.mpr ⟨item, hitem, decide_eq_true hsku⟩
  | setQuantity sku quantity =>
    dsimp only [nextItems, setQuantity] at hnext
    by_cases hsafe : isSafeInteger quantity = true
    · have hgoes : ¬ (!isSafeInteger quantity) = true := by simp [hsafe]
      rw [if_neg hgoes] at hnext
      rw [applyCall, if_pos hsafe]
      split at hnext
      · rename_i hquantity
        cases hnext
        rw [← List.filterMap_eq_filter]
        refine List.filterMap_congr fun item _ => ?_
        by_cases hsku : item.sku = sku
        · simp [Option.guard, hsku, hquantity]
        · simp [Option.guard, hsku]
      · rename_i hquantity
        cases hnext
        rw [← List.filterMap_eq_map]
        refine List.filterMap_congr fun item _ => ?_
        by_cases hsku : item.sku = sku
        · simp [hsku, hquantity]
        · simp [hsku]
    · rw [if_pos (by simpa using hsafe)] at hnext
      cases hnext
  | removeItem sku =>
    cases hnext
    rfl
  | clear =>
    cases hnext
    rfl

/-- A call that commits nothing means nothing, on any cart. -/
theorem applyCall_of_none {items cart : List CartEntry} {call : Call}
    (hnext : nextItems items call = none) : applyCall cart call = cart := by
  cases call with
  | addItem sku quantity =>
    rw [applyCall]
    refine if_neg fun hvalid => ?_
    unfold nextItems addItem at hnext
    dsimp only at hnext
    rw [if_neg (addItem_valid_iff.mpr hvalid)] at hnext
    split at hnext <;> cases hnext
  | setQuantity sku quantity =>
    rw [applyCall]
    refine if_neg fun hsafe => ?_
    have hgoes : ¬ (!isSafeInteger quantity) = true := by simp [hsafe]
    dsimp only [nextItems, setQuantity] at hnext
    rw [if_neg hgoes] at hnext
    split at hnext <;> cases hnext
  | removeItem sku => cases hnext
  | clear => cases hnext

/-- A call leaves a cart tidy. -/
theorem Tidy.applyCall {items : List CartEntry} (h : Tidy items) (call : Call) :
    Tidy (applyCall items call) := by
  cases call with
  | addItem sku quantity =>
    rw [Cart.applyCall]
    split
    · rename_i hvalid
      exact h.addLine ⟨hvalid.1, trimMatches_idem _ _⟩ hvalid.2.2
    · exact h
  | setQuantity sku quantity =>
    rw [Cart.applyCall]
    split
    · have hline : ∀ item ∈ items, ∀ line, (if item.sku ≠ sku then some item
          else if quantity ≤ 0 then none
          else some ⟨sku, min maxQuantity quantity⟩) = some line →
          line.sku = item.sku ∧ 1 ≤ line.quantity ∧ line.quantity ≤ maxQuantity := by
        intro item hitem line hline
        split at hline
        · cases hline
          exact ⟨rfl, h.quantities item hitem⟩
        · rename_i hsku
          split at hline
          · cases hline
          · cases hline
            refine ⟨(not_not.mp hsku).symm, ?_⟩
            unfold maxQuantity
            dsimp only
            omega
      refine ⟨fun line hmem => ?_, ?_, fun line hmem => ?_⟩
      · obtain ⟨item, hitem, hsome⟩ := List.mem_filterMap.mp hmem
        rw [(hline item hitem line hsome).1]
        exact h.skus item hitem
      · unfold KeyUnique
        have hsub : ∀ cart : List CartEntry, (∀ item ∈ cart, item ∈ items) →
            ((cart.filterMap fun item => if item.sku ≠ sku then some item
              else if quantity ≤ 0 then none
              else some ⟨sku, min maxQuantity quantity⟩).map CartEntry.sku).Sublist
                (cart.map CartEntry.sku) := by
          intro cart
          induction cart with
          | nil => intro _; exact List.Sublist.refl _
          | cons item cart ih =>
            intro hcart
            have hrest := ih fun other hother => hcart other (List.mem_cons_of_mem item hother)
            rw [List.filterMap_cons]
            split
            · exact hrest.cons _
            · rename_i line hsome
              rw [List.map_cons, List.map_cons,
                (hline item (hcart item List.mem_cons_self) line hsome).1]
              exact hrest.cons_cons _
        exact h.unique.sublist (hsub items fun item hitem => hitem)
      · obtain ⟨item, hitem, hsome⟩ := List.mem_filterMap.mp hmem
        exact (hline item hitem line hsome).2
    · exact h
  | removeItem sku => exact h.filter _
  | clear => exact Tidy.nil

/-! ## Runs -/

/-- A state of the component: a tidy cart, and no blank id. -/
structure CartState.Sound (state : CartState) : Prop where
  items : Tidy state.items
  cartId : ∀ cartId, state.cartId = some cartId → jsTrim cartId ≠ []

theorem readCart_sound (stored : Option CartState) : (readCart stored).Sound := by
  have hempty : CartState.Sound ⟨[], none⟩ := ⟨Tidy.nil, fun cartId h => (by cases h)⟩
  cases stored with
  | none => exact hempty
  | some raw =>
    rw [readCart]
    split
    · exact hempty
    · rename_i hblank
      split
      · rename_i items hitems
        refine ⟨mergeInto_tidy Tidy.nil hitems, fun cartId hid hnil => hblank ?_⟩
        dsimp only at hid
        rw [hid, Option.any_some, hnil]
        rfl
      · exact hempty

/-- A sound state is read as it was written. -/
theorem readCart_of_sound {state : CartState} (h : state.Sound) :
    readCart (some state) = state := by
  have hid : ¬ (state.cartId.any fun cartId => (jsTrim cartId).isEmpty) = true := by
    cases hcart : state.cartId with
    | none => simp
    | some cartId => simpa using h.cartId cartId hcart
  rw [readCart, if_neg hid, normalizeCart_of_tidy h.items]

theorem jsTrim_webCart (fresh : Text) : jsTrim ("web-cart-".toList ++ fresh) ≠ [] := by
  intro hnil
  obtain ⟨a, b, hs, ha, hb⟩ := trimMatches_between isJsSpace ("web-cart-".toList ++ fresh)
  have hnil' : trimMatches isJsSpace ("web-cart-".toList ++ fresh) = [] := hnil
  rw [hnil', List.nil_append] at hs
  have hw : 'w' ∈ a ++ b := by
    rw [← hs]
    exact List.mem_cons_self
  have hspace : isJsSpace 'w' = true := (List.mem_append.mp hw).elim (ha 'w') (hb 'w')
  exact absurd hspace (by decide)

/-- Every tab holds sound states. -/
def Browser.Sound (s : Browser) : Prop :=
  ∀ tab, (s.tabs tab).latest.Sound ∧ (s.tabs tab).rendered.Sound

theorem Browser.Sound.setTab {s : Browser} (h : s.Sound) {tab : Nat} {value : Tab}
    (hvalue : value.latest.Sound ∧ value.rendered.Sound) : (s.setTab tab value).Sound := by
  intro other
  show ((if other = tab then value else s.tabs other).latest).Sound ∧
    ((if other = tab then value else s.tabs other).rendered).Sound
  split
  · exact hvalue
  · exact h other

/-- `commit` stores what it is given, if that is tidy. -/
theorem commit_of_tidy {s : Browser} (h : s.Sound) {next : List CartEntry} (hnext : Tidy next)
    (tab : Nat) (fresh : Text) : (commit s tab next fresh).Sound ∧
      (readCart (commit s tab next fresh).stored).items = next := by
  have hstored : CartState.Sound ⟨next, if next.isEmpty then none
      else some ((s.tabs tab).rendered.cartId.getD ("web-cart-".toList ++ fresh))⟩ := by
    refine ⟨hnext, fun cartId hid => ?_⟩
    dsimp only at hid
    split at hid
    · cases hid
    · cases hid
      cases hrendered : (s.tabs tab).rendered.cartId with
      | none => exact jsTrim_webCart fresh
      | some cartId => exact (h tab).2.cartId cartId hrendered
  have hread := readCart_of_sound hstored
  unfold commit
  rw [normalizeCart_of_tidy hnext]
  dsimp only
  refine ⟨Browser.Sound.setTab h ⟨?_, (h tab).2⟩, congrArg CartState.items hread⟩
  rw [hread]
  exact hstored

/-- A step of a tab that is up to date does to the stored cart what its call means, and
every step keeps the tabs sound. -/
theorem step_spec {s t : Browser} {a : Label} (h : s.Sound) (hstep : step s a = some t) :
    t.Sound ∧ (upToDate s a → ∃ calls, t.calls = s.calls ++ calls ∧
      (readCart t.stored).items = calls.foldl applyCall (readCart s.stored).items) := by
  cases a with
  | call tab call fresh =>
    dsimp only [step] at hstep
    split at hstep
    · rename_i hnext
      cases hstep
      refine ⟨h, fun _ => ⟨[call], rfl, ?_⟩⟩
      exact (applyCall_of_none hnext).symm
    · rename_i next hnext
      cases hstep
      have hmeaning := nextItems_eq (h tab).2.items hnext
      have htidy : Tidy next := hmeaning ▸ (h tab).2.items.applyCall call
      obtain ⟨hsound, hitems⟩ := commit_of_tidy h htidy tab fresh
      refine ⟨hsound, fun hup => ⟨[call], rfl, ?_⟩⟩
      show (readCart (commit s tab next fresh).stored).items =
        applyCall (readCart s.stored).items call
      rw [hitems, hmeaning]
      by_cases hclear : call = .clear
      · rw [hclear]
        rfl
      · rw [hup (by rw [hnext]; rfl) hclear]
  | render tab =>
    cases hstep
    exact ⟨h.setTab ⟨(h tab).1, (h tab).1⟩, fun _ => ⟨[], (List.append_nil _).symm, rfl⟩⟩
  | load tab =>
    cases hstep
    exact ⟨h.setTab ⟨readCart_sound _, (h tab).2⟩, fun _ => ⟨[], (List.append_nil _).symm, rfl⟩⟩

theorem start_sound (stored : Option CartState) : (start stored).Sound := fun _ =>
  ⟨readCart_sound none, readCart_sound none⟩

/-- While every tab that changes its cart shows the stored one, the stored cart is the result of all
calls in their order, on the cart that was stored at first; and it is tidy. -/
theorem no_change_lost (stored : Option CartState) {t : Browser}
    (h : Reach step upToDate (start stored) t) :
    (readCart t.stored).items = t.calls.foldl applyCall (readCart stored).items ∧
      normalizeCart (readCart t.stored).items = .ok (readCart t.stored).items ∧
      Tidy (readCart t.stored).items := by
  have hinv : t.Sound ∧
      (readCart t.stored).items = t.calls.foldl applyCall (readCart stored).items := by
    refine Reach.invariant (I := fun t => t.Sound ∧
      (readCart t.stored).items = t.calls.foldl applyCall (readCart stored).items) h
        ⟨start_sound stored, rfl⟩ ?_
    rintro s a u ⟨hsound, hitems⟩ hup hstep
    obtain ⟨hsound', hcalls⟩ := step_spec hsound hstep
    obtain ⟨calls, hcalls, hread⟩ := hcalls hup
    refine ⟨hsound', ?_⟩
    rw [hread, hitems, hcalls, List.foldl_append]
  have htidy := (readCart_sound t.stored).items
  exact ⟨hinv.2, normalizeCart_of_tidy htidy, htidy⟩

/-- A tab that renders between its two calls. -/
theorem no_change_lost_sample : ∃ t : Browser,
    t.calls = [.addItem "A".toList 1, .addItem "B".toList 1] ∧
      (readCart t.stored).items = t.calls.foldl applyCall (readCart none).items ∧
      normalizeCart (readCart t.stored).items = .ok (readCart t.stored).items ∧
      Tidy (readCart t.stored).items := by
  have hrun : ∃ t, runWhere step (fun s a => decide (upToDate s a)) (start none)
      [.load 0, .render 0, .call 0 (.addItem "A".toList 1) "1".toList, .render 0,
        .call 0 (.addItem "B".toList 1) "2".toList] = some t ∧
      t.calls = [.addItem "A".toList 1, .addItem "B".toList 1] := ⟨_, rfl, rfl⟩
  obtain ⟨t, ht, hcalls⟩ := hrun
  exact ⟨t, hcalls, no_change_lost none
    ((reach_of_runWhere ht).weaken fun s a => of_decide_eq_true)⟩

/-- Two calls of one render: the second works on the cart from before the first. -/
theorem change_lost : ∃ t, Reach step (fun _ _ => True) (start none) t ∧
    (readCart t.stored).items = [⟨"B".toList, 1⟩] ∧
    t.calls.foldl applyCall (readCart none).items = [⟨"A".toList, 1⟩, ⟨"B".toList, 1⟩] := by
  have hrun : ∃ t, run step (start none) [.load 0, .render 0,
      .call 0 (.addItem "A".toList 1) "1".toList,
      .call 0 (.addItem "B".toList 1) "2".toList] = some t ∧
      (readCart t.stored).items = [⟨"B".toList, 1⟩] ∧
      t.calls.foldl applyCall (readCart none).items =
        [⟨"A".toList, 1⟩, ⟨"B".toList, 1⟩] := ⟨_, rfl, rfl, rfl⟩
  obtain ⟨t, ht, hstored, hcalls⟩ := hrun
  exact ⟨t, reach_of_run ht, hstored, hcalls⟩

end CommercePlayground.Web.Cart
