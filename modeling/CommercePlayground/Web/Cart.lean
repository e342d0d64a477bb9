/-
CommercePlayground.Web.Cart — the cart of the browser.

`cart.tsx`: every tab keeps the cart in the state of a component and in local storage,
which all tabs share. A change works on the cart that the last render of its tab has
captured, and writes the whole of it. Storage is taken to be writable, and a tab hears of
the writes of others at any time after them.
-/
import CommercePlayground.Lib.Table
import CommercePlayground.Lib.Transition
import CommercePlayground.Propagation.Web

namespace CommercePlayground.Web.Cart

open Lib
open Propagation.WebClient (jsTrim)

/-! ## Carts -/

/-- `CartEntry`; a number that is no safe integer is one out of its range. -/
structure CartEntry where
  sku : Text
  quantity : Int
  deriving DecidableEq

/-- `MAX_QUANTITY`. -/
def maxQuantity : Int := 99

/-- `Number.isSafeInteger`. -/
def isSafeInteger (n : Int) : Bool :=
  decide (-9007199254740991 ≤ n ∧ n ≤ 9007199254740991)

/-- More of a SKU: on its line if there is one, else at the end. `Map.set` keeps the place
of a key. -/
def addLine (sku : Text) (quantity : Int) : List CartEntry → List CartEntry
  | [] => [⟨sku, min maxQuantity quantity⟩]
  | item :: items =>
    if item.sku = sku then ⟨sku, min maxQuantity (item.quantity + quantity)⟩ :: items
    else item :: addLine sku quantity items

/-- The loop of `normalizeCart`. -/
def mergeInto : List CartEntry → List CartEntry → Except String (List CartEntry)
  | merged, [] => .ok merged
  | merged, entry :: entries =>
    if (jsTrim entry.sku).isEmpty || !isSafeInteger entry.quantity ||
        decide (entry.quantity ≤ 0) then
      .error "stored cart contains an invalid SKU or quantity"
    else mergeInto (addLine (jsTrim entry.sku) entry.quantity merged) entries

/-- `normalizeCart`. -/
def normalizeCart (value : List CartEntry) : Except String (List CartEntry) := mergeInto [] value

/-! ## Calls -/

inductive Call where
  | addItem (sku : Text) (quantity : Int)
  | setQuantity (sku : Text) (quantity : Int)
  | removeItem (sku : Text)
  | clear
  deriving DecidableEq

/-- `addItem`, up to its `commit`. -/
def addItem (items : List CartEntry) (sku : Text) (quantity : Int) : Option (List CartEntry) :=
  let cleanSku := jsTrim sku
  if cleanSku.isEmpty || !isSafeInteger quantity || decide (quantity ≤ 0) then none
  else if items.any fun item => item.sku = cleanSku then
    some (items.map fun item =>
      if item.sku = cleanSku then ⟨item.sku, min maxQuantity (item.quantity + quantity)⟩
      else item)
  else some (items ++ [⟨cleanSku, min maxQuantity quantity⟩])

/-- `setQuantity`, up to its `commit`. -/
def setQuantity (items : List CartEntry) (sku : Text) (quantity : Int) :
    Option (List CartEntry) :=
  if !isSafeInteger quantity then none
  else if quantity ≤ 0 then some (items.filter fun item => item.sku ≠ sku)
  else some (items.map fun item =>
    if item.sku = sku then ⟨item.sku, min maxQuantity quantity⟩ else item)

/-- `removeItem`, up to its `commit`. -/
def removeItem (items : List CartEntry) (sku : Text) : List CartEntry :=
  items.filter fun item => item.sku ≠ sku

/-- What a call commits, if it commits anything. -/
def nextItems (items : List CartEntry) : Call → Option (List CartEntry)
  | .addItem sku quantity => addItem items sku quantity
  | .setQuantity sku quantity => setQuantity items sku quantity
  | .removeItem sku => some (removeItem items sku)
  | .clear => some []

/-! ## Tabs -/

/-- The state of the component. -/
structure CartState where
  items : List CartEntry
  cartId : Option Text
  deriving DecidableEq

/-- A tab: its latest state, and the one that its last render has captured. -/
structure Tab where
  latest : CartState
  rendered : CartState
  deriving DecidableEq

/-- `useState` before the first load. -/
def Tab.empty : Tab := ⟨⟨[], none⟩, ⟨[], none⟩⟩

/-- The tabs, what is stored (`none` if that is no cart of version 2), and the calls so
far. -/
structure Browser where
  stored : Option CartState
  tabs : Nat → Tab
  calls : List Call

/-- `readCart`. -/
def readCart : Option CartState → CartState
  | none => ⟨[], none⟩
  | some raw =>
    if raw.cartId.any fun cartId => (jsTrim cartId).isEmpty then ⟨[], none⟩
    else
      match normalizeCart raw.items with
      | .ok items => ⟨items, raw.cartId⟩
      | .error _ => ⟨[], none⟩

inductive Label where
  /-- A call; `fresh` is the UUID it makes up if it needs one. -/
  | call (tab : Nat) (call : Call) (fresh : Text)
  | render (tab : Nat)
  /-- `load`: at the start, and whenever the tab hears of a write. -/
  | load (tab : Nat)
  deriving DecidableEq

def Browser.setTab (s : Browser) (tab : Nat) (value : Tab) : Browser :=
  { s with tabs := fun i => if i = tab then value else s.tabs i }

/-- `commit`, by the closure of the last render; the tab's own listener loads what was
written. -/
def commit (s : Browser) (tab : Nat) (next : List CartEntry) (fresh : Text) : Browser :=
  match normalizeCart next with
  | .error _ => s
  | .ok normalized =>
    let cartId := if normalized.isEmpty then none
      else some ((s.tabs tab).rendered.cartId.getD ("web-cart-".toList ++ fresh))
    let stored := some ⟨normalized, cartId⟩
    { s with stored := stored }.setTab tab { s.tabs tab with latest := readCart stored }

def step (s : Browser) : Label → Option Browser
  | .call tab call fresh =>
    let after :=
      match nextItems (s.tabs tab).rendered.items call with
      | none => s
      | some next => commit s tab next fresh
    some { after with calls := s.calls ++ [call] }
  | .render tab => some (s.setTab tab { s.tabs tab with rendered := (s.tabs tab).latest })
  | .load tab => some (s.setTab tab { s.tabs tab with latest := readCart s.stored })

/-- Before the first load of any tab. -/
def start (stored : Option CartState) : Browser := ⟨stored, fun _ => Tab.empty, []⟩

/-! ## What the calls mean -/

/-- A call on a cart: quantities up to the maximum, and no line without a quantity. -/
def applyCall (cart : List CartEntry) : Call → List CartEntry
  | .addItem sku quantity =>
    if jsTrim sku ≠ [] ∧ isSafeInteger quantity = true ∧ 0 < quantity then
      addLine (jsTrim sku) quantity cart
    else cart
  | .setQuantity sku quantity =>
    if isSafeInteger quantity = true then
      cart.filterMap fun item =>
        if item.sku ≠ sku then some item
        else if quantity ≤ 0 then none
        else some ⟨sku, min maxQuantity quantity⟩
    else cart
  | .removeItem sku => cart.filter fun item => item.sku ≠ sku
  | .clear => []

/-- A cart as it should be: trimmed SKUs, each once, and quantities from 1 to 99. -/
structure Tidy (cart : List CartEntry) : Prop where
  skus : ∀ item ∈ cart, item.sku ≠ [] ∧ jsTrim item.sku = item.sku
  unique : KeyUnique CartEntry.sku cart
  quantities : ∀ item ∈ cart, 1 ≤ item.quantity ∧ item.quantity ≤ maxQuantity

/-- The tab of a call shows the stored cart, unless the call commits nothing or clears. -/
def upToDate (s : Browser) : Label → Prop
  | .call tab call _ => (nextItems (s.tabs tab).rendered.items call).isSome → call ≠ .clear →
      (s.tabs tab).rendered.items = (readCart s.stored).items
  | _ => True

instance (s : Browser) (a : Label) : Decidable (upToDate s a) := by
  cases a <;> unfold upToDate <;> infer_instance

end CommercePlayground.Web.Cart
