import TomoX.Impl.Dump
import Mathlib

/-!
# The book a side stores

Modelled from the spec: a side of an order book is a list of price levels, each
the orders resting at its price by id with their remaining volumes, and its
aggregate is the sum of those volumes (`Level`, `Level.volume`). What a dump
should report of a level is its price, its aggregate and its orders
(`Level.snapshot`).

The writers of the store (not in this source) keep a side so (`Stores`): the
book has a state object, and the side's trie holds one entry for each level,
keyed by a storage key whose preimage is the price's hash (`bigToHash`), with
the encoding of the aggregate and of the root of the level's queue; the queue,
opened at that price and root, holds one entry for each order, keyed by a
storage key whose preimage is the id's hash, with the encoding of its volume
(`LevelStored`, `OrderStored`).
-/

namespace TomoX.Spec

open TomoX Rlp

/-- Modelled from the spec: a price level, its price and the orders resting at
it, by id with their remaining volumes. -/
structure Level where
  price : Nat
  orders : List (Nat × Nat)
deriving DecidableEq

/-- The aggregate volume of a level: the sum of its orders' volumes. -/
def Level.volume (l : Level) : Nat :=
  (l.orders.map Prod.snd).sum

/-- Modelled from the spec: what `snapshot()` reports of a level. -/
def Level.snapshot (l : Level) : Nat × DumpOrderList :=
  (l.price, ⟨l.volume, l.orders⟩)

/-- The numbers of a level fit the store: its price, its aggregate and its order
ids are below `2 ^ 256`. -/
def Level.Fits (l : Level) : Prop :=
  l.price < 2 ^ 256 ∧ l.volume < 2 ^ 256 ∧ ∀ o ∈ l.orders, o.1 < 2 ^ 256

instance (l : Level) : Decidable l.Fits :=
  inferInstanceAs (Decidable (_ ∧ _ ∧ _))

/-- Modelled from the spec: the entry `(key, value)` of a queue stores the order
`o`: the key's preimage is the hash of its id, and the value the encoding of its
volume. -/
def OrderStored (s : TomoXStateDB) (o : Nat × Nat) (entry : Bytes × Bytes) : Prop :=
  s.preimages entry.1 = some (bigToHash o.1).bytes ∧ entry.2 = encodeVolume o.2

/-- Modelled from the spec: the entry `(key, value)` of a side's trie stores the
level `l`: the key's preimage is the hash of its price, and the value the
encoding of its aggregate and of the root of a queue, opened at its price, that
stores its orders one for one. -/
def LevelStored (s : TomoXStateDB) (l : Level) (entry : Bytes × Bytes) : Prop :=
  s.preimages entry.1 = some (bigToHash l.price).bytes ∧
    ∃ root, entry.2 = encodeOrderList ⟨l.volume, root⟩ ∧
      List.Forall₂ (OrderStored s) l.orders (s.db.openStorageTrie (bigToHash l.price) root).entries

/-- Modelled from the spec: a side of a book as its writers leave it, the book
with a state object whose trie of the side stores `levels` one for one. -/
def Stores (s : TomoXStateDB) (side : Side) (orderBook : Hash) (levels : List Level) : Prop :=
  ∃ e, s.getStateExchangeObject orderBook = some e ∧
    List.Forall₂ (LevelStored s) levels (e.getTrie side s.db).entries

end TomoX.Spec
