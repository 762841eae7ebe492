import TomoX.Impl.Dump
import Mathlib.Data.List.Forall2

/-!
# What a dump of one side stands for

A dump of one side is faithful to the side's price-level trie (`Faithful`)
when its levels are the trie's levels one for one and in order, each keyed by
the number its price's preimage is, with the aggregate its value decodes to,
and with the orders of its own queue one for one, keyed by the numbers their
ids' preimages are (`DumpsLevel`, `DumpsOrder`); and when no price, and within
a level no order id, comes twice.

The registry is only assumed of the keys a dump traverses (`Traversal`): each
resolves to 32 bytes, and distinct keys to distinct bytes.
-/

namespace TomoX.Spec

open TomoX Rlp

/-- The order queue of the price level at `key` whose value decodes to `d`:
opened in the namespace of the key's preimage, at the root stored in `d`. -/
def queue (self : TomoXStateDB) (key : Bytes) (d : OrderList) : Trie :=
  self.db.openStorageTrie (bytesToHash (self.getKey key)) d.root

/-- A dumped order stands for the queue entry `(key, value)`: its id is the
number the key's preimage is. -/
def DumpsOrder (self : TomoXStateDB) (order : Nat × Nat) (entry : Bytes × Bytes) : Prop :=
  ∃ q, self.preimages entry.1 = some q ∧ order.1 = setBytes q

/-- A dumped level stands for the price level `(key, value)`. -/
def DumpsLevel (self : TomoXStateDB) (level : Nat × DumpOrderList) (entry : Bytes × Bytes) :
    Prop :=
  ∃ p d, self.preimages entry.1 = some p ∧ decodeBytes decodeOrderList entry.2 = some d ∧
    level.1 = setBytes p ∧ level.2.volume = d.volume ∧
    List.Forall₂ (DumpsOrder self) level.2.orders (queue self entry.1 d).entries

theorem DumpsOrder.id {o : Nat × Nat} {x : Bytes × Bytes} (h : DumpsOrder s o x) :
    o.1 = setBytes (s.getKey x.1) := by
  obtain ⟨q, hq, h⟩ := h
  simp [TomoXStateDB.getKey, hq, h]

theorem DumpsLevel.price {l : Nat × DumpOrderList} {x : Bytes × Bytes} (h : DumpsLevel s l x) :
    l.1 = setBytes (s.getKey x.1) := by
  obtain ⟨p, -, hp, -, h, -⟩ := h
  simp [TomoXStateDB.getKey, hp, h]

/-- A snapshot of one side is faithful to the side's price levels. -/
structure Faithful (s : TomoXStateDB) (snap : List (Nat × DumpOrderList))
    (levels : List (Bytes × Bytes)) : Prop where
  levels : List.Forall₂ (DumpsLevel s) snap levels
  nodup_prices : (snap.map Prod.fst).Nodup
  nodup_orders : ∀ level ∈ snap, (level.2.orders.map Prod.fst).Nodup

/-- The registry resolves each of `keys` to 32 bytes, and distinct keys to
distinct bytes. -/
structure Resolves (s : TomoXStateDB) (keys : List Bytes) : Prop where
  fixed_width : ∀ k ∈ keys, ∃ p, s.preimages k = some p ∧ p.length = 32
  injective : ∀ k₁ ∈ keys, ∀ k₂ ∈ keys, s.preimages k₁ = s.preimages k₂ → k₁ = k₂

/-- The registry resolves the keys a dump of `levels` traverses: the keys of
the levels, and the keys of the queue of each level that decodes. -/
structure Traversal (s : TomoXStateDB) (levels : List (Bytes × Bytes)) : Prop where
  prices : Resolves s (levels.map Prod.fst)
  orders : ∀ x ∈ levels, ∀ d, decodeBytes decodeOrderList x.2 = some d →
    Resolves s ((queue s x.1 d).entries.map Prod.fst)

/-- The errors a dump of one side raises by design: the book has no state
object, or a price level of the side holds a value that does not decode. -/
def Corrupt (s : TomoXStateDB) (side : Side) (orderBook : Hash) : Prop :=
  s.getStateExchangeObject orderBook = none ∨
    ∃ e, s.getStateExchangeObject orderBook = some e ∧
      ∃ x ∈ (e.getTrie side s.db).entries, decodeBytes decodeOrderList x.2 = none

/-- Every order of the queue of a level that decodes holds the RLP encoding of
a volume. -/
def ValidOrders (s : TomoXStateDB) (side : Side) (orderBook : Hash) : Prop :=
  ∀ e, s.getStateExchangeObject orderBook = some e →
    ∀ x ∈ (e.getTrie side s.db).entries, ∀ d, decodeBytes decodeOrderList x.2 = some d →
      ∀ o ∈ (queue s x.1 d).entries, ∃ v, decodeBytes decodeBigInt o.2 = some v

end TomoX.Spec
