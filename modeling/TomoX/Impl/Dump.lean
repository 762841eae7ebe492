import TomoX.Impl.Rlp

/-!
# Dumping one side of an order book

`dumpAskTrie` and `dumpBidTrie` (`tomox_state/dump.go`) walk the price levels
of one side of a book and, inside each level, its order queue, and return what
they read as a map from price to `DumpOrderList`. Both are `dumpTrie` at their
own side: `dumpLevels` is its outer loop, `dumpLevel` one turn of it, and
`dumpOrders` the inner loop.

The store around them is not in this source and is modelled from the spec: a
trie is what its iterator yields, (key, value) pairs with distinct keys; the
database opens a trie from a namespace and a root; the preimage registry maps
a trie key back to the bytes it was hashed from. A Go map keyed by `*big.Int`
compares keys as pointers, and every key the dump stores is a fresh
`new(big.Int)`, so each store adds an entry: such a map is the list of its
entries, in the order they were stored.
-/

namespace TomoX

/-- Modelled from the spec: a trie as its iterator (`trie.NewIterator`) yields
it, (key, value) pairs with each key once. -/
structure Trie where
  entries : List (Bytes × Bytes)
  nodup_keys : (entries.map Prod.fst).Nodup

/-- Modelled from the spec: the database opens a trie from a namespace and a
root (`OpenStorageTrie`). -/
structure Database where
  openStorageTrie : Hash → Hash → Trie

/-- A side of a book (`Ask`, `Bid`). -/
inductive Side where
  | ask
  | bid
deriving DecidableEq

/-- Modelled from the spec: the state object of a book, which opens its ask
and bid tries in the book's namespace. -/
structure ExchangeObject where
  orderBookHash : Hash
  askRoot : Hash
  bidRoot : Hash

/-- Modelled from the spec: the trie of the asks of a book. -/
def ExchangeObject.getAsksTrie (e : ExchangeObject) (db : Database) : Trie :=
  db.openStorageTrie e.orderBookHash e.askRoot

/-- Modelled from the spec: the trie of the bids of a book. -/
def ExchangeObject.getBidsTrie (e : ExchangeObject) (db : Database) : Trie :=
  db.openStorageTrie e.orderBookHash e.bidRoot

/-- The price-level trie of one side. -/
def ExchangeObject.getTrie (e : ExchangeObject) : Side → Database → Trie
  | .ask => e.getAsksTrie
  | .bid => e.getBidsTrie

/-- The state object of a price level (`newStateOrderList`). -/
structure StateOrderList where
  orderType : Side
  orderBook : Hash
  price : Hash
  data : OrderList

/-- `newStateOrderList(self, orderType, orderBook, price, data, nil)`. -/
def newStateOrderList (orderType : Side) (orderBook price : Hash) (data : OrderList) :
    StateOrderList :=
  ⟨orderType, orderBook, price, data⟩

/-- Modelled from the spec: a price level's order queue, opened in the
level's namespace from the root in its value. -/
def StateOrderList.getTrie (c : StateOrderList) (db : Database) : Trie :=
  db.openStorageTrie c.price c.data.root

/-- What the dump reads of a `TomoXStateDB`. Modelled from the spec: its
database, the preimage registry of its trie, and its book objects. -/
structure TomoXStateDB where
  db : Database
  preimages : Bytes → Option Bytes
  stateExchangeObjects : Hash → Option ExchangeObject

/-- `self.trie.GetKey(shaKey)`: the preimage of a key, `nil` (no bytes) when
the registry has none. -/
def TomoXStateDB.getKey (self : TomoXStateDB) (shaKey : Bytes) : Bytes :=
  (self.preimages shaKey).getD []

/-- Modelled from the spec: the state object of a book, if any write made
one. -/
def TomoXStateDB.getStateExchangeObject (self : TomoXStateDB) (addr : Hash) :
    Option ExchangeObject :=
  self.stateExchangeObjects addr

/-- What the dump returns for one price level. -/
structure DumpOrderList where
  volume : Nat
  orders : List (Nat × Nat)
deriving DecidableEq

/-- The error of a book with no state object. -/
def notFoundError (orderBook : Hash) : String :=
  "Order book not found orderBook : " ++ orderBook.hex ++ " "

/-- The error of a price level whose value does not decode. -/
def decodeError (orderBook : Hash) (price : Nat) : String :=
  "Fail when decode order iist orderBook : " ++ orderBook.hex ++ " ,price :" ++
    toString price ++ " "

namespace TomoXStateDB

/-- The inner loop: one order per entry of the queue, keyed by its id's
preimage, with the entry's value read as a `big.Int`. -/
def dumpOrders (self : TomoXStateDB) : List (Bytes × Bytes) → List (Nat × Nat) → List (Nat × Nat)
  | [], orders => orders
  | (key, value) :: it, orders =>
    self.dumpOrders it (orders ++ [(setBytes (self.getKey key), setBytes value)])

/-- One turn of the outer loop, at the price level `(key, value)`. -/
def dumpLevel (self : TomoXStateDB) (side : Side) (orderBook : Hash) (key value : Bytes) :
    Except String (Nat × DumpOrderList) :=
  let priceByte := self.getKey key
  let price := setBytes priceByte
  match Rlp.decodeBytes Rlp.decodeOrderList value with
  | none => .error (decodeError orderBook price)
  | some data =>
    let orderList := newStateOrderList side orderBook (bytesToHash priceByte) data
    .ok (price, ⟨data.volume, self.dumpOrders (orderList.getTrie self.db).entries []⟩)

/-- The outer loop over the price levels; the first level that fails to decode
ends it with an error. -/
def dumpLevels (self : TomoXStateDB) (side : Side) (orderBook : Hash) :
    List (Bytes × Bytes) → List (Nat × DumpOrderList) →
      Except String (List (Nat × DumpOrderList))
  | [], result => .ok result
  | (key, value) :: it, result =>
    match self.dumpLevel side orderBook key value with
    | .error e => .error e
    | .ok level => self.dumpLevels side orderBook it (result ++ [level])

/-- `DumpAskTrie` and `DumpBidTrie`, at their side. -/
def dumpTrie (self : TomoXStateDB) (side : Side) (orderBook : Hash) :
    Except String (List (Nat × DumpOrderList)) :=
  match self.getStateExchangeObject orderBook with
  | none => .error (notFoundError orderBook)
  | some exhangeObject => self.dumpLevels side orderBook (exhangeObject.getTrie side self.db).entries []

/-- `DumpAskTrie`. -/
def dumpAskTrie (self : TomoXStateDB) (orderBook : Hash) :
    Except String (List (Nat × DumpOrderList)) :=
  self.dumpTrie .ask orderBook

/-- `DumpBidTrie`. -/
def dumpBidTrie (self : TomoXStateDB) (orderBook : Hash) :
    Except String (List (Nat × DumpOrderList)) :=
  self.dumpTrie .bid orderBook

end TomoXStateDB

end TomoX
