import TomoX.Spec.Book
import TomoX.Proof.OrderVolume
import TomoX.Proof.Rlp

/-!
# Dumping a side its writers stored

A level its writers stored dumps to the level (`dumpLevel_of_levelStored`): its
value decodes to its aggregate and its queue's root, its key's preimage is read
back as its price, and its queue, opened at that price, as its orders, each
keyed by its id and valued by the dump's read of the encoding of its volume.
So a side stored from a list of levels dumps to those levels, in order
(`dumpTrie_eq_of_stores`), and, as a level is reported as its snapshot exactly
when each of its volumes is from 1 to 127 (`eq_snapshot_iff`), the dump is the
levels' snapshot exactly then (`dumpTrie_of_stores`).
-/

namespace TomoX.Proof

open TomoX Rlp Spec

variable {self : TomoXStateDB} {side : Side} {orderBook : Hash}

theorem length_encodeString_le {b : Bytes} (h : b.length < 56) :
    (encodeString b).length ≤ b.length + 1 := by
  unfold encodeString header
  split_ifs <;> simp

/-- The value of a level with an aggregate below `2 ^ 256` has a short payload. -/
theorem length_orderListPayload_lt {v : Nat} (hv : v < 2 ^ 256) (root : Hash) :
    (orderListPayload ⟨v, root⟩).length < 2 ^ 64 := by
  have h₁ : (bigBytes v).length ≤ 32 := length_bigBytes_le.mpr (by norm_num at hv ⊢; exact hv)
  have h₂ := length_encodeString_le (b := bigBytes v) (by omega)
  have h₃ := length_encodeString_le (b := root.bytes) (by rw [root.length_bytes]; omega)
  rw [root.length_bytes] at h₃
  simp only [orderListPayload_eq, List.length_append, encodeVolume]
  omega

theorem orderOf_of_orderStored {o : Nat × Nat} {y : Bytes × Bytes} (h : OrderStored self o y)
    (ho : o.1 < 2 ^ 256) : orderOf self y = (o.1, setBytes (encodeVolume o.2)) := by
  obtain ⟨hk, hv⟩ := h
  rw [orderOf, hv, TomoXStateDB.getKey, hk, Option.getD_some, setBytes_bigToHash,
    Nat.mod_eq_of_lt ho]

/-- A level its writers stored dumps to its price, its aggregate and its orders,
each with the dump's read of the encoding of its volume. -/
theorem dumpLevel_of_levelStored {l : Level} {x : Bytes × Bytes} (h : LevelStored self l x)
    (hfit : l.Fits) :
    self.dumpLevel side orderBook x.1 x.2 =
      .ok (l.price, ⟨l.volume, l.orders.map fun o => (o.1, setBytes (encodeVolume o.2))⟩) := by
  obtain ⟨hk, root, hv, ho⟩ := h
  obtain ⟨hp, hvol, hid⟩ := hfit
  have hd : decodeBytes decodeOrderList x.2 = some ⟨l.volume, root⟩ :=
    decodeBytes_eq_some_iff.mpr (decodeOrderList_eq_some_iff.mpr
      ⟨length_orderListPayload_lt hvol root, by rw [hv, List.append_nil]⟩)
  have hkey : self.getKey x.1 = (bigToHash l.price).bytes := by
    rw [TomoXStateDB.getKey, hk, Option.getD_some]
  have hq : queue self x.1 ⟨l.volume, root⟩ = self.db.openStorageTrie (bigToHash l.price) root := by
    rw [queue, hkey, bytesToHash_bytes]
  rw [dumpLevel_of_decode hd, hq, hkey, setBytes_bigToHash, Nat.mod_eq_of_lt hp,
    map_eq_map_of_forall₂ ho fun o h y hy => (orderOf_of_orderStored hy (hid o h)).symm]

theorem dumpTrie_eq_of_stores {levels : List Level} (h : Stores self side orderBook levels)
    (hfit : ∀ l ∈ levels, l.Fits) :
    self.dumpTrie side orderBook = .ok (levels.map fun l =>
        (l.price, ⟨l.volume, l.orders.map fun o => (o.1, setBytes (encodeVolume o.2))⟩)) := by
  obtain ⟨e, he, hs⟩ := h
  rw [dumpTrie_of_some he, dumpLevels_of_forall₂ (forall₂_map_left_of_mem hs
    fun l hl _ hx => dumpLevel_of_levelStored hx (hfit l hl)) [], List.nil_append]

/-- What the dump reports of a stored level is its snapshot exactly when every
volume of the level is from 1 to 127. -/
theorem eq_snapshot_iff (l : Level) :
    (l.price, (⟨l.volume, l.orders.map fun o => (o.1, setBytes (encodeVolume o.2))⟩ :
        DumpOrderList)) = l.snapshot ↔ ∀ o ∈ l.orders, 0 < o.2 ∧ o.2 < 128 := by
  simp only [Level.snapshot, Prod.mk.injEq, DumpOrderList.mk.injEq, true_and]
  nth_rewrite 2 [← List.map_id l.orders]
  rw [List.map_inj_left]
  refine forall₂_congr fun o _ => ?_
  rw [Prod.ext_iff]
  exact (and_iff_right rfl).trans setBytes_encodeVolume_eq_iff

/-- A side its writers stored from `levels`, whose numbers fit the store, dumps
to the levels in order: each with its price and aggregate, and its orders by id,
each with the dump's read of the encoding of its volume. The dump is the
levels' snapshot exactly when every volume is from 1 to 127. -/
theorem dumpTrie_of_stores {levels : List Level} (h : Stores self side orderBook levels)
    (hfit : ∀ l ∈ levels, l.Fits) :
    self.dumpTrie side orderBook = .ok (levels.map fun l =>
        (l.price, ⟨l.volume, l.orders.map fun o => (o.1, setBytes (encodeVolume o.2))⟩)) ∧
      (self.dumpTrie side orderBook = .ok (levels.map Level.snapshot) ↔
        ∀ l ∈ levels, ∀ o ∈ l.orders, 0 < o.2 ∧ o.2 < 128) := by
  refine ⟨dumpTrie_eq_of_stores h hfit, ?_⟩
  rw [dumpTrie_eq_of_stores h hfit, Except.ok.injEq, List.map_inj_left]
  exact forall₂_congr fun l _ => eq_snapshot_iff l

/-- The asks of the spec's book `BOOK1`: orders 1 and 2 of volumes 5 and 3 at
price 100, and order 3 of volume 10 at price 90. -/
def bookOneAsks : List Level :=
  [⟨90, [(3, 10)]⟩, ⟨100, [(1, 5), (2, 3)]⟩]

/-- The store of `BOOK1`, at `bytesToHash [1]`, as its writers leave it after
placing `bookOneAsks`: the asks at the root `bytesToHash [3]`, the queues at
`bytesToHash [90]` and `bytesToHash [100]`, and no bid. -/
def bookOne : TomoXStateDB where
  db := ⟨fun _ root =>
    if root = bytesToHash [3] then
      ⟨[([0x10], encodeOrderList ⟨10, bytesToHash [90]⟩),
        ([0x11], encodeOrderList ⟨8, bytesToHash [100]⟩)], by decide⟩
    else if root = bytesToHash [90] then ⟨[([0x20], encodeVolume 10)], by decide⟩
    else if root = bytesToHash [100] then
      ⟨[([0x21], encodeVolume 5), ([0x22], encodeVolume 3)], by decide⟩
    else ⟨[], List.nodup_nil⟩⟩
  preimages k :=
    if k = [0x10] then some (bigToHash 90).bytes
    else if k = [0x11] then some (bigToHash 100).bytes
    else if k = [0x20] then some (bigToHash 3).bytes
    else if k = [0x21] then some (bigToHash 1).bytes
    else if k = [0x22] then some (bigToHash 2).bytes else none
  stateExchangeObjects b :=
    if b = bytesToHash [1] then some ⟨bytesToHash [1], bytesToHash [3], bytesToHash [4]⟩
    else none

theorem dumpTrie_of_stores_bookOne :
    Stores bookOne .ask (bytesToHash [1]) bookOneAsks ∧ (∀ l ∈ bookOneAsks, l.Fits) ∧
      (bookOne.dumpTrie .ask (bytesToHash [1]) = .ok (bookOneAsks.map fun l =>
          (l.price, ⟨l.volume, l.orders.map fun o => (o.1, setBytes (encodeVolume o.2))⟩)) ∧
        (bookOne.dumpTrie .ask (bytesToHash [1]) = .ok (bookOneAsks.map Level.snapshot) ↔
          ∀ l ∈ bookOneAsks, ∀ o ∈ l.orders, 0 < o.2 ∧ o.2 < 128)) := by
  have hs : Stores bookOne .ask (bytesToHash [1]) bookOneAsks :=
    ⟨_, rfl, .cons ⟨rfl, _, rfl, .cons ⟨rfl, rfl⟩ .nil⟩
      (.cons ⟨rfl, _, rfl, .cons ⟨rfl, rfl⟩ (.cons ⟨rfl, rfl⟩ .nil)⟩ .nil)⟩
  have hf : ∀ l ∈ bookOneAsks, l.Fits := by decide
  exact ⟨hs, hf, dumpTrie_of_stores hs hf⟩

end TomoX.Proof
