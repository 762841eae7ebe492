import TomoX.Proof.Dump

/-!
# The volumes the dump reports for orders

The store writes an order's volume into its queue RLP-encoded (`encodeVolume`),
as it writes a price level's value, but the dump reads an order's value with
`new(big.Int).SetBytes` and no decoding, header and all:

* `setBytes_encodeVolume`: what it reports is the volume exactly for the
  volumes from 1 to 127, whose encoding is the byte itself; for every other
  volume it is more, the header byte read as a leading digit;
* `dumpTrie_order_volume`: so is each order of each level of a dump, in the
  dump of its own level;
* `dumpTrie_volume_eq_sum_iff`: a level whose aggregate is the sum of its
  orders' volumes is dumped with an aggregate equal to the sum of its dumped
  orders exactly when every volume is from 1 to 127.

At 128 the dump reports 33152 (`dumpAskTrie_order_128`).
-/

namespace TomoX.Proof

open TomoX Rlp Spec

variable {self : TomoXStateDB} {side : Side} {orderBook : Hash}

/-- A header starts with a byte other than zero, so it is worth at least one. -/
theorem setBytes_header_pos {short long size : Nat} (h₀ : 0 < short) (h : short + 56 ≤ 256) :
    0 < setBytes (header short long size) := by
  unfold header
  split
  · simp [setBytes]; omega
  · rw [show UInt8.ofNat (long + (bigBytes size).length) :: bigBytes size =
      [UInt8.ofNat (long + (bigBytes size).length)] ++ bigBytes size from rfl, setBytes_append,
      setBytes_bigBytes]
    omega

/-- The bytes of a volume from 128 on, or of zero, are encoded after a header. -/
theorem encodeVolume_of_not_lt {v : Nat} (h : ¬(0 < v ∧ v < 128)) :
    encodeVolume v = header 0x80 0xB7 (bigBytes v).length ++ bigBytes v := by
  rw [encodeVolume, encodeString, if_neg]
  rintro ⟨hl, hb⟩
  obtain ⟨b, hv⟩ := List.length_eq_one.mp hl
  have hv' : setBytes [b] = v := hv ▸ setBytes_bigBytes v
  have hb' : b.toNat < 128 := by simpa [hv, UInt8.lt_iff_toNat] using hb
  have hb0 : b.toNat ≠ 0 := fun h0 => head_bigBytes v (by rw [hv]; simp [UInt8.ext_iff, h0])
  simp only [setBytes, List.foldl_cons, List.foldl_nil, Nat.mul_zero, Nat.zero_add] at hv'
  exact h ⟨by omega, by omega⟩

/-- The dump reads a volume from 1 to 127 as its encoding. -/
theorem setBytes_encodeVolume_of_lt {v : Nat} (h₀ : 0 < v) (h₁ : v < 128) :
    setBytes (encodeVolume v) = v := by
  rw [encodeVolume, bigBytes_of_lt h₀ (by omega), encodeString, if_pos]
  · simp [setBytes]; omega
  · simp [UInt8.lt_iff_toNat, UInt8.size]; omega

/-- The dump reads the encoding of any other volume as its header, shifted past
the volume's bytes, plus the volume. -/
theorem setBytes_encodeVolume_of_not_lt {v : Nat} (h : ¬(0 < v ∧ v < 128)) :
    setBytes (encodeVolume v) =
      setBytes (header 0x80 0xB7 (bigBytes v).length) * 256 ^ (bigBytes v).length + v := by
  rw [encodeVolume_of_not_lt h, setBytes_append, setBytes_bigBytes]

/-- The dump's read of an encoded volume is more than the volume, save for the
volumes from 1 to 127. -/
theorem lt_setBytes_encodeVolume {v : Nat} (h : ¬(0 < v ∧ v < 128)) :
    v < setBytes (encodeVolume v) := by
  rw [setBytes_encodeVolume_of_not_lt h]
  calc v < 256 ^ (bigBytes v).length := length_bigBytes_le.mp le_rfl
    _ ≤ setBytes (header 0x80 0xB7 (bigBytes v).length) * 256 ^ (bigBytes v).length :=
      Nat.le_mul_of_pos_left _ (setBytes_header_pos (by decide) (by decide))
    _ ≤ _ := Nat.le_add_right _ _

theorem setBytes_encodeVolume_eq_iff {v : Nat} :
    setBytes (encodeVolume v) = v ↔ 0 < v ∧ v < 128 :=
  ⟨fun h => by_contra fun hv => (lt_setBytes_encodeVolume hv).ne h.symm,
    fun ⟨h₀, h₁⟩ => setBytes_encodeVolume_of_lt h₀ h₁⟩

/-- The dump reads an encoded volume as the volume exactly for the volumes from
1 to 127, and as more for every other one: when its bytes are fewer than 56, as
the volume plus the header byte `0x80 + n` read as the digit above its `n`
bytes. -/
theorem setBytes_encodeVolume (v : Nat) :
    (setBytes (encodeVolume v) = v ↔ 0 < v ∧ v < 128) ∧
      (¬(0 < v ∧ v < 128) → v < setBytes (encodeVolume v) ∧
        ((bigBytes v).length < 56 →
          setBytes (encodeVolume v) = (0x80 + (bigBytes v).length) * 256 ^ (bigBytes v).length + v)) := by
  refine ⟨setBytes_encodeVolume_eq_iff, fun h => ⟨lt_setBytes_encodeVolume h, fun hn => ?_⟩⟩
  have hb : setBytes (header 0x80 0xB7 (bigBytes v).length) = 0x80 + (bigBytes v).length := by
    simp only [header, if_pos hn, setBytes, List.foldl_cons, List.foldl_nil, UInt8.toNat_ofNat']
    omega
  rw [setBytes_encodeVolume_of_not_lt h, hb]

/-- The value of a price level of aggregate 128 whose queue is at
`bytesToHash [2]`. -/
def levelOf128 : Bytes := 0xE3 :: 0x81 :: 0x80 :: 0xA0 :: (bytesToHash [2]).bytes

theorem decode_levelOf128 :
    decodeBytes decodeOrderList levelOf128 = some ⟨128, bytesToHash [2]⟩ := by decide

theorem encodeVolume_128 : encodeVolume 128 = [0x81, 0x80] := by
  rw [encodeVolume, bigBytes_of_lt (by decide) (by decide)]; decide

/-- The dump of `oneAsk` at an order of volume 128. -/
theorem dumpTrie_oneAsk_128 :
    (oneAsk levelOf128 (encodeVolume 128)).dumpTrie .ask (bytesToHash [1]) =
      .ok [(7, ⟨128, [(9, 33152)]⟩)] := by
  rw [encodeVolume_128]; rfl

/-- In a dump that succeeds, an order the store wrote for the volume `v` is
reported in the dump of its own level, keyed by its id, with the dump's read of
the encoding of `v`: that is `v` exactly when `v` is from 1 to 127, and more
than `v` otherwise. -/
theorem dumpTrie_order_volume {snap : List (Nat × DumpOrderList)} {e : ExchangeObject}
    (h : self.dumpTrie side orderBook = .ok snap) (he : self.getStateExchangeObject orderBook = some e)
    {x : Bytes × Bytes} (hx : x ∈ (e.getTrie side self.db).entries) {d : OrderList}
    (hd : decodeBytes decodeOrderList x.2 = some d) {o : Bytes × Bytes}
    (ho : o ∈ (queue self x.1 d).entries) {v : Nat} (hv : o.2 = encodeVolume v) :
    (setBytes (self.getKey x.1), ⟨d.volume, (queue self x.1 d).entries.map (orderOf self)⟩) ∈ snap ∧
      orderOf self o ∈ (queue self x.1 d).entries.map (orderOf self) ∧
      orderOf self o = (setBytes (self.getKey o.1), setBytes (encodeVolume v)) ∧
      (setBytes (encodeVolume v) = v ↔ 0 < v ∧ v < 128) ∧
      (¬(0 < v ∧ v < 128) → v < setBytes (encodeVolume v)) :=
  ⟨dumpTrie_ok_level h he hx hd, List.mem_map_of_mem _ ho, by rw [orderOf, hv],
    setBytes_encodeVolume_eq_iff, lt_setBytes_encodeVolume⟩

theorem dumpTrie_order_volume_128 :
    (oneAsk levelOf128 (encodeVolume 128)).dumpTrie .ask (bytesToHash [1]) =
        .ok [(7, ⟨128, [(9, 33152)]⟩)] ∧
      (7, (⟨128, [(9, setBytes (encodeVolume 128))]⟩ : DumpOrderList)) ∈
        [(7, (⟨128, [(9, 33152)]⟩ : DumpOrderList))] ∧
      (9, setBytes (encodeVolume 128)) ∈ [(9, setBytes (encodeVolume 128))] ∧
      orderOf (oneAsk levelOf128 (encodeVolume 128)) ([0x20], encodeVolume 128) =
        (9, setBytes (encodeVolume 128)) ∧
      (setBytes (encodeVolume 128) = 128 ↔ 0 < 128 ∧ 128 < 128) ∧
      (¬(0 < 128 ∧ 128 < 128) → 128 < setBytes (encodeVolume 128)) :=
  ⟨dumpTrie_oneAsk_128, dumpTrie_order_volume dumpTrie_oneAsk_128 rfl (List.mem_singleton_self _)
    decode_levelOf128 (List.mem_singleton_self ([0x20], encodeVolume 128)) rfl⟩

/-- A book with one order of volume 128, stored as the store writes it: the
dump reports its aggregate as 128 and the order as 33152. -/
theorem dumpAskTrie_order_128 :
    encodeVolume 128 = [0x81, 0x80] ∧
      decodeBytes decodeOrderList levelOf128 = some ⟨128, bytesToHash [2]⟩ ∧
      (oneAsk levelOf128 (encodeVolume 128)).dumpAskTrie (bytesToHash [1]) =
        .ok [(7, ⟨128, [(9, 33152)]⟩)] :=
  ⟨encodeVolume_128, decode_levelOf128, dumpTrie_oneAsk_128⟩

theorem le_setBytes_encodeVolume (v : Nat) : v ≤ setBytes (encodeVolume v) := by
  by_cases h : 0 < v ∧ v < 128
  · exact (setBytes_encodeVolume_of_lt h.1 h.2).ge
  · exact (lt_setBytes_encodeVolume h).le

theorem sum_map_eq_iff_of_le {α : Type} {l : List α} {f g : α → Nat} (h : ∀ x ∈ l, g x ≤ f x) :
    (l.map f).sum = (l.map g).sum ↔ ∀ x ∈ l, f x = g x := by
  induction l with
  | nil => simp
  | cons a l ih =>
    have h₁ := h a (List.mem_cons_self _ _)
    have h₂ : (l.map g).sum ≤ (l.map f).sum :=
      List.sum_le_sum fun x hx => h x (List.mem_cons_of_mem _ hx)
    rw [List.map_cons, List.map_cons, List.sum_cons, List.sum_cons, List.forall_mem_cons,
      ← ih fun x hx => h x (List.mem_cons_of_mem _ hx)]
    omega

/-- A level whose aggregate is the sum of the volumes of its orders, all
written by the store, is dumped, in its own entry, with that aggregate, which
is the sum of its dumped orders exactly when every order's volume is from 1 to
127. -/
theorem dumpTrie_volume_eq_sum_iff {snap : List (Nat × DumpOrderList)} {e : ExchangeObject}
    (h : self.dumpTrie side orderBook = .ok snap) (he : self.getStateExchangeObject orderBook = some e)
    {x : Bytes × Bytes} (hx : x ∈ (e.getTrie side self.db).entries) {d : OrderList}
    (hd : decodeBytes decodeOrderList x.2 = some d) (vol : Bytes × Bytes → Nat)
    (hvol : ∀ o ∈ (queue self x.1 d).entries, o.2 = encodeVolume (vol o))
    (hagg : d.volume = ((queue self x.1 d).entries.map vol).sum) :
    (setBytes (self.getKey x.1), ⟨d.volume, (queue self x.1 d).entries.map (orderOf self)⟩) ∈ snap ∧
      (d.volume = (((queue self x.1 d).entries.map (orderOf self)).map Prod.snd).sum ↔
        ∀ o ∈ (queue self x.1 d).entries, 0 < vol o ∧ vol o < 128) := by
  refine ⟨dumpTrie_ok_level h he hx hd, ?_⟩
  have hmap : ((queue self x.1 d).entries.map (orderOf self)).map Prod.snd =
      (queue self x.1 d).entries.map fun o => setBytes (encodeVolume (vol o)) := by
    rw [List.map_map]
    exact List.map_congr_left fun o ho => by simp [orderOf, hvol o ho]
  rw [hmap, hagg, eq_comm, sum_map_eq_iff_of_le fun o _ => le_setBytes_encodeVolume (vol o)]
  exact forall₂_congr fun o _ => setBytes_encodeVolume_eq_iff

theorem dumpTrie_volume_eq_sum_iff_128 :
    (oneAsk levelOf128 (encodeVolume 128)).dumpTrie .ask (bytesToHash [1]) =
        .ok [(7, ⟨128, [(9, 33152)]⟩)] ∧
      (7, (⟨128, [(9, setBytes (encodeVolume 128))]⟩ : DumpOrderList)) ∈
        [(7, (⟨128, [(9, 33152)]⟩ : DumpOrderList))] ∧
      (128 = [setBytes (encodeVolume 128)].sum ↔
        ∀ o ∈ (queue (oneAsk levelOf128 (encodeVolume 128)) [0x10] ⟨128, bytesToHash [2]⟩).entries,
          0 < 128 ∧ 128 < 128) :=
  ⟨dumpTrie_oneAsk_128, dumpTrie_volume_eq_sum_iff dumpTrie_oneAsk_128 rfl
    (List.mem_singleton_self _) decode_levelOf128 (fun _ => 128) (fun o ho => by
      obtain rfl : o = ([0x20], encodeVolume 128) := List.mem_singleton.mp ho
      rfl) rfl⟩

end TomoX.Proof
