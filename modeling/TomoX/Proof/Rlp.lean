import TomoX.Proof.Bytes
import TomoX.Impl.Rlp

/-!
# The RLP codec: the decoder accepts what the encoder writes, and nothing else

`readKind` reads a header exactly when the input starts with the header the
encoder writes for its kind (`readKind_eq_some_iff`); from it, each value
decoder accepts exactly the encodings of its values, followed by anything
(`readBytes_eq_some_iff`, `decodeBigInt_eq_some_iff`, `decodeHash_eq_some_iff`,
`decodeOrderList_eq_some_iff`). With nothing after the value
(`decodeBytes`), a price level's value decodes exactly when it is the
encoding of an `orderList` (`decodeBytes_orderList_iff`). The dump decodes no
order's value; what `ValidOrders` asks of one, that it decode as a `big.Int`,
holds exactly of the encodings the store writes of volumes
(`decodeBytes_bigInt_iff`).

Sizes in headers are 64-bit (`readUint` reads at most eight bytes), so the
encodings are of payloads below `2 ^ 64` bytes.
-/

namespace TomoX.Proof

open TomoX Rlp

theorem readKind_cons (b : UInt8) (rest : Bytes) :
    readKind (b :: rest) =
      if b.toNat < 0x80 then some (.byte b, rest)
      else if b.toNat < 0xB8 then some (.string (b.toNat - 0x80), rest)
      else if b.toNat < 0xC0 then
        (readUint (b.toNat - 0xB7) rest).bind fun (size, rest) =>
          if size < 56 then none else some (.string size, rest)
      else if b.toNat < 0xF8 then some (.list (b.toNat - 0xC0), rest)
      else
        (readUint (b.toNat - 0xF7) rest).bind fun (size, rest) =>
          if size < 56 then none else some (.list size, rest) := by
  simp only [readKind, UInt8.lt_iff_toNat]; rfl

/-! ## Sizes -/

theorem lt_two_pow_64 {n : Nat} : n < 2 ^ 64 ↔ (bigBytes n).length ≤ 8 := by
  rw [length_bigBytes_le]; norm_num

theorem length_bigBytes_pos {n : Nat} (h : 0 < n) : 0 < (bigBytes n).length :=
  List.length_pos.mpr (mt bigBytes_eq_nil.mp h.ne')

theorem readUint_bigBytes {n : Nat} (h : 0 < n) (rest : Bytes) :
    readUint (bigBytes n).length (bigBytes n ++ rest) = some (n, rest) := by
  have hl := length_bigBytes_pos h
  rw [readUint, if_pos ⟨by simp, fun ⟨_, h0⟩ =>
    head_bigBytes n (by rwa [List.head?_append_of_ne_nil _ (List.ne_nil_of_length_pos hl)] at h0)⟩]
  simp [setBytes_bigBytes]

/-- A size `readUint` reads, from 56 on, is written as `bigBytes` writes it. -/
theorem readUint_eq_some {m size : Nat} {input rest : Bytes} (h : readUint m input = some (size, rest))
    (hm : 0 < m) (hs : 56 ≤ size) : (bigBytes size).length = m ∧ input = bigBytes size ++ rest := by
  unfold readUint at h
  split at h
  · rename_i hc
    obtain ⟨rfl, rfl⟩ := Prod.mk.inj (Option.some.inj h)
    have hlen : (input.take m).length = m := by simp; omega
    have hhead : (input.take m).head? ≠ some 0 := fun hz => by
      by_cases h2 : 2 ≤ m
      · exact hc.2 ⟨h2, by rwa [List.head?_take, if_neg (by omega)] at hz⟩
      · have := setBytes_lt_of_head_zero hz
        rw [hlen, show m - 1 = 0 by omega] at this
        omega
    rw [bigBytes_setBytes hhead, hlen]
    exact ⟨rfl, (List.take_append_drop m input).symm⟩
  · cases h

end TomoX.Proof

/-! ## Headers -/

namespace TomoX.Rlp

/-- The header the encoder writes for a kind. -/
def Kind.header : Kind → Bytes
  | .byte b => [b]
  | .string n => Rlp.header 0x80 0xB7 n
  | .list n => Rlp.header 0xC0 0xF7 n

/-- What a header can say: a byte below `0x80`, or a size below `2 ^ 64`. -/
def Kind.Valid : Kind → Prop
  | .byte b => b.toNat < 0x80
  | .string n => n < 2 ^ 64
  | .list n => n < 2 ^ 64

end TomoX.Rlp

namespace TomoX.Proof

open TomoX Rlp

/-- The first byte of a long header, which holds the length of the size. -/
theorem toNat_long_header {long n : Nat} (h : long + 8 < 256) (hn : n < 2 ^ 64) :
    (UInt8.ofNat (long + (bigBytes n).length)).toNat = long + (bigBytes n).length := by
  have := lt_two_pow_64.mp hn
  rw [UInt8.toNat_ofNat']; omega

theorem readKind_header_string {n : Nat} (hn : n < 2 ^ 64) (rest : Bytes) :
    readKind (header 0x80 0xB7 n ++ rest) = some (.string n, rest) := by
  unfold header
  split
  · rw [List.singleton_append, readKind_cons, UInt8.toNat_ofNat', Nat.mod_eq_of_lt (by omega),
      if_neg (by omega), if_pos (by omega), Nat.add_sub_cancel_left]
  · have hl := length_bigBytes_pos (n := n) (by omega)
    have := lt_two_pow_64.mp hn
    rw [List.cons_append, readKind_cons, toNat_long_header (by decide) hn, if_neg (by omega),
      if_neg (by omega), if_pos (by omega), Nat.add_sub_cancel_left, readUint_bigBytes (by omega)]
    simp [show ¬n < 56 by omega]

theorem readKind_header_list {n : Nat} (hn : n < 2 ^ 64) (rest : Bytes) :
    readKind (header 0xC0 0xF7 n ++ rest) = some (.list n, rest) := by
  unfold header
  split
  · rw [List.singleton_append, readKind_cons, UInt8.toNat_ofNat', Nat.mod_eq_of_lt (by omega),
      if_neg (by omega), if_neg (by omega), if_neg (by omega), if_pos (by omega),
      Nat.add_sub_cancel_left]
  · have hl := length_bigBytes_pos (n := n) (by omega)
    have := lt_two_pow_64.mp hn
    rw [List.cons_append, readKind_cons, toNat_long_header (by decide) hn, if_neg (by omega),
      if_neg (by omega), if_neg (by omega), if_neg (by omega), Nat.add_sub_cancel_left,
      readUint_bigBytes (by omega)]
    simp [show ¬n < 56 by omega]

theorem readKind_header {k : Kind} (hk : k.Valid) (rest : Bytes) :
    readKind (k.header ++ rest) = some (k, rest) := by
  cases k with
  | byte b => rw [Kind.header, List.singleton_append, readKind_cons, if_pos (show b.toNat < 0x80 from hk)]
  | string n => exact readKind_header_string hk rest
  | list n => exact readKind_header_list hk rest

/-- A short header that `readKind` reads: its first byte holds the size. -/
theorem eq_short_header {b : UInt8} {short : Nat} (long : Nat) (h₁ : short ≤ b.toNat)
    (h₂ : b.toNat < short + 56) (input : Bytes) :
    b :: input = header short long (b.toNat - short) ++ input := by
  rw [header, if_pos (by omega), show short + (b.toNat - short) = b.toNat by omega,
    UInt8.ofNat_toNat', List.singleton_append]

/-- A long header that `readKind` reads: its first byte is `long` plus the
length of the size that follows, written as `bigBytes` writes it. -/
theorem eq_long_header {b : UInt8} {long : Nat} {f : Nat → Kind} {input rest : Bytes} {k : Kind}
    (short : Nat) (h₁ : long < b.toNat) (h₂ : b.toNat < long + 9)
    (h : ((readUint (b.toNat - long) input).bind fun (size, rest) =>
      if size < 56 then none else some (f size, rest)) = some (k, rest)) :
    ∃ size, k = f size ∧ size < 2 ^ 64 ∧ b :: input = header short long size ++ rest := by
  obtain ⟨⟨size, r⟩, hu, hk⟩ := Option.bind_eq_some.mp h
  by_cases hs : size < 56
  · simp [hs] at hk
  simp only [hs, if_false, Option.some.injEq, Prod.mk.injEq] at hk
  obtain ⟨rfl, rfl⟩ := hk
  obtain ⟨hm, rfl⟩ := readUint_eq_some hu (by omega) (by omega)
  refine ⟨size, rfl, lt_two_pow_64.mpr (by omega), ?_⟩
  rw [header, if_neg hs, hm, show long + (b.toNat - long) = b.toNat by omega, UInt8.ofNat_toNat',
    List.cons_append]

/-- A header `readKind` reads is the header the encoder writes for its kind. -/
theorem readKind_eq_some {input rest : Bytes} {k : Kind} (h : readKind input = some (k, rest)) :
    k.Valid ∧ input = k.header ++ rest := by
  cases input with
  | nil => cases h
  | cons b input =>
    rw [readKind_cons] at h
    have hb := UInt8.toNat_lt b
    by_cases h1 : b.toNat < 0x80
    · rw [if_pos h1] at h
      obtain ⟨rfl, rfl⟩ := Prod.mk.inj (Option.some.inj h)
      exact ⟨h1, rfl⟩
    rw [if_neg h1] at h
    by_cases h2 : b.toNat < 0xB8
    · rw [if_pos h2] at h
      obtain ⟨rfl, rfl⟩ := Prod.mk.inj (Option.some.inj h)
      exact ⟨show b.toNat - 0x80 < 2 ^ 64 by omega, eq_short_header 0xB7 (by omega) (by omega) _⟩
    rw [if_neg h2] at h
    by_cases h3 : b.toNat < 0xC0
    · rw [if_pos h3] at h
      obtain ⟨size, rfl, hv, he⟩ := eq_long_header 0x80 (by omega) (by omega) h
      exact ⟨hv, he⟩
    rw [if_neg h3] at h
    by_cases h4 : b.toNat < 0xF8
    · rw [if_pos h4] at h
      obtain ⟨rfl, rfl⟩ := Prod.mk.inj (Option.some.inj h)
      exact ⟨show b.toNat - 0xC0 < 2 ^ 64 by omega, eq_short_header 0xF7 (by omega) (by omega) _⟩
    rw [if_neg h4] at h
    obtain ⟨size, rfl, hv, he⟩ := eq_long_header 0xC0 (by omega) (by omega) h
    exact ⟨hv, he⟩

/-- `readKind` reads exactly the headers the encoder writes. -/
theorem readKind_eq_some_iff {input rest : Bytes} {k : Kind} :
    readKind input = some (k, rest) ↔ k.Valid ∧ input = k.header ++ rest :=
  ⟨readKind_eq_some, fun ⟨hk, he⟩ => he ▸ readKind_header hk rest⟩

/-! ## Values -/

theorem headD_take_one (r : Bytes) : (r.take 1).headD 0 = r.headD 0 := by
  cases r <;> rfl

/-- `readBytes` reads exactly the strings the encoder writes. -/
theorem readBytes_eq_some_iff {input b rest : Bytes} :
    readBytes input = some (b, rest) ↔ b.length < 2 ^ 64 ∧ input = encodeString b ++ rest := by
  constructor
  · intro h
    unfold readBytes at h
    rcases hk : readKind input with _ | ⟨k, r⟩
    · simp [hk] at h
    obtain ⟨hv, rfl⟩ := readKind_eq_some hk
    rw [hk] at h
    cases k with
    | byte c =>
      obtain ⟨rfl, rfl⟩ := Prod.mk.inj (Option.some.inj h)
      refine ⟨by simp, ?_⟩
      rw [encodeString, if_pos ⟨rfl, UInt8.lt_iff_toNat.mpr hv⟩]; rfl
    | string n =>
      simp only at h
      split_ifs at h with hc
      obtain ⟨rfl, rfl⟩ := Prod.mk.inj (Option.some.inj h)
      have hlen : (r.take n).length = n := by simp; omega
      refine ⟨by rw [hlen]; exact hv, ?_⟩
      rw [encodeString, if_neg, hlen, Kind.header, List.append_assoc, List.take_append_drop]
      rintro ⟨h1, h2⟩
      rw [hlen] at h1
      subst h1
      exact hc.2 ⟨rfl, headD_take_one r ▸ h2⟩
    | list n => simp at h
  · rintro ⟨hl, rfl⟩
    unfold encodeString
    split_ifs with hc
    · obtain ⟨c, rfl⟩ := List.length_eq_one.mp hc.1
      have hc' : (Kind.byte c).Valid := UInt8.lt_iff_toNat.mp hc.2
      rw [readBytes, show [c] ++ rest = (Kind.byte c).header ++ rest from rfl, readKind_header hc']
    · rw [readBytes, List.append_assoc, show header 0x80 0xB7 b.length = (Kind.string b.length).header
        from rfl, readKind_header (k := .string b.length) hl]
      simp only
      rw [if_pos ⟨by simp, fun h' => hc ⟨h'.1, by
        obtain ⟨c, rfl⟩ := List.length_eq_one.mp h'.1; exact h'.2⟩⟩]
      simp

theorem encodeBigInt_eq_encodeVolume (i : Nat) : encodeBigInt i = encodeVolume i := by
  unfold encodeBigInt encodeVolume
  split
  · subst i; rw [bigBytes_zero]; rfl
  · rfl

theorem length_le_encodeString (b : Bytes) : b.length ≤ (encodeString b).length := by
  unfold encodeString; split <;> simp

/-- `decodeBigInt` reads exactly the encodings of numbers. -/
theorem decodeBigInt_eq_some_iff {input rest : Bytes} {v : Nat} :
    decodeBigInt input = some (v, rest) ↔
      (bigBytes v).length < 2 ^ 64 ∧ input = encodeVolume v ++ rest := by
  constructor
  · intro h
    obtain ⟨⟨b, r⟩, hb, hk⟩ := Option.bind_eq_some.mp h
    simp only at hk
    split_ifs at hk with h0
    obtain ⟨rfl, rfl⟩ := Prod.mk.inj (Option.some.inj hk)
    rw [encodeVolume, bigBytes_setBytes h0]
    exact readBytes_eq_some_iff.mp hb
  · rintro ⟨hl, rfl⟩
    have hb : readBytes (encodeVolume v ++ rest) = some (bigBytes v, rest) :=
      readBytes_eq_some_iff.mpr ⟨hl, rfl⟩
    rw [decodeBigInt, hb]
    simp [head_bigBytes, setBytes_bigBytes]

theorem encodeString_hash (h : Hash) : encodeString h.bytes = (Kind.string 32).header ++ h.bytes := by
  rw [encodeString, if_neg (by rw [h.length_bytes]; omega), h.length_bytes]; rfl

/-- `decodeHash` reads exactly the encodings of hashes. -/
theorem decodeHash_eq_some_iff {input rest : Bytes} {h : Hash} :
    decodeHash input = some (h, rest) ↔ input = encodeString h.bytes ++ rest := by
  constructor
  · intro hd
    unfold decodeHash at hd
    rcases hk : readKind input with _ | ⟨k, r⟩
    · simp [hk] at hd
    obtain ⟨-, rfl⟩ := readKind_eq_some hk
    rw [hk] at hd
    cases k with
    | string n =>
      simp only at hd
      split_ifs at hd with hc
      obtain ⟨rfl, rfl⟩ := Prod.mk.inj (Option.some.inj hd)
      obtain ⟨rfl, -⟩ := hc
      rw [encodeString_hash, List.append_assoc, List.take_append_drop]
    | _ => simp at hd
  · rintro rfl
    obtain ⟨bytes, hl⟩ := h
    rw [encodeString_hash, decodeHash, List.append_assoc,
      readKind_header (k := .string 32) (by norm_num [Kind.Valid])]
    simp [hl, List.take_left' hl, List.drop_left' hl]

/-- `readList` reads exactly a list header and its payload. -/
theorem readList_eq_some_iff {input payload rest : Bytes} :
    readList input = some (payload, rest) ↔
      payload.length < 2 ^ 64 ∧ input = header 0xC0 0xF7 payload.length ++ payload ++ rest := by
  constructor
  · intro h
    unfold readList at h
    rcases hk : readKind input with _ | ⟨k, r⟩
    · simp [hk] at h
    obtain ⟨hv, rfl⟩ := readKind_eq_some hk
    rw [hk] at h
    cases k with
    | list n =>
      simp only at h
      split_ifs at h with hc
      obtain ⟨rfl, rfl⟩ := Prod.mk.inj (Option.some.inj h)
      have hlen : (r.take n).length = n := by simp; omega
      refine ⟨by rw [hlen]; exact hv, ?_⟩
      rw [hlen, List.append_assoc, List.take_append_drop]; rfl
    | _ => simp at h
  · rintro ⟨hl, rfl⟩
    rw [readList, List.append_assoc,
      show header 0xC0 0xF7 payload.length = (Kind.list payload.length).header from rfl,
      readKind_header (k := .list payload.length) hl]
    simp

theorem orderListPayload_eq (d : OrderList) :
    orderListPayload d = encodeVolume d.volume ++ encodeString d.root.bytes := by
  rw [orderListPayload, encodeBigInt_eq_encodeVolume]

/-- `decodeOrderList` reads exactly the encodings of `orderList` values. -/
theorem decodeOrderList_eq_some_iff {input rest : Bytes} {d : OrderList} :
    decodeOrderList input = some (d, rest) ↔
      (orderListPayload d).length < 2 ^ 64 ∧ input = encodeOrderList d ++ rest := by
  constructor
  · intro h
    obtain ⟨⟨payload, r⟩, hl, h⟩ := Option.bind_eq_some.mp h
    obtain ⟨⟨v, p₁⟩, hv, h⟩ := Option.bind_eq_some.mp h
    obtain ⟨⟨root, p₂⟩, hr, h⟩ := Option.bind_eq_some.mp h
    simp only at h
    split_ifs at h with hp
    obtain ⟨rfl, rfl⟩ := Prod.mk.inj (Option.some.inj h)
    subst hp
    obtain ⟨hlen, rfl⟩ := readList_eq_some_iff.mp hl
    obtain ⟨-, rfl⟩ := decodeBigInt_eq_some_iff.mp hv
    rw [decodeHash_eq_some_iff, List.append_nil] at hr
    subst hr
    rw [encodeOrderList, orderListPayload_eq]
    exact ⟨hlen, rfl⟩
  · rintro ⟨hl, rfl⟩
    obtain ⟨v, root⟩ := d
    have hP : orderListPayload ⟨v, root⟩ = encodeVolume v ++ encodeString root.bytes :=
      orderListPayload_eq _
    have hv : (bigBytes v).length < 2 ^ 64 := by
      have := length_le_encodeString (bigBytes v)
      rw [hP, List.length_append, encodeVolume] at hl
      omega
    have h₁ : readList (encodeOrderList ⟨v, root⟩ ++ rest) =
        some (encodeVolume v ++ encodeString root.bytes, rest) := by
      rw [← hP]; exact readList_eq_some_iff.mpr ⟨hl, rfl⟩
    have h₂ : decodeBigInt (encodeVolume v ++ encodeString root.bytes) =
        some (v, encodeString root.bytes) := decodeBigInt_eq_some_iff.mpr ⟨hv, rfl⟩
    have h₃ : decodeHash (encodeString root.bytes) = some (root, []) :=
      decodeHash_eq_some_iff.mpr (List.append_nil _).symm
    simp [decodeOrderList, h₁, h₂, h₃]

theorem decodeBytes_eq_some_iff {α : Type} {dec : Bytes → Option (α × Bytes)} {b : Bytes} {v : α} :
    decodeBytes dec b = some v ↔ dec b = some (v, []) := by
  unfold decodeBytes
  constructor
  · intro h
    obtain ⟨⟨v', r⟩, hd, hk⟩ := Option.bind_eq_some.mp h
    simp only at hk
    split_ifs at hk with hr
    subst hr
    cases hk
    exact hd
  · intro h
    simp [h]

/-- A price level's value decodes exactly when it is the encoding of an
`orderList`. -/
theorem decodeBytes_orderList_iff {b : Bytes} {d : OrderList} :
    decodeBytes decodeOrderList b = some d ↔
      (orderListPayload d).length < 2 ^ 64 ∧ b = encodeOrderList d := by
  rw [decodeBytes_eq_some_iff, decodeOrderList_eq_some_iff, List.append_nil]

/-- A value decodes as a `big.Int` exactly when it is the encoding the store
writes of a volume. -/
theorem decodeBytes_bigInt_iff {b : Bytes} {v : Nat} :
    decodeBytes decodeBigInt b = some v ↔ (bigBytes v).length < 2 ^ 64 ∧ b = encodeVolume v := by
  rw [decodeBytes_eq_some_iff, decodeBigInt_eq_some_iff, List.append_nil]

end TomoX.Proof
