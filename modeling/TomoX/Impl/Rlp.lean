import TomoX.Impl.Bytes

/-!
# The RLP codec of the stored values

What `rlp.DecodeBytes` does with the two kinds of value the order-book store
keeps: a price level's `orderList`, a list of a `big.Int` and a `common.Hash`
(`decodeBytes decodeOrderList`), and a plain `big.Int` (`decodeBytes
decodeBigInt`). The decoder follows `rlp.Stream`: `readKind` reads a header
and rejects every non-canonical size, `readBytes`, `decodeBigInt` and
`decodeHash` read one string value, `readList` enters a list, and
`decodeBytes` rejects input left over after the value.

The encoder (`encodeString`, `encodeBigInt`, `encodeOrderList`) is the one the
writers of the store use; it writes the size of a string or list in its first
byte below 56, and in the bytes after it from 56 on.
-/

namespace TomoX

/-- The value of a price level (`orderList`): the aggregate volume at that
price and the root of its order queue. -/
structure OrderList where
  volume : Nat
  root : Hash
deriving DecidableEq

namespace Rlp

/-- What `Stream.Kind` finds at the front of the input: a byte below `0x80`,
which is its own encoding, or the header of a string or a list with the size
of its payload. -/
inductive Kind where
  | byte (b : UInt8)
  | string (size : Nat)
  | list (size : Nat)
deriving DecidableEq

/-- `Stream.readUint`: a size written in `n` big-endian bytes, with no leading
zero byte when `n ≥ 2` (`ErrCanonSize`). -/
def readUint (n : Nat) (input : Bytes) : Option (Nat × Bytes) :=
  if n ≤ input.length ∧ ¬(2 ≤ n ∧ input.head? = some 0) then
    some (setBytes (input.take n), input.drop n)
  else none

/-- `Stream.readKind`: the header at the front of the input. A size from 56 on
must not fit in the first byte (`ErrCanonSize`). -/
def readKind : Bytes → Option (Kind × Bytes)
  | [] => none
  | b :: rest =>
    if b < 0x80 then some (.byte b, rest)
    else if b < 0xB8 then some (.string (b.toNat - 0x80), rest)
    else if b < 0xC0 then
      (readUint (b.toNat - 0xB7) rest).bind fun (size, rest) =>
        if size < 56 then none else some (.string size, rest)
    else if b < 0xF8 then some (.list (b.toNat - 0xC0), rest)
    else
      (readUint (b.toNat - 0xF7) rest).bind fun (size, rest) =>
        if size < 56 then none else some (.list size, rest)

/-- `Stream.Bytes`: the content of a string value. A single byte is its own
content; a one-byte string holding a byte below `0x80` is rejected
(`ErrCanonSize`). -/
def readBytes (input : Bytes) : Option (Bytes × Bytes) :=
  match readKind input with
  | some (.byte b, rest) => some ([b], rest)
  | some (.string size, rest) =>
    if size ≤ rest.length ∧ ¬(size = 1 ∧ rest.headD 0 < 0x80) then
      some (rest.take size, rest.drop size)
    else none
  | _ => none

/-- `decodeBigInt`: a string with no leading zero byte (`ErrCanonInt`), read
big-endian. -/
def decodeBigInt (input : Bytes) : Option (Nat × Bytes) :=
  (readBytes input).bind fun (b, rest) =>
    if b.head? = some 0 then none else some (setBytes b, rest)

/-- `decodeByteArray` for a `common.Hash`: a string of exactly 32 bytes. -/
def decodeHash (input : Bytes) : Option (Hash × Bytes) :=
  match readKind input with
  | some (.string size, rest) =>
    if h : size = 32 ∧ 32 ≤ rest.length then
      some (⟨rest.take 32, by simp; omega⟩, rest.drop 32)
    else none
  | _ => none

/-- `Stream.List`: the payload of a list, and the input after it. -/
def readList (input : Bytes) : Option (Bytes × Bytes) :=
  match readKind input with
  | some (.list size, rest) =>
    if size ≤ rest.length then some (rest.take size, rest.drop size) else none
  | _ => none

/-- The decoder of the struct `orderList`: a list holding its two fields and
nothing else (`ListEnd`). -/
def decodeOrderList (input : Bytes) : Option (OrderList × Bytes) :=
  (readList input).bind fun (payload, rest) =>
    (decodeBigInt payload).bind fun (volume, payload) =>
      (decodeHash payload).bind fun (root, payload) =>
        if payload = [] then some (⟨volume, root⟩, rest) else none

/-- `rlp.DecodeBytes`: one value, and no input after it
(`ErrMoreThanOneValue`). -/
def decodeBytes {α : Type} (decode : Bytes → Option (α × Bytes)) (b : Bytes) : Option α :=
  (decode b).bind fun (v, rest) => if rest = [] then some v else none

/-! ## Encoding -/

/-- The header of a payload of `size` bytes: `short + size` below 56, else
`long` plus the length of the size, then the size big-endian (`putint`).
Strings have `0x80` and `0xB7`, lists `0xC0` and `0xF7`. -/
def header (short long size : Nat) : Bytes :=
  if size < 56 then [UInt8.ofNat (short + size)]
  else UInt8.ofNat (long + (bigBytes size).length) :: bigBytes size

/-- `encbuf.encodeString`: a byte below `0x80` alone, else a header and the
bytes. -/
def encodeString (b : Bytes) : Bytes :=
  if b.length = 1 ∧ b.headD 0 < 0x80 then b else header 0x80 0xB7 b.length ++ b

/-- `writeBigInt` for `i ≥ 0`. -/
def encodeBigInt (i : Nat) : Bytes :=
  if i = 0 then [0x80] else encodeString (bigBytes i)

/-- The fields of an `orderList`, encoded one after the other. -/
def orderListPayload (d : OrderList) : Bytes :=
  encodeBigInt d.volume ++ encodeString d.root.bytes

/-- `rlp.EncodeToBytes` of an `orderList`: a list of its two fields. -/
def encodeOrderList (d : OrderList) : Bytes :=
  header 0xC0 0xF7 (orderListPayload d).length ++ orderListPayload d

/-- Modelled from the spec: how the store writes the volume of an order into
its queue (not in this source), the RLP encoding of the volume's big-endian
bytes without leading zeros. -/
def encodeVolume (v : Nat) : Bytes :=
  encodeString (bigBytes v)

end Rlp

end TomoX
