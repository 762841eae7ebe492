import Mathlib.Data.List.Basic

/-!
# Byte slices, big integers and hashes

What the dump does with Go's byte slices: reads one as a non-negative `big.Int`
(`setBytes`, for `new(big.Int).SetBytes`), and turns one into a `common.Hash`
(`bytesToHash`, for `common.BytesToHash`), whose `Hex` names a book in an error
(`Hash.hex`). The writers of the store go the other way, from a `big.Int` to its
minimal big-endian bytes (`bigBytes`, for `Int.Bytes`), and key a number by its
hash (`bigToHash`, for `common.BigToHash`).

Bytes are `UInt8`, as Go's `byte`; the lemmas at the end move their comparisons
to `Nat`.
-/

namespace TomoX

/-- A Go `[]byte`. -/
abbrev Bytes := List UInt8

/-- `new(big.Int).SetBytes(buf)`: `buf` read as a big-endian unsigned integer. -/
def setBytes (buf : Bytes) : Nat :=
  buf.foldl (fun x b => 256 * x + b.toNat) 0

/-- `x.Bytes()` of a `big.Int` `x ≥ 0`: its big-endian bytes with no leading
zero, none for zero. -/
def bigBytes (x : Nat) : Bytes :=
  if x = 0 then [] else bigBytes (x / 256) ++ [UInt8.ofNat x]
decreasing_by omega

/-- A `common.Hash`: 32 bytes. -/
structure Hash where
  bytes : Bytes
  length_bytes : bytes.length = 32
deriving DecidableEq

/-- `common.BytesToHash(b)`: the last 32 bytes of `b`, padded on the left with
zeros. -/
def bytesToHash (b : Bytes) : Hash :=
  ⟨List.replicate (32 - b.length) 0 ++ b.drop (b.length - 32), by simp; omega⟩

/-- `common.BigToHash(b)` of a `big.Int` `b ≥ 0`: its bytes as a hash, so the
last 32 of them. -/
def bigToHash (b : Nat) : Hash :=
  bytesToHash (bigBytes b)

/-- `Hash.Hex`: `0x`, then two lower-case hex digits a byte. -/
def Hash.hex (h : Hash) : String :=
  "0x" ++ String.mk (h.bytes.flatMap fun b =>
    [Nat.digitChar (b.toNat / 16), Nat.digitChar (b.toNat % 16)])

@[simp] theorem setBytes_nil : setBytes [] = 0 := rfl

theorem setBytes_append_singleton (l : Bytes) (b : UInt8) :
    setBytes (l ++ [b]) = 256 * setBytes l + b.toNat := by
  simp [setBytes, List.foldl_append]

theorem bigBytes_zero : bigBytes 0 = [] := by
  rw [bigBytes]; simp

theorem bigBytes_of_pos {x : Nat} (h : 0 < x) :
    bigBytes x = bigBytes (x / 256) ++ [UInt8.ofNat x] := by
  rw [bigBytes, if_neg (Nat.pos_iff_ne_zero.mp h)]

/-! ## Bytes as numbers -/

@[simp] theorem UInt8.toNat_ofNat' (n : Nat) : (UInt8.ofNat n).toNat = n % 256 := by
  simp [UInt8.toNat, UInt8.ofNat]

theorem UInt8.lt_iff_toNat {a b : UInt8} : a < b ↔ a.toNat < b.toNat := by
  simp [UInt8.lt_def, BitVec.lt_def, UInt8.toNat]

@[simp] theorem UInt8.ofNat_toNat' (b : UInt8) : UInt8.ofNat b.toNat = b :=
  UInt8.toNat.inj ((UInt8.toNat_ofNat' _).trans (Nat.mod_eq_of_lt b.toNat_lt_size))

end TomoX
