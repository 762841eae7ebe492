import TomoX.Impl.Dump
import Mathlib

/-!
# The errors of a dump name what failed

A dump's errors print the book with `Hash.Hex` and the price with `%v`. Both
printers can be read back: a hash's hex digits give its bytes (`hexBytes_hex`),
and a number's decimal digits give the number (`decimalValue_toString`). As the
hex text of a hash has a fixed width (`length_hex`), the text of an error gives
back the book it names and, for a level that does not decode, the price; and
no text is both errors (`dumpError_texts_inj`).
-/

namespace TomoX.Proof

open TomoX

/-! ## Hex -/

/-- The value of a lower-case hex digit. -/
def hexDigitValue (c : Char) : Nat :=
  if c.toNat < 0x3A then c.toNat - 0x30 else c.toNat - 0x57

theorem hexDigitValue_digitChar {n : Nat} (h : n < 16) : hexDigitValue (Nat.digitChar n) = n :=
  (by decide : ∀ k : Fin 16, hexDigitValue (Nat.digitChar k) = k) ⟨n, h⟩

/-- Bytes read from pairs of hex digits. -/
def hexBytes : List Char → Bytes
  | a :: b :: rest => UInt8.ofNat (16 * hexDigitValue a + hexDigitValue b) :: hexBytes rest
  | _ => []

/-- The digits `Hash.Hex` writes of some bytes. -/
def hexDigits (bs : Bytes) : List Char :=
  bs.flatMap fun b => [Nat.digitChar (b.toNat / 16), Nat.digitChar (b.toNat % 16)]

theorem hex_data (h : Hash) : h.hex.data = ['0', 'x'] ++ hexDigits h.bytes := rfl

theorem hexBytes_hexDigits (bs : Bytes) : hexBytes (hexDigits bs) = bs := by
  induction bs with
  | nil => rfl
  | cons b bs ih =>
    have hb := UInt8.toNat_lt b
    rw [hexDigits, List.flatMap_cons, List.cons_append, List.cons_append, List.nil_append,
      hexBytes, ← hexDigits, ih, hexDigitValue_digitChar (by omega),
      hexDigitValue_digitChar (by omega), show 16 * (b.toNat / 16) + b.toNat % 16 = b.toNat by omega,
      UInt8.ofNat_toNat']

theorem length_hexDigits (bs : Bytes) : (hexDigits bs).length = 2 * bs.length := by
  induction bs with
  | nil => rfl
  | cons b bs ih =>
    rw [hexDigits, List.flatMap_cons, List.length_append, ← hexDigits, ih, List.length_cons]
    simp only [List.length_cons, List.length_nil]
    omega

/-- The hex text of a hash gives back its bytes. -/
theorem hexBytes_hex (h : Hash) : hexBytes (h.hex.data.drop 2) = h.bytes := by
  rw [hex_data]
  exact hexBytes_hexDigits h.bytes

/-- The hex text of a hash is 66 characters long. -/
theorem length_hex (h : Hash) : h.hex.data.length = 66 := by
  rw [hex_data, List.length_append, length_hexDigits, h.length_bytes]; rfl

theorem hex_inj {h h' : Hash} (he : h.hex.data = h'.hex.data) : h = h' := by
  have hb : h.bytes = h'.bytes := by rw [← hexBytes_hex h, he, hexBytes_hex]
  cases h; cases h'
  cases hb
  rfl

/-! ## Decimal -/

/-- The value of decimal digits, the most significant first. -/
def decimalValue : List Char → Nat
  | [] => 0
  | c :: cs => (c.toNat - 0x30) * 10 ^ cs.length + decimalValue cs

theorem toNat_digitChar_sub {n : Nat} (h : n < 10) : (Nat.digitChar n).toNat - 0x30 = n :=
  (by decide : ∀ k : Fin 10, (Nat.digitChar k).toNat - 0x30 = k) ⟨n, h⟩

/-- What `Nat.toDigitsCore` puts in front of `ds`, given the fuel, is worth `n`. -/
theorem decimalValue_toDigitsCore (fuel n : Nat) (ds : List Char) (h : n < fuel) :
    decimalValue (Nat.toDigitsCore 10 fuel n ds) = n * 10 ^ ds.length + decimalValue ds := by
  induction fuel generalizing n ds with
  | zero => omega
  | succ fuel ih =>
    have hd := toNat_digitChar_sub (Nat.mod_lt n (by decide : 10 > 0))
    simp only [Nat.toDigitsCore]
    split_ifs with h0
    · rw [decimalValue, hd, Nat.mod_eq_of_lt (by omega)]
    · rw [ih _ _ (by omega), decimalValue, hd, List.length_cons, pow_succ]
      conv_rhs => rw [← Nat.div_add_mod n 10]
      ring

/-- The decimal text of a number gives it back. -/
theorem decimalValue_toString (n : Nat) : decimalValue (toString n).data = n := by
  show decimalValue (Nat.toDigitsCore 10 (n + 1) n []) = n
  simp [decimalValue_toDigitsCore _ _ _ (Nat.lt_succ_self n), decimalValue]

/-! ## The errors -/

theorem notFoundError_inj {ob ob' : Hash} (h : notFoundError ob = notFoundError ob') :
    ob = ob' := by
  have h := congrArg String.data h
  simp only [notFoundError, String.data_append, List.append_assoc, List.append_cancel_left_eq,
    List.append_cancel_right_eq] at h
  exact hex_inj h

theorem decodeError_inj {ob ob' : Hash} {p p' : Nat} (h : decodeError ob p = decodeError ob' p') :
    ob = ob' ∧ p = p' := by
  have h := congrArg String.data h
  simp only [decodeError, String.data_append, List.append_assoc, List.append_cancel_left_eq] at h
  obtain ⟨hh, h⟩ := List.append_inj h (by rw [length_hex, length_hex])
  simp only [List.append_cancel_left_eq, List.append_cancel_right_eq] at h
  exact ⟨hex_inj hh, by rw [← decimalValue_toString p, h, decimalValue_toString]⟩

/-- The two errors start differently. -/
theorem notFoundError_ne_decodeError (ob ob' : Hash) (p : Nat) :
    notFoundError ob ≠ decodeError ob' p := fun h => by
  simpa [notFoundError, decodeError] using congrArg (fun s => s.data.head?) h

/-- The text of a dump's error names what failed: the book it could not find,
or the book and the price of the level it could not decode; and no text is
both errors. -/
theorem dumpError_texts_inj :
    (∀ ob ob' : Hash, notFoundError ob = notFoundError ob' → ob = ob') ∧
    (∀ (ob ob' : Hash) (p p' : Nat), decodeError ob p = decodeError ob' p' → ob = ob' ∧ p = p') ∧
    ∀ (ob ob' : Hash) (p : Nat), notFoundError ob ≠ decodeError ob' p :=
  ⟨fun _ _ => notFoundError_inj, fun _ _ _ _ => decodeError_inj, notFoundError_ne_decodeError⟩

end TomoX.Proof
