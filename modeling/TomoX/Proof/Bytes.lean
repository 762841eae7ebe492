import TomoX.Impl.Bytes
import Mathlib

/-!
# Big-endian bytes

`setBytes` and `bigBytes` are inverse: `setBytes_bigBytes` one way, and
`bigBytes_setBytes` the other way on bytes with no leading zero, which is what
`bigBytes` writes (`head_bigBytes`). `setBytes` tells apart byte strings of one
length (`setBytes_inj`), and `bigBytes x` has at most `n` bytes exactly when
`x < 256 ^ n` (`length_bigBytes_le`).
-/

namespace TomoX.Proof

open TomoX

theorem setBytes_lt (l : Bytes) : setBytes l < 256 ^ l.length := by
  induction l using List.reverseRecOn with
  | nil => simp
  | append_singleton l b ih =>
    rw [setBytes_append_singleton, List.length_append, List.length_singleton, Nat.pow_succ]
    have := UInt8.toNat_lt b
    omega

theorem setBytes_append (l₁ l₂ : Bytes) :
    setBytes (l₁ ++ l₂) = setBytes l₁ * 256 ^ l₂.length + setBytes l₂ := by
  induction l₂ using List.reverseRecOn with
  | nil => simp
  | append_singleton l₂ b ih =>
    rw [← List.append_assoc, setBytes_append_singleton, ih, setBytes_append_singleton,
      List.length_append, List.length_singleton, Nat.pow_succ]
    ring

theorem setBytes_cons (b : UInt8) (l : Bytes) :
    setBytes (b :: l) = b.toNat * 256 ^ l.length + setBytes l := by
  rw [← List.singleton_append, setBytes_append]
  simp [setBytes]

/-- Bytes with a leading zero are worth less than the bytes after it can be. -/
theorem setBytes_lt_of_head_zero {l : Bytes} (h : l.head? = some 0) :
    setBytes l < 256 ^ (l.length - 1) := by
  cases l with
  | nil => cases h
  | cons c t =>
    obtain rfl := Option.some.inj h
    rw [setBytes_cons]
    simpa using setBytes_lt t

theorem setBytes_bigBytes (x : Nat) : setBytes (bigBytes x) = x := by
  induction x using bigBytes.induct with
  | case1 => rw [bigBytes_zero, setBytes_nil]
  | case2 x hx ih =>
    rw [bigBytes_of_pos (Nat.pos_of_ne_zero hx), setBytes_append_singleton, ih,
      UInt8.toNat_ofNat']
    exact Nat.div_add_mod x 256

theorem bigBytes_eq_nil {x : Nat} : bigBytes x = [] ↔ x = 0 :=
  ⟨fun h => by rw [← setBytes_bigBytes x, h, setBytes_nil], fun h => h ▸ bigBytes_zero⟩

/-- `bigBytes` writes no leading zero. -/
theorem head_bigBytes (x : Nat) : (bigBytes x).head? ≠ some 0 := by
  induction x using bigBytes.induct with
  | case1 => simp [bigBytes_zero]
  | case2 x hx ih =>
    rw [bigBytes_of_pos (Nat.pos_of_ne_zero hx)]
    by_cases hq : x / 256 = 0
    · rw [hq, bigBytes_zero, List.nil_append, List.head?_singleton, Ne, Option.some.injEq,
        UInt8.ext_iff, UInt8.toNat_ofNat']
      simp only [UInt8.toNat_zero]
      omega
    · rwa [List.head?_append_of_ne_nil _ (mt bigBytes_eq_nil.mp hq)]

/-- A number below 256 other than zero is one byte. -/
theorem bigBytes_of_lt {x : Nat} (h0 : 0 < x) (h : x < 256) : bigBytes x = [UInt8.ofNat x] := by
  rw [bigBytes_of_pos h0, Nat.div_eq_of_lt h, bigBytes_zero, List.nil_append]

theorem bigBytes_append_singleton (x : Nat) (b : UInt8) (hx : bigBytes x ≠ []) :
    bigBytes (256 * x + b.toNat) = bigBytes x ++ [b] := by
  have hb := UInt8.toNat_lt b
  have hx0 : x ≠ 0 := mt bigBytes_eq_nil.mpr hx
  have hq : (256 * x + b.toNat) / 256 = x := by omega
  have hr : UInt8.ofNat (256 * x + b.toNat) = b := by
    rw [UInt8.ext_iff, UInt8.toNat_ofNat']; omega
  rw [bigBytes_of_pos (by omega), hq, hr]

/-- Bytes with no leading zero are the `bigBytes` of their value. -/
theorem bigBytes_setBytes {l : Bytes} (h : l.head? ≠ some 0) : bigBytes (setBytes l) = l := by
  induction l using List.reverseRecOn with
  | nil => exact bigBytes_zero
  | append_singleton l b ih =>
    rw [setBytes_append_singleton]
    rcases eq_or_ne l [] with rfl | hl
    · have hb : b.toNat ≠ 0 := fun h0 => h (by simp [UInt8.ext_iff, h0])
      rw [setBytes_nil, Nat.mul_zero, Nat.zero_add,
        bigBytes_of_lt (Nat.pos_of_ne_zero hb) (UInt8.toNat_lt b), UInt8.ofNat_toNat']
      rfl
    · have ih := ih (by rwa [← List.head?_append_of_ne_nil l hl])
      rw [bigBytes_append_singleton _ _ (by rwa [ih]), ih]

/-- Byte strings of one length with one value are equal. -/
theorem setBytes_inj {l₁ l₂ : Bytes} (hl : l₁.length = l₂.length)
    (h : setBytes l₁ = setBytes l₂) : l₁ = l₂ := by
  induction l₁ using List.reverseRecOn generalizing l₂ with
  | nil => exact (List.length_eq_zero.mp hl.symm).symm
  | append_singleton l₁ b₁ ih =>
    obtain rfl | ⟨l₂, b₂, rfl⟩ := l₂.eq_nil_or_concat
    · simp at hl
    rw [List.concat_eq_append] at hl h ⊢
    simp only [List.length_append, List.length_singleton, Nat.add_right_cancel_iff] at hl
    rw [setBytes_append_singleton, setBytes_append_singleton] at h
    have := UInt8.toNat_lt b₁
    have := UInt8.toNat_lt b₂
    rw [ih hl (by omega), UInt8.ext_iff.mpr (by omega : b₁.toNat = b₂.toNat)]

theorem setBytes_replicate_zero_append (k : Nat) (l : Bytes) :
    setBytes (List.replicate k 0 ++ l) = setBytes l := by
  induction k with
  | zero => rfl
  | succ k ih => rw [List.replicate_succ, List.cons_append, setBytes_cons, ih]; simp

/-- The last bytes of a string are worth its value modulo their width. -/
theorem setBytes_drop (k : Nat) (l : Bytes) :
    setBytes (l.drop k) = setBytes l % 256 ^ (l.length - k) := by
  have h := setBytes_append (l.take k) (l.drop k)
  rw [List.take_append_drop, List.length_drop] at h
  rw [h, Nat.add_comm, Nat.add_mul_mod_self_right,
    Nat.mod_eq_of_lt (by simpa using setBytes_lt (l.drop k))]

/-- `bigBytes x` has at most `n` bytes exactly when `x < 256 ^ n`. -/
theorem length_bigBytes_le {x n : Nat} : (bigBytes x).length ≤ n ↔ x < 256 ^ n := by
  refine ⟨fun h => ?_, fun h => ?_⟩
  · calc x = setBytes (bigBytes x) := (setBytes_bigBytes x).symm
      _ < 256 ^ (bigBytes x).length := setBytes_lt _
      _ ≤ 256 ^ n := Nat.pow_le_pow_right (by decide) h
  · induction x using bigBytes.induct generalizing n with
    | case1 => simp [bigBytes_zero]
    | case2 x hx ih =>
      rw [bigBytes_of_pos (Nat.pos_of_ne_zero hx), List.length_append, List.length_singleton]
      obtain _ | n := n
      · simp at h; omega
      · have := ih (n := n) ((Nat.div_lt_iff_lt_mul (by decide)).mpr (by rwa [← Nat.pow_succ]))
        omega

/-! ## Hashes -/

theorem bytesToHash_bytes (h : Hash) : bytesToHash h.bytes = h := by
  obtain ⟨b, hb⟩ := h
  simp [bytesToHash, hb]

/-- A number keyed by its hash is read back modulo `2 ^ 256`. -/
theorem setBytes_bigToHash (n : Nat) : setBytes (bigToHash n).bytes = n % 2 ^ 256 := by
  rw [bigToHash, bytesToHash, setBytes_replicate_zero_append, setBytes_drop, setBytes_bigBytes,
    show (2 : Nat) ^ 256 = 256 ^ 32 by norm_num]
  by_cases h : (bigBytes n).length ≤ 32
  · have hn := length_bigBytes_le.mp h
    rw [Nat.mod_eq_of_lt hn, Nat.mod_eq_of_lt (length_bigBytes_le.mp (by omega))]
  · rw [show (bigBytes n).length - ((bigBytes n).length - 32) = 32 by omega]

end TomoX.Proof
