import Mathlib.Data.Nat.Digits.Defs

/-!
# Regrouping bits through a word

A codec between digits of two powers of two keeps a 32-bit word whose low bits are read and not
written yet. It shifts a group in at the low end, and writes groups from the top of the pending
bits. The bits that were written leave the word only by overflow, so the value of the word itself
says little; `bitsRead` is the number that the groups written and the pending bits stand for.
`bitsRead_shiftIn` and `bitsRead_write` say what the two moves do to it.
-/

set_option autoImplicit false
set_option relaxedAutoImplicit false

namespace OpfsWebauthn.Foundation

/-- The number that is written by digits, most significant first. -/
def radix (base : ℕ) (digits : List ℕ) : ℕ :=
  Nat.ofDigits base digits.reverse

@[simp] theorem radix_nil (base : ℕ) : radix base [] = 0 := rfl

/-- A further digit. -/
theorem radix_concat (base : ℕ) (digits : List ℕ) (digit : ℕ) :
    radix base (digits ++ [digit]) = radix base digits * base + digit := by
  rw [radix, List.reverse_append, List.reverse_singleton, List.singleton_append,
    Nat.ofDigits_cons, radix, Nat.mul_comm, Nat.add_comm]

/-- Digits of one length are determined by their number. -/
theorem radix_inj {base : ℕ} (hbase : 1 < base) {first second : List ℕ}
    (hlength : first.length = second.length) (hfirst : ∀ digit ∈ first, digit < base)
    (hsecond : ∀ digit ∈ second, digit < base) (hnumber : radix base first = radix base second) :
    first = second := by
  have hreverse : first.reverse = second.reverse := by
    apply Nat.ofDigits_inj_of_len_eq hbase
    · rw [List.length_reverse, List.length_reverse, hlength]
    · intro digit hdigit
      exact hfirst digit (List.mem_reverse.mp hdigit)
    · intro digit hdigit
      exact hsecond digit (List.mem_reverse.mp hdigit)
    · exact hnumber
  exact List.reverse_inj.mp hreverse

/-- The number of a codec that wrote groups of `width` bits and has the low `pending` bits of the
word still to write. -/
def bitsRead (width : ℕ) (written : List ℕ) (word : UInt32) (pending : ℕ) : ℕ :=
  radix (2 ^ width) written * 2 ^ pending + word.toNat % 2 ^ pending

/-- The value of a word with a group shifted in, up to the overflow. -/
theorem toNat_shiftIn (word group : UInt32) {size : ℕ} (hsize : size < 32)
    (hgroup : group.toNat < 2 ^ size) :
    ((word <<< UInt32.ofNat size) ||| group).toNat =
      word.toNat * 2 ^ size % 2 ^ 32 + group.toNat := by
  have hamount : (UInt32.ofNat size).toNat % 32 = size := by
    rw [UInt32.toNat_ofNat']
    omega
  have hsplit : 2 ^ 32 = 2 ^ size * 2 ^ (32 - size) := by
    rw [← Nat.pow_add, Nat.add_sub_cancel' (Nat.le_of_lt hsize)]
  have hshift : word.toNat <<< size % 2 ^ 32 = (word.toNat % 2 ^ (32 - size)) <<< size := by
    rw [Nat.shiftLeft_eq, Nat.shiftLeft_eq, hsplit, Nat.mul_comm word.toNat,
      Nat.mul_mod_mul_left, Nat.mul_comm]
  rw [UInt32.toNat_or, UInt32.toNat_shiftLeft, hamount, hshift,
    ← Nat.shiftLeft_add_eq_or_of_lt hgroup, ← hshift, Nat.shiftLeft_eq]

/-- A digit at the low end is the low part of the number. -/
theorem mul_add_mod_mul {value digit base : ℕ} (hdigit : digit < base) (bound : ℕ) :
    (value * base + digit) % (base * bound) = value % bound * base + digit := by
  have hpositive : 0 < base := Nat.zero_lt_of_lt hdigit
  have hlow : (value * base + digit) % base = digit := by
    rw [Nat.mul_comm, Nat.mul_add_mod, Nat.mod_eq_of_lt hdigit]
  have hhigh : (value * base + digit) / base = value := by
    rw [Nat.mul_comm, Nat.mul_add_div hpositive, Nat.div_eq_of_lt hdigit, Nat.add_zero]
  rw [Nat.mod_mul, hlow, hhigh, Nat.add_comm, Nat.mul_comm]

/-- A group that is shifted in is a digit at the end of the number. -/
theorem bitsRead_shiftIn (width : ℕ) (written : List ℕ) (word group : UInt32) {size pending : ℕ}
    (hsize : size < 32) (hpending : pending + size ≤ 32) (hgroup : group.toNat < 2 ^ size) :
    bitsRead width written ((word <<< UInt32.ofNat size) ||| group) (pending + size) =
      bitsRead width written word pending * 2 ^ size + group.toNat := by
  have hdivides : 2 ^ (pending + size) ∣ 2 ^ 32 := Nat.pow_dvd_pow 2 hpending
  have hlow : (word.toNat * 2 ^ size % 2 ^ 32 + group.toNat) % 2 ^ (pending + size) =
      word.toNat % 2 ^ pending * 2 ^ size + group.toNat := by
    rw [Nat.add_mod, Nat.mod_mod_of_dvd _ hdivides, ← Nat.add_mod, Nat.add_comm pending,
      Nat.pow_add, mul_add_mod_mul hgroup]
  rw [bitsRead, toNat_shiftIn word group hsize hgroup, hlow, bitsRead, Nat.pow_add, Nat.add_mul,
    Nat.mul_assoc, Nat.add_assoc]

/-- Writing the top group of the pending bits does not change the number. -/
theorem bitsRead_write (width : ℕ) (written : List ℕ) (word : UInt32) (pending : ℕ) :
    bitsRead width (written ++ [word.toNat / 2 ^ pending % 2 ^ width]) word pending =
      bitsRead width written word (pending + width) := by
  have hlow : word.toNat % 2 ^ (pending + width) =
      word.toNat % 2 ^ pending + 2 ^ pending * (word.toNat / 2 ^ pending % 2 ^ width) := by
    rw [Nat.pow_add, Nat.mod_mul]
  rw [bitsRead, radix_concat, bitsRead, hlow, Nat.pow_add]
  ring

end OpfsWebauthn.Foundation
