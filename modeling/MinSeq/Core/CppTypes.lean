import Mathlib.Algebra.Order.Ring.Int
import Mathlib.Tactic.Common

/-!
# C++ integers and library types

A 32-bit `int` is `Int32` and a 64-bit `size_t` is `UInt64`; their arithmetic wraps.  The usual
arithmetic conversions turn an `int` operand next to a `size_t` into a `size_t`, which `toSizeT`
does by sign extension, and a `size_t` assigned to an `int` is cut to 32 bits, which is `toInt`.

* **`toNat_toSizeT`**, **`toInt_toInt`** — what the two conversions do to a value in general;
  the lemmas after them say when they leave it alone.
* `toInt_add_of_range`, `toInt_sub_of_range` — `int` arithmetic that does not overflow.

A `std::string` is its bytes.  A `std::vector` knows its size, and `operator[]` checks nothing: an
index past the end reads whatever is there.
-/

namespace Cpp

/-- **`int` to `size_t`**, by sign extension: a negative number becomes one close to the top. -/
def toSizeT (i : Int32) : UInt64 := i.toInt64.toUInt64

/-- **`size_t` to `int`**, by cutting off the upper half. -/
def toInt (n : UInt64) : Int32 := n.toUInt32.toInt32

variable {a b i : Int32} {n m : UInt64}

/-! ## Conversions -/

/-- Sign extension is reduction modulo the width of `size_t`. -/
lemma toNat_toSizeT (i : Int32) : ((toSizeT i).toNat : ℤ) = i.toInt % 2 ^ 64 := by
  have hint : i.toInt = ((toSizeT i).toNat : ℤ).bmod (2 ^ 64) :=
    (Int32.toInt_toInt64 i).symm.trans (BitVec.toInt_eq_toNat_bmod i.toInt64.toBitVec)
  have hlt : (toSizeT i).toNat < 2 ^ 64 := UInt64.toNat_lt _
  rw [hint]
  generalize (toSizeT i).toNat = k at *
  have hmod : (k : ℤ).bmod (2 ^ 64) % ((2 ^ 64 : ℕ) : ℤ) = (k : ℤ) % ((2 ^ 64 : ℕ) : ℤ) :=
    Int.bmod_emod
  omega

/-- A number that is not negative stays what it is. -/
lemma toNat_toSizeT_of_nonneg (h : 0 ≤ i.toInt) : ((toSizeT i).toNat : ℤ) = i.toInt := by
  have := i.toInt_lt
  rw [toNat_toSizeT]
  omega

/-- Cutting a `size_t` to 32 bits is balanced reduction. -/
lemma toInt_toInt (n : UInt64) : (toInt n).toInt = (n.toNat : ℤ).bmod (2 ^ 32) := by
  have hint : (toInt n).toInt = (n.toUInt32.toNat : ℤ).bmod (2 ^ 32) :=
    BitVec.toInt_eq_toNat_bmod n.toUInt32.toBitVec
  have hcast : ((n.toNat % 2 ^ 32 : ℕ) : ℤ) = (n.toNat : ℤ) % ((2 ^ 32 : ℕ) : ℤ) := by omega
  rw [hint, UInt64.toNat_toUInt32, hcast, Int.emod_bmod]

/-- A number that an `int` has room for is kept. -/
lemma bmod_of_range {z : ℤ} (hlo : -2 ^ 31 ≤ z) (hhi : z < 2 ^ 31) : z.bmod (2 ^ 32) = z :=
  Int.bmod_eq_of_le (by omega) (by omega)

/-- What an `int` keeps of a number: as much as the lower 32 bits say. -/
lemma bmod_emod (z : ℤ) : z.bmod (2 ^ 32) % 2 ^ 32 = z % 2 ^ 32 := Int.bmod_emod

/-- And what is kept is in the range of an `int`. -/
lemma bmod_range (z : ℤ) : -2 ^ 31 ≤ z.bmod (2 ^ 32) ∧ z.bmod (2 ^ 32) < 2 ^ 31 :=
  ⟨Int.le_bmod (by decide), Int.bmod_lt (by decide)⟩

/-- A `size_t` that an `int` has room for stays what it is. -/
lemma toInt_toInt_of_lt (h : n.toNat < 2 ^ 31) : (toInt n).toInt = n.toNat := by
  rw [toInt_toInt, bmod_of_range (by omega) (by omega)]

/-! ## Arithmetic in range

Wrapping arithmetic is ordinary arithmetic as long as the result is in range, which is what a caller
has to show.
-/

lemma toInt_add_of_range (hlo : -2 ^ 31 ≤ a.toInt + b.toInt) (hhi : a.toInt + b.toInt < 2 ^ 31) :
    (a + b).toInt = a.toInt + b.toInt := by
  rw [Int32.toInt_add, bmod_of_range hlo hhi]

lemma toInt_sub_of_range (hlo : -2 ^ 31 ≤ a.toInt - b.toInt) (hhi : a.toInt - b.toInt < 2 ^ 31) :
    (a - b).toInt = a.toInt - b.toInt := by
  rw [Int32.toInt_sub, bmod_of_range hlo hhi]

/-- Unsigned subtraction does not wrap where there is enough to take from. -/
lemma toNat_sub_of_le (h : m.toNat ≤ n.toNat) : (n - m).toNat = n.toNat - m.toNat := by
  have := n.toNat_lt
  rw [UInt64.toNat_sub]
  omega

lemma toInt_toInt32 (p : UInt32) :
    p.toInt32.toInt = if p.toNat < 2 ^ 31 then (p.toNat : ℤ) else p.toNat - 2 ^ 32 := by
  have h : p.toInt32.toInt = (p.toNat : ℤ).bmod (2 ^ 32) := BitVec.toInt_eq_toNat_bmod p.toBitVec
  have hlt := p.toNat_lt
  rw [h]
  split
  · exact bmod_of_range (by omega) (by omega)
  · rw [← Int.sub_bmod_right, bmod_of_range] <;> omega

/-- C's `abs` on an `int`: `INT_MIN` is its own absolute value, as its negative is no `int`. -/
lemma toInt_abs (i : Int32) :
    i.abs.toInt = if i.toInt = -2 ^ 31 then -2 ^ 31 else (i.toInt.natAbs : ℤ) := by
  have h : i.abs.toInt = i.toBitVec.abs.toInt := rfl
  have hmin : i.toBitVec = BitVec.intMin 32 ↔ i.toInt = -2 ^ 31 := by
    rw [← BitVec.toInt_inj]
    rfl
  rw [h, BitVec.toInt_abs_eq_natAbs]
  simp only [hmin]
  rfl

/-! ## Arithmetic that may overflow

Where the model counts in whole numbers, an `int` operation that leaves the range is undefined
behaviour and no number at all.
-/

/-- `INT_MAX`, the largest `int` there is. -/
def intMax : ℤ := 2147483647

/-- The product of two `int`s, if it is one.  Signed overflow is undefined, and nothing is said of a
program after it. -/
def mulInt (a b : ℤ) : Option ℤ :=
  if -intMax - 1 ≤ a * b ∧ a * b ≤ intMax then some (a * b) else none

/-- For numbers that are not negative only the upper end of the range matters. -/
lemma mulInt_natCast (a b : ℕ) :
    mulInt a b = if a * b < 2 ^ 31 then some ((a * b : ℕ) : ℤ) else none := by
  have hcast : (a : ℤ) * b = (a * b : ℕ) := (Nat.cast_mul a b).symm
  have hrange : -intMax - 1 ≤ ((a * b : ℕ) : ℤ) ∧ ((a * b : ℕ) : ℤ) ≤ intMax ↔ a * b < 2 ^ 31 := by
    rw [intMax]
    omega
  rw [mulInt, hcast, if_congr hrange rfl rfl]

/-! ## Library types

As much of the standard library as the modelled code uses, with the behaviour that the library
documents.
-/

/-- **A `std::string`**: its `size()` bytes, among which there may be NULs. -/
abbrev StdString := List UInt8

/-- `std::string::resize`: cut, or fill up with NULs. -/
def StdString.resize (str : StdString) (n : ℕ) : StdString :=
  str.take n ++ List.replicate (n - str.length) 0

@[simp] lemma StdString.length_resize (str : StdString) (n : ℕ) : (str.resize n).length = n := by
  simp [StdString.resize]
  omega

/-- What `printf("%s", str.c_str())` prints: the bytes up to the first NUL, or all of them. -/
def StdString.cStr (str : StdString) : List UInt8 := str.takeWhile (· ≠ 0)

/-- **A `std::vector`**: its `size()`, and what `operator[]` reads at an index, in range or not.
The source checks no index, and so no lemma here needs one in range. -/
structure StdVector (α : Type) where
  size : UInt64
  get : UInt64 → α

/-- The vector of a list of fewer than `2 ^ 64` elements; past the end it reads the default. -/
def StdVector.ofList {α : Type} [Inhabited α] (xs : List α) : StdVector α :=
  ⟨UInt64.ofNat xs.length, fun i => xs.getD i.toNat default⟩

end Cpp
