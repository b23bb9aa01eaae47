import Mathlib.Data.Nat.Digits.Lemmas
import Mathlib.Data.Int.Order.Basic

/-!
# Names that end in a number

Threads and connections have names that end in a number, which is counted in an `int` and printed
in decimal to a buffer. While the counter has not started over, after 2³¹ of them, the number is
that of the thread or the connection, and has ten digits at most.
-/

namespace Twnl

/-- `c_str()`, and what a format takes for `%s`: a text ends at its first NUL. -/
def cStr (text : List Char) : List Char := text.takeWhile (· ≠ Char.ofNat 0)

/-- `snprintf` into a buffer of that size. -/
def snprintf (size : ℕ) (text : List Char) : List Char := text.take (size - 1)

/-- The digits of `%d`. -/
def decimalDigits (n : ℕ) : List Char :=
  if n = 0 then ['0'] else (Nat.digits 10 n).reverse.map Nat.digitChar

/-- `%d`. -/
def decimal (n : ℤ) : List Char :=
  if n < 0 then '-' :: decimalDigits n.natAbs else decimalDigits n.natAbs

/-- An `int` that is incremented. -/
def increment (n : ℤ) : ℤ := (n + 1).bmod (2 ^ 32)

/-! ## Decimal numbers -/

/-- The number that digits are read as. -/
def readDecimal (text : List Char) : ℕ :=
  Nat.ofDigits 10 (text.reverse.map fun c ↦ c.toNat - 48)

theorem read_digitChar : ∀ d < 10, (Nat.digitChar d).toNat - 48 = d := by decide

theorem readDecimal_decimalDigits (n : ℕ) : readDecimal (decimalDigits n) = n := by
  rw [decimalDigits]
  split
  · rename_i hzero
    rw [hzero]
    rfl
  · have hread : (Nat.digits 10 n).map (fun d ↦ (Nat.digitChar d).toNat - 48) =
        Nat.digits 10 n := by
      refine (List.map_congr_left fun d hd ↦ ?_).trans (List.map_id _)
      exact read_digitChar d (Nat.digits_lt_base (by decide) hd)
    rw [readDecimal, ← List.map_reverse, List.reverse_reverse, List.map_map]
    exact (congrArg (Nat.ofDigits 10) hread).trans (Nat.ofDigits_digits 10 n)

theorem decimalDigits_inj {m n : ℕ} (h : decimalDigits m = decimalDigits n) : m = n := by
  rw [← readDecimal_decimalDigits m, h, readDecimal_decimalDigits]

/-- What an `int` takes at most. -/
theorem length_decimalDigits {n : ℕ} (h : n < 2 ^ 31) : (decimalDigits n).length ≤ 10 := by
  rw [decimalDigits]
  split
  · decide
  · rw [List.length_map, List.length_reverse]
    exact (Nat.digits_length_le_iff (by decide) n).mpr (by omega)

theorem decimal_natCast (n : ℕ) : decimal n = decimalDigits n := by
  rw [decimal, if_neg (Int.not_lt.mpr (Int.natCast_nonneg n)), Int.natAbs_natCast]

/-! ## The counter -/

/-- A counter of connections that starts from 1, after that many. -/
def connIdAt (i : ℕ) : ℤ := ((i : ℤ) + 1).bmod (2 ^ 32)

theorem increment_connIdAt (i : ℕ) : increment (connIdAt i) = connIdAt (i + 1) :=
  Int.bmod_add_bmod

theorem connIdAt_eq {i : ℕ} (h : i + 1 < 2 ^ 31) : connIdAt i = ((i + 1 : ℕ) : ℤ) := by
  have hzero : ((i + 1 : ℕ) : ℤ) - ((i : ℤ) + 1) = 0 := Int.sub_self _
  refine (Int.bmod_eq_iff (Nat.two_pow_pos 32)).mpr ⟨by omega, by omega, ?_⟩
  rw [hzero]
  exact Int.dvd_zero _

end Twnl
