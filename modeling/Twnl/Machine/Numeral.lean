import Mathlib.Data.Nat.Digits.Lemmas

/-!
# Numerals

Positional numerals over any base, as lists of digits with the most significant one in front. A
numeral is canonical when it has a digit, all its digits are below the base, and it has a zero in
front only if it has nothing else. A number has exactly one canonical numeral
(`canonical_numeral`, `Canonical.numeral_value`), and the digits that division by the base puts out
one after the other are those of that numeral from the back (`numeral_of_div_ne_zero`). Where only
so many digits are kept, the first numbers are still told apart as long as none of them has more
(`nodup_take_iff`).

A numeral is written with some characters for its digits, and `parse` reads such a text.
-/

namespace Machine

namespace Numeral

variable {α : Type*} {b n k : ℕ} {ds : List ℕ}

/-- The number that a list of digits stands for. -/
def value (b : ℕ) (ds : List ℕ) : ℕ := Nat.ofDigits b ds.reverse

/-- The numeral of a number. -/
def numeral (b n : ℕ) : List ℕ := if n = 0 then [0] else (Nat.digits b n).reverse

/-- There are digits, all below the base, and no zero in front of others. -/
structure Canonical (b : ℕ) (ds : List ℕ) : Prop where
  ne_nil : ds ≠ []
  lt : ∀ d ∈ ds, d < b
  leading : ds.head? = some 0 → ds = [0]

/-! ## The digits from the back -/

theorem numeral_of_lt (h : n < b) : numeral b n = [n] := by
  rw [numeral]
  split
  · rename_i hzero
    rw [hzero]
  · rename_i hzero
    rw [Nat.digits_of_lt b n hzero h, List.reverse_singleton]

/-- The last digit is the remainder, and the others are those of the quotient. -/
theorem numeral_of_div_ne_zero (hb : 1 < b) (h : n / b ≠ 0) :
    numeral b n = numeral b (n / b) ++ [n % b] := by
  have hn : n ≠ 0 := by
    rintro rfl
    exact h (Nat.zero_div b)
  rw [numeral, numeral, if_neg hn, if_neg h, Nat.digits_def' hb (Nat.pos_of_ne_zero hn),
    List.reverse_cons]

/-! ## Canonical numerals -/

theorem canonical_numeral (hb : 1 < b) (n : ℕ) : Canonical b (numeral b n) := by
  rw [numeral]
  split
  · refine ⟨List.cons_ne_nil 0 [], fun d hd ↦ ?_, fun _ ↦ rfl⟩
    rw [List.mem_singleton.mp hd]
    exact Nat.lt_trans Nat.zero_lt_one hb
  · rename_i hn
    have hne : Nat.digits b n ≠ [] := Nat.digits_ne_nil_iff_ne_zero.mpr hn
    refine ⟨fun hnil ↦ hne (List.reverse_eq_nil_iff.mp hnil), fun d hd ↦ ?_, fun hzero ↦ ?_⟩
    · exact Nat.digits_lt_base hb (List.mem_reverse.mp hd)
    · rw [List.head?_reverse, List.getLast?_eq_some_getLast hne, Option.some.injEq] at hzero
      exact absurd hzero (Nat.getLast_digit_ne_zero b hn)

@[simp] theorem value_numeral (b n : ℕ) : value b (numeral b n) = n := by
  rw [value, numeral]
  split
  · rename_i hzero
    rw [hzero]
    simp
  · rw [List.reverse_reverse, Nat.ofDigits_digits]

/-- A canonical list of digits is the numeral of its value. -/
theorem Canonical.numeral_value (hb : 1 < b) (h : Canonical b ds) :
    numeral b (value b ds) = ds := by
  rw [numeral]
  by_cases hzero : ds = [0]
  · subst hzero
    simp [value]
  · have hlast : ∀ hne : ds.reverse ≠ [], ds.reverse.getLast hne ≠ 0 := by
      intro hne hlast
      refine hzero (h.leading ?_)
      rw [← List.reverse_reverse ds, List.head?_reverse, List.getLast?_eq_some_getLast hne, hlast]
    have hdigits : Nat.digits b (value b ds) = ds.reverse :=
      Nat.digits_ofDigits b hb _ (fun d hd ↦ h.lt d (List.mem_reverse.mp hd)) hlast
    have hvalue : value b ds ≠ 0 := by
      intro hvalue
      rw [hvalue, Nat.digits_zero] at hdigits
      exact h.ne_nil (List.reverse_eq_nil_iff.mp hdigits.symm)
    rw [if_neg hvalue, hdigits, List.reverse_reverse]

/-- The number of digits. -/
theorem length_numeral_le (hb : 1 < b) (hk : 0 < k) (h : n < b ^ k) :
    (numeral b n).length ≤ k := by
  rw [numeral]
  split
  · exact hk
  · rw [List.length_reverse]
    exact (Nat.digits_length_le_iff hb n).mpr h

/-! ## Numerals that are cut -/

theorem numeral_inj {m : ℕ} (h : numeral b m = numeral b n) : m = n := by
  rw [← value_numeral b m, h, value_numeral]

theorem numeral_mul (hb : 1 < b) (hn : 0 < n) : numeral b (n * b) = numeral b n ++ [0] := by
  have hdiv : n * b / b = n := Nat.mul_div_cancel n (Nat.lt_trans Nat.zero_lt_one hb)
  rw [numeral_of_div_ne_zero hb (by omega), hdiv, Nat.mul_mod_left]

theorem length_numeral_pow (hb : 1 < b) (d : ℕ) : (numeral b (b ^ d)).length = d + 1 := by
  induction d with
  | zero => rw [Nat.pow_zero, numeral_of_lt hb, List.length_singleton]
  | succ d ih =>
    rw [Nat.pow_succ, numeral_mul hb (Nat.pow_pos (by omega)), List.length_append, ih,
      List.length_singleton]

/-- A power is cut to the power before it. -/
theorem take_numeral_pow (hb : 1 < b) (d : ℕ) :
    (numeral b (b ^ (d + 1))).take (d + 1) = (numeral b (b ^ d)).take (d + 1) := by
  rw [Nat.pow_succ, numeral_mul hb (Nat.pow_pos (by omega)),
    List.take_append_of_le_length (Nat.le_of_eq (length_numeral_pow hb d).symm)]

/-- The numerals of the first numbers stay apart when they are cut to some digits exactly when none
of them has more, or there is only one. -/
theorem nodup_take_iff (hb : 1 < b) (d n : ℕ) :
    ((List.range n).map fun k ↦ (numeral b (k + 1)).take d).Nodup ↔ n < b ^ d ∨ n ≤ 1 := by
  rw [List.nodup_map_iff_inj_on List.nodup_range]
  constructor
  · intro hinj
    by_contra hmany
    obtain ⟨hpow, hone⟩ := not_or.mp hmany
    cases d with
    | zero =>
      have h := hinj 0 (List.mem_range.mpr (by omega)) 1 (List.mem_range.mpr (by omega)) rfl
      omega
    | succ d =>
      have hlow : 0 < b ^ d := Nat.pow_pos (by omega)
      have hlt : b ^ d < b ^ (d + 1) := Nat.pow_lt_pow_right hb (Nat.lt_succ_self d)
      have hcut := take_numeral_pow hb d
      have h := hinj (b ^ (d + 1) - 1) (List.mem_range.mpr (by omega)) (b ^ d - 1)
        (List.mem_range.mpr (by omega))
      rw [Nat.sub_add_cancel (by omega), Nat.sub_add_cancel (by omega)] at h
      have heq := h hcut
      omega
  · rintro (hfew | hone) i hi j hj heq
    · have hi' := List.mem_range.mp hi
      have hj' := List.mem_range.mp hj
      have hd : 0 < d := by
        rcases Nat.eq_zero_or_pos d with rfl | hd
        · rw [Nat.pow_zero] at hfew
          omega
        · exact hd
      rw [List.take_of_length_le (length_numeral_le hb hd (by omega)),
        List.take_of_length_le (length_numeral_le hb hd (by omega))] at heq
      exact Nat.succ.inj (numeral_inj heq)
    · have hi' := List.mem_range.mp hi
      have hj' := List.mem_range.mp hj
      omega

/-! ## Texts -/

/-- Reads a text all of whose characters are digits. -/
def parse (b : ℕ) (read : α → Option ℕ) (text : List α) : Option ℕ := do
  let ds ← text.mapM read
  if ds = [] then none else some (value b ds)

theorem mapM_read {read : α → Option ℕ} {write : ℕ → α} (hread : ∀ d < b, read (write d) = some d)
    (hlt : ∀ d ∈ ds, d < b) : (ds.map write).mapM read = some ds := by
  induction ds with
  | nil => rfl
  | cons d ds ih =>
    have hd := hread d (hlt d List.mem_cons_self)
    have hds := ih fun e he ↦ hlt e (List.mem_cons_of_mem d he)
    rw [List.map_cons, List.mapM_cons, hd, hds]
    rfl

/-- Digits are read as what they stand for. -/
theorem parse_map {read : α → Option ℕ} {write : ℕ → α}
    (hread : ∀ d < b, read (write d) = some d) (hne : ds ≠ []) (hlt : ∀ d ∈ ds, d < b) :
    parse b read (ds.map write) = some (value b ds) := by
  rw [parse, mapM_read hread hlt]
  change (if ds = [] then none else some (value b ds)) = some (value b ds)
  rw [if_neg hne]

/-- A numeral is read as its number. -/
theorem parse_numeral {read : α → Option ℕ} {write : ℕ → α} (hb : 1 < b)
    (hread : ∀ d < b, read (write d) = some d) (n : ℕ) :
    parse b read ((numeral b n).map write) = some n := by
  have hcanonical := canonical_numeral hb n
  rw [parse_map hread hcanonical.ne_nil hcanonical.lt, value_numeral]

/-- Numerals that are cut are the same as texts when they are the same. -/
theorem take_map_eq_iff {read : α → Option ℕ} {write : ℕ → α} (hb : 1 < b)
    (hread : ∀ d < b, read (write d) = some d) (d m n : ℕ) :
    ((numeral b m).map write).take d = ((numeral b n).map write).take d ↔
      (numeral b m).take d = (numeral b n).take d := by
  have hlt (m : ℕ) : ∀ e ∈ (numeral b m).take d, e < b :=
    fun e he ↦ (canonical_numeral hb m).lt e (List.mem_of_mem_take he)
  rw [← List.map_take, ← List.map_take]
  constructor
  · intro h
    have hm := mapM_read hread (hlt m)
    rw [h, mapM_read hread (hlt n)] at hm
    exact (Option.some.inj hm).symm
  · intro h
    rw [h]

/-- The texts of the first numbers, cut to some characters. -/
theorem nodup_take_map_iff {read : α → Option ℕ} {write : ℕ → α} (hb : 1 < b)
    (hread : ∀ d < b, read (write d) = some d) (d n : ℕ) :
    ((List.range n).map fun k ↦ ((numeral b (k + 1)).map write).take d).Nodup ↔
      n < b ^ d ∨ n ≤ 1 := by
  rw [← nodup_take_iff hb d n, List.nodup_map_iff_inj_on List.nodup_range,
    List.nodup_map_iff_inj_on List.nodup_range]
  simp only [take_map_eq_iff hb hread]

end Numeral

end Machine
