import Mathlib.Tactic.IntervalCases
import Twnl.Fault
import Twnl.Kernel
import Twnl.Machine.Numeral
import Twnl.Machine.Window

/-!
# The rendering of integers

`convert` and `convertHex` write an integer as text into a memory: the digits by division, the
last one first, then the sign and the terminator, and at last the text is reversed in its place.

## Negative values

The division of the source truncates, so the remainders of a negative value are negative. They
are looked up in a table that has the digits on both sides of its middle, and no value is ever
negated, as the least one could not be.
-/

namespace Twnl

namespace Log

open Machine Numeral

/-! ## The types -/

/-- The integer types of the source, with `long` and pointers of 64 bits. -/
inductive IntType
  | short
  | unsignedShort
  | int
  | unsignedInt
  | long
  | unsignedLong
  | longLong
  | unsignedLongLong
  deriving DecidableEq, Repr

namespace IntType

def bits : IntType → ℕ
  | short | unsignedShort => 16
  | int | unsignedInt => 32
  | long | unsignedLong | longLong | unsignedLongLong => 64

def signed : IntType → Bool
  | short | int | long | longLong => true
  | unsignedShort | unsignedInt | unsignedLong | unsignedLongLong => false

/-- `std::numeric_limits<T>::min()`. -/
def min (T : IntType) : ℤ := if T.signed then -2 ^ (T.bits - 1) else 0

/-- `std::numeric_limits<T>::max()`. -/
def max (T : IntType) : ℤ := if T.signed then 2 ^ (T.bits - 1) - 1 else 2 ^ T.bits - 1

/-- A value of the type. -/
@[ext] structure Value (T : IntType) where
  val : ℤ
  min_le : T.min ≤ val
  le_max : val ≤ T.max
  deriving DecidableEq, Repr

end IntType

/-- `uintptr_t`. -/
abbrev Uintptr := IntType.Value .unsignedLong

/-! ## The memory -/

/-- The bytes of a text. -/
def ascii (s : String) : List Byte := s.toList.map Char.toUInt8

/-- `*p = c`. -/
def store (mem : List Byte) (p : ℕ) (c : Byte) : Except Fault (List Byte) :=
  if p < mem.length then .ok (mem.writeAt p [c]) else .error .outOfBounds

/-- `std::reverse(first, last)`. -/
def reverse (mem : List Byte) (first last : ℕ) : List Byte :=
  mem.writeAt first (mem.window first last).reverse

theorem store_ok {mem : List Byte} {p : ℕ} (h : p < mem.length) (c : Byte) :
    store mem p c = .ok (mem.writeAt p [c]) := if_pos h

/-! ## The functions -/

/-- The digits on both sides of a zero, and the terminator. -/
def digits : List Byte := ascii "9876543210123456789" ++ [0]

/-- `zero[lsd]`, where `zero` points to the middle of `digits`. -/
def zero (lsd : ℤ) : Except Fault Byte :=
  if 0 ≤ 9 + lsd then
    match digits[(9 + lsd).toNat]? with
    | some c => .ok c
    | none => .error .outOfBounds
  else .error .outOfBounds

/-- `digitsHex[lsd]`. -/
def digitsHex (lsd : ℤ) : Except Fault Byte :=
  if 0 ≤ lsd then
    match (ascii "0123456789ABCDEF" ++ [0])[lsd.toNat]? with
    | some c => .ok c
    | none => .error .outOfBounds
  else .error .outOfBounds

/-- The loop of both functions, from `p` on and over what is left of the value. It gives the
memory and `p` at its end. -/
def digitLoop (base : ℕ) (table : ℤ → Except Fault Byte) :
    ℕ → List Byte → ℕ → ℤ → Except Fault (List Byte × ℕ)
  | 0, _, _, _ => .error .divergence
  | fuel + 1, mem, p, i => do
    let c ← table (i.tmod base)
    let mem ← store mem p c
    if i.tdiv base ≠ 0 then digitLoop base table fuel mem (p + 1) (i.tdiv base)
    else .ok (mem, p + 1)

/-- The last lines of both functions. -/
def terminate (mem : List Byte) (buf p : ℕ) : Except Fault (List Byte × ℕ) := do
  let mem ← store mem p 0
  .ok (reverse mem buf p, p - buf)

/-- Writes the value in decimals from `buf` on, and gives the length of the text. -/
def convert {T : IntType} (mem : List Byte) (buf : ℕ) (value : T.Value) :
    Except Fault (List Byte × ℕ) := do
  let (mem, p) ← digitLoop 10 zero (value.val.natAbs + 1) mem buf value.val
  if value.val < 0 then do
    let mem ← store mem p '-'.toUInt8
    terminate mem buf (p + 1)
  else terminate mem buf p

/-- Writes the value in hexadecimals from `buf` on, and gives the length of the text. -/
def convertHex (mem : List Byte) (buf : ℕ) (value : Uintptr) : Except Fault (List Byte × ℕ) := do
  let (mem, p) ← digitLoop 16 digitsHex (value.val.natAbs + 1) mem buf value.val
  terminate mem buf p

/-! ## Texts -/

/-- The character of a digit. -/
def digitByte (d : ℕ) : Byte := if d < 10 then 48 + d.toUInt8 else 55 + d.toUInt8

/-- The digit that a character is, below the base. -/
def readDigit (b : ℕ) (c : Byte) : Option ℕ := (List.range b).find? (digitByte · = c)

/-- The text of an integer in decimals. -/
def decimal (v : ℤ) : List Byte :=
  (if v < 0 then ['-'.toUInt8] else []) ++ (numeral 10 v.natAbs).map digitByte

/-- The text of a number in hexadecimals. -/
def hexadecimal (n : ℕ) : List Byte := (numeral 16 n).map digitByte

/-- Reads an optional sign and digits. -/
def parseDecimal : List Byte → Option ℤ
  | [] => none
  | c :: text =>
    if c = '-'.toUInt8 then (parse 10 (readDigit 10) text).map fun n : ℕ ↦ -(n : ℤ)
    else (parse 10 (readDigit 10) (c :: text)).map fun n : ℕ ↦ (n : ℤ)

def parseHexadecimal (text : List Byte) : Option ℕ := parse 16 (readDigit 16) text

/-! ## The tables -/

theorem readDigit_ten : ∀ d < 10, readDigit 10 (digitByte d) = some d := by decide

theorem readDigit_sixteen : ∀ d < 16, readDigit 16 (digitByte d) = some d := by decide

theorem digitByte_ne_minus : ∀ d < 10, digitByte d ≠ '-'.toUInt8 := by decide

theorem zero_eq {j : ℤ} (h : j.natAbs < 10) : zero j = .ok (digitByte j.natAbs) := by
  have hlo : -9 ≤ j := by omega
  have hhi : j ≤ 9 := by omega
  interval_cases j <;> rfl

theorem digitsHex_eq {j : ℤ} (hpos : 0 ≤ j) (h : j.natAbs < 16) :
    digitsHex j = .ok (digitByte j.natAbs) := by
  have hhi : j ≤ 15 := by omega
  interval_cases j <;> rfl

/-! ## The loop -/

section Loop

variable {b : ℕ} {table : ℤ → Except Fault Byte} {mem : List Byte}

theorem natAbs_tdiv (i : ℤ) (b : ℕ) : (i.tdiv b).natAbs = i.natAbs / b := Int.natAbs_tdiv i b

theorem natAbs_tmod (i : ℤ) (b : ℕ) : (i.tmod b).natAbs = i.natAbs % b := Int.natAbs_tmod i b

/-- The loop ends, and leaves the digits from the back. The table is only asked for remainders
that are not negative unless the value is. -/
theorem digitLoop_eq (hb : 1 < b) {fuel p : ℕ} {i : ℤ} (hfuel : i.natAbs < fuel)
    (htable : ∀ j : ℤ, j.natAbs < b → (0 ≤ i → 0 ≤ j) → table j = .ok (digitByte j.natAbs))
    (hroom : p + (numeral b i.natAbs).length ≤ mem.length) :
    digitLoop b table fuel mem p i =
      .ok (mem.writeAt p ((numeral b i.natAbs).map digitByte).reverse,
        p + (numeral b i.natAbs).length) := by
  induction fuel generalizing mem p i with
  | zero => exact absurd hfuel (Nat.not_lt_zero _)
  | succ fuel ih =>
    have hmod : (i.tmod b).natAbs = i.natAbs % b := natAbs_tmod i b
    have hdiv : (i.tdiv b).natAbs = i.natAbs / b := natAbs_tdiv i b
    have hchar : table (i.tmod b) = .ok (digitByte (i.natAbs % b)) := by
      rw [← hmod]
      refine htable _ ?_ fun hi ↦ Int.tmod_nonneg _ hi
      rw [hmod]
      exact Nat.mod_lt _ (Nat.lt_trans Nat.zero_lt_one hb)
    rw [digitLoop, hchar, bind_ok]
    by_cases hzero : i.natAbs / b = 0
    · -- the last digit, which is the whole of what is left
      have hlt : i.natAbs < b := by
        rcases Nat.div_eq_zero_iff.mp hzero with hb' | hlt
        · omega
        · exact hlt
      have hend : i.tdiv b = 0 := Int.natAbs_eq_zero.mp (hdiv.trans hzero)
      rw [numeral_of_lt hlt] at hroom ⊢
      rw [store_ok hroom, bind_ok, if_neg (not_not.mpr hend), Nat.mod_eq_of_lt hlt]
      rfl
    · have hmore : i.tdiv b ≠ 0 := by
        intro hend
        rw [hend] at hdiv
        exact hzero hdiv.symm
      have hless : i.natAbs / b < i.natAbs := by
        refine Nat.div_lt_self (Nat.pos_of_ne_zero fun hi ↦ hzero ?_) hb
        rw [hi, Nat.zero_div]
      rw [numeral_of_div_ne_zero hb hzero] at hroom ⊢
      rw [List.length_append, List.length_singleton] at hroom
      rw [store_ok (by omega), bind_ok, if_pos hmore, ih (by omega) ?_ ?_, hdiv]
      · have hwrite : (mem.writeAt p [digitByte (i.natAbs % b)]).writeAt (p + 1)
            ((numeral b (i.natAbs / b)).map digitByte).reverse =
              mem.writeAt p ([digitByte (i.natAbs % b)] ++
                ((numeral b (i.natAbs / b)).map digitByte).reverse) :=
          List.writeAt_writeAt_append (by rw [List.length_singleton]; omega) _
        rw [hwrite, List.map_append, List.reverse_append, List.length_append,
          List.length_singleton, Nat.add_right_comm, Nat.add_assoc]
        rfl
      · intro j hj hpos
        exact htable j hj fun hi ↦ hpos (Int.tdiv_nonneg hi (Int.natCast_nonneg b))
      · rw [hdiv, List.length_writeAt (by rw [List.length_singleton]; omega)]
        omega

/-- What stands from `buf` on is reversed behind a terminator. -/
theorem terminate_eq {buf : ℕ} {text : List Byte} (hroom : buf + text.length < mem.length) :
    terminate (mem.writeAt buf text) buf (buf + text.length) =
      .ok (mem.writeAt buf (text.reverse ++ [0]), text.length) := by
  have hlen : (mem.writeAt buf text).length = mem.length := List.length_writeAt hroom.le
  rw [terminate, store_ok (by rw [hlen]; exact hroom), bind_ok,
    List.writeAt_writeAt_append hroom.le, reverse,
    List.window_writeAt_self (by omega), List.writeAt_writeAt_front (by omega)
    (List.length_reverse), Nat.add_sub_cancel_left]

end Loop

/-! ## What is written -/

/-- The call writes the text and a terminator, wherever there is room for them, and gives the length
of the text. -/
def Writes (call : List Byte → ℕ → Except Fault (List Byte × ℕ)) (text : List Byte) : Prop :=
  ∀ mem buf, buf + text.length < mem.length →
    call mem buf = .ok (mem.writeAt buf (text ++ [0]), text.length)

theorem convert_writes {T : IntType} (value : T.Value) :
    Writes (fun mem buf ↦ convert mem buf value) (decimal value.val) := by
  intro mem buf hroom
  have hloop : buf + (numeral 10 value.val.natAbs).length ≤ mem.length →
      digitLoop 10 zero (value.val.natAbs + 1) mem buf value.val =
        .ok (mem.writeAt buf ((numeral 10 value.val.natAbs).map digitByte).reverse,
          buf + (numeral 10 value.val.natAbs).length) :=
    digitLoop_eq (by decide) (Nat.lt_succ_self _) fun j hj _ ↦ zero_eq hj
  generalize hds : (numeral 10 value.val.natAbs).map digitByte = ds at hloop
  have hrev : ds.reverse.length = ds.length := List.length_reverse
  have hlen : (numeral 10 value.val.natAbs).length = ds.reverse.length := by
    rw [hrev, ← hds, List.length_map]
  rw [hlen] at hloop
  rw [decimal, hds] at hroom ⊢
  rw [List.length_append, ← hrev] at hroom
  simp only [convert]
  rw [hloop (by omega), bind_ok]
  by_cases hneg : value.val < 0
  · -- the sign goes behind the digits, and comes to stand in front of them
    have hone : (['-'.toUInt8] : List Byte).length = 1 := rfl
    rw [if_pos hneg, hone] at hroom
    have hroom' : buf + (ds.reverse ++ ['-'.toUInt8]).length < mem.length := by
      rw [List.length_append, hone]
      omega
    simp only [if_pos hneg]
    rw [store_ok (by rw [List.length_writeAt (by omega)]; omega), bind_ok,
      List.writeAt_writeAt_append (by omega), Nat.add_assoc, ← hone, ← List.length_append,
      terminate_eq hroom']
    simp
  · simp only [if_neg hneg]
    rw [terminate_eq (by omega), List.reverse_reverse, List.length_reverse, List.nil_append]

theorem convertHex_writes (value : Uintptr) :
    Writes (fun mem buf ↦ convertHex mem buf value) (hexadecimal value.val.natAbs) := by
  intro mem buf hroom
  rw [hexadecimal] at hroom ⊢
  have hlen : (numeral 16 value.val.natAbs).length =
      ((numeral 16 value.val.natAbs).map digitByte).reverse.length := by
    rw [List.length_reverse, List.length_map]
  rw [← List.length_reverse, ← hlen] at hroom
  have hloop : digitLoop 16 digitsHex (value.val.natAbs + 1) mem buf value.val =
      .ok (mem.writeAt buf ((numeral 16 value.val.natAbs).map digitByte).reverse,
        buf + (numeral 16 value.val.natAbs).length) :=
    digitLoop_eq (by decide) (Nat.lt_succ_self _)
      (fun j hj hpos ↦ digitsHex_eq (hpos value.min_le) hj) hroom.le
  simp only [convertHex]
  rw [hloop, bind_ok, hlen, terminate_eq (by rw [← hlen]; exact hroom), List.reverse_reverse,
    List.length_reverse]

/-- The text of a value: a sign if it is negative, and behind it canonical digits. -/
def DecimalText (v : ℤ) (text : List Byte) : Prop :=
  ∃ ds, Canonical 10 ds ∧
    text = (if v < 0 then ['-'.toUInt8] else []) ++ ds.map digitByte

theorem decimalText_decimal (v : ℤ) : DecimalText v (decimal v) :=
  ⟨_, canonical_numeral (by decide) _, rfl⟩

/-- No integer type has more digits than the longest of them. -/
theorem length_decimal_le {T : IntType} (value : T.Value) : (decimal value.val).length ≤ 20 := by
  have hmin : -2 ^ 63 ≤ value.val := by
    have := value.min_le
    cases T <;> simp [IntType.min, IntType.signed, IntType.bits] at this <;> omega
  have hmax : value.val ≤ 2 ^ 64 - 1 := by
    have := value.le_max
    cases T <;> simp [IntType.max, IntType.signed, IntType.bits] at this <;> omega
  rw [decimal, List.length_append, List.length_map]
  split
  · rw [List.length_singleton]
    have := length_numeral_le (b := 10) (k := 19) (n := value.val.natAbs) (by decide) (by decide)
      (by omega)
    omega
  · rw [List.length_nil, Nat.zero_add]
    exact length_numeral_le (by decide) (by decide) (by omega)

theorem length_hexadecimal_le (value : Uintptr) :
    (hexadecimal value.val.natAbs).length ≤ 16 := by
  have hmin : 0 ≤ value.val := value.min_le
  have hmax : value.val ≤ 2 ^ 64 - 1 := value.le_max
  rw [hexadecimal, List.length_map]
  exact length_numeral_le (by decide) (by decide) (by omega)

/-- A sign and canonical digits are read as what they stand for. -/
theorem parseDecimal_text (v : ℤ) {ds : List ℕ} (h : Canonical 10 ds) :
    parseDecimal ((if v < 0 then ['-'.toUInt8] else []) ++ ds.map digitByte) =
      some (if v < 0 then -(value 10 ds : ℤ) else value 10 ds) := by
  have hparse : parse 10 (readDigit 10) (ds.map digitByte) = some (value 10 ds) :=
    parse_map readDigit_ten h.ne_nil h.lt
  by_cases hneg : v < 0
  · simp only [if_pos hneg]
    rw [List.singleton_append, parseDecimal, if_pos rfl, hparse, Option.map_some]
  · simp only [if_neg hneg]
    rw [List.nil_append]
    -- the first character is a digit, so it is not the sign
    cases ds with
    | nil => exact absurd rfl h.ne_nil
    | cons d ds =>
      have hd : digitByte d ≠ '-'.toUInt8 := digitByte_ne_minus d (h.lt d List.mem_cons_self)
      rw [List.map_cons] at hparse ⊢
      rw [parseDecimal, if_neg hd, hparse, Option.map_some]

theorem parseDecimal_decimal (v : ℤ) : parseDecimal (decimal v) = some v := by
  rw [decimal, parseDecimal_text v (canonical_numeral (by decide) _), value_numeral]
  split <;> exact congrArg some (by omega)

/-- No other text of a value is read as it. -/
theorem DecimalText.eq_decimal {v : ℤ} {text : List Byte} (h : DecimalText v text)
    (hparse : parseDecimal text = some v) : text = decimal v := by
  obtain ⟨ds, hds, rfl⟩ := h
  rw [parseDecimal_text v hds, Option.some.injEq] at hparse
  have hvalue : v.natAbs = value 10 ds := by
    split at hparse <;> omega
  rw [decimal, hvalue, hds.numeral_value (by decide)]

theorem parseHexadecimal_hexadecimal (n : ℕ) : parseHexadecimal (hexadecimal n) = some n :=
  parse_numeral (by decide) readDigit_sixteen n

/-- Every value of every integer type is written as its canonical numeral, in at most twenty
characters, from which it can be read back, and every address in at most sixteen. -/
theorem renders :
    (∀ (T : IntType) (value : T.Value), ∃ text,
      Writes (fun mem buf ↦ convert mem buf value) text ∧ DecimalText value.val text ∧
        text.length ≤ 20 ∧ parseDecimal text = some value.val) ∧
    ∀ value : Uintptr, ∃ text,
      Writes (fun mem buf ↦ convertHex mem buf value) text ∧
        (∃ ds, Canonical 16 ds ∧ text = ds.map digitByte) ∧
        text.length ≤ 16 ∧ parseHexadecimal text = some value.val.natAbs := by
  constructor
  · intro T value
    refine ⟨decimal value.val, convert_writes value, decimalText_decimal _, ?_, ?_⟩
    · exact length_decimal_le value
    · exact parseDecimal_decimal value.val
  · intro value
    refine ⟨hexadecimal value.val.natAbs, convertHex_writes value, ?_, ?_, ?_⟩
    · exact ⟨_, canonical_numeral (by decide) _, rfl⟩
    · exact length_hexadecimal_le value
    · exact parseHexadecimal_hexadecimal _

example : convert (List.replicate 21 0) 0 (⟨-2 ^ 63, by decide, by decide⟩ : IntType.Value .long) =
    .ok (ascii "-9223372036854775808" ++ [0], 20) := by rfl

end Log

end Twnl
