import Mathlib.Data.List.TakeWhile
import Mathlib.Data.UInt
import Twnl.Kernel
import Twnl.Machine.Fields
import Twnl.Machine.Numeral
import Twnl.Printf

/-!
# Addresses as texts

`inet_ntop` and `inet_pton` for both families. An address of four bytes is four decimal numbers
between dots. One of sixteen bytes is eight hexadecimal groups between colons, in which the longest
run of zero groups is left out, with nothing between two colons in its place; the last two groups of
some are an address of four bytes.

The text of an address is read as that address (`inetPton4_inetNtop4`, `inetPton6_inetNtop6`).
-/

namespace Twnl

open Machine Fields Numeral

/-! ## The order of the network -/

/-- The bytes of a number as they are in memory. -/
def htobe16 (n : UInt16) : Byte × Byte := (UInt8.ofNat (n.toNat / 256), UInt8.ofNat n.toNat)

def be16toh (bytes : Byte × Byte) : UInt16 :=
  UInt16.ofNat (256 * bytes.1.toNat + bytes.2.toNat)

@[simp] theorem be16toh_htobe16 (n : UInt16) : be16toh (htobe16 n) = n := by
  have hlt := n.toNat_lt
  apply UInt16.toNat_inj.mp
  rw [be16toh, htobe16, UInt8.toNat_ofNat', UInt8.toNat_ofNat', UInt16.toNat_ofNat']
  omega

@[simp] theorem htobe16_be16toh (bytes : Byte × Byte) : htobe16 (be16toh bytes) = bytes := by
  have hhi := bytes.1.toNat_lt
  have hlo := bytes.2.toNat_lt
  have hvalue : (be16toh bytes).toNat = 256 * bytes.1.toNat + bytes.2.toNat := by
    rw [be16toh, UInt16.toNat_ofNat']
    omega
  refine Prod.ext ?_ ?_
  · apply UInt8.toNat_inj.mp
    rw [htobe16, hvalue, UInt8.toNat_ofNat']
    omega
  · apply UInt8.toNat_inj.mp
    rw [htobe16, hvalue, UInt8.toNat_ofNat']
    omega

/-! ## Digits -/

/-- `%x`. -/
def hexDigits (n : ℕ) : List Char := (numeral 16 n).map Nat.digitChar

/-- What a character stands for as a digit, in lower or in upper case. -/
def digitOf (b : ℕ) (c : Char) : Option ℕ :=
  (List.range b).find? fun d ↦ Nat.digitChar d = c ∨ (Nat.digitChar d).toUpper = c

theorem digitOf_ten : ∀ d < 10, digitOf 10 (Nat.digitChar d) = some d := by decide

theorem digitOf_sixteen : ∀ d < 16, digitOf 16 (Nat.digitChar d) = some d := by decide

theorem decimalDigits_eq (n : ℕ) : decimalDigits n = (numeral 10 n).map Nat.digitChar := by
  rw [decimalDigits, numeral]
  split
  · rfl
  · rfl

/-- A character that is no digit is not in a text of digits. -/
theorem notMem_digits {b n : ℕ} {c : Char} (hb : 1 < b) (hc : ∀ d < b, Nat.digitChar d ≠ c) :
    c ∉ (numeral b n).map Nat.digitChar := by
  intro hmem
  obtain ⟨d, hd, hdc⟩ := List.mem_map.mp hmem
  exact hc d ((canonical_numeral hb n).lt d hd) hdc

theorem notMem_decimalDigits {c : Char} (hc : ∀ d < 10, Nat.digitChar d ≠ c) (n : ℕ) :
    c ∉ decimalDigits n := by
  rw [decimalDigits_eq]
  exact notMem_digits (by decide) hc

theorem notMem_hexDigits {c : Char} (hc : ∀ d < 16, Nat.digitChar d ≠ c) (n : ℕ) :
    c ∉ hexDigits n :=
  notMem_digits (by decide) hc

theorem hexDigits_ne_nil (n : ℕ) : hexDigits n ≠ [] := by
  intro hnil
  exact (canonical_numeral (by decide : 1 < 16) n).ne_nil (List.map_eq_nil_iff.mp hnil)

/-! ## Four bytes -/

/-- A decimal number up to 255 with no zero in front. -/
def octetOf (field : List Char) : Option Byte := do
  let n ← parse 10 (digitOf 10) field
  if n < 256 ∧ decimalDigits n = field then some (UInt8.ofNat n) else none

def octetText (b : Byte) : List Char := decimalDigits b.toNat

def inetNtop4 (addr : Vector Byte 4) : List Char := ['.'].intercalate (addr.toList.map octetText)

def inetPton4 (text : List Char) : Option (Vector Byte 4) := do
  let octets ← (text.splitOn '.').mapM octetOf
  vectorOf 4 octets

theorem octetOf_octetText (b : Byte) : octetOf (octetText b) = some b := by
  have hparse : parse 10 (digitOf 10) (octetText b) = some b.toNat := by
    rw [octetText, decimalDigits_eq]
    exact parse_numeral (by decide) digitOf_ten _
  rw [octetOf, hparse]
  change (if b.toNat < 256 ∧ octetText b = octetText b then _ else _) = _
  rw [if_pos ⟨b.toNat_lt, rfl⟩, UInt8.ofNat_toNat]

/-- The fields of an address are those between its dots. -/
theorem splitOn_inetNtop4 (addr : Vector Byte 4) :
    (inetNtop4 addr).splitOn '.' = addr.toList.map octetText := by
  refine List.splitOn_intercalate '.' ?_ ?_
  · intro field hmem
    obtain ⟨b, -, rfl⟩ := List.mem_map.mp hmem
    exact notMem_decimalDigits (by decide) _
  · intro hnil
    have hlength := congrArg List.length hnil
    rw [List.length_map, Vector.length_toList] at hlength
    exact absurd hlength (by decide)

theorem inetPton4_inetNtop4 (addr : Vector Byte 4) : inetPton4 (inetNtop4 addr) = some addr := by
  rw [inetPton4, splitOn_inetNtop4, mapM_map octetOf_octetText]
  exact vectorOf_toList addr

theorem octetText_of_octetOf {field : List Char} {b : Byte} (h : octetOf field = some b) :
    octetText b = field := by
  obtain ⟨n, -, h⟩ := Option.bind_eq_some_iff.mp h
  split at h
  · rename_i hn
    rw [← Option.some.inj h, octetText, UInt8.toNat_ofNat_of_lt' hn.1, hn.2]
  · exact absurd h.symm (Option.some_ne_none b)

/-- There is only one text for an address of four bytes. -/
theorem inetNtop4_of_inetPton4 {text : List Char} {addr : Vector Byte 4}
    (h : inetPton4 text = some addr) : inetNtop4 addr = text := by
  obtain ⟨octets, hoctets, h⟩ := Option.bind_eq_some_iff.mp h
  rw [inetNtop4, toList_of_vectorOf h,
    map_of_mapM (fun _ _ hread ↦ octetText_of_octetOf hread) hoctets, List.intercalate_splitOn]

/-! ## Sixteen bytes -/

/-- A group of up to four hexadecimal digits. -/
def groupOf (field : List Char) : Option UInt16 :=
  if field.length ≤ 4 then (parse 16 (digitOf 16) field).map UInt16.ofNat else none

def groupText (group : UInt16) : List Char := hexDigits group.toNat

/-- Two groups as four bytes. -/
def octets (hi lo : UInt16) : Vector Byte 4 :=
  #v[(htobe16 hi).1, (htobe16 hi).2, (htobe16 lo).1, (htobe16 lo).2]

/-- Four bytes as two groups. -/
def groups (addr : Vector Byte 4) : List UInt16 :=
  [be16toh (addr[0], addr[1]), be16toh (addr[2], addr[3])]

/-- How many groups are zero from a place on. -/
def zerosAt (addr : List UInt16) (base : ℕ) : ℕ := ((addr.drop base).takeWhile (· = 0)).length

/-- The longest run of zero groups, the first of those that are as long: its place and length. -/
def longestRun (addr : List UInt16) : ℕ × ℕ :=
  (List.range 8).foldl (fun best base ↦
    if best.2 < zerosAt addr base then (base, zerosAt addr base) else best) (0, 0)

/-- The fields behind the gap. Where all in front of the last two groups is zero, or zero up to a
last group of ones, the two are written as four bytes. -/
def fieldsBehind (base : ℕ) : List UInt16 → List (List Char)
  | [hi, lo] =>
    if base = 0 then [inetNtop4 (octets hi lo)] else [groupText hi, groupText lo]
  | [group, hi, lo] =>
    if base = 0 ∧ group = 0xffff then [groupText group, inetNtop4 (octets hi lo)]
    else [groupText group, groupText hi, groupText lo]
  | rest => rest.map groupText

/-- A side of the gap that has no fields has an empty one. -/
def side (fields : List (List Char)) : List (List Char) := if fields = [] then [[]] else fields

/-- The fields between the colons, where a run of several zero groups is left out. -/
def fieldsOf (base len : ℕ) (addr : List UInt16) : List (List Char) :=
  if len < 2 then addr.map groupText
  else
    side ((addr.take base).map groupText) ++
      [] :: side (fieldsBehind base (addr.drop (base + len)))

def inetNtop6 (addr : Vector UInt16 8) : List Char :=
  let run := longestRun addr.toList
  [':'].intercalate (fieldsOf run.1 run.2 addr.toList)

/-! ## Reading sixteen bytes -/

/-- The groups of fields of which the last may be an address of four bytes. -/
def groupsOf : List (List Char) → Option (List UInt16)
  | [] => none
  | [field] =>
    if '.' ∈ field then (inetPton4 field).map groups else (groupOf field).map ([·])
  | field :: fields => do
    let group ← groupOf field
    let rest ← groupsOf fields
    some (group :: rest)

/-- The groups behind the gap. -/
def readBehind (behind : List (List Char)) : Option (List UInt16) :=
  if behind = [[]] then some [] else groupsOf behind

/-- Zero groups take the place of the gap, which stands for one at least. -/
def expand (front behind : List (List Char)) : Option (List UInt16) := do
  let pre ← front.mapM groupOf
  let rest ← readBehind behind
  if pre.length + rest.length < 8 then
    some (pre ++ List.replicate (8 - (pre.length + rest.length)) 0 ++ rest)
  else none

/-- What the fields between the colons are read as. Those in front of the first empty one are in
front of the gap, and a gap that nothing is in front of is two empty fields. -/
def readFields (fields : List (List Char)) : Option (List UInt16) :=
  match fields.takeWhile (· ≠ []), fields.dropWhile (· ≠ []) with
  | front, [] => groupsOf front
  | [], _ :: [] :: behind => expand [] behind
  | [], _ => none
  | front, _ :: behind => expand front behind

def inetPton6 (text : List Char) : Option (Vector UInt16 8) := do
  let addr ← readFields (text.splitOn ':')
  vectorOf 8 addr

/-! ## The groups -/

theorem length_groupText_le (group : UInt16) : (groupText group).length ≤ 4 := by
  rw [groupText, hexDigits, List.length_map]
  exact length_numeral_le (by decide) (by decide) group.toNat_lt

theorem groupOf_groupText (group : UInt16) : groupOf (groupText group) = some group := by
  rw [groupOf, if_pos (length_groupText_le group), groupText, hexDigits,
    parse_numeral (by decide) digitOf_sixteen, Option.map_some, UInt16.ofNat_toNat]

theorem groups_octets (hi lo : UInt16) : groups (octets hi lo) = [hi, lo] := by
  change [be16toh (htobe16 hi), be16toh (htobe16 lo)] = [hi, lo]
  rw [be16toh_htobe16, be16toh_htobe16]

theorem dot_mem_inetNtop4 (addr : Vector Byte 4) : '.' ∈ inetNtop4 addr := by
  by_contra hdot
  have hlength := congrArg List.length (splitOn_inetNtop4 addr)
  rw [List.splitOn_eq_singleton hdot, List.length_singleton, List.length_map,
    Vector.length_toList] at hlength
  exact absurd hlength (by decide)

theorem dot_notMem_groupText (group : UInt16) : '.' ∉ groupText group :=
  notMem_hexDigits (by decide) _

theorem groupsOf_cons {field : List Char} {fields : List (List Char)} (h : fields ≠ []) :
    groupsOf (field :: fields) = (groupOf field).bind fun group ↦
      (groupsOf fields).bind fun rest ↦ some (group :: rest) := by
  cases fields with
  | nil => exact absurd rfl h
  | cons x xs => rfl

theorem groupsOf_map {rest : List UInt16} (h : rest ≠ []) :
    groupsOf (rest.map groupText) = some rest := by
  induction rest with
  | nil => exact absurd rfl h
  | cons group rest ih =>
    cases rest with
    | nil =>
      rw [List.map_singleton, groupsOf, if_neg (dot_notMem_groupText group), groupOf_groupText]
      rfl
    | cons next rest =>
      rw [List.map_cons, groupsOf_cons (by simp), groupOf_groupText, ih (by simp)]
      rfl

theorem groupsOf_octets (hi lo : UInt16) :
    groupsOf [inetNtop4 (octets hi lo)] = some [hi, lo] := by
  rw [groupsOf, if_pos (dot_mem_inetNtop4 _), inetPton4_inetNtop4, Option.map_some, groups_octets]

theorem groupsOf_fieldsBehind (base : ℕ) {rest : List UInt16} (h : rest ≠ []) :
    groupsOf (fieldsBehind base rest) = some rest := by
  fun_cases fieldsBehind base rest with
  | case1 hi lo => exact groupsOf_octets hi lo
  | case2 hi lo => exact groupsOf_map h
  | case3 group hi lo hbase =>
    rw [groupsOf_cons (by simp), groupOf_groupText, groupsOf_octets]
    rfl
  | case4 group hi lo hbase => exact groupsOf_map h
  | case5 => exact groupsOf_map h

/-! ## The gap -/

/-- From that place on so many groups are zero. -/
def IsRun (addr : List UInt16) (base len : ℕ) : Prop :=
  addr.drop base = List.replicate len 0 ++ addr.drop (base + len)

theorem isRun_zerosAt (addr : List UInt16) (base : ℕ) :
    IsRun addr base (zerosAt addr base) := by
  have hsplit : (addr.drop base).takeWhile (· = 0) ++ (addr.drop base).dropWhile (· = 0) =
      addr.drop base := List.takeWhile_append_dropWhile
  have hzero : (addr.drop base).takeWhile (· = 0) = List.replicate (zerosAt addr base) 0 := by
    refine List.eq_replicate_iff.mpr ⟨rfl, fun group hmem ↦ ?_⟩
    simpa using List.mem_takeWhile_imp hmem
  have hdrop : (addr.drop base).dropWhile (· = 0) = addr.drop (base + zerosAt addr base) := by
    rw [← List.drop_drop]
    conv_rhs => rw [← hsplit, hzero]
    exact (List.drop_left' List.length_replicate).symm
  rw [IsRun, ← hzero, ← hdrop, hsplit]

theorem isRun_longestRun (addr : List UInt16) :
    IsRun addr (longestRun addr).1 (longestRun addr).2 := by
  rw [longestRun]
  induction List.range 8 using List.reverseRecOn with
  | nil => rfl
  | append_singleton bases base ih =>
    rw [List.foldl_concat]
    split
    · exact isRun_zerosAt addr base
    · exact ih

theorem length_of_isRun {addr : List UInt16} {base len : ℕ} (h : IsRun addr base len)
    (hlen : 2 ≤ len) (hlength : addr.length = 8) : base + len ≤ 8 := by
  have hcount := congrArg List.length h
  rw [List.length_append, List.length_replicate, List.length_drop, List.length_drop] at hcount
  omega

theorem readBehind_side (base : ℕ) (rest : List UInt16) :
    readBehind (side (fieldsBehind base rest)) = some rest := by
  cases rest with
  | nil => rfl
  | cons group rest =>
    have hread := groupsOf_fieldsBehind base (List.cons_ne_nil group rest)
    have hne : fieldsBehind base (group :: rest) ≠ [] := by
      intro hnil
      rw [hnil] at hread
      exact Option.some_ne_none _ hread.symm
    have hblank : fieldsBehind base (group :: rest) ≠ [[]] := by
      intro hnil
      rw [hnil] at hread
      exact Option.some_ne_none _ hread.symm
    rw [side, if_neg hne, readBehind, if_neg hblank, hread]

/-- The groups in front of the gap, those in it and those behind it. -/
theorem expand_of_isRun {addr : List UInt16} {base len : ℕ} (h : IsRun addr base len)
    (hlen : 2 ≤ len) (hlength : addr.length = 8) :
    expand ((addr.take base).map groupText) (side (fieldsBehind base (addr.drop (base + len)))) =
      some addr := by
  have hle := length_of_isRun h hlen hlength
  have htake : (addr.take base).length = base := List.length_take_of_le (by omega)
  have hzeros : 8 - (base + (8 - (base + len))) = len := by omega
  rw [expand, mapM_map groupOf_groupText, readBehind_side]
  change (if (addr.take base).length + (addr.drop (base + len)).length < 8 then _ else _) = _
  rw [htake, List.length_drop, hlength, if_pos (by omega), Option.some.injEq]
  rw [hzeros, List.append_assoc, ← h, List.take_append_drop]

theorem map_groupText_ne_nil (addr : List UInt16) :
    ∀ field ∈ addr.map groupText, decide (field ≠ []) = true := by
  intro field hmem
  obtain ⟨group, -, rfl⟩ := List.mem_map.mp hmem
  exact decide_eq_true (hexDigits_ne_nil _)

theorem readFields_fieldsOf {addr : List UInt16} {base len : ℕ} (h : IsRun addr base len)
    (hlength : addr.length = 8) : readFields (fieldsOf base len addr) = some addr := by
  rw [fieldsOf]
  split
  · have htake := List.takeWhile_eq_self_iff.mpr (map_groupText_ne_nil addr)
    have hdrop := List.dropWhile_eq_nil_iff.mpr (map_groupText_ne_nil addr)
    rw [readFields, htake, hdrop]
    refine groupsOf_map ?_
    rintro rfl
    exact absurd hlength (by decide)
  · rename_i hlen
    have hexpand := expand_of_isRun h (Nat.le_of_not_lt hlen) hlength
    have hfront := map_groupText_ne_nil (addr.take base)
    cases hpre : (addr.take base).map groupText with
    | nil =>
      rw [hpre] at hexpand
      exact hexpand
    | cons field front =>
      rw [hpre] at hexpand hfront
      rw [side, if_neg (List.cons_ne_nil _ _), readFields, List.takeWhile_append_of_pos hfront,
        List.dropWhile_append_of_pos hfront]
      simpa using hexpand

/-! ## The characters of a text -/

/-- Neither a digit nor a dot. -/
def Separates (c : Char) : Prop := (∀ d < 16, Nat.digitChar d ≠ c) ∧ c ≠ '.'

theorem separates_colon : Separates ':' := ⟨by decide, by decide⟩

theorem notMem_inetNtop4 {c : Char} (h : Separates c) (addr : Vector Byte 4) :
    c ∉ inetNtop4 addr := by
  refine notMem_intercalate h.2 ?_
  intro field hmem
  obtain ⟨b, -, rfl⟩ := List.mem_map.mp hmem
  exact notMem_decimalDigits (fun d hd ↦ h.1 d (Nat.lt_of_lt_of_le hd (by decide))) _

theorem notMem_map_groupText {c : Char} (h : Separates c) (addr : List UInt16) :
    ∀ field ∈ addr.map groupText, c ∉ field := by
  intro field hmem
  obtain ⟨group, -, rfl⟩ := List.mem_map.mp hmem
  exact notMem_hexDigits h.1 _

theorem notMem_fieldsBehind {c : Char} (h : Separates c) (base : ℕ) (rest : List UInt16) :
    ∀ field ∈ fieldsBehind base rest, c ∉ field := by
  have hdotted := notMem_inetNtop4 h
  fun_cases fieldsBehind base rest with
  | case1 hi lo => simpa using hdotted _
  | case2 hi lo => exact notMem_map_groupText h [hi, lo]
  | case3 group hi lo hbase =>
    have hgroup := notMem_map_groupText h [group]
    simp only [List.map_singleton, List.mem_singleton, forall_eq] at hgroup
    simp only [List.mem_cons, List.not_mem_nil, or_false, forall_eq_or_imp, forall_eq]
    exact ⟨hgroup, hdotted _⟩
  | case4 group hi lo hbase => exact notMem_map_groupText h [group, hi, lo]
  | case5 => exact notMem_map_groupText h _

theorem notMem_side {c : Char} {fields : List (List Char)} (h : ∀ field ∈ fields, c ∉ field) :
    ∀ field ∈ side fields, c ∉ field := by
  rw [side]
  split
  · simp
  · exact h

theorem notMem_fieldsOf {c : Char} (h : Separates c) (base len : ℕ) (addr : List UInt16) :
    ∀ field ∈ fieldsOf base len addr, c ∉ field := by
  rw [fieldsOf]
  split
  · exact notMem_map_groupText h addr
  · intro field hmem
    rcases List.mem_append.mp hmem with hmem | hmem
    · exact notMem_side (notMem_map_groupText h _) field hmem
    · rcases List.mem_cons.mp hmem with rfl | hmem
      · exact List.not_mem_nil
      · exact notMem_side (notMem_fieldsBehind h _ _) field hmem

/-- There is at least one colon. -/
theorem two_le_length_fieldsOf (base len : ℕ) {addr : List UInt16} (hlength : addr.length = 8) :
    2 ≤ (fieldsOf base len addr).length := by
  have hside (fields : List (List Char)) : 0 < (side fields).length := by
    rw [side]
    split
    · exact Nat.one_pos
    · rename_i hne
      exact List.length_pos_iff.mpr hne
  rw [fieldsOf]
  split
  · rw [List.length_map, hlength]
    decide
  · have hfront := hside ((addr.take base).map groupText)
    rw [List.length_append, List.length_cons]
    omega

theorem splitOn_inetNtop6 (addr : Vector UInt16 8) : (inetNtop6 addr).splitOn ':' =
    fieldsOf (longestRun addr.toList).1 (longestRun addr.toList).2 addr.toList := by
  refine List.splitOn_intercalate ':' (notMem_fieldsOf separates_colon _ _ _) ?_
  exact List.ne_nil_of_length_pos (Nat.lt_of_lt_of_le Nat.zero_lt_two
    (two_le_length_fieldsOf _ _ addr.length_toList))

theorem inetPton6_inetNtop6 (addr : Vector UInt16 8) : inetPton6 (inetNtop6 addr) = some addr := by
  rw [inetPton6, splitOn_inetNtop6,
    readFields_fieldsOf (isRun_longestRun addr.toList) addr.length_toList]
  exact vectorOf_toList addr

theorem colon_mem_inetNtop6 (addr : Vector UInt16 8) : ':' ∈ inetNtop6 addr := by
  by_contra hcolon
  have hlength := congrArg List.length (splitOn_inetNtop6 addr)
  have htwo := two_le_length_fieldsOf (longestRun addr.toList).1 (longestRun addr.toList).2
    addr.length_toList
  rw [List.splitOn_eq_singleton hcolon, List.length_singleton] at hlength
  omega

/-! ## The length of a text -/

theorem length_octetText_le (b : Byte) : (octetText b).length ≤ 3 := by
  have hlt := b.toNat_lt
  rw [octetText, decimalDigits_eq, List.length_map]
  exact length_numeral_le (by decide) (by decide) (by omega)

theorem length_inetNtop4_le (addr : Vector Byte 4) : (inetNtop4 addr).length ≤ 15 := by
  have hwidth := width_map_le length_octetText_le addr.toList
  rw [Vector.length_toList] at hwidth
  rw [inetNtop4, length_intercalate]
  omega

theorem width_fieldsBehind_le (base : ℕ) (rest : List UInt16) :
    width (fieldsBehind base rest) ≤ 5 * rest.length + 6 := by
  have hmap := width_map_le length_groupText_le rest
  fun_cases fieldsBehind base rest with
  | case1 hi lo =>
    have hdotted := length_inetNtop4_le (octets hi lo)
    simp only [width_cons, width_nil, List.length_cons, List.length_nil]
    omega
  | case2 hi lo => exact Nat.le_add_right_of_le hmap
  | case3 group hi lo hbase =>
    have hdotted := length_inetNtop4_le (octets hi lo)
    have hgroup := length_groupText_le group
    simp only [width_cons, width_nil, List.length_cons, List.length_nil]
    omega
  | case4 group hi lo hbase => exact Nat.le_add_right_of_le hmap
  | case5 => exact Nat.le_add_right_of_le hmap

theorem width_side_le (fields : List (List Char)) : width (side fields) ≤ width fields + 1 := by
  rw [side]
  split
  · exact Nat.le_add_left _ _
  · exact Nat.le_succ _

theorem width_fieldsOf_le {addr : List UInt16} {base len : ℕ} (h : IsRun addr base len)
    (hlength : addr.length = 8) : width (fieldsOf base len addr) ≤ 40 := by
  rw [fieldsOf]
  split
  · have hmap := width_map_le length_groupText_le addr
    omega
  · rename_i hlen
    have hle := length_of_isRun h (Nat.le_of_not_lt hlen) hlength
    have hfront := width_map_le length_groupText_le (addr.take base)
    have hside := width_side_le ((addr.take base).map groupText)
    have hrest := width_fieldsBehind_le base (addr.drop (base + len))
    have hside' := width_side_le (fieldsBehind base (addr.drop (base + len)))
    rw [List.length_take] at hfront
    rw [List.length_drop] at hrest
    rw [width_append, width_cons, List.length_nil]
    omega

theorem length_inetNtop6_le (addr : Vector UInt16 8) : (inetNtop6 addr).length ≤ 39 := by
  have hwidth := width_fieldsOf_le (isRun_longestRun addr.toList) addr.length_toList
  rw [inetNtop6, length_intercalate]
  omega

end Twnl
