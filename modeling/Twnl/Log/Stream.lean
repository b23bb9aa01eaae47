import Twnl.Log.Convert

/-!
# The log stream

The operands of a log statement are written into a buffer of fixed size, one behind the other.
What does not fit is left out without a word: a string needs one byte more than it has, and a
number, which is written in place before the cursor moves, needs 32 bytes whatever its length.

## What comes from outside

The text of a floating-point number is what `snprintf` makes of it, and the text of a thread's id
is what the standard library prints, which is another for another id. Both are parameters.

## Operands

An operand carries what its call relies on: a C string has a terminator, a buffer has its cursor
in its storage, and behind a pointer and a length there are that many bytes.
-/

namespace Twnl

namespace Log

/-! ## The types -/

/-- `static_cast<int>`. -/
def toInt (n : ℤ) : ℤ := n.bmod (2 ^ 32)

/-- The conversion to `size_t`. -/
def toSize (n : ℤ) : ℕ := (n % 2 ^ 64).toNat

theorem toInt_eq {n : ℤ} (hlo : -2 ^ 31 ≤ n) (hhi : n < 2 ^ 31) : toInt n = n :=
  Int.bmod_eq_of_le (by omega) (by omega)

theorem toSize_eq {n : ℕ} (h : n < 2 ^ 64) : toSize n = n := by
  rw [toSize]
  omega

/-- A pointer to characters of which one is the terminator. -/
structure CString where
  storage : List Byte
  terminated : 0 ∈ storage
  deriving DecidableEq, Repr

namespace CString

/-- The characters in front of the terminator. -/
def text (str : CString) : List Byte := str.storage.takeWhile (· ≠ 0)

def strlen (str : CString) : ℕ := str.text.length

/-- A string literal. -/
def literal (s : String) : CString := ⟨ascii s ++ [0], by simp⟩

theorem take_strlen (str : CString) : str.storage.take str.strlen = str.text :=
  List.prefix_iff_eq_take.mp (List.takeWhile_prefix _) |>.symm

theorem strlen_le (str : CString) : str.strlen ≤ str.storage.length :=
  (List.takeWhile_prefix _).length_le

end CString

/-! ## The buffer -/

def kSmallBuffer : ℕ := 4000

/-- The size and what is left of it are an `int`. -/
theorem kSmallBuffer_lt : kSmallBuffer < 2 ^ 31 := by decide

/-- The storage and the cursor, as the distance of `cur_` from `data_`. -/
structure FixedBuffer (SIZE : ℕ) where
  data : List Byte
  cur : ℕ
  deriving DecidableEq, Repr

/-- `memcpy(cur, buf, len)`. -/
def memcpy (data : List Byte) (cur : ℕ) (buf : List Byte) (len : ℕ) : Except Fault (List Byte) :=
  if len ≤ buf.length ∧ cur + len ≤ data.length then .ok (data.writeAt cur (buf.take len))
  else .error .outOfBounds

namespace FixedBuffer

variable {SIZE : ℕ} (b : FixedBuffer SIZE)

def length : ℤ := toInt b.cur

def avail : ℤ := toInt (SIZE - b.cur)

def add (len : ℕ) : FixedBuffer SIZE := { b with cur := b.cur + len }

/-- Left out when it does not fit. -/
def append (buf : List Byte) (len : ℕ) : Except Fault (FixedBuffer SIZE) :=
  if len < toSize b.avail then do
    let data ← memcpy b.data b.cur buf len
    .ok ({ b with data := data }.add len)
  else .ok b

/-- Puts a terminator behind the content. -/
def debugString : Except Fault (FixedBuffer SIZE) := do
  let data ← store b.data b.cur 0
  .ok { b with data := data }

/-- A copy of the content. -/
def toString : Except Fault (List Byte) :=
  if toSize b.length ≤ b.data.length then .ok (b.data.take (toSize b.length))
  else .error .outOfBounds

/-- What was put into the buffer. -/
def content : List Byte := b.data.take b.cur

/-- The cursor is in the storage or at its end. -/
structure Within : Prop where
  size : b.data.length = SIZE
  le : b.cur ≤ SIZE

/-- There is room for a terminator. -/
structure Fits : Prop where
  size : b.data.length = SIZE
  lt : b.cur < SIZE

end FixedBuffer

/-! ## The stream -/

structure LogStream where
  buffer : FixedBuffer kSmallBuffer
  deriving DecidableEq, Repr

/-- `std::thread::id`. -/
abbrev ThreadId := ℕ

/-- How numbers and ids print that the source leaves to its libraries. -/
structure Printing (Double Float : Type*) where
  /-- `static_cast<double>`. -/
  widen : Float → Double
  /-- What `snprintf` makes of a number with `"%.12g"`. -/
  general : Double → List Byte
  /-- What `operator<<` puts into an `std::ostream`. -/
  threadId : ThreadId → List Byte

/-- What `operator<<` of the stream is given. -/
inductive Operand (Double Float : Type*)
  | bool (v : Bool)
  | short (v : IntType.Value .short)
  | unsignedShort (v : IntType.Value .unsignedShort)
  | int (v : IntType.Value .int)
  | unsignedInt (v : IntType.Value .unsignedInt)
  | long (v : IntType.Value .long)
  | unsignedLong (v : IntType.Value .unsignedLong)
  | longLong (v : IntType.Value .longLong)
  | unsignedLongLong (v : IntType.Value .unsignedLongLong)
  | pointer (p : Uintptr)
  | float (v : Float)
  | double (v : Double)
  | char (v : Byte)
  | cString (str : Option CString)
  | unsignedCString (str : Option CString)
  | string (v : List Byte)
  | buffer (v : FixedBuffer kSmallBuffer) (within : v.Within)
  /-- The id, and that of the thread that makes the call. -/
  | threadId (id thisThread : ThreadId)

/-- `static_cast<int>` of a `short`. -/
def IntType.Value.ofShort (v : IntType.Value .short) : IntType.Value .int :=
  ⟨v.val, le_trans (by decide) v.min_le, le_trans v.le_max (by decide)⟩

/-- `static_cast<unsigned int>` of an `unsigned short`. -/
def IntType.Value.ofUnsignedShort (v : IntType.Value .unsignedShort) :
    IntType.Value .unsignedInt :=
  ⟨v.val, le_trans (by decide) v.min_le, le_trans v.le_max (by decide)⟩

namespace LogStream

variable {Double Float : Type*} (P : Printing Double Float) (s : LogStream)

def kMaxNumericSize : ℤ := 32

/-- The constructor, which leaves the storage as it finds it. -/
def new (data : Vector Byte kSmallBuffer) : LogStream := ⟨⟨data.toList, 0⟩⟩

/-- `buffer_.append(buf, len)`. -/
def bufferAppend (buf : List Byte) (len : ℕ) : Except Fault LogStream := do
  let buffer ← s.buffer.append buf len
  .ok { s with buffer := buffer }

/-- The stream's own `append`, whose length is an `int`. -/
def append (data : List Byte) (len : IntType.Value .int) : Except Fault LogStream :=
  s.bufferAppend data (toSize len.val)

def formatInteger {T : IntType} (v : T.Value) : Except Fault LogStream :=
  if kMaxNumericSize ≤ s.buffer.avail then do
    let (data, len) ← convert s.buffer.data s.buffer.cur v
    .ok { s with buffer := { s.buffer with data := data }.add len }
  else .ok s

def putPointer (p : Uintptr) : Except Fault LogStream :=
  if kMaxNumericSize ≤ s.buffer.avail then do
    let data ← store s.buffer.data s.buffer.cur '0'.toUInt8
    let data ← store data (s.buffer.cur + 1) 'x'.toUInt8
    let (data, len) ← convertHex data (s.buffer.cur + 2) p
    .ok { s with buffer := { s.buffer with data := data }.add (len + 2) }
  else .ok s

/-- `snprintf(buf, size, ...)`, which writes no more than fits with a terminator and gives the
length of the whole text. -/
def snprintf (data : List Byte) (buf size : ℕ) (text : List Byte) :
    Except Fault (List Byte × ℕ) := do
  let written := text.take (size - 1) ++ [0]
  let data ← memcpy data buf written written.length
  .ok (data, text.length)

def putDouble (v : Double) : Except Fault LogStream :=
  if kMaxNumericSize ≤ s.buffer.avail then do
    let (data, len) ←
      snprintf s.buffer.data s.buffer.cur kMaxNumericSize.toNat (P.general v)
    .ok { s with buffer := { s.buffer with data := data }.add len }
  else .ok s

def putString (v : List Byte) : Except Fault LogStream := s.bufferAppend v v.length

def putCString : Option CString → Except Fault LogStream
  | some str => s.bufferAppend str.storage str.strlen
  | none => s.bufferAppend (ascii "(null)" ++ [0]) 6

/-- `operator<<`. The id of the thread it is given is not the one it prints. -/
def put : Operand Double Float → Except Fault LogStream
  | .bool v => s.bufferAppend (ascii (if v then "1" else "0") ++ [0]) 1
  | .short v => s.formatInteger v.ofShort
  | .unsignedShort v => s.formatInteger v.ofUnsignedShort
  | .int v => s.formatInteger v
  | .unsignedInt v => s.formatInteger v
  | .long v => s.formatInteger v
  | .unsignedLong v => s.formatInteger v
  | .longLong v => s.formatInteger v
  | .unsignedLongLong v => s.formatInteger v
  | .pointer p => s.putPointer p
  | .float v => s.putDouble P (P.widen v)
  | .double v => s.putDouble P v
  | .char v => s.bufferAppend [v] 1
  | .cString str => s.putCString str
  | .unsignedCString str => s.putCString str
  | .string v => s.putString v
  | .buffer v _ => do
    let text ← v.toString
    s.putString text
  | .threadId _ thisThread =>
    s.putString (ascii " " ++ P.threadId thisThread ++ ascii " ")

/-- `debugString` of the stream's buffer. -/
def debugString : Except Fault LogStream := do
  let buffer ← s.buffer.debugString
  .ok { s with buffer := buffer }

end LogStream

/-- The calls that put something into a stream, and `debugString`. -/
inductive Call (Double Float : Type*)
  | put (operand : Operand Double Float)
  | append (data : List Byte) (len : IntType.Value .int) (readable : len.val ≤ data.length)
  | debugString

/-- One call. -/
def step {Double Float : Type*} (P : Printing Double Float) (s : LogStream) :
    Call Double Float → Except Fault LogStream
  | .put operand => s.put P operand
  | .append data len _ => s.append data len
  | .debugString => s.debugString

end Log

end Twnl
