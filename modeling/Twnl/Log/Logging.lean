import Twnl.Log.Stream
import Twnl.Machine.Run

/-!
# Log statements

A log statement makes a logger, streams its operands into it and destroys it. The constructor puts
the time, the thread, the level and maybe an error in front of them, the destructor puts the place
of the statement behind them and passes the whole to `g_output`.

## What comes from outside

The time, the id of the thread, `errno` and its description are inputs, and so is what the storage
of the stream has in it when the logger is made.
-/

namespace Twnl

namespace Log

/-! ## Levels -/

inductive LogLevel
  | TRACE
  | DEBUG
  | INFO
  | WARN
  | ERROR
  | FATAL
  | NONE
  deriving DecidableEq, Repr

/-- The value of the enumerator. -/
def LogLevel.toNat : LogLevel → ℕ
  | TRACE => 0
  | DEBUG => 1
  | INFO => 2
  | WARN => 3
  | ERROR => 4
  | FATAL => 5
  | NONE => 6

/-- A text and its length, on which the constructor insists. -/
structure T where
  str : CString
  len : ℕ
  strlen_eq : str.strlen = len

def T.new (str : CString) (len : ℕ) : Except Fault T :=
  if h : str.strlen = len then .ok ⟨str, len, h⟩ else .error (.assertion .logText)

theorem T.new_ok (str : CString) (len : ℕ) (h : str.strlen = len) :
    T.new str len = .ok ⟨str, len, h⟩ := dif_pos h

/-- The names of the levels. `NONE` has none. -/
def LogLevelName : List CString :=
  [.literal "TRACE ", .literal "DEBUG ", .literal "INFO  ", .literal "WARN  ", .literal "ERROR ",
    .literal "FATAL "]

/-- `T(LogLevelName[level], 6)`. -/
def LogLevel.name (level : LogLevel) : Except Fault T :=
  match LogLevelName[level.toNat]? with
  | some str => T.new str 6
  | none => .error .outOfBounds

/-! ## Source files -/

/-- `static_cast<int>`, as a value of the type. -/
def intOf (n : ℤ) : IntType.Value .int where
  val := toInt n
  min_le := Int.le_bmod (by decide)
  le_max := Int.le_sub_one_of_lt (Int.bmod_lt (by decide))

@[simp] theorem val_intOf (n : ℤ) : (intOf n).val = toInt n := rfl

theorem intOf_val {n : ℕ} (h : n < 2 ^ 31) : (intOf n).val = n := by
  rw [val_intOf]
  exact toInt_eq (by omega) (by omega)

theorem intOf_val_le (n : ℕ) : (intOf n).val ≤ n := by
  rw [val_intOf, toInt, Int.bmod_def]
  split <;> omega

/-- `strrchr`, as a distance. -/
def strrchr (c : Byte) : List Byte → Option ℕ
  | [] => none
  | d :: str =>
    match strrchr c str with
    | some k => some (k + 1)
    | none => if d = c then some 0 else none

theorem not_mem_of_strrchr {c : Byte} {str : List Byte} (h : strrchr c str = none) : c ∉ str := by
  induction str with
  | nil => exact List.not_mem_nil
  | cons d str ih =>
    rw [strrchr] at h
    cases hstr : strrchr c str with
    | some k =>
      rw [hstr] at h
      exact absurd h (Option.some_ne_none _)
    | none =>
      rw [hstr] at h
      by_cases hd : d = c
      · simp [hd] at h
      · rw [List.mem_cons, not_or]
        exact ⟨fun hc ↦ hd hc.symm, ih hstr⟩

/-- Where the last occurrence is, and what stands behind it. -/
theorem eq_append_of_strrchr {c : Byte} {str : List Byte} {k : ℕ} (h : strrchr c str = some k) :
    ∃ front back, str = front ++ c :: back ∧ front.length = k ∧ c ∉ back := by
  induction str generalizing k with
  | nil => exact absurd h.symm (Option.some_ne_none k)
  | cons d str ih =>
    rw [strrchr] at h
    cases hstr : strrchr c str with
    | some j =>
      rw [hstr] at h
      obtain ⟨front, back, hfront, hlen, hback⟩ := ih hstr
      refine ⟨d :: front, back, ?_, ?_, hback⟩
      · rw [hfront, List.cons_append]
      · rw [List.length_cons, hlen]
        exact Option.some.inj h
    | none =>
      rw [hstr] at h
      by_cases hd : d = c
      · rw [hd] at h
        refine ⟨[], str, by rw [hd, List.nil_append], ?_, not_mem_of_strrchr hstr⟩
        simpa using h
      · simp [hd] at h

/-- A string literal such as `__FILE__`, an array whose length is an `int`. -/
structure FileName where
  text : List Byte
  nonzero : 0 ∉ text
  lt : text.length + 1 < 2 ^ 31

/-- The characters of the array. -/
def FileName.arr (file : FileName) : List Byte := file.text ++ [0]

theorem FileName.length_arr (file : FileName) : file.arr.length = file.text.length + 1 :=
  List.length_append

/-- The name of a file without its directories: a pointer and a length. -/
structure SourceFile where
  data : List Byte
  size : IntType.Value .int
  readable : size.val ≤ data.length

theorem FileName.size_eq (file : FileName) :
    (intOf (file.arr.length - 1 : ℕ)).val = file.text.length := by
  have hlt := file.lt
  rw [file.length_arr, Nat.add_sub_cancel, intOf_val (by omega)]

theorem FileName.size_sub_eq (file : FileName) {slash : ℕ}
    (h : strrchr '/'.toUInt8 file.text = some slash) :
    (intOf ((intOf (file.arr.length - 1 : ℕ)).val - (intOf (slash + 1 : ℕ)).val)).val =
      (file.text.length - (slash + 1) : ℕ) := by
  obtain ⟨front, back, hfront, hlen, -⟩ := eq_append_of_strrchr h
  have hlt := file.lt
  have hslash : slash + 1 ≤ file.text.length := by
    rw [hfront, List.length_append, List.length_cons, hlen]
    omega
  rw [file.size_eq, intOf_val (by omega), ← Nat.cast_sub hslash, intOf_val (by omega)]

/-- The constructor from an array. -/
def SourceFile.ofArray (file : FileName) : SourceFile :=
  match h : strrchr '/'.toUInt8 file.text with
  | some slash =>
    { data := file.arr.drop (slash + 1)
      size := intOf ((intOf (file.arr.length - 1 : ℕ)).val - (intOf (slash + 1 : ℕ)).val)
      readable := by
        rw [file.size_sub_eq h, List.length_drop, file.length_arr]
        omega }
  | none =>
    { data := file.arr
      size := intOf (file.arr.length - 1 : ℕ)
      readable := by
        rw [file.size_eq, file.length_arr]
        omega }

/-! ## The logger -/

variable {Double Float : Type*}

/-- What a log statement finds. -/
structure Env (Double Float : Type*) extends Printing Double Float where
  /-- `clock::toString(clock::now())`. -/
  now : List Byte
  /-- `std::this_thread::get_id()`. -/
  thisThread : ThreadId
  errno : IntType.Value .int
  /-- What `strerror_r` gives. -/
  strerror : IntType.Value .int → CString
  /-- What the storage of the stream has in it. -/
  storage : Vector Byte kSmallBuffer

/-- The `errno` of a statement that reports no error. -/
def noError : IntType.Value .int := ⟨0, by decide, by decide⟩

/-- `Logger::Impl`. -/
structure Impl where
  stream : LogStream
  level : LogLevel
  line : IntType.Value .int
  basename : SourceFile

/-- `operator<<` of a `T`. -/
def T.call (v : T) : Call Double Float :=
  .append v.str.storage (intOf v.len) <| (intOf_val_le v.len).trans <| by
    rw [← v.strlen_eq]
    exact Int.ofNat_le.mpr v.str.strlen_le

/-- `operator<<` of a `SourceFile`. -/
def SourceFile.call (v : SourceFile) : Call Double Float := .append v.data v.size v.readable

/-- `operator<<` of a string. -/
def CString.call (str : CString) : Call Double Float := .put (.cString (some str))

/-- What the constructor says about an error. -/
def errorCalls (env : Env Double Float) (savedErrno : IntType.Value .int) :
    List (Call Double Float) :=
  if savedErrno.val ≠ 0 then
    [(env.strerror savedErrno).call, (CString.literal " (errno=").call, .put (.int savedErrno),
      (CString.literal ") ").call]
  else []

namespace Impl

variable (env : Env Double Float)

/-- The constructor. -/
def new (level : LogLevel) (savedErrno : IntType.Value .int) (file : SourceFile)
    (line : IntType.Value .int) : Except Fault Impl := do
  let stream ← Machine.run (step env.toPrinting) (.new env.storage)
    [.put (.string env.now), .put (.threadId env.thisThread env.thisThread)]
  let name ← level.name
  let stream ← Machine.run (step env.toPrinting) stream (name.call :: errorCalls env savedErrno)
  .ok ⟨stream, level, line, file⟩

/-- Streams operands. -/
def put (impl : Impl) (operands : List (Call Double Float)) : Except Fault Impl := do
  let stream ← Machine.run (step env.toPrinting) impl.stream operands
  .ok { impl with stream := stream }

/-- What `finish` streams. -/
def trailer (impl : Impl) : List (Call Double Float) :=
  [(CString.literal " - ").call, impl.basename.call, .put (.char ':'.toUInt8),
    .put (.int impl.line), .put (.char '\n'.toUInt8)]

def finish (impl : Impl) : Except Fault Impl := impl.put env impl.trailer

end Impl

namespace Logger

variable (env : Env Double Float) (file : SourceFile) (line : IntType.Value .int)

/-- Without a level, which is then `INFO`. -/
def new : Except Fault Impl := Impl.new env .INFO noError file line

/-- With the function that the statement is in. -/
def newWithFunc (level : LogLevel) (func : CString) : Except Fault Impl := do
  let impl ← Impl.new env level noError file line
  impl.put env [func.call, .put (.char ' '.toUInt8)]

/-- With `errno`. -/
def newWithLevel (level : LogLevel) : Except Fault Impl := Impl.new env level env.errno file line

/-- The destructor: what it passes to `g_output`, and whether it aborts behind that. -/
def destructor (impl : Impl) : Except Fault (List Byte × Bool) := do
  let impl ← impl.finish env
  let msg ← impl.stream.buffer.toString
  .ok (msg, impl.level = .FATAL)

end Logger

/-! ## Statements -/

/-- The macros of the header. -/
inductive Macro
  | LOG_TRACE
  | LOG_DEBUG
  | LOG_INFO
  | LOG_WARN
  | LOG_ERROR
  | LOG_FATAL
  deriving DecidableEq, Repr

/-- The level that the macro compares `g_logLevel` with. -/
def Macro.threshold : Macro → LogLevel
  | LOG_TRACE => .TRACE
  | LOG_DEBUG => .DEBUG
  | LOG_INFO => .INFO
  | LOG_WARN => .WARN
  | LOG_ERROR => .WARN
  | LOG_FATAL => .WARN

/-- A log statement: a macro, the place it is at, and what is streamed into it. -/
structure Statement (Double Float : Type*) where
  name : Macro
  file : FileName
  line : IntType.Value .int
  func : CString
  operands : List (Operand Double Float)

namespace Statement

variable (env : Env Double Float) (st : Statement Double Float)

/-- The logger that the macro makes. -/
def logger : Except Fault Impl :=
  match st.name with
  | .LOG_TRACE => Logger.newWithFunc env (.ofArray st.file) st.line .TRACE st.func
  | .LOG_DEBUG => Logger.newWithFunc env (.ofArray st.file) st.line .DEBUG st.func
  | .LOG_INFO => Logger.new env (.ofArray st.file) st.line
  | .LOG_WARN => Logger.newWithLevel env (.ofArray st.file) st.line .WARN
  | .LOG_ERROR => Logger.newWithLevel env (.ofArray st.file) st.line .ERROR
  | .LOG_FATAL => Logger.newWithLevel env (.ofArray st.file) st.line .FATAL

/-- The logger with the operands in it. -/
def filled : Except Fault Impl := do
  let impl ← st.logger env
  impl.put env (st.operands.map .put)

/-- The statement under a log level. It passes nothing to `g_output` where the level is above the
one of the macro. -/
def execute (g_logLevel : LogLevel) : Except Fault (Option (List Byte × Bool)) :=
  if g_logLevel.toNat ≤ st.name.threshold.toNat then do
    let impl ← st.filled env
    let output ← Logger.destructor env impl
    .ok (some output)
  else .ok none

end Statement

end Log

end Twnl
