import Mathlib.Data.List.DropRight
import Twnl.Log.Logging
import Twnl.Log.Whole

/-!
# The end of a log record

The destructor of a logger streams the place of its statement in five pieces. Each of them is
left out where it does not fit, and the line number is already left out where fewer than 32 bytes
are free.
-/

namespace Twnl

namespace Log

open Machine

/-! ## The place of a statement -/

/-- The name of a file behind its directories. -/
def FileName.basename (file : FileName) : List Byte := file.text.rtakeWhile (· ≠ '/'.toUInt8)

theorem rtakeWhile_of_not_mem {c : Byte} {str : List Byte} (h : c ∉ str) :
    str.rtakeWhile (· ≠ c) = str := by
  rw [List.rtakeWhile_eq_self_iff]
  intro d hd
  simpa using fun hdc : d = c ↦ h (hdc ▸ hd)

theorem rtakeWhile_append_cons {c : Byte} {front back : List Byte} (h : c ∉ back) :
    (front ++ c :: back).rtakeWhile (· ≠ c) = back := by
  have hback : back.reverse.takeWhile (· ≠ c) = back.reverse := by
    have := rtakeWhile_of_not_mem h
    rwa [List.rtakeWhile, List.reverse_eq_iff] at this
  rw [List.rtakeWhile, List.reverse_append, List.reverse_cons, List.append_assoc,
    List.takeWhile_append, if_pos (by rw [hback]), List.singleton_append]
  simp

/-- A source file is the basename of the name it is made from. -/
theorem SourceFile.take_ofArray (file : FileName) :
    (ofArray file).data.take (ofArray file).size.val.toNat = file.basename := by
  rw [ofArray]
  split
  · rename_i slash hslash
    obtain ⟨front, back, hfront, hlen, hback⟩ := eq_append_of_strrchr hslash
    have hbase : file.basename = back := by
      rw [FileName.basename, hfront, rtakeWhile_append_cons hback]
    have hdrop : file.text.drop (slash + 1) = back := by
      rw [hfront, ← hlen, List.drop_length_add_append]
      rfl
    have hle : slash + 1 ≤ file.text.length := by
      rw [hfront, List.length_append, List.length_cons]
      omega
    have hdata : file.arr.drop (slash + 1) = back ++ [0] := by
      rw [FileName.arr, List.drop_append_of_le_length hle, hdrop]
    have hsize : file.text.length - (slash + 1) = back.length := by
      rw [← hdrop, List.length_drop]
    simp only [file.size_sub_eq hslash, Int.toNat_natCast, hsize, hdata, hbase]
    rw [List.take_left]
  · rename_i hslash
    have hbase : file.basename = file.text := rtakeWhile_of_not_mem (not_mem_of_strrchr hslash)
    simp only [file.size_eq, Int.toNat_natCast, hbase]
    rw [FileName.arr, List.take_left]

/-- The level of the records of a macro. -/
def Macro.level : Macro → LogLevel
  | LOG_TRACE => .TRACE
  | LOG_DEBUG => .DEBUG
  | LOG_INFO => .INFO
  | LOG_WARN => .WARN
  | LOG_ERROR => .ERROR
  | LOG_FATAL => .FATAL

namespace Statement

variable {Double Float : Type*} (st : Statement Double Float)

/-- The place of the statement, as it is to stand at the end of its record. -/
def place : List Byte :=
  ascii " - " ++ (st.file.basename ++ (ascii ":" ++ (decimal st.line.val ++ ascii "\n")))

/-- The pieces of the place, and the room that each asks for. -/
def pieces : List (Piece Byte) :=
  [⟨ascii " - ", 4⟩, ⟨st.file.basename, st.file.basename.length + 1⟩, ⟨ascii ":", 2⟩,
    ⟨decimal st.line.val, 32⟩, ⟨ascii "\n", 2⟩]

/-- The content, and behind it the pieces of the place that fit. -/
def record (content : List Byte) : List Byte := st.pieces.foldl (Piece.add kSmallBuffer) content

end Statement

/-! ## When all of it is there -/

namespace Statement

variable {Double Float : Type*} (st : Statement Double Float)

theorem flatMap_pieces : st.pieces.flatMap Piece.text = st.place := by
  simp [pieces, place]

/-- The line number asks for more than any other piece of the place. -/
theorem allFit_pieces (n : ℕ) :
    Piece.AllFit kSmallBuffer n st.pieces ↔ n + st.file.basename.length + 36 ≤ kSmallBuffer := by
  have hdecimal : decimal st.line.val ≠ [] := by
    intro hnil
    have hparse := parseDecimal_decimal st.line.val
    rw [hnil] at hparse
    exact Option.some_ne_none _ hparse.symm
  have hlen := length_decimal_le st.line
  have hdash : (ascii " - ").length = 3 := rfl
  have hcolon : (ascii ":").length = 1 := rfl
  have hdash' : ascii " - " ≠ [] := by decide
  have hcolon' : ascii ":" ≠ [] := by decide
  have hnewline : ascii "\n" ≠ [] := by decide
  simp only [pieces, Piece.AllFit, or_iff_right hdecimal, or_iff_right hdash', or_iff_right hcolon',
    or_iff_right hnewline, hdash, hcolon, and_true]
  constructor
  · rintro ⟨-, -, -, hline, -⟩
    omega
  · intro hroom
    refine ⟨?_, Or.inr ?_, ?_, ?_, ?_⟩ <;> omega

end Statement

/-! ## The logger -/

section Logger

variable {Double Float : Type*} {env : Env Double Float}

theorem LogLevel.name_ok {level : LogLevel} (h : level ≠ .NONE) :
    ∃ name, level.name = .ok name := by
  cases level with
  | NONE => exact absurd rfl h
  | TRACE => exact ⟨_, T.new_ok (.literal "TRACE ") 6 (by decide)⟩
  | DEBUG => exact ⟨_, T.new_ok (.literal "DEBUG ") 6 (by decide)⟩
  | INFO => exact ⟨_, T.new_ok (.literal "INFO  ") 6 (by decide)⟩
  | WARN => exact ⟨_, T.new_ok (.literal "WARN  ") 6 (by decide)⟩
  | ERROR => exact ⟨_, T.new_ok (.literal "ERROR ") 6 (by decide)⟩
  | FATAL => exact ⟨_, T.new_ok (.literal "FATAL ") 6 (by decide)⟩

/-- What a logger is for, with a stream in order. -/
structure Impl.Ready (impl : Impl) (level : LogLevel) (file : SourceFile)
    (line : IntType.Value .int) : Prop where
  level_eq : impl.level = level
  basename_eq : impl.basename = file
  line_eq : impl.line = line
  fits : impl.stream.buffer.Fits

variable {impl : Impl} {level : LogLevel} {file : SourceFile} {line : IntType.Value .int}

theorem Impl.Ready.put (hprint : ∀ v, (env.general v).length ≤ 31)
    (h : impl.Ready level file line) (operands : List (Call Double Float)) :
    ∃ t, impl.put env operands = .ok t ∧ t.Ready level file line ∧
      t.stream.buffer.content =
        (operands.map (Call.piece env.toPrinting)).foldl (Piece.add kSmallBuffer)
          impl.stream.buffer.content := by
  obtain ⟨stream, hrun, hfits, hcontent⟩ := run_content hprint h.fits operands
  refine ⟨{ impl with stream := stream }, ?_, ?_, hcontent⟩
  · rw [Impl.put, hrun, bind_ok]
  · exact ⟨h.level_eq, h.basename_eq, h.line_eq, hfits⟩

theorem Impl.new_ready (hprint : ∀ v, (env.general v).length ≤ 31) (h : level ≠ .NONE)
    (savedErrno : IntType.Value .int) (file : SourceFile) (line : IntType.Value .int) :
    ∃ impl, Impl.new env level savedErrno file line = .ok impl ∧ impl.Ready level file line := by
  obtain ⟨name, hname⟩ := LogLevel.name_ok h
  obtain ⟨s, hs, hfits, -⟩ := run_content hprint (fits_new env.storage)
    [.put (.string env.now), .put (.threadId env.thisThread env.thisThread)]
  obtain ⟨t, ht, hfits', -⟩ := run_content hprint hfits
    (name.call :: errorCalls env savedErrno)
  refine ⟨⟨t, level, line, file⟩, ?_, rfl, rfl, rfl, hfits'⟩
  rw [Impl.new, hs, bind_ok, hname, bind_ok, ht, bind_ok]

theorem newWithFunc_ready (hprint : ∀ v, (env.general v).length ≤ 31) (h : level ≠ .NONE)
    (file : SourceFile) (line : IntType.Value .int) (func : CString) :
    ∃ impl, Logger.newWithFunc env file line level func = .ok impl ∧
      impl.Ready level file line := by
  obtain ⟨s, hs, hready⟩ := Impl.new_ready hprint h noError file line
  obtain ⟨t, ht, hready', -⟩ := hready.put hprint [func.call, .put (.char ' '.toUInt8)]
  refine ⟨t, ?_, hready'⟩
  rw [Logger.newWithFunc, hs, bind_ok, ht]

theorem Statement.logger_ready (hprint : ∀ v, (env.general v).length ≤ 31)
    (st : Statement Double Float) :
    ∃ impl, st.logger env = .ok impl ∧ impl.Ready st.name.level (.ofArray st.file) st.line := by
  obtain ⟨name, file, line, func, operands⟩ := st
  cases name with
  | LOG_TRACE => exact newWithFunc_ready hprint (by decide) _ line func
  | LOG_DEBUG => exact newWithFunc_ready hprint (by decide) _ line func
  | LOG_INFO => exact Impl.new_ready hprint (by decide) _ _ line
  | LOG_WARN => exact Impl.new_ready hprint (by decide) _ _ line
  | LOG_ERROR => exact Impl.new_ready hprint (by decide) _ _ line
  | LOG_FATAL => exact Impl.new_ready hprint (by decide) _ _ line

theorem Statement.filled_ready (hprint : ∀ v, (env.general v).length ≤ 31)
    (st : Statement Double Float) :
    ∃ impl, st.filled env = .ok impl ∧ impl.Ready st.name.level (.ofArray st.file) st.line := by
  obtain ⟨s, hs, hready⟩ := st.logger_ready hprint
  obtain ⟨t, ht, hready', -⟩ := hready.put hprint (st.operands.map .put)
  refine ⟨t, ?_, hready'⟩
  rw [Statement.filled, hs, bind_ok, ht]

/-! ## The destructor -/

variable {st : Statement Double Float}

/-- What the destructor streams are the pieces of the place. -/
theorem Impl.Ready.trailer_eq (h : impl.Ready level (.ofArray st.file) st.line) :
    impl.trailer.map (Call.piece env.toPrinting) = st.pieces := by
  rw [Impl.trailer, h.basename_eq, h.line_eq, Statement.pieces, ← SourceFile.take_ofArray]
  rfl

theorem Impl.Ready.destructor_eq (hprint : ∀ v, (env.general v).length ≤ 31)
    (h : impl.Ready level (.ofArray st.file) st.line) :
    Logger.destructor env impl = .ok (st.record impl.stream.buffer.content, level = .FATAL) := by
  obtain ⟨t, ht, hready, hcontent⟩ := h.put hprint impl.trailer
  have hwithin : t.stream.buffer.Within := ⟨hready.fits.size, hready.fits.lt.le⟩
  rw [h.trailer_eq, ← Statement.record] at hcontent
  rw [Logger.destructor, Impl.finish, ht, bind_ok, hwithin.toString_eq, bind_ok, hcontent,
    hready.level_eq]

/-! ## Records -/

variable (env) in
/-- What the statement passes to `g_output` ends with its place. -/
def Statement.Framed (g_logLevel : LogLevel) (st : Statement Double Float) : Prop :=
  Outcome (st.execute env g_logLevel) (fun output ↦ ∀ o ∈ output, st.place <:+ o.1)
    (fun _ ↦ False)

instance (g_logLevel : LogLevel) (st : Statement Double Float) :
    Decidable (st.Framed env g_logLevel) :=
  inferInstanceAs (Decidable (Outcome _ _ _))

/-- What a statement comes to. -/
theorem Statement.execute_eq (hprint : ∀ v, (env.general v).length ≤ 31) (g_logLevel : LogLevel)
    (h : st.filled env = .ok impl) (hready : impl.Ready level (.ofArray st.file) st.line) :
    st.execute env g_logLevel =
      .ok (if g_logLevel.toNat ≤ st.name.threshold.toNat then
        some (st.record impl.stream.buffer.content, decide (level = .FATAL)) else none) := by
  rw [Statement.execute]
  split
  · rw [h, bind_ok, hready.destructor_eq hprint, bind_ok]
  · rfl

/-- What a statement passes to `g_output`, if its level is not below the log level, is what is in
the buffer behind the operands and those pieces of its place that fit; a fatal statement then
aborts. The place is there as a whole exactly if there is room for 36 bytes more than the basename
has, and then the record ends with it. -/
theorem Statement.framed (hprint : ∀ v, (env.general v).length ≤ 31) (g_logLevel : LogLevel)
    (st : Statement Double Float) :
    ∃ impl, st.filled env = .ok impl ∧
      st.execute env g_logLevel =
        .ok (if g_logLevel.toNat ≤ st.name.threshold.toNat then
          some (st.record impl.stream.buffer.content, decide (st.name.level = .FATAL)) else none) ∧
      (st.record impl.stream.buffer.content = impl.stream.buffer.content ++ st.place ↔
        impl.stream.buffer.content.length + st.file.basename.length + 36 ≤ kSmallBuffer) ∧
      (impl.stream.buffer.content.length + st.file.basename.length + 36 ≤ kSmallBuffer →
        st.Framed env g_logLevel) := by
  obtain ⟨impl, himpl, hready⟩ := st.filled_ready hprint
  have hexecute := Statement.execute_eq hprint g_logLevel himpl hready
  have hwhole := Piece.foldl_add_eq_iff kSmallBuffer st.pieces impl.stream.buffer.content
  rw [st.flatMap_pieces, st.allFit_pieces, ← Statement.record] at hwhole
  refine ⟨impl, himpl, hexecute, hwhole, ?_⟩
  intro hroom
  rw [Statement.Framed, hexecute, hwhole.mpr hroom, outcome_ok]
  intro o ho
  split at ho
  · rw [← Option.some.inj ho]
    exact List.suffix_append _ _
  · exact absurd ho.symm (Option.some_ne_none o)

end Logger

/-- A statement whose operand leaves no room in the buffer. -/
def fullStatement : Statement Unit Unit where
  name := .LOG_INFO
  file := ⟨ascii "src/main.cc", by decide, by decide⟩
  line := ⟨12, by decide, by decide⟩
  func := .literal "main"
  operands := [.string (List.replicate 3973 'x'.toUInt8)]

/-- What it finds. -/
def someEnv : Env Unit Unit where
  widen := id
  general _ := ascii "1.5"
  threadId _ := ascii "7"
  now := ascii "20210802 12:00:00"
  thisThread := 7
  errno := noError
  strerror _ := .literal "Success"
  storage := Vector.replicate kSmallBuffer 0

theorem framed_of_full :
    ∃ impl, fullStatement.filled someEnv = .ok impl ∧
      fullStatement.execute someEnv .INFO =
        .ok (if LogLevel.INFO.toNat ≤ fullStatement.name.threshold.toNat then
          some (fullStatement.record impl.stream.buffer.content,
            decide (fullStatement.name.level = .FATAL)) else none) ∧
      (fullStatement.record impl.stream.buffer.content =
          impl.stream.buffer.content ++ fullStatement.place ↔
        impl.stream.buffer.content.length + fullStatement.file.basename.length + 36 ≤
          kSmallBuffer) ∧
      (impl.stream.buffer.content.length + fullStatement.file.basename.length + 36 ≤
        kSmallBuffer → fullStatement.Framed someEnv .INFO) :=
  Statement.framed (fun _ ↦ show (ascii "1.5").length ≤ 31 from by decide) .INFO fullStatement

/-- The record of this statement ends with its operand. -/
theorem not_framed_of_full : ¬fullStatement.Framed someEnv .INFO := by
  decide +kernel

end Log

end Twnl
