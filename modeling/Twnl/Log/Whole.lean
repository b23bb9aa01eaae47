import Twnl.Log.Stream
import Twnl.Machine.Pieces
import Twnl.Machine.Run

/-!
# Operands are written whole or not at all

A call adds a text behind the content when the room it asks for is there, and otherwise leaves the
stream as it is (`Adds`). It always leaves room for a terminator, and no write leaves the storage.

The text is that of the operand, but for the id of a thread: it is always the calling thread's id
that is written. Where every id is the caller's own, or does not fit, the content of a stream is at
every moment the texts of some of the calls, one behind the other, and only there
(`run_new_whole_iff`).
-/

namespace Twnl

namespace Log

open Machine FixedBuffer

/-! ## Writing at the cursor -/

/-- The text written at the cursor, and what comes behind it where the cursor then is. -/
def FixedBuffer.extend {SIZE : ℕ} (b : FixedBuffer SIZE) (text rest : List Byte) :
    FixedBuffer SIZE :=
  ⟨b.data.writeAt b.cur (text ++ rest), b.cur + text.length⟩

section Buffer

variable {b : FixedBuffer kSmallBuffer}

theorem FixedBuffer.Fits.avail_eq (h : b.Fits) : b.avail = (kSmallBuffer - b.cur : ℕ) := by
  have hlt := h.lt
  have hsmall := kSmallBuffer_lt
  rw [avail, toInt_eq (by omega) (by omega)]
  omega

theorem FixedBuffer.Within.toString_eq (h : b.Within) : b.toString = .ok b.content := by
  have hle := h.le
  have hsmall := kSmallBuffer_lt
  have hlen : toSize b.length = b.cur := by
    rw [length, toInt_eq (by omega) (by omega), toSize_eq (by omega)]
  rw [toString, hlen, if_pos (by rw [h.size]; exact hle), content]

/-- What is written at the cursor becomes content as far as the cursor moves. -/
theorem FixedBuffer.Fits.content_extend (h : b.Fits) (text rest : List Byte) :
    (b.extend text rest).content = b.content ++ text := by
  have hcur : b.cur ≤ b.data.length := by
    rw [h.size]
    exact h.lt.le
  exact List.take_writeAt hcur text rest

theorem FixedBuffer.Fits.extend (h : b.Fits) {text rest : List Byte}
    (hroom : b.cur + (text ++ rest).length ≤ kSmallBuffer)
    (hlt : b.cur + text.length < kSmallBuffer) : (b.extend text rest).Fits := by
  have hsize := h.size
  refine ⟨?_, hlt⟩
  rw [FixedBuffer.extend, List.length_writeAt (by rw [hsize]; exact hroom), hsize]

end Buffer

/-! ## What a call adds -/

/-- The call returns. It adds the text where there is that much room, and does nothing where there
is less. -/
def Adds (call : LogStream → Except Fault LogStream) (text : List Byte) (room : ℕ) : Prop :=
  ∀ s : LogStream, s.buffer.Fits → ∃ t, call s = .ok t ∧ t.buffer.Fits ∧
    if s.buffer.cur + room ≤ kSmallBuffer then t.buffer.content = s.buffer.content ++ text
    else t = s

theorem bufferAppend_adds (buf : List Byte) {len : ℕ} (hlen : len ≤ buf.length) :
    Adds (·.bufferAppend buf len) (buf.take len) (len + 1) := by
  intro s hfits
  have hlt := hfits.lt
  have htake : (buf.take len).length = len := List.length_take_of_le hlen
  have hsmall := kSmallBuffer_lt
  have havail : toSize s.buffer.avail = kSmallBuffer - s.buffer.cur := by
    rw [hfits.avail_eq, toSize_eq (by omega)]
  simp only [LogStream.bufferAppend, append, havail]
  by_cases hroom : s.buffer.cur + (len + 1) ≤ kSmallBuffer
  · have hcopy : memcpy s.buffer.data s.buffer.cur buf len =
        .ok (s.buffer.data.writeAt s.buffer.cur (buf.take len ++ [])) := by
      rw [List.append_nil]
      exact if_pos ⟨hlen, by rw [hfits.size]; omega⟩
    refine ⟨⟨s.buffer.extend (buf.take len) []⟩, ?_, hfits.extend ?_ ?_, ?_⟩
    · rw [if_pos (by omega), hcopy, extend, htake]
      rfl
    · rw [List.append_nil, htake]
      omega
    · rw [htake]
      omega
    · rw [if_pos hroom]
      exact hfits.content_extend _ _
  · rw [if_neg (by omega)]
    exact ⟨s, rfl, hfits, by rw [if_neg hroom]⟩

theorem putString_adds (v : List Byte) : Adds (·.putString v) v (v.length + 1) := by
  have h := bufferAppend_adds v (le_refl v.length)
  rwa [List.take_length] at h

/-- What is written in place with a terminator, and is shorter than the room it asks for. -/
theorem numeric_adds {call : LogStream → Except Fault LogStream} {text : List Byte}
    (hlen : text.length ≤ 31)
    (hcall : ∀ s : LogStream, s.buffer.Fits → s.buffer.cur + 32 ≤ kSmallBuffer →
      call s = .ok ⟨s.buffer.extend text [0]⟩)
    (hfull : ∀ s : LogStream, ¬LogStream.kMaxNumericSize ≤ s.buffer.avail → call s = .ok s) :
    Adds call text 32 := by
  intro s hfits
  by_cases hroom : s.buffer.cur + 32 ≤ kSmallBuffer
  · refine ⟨_, hcall s hfits hroom, hfits.extend ?_ (by omega), ?_⟩
    · rw [List.length_append, List.length_singleton]
      omega
    · rw [if_pos hroom]
      exact hfits.content_extend text [0]
  · have hnone : ¬LogStream.kMaxNumericSize ≤ s.buffer.avail := by
      rw [hfits.avail_eq, LogStream.kMaxNumericSize]
      omega
    exact ⟨s, hfull s hnone, hfits, by rw [if_neg hroom]⟩

theorem kMaxNumericSize_le {s : LogStream} (h : s.buffer.Fits)
    (hroom : s.buffer.cur + 32 ≤ kSmallBuffer) :
    LogStream.kMaxNumericSize ≤ s.buffer.avail := by
  rw [h.avail_eq, LogStream.kMaxNumericSize]
  omega

theorem formatInteger_adds {T : IntType} (v : T.Value) :
    Adds (·.formatInteger v) (decimal v.val) 32 := by
  have hlen := length_decimal_le v
  refine numeric_adds (by omega) (fun s hfits hroom ↦ ?_) fun s hfull ↦ if_neg hfull
  have hconvert := convert_writes v s.buffer.data s.buffer.cur (by rw [hfits.size]; omega)
  simp only [LogStream.formatInteger, if_pos (kMaxNumericSize_le hfits hroom)]
  simp only [hconvert, bind_ok, add, extend]

/-- The text of a pointer. -/
def address (p : Uintptr) : List Byte := ascii "0x" ++ hexadecimal p.val.natAbs

theorem putPointer_adds (p : Uintptr) : Adds (·.putPointer p) (address p) 32 := by
  have hlen := length_hexadecimal_le p
  have haddress : (address p).length = (hexadecimal p.val.natAbs).length + 2 := by
    rw [address, List.length_append, Nat.add_comm]
    rfl
  refine numeric_adds (by omega) (fun s hfits hroom ↦ ?_) fun s hfull ↦ if_neg hfull
  have hsize := hfits.size
  -- the two characters in front of the digits
  have hprefix : (s.buffer.data.writeAt s.buffer.cur ['0'.toUInt8]).writeAt (s.buffer.cur + 1)
      ['x'.toUInt8] = s.buffer.data.writeAt s.buffer.cur (ascii "0x") :=
    List.writeAt_writeAt_append (by rw [List.length_singleton]; omega) _
  have htwo : (ascii "0x").length = 2 := rfl
  have hone : ∀ c : Byte, (s.buffer.data.writeAt s.buffer.cur [c]).length = kSmallBuffer := by
    intro c
    rw [List.length_writeAt (by rw [List.length_singleton]; omega), hsize]
  have hlong : (s.buffer.data.writeAt s.buffer.cur (ascii "0x")).length = kSmallBuffer := by
    rw [List.length_writeAt (by rw [htwo]; omega), hsize]
  have hconvert := convertHex_writes p (s.buffer.data.writeAt s.buffer.cur (ascii "0x"))
    (s.buffer.cur + 2) (by rw [hlong]; omega)
  have hwhole : (s.buffer.data.writeAt s.buffer.cur (ascii "0x")).writeAt (s.buffer.cur + 2)
      (hexadecimal p.val.natAbs ++ [0]) =
        s.buffer.data.writeAt s.buffer.cur (address p ++ [0]) := by
    rw [address, List.append_assoc]
    exact List.writeAt_writeAt_append (by rw [htwo]; omega) _
  simp only [LogStream.putPointer, if_pos (kMaxNumericSize_le hfits hroom)]
  rw [store_ok (by omega), bind_ok, store_ok (by rw [hone]; omega), bind_ok, hprefix]
  simp only [hconvert, bind_ok, add, hwhole, extend, haddress]

section Calls

variable {Double Float : Type*} {P : Printing Double Float}

theorem putDouble_adds {v : Double} (hprint : (P.general v).length ≤ 31) :
    Adds (·.putDouble P v) (P.general v) 32 := by
  refine numeric_adds hprint (fun s hfits hroom ↦ ?_) fun s hfull ↦ if_neg hfull
  have htext : (P.general v).take (LogStream.kMaxNumericSize.toNat - 1) = P.general v :=
    List.take_of_length_le hprint
  have hcopy : memcpy s.buffer.data s.buffer.cur (P.general v ++ [0]) (P.general v ++ [0]).length =
      .ok (s.buffer.data.writeAt s.buffer.cur (P.general v ++ [0])) := by
    rw [memcpy, if_pos, List.take_length]
    refine ⟨le_refl _, ?_⟩
    rw [hfits.size, List.length_append, List.length_singleton]
    omega
  simp only [LogStream.putDouble, if_pos (kMaxNumericSize_le hfits hroom), LogStream.snprintf,
    htext, hcopy, bind_ok, add, extend]

theorem putCString_adds (str : Option CString) :
    Adds (·.putCString str) (str.elim (ascii "(null)") CString.text)
      ((str.elim (ascii "(null)") CString.text).length + 1) := by
  cases str with
  | none => exact bufferAppend_adds (ascii "(null)" ++ [0]) (by decide)
  | some str =>
    have h := bufferAppend_adds str.storage str.strlen_le
    rwa [str.take_strlen] at h

/-- The stream's own `append` leaves out what has a negative length. -/
theorem append_adds {data : List Byte} {len : IntType.Value .int} (h : len.val ≤ data.length) :
    Adds (·.append data len) (data.take len.val.toNat)
      ((data.take len.val.toNat).length + 1) := by
  have hmin : -2 ^ 31 ≤ len.val := len.min_le
  have hmax : len.val ≤ 2 ^ 31 - 1 := len.le_max
  have htake : (data.take len.val.toNat).length = len.val.toNat :=
    List.length_take_of_le (by omega)
  by_cases hneg : len.val < 0
  · have hnat : len.val.toNat = 0 := by omega
    intro s hfits
    have hlarge : ¬toSize len.val < toSize s.buffer.avail := by
      have hsmall := kSmallBuffer_lt
      rw [hfits.avail_eq, toSize_eq (by omega), toSize]
      omega
    refine ⟨s, ?_, hfits, ?_⟩
    · simp only [LogStream.append, LogStream.bufferAppend, FixedBuffer.append, if_neg hlarge]
      rfl
    · rw [hnat, List.take_zero, List.append_nil]
      simp
  · have hnat : toSize len.val = len.val.toNat := by
      rw [toSize]
      omega
    rw [htake, ← hnat]
    exact bufferAppend_adds data (by omega)

/-! ## The calls -/

variable (P) in
/-- The complete rendering of an operand. -/
def Operand.text : Operand Double Float → List Byte
  | .bool v => ascii (if v then "1" else "0")
  | .short v => decimal v.val
  | .unsignedShort v => decimal v.val
  | .int v => decimal v.val
  | .unsignedInt v => decimal v.val
  | .long v => decimal v.val
  | .unsignedLong v => decimal v.val
  | .longLong v => decimal v.val
  | .unsignedLongLong v => decimal v.val
  | .pointer p => address p
  | .float v => P.general (P.widen v)
  | .double v => P.general v
  | .char v => [v]
  | .cString str => str.elim (ascii "(null)") CString.text
  | .unsignedCString str => str.elim (ascii "(null)") CString.text
  | .string v => v
  | .buffer v _ => v.content
  | .threadId id _ => ascii " " ++ P.threadId id ++ ascii " "

/-- The operand that is written: in the place of a thread's id that of the calling thread. -/
def Operand.asWritten : Operand Double Float → Operand Double Float
  | .threadId _ thisThread => .threadId thisThread thisThread
  | operand => operand

variable (P) in
/-- The room that an operand asks for. -/
def Operand.room (operand : Operand Double Float) : ℕ :=
  match operand with
  | .short _ | .unsignedShort _ | .int _ | .unsignedInt _ | .long _ | .unsignedLong _
  | .longLong _ | .unsignedLongLong _ | .pointer _ | .float _ | .double _ => 32
  | _ => (operand.asWritten.text P).length + 1

/-- The call as it is carried out. -/
def Call.asWritten : Call Double Float → Call Double Float
  | .put operand => .put operand.asWritten
  | .append data len readable => .append data len readable
  | .debugString => .debugString

variable (P) in
/-- The text that a call is to add. -/
def Call.text : Call Double Float → List Byte
  | .put operand => operand.text P
  | .append data len _ => data.take len.val.toNat
  | .debugString => []

variable (P) in
def Call.room : Call Double Float → ℕ
  | .put operand => operand.room P
  | .append data len _ => (data.take len.val.toNat).length + 1
  | .debugString => 1

theorem put_adds (hprint : ∀ v, (P.general v).length ≤ 31) (operand : Operand Double Float) :
    Adds (·.put P operand) (operand.asWritten.text P) (operand.room P) := by
  cases operand with
  | bool v =>
    cases v with
    | false => exact bufferAppend_adds (ascii "0" ++ [0]) (by decide)
    | true => exact bufferAppend_adds (ascii "1" ++ [0]) (by decide)
  | short v => exact formatInteger_adds v.ofShort
  | unsignedShort v => exact formatInteger_adds v.ofUnsignedShort
  | int v => exact formatInteger_adds v
  | unsignedInt v => exact formatInteger_adds v
  | long v => exact formatInteger_adds v
  | unsignedLong v => exact formatInteger_adds v
  | longLong v => exact formatInteger_adds v
  | unsignedLongLong v => exact formatInteger_adds v
  | pointer p => exact putPointer_adds p
  | float v => exact putDouble_adds (hprint _)
  | double v => exact putDouble_adds (hprint v)
  | char v => exact bufferAppend_adds [v] (le_refl 1)
  | cString str => exact putCString_adds str
  | unsignedCString str => exact putCString_adds str
  | string v => exact putString_adds v
  | buffer v within =>
    simp only [LogStream.put, within.toString_eq, bind_ok]
    exact putString_adds v.content
  | threadId id thisThread => exact putString_adds _

theorem debugString_adds : Adds (·.debugString) [] 1 := by
  intro s hfits
  have hlt := hfits.lt
  refine ⟨⟨s.buffer.extend [] [0]⟩, ?_, hfits.extend ?_ hlt, ?_⟩
  · simp only [LogStream.debugString, FixedBuffer.debugString,
      store_ok (by rw [hfits.size]; exact hlt), bind_ok]
    rfl
  · rw [List.nil_append, List.length_singleton]
    exact hlt
  · rw [if_pos (by omega)]
    exact hfits.content_extend [] [0]

theorem step_adds (hprint : ∀ v, (P.general v).length ≤ 31) (call : Call Double Float) :
    Adds (step P · call) (call.asWritten.text P) (call.room P) := by
  cases call with
  | put operand => exact put_adds hprint operand
  | append data len readable => exact append_adds readable
  | debugString => exact debugString_adds

/-! ## Runs -/

variable (P) in
/-- What a call adds, and the room that it asks for. -/
def Call.piece (call : Call Double Float) : Piece Byte := ⟨call.asWritten.text P, call.room P⟩

theorem FixedBuffer.Fits.length_content {b : FixedBuffer kSmallBuffer} (h : b.Fits) :
    b.content.length = b.cur := by
  rw [content, List.length_take, h.size, Nat.min_eq_left h.lt.le]

theorem FixedBuffer.Fits.length_le {b : FixedBuffer kSmallBuffer} (h : b.Fits) :
    b.length ≤ kSmallBuffer - 1 := by
  have hlt := h.lt
  have hsmall := kSmallBuffer_lt
  rw [FixedBuffer.length, toInt_eq (by omega) (by omega)]
  omega

/-- What a call leaves. -/
theorem step_content (hprint : ∀ v, (P.general v).length ≤ 31) {s : LogStream}
    (h : s.buffer.Fits) (call : Call Double Float) :
    ∃ t, step P s call = .ok t ∧ t.buffer.Fits ∧
      t.buffer.content = (call.piece P).add kSmallBuffer s.buffer.content := by
  obtain ⟨t, ht, hfits, hadds⟩ := step_adds hprint call s h
  refine ⟨t, ht, hfits, ?_⟩
  rw [Piece.add, Call.piece, h.length_content]
  split at hadds
  · rename_i hroom
    rw [if_pos hroom, hadds]
  · rename_i hroom
    rw [if_neg hroom, hadds]

/-- What a run leaves. -/
theorem run_content (hprint : ∀ v, (P.general v).length ≤ 31) {s : LogStream}
    (h : s.buffer.Fits) (calls : List (Call Double Float)) :
    ∃ t, Machine.run (step P) s calls = .ok t ∧ t.buffer.Fits ∧
      t.buffer.content =
        (calls.map (Call.piece P)).foldl (Piece.add kSmallBuffer) s.buffer.content := by
  induction calls generalizing s with
  | nil => exact ⟨s, Machine.run_nil, h, rfl⟩
  | cons call calls ih =>
    obtain ⟨u, hu, hfits, hcontent⟩ := step_content hprint h call
    obtain ⟨t, ht, hfits', hcontent'⟩ := ih hfits
    refine ⟨t, Machine.run_cons_eq_ok.mpr ⟨u, hu, ht⟩, hfits', ?_⟩
    rw [hcontent', hcontent, List.map_cons, List.foldl_cons]

/-- A call returns, and there is room for a terminator behind the content. -/
theorem step_bounded (hprint : ∀ v, (P.general v).length ≤ 31) {s : LogStream}
    (h : s.buffer.Fits) (call : Call Double Float) :
    ∃ t, step P s call = .ok t ∧ t.buffer.length ≤ kSmallBuffer - 1 := by
  obtain ⟨t, ht, hfits, -⟩ := step_adds hprint call s h
  exact ⟨t, ht, hfits.length_le⟩

theorem fits_of_step (hprint : ∀ v, (P.general v).length ≤ 31) {s t : LogStream}
    {call : Call Double Float} (h : s.buffer.Fits) (ht : step P s call = .ok t) :
    t.buffer.Fits := by
  obtain ⟨u, hu, hfits, -⟩ := step_adds hprint call s h
  obtain rfl := Except.ok.inj (ht.symm.trans hu)
  exact hfits

theorem fits_new (data : Vector Byte kSmallBuffer) : (LogStream.new data).buffer.Fits :=
  ⟨data.length_toList, Nat.zero_lt_succ 3999⟩

/-! ## Whole operands -/

variable (P) in
/-- The call returns, and the content has grown by the whole text of the call, or else nothing has
changed. -/
def Whole (s : LogStream) (call : Call Double Float) : Prop :=
  ∃ t, step P s call = .ok t ∧ (t.buffer.content = s.buffer.content ++ call.text P ∨ t = s)

variable (P) in
/-- The id of a thread is that of the calling thread, or there is no room for the latter. -/
def OwnId (s : LogStream) : Call Double Float → Prop
  | .put (.threadId id thisThread) =>
    id = thisThread ∨
      kSmallBuffer <
        s.buffer.cur + (Operand.threadId id thisThread : Operand Double Float).room P
  | _ => True

/-- Only the id of another thread is not written as it is to be. -/
theorem Call.text_asWritten (call : Call Double Float) :
    call.asWritten.text P = call.text P ∨
      ∃ id thisThread, call = .put (.threadId id thisThread) ∧ id ≠ thisThread := by
  cases call with
  | append data len readable => exact Or.inl rfl
  | debugString => exact Or.inl rfl
  | put operand =>
    cases operand with
    | threadId id thisThread =>
      by_cases hid : id = thisThread
      · exact Or.inl (by rw [hid]; rfl)
      · exact Or.inr ⟨id, thisThread, rfl, hid⟩
    | _ => exact Or.inl rfl

theorem threadId_text_inj (hids : Function.Injective P.threadId) {id id' : ThreadId}
    (h : ascii " " ++ P.threadId id ++ ascii " " = ascii " " ++ P.threadId id' ++ ascii " ") :
    id = id' := by
  rw [List.append_left_inj, List.append_right_inj] at h
  exact hids h

theorem whole_iff_ownId (hprint : ∀ v, (P.general v).length ≤ 31)
    (hids : Function.Injective P.threadId) {s : LogStream} (h : s.buffer.Fits)
    (call : Call Double Float) : Whole P s call ↔ OwnId P s call := by
  obtain ⟨t, ht, hfits, hadds⟩ := step_adds hprint call s h
  have ht : step P s call = .ok t := ht
  have hwhole : Whole P s call ↔ (t.buffer.content = s.buffer.content ++ call.text P ∨ t = s) := by
    rw [Whole, ht]
    simp
  rw [hwhole]
  rcases Call.text_asWritten (P := P) call with htext | ⟨id, thisThread, rfl, hid⟩
  · rw [htext] at hadds
    refine iff_of_true ?_ ?_
    · split at hadds
      · exact Or.inl hadds
      · exact Or.inr hadds
    · cases call with
      | append data len readable => trivial
      | debugString => trivial
      | put operand =>
        cases operand with
        | threadId id thisThread => exact Or.inl (threadId_text_inj hids htext).symm
        | _ => trivial
  · rw [OwnId, or_iff_right hid, ← not_le]
    split at hadds
    · rename_i hroom
      refine iff_of_false ?_ (not_not_intro hroom)
      rw [hadds]
      rintro (hsame | rfl)
      · exact hid (threadId_text_inj hids (List.append_cancel_left hsame)).symm
      · -- the text that was added is not empty
        have hnil := List.append_right_eq_self.mp hadds.symm
        exact absurd hnil (List.append_ne_nil_of_right_ne_nil _ (List.cons_ne_nil _ _))
    · rename_i hroom
      exact iff_of_true (Or.inr hadds) hroom

/-- What a run of whole calls leaves: the texts of some of the calls in their order. -/
theorem exists_kept (hprint : ∀ v, (P.general v).length ≤ 31) {s : LogStream}
    (h : s.buffer.Fits) {calls : List (Call Double Float)}
    (hwhole : Machine.Along (step P) (Whole P) s calls) :
    ∃ (t : LogStream) (kept : List (Call Double Float)),
      Machine.run (step P) s calls = .ok t ∧ kept.Sublist calls ∧
        t.buffer.content = s.buffer.content ++ kept.flatMap (Call.text P) := by
  induction calls generalizing s with
  | nil => exact ⟨s, [], rfl, List.Sublist.slnil, (List.append_nil _).symm⟩
  | cons call calls ih =>
    obtain ⟨⟨u, hu, hgrown⟩, hrest⟩ := Machine.along_cons.mp hwhole
    obtain ⟨t, kept, ht, hkept, hcontent⟩ := ih (fits_of_step hprint h hu) (hrest u hu)
    have hrun := Machine.run_cons_eq_ok.mpr ⟨u, hu, ht⟩
    rcases hgrown with hgrown | rfl
    · refine ⟨t, call :: kept, hrun, hkept.cons_cons call, ?_⟩
      rw [hcontent, hgrown, List.flatMap_cons, List.append_assoc]
    · exact ⟨t, kept, hrun, hkept.cons call, hcontent⟩

/-- Where `snprintf` keeps to 31 characters and different ids print differently, every sequence of
calls on a new stream returns without a write outside of the storage, and each call leaves room for
a terminator. **Each call is all or nothing exactly if every id of a thread is the calling thread's
or finds no room**, and then the content is in the end the texts of some of the calls in their
order. -/
theorem run_new_whole_iff (hprint : ∀ v, (P.general v).length ≤ 31)
    (hids : Function.Injective P.threadId) (data : Vector Byte kSmallBuffer)
    (calls : List (Call Double Float)) :
    Machine.Along (step P)
        (fun s call ↦ ∃ t, step P s call = .ok t ∧ t.buffer.length ≤ kSmallBuffer - 1)
        (LogStream.new data) calls ∧
      (Machine.Along (step P) (Whole P) (LogStream.new data) calls ↔
        Machine.Along (step P) (OwnId P) (LogStream.new data) calls) ∧
      (Machine.Along (step P) (OwnId P) (LogStream.new data) calls →
        ∃ (t : LogStream) (kept : List (Call Double Float)),
          Machine.run (step P) (LogStream.new data) calls = .ok t ∧ kept.Sublist calls ∧
          t.buffer.content = kept.flatMap (Call.text P)) := by
  have hfits := fits_new data
  have hpres {Q : LogStream → Call Double Float → Prop} (s : LogStream) (call : Call Double Float)
      (t : LogStream) (h : s.buffer.Fits) (_ : Q s call) (ht : step P s call = .ok t) :
      t.buffer.Fits := fits_of_step hprint h ht
  have hiff : Machine.Along (step P) (Whole P) (LogStream.new data) calls ↔
      Machine.Along (step P) (OwnId P) (LogStream.new data) calls :=
    Machine.along_congr hpres (fun s call h ↦ whole_iff_ownId hprint hids h call) hfits
  refine ⟨?_, hiff, fun hown ↦ ?_⟩
  · exact Machine.Along.guarantee (Q := fun _ _ ↦ True) hpres
      (fun s call h _ ↦ step_bounded hprint h call) (Machine.along_of_forall fun _ _ ↦ trivial)
      hfits
  · exact exists_kept hprint hfits (hiff.mpr hown)

theorem decimal_injective : Function.Injective fun id : ThreadId ↦ decimal id := by
  intro id id' h
  have hread := congrArg parseDecimal h
  rw [parseDecimal_decimal, parseDecimal_decimal] at hread
  exact Int.ofNat_inj.mp (Option.some.inj hread)

/-- A printing in which a thread's id is a number. -/
def somePrinting : Printing Unit Unit := ⟨id, fun _ ↦ ascii "1.5", fun id ↦ decimal id⟩

/-- A number of each kind, the id of the thread itself, a string that does not fit behind them, and
the id of another thread when there is no room for one. -/
theorem run_new_whole_of_numbers :
    let calls : List (Call Unit Unit) :=
      [.put (.double ()), .put (.long ⟨-2 ^ 63, by decide, by decide⟩), .put (.threadId 7 7),
        .put (.string (List.replicate 4000 0)), .put (.string (List.replicate 3971 0)),
        .put (.threadId 9 7), .debugString]
    let s := LogStream.new (Vector.replicate kSmallBuffer 0)
    Machine.Along (step somePrinting)
        (fun s call ↦ ∃ t, step somePrinting s call = .ok t ∧
          t.buffer.length ≤ kSmallBuffer - 1) s calls ∧
      (Machine.Along (step somePrinting) (Whole somePrinting) s calls ↔
        Machine.Along (step somePrinting) (OwnId somePrinting) s calls) ∧
      (Machine.Along (step somePrinting) (OwnId somePrinting) s calls →
        ∃ (t : LogStream) (kept : List (Call Unit Unit)),
          Machine.run (step somePrinting) s calls = .ok t ∧ kept.Sublist calls ∧
          t.buffer.content = kept.flatMap (Call.text somePrinting)) :=
  run_new_whole_iff (fun _ ↦ show (ascii "1.5").length ≤ 31 from by decide) decimal_injective _ _

/-- The id of another thread: the stream has the id of the calling thread in its place. -/
theorem not_whole_of_other :
    ¬Machine.Along (step somePrinting) (Whole somePrinting)
      (LogStream.new (Vector.replicate kSmallBuffer 0)) [.put (.threadId 9 7)] := by
  have hprint (v : Unit) : (somePrinting.general v).length ≤ 31 :=
    show (ascii "1.5").length ≤ 31 from by decide
  intro hwhole
  have hown := (whole_iff_ownId hprint decimal_injective (fits_new _) _).mp
    (Machine.along_cons.mp hwhole).1
  have hroom : (Operand.threadId 9 7 : Operand Unit Unit).room somePrinting = 4 := by
    decide
  rcases hown with hsame | hfull
  · exact absurd hsame (by decide)
  · rw [hroom] at hfull
    exact absurd hfull (by decide)

end Calls

end Log

end Twnl
