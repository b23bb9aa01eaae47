import Twnl.Buffer.Fill
import Twnl.Machine.Framing
import Twnl.Machine.Run

/-!
# Lines in a buffer

The buffer finds the end of a line in what is readable: `findCRLF` with `std::search`, which gives
the end of what it searched when it finds nothing, and `findEOL` with `memchr`. Whoever reads lines
takes out what is in front of the end that was found, and the end.

Lines that are taken out so are the frames of the stream that was put in: it does not matter in
which pieces this came, how far the storage moved meanwhile, or when the lines were asked for
(`lines_whole`). A search may go on from where an earlier one stopped, but for `\r\n` it has to step
back by one byte (`resumes_iff`).
-/

namespace Twnl

namespace Buffer

open Machine

/-! ## Searches -/

def kCRLF : List Byte := [13, 10]

/-- `std::search` between two positions of the storage. It gives the second when it finds
nothing. -/
def stdSearch (storage : List Byte) (first last : ℕ) (pattern : List Byte) : ℕ :=
  match search pattern (storage.window first last) with
  | some i => first + i
  | none => last

/-- `memchr` from a position of the storage on. -/
def memchr (storage : List Byte) (first : ℕ) (c : Byte) (n : ℕ) : Option ℕ :=
  (((storage.drop first).take n).idxOf? c).map (first + ·)

variable (b : Buffer)

def findCRLF : Option ℕ :=
  let crlf := stdSearch b.buffer b.readerIndex b.writerIndex kCRLF
  if crlf = b.writerIndex then none else some crlf

/-- `findCRLF(start)`. There are no asserts. -/
def findCRLFFrom (start : ℕ) : Option ℕ :=
  let crlf := stdSearch b.buffer start b.writerIndex kCRLF
  if crlf = b.writerIndex then none else some crlf

def findEOL : Option ℕ := memchr b.buffer b.readerIndex 10 b.readableBytes

/-- `findEOL(start)`, whose asserts are that the start is between `peek()` and `beginWrite()`. -/
def findEOLFrom (start : ℕ) (_ : b.readerIndex ≤ start) (_ : start ≤ b.writerIndex) : Option ℕ :=
  memchr b.buffer start 10 (sizeSub b.writerIndex start)

variable {b b' : Buffer} {start stop : ℕ} {data : List Byte}

theorem kCRLF_ne_nil : kCRLF ≠ [] := List.cons_ne_nil _ _

/-- A position in what is readable. -/
theorem window_from (h : b.readerIndex ≤ start) :
    b.buffer.window start b.writerIndex = b.readable.drop (start - b.readerIndex) := by
  have hsum : b.readerIndex + (start - b.readerIndex) = start := by omega
  rw [readable, ← List.window_add_left, hsum]

/-- The end of what was searched is no place where the pattern stands. -/
theorem findCRLFFrom_eq (h : b.WF) (hlo : b.readerIndex ≤ start) (hhi : start ≤ b.writerIndex) :
    b.findCRLFFrom start =
      (search kCRLF (b.readable.drop (start - b.readerIndex))).map (start + ·) := by
  rw [findCRLFFrom, stdSearch, window_from hlo]
  cases hs : search kCRLF (b.readable.drop (start - b.readerIndex)) with
  | none => exact if_pos rfl
  | some i =>
    have hle := add_length_le kCRLF_ne_nil hs
    rw [List.length_drop, h.length_readable, h.readableBytes_eq] at hle
    have hlen : kCRLF.length = 2 := rfl
    exact if_neg (by dsimp only; omega)

theorem findCRLF_eq (h : b.WF) :
    b.findCRLF = (search kCRLF b.readable).map (b.readerIndex + ·) := by
  have hfrom := findCRLFFrom_eq h (Nat.le_refl b.readerIndex) h.reader_le
  rw [Nat.sub_self, List.drop_zero] at hfrom
  exact hfrom

theorem search_singleton (c : Byte) (l : List Byte) : search [c] l = l.idxOf? c := by
  induction l with
  | nil => rfl
  | cons a l ih =>
    rw [List.idxOf?_cons]
    by_cases hac : a = c
    · rw [hac, search_here (l := c :: l) ⟨l, rfl⟩, if_pos (beq_self_eq_true c)]
    · have hpre : ¬[c] <+: a :: l := fun hpre ↦ hac (List.cons_prefix_cons.mp hpre).1.symm
      rw [search_later hpre, ih, if_neg (by simpa using hac)]

theorem findEOL_eq (h : b.WF) :
    b.findEOL = (search [10] b.readable).map (b.readerIndex + ·) := by
  rw [findEOL, memchr, search_singleton, h.readableBytes_eq]
  rfl

theorem findEOLFrom_eq (h : b.WF) (hlo : b.readerIndex ≤ start) (hhi : start ≤ b.writerIndex) :
    b.findEOLFrom start hlo hhi =
      (search [10] (b.readable.drop (start - b.readerIndex))).map (start + ·) := by
  have hw := h.writerIndex_le
  have hmax := maxSize_add_maxSize_lt
  rw [findEOLFrom, memchr, search_singleton, sizeSub_eq hhi (by omega), ← window_from hlo]
  rfl

/-! ## Reading lines -/

/-- The two ends of a line. -/
inductive LineEnd
  | crlf
  | eol
  deriving DecidableEq, Repr

def LineEnd.bytes : LineEnd → List Byte
  | .crlf => kCRLF
  | .eol => [10]

/-- The call that finds it. -/
def find (b : Buffer) : LineEnd → Option ℕ
  | .crlf => b.findCRLF
  | .eol => b.findEOL

variable {e : LineEnd}

theorem LineEnd.bytes_ne_nil : ∀ e : LineEnd, e.bytes ≠ []
  | .crlf => kCRLF_ne_nil
  | .eol => List.cons_ne_nil _ _

theorem find_eq (h : b.WF) (e : LineEnd) :
    b.find e = (search e.bytes b.readable).map (b.readerIndex + ·) := by
  cases e with
  | crlf => exact findCRLF_eq h
  | eol => exact findEOL_eq h

/-- A buffer with what was put in and the lines that were taken out. -/
structure LineSession where
  buffer : Buffer
  received : List Byte
  lines : List (List Byte)
  deriving DecidableEq, Repr

inductive LineOp
  | append (data : List Byte)
  | readFd (answer : ReadResult)
  /-- The line in front of the end that is found, if there is one, and then `retrieveUntil`. -/
  | line

/-- What an operation puts in. -/
def LineOp.put : LineOp → List Byte
  | append data => data
  | readFd (.data bytes) => bytes
  | readFd (.fails _) | line => []

/-- `std::string(peek(), stop)` and `retrieveUntil` behind the end of the line. -/
def takeLine (b : Buffer) (e : LineEnd) (stop : ℕ) : Except Fault (List Byte × Buffer) := do
  let rest ← b.retrieveUntil (stop + e.bytes.length)
  .ok (b.buffer.window b.readerIndex stop, rest)

def lineStep (e : LineEnd) (s : LineSession) : LineOp → Except Fault LineSession
  | .append data => do
    let b ← s.buffer.append data
    .ok { s with buffer := b, received := s.received ++ data }
  | .readFd answer => do
    let (_, _, b) ← s.buffer.readFd answer none
    .ok { s with buffer := b, received := s.received ++ (LineOp.readFd answer).put }
  | .line =>
    match s.buffer.find e with
    | none => .ok s
    | some stop => do
      let (str, b) ← s.buffer.takeLine e stop
      .ok { s with buffer := b, lines := s.lines ++ [str] }

/-- The lines taken out, and those that can be taken out now, are the frames of what was put in. -/
structure Framed (e : LineEnd) (s : LineSession) : Prop where
  wf : s.buffer.WF
  frames_eq : frames e.bytes s.received = (s.lines ++ (frames e.bytes s.buffer.readable).1,
    (frames e.bytes s.buffer.readable).2)

variable {s t : LineSession} {op : LineOp}

/-- What comes in is behind what was there, in the buffer and in the stream. -/
theorem Framed.receive (h : Framed e s) (hwf : b'.WF)
    (hread : b'.readable = s.buffer.readable ++ data) :
    Framed e { s with buffer := b', received := s.received ++ data } := by
  refine ⟨hwf, ?_⟩
  have happend := frames_append e.bytes_ne_nil s.received data
  have hbuffer := frames_append e.bytes_ne_nil s.buffer.readable data
  rw [h.frames_eq] at happend
  rw [hread, hbuffer]
  exact happend.trans (Prod.ext (List.append_assoc _ _ _) rfl)

theorem takeLine_spec {i : ℕ} (h : b.WF) (hs : search e.bytes b.readable = some i) :
    ∃ b', b.takeLine e (b.readerIndex + i) = .ok (b.readable.take i, b') ∧ b'.WF ∧
      b'.readable = b.readable.drop (i + e.bytes.length) := by
  have hle := add_length_le e.bytes_ne_nil hs
  rw [h.length_readable, h.readableBytes_eq] at hle
  have hreader := h.reader_le
  have hlo : b.readerIndex ≤ b.readerIndex + i + e.bytes.length := by omega
  have hhi : b.readerIndex + i + e.bytes.length ≤ b.writerIndex := by omega
  obtain ⟨b', hb', hwf, hread⟩ := retrieveUntil_spec h hlo hhi
  have hstr : b.buffer.window b.readerIndex (b.readerIndex + i) = b.readable.take i := by
    rw [readable, List.window, List.window, List.take_take, Nat.add_sub_cancel_left,
      Nat.min_eq_left (by omega)]
  refine ⟨b', ?_, hwf, ?_⟩
  · rw [takeLine, hb', bind_ok, hstr]
  · rw [hread]
    congr 1
    omega

theorem Framed.line (h : Framed e s) :
    Outcome (lineStep e s .line) (Framed e) BufferFault := by
  have hfind := find_eq h.wf e
  rw [lineStep]
  cases hs : search e.bytes s.buffer.readable with
  | none =>
    rw [hs] at hfind
    rw [hfind]
    exact h
  | some i =>
    obtain ⟨b', hb', hwf, hread⟩ := takeLine_spec h.wf hs
    rw [hs] at hfind
    rw [hfind]
    dsimp only [Option.map_some]
    rw [hb']
    refine ⟨hwf, ?_⟩
    have hframes := h.frames_eq
    rw [frames_of_some e.bytes_ne_nil hs, ← hread] at hframes
    exact hframes.trans (Prod.ext (List.append_cons _ _ _) rfl)

/-- The step lemma. -/
theorem Framed.step (h : Framed e s) (op : LineOp) :
    Outcome (lineStep e s op) (Framed e) BufferFault := by
  cases op with
  | append data =>
    refine Outcome.bind (outcome_of (fun b hb ↦ append_ok h.wf hb) fun _ ↦ append_error) ?_
    exact fun b hb ↦ h.receive hb.1 hb.2
  | readFd answer =>
    refine Outcome.bind (P := fun r ↦ r.2.2.WF ∧
      r.2.2.readable = s.buffer.readable ++ (LineOp.readFd answer).put)
      (outcome_of (fun r hr ↦ ?_) fun _ ↦ readFd_error) ?_
    · obtain ⟨n, saved, b⟩ := r
      obtain ⟨hwf, -, ⟨bytes, rfl, -, hread⟩ | ⟨x, rfl, -, rfl⟩⟩ := readFd_ok h.wf hr
      · exact ⟨hwf, hread⟩
      · exact ⟨hwf, (List.append_nil _).symm⟩
    · rintro ⟨n, saved, b⟩ ⟨hwf, hread⟩
      exact h.receive hwf hread
  | line => exact h.line

theorem framed_new {initialSize : ℕ} (h : new initialSize = .ok b) : Framed e ⟨b, [], []⟩ := by
  obtain ⟨hwf, hread, -⟩ := new_spec h
  refine ⟨hwf, ?_⟩
  have hnone : frames e.bytes ([] : List Byte) = ([], []) := rfl
  rw [hread, hnone]
  rfl

/-- What was put in by a run that returns. -/
theorem lineStep_received (h : lineStep e s op = .ok t) : t.received = s.received ++ op.put := by
  cases op with
  | append data =>
    obtain ⟨b, -, h⟩ := bind_eq_ok.mp h
    rw [← Except.ok.inj h]
    rfl
  | readFd answer =>
    obtain ⟨r, -, h⟩ := bind_eq_ok.mp h
    rw [← Except.ok.inj h]
  | line =>
    have hsame : t.received = s.received := by
      rw [lineStep] at h
      split at h
      · rw [← Except.ok.inj h]
      · obtain ⟨r, -, h⟩ := bind_eq_ok.mp h
        rw [← Except.ok.inj h]
    exact hsame.trans (List.append_nil _).symm

theorem run_received {ops : List LineOp} (h : run (lineStep e) s ops = .ok t) :
    t.received = s.received ++ ops.flatMap LineOp.put := by
  induction ops generalizing s with
  | nil =>
    rw [← Except.ok.inj h]
    exact (List.append_nil _).symm
  | cons op ops ih =>
    obtain ⟨u, hu, h⟩ := run_cons_eq_ok.mp h
    rw [ih h, lineStep_received hu, List.flatMap_cons, List.append_assoc]

/-- The run lemma. -/
theorem framed_run {initialSize : ℕ} (hnew : new initialSize = .ok b) (e : LineEnd)
    (ops : List LineOp) :
    Outcome (run (lineStep e) ⟨b, [], []⟩ ops)
      (fun t ↦ Framed e t ∧ t.received = ops.flatMap LineOp.put) BufferFault := by
  refine outcome_of (fun t hrun ↦ ⟨?_, run_received hrun⟩) fun x hrun ↦ ?_
  · exact run_inv (fun s op t hs ht ↦ (hs.step op).of_ok ht) (framed_new hnew) hrun
  · refine Along.run_error (fun s op t hs _ ht ↦ (hs.step op).of_ok ht) (fun s op x hs _ hx ↦ ?_)
      (along_of_forall fun _ _ ↦ trivial) (framed_new hnew) hrun
    have hfault := hs.step op
    rw [hx] at hfault
    exact hfault

/-- When no end is found there is no frame left. -/
theorem Framed.frames_of_find (h : Framed e s) (hnone : s.buffer.find e = none) :
    frames e.bytes s.received = (s.lines, s.buffer.readable) := by
  rw [find_eq h.wf, Option.map_eq_none_iff] at hnone
  rw [h.frames_eq, frames_of_none hnone, List.append_nil]

/-- The lines with their ends, and what is readable, are what came in. -/
theorem Framed.flatten_eq (h : Framed e s) :
    (s.lines.map (· ++ e.bytes)).flatten ++ s.buffer.readable = s.received := by
  have hreceived := flatten_frames e.bytes_ne_nil s.received
  have hreadable := flatten_frames e.bytes_ne_nil s.buffer.readable
  rw [h.frames_eq, List.map_append, List.flatten_append, List.append_assoc, hreadable] at hreceived
  exact hreceived

/-- **Lines are the frames of the stream.** Whatever the pieces in which bytes come in, and whenever
lines are asked for in between, no byte is lost and the lines taken out are the first frames of the
stream; and when no end is found they are all of them, and what is readable is the rest. -/
theorem lines_whole {initialSize : ℕ} (hnew : new initialSize = .ok b) (e : LineEnd)
    (ops : List LineOp) :
    Outcome (run (lineStep e) ⟨b, [], []⟩ ops) (fun t ↦
      (t.lines.map (· ++ e.bytes)).flatten ++ t.buffer.readable = ops.flatMap LineOp.put ∧
        t.lines <+: (frames e.bytes (ops.flatMap LineOp.put)).1 ∧
        (t.buffer.find e = none →
          frames e.bytes (ops.flatMap LineOp.put) = (t.lines, t.buffer.readable))) BufferFault := by
  refine (framed_run hnew e ops).imp ?_
  rintro t ⟨hframed, hreceived⟩
  rw [← hreceived]
  refine ⟨hframed.flatten_eq, ?_, fun hnone ↦ hframed.frames_of_find hnone⟩
  rw [hframed.frames_eq]
  exact List.prefix_append _ _

/-- A line comes in three pieces, the last of which has more than the line. -/
theorem lines_whole_of_pieces :
    ∃ b, new 8 = .ok b ∧ Outcome (run (lineStep .crlf) ⟨b, [], []⟩ [.append [65, 13], .line,
        .readFd (.data [10]), .append [66], .line, .readFd (.data [13, 10, 67]), .line])
      (fun t ↦ t.lines <+: [[65], [66]]) BufferFault := by
  obtain ⟨b, hb⟩ : ∃ b, new 8 = .ok b := ⟨_, rfl⟩
  exact ⟨b, hb, (lines_whole hb .crlf _).imp fun t h ↦ h.2.1.trans (by decide)⟩

/-- **What was sent as lines is read as lines.** When the stream is made of messages, each with the
end of a line behind it that does not stand in it earlier, the lines are the messages. -/
theorem lines_of_sent {initialSize : ℕ} (hnew : new initialSize = .ok b) (e : LineEnd)
    {ops : List LineOp} {msgs : List (List Byte)} (hclean : ∀ msg ∈ msgs, Clean e.bytes msg)
    (hsent : ops.flatMap LineOp.put = (msgs.map (· ++ e.bytes)).flatten) :
    Outcome (run (lineStep e) ⟨b, [], []⟩ ops) (fun t ↦ t.lines <+: msgs ∧
      (t.buffer.find e = none → t.lines = msgs ∧ t.buffer.readable = [])) BufferFault := by
  have hframes : frames e.bytes (ops.flatMap LineOp.put) = (msgs, []) := by
    have hnil : search e.bytes [] = none := if_neg e.bytes_ne_nil
    rw [hsent, ← List.append_nil (List.flatten _), frames_flatten e.bytes_ne_nil hclean hnil]
  refine (framed_run hnew e ops).imp fun t ⟨hframed, hreceived⟩ ↦ ⟨?_, fun hnone ↦ ?_⟩
  · have hlines := hframed.frames_eq
    rw [hreceived, hframes] at hlines
    rw [(Prod.mk.inj hlines).1]
    exact List.prefix_append _ _
  · have hlines := hframed.frames_of_find hnone
    rw [hreceived, hframes] at hlines
    exact ⟨(Prod.mk.inj hlines).1.symm, (Prod.mk.inj hlines).2.symm⟩

/-- A message that ends in `\r`, and an empty one. -/
theorem lines_of_sent_two :
    ∃ b, new 8 = .ok b ∧ Outcome (run (lineStep .crlf) ⟨b, [], []⟩ [.append [65, 13, 13], .line,
        .readFd (.data [10, 13, 10]), .line, .line])
      (fun t ↦ t.lines <+: [[65, 13], []]) BufferFault := by
  obtain ⟨b, hb⟩ : ∃ b, new 8 = .ok b := ⟨_, rfl⟩
  exact ⟨b, hb, (lines_of_sent hb .crlf (by decide) (by decide)).imp fun _ h ↦ h.1⟩

/-! ## Going on with a search -/

/-- The end of a line that more has completed stands across the seam. -/
theorem kCRLF_at_seam {l : List Byte} {j : ℕ} (hnone : search kCRLF l = none) (hj : j < l.length)
    (hat : kCRLF <+: (l ++ data).drop j) :
    j + 1 = l.length ∧ l.getLast? = some 13 ∧ data.head? = some 10 := by
  have hseam : j + 1 = l.length := by
    by_contra hne
    have hin := (prefix_drop_append (show j + kCRLF.length ≤ l.length from by
      change j + 2 ≤ l.length
      omega)).mp hat
    exact (search_eq_none_iff kCRLF_ne_nil).mp hnone j hin
  obtain ⟨front, c, rfl⟩ : ∃ front c, l = front ++ [c] :=
    ⟨_, _, (List.dropLast_append_getLast (List.ne_nil_of_length_pos (by omega))).symm⟩
  have hfront : j = front.length := by
    rw [List.length_append, List.length_singleton] at hseam
    omega
  rw [hfront, List.append_assoc, List.drop_left] at hat
  obtain ⟨hc, hrest⟩ := List.cons_prefix_cons.mp hat
  refine ⟨hseam, ?_, ?_⟩
  · rw [List.getLast?_concat, hc]
  · obtain ⟨behind, rfl⟩ := hrest
    rfl

theorem kCRLF_of_seam {l : List Byte} (hl : l.getLast? = some 13) (hdata : data.head? = some 10) :
    ∃ j < l.length, kCRLF <+: (l ++ data).drop j := by
  obtain ⟨front, rfl⟩ := List.getLast?_eq_some_iff.mp hl
  obtain ⟨behind, rfl⟩ := List.head?_eq_some_iff.mp hdata
  refine ⟨front.length, ?_, behind, ?_⟩
  · rw [List.length_append, List.length_singleton]
    exact Nat.lt_succ_self _
  · rw [List.append_assoc, List.drop_left]
    rfl

/-- A search for a single byte that has found nothing may go on with what came. -/
theorem resumes_eol (h : b.WF) (happ : b.append data = .ok b') (hnone : b.findEOL = none)
    (hlo : b'.readerIndex ≤ b'.readerIndex + b.readable.length)
    (hhi : b'.readerIndex + b.readable.length ≤ b'.writerIndex) :
    b'.findEOLFrom (b'.readerIndex + b.readable.length) hlo hhi = b'.findEOL := by
  obtain ⟨hwf, hread⟩ := append_ok h happ
  have hne : [(10 : Byte)] ≠ [] := List.cons_ne_nil _ _
  rw [findEOL_eq h, Option.map_eq_none_iff] at hnone
  have hfront : ∀ j < b.readable.length, ¬[10] <+: (b.readable ++ data).drop j := by
    intro j hj hat
    have hin := (prefix_drop_append (show j + [(10 : Byte)].length ≤ b.readable.length from hj)).mp
      hat
    exact (search_eq_none_iff hne).mp hnone j hin
  rw [findEOLFrom_eq hwf hlo hhi, findEOL_eq hwf, Nat.add_sub_cancel_left, hread,
    ← (search_drop_iff hne _).mpr hfront, Option.map_map]
  congr 1
  exact funext fun i ↦ Nat.add_assoc _ _ _

/-- **A search goes on where it stopped.** When a search for `\r\n` has found nothing and more comes
in, a search that starts with what came finds the same as one from the front unless the two bytes
are on both sides of the seam, and one that starts a byte further back always does. -/
theorem resumes_iff (h : b.WF) (happ : b.append data = .ok b') {back : ℕ}
    (hback : back ≤ b.readable.length) (hnone : b.findCRLF = none) :
    b'.findCRLFFrom (b'.readerIndex + (b.readable.length - back)) = b'.findCRLF ↔
      0 < back ∨ ¬(b.readable.getLast? = some 13 ∧ data.head? = some 10) := by
  obtain ⟨hwf, hread⟩ := append_ok h happ
  have hlen := hwf.length_readable
  rw [hread, hwf.readableBytes_eq, List.length_append] at hlen
  have hreader := hwf.reader_le
  rw [findCRLF_eq h, Option.map_eq_none_iff] at hnone
  rw [findCRLFFrom_eq hwf (by omega) (by omega), findCRLF_eq hwf, Nat.add_sub_cancel_left]
  have hshift : (fun i ↦ b'.readerIndex + (b.readable.length - back) + i) =
      (b'.readerIndex + ·) ∘ ((b.readable.length - back) + ·) :=
    funext fun i ↦ Nat.add_assoc _ _ _
  have hinj : Function.Injective (Option.map (b'.readerIndex + ·)) :=
    Option.map_injective fun _ _ ↦ Nat.add_left_cancel
  rw [hshift, ← Option.map_map, hinj.eq_iff, search_drop_iff kCRLF_ne_nil, hread]
  constructor
  · intro hfront
    by_contra hnot
    obtain ⟨hback, hseam⟩ := not_or.mp hnot
    obtain ⟨j, hj, hat⟩ := kCRLF_of_seam (not_not.mp hseam).1 (not_not.mp hseam).2
    exact hfront j (by omega) hat
  · rintro hok j hj hat
    obtain ⟨hj', hlast, hhead⟩ := kCRLF_at_seam hnone (by omega) hat
    rcases hok with hpos | hseam
    · omega
    · exact hseam ⟨hlast, hhead⟩

/-- The two bytes of the end come one after the other. -/
theorem resumes_iff_of_seam :
    ∃ b b' : Buffer, b.findCRLF = none ∧ b.append [10] = .ok b' ∧
      ¬b'.findCRLFFrom (b'.readerIndex + (b.readable.length - 0)) = b'.findCRLF := by
  obtain ⟨b', hb'⟩ : ∃ b', append ⟨[65, 13, 0, 0], 0, 2⟩ [10] = .ok b' := ⟨_, rfl⟩
  refine ⟨⟨[65, 13, 0, 0], 0, 2⟩, b', by decide, hb', fun h ↦ ?_⟩
  have hwf : WF ⟨[65, 13, 0, 0], 0, 2⟩ := ⟨⟨by decide, by decide⟩, by decide⟩
  exact absurd ((resumes_iff hwf hb' (Nat.zero_le _) (by decide)).mp h) (by decide)

end Buffer

end Twnl
