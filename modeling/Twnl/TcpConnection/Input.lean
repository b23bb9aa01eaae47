import Twnl.TcpConnection.Lifecycle

/-!
# The input stream

A socket delivers bursts of chunks with waits between them, and then its input ends, with a last
burst before the end or without one. A level-triggered connection gets one answer of the kernel for
each call of `handleRead`, and an edge-triggered one all up to the next wait.

The level-triggered connection offers every byte to its message callback. The edge-triggered one
does so exactly when nothing comes with the end of the input and no call finds nothing to read
(`delivered_iff`): the result of a drain is the result of its last read, so that the bytes before an
end are not offered, and the zero of a drain that read nothing is taken for the end.
-/

namespace Twnl

namespace TcpConnection

open Buffer Machine ReadResult

/-! ## Scripts -/

/-- A read that delivers something. -/
structure Chunk where
  bytes : List Byte
  ne_nil : bytes ≠ []

/-- How the input ends. -/
inductive End
  | eof
  | error (e : Errno) (h : e ≠ .EAGAIN)

def End.answer : End → ReadResult
  | eof => .data []
  | error e _ => .fails e

def End.isError : End → Bool
  | eof => false
  | error _ _ => true

/-- The answers a socket gives: those of each burst and a wait after it, and those of the last burst
and the end after it. -/
structure Script where
  bursts : List (List Chunk)
  rest : List Chunk
  stop : End

def chunkBytes (burst : List Chunk) : List Byte := burst.flatMap Chunk.bytes

def chunkAnswers (burst : List Chunk) : List ReadResult := burst.map fun c ↦ .data c.bytes

/-- One call for each burst, up to the wait behind it, and one for the last burst and the end. -/
def edgeAnswers (bursts : List (List Chunk)) (rest : List Chunk) (stop : End) :
    List (List ReadResult) :=
  bursts.map (fun burst ↦ chunkAnswers burst ++ [.fails .EAGAIN]) ++
    [chunkAnswers rest ++ [stop.answer]]

namespace Script

def bytes (x : Script) : List Byte := x.bursts.flatMap chunkBytes ++ chunkBytes x.rest

def edgeReads (x : Script) : List (List ReadResult) := edgeAnswers x.bursts x.rest x.stop

/-- One call for each answer. -/
def levelReads (x : Script) : List (List ReadResult) := x.edgeReads.flatten.map fun a ↦ [a]

end Script

/-- A call of `handleRead`: what it reads, and what the message callback retrieves. -/
structure Call where
  reads : List ReadResult
  consumed : ℕ

def Call.env (c : Call) : Env := ⟨c.reads, fun _ ↦ .fails .EAGAIN, c.consumed, [], [], []⟩

/-- Successive calls. -/
def hear (k : Masks) (s : Session) (c : Call) : Except Fault Session := handleRead k s c.env

/-- The bytes that were retrieved, and those that had been offered when the message callback was
last called. -/
structure Heard where
  taken : List Byte
  offered : List Byte
  deriving DecidableEq, Repr

def Heard.next (h : Heard) : Effect → Heard
  | .messageCallback offered retrieved => ⟨h.taken ++ offered.take retrieved, h.taken ++ offered⟩
  | .accepted _ | .shutdownWrite | .connectionCallback _ | .closeCallback _ => h

def heard (log : List Effect) : Heard := log.foldl Heard.next ⟨[], []⟩

theorem heard_append (log log' : List Effect) :
    heard (log ++ log') = log'.foldl Heard.next (heard log) := List.foldl_append

/-- What happened before the close callback. -/
def beforeClose (log : List Effect) : List Effect :=
  log.takeWhile fun
    | .closeCallback _ => false
    | .accepted _ | .shutdownWrite | .connectionCallback _ | .messageCallback _ _ => true

/-- The stream that was offered, all of it before the close callback. -/
def Delivered (bytes : List Byte) (s : Session) : Prop :=
  (heard (beforeClose s.log)).offered = bytes ∧ (heard s.log).offered = bytes

instance (bytes : List Byte) : DecidablePred (Delivered bytes) := fun _ ↦
  inferInstanceAs (Decidable (_ ∧ _))

variable {k : Masks} {s s' : Session} {put : List Byte} {c : Call} {calls : List Call}

/-! ## One call -/

/-- The invariant of a connection that is up: all that came in was offered, and what was not
retrieved is still there. -/
structure Open (s : Session) (put : List Byte) : Prop where
  live : Live s
  up : s.Up
  unclosed : beforeClose s.log = s.log
  offered : (heard s.log).offered = put
  buffered : (heard s.log).taken ++ s.conn.inputBuffer.readable = put

theorem Open.delivered (h : Open s put) : Delivered put s :=
  ⟨by rw [h.unclosed, h.offered], h.offered⟩

/-- A connection that is closed, after `put` was offered. -/
structure Shut (s : Session) (put : List Byte) : Prop where
  live : Live s
  closed : s.conn.state = .kDisconnected
  inTime : (heard (beforeClose s.log)).offered = put
  done : beforeClose s.log ≠ s.log

theorem beforeClose_append {log : List Effect} (h : beforeClose log = log) (log' : List Effect) :
    beforeClose (log ++ log') = log ++ beforeClose log' := by
  rw [beforeClose, List.takeWhile_append, ← beforeClose, h, if_pos rfl]
  rfl

theorem beforeClose_append_of_ne {log : List Effect} (h : beforeClose log ≠ log)
    (log' : List Effect) : beforeClose (log ++ log') = beforeClose log := by
  have hlen : ¬(beforeClose log).length = log.length := fun hlen ↦
    h ((List.takeWhile_prefix _).eq_of_length hlen)
  rw [beforeClose, List.takeWhile_append]
  exact if_neg hlen

/-- A call that reads a count runs the message callback. -/
theorem handleRead_of_pos (h : s.conn.inputBuffer.WF) (hpos : 0 < readRet k c.reads) :
    Outcome (hear k s c) (fun s' ↦ ∃ b b' : Buffer, b'.WF ∧
      b.readable = s.conn.inputBuffer.readable ++ arrived k c.reads ∧
      b'.readable = b.readable.drop c.consumed ∧
      s' = ((s.withInput b).record (.messageCallback b.readable c.consumed)).withInput b')
      BufferFault := by
  rw [hear, handleRead]
  refine Outcome.bind (outcome_of (fun x hx ↦ readInput_ok h hx) fun e he ↦ readInput_error he) ?_
  rintro ⟨n, saved, b⟩ ⟨hwf, hread, hn⟩
  have hpos : 0 < n := lt_of_lt_of_eq hpos hn.symm
  change Outcome (if 0 < n then messageCallback k (s.withInput b) c.env else _) _ _
  rw [if_pos hpos, messageCallback]
  refine Outcome.bind (P := fun b' : Buffer ↦ b'.WF ∧ b'.readable = b.readable.drop c.consumed)
    (outcome_of (fun b' hb' ↦ ?_) fun e he ↦ (retrieve_error he).2 ▸ Or.inl rfl) ?_
  · obtain ⟨_, hcheck, -⟩ := bind_eq_ok.mp hb'
    obtain ⟨b'', hb'', hwf', hread'⟩ := retrieve_spec hwf (check_eq_ok.mp hcheck)
    obtain rfl := Except.ok.inj (hb''.symm.trans hb')
    exact ⟨hwf', hread'⟩
  · rintro b' ⟨hwf', hread'⟩
    exact ⟨b, b', hwf', hread, hread', rfl⟩

/-- A call that reads an error leaves what came before it in the buffer. -/
theorem handleRead_of_neg (h : s.conn.inputBuffer.WF) (hneg : readRet k c.reads < 0) :
    Outcome (hear k s c) (fun s' ↦ ∃ b : Buffer, b.WF ∧
      b.readable = s.conn.inputBuffer.readable ++ arrived k c.reads ∧ s' = s.withInput b)
      BufferFault := by
  rw [hear, handleRead]
  refine Outcome.bind (outcome_of (fun x hx ↦ readInput_ok h hx) fun e he ↦ readInput_error he) ?_
  rintro ⟨n, saved, b⟩ ⟨hwf, hread, hn⟩
  have hneg : n < 0 := lt_of_eq_of_lt hn hneg
  change Outcome (if 0 < n then _ else if n = 0 then _ else _) _ _
  rw [if_neg (by omega), if_neg (by omega)]
  exact ⟨b, hwf, hread, rfl⟩

/-- A call that reads zero closes. -/
theorem handleRead_of_zero (h : s.conn.inputBuffer.WF) (hzero : readRet k c.reads = 0) :
    (∃ e, hear k s c = .error e ∧ BufferFault e) ∨ ∃ b : Buffer, b.WF ∧
      hear k s c = handleClose k (s.withInput b) c.env := by
  rw [hear, handleRead]
  cases hread : readInput k s.conn.inputBuffer c.env.reads with
  | error e => exact Or.inl ⟨e, rfl, readInput_error hread⟩
  | ok x =>
    obtain ⟨n, saved, b⟩ := x
    obtain ⟨hwf, -, hn⟩ := readInput_ok h hread
    obtain rfl : n = 0 := hn.trans hzero
    exact Or.inr ⟨b, hwf, rfl⟩

theorem Open.of_pos (h : Open s put) (hpos : 0 < readRet k c.reads) :
    Outcome (hear k s c) (fun s' ↦ Open s' (put ++ arrived k c.reads)) BufferFault := by
  refine (handleRead_of_pos h.live.input hpos).imp ?_
  rintro s' ⟨b, b', hwf, hread, hread', rfl⟩
  have hput : (heard s.log).taken ++ b.readable = put ++ arrived k c.reads := by
    rw [hread, ← List.append_assoc, h.buffered]
  refine ⟨⟨hwf, h.live.output, h.live.standing⟩, h.up, ?_, ?_, ?_⟩
  · change beforeClose (s.log ++ [.messageCallback b.readable c.consumed]) = _
    rw [beforeClose_append h.unclosed]
    rfl
  · change (heard (s.log ++ [.messageCallback b.readable c.consumed])).offered = _
    rw [heard_append]
    exact hput
  · change (heard (s.log ++ [.messageCallback b.readable c.consumed])).taken ++ b'.readable = _
    rw [heard_append, hread', ← hput]
    change (heard s.log).taken ++ b.readable.take c.consumed ++ b.readable.drop c.consumed = _
    rw [List.append_assoc, List.take_append_drop]

theorem Open.of_neg (h : Open s put) (hneg : readRet k c.reads < 0) :
    Outcome (hear k s c) (fun s' ↦ Delivered put s' ∧ (arrived k c.reads = [] → Open s' put))
      BufferFault := by
  refine (handleRead_of_neg h.live.input hneg).imp ?_
  rintro s' ⟨b, hwf, hread, rfl⟩
  refine ⟨h.delivered, fun hnil ↦ ⟨⟨hwf, h.live.output, h.live.standing⟩, h.up, h.unclosed,
    h.offered, ?_⟩⟩
  rw [hnil, List.append_nil] at hread
  change (heard s.log).taken ++ b.readable = put
  rw [hread, h.buffered]

theorem Open.of_zero (h : Open s put) (hzero : readRet k c.reads = 0) :
    Outcome (hear k s c) (fun s' ↦ Shut s' put ∧ Delivered put s') BufferFault := by
  rcases handleRead_of_zero h.live.input hzero with ⟨e, he, hbuffer⟩ | ⟨b, hwf, hclose⟩
  · rw [he]
    exact hbuffer
  · have hfilled : Live (s.withInput b) := ⟨hwf, h.live.output, h.live.standing⟩
    obtain ⟨s₁, hs₁, hcalled, hlive, hclosed, -⟩ := disableAll_spec (k := k) hfilled
    have hlog : s₁.log = s.log := hcalled.log_eq
    have hup : (s.withInput b).Up := h.up
    rw [hclose, handleClose, check_pos hup, bind_ok, hs₁]
    change Outcome (.ok ((s₁.record (.connectionCallback s₁.glance)).record (.closeCallback _))) _ _
    -- the close callback is the first of its kind
    have hbefore : beforeClose (s₁.log ++ [.connectionCallback s₁.glance] ++
        [.closeCallback (s₁.record (.connectionCallback s₁.glance)).glance]) =
        s.log ++ [.connectionCallback s₁.glance] := by
      rw [hlog, List.append_assoc, beforeClose_append h.unclosed]
      rfl
    have hheard : (heard (s₁.log ++ [.connectionCallback s₁.glance] ++
        [.closeCallback (s₁.record (.connectionCallback s₁.glance)).glance])).offered = put := by
      rw [hlog, List.append_assoc, heard_append]
      exact h.offered
    have hinTime : (heard (s.log ++ [.connectionCallback s₁.glance])).offered = put := by
      rw [heard_append]
      exact h.offered
    refine ⟨⟨⟨hlive.input, hlive.output, hlive.standing⟩, hclosed, ?_, ?_⟩, ?_, hheard⟩
    · exact (congrArg (fun log ↦ (heard log).offered) hbefore).trans hinTime
    · intro heq
      have hlen := congrArg List.length (hbefore.symm.trans heq)
      rw [Session.record, Session.record, hlog, List.length_append, List.length_append,
        List.length_append] at hlen
      exact absurd hlen (by simp)
    · exact (congrArg (fun log ↦ (heard log).offered) hbefore).trans hinTime

/-- A call on a closed connection returns only if it does not close again, and what was offered in
time stays the same. -/
theorem Shut.of_ok (h : Shut s put) (hs' : hear k s c = .ok s') :
    Shut s' put ∧ readRet k c.reads ≠ 0 := by
  rcases Int.lt_trichotomy (readRet k c.reads) 0 with hneg | hzero | hpos
  · obtain ⟨b, hwf, -, rfl⟩ := (handleRead_of_neg h.live.input hneg).of_ok hs'
    exact ⟨⟨⟨hwf, h.live.output, h.live.standing⟩, h.closed, h.inTime, h.done⟩, Int.ne_of_lt hneg⟩
  · rcases handleRead_of_zero h.live.input hzero with ⟨e, he, -⟩ | ⟨b, -, hclose⟩
    · exact absurd (he.symm.trans hs') error_ne_ok
    · -- the assert of `handleClose`
      have hdown : ¬(s.withInput b).Up := by
        rintro (hup | hup)
        · exact absurd (h.closed.symm.trans hup) (by decide)
        · exact absurd (h.closed.symm.trans hup) (by decide)
      rw [hclose, handleClose, check_neg hdown] at hs'
      exact absurd hs' error_ne_ok
  · obtain ⟨b, b', hwf, -, -, rfl⟩ := (handleRead_of_pos h.live.input hpos).of_ok hs'
    have hbefore : beforeClose (s.log ++ [.messageCallback b.readable c.consumed]) =
        beforeClose s.log := beforeClose_append_of_ne h.done _
    refine ⟨⟨⟨hwf, h.live.output, h.live.standing⟩, h.closed, ?_, ?_⟩, (Int.ne_of_lt hpos).symm⟩
    · exact (congrArg (fun log ↦ (heard log).offered) hbefore).trans h.inTime
    · intro heq
      have hlen := congrArg List.length (hbefore.symm.trans heq)
      have hle : (beforeClose s.log).length ≤ s.log.length := (List.takeWhile_prefix _).length_le
      change (beforeClose s.log).length = (s.log ++ [_]).length at hlen
      rw [List.length_append, List.length_singleton] at hlen
      omega

/-! ## What a burst is read as -/

theorem chunkBytes_eq_nil {burst : List Chunk} : chunkBytes burst = [] ↔ burst = [] := by
  rw [chunkBytes, List.flatMap_eq_nil_iff]
  refine ⟨fun h ↦ List.eq_nil_iff_forall_not_mem.mpr fun c hc ↦ c.ne_nil (h c hc), ?_⟩
  rintro rfl c hc
  exact absurd hc List.not_mem_nil

theorem End.answer_ret_nonpos (stop : End) : stop.answer.ret ≤ 0 := by
  cases stop with
  | eof => exact Int.le_refl 0
  | error e h => exact (by decide : (-1 : ℤ) ≤ 0)

theorem End.answer_ne (stop : End) : stop.answer ≠ .fails .EAGAIN := by
  cases stop with
  | eof => exact nofun
  | error e h => exact fun heq ↦ h (ReadResult.fails.inj heq)

/-- What the level-triggered connection gets of the answers, one by one. -/
def singly (answers : List ReadResult) : List Byte := answers.flatMap fun a ↦ first [a]

theorem singly_append (as bs : List ReadResult) : singly (as ++ bs) = singly as ++ singly bs :=
  List.flatMap_append

theorem singly_chunkAnswers (burst : List Chunk) :
    singly (chunkAnswers burst) = chunkBytes burst := by
  rw [singly, chunkAnswers, List.flatMap_map, chunkBytes]
  rfl

/-- The answers before the end. -/
def Script.answers (x : Script) : List ReadResult :=
  x.bursts.flatMap (fun burst ↦ chunkAnswers burst ++ [.fails .EAGAIN]) ++ chunkAnswers x.rest

theorem Script.levelReads_eq (x : Script) :
    x.levelReads = (x.answers ++ [x.stop.answer]).map fun a ↦ [a] := by
  rw [levelReads, edgeReads, edgeAnswers, List.flatten_append, ← List.flatMap_def,
    List.flatten_singleton, ← List.append_assoc]
  rfl

theorem Script.singly_answers (x : Script) : singly x.answers = x.bytes := by
  rw [answers, bytes, singly_append, singly_chunkAnswers]
  refine congrArg (· ++ chunkBytes x.rest) ?_
  induction x.bursts with
  | nil => rfl
  | cons burst bursts ih =>
    rw [List.flatMap_cons, List.flatMap_cons, singly_append, singly_append, singly_chunkAnswers, ih]
    exact congrArg (· ++ bursts.flatMap chunkBytes) (List.append_nil _)

theorem Script.ne_of_mem_answers {x : Script} {a : ReadResult} (ha : a ∈ x.answers) :
    a ≠ .data [] := by
  have hchunk : ∀ burst : List Chunk, a ∈ chunkAnswers burst → a ≠ .data [] := by
    intro burst ha
    obtain ⟨c, -, rfl⟩ := List.mem_map.mp ha
    exact fun heq ↦ c.ne_nil (ReadResult.data.inj heq)
  rcases List.mem_append.mp ha with ha | ha
  · obtain ⟨burst, -, ha⟩ := List.mem_flatMap.mp ha
    rcases List.mem_append.mp ha with ha | ha
    · exact hchunk burst ha
    · rw [List.mem_singleton.mp ha]
      exact nofun
  · exact hchunk x.rest ha

/-- A drain delivers the burst, and the answer behind it is its last. -/
theorem drain_burst {a : ReadResult} (hlast : last [a] = a) (hnone : delivered [a] = [])
    (burst : List Chunk) : last (chunkAnswers burst ++ [a]) = a ∧
      delivered (chunkAnswers burst ++ [a]) = chunkBytes burst := by
  induction burst with
  | nil => exact ⟨hlast, hnone⟩
  | cons c burst ih =>
    obtain ⟨bytes, hne⟩ := c
    obtain ⟨byte, bytes, rfl⟩ := List.exists_cons_of_ne_nil hne
    refine ⟨ih.1, ?_⟩
    change byte :: bytes ++ delivered (chunkAnswers burst ++ [a]) = _
    rw [ih.2]
    rfl

theorem drain_wait (burst : List Chunk) :
    arrived (Masks.initDefaultEvent .ET) (chunkAnswers burst ++ [.fails .EAGAIN]) =
        chunkBytes burst ∧
      readRet (Masks.initDefaultEvent .ET) (chunkAnswers burst ++ [.fails .EAGAIN]) =
        (chunkBytes burst).length := by
  obtain ⟨hlast, hdelivered⟩ := drain_burst (a := .fails .EAGAIN) rfl rfl burst
  have hET : (Masks.initDefaultEvent .ET).isET = true := by decide
  rw [arrived, readRet, if_pos hET, if_pos hET, if_pos hlast, hdelivered]
  exact ⟨rfl, rfl⟩

theorem drain_stop (burst : List Chunk) (stop : End) :
    arrived (Masks.initDefaultEvent .ET) (chunkAnswers burst ++ [stop.answer]) =
        chunkBytes burst ∧
      readRet (Masks.initDefaultEvent .ET) (chunkAnswers burst ++ [stop.answer]) =
        stop.answer.ret := by
  obtain ⟨hlast, hdelivered⟩ := drain_burst (a := stop.answer) (by cases stop <;> rfl)
    (by cases stop <;> rfl) burst
  have hET : (Masks.initDefaultEvent .ET).isET = true := by decide
  rw [arrived, readRet, if_pos hET, if_pos hET, hlast, if_neg stop.answer_ne, hdelivered]
  exact ⟨rfl, rfl⟩

/-! ## The level-triggered connection -/

/-- A run over a first call and the others. -/
theorem outcome_run_cons {P Q : Session → Prop} {E : Fault → Prop}
    (hone : Outcome (hear k s c) P E) (hrest : ∀ t, P t → Outcome (run (hear k) t calls) Q E) :
    Outcome (run (hear k) s (c :: calls)) Q E := by
  rw [run]
  cases hstep : hear k s c with
  | ok t => exact hrest t (hone.of_ok hstep)
  | error e =>
    rw [hstep] at hone
    exact hone

/-- One answer that ends nothing is offered. -/
theorem Open.of_single {a : ReadResult} (h : Open s put) (ha : a ≠ .data [])
    (hreads : c.reads = [a]) :
    Outcome (hear (Masks.initDefaultEvent .LT) s c) (fun s' ↦ Open s' (put ++ first [a]))
      BufferFault := by
  cases a with
  | fails e =>
    have hneg : readRet (Masks.initDefaultEvent .LT) c.reads < 0 := by
      rw [hreads]
      exact (by decide : (-1 : ℤ) < 0)
    refine (h.of_neg hneg).imp fun s' hs' ↦ ?_
    change Open s' (put ++ [])
    rw [List.append_nil]
    exact hs'.2 (by rw [hreads]; rfl)
  | data bytes =>
    obtain ⟨byte, bytes, rfl⟩ := List.exists_cons_of_ne_nil fun hnil ↦ ha (congrArg _ hnil)
    have hpos : 0 < readRet (Masks.initDefaultEvent .LT) c.reads := by
      rw [hreads]
      exact Int.natCast_pos.mpr (Nat.succ_pos _)
    refine (h.of_pos hpos).imp fun s' hs' ↦ ?_
    rw [hreads] at hs'
    exact hs'

/-- It offers everything, whatever comes with the end. -/
theorem level_delivered {stop : End} {answers : List ReadResult} (h : Open s put)
    (hanswers : ∀ a ∈ answers, a ≠ .data [])
    (hcalls : calls.map Call.reads = (answers ++ [stop.answer]).map fun a ↦ [a]) :
    Outcome (run (hear (Masks.initDefaultEvent .LT)) s calls) (Delivered (put ++ singly answers))
      BufferFault := by
  induction answers generalizing s put calls with
  | nil =>
    obtain ⟨c, calls, rfl, hc, hnil⟩ := List.map_eq_cons_iff.mp hcalls
    obtain rfl := List.map_eq_nil_iff.mp hnil
    refine outcome_run_cons (P := Delivered put) ?_ fun t ht ↦ ?_
    · rcases Int.lt_or_eq_of_le stop.answer_ret_nonpos with hneg | hzero
      · exact (h.of_neg (by rw [hc]; exact hneg)).imp fun _ hs' ↦ hs'.1
      · exact (h.of_zero (by rw [hc]; exact hzero)).imp fun _ hs' ↦ hs'.2
    · change Delivered (put ++ []) t
      rw [List.append_nil]
      exact ht
  | cons a answers ih =>
    obtain ⟨c, calls, rfl, hc, hrest⟩ := List.map_eq_cons_iff.mp hcalls
    refine outcome_run_cons (h.of_single (hanswers a List.mem_cons_self) hc) fun t ht ↦ ?_
    refine (ih ht (fun b hb ↦ hanswers b (List.mem_cons_of_mem a hb)) hrest).imp fun u hu ↦ ?_
    rw [List.append_assoc] at hu
    exact hu

/-! ## The edge-triggered connection -/

/-- Nothing comes with the end of the input, and no call finds nothing to read, unless it is the
last before an error. -/
def Timely : List (List Chunk) → List Chunk → End → Prop
  | [], rest, _ => rest = []
  | burst :: bursts, rest, stop => (burst ≠ [] ∧ Timely bursts rest stop) ∨
    (burst = [] ∧ bursts = [] ∧ rest = [] ∧ stop.isError = true)

variable {bursts : List (List Chunk)} {rest : List Chunk} {stop : End}

/-- The last call offers nothing new. -/
theorem Open.of_stop (h : Open s put) (hc : c.reads = chunkAnswers rest ++ [stop.answer]) :
    Outcome (hear (Masks.initDefaultEvent .ET) s c) (Delivered put) BufferFault := by
  obtain ⟨-, hret⟩ := drain_stop rest stop
  rcases Int.lt_or_eq_of_le stop.answer_ret_nonpos with hneg | hzero
  · exact (h.of_neg (by rw [hc, hret]; exact hneg)).imp fun _ hs' ↦ hs'.1
  · exact (h.of_zero (by rw [hc, hret]; exact hzero)).imp fun _ hs' ↦ hs'.2

/-- A call that ends in a wait offers its burst. -/
theorem Open.of_burst {burst : List Chunk} (h : Open s put) (hne : burst ≠ [])
    (hc : c.reads = chunkAnswers burst ++ [.fails .EAGAIN]) :
    Outcome (hear (Masks.initDefaultEvent .ET) s c) (fun s' ↦ Open s' (put ++ chunkBytes burst))
      BufferFault := by
  obtain ⟨harrived, hret⟩ := drain_wait burst
  have hpos : 0 < readRet (Masks.initDefaultEvent .ET) c.reads := by
    rw [hc, hret]
    exact Int.natCast_pos.mpr (List.length_pos_of_ne_nil (mt chunkBytes_eq_nil.mp hne))
  refine (h.of_pos hpos).imp fun s' hs' ↦ ?_
  rw [hc, harrived] at hs'
  exact hs'

/-- A call that finds nothing to read closes. -/
theorem Open.of_wait (h : Open s put) (hc : c.reads = [.fails .EAGAIN]) :
    Outcome (hear (Masks.initDefaultEvent .ET) s c) (fun s' ↦ Shut s' put ∧ Delivered put s')
      BufferFault :=
  h.of_zero (by rw [hc]; decide)

/-- Timely input is offered. -/
theorem Timely.delivered (htimely : Timely bursts rest stop) (h : Open s put)
    (hcalls : calls.map Call.reads = edgeAnswers bursts rest stop) :
    Outcome (run (hear (Masks.initDefaultEvent .ET)) s calls)
      (Delivered (put ++ (bursts.flatMap chunkBytes ++ chunkBytes rest))) BufferFault := by
  induction bursts generalizing s put calls with
  | nil =>
    obtain rfl : rest = [] := htimely
    obtain ⟨c, calls, rfl, hc, hnil⟩ := List.map_eq_cons_iff.mp hcalls
    obtain rfl := List.map_eq_nil_iff.mp hnil
    refine outcome_run_cons (h.of_stop hc) fun t ht ↦ ?_
    change Delivered (put ++ []) t
    rw [List.append_nil]
    exact ht
  | cons burst bursts ih =>
    obtain ⟨c, calls, rfl, hc, hrest⟩ := List.map_eq_cons_iff.mp hcalls
    rcases htimely with ⟨hne, htimely⟩ | ⟨rfl, rfl, rfl, herror⟩
    · refine outcome_run_cons (h.of_burst hne hc) fun t ht ↦ ?_
      refine (ih htimely ht hrest).imp fun u hu ↦ ?_
      rw [List.append_assoc] at hu
      rw [List.flatMap_cons, List.append_assoc]
      exact hu
    · obtain ⟨c', calls, rfl, hc', hnil⟩ := List.map_eq_cons_iff.mp hrest
      obtain rfl := List.map_eq_nil_iff.mp hnil
      refine outcome_run_cons (h.of_wait hc) fun t ht ↦ ?_
      have hneg : readRet (Masks.initDefaultEvent .ET) c'.reads < 0 := by
        rw [hc', (drain_stop [] stop).2]
        cases stop with
        | eof => exact absurd herror nofun
        | error e he => exact (by decide : (-1 : ℤ) < 0)
      refine outcome_run_cons (handleRead_of_neg ht.1.live.input hneg) ?_
      rintro u ⟨b, -, -, rfl⟩
      change Delivered (put ++ []) (t.withInput b)
      rw [List.append_nil]
      exact ht.2

/-- On a closed connection each call reads something, and what was offered in time stays. -/
theorem Shut.of_run {t : Session} (h : Shut s put) (ht : run (hear k) s calls = .ok t) :
    Shut t put ∧ ∀ c ∈ calls, readRet k c.reads ≠ 0 := by
  induction calls generalizing s with
  | nil =>
    obtain rfl := Except.ok.inj ht
    exact ⟨h, fun c hc ↦ absurd hc List.not_mem_nil⟩
  | cons c calls ih =>
    obtain ⟨s', hs', ht⟩ := run_cons_eq_ok.mp ht
    obtain ⟨hshut, hne⟩ := h.of_ok hs'
    obtain ⟨hend, hrest⟩ := ih hshut ht
    refine ⟨hend, fun c' hc' ↦ ?_⟩
    rcases List.mem_cons.mp hc' with rfl | hc'
    · exact hne
    · exact hrest c' hc'

/-- Input that is offered was timely. -/
theorem timely_of_delivered {t : Session} (h : Open s put)
    (hcalls : calls.map Call.reads = edgeAnswers bursts rest stop)
    (ht : run (hear (Masks.initDefaultEvent .ET)) s calls = .ok t)
    (hdelivered : Delivered (put ++ (bursts.flatMap chunkBytes ++ chunkBytes rest)) t) :
    Timely bursts rest stop := by
  induction bursts generalizing s put calls with
  | nil =>
    obtain ⟨c, calls, rfl, hc, hnil⟩ := List.map_eq_cons_iff.mp hcalls
    obtain rfl := List.map_eq_nil_iff.mp hnil
    obtain ⟨s', hs', ht⟩ := run_cons_eq_ok.mp ht
    obtain rfl := Except.ok.inj ht
    have hput := ((h.of_stop hc).of_ok hs').2.symm.trans hdelivered.2
    exact chunkBytes_eq_nil.mp (List.self_eq_append_right.mp hput)
  | cons burst bursts ih =>
    obtain ⟨c, calls, rfl, hc, hrest⟩ := List.map_eq_cons_iff.mp hcalls
    obtain ⟨s', hs', ht⟩ := run_cons_eq_ok.mp ht
    by_cases hburst : burst = []
    · subst hburst
      -- the call closes, and what comes after it is too late
      obtain ⟨hshut, hreads⟩ := ((h.of_wait hc).of_ok hs').1.of_run ht
      have hnil := List.self_eq_append_right.mp (hshut.inTime.symm.trans hdelivered.1)
      obtain ⟨hbursts, hnone⟩ := List.append_eq_nil_iff.mp hnil
      obtain rfl := chunkBytes_eq_nil.mp hnone
      refine Or.inr ⟨rfl, ?_, rfl, ?_⟩
      · cases bursts with
        | nil => rfl
        | cons b bs =>
          rw [List.flatMap_cons, List.flatMap_cons, List.append_eq_nil_iff,
            List.append_eq_nil_iff] at hbursts
          obtain rfl := chunkBytes_eq_nil.mp hbursts.2.1
          obtain ⟨c', calls, rfl, hc', -⟩ := List.map_eq_cons_iff.mp hrest
          refine absurd ?_ (hreads c' List.mem_cons_self)
          rw [hc', (drain_wait []).2]
          rfl
      · cases stop with
        | error e he => rfl
        -- a second close fails the assert
        | eof =>
          have hlast : chunkAnswers [] ++ [End.eof.answer] ∈ calls.map Call.reads := by
            rw [hrest]
            exact List.mem_append_right _ (List.mem_singleton_self _)
          obtain ⟨c', hc', hreads'⟩ := List.mem_map.mp hlast
          refine absurd ?_ (hreads c' hc')
          rw [hreads', (drain_stop [] .eof).2]
          rfl
    · refine Or.inl ⟨hburst, ih ((h.of_burst hburst hc).of_ok hs') hrest ht ?_⟩
      rw [List.append_assoc, ← List.append_assoc (chunkBytes burst)]
      exact hdelivered

/-! ## Both connections -/

/-- A connection just established has heard nothing. -/
theorem open_established {m : Mode} {ptr : ℕ} {fd : ℤ} {wc : Bool} {hw : Option ℕ}
    {conn : TcpConnection} {poller : EpollPoller} (hnew : TcpConnection.new ptr fd wc hw = .ok conn)
    (hfresh : poller.Stands conn.channel .fresh)
    (hest : connectEstablished (Masks.initDefaultEvent m) (.start conn poller) [] = .ok s) :
    Open s [] := by
  have hnone := fresh_start hnew hfresh
  obtain ⟨s₁, hcalled, hlive, heq⟩ :=
    connectEstablished_of_fresh (k := Masks.initDefaultEvent m) hnone []
  have hlog : s₁.log = [] := hcalled.log_eq.trans hnone.log
  have hinput : s₁.conn.inputBuffer.readable = [] := by
    rw [hcalled.same]
    exact hnone.input.2
  rw [heq] at hest
  obtain rfl : s₁.record (.connectionCallback s₁.glance) = s := Except.ok.inj hest
  have hrecord : (s₁.record (.connectionCallback s₁.glance)).log =
      [.connectionCallback s₁.glance] := by
    rw [Session.record, hlog]
    rfl
  refine ⟨⟨hlive.input, hlive.output, hlive.standing⟩, Or.inl hcalled.state_eq, ?_, ?_, ?_⟩
  · rw [hrecord]
    rfl
  · rw [hrecord]
    rfl
  · rw [hrecord]
    exact hinput

/-- **Input is delivered before the connection ends** when it is level-triggered, and on an
edge-triggered connection exactly when it is timely or the run is stopped by its buffer. -/
theorem delivered_iff {ptr : ℕ} {fd : ℤ} {wc : Bool} {hw : Option ℕ} {conn : TcpConnection}
    {poller : EpollPoller} (hnew : TcpConnection.new ptr fd wc hw = .ok conn)
    (hfresh : poller.Stands conn.channel .fresh) {lt et : Session}
    (hlt : connectEstablished (Masks.initDefaultEvent .LT) (.start conn poller) [] = .ok lt)
    (het : connectEstablished (Masks.initDefaultEvent .ET) (.start conn poller) [] = .ok et)
    (x : Script) {level edge : List Call} (hlevel : level.map Call.reads = x.levelReads)
    (hedge : edge.map Call.reads = x.edgeReads) :
    (Outcome (run (hear (Masks.initDefaultEvent .LT)) lt level) (Delivered x.bytes) BufferFault ∧
      Outcome (run (hear (Masks.initDefaultEvent .ET)) et edge) (Delivered x.bytes) BufferFault) ↔
      Timely x.bursts x.rest x.stop ∨
        Outcome (run (hear (Masks.initDefaultEvent .ET)) et edge) (fun _ ↦ False) BufferFault := by
  have hopen := open_established hnew hfresh hlt
  have hlevel : Outcome (run (hear (Masks.initDefaultEvent .LT)) lt level) (Delivered x.bytes)
      BufferFault := by
    rw [← x.singly_answers]
    exact level_delivered hopen (fun a ↦ Script.ne_of_mem_answers) (hlevel.trans x.levelReads_eq)
  have hopen := open_established hnew hfresh het
  refine ⟨fun ⟨_, hdelivered⟩ ↦ ?_, ?_⟩
  · cases ht : run (hear (Masks.initDefaultEvent .ET)) et edge with
    | ok t => exact Or.inl (timely_of_delivered hopen hedge ht (hdelivered.of_ok ht))
    | error e =>
      rw [ht] at hdelivered
      exact Or.inr hdelivered
  · rintro (htimely | hstopped)
    · exact ⟨hlevel, htimely.delivered hopen hedge⟩
    · exact ⟨hlevel, hstopped.imp fun _ ↦ False.elim⟩

/-- Two bursts, of which the callback leaves a byte at first, and then the end. -/
theorem delivered_of_bursts :
    ∃ lt et, connectEstablished (Masks.initDefaultEvent .LT) (.start newConn .new) [] = .ok lt ∧
      connectEstablished (Masks.initDefaultEvent .ET) (.start newConn .new) [] = .ok et ∧
      Outcome (run (hear (Masks.initDefaultEvent .LT)) lt
          [⟨[.data [1]], 0⟩, ⟨[.data [2, 3]], 2⟩, ⟨[.fails .EAGAIN], 0⟩, ⟨[.data [4]], 2⟩,
            ⟨[.fails .EAGAIN], 0⟩, ⟨[.data []], 0⟩])
        (Delivered [1, 2, 3, 4]) BufferFault ∧
      Outcome (run (hear (Masks.initDefaultEvent .ET)) et
          [⟨[.data [1], .data [2, 3], .fails .EAGAIN], 2⟩, ⟨[.data [4], .fails .EAGAIN], 2⟩,
            ⟨[.data []], 0⟩])
        (Delivered [1, 2, 3, 4]) BufferFault :=
  ⟨_, _, rfl, rfl, (delivered_iff new_eq_newConn stands_newConn rfl rfl
    ⟨[[⟨[1], nofun⟩, ⟨[2, 3], nofun⟩], [⟨[4], nofun⟩]], [], .eof⟩ rfl rfl).mpr
    (Or.inl (Or.inl ⟨nofun, Or.inl ⟨nofun, rfl⟩⟩))⟩

/-- A byte that comes with the end is never offered when it is read in one drain; and a call that
finds nothing to read closes, so that what comes after it is offered too late. -/
theorem not_delivered :
    ∃ et, connectEstablished (Masks.initDefaultEvent .ET) (.start newConn .new) [] = .ok et ∧
      Outcome (run (hear (Masks.initDefaultEvent .ET)) et [⟨[.data [7], .data []], 0⟩])
        (fun t ↦ t.conn.inputBuffer.readable = [7] ∧ t.conn.state = .kDisconnected ∧
          ¬Delivered [7] t) (fun _ ↦ False) ∧
      Outcome (run (hear (Masks.initDefaultEvent .ET)) et
          [⟨[.fails .EAGAIN], 0⟩, ⟨[.data [7], .fails .EAGAIN], 1⟩])
        (fun t ↦ ¬Delivered [7] t) (fun _ ↦ False) :=
  ⟨_, rfl, by decide +kernel, by decide +kernel⟩

end TcpConnection

end Twnl
