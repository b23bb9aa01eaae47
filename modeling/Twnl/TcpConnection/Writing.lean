import Twnl.TcpConnection.Acts
import Twnl.TcpConnection.Drain
import Twnl.TcpConnection.Lifecycle

/-!
# The interest in writing, and the half close

In level-triggered mode a connection that is up is interested in writing exactly while its output
buffer is not empty. `shutdown` relies on this when it decides, by asking the channel, between
closing its side now and leaving that to the end of the drain: the socket is shut down only with
nothing left to send, and a connection that is half closed, with nothing left to send and with no
functor queued that will see to it, has shut it down.

It is so unless a call from another thread sets the state of a connection that was closed since it
looked, with something left to send: the connection is half closed then, and nobody waits for its
socket (`writing_iff`).
-/

namespace Twnl

namespace TcpConnection

open Buffer Machine

/-- What holds of a connection between two acts. -/
structure WritesWaiting (k : Masks) (s : Session) : Prop where
  /-- The channel waits for the socket exactly while something waits to be written. -/
  writing : s.Up → (s.conn.channel.isWriting k = true ↔ s.conn.outputBuffer.readable ≠ [])
  /-- A half-closed connection with nothing to send has shut the socket down, or a functor that
  will close it is queued, or a call from another thread is about to queue one. -/
  closing : s.conn.state = .kDisconnecting → s.conn.outputBuffer.readable = [] →
    .shutdownInLoop ∉ s.pendingFunctors → .forceCloseInLoop ∉ s.pendingFunctors →
      .shutdown ∉ s.queueing → .forceClose ∉ s.queueing → .shutdownWrite ∈ s.log

instance (k : Masks) (s : Session) : Decidable (WritesWaiting k s) :=
  decidable_of_iff ((s.Up → (s.conn.channel.isWriting k = true ↔
      s.conn.outputBuffer.readable ≠ [])) ∧
    (s.conn.state = .kDisconnecting → s.conn.outputBuffer.readable = [] →
      .shutdownInLoop ∉ s.pendingFunctors → .forceCloseInLoop ∉ s.pendingFunctors →
        .shutdown ∉ s.queueing → .forceClose ∉ s.queueing → .shutdownWrite ∈ s.log))
    ⟨fun ⟨hwriting, hclosing⟩ ↦ ⟨hwriting, hclosing⟩, fun h ↦ ⟨h.writing, h.closing⟩⟩

/-- An act that shuts the socket of a connection that is up down leaves nothing to send. There is
nothing in an act after the shutting down. -/
def ShutsDrained (s s' : Session) : Prop :=
  ∃ effects, s'.log = s.log ++ effects ∧
    (.shutdownWrite ∈ effects → s'.Up → s'.conn.outputBuffer.readable = [])

/-- The invariant. A closed connection waits for nothing. -/
structure Waits (s : Session) : Prop extends WritesWaiting levelMasks s where
  live : Live s
  opened : s.conn.state ≠ .kConnecting
  idle : s.conn.state = .kDisconnected → s.conn.channel.isWriting levelMasks = false

variable {s s' t : Session} {a : Channel.Call} {data : List Byte} {answer : WriteResult}

/-- On a connection that is up nothing is asked of a closed one. -/
theorem Waits.of_up (hwaits : WritesWaiting levelMasks s') (hlive : Live s') (hup : s'.Up) :
    Waits s' := by
  refine ⟨hwaits, hlive, ?_, fun hclosed ↦ absurd hclosed hup.state_ne⟩
  rcases hup with hup | hup <;> rw [hup] <;> exact StateE.noConfusion

/-- Nothing that concerns writing changes, and nothing queued or recorded is lost. -/
theorem Waits.keep (h : Waits s) (hlive : Live s') (hstate : s'.conn.state = s.conn.state)
    (hwriting : s'.conn.channel.isWriting levelMasks = s.conn.channel.isWriting levelMasks)
    (hout : s'.conn.outputBuffer = s.conn.outputBuffer)
    (hpending : s.pendingFunctors ⊆ s'.pendingFunctors) (hqueueing : s'.queueing = s.queueing)
    (hlog : s.log ⊆ s'.log) : Waits s' := by
  refine ⟨⟨?_, ?_⟩, hlive, hstate ▸ h.opened, ?_⟩
  · rw [Session.Up, hstate, hwriting, hout]
    exact h.writing
  · rw [hstate, hout, hqueueing]
    exact fun hs hr hshut hclose hcall hforce ↦ hlog (h.closing hs hr (fun hm ↦ hshut (hpending hm))
      (fun hm ↦ hclose (hpending hm)) hcall hforce)
  · rw [hstate, hwriting]
    exact h.idle

theorem ShutsDrained.of_log_eq (h : s'.log = s.log) : ShutsDrained s s' :=
  ⟨[], h.trans (List.append_nil _).symm, fun hmem ↦ absurd hmem List.not_mem_nil⟩

/-- An effect other than the shutting down. -/
theorem ShutsDrained.of_log {e : Effect} (h : s'.log = s.log ++ [e]) (he : e ≠ .shutdownWrite) :
    ShutsDrained s s' :=
  ⟨[e], h, fun hmem ↦ absurd (List.mem_singleton.mp hmem).symm he⟩

theorem ShutsDrained.of_empty {effects : List Effect} (h : s'.log = s.log ++ effects)
    (hempty : s'.conn.outputBuffer.readable = []) : ShutsDrained s s' :=
  ⟨effects, h, fun _ _ ↦ hempty⟩

/-- A session that nothing concerns. -/
theorem Waits.refl (h : Waits s) : Waits s ∧ ShutsDrained s s := ⟨h, .of_log_eq rfl⟩

/-! ## Shutting down -/

/-- Whether to shut down is decided by asking the channel. -/
theorem shutdownInLoop_waits (hlive : Live s) (hopened : s.conn.state ≠ .kConnecting)
    (hidle : s.conn.state = .kDisconnected → s.conn.channel.isWriting levelMasks = false)
    (hwriting : s.Up →
      (s.conn.channel.isWriting levelMasks = true ↔ s.conn.outputBuffer.readable ≠ [])) :
    Waits (shutdownInLoop levelMasks s) ∧ ShutsDrained s (shutdownInLoop levelMasks s) := by
  rw [shutdownInLoop]
  cases hw : s.conn.channel.isWriting levelMasks with
  | true =>
    -- something waits, and the end of the drain shuts down
    refine ⟨⟨⟨hwriting, fun hs hr ↦ ?_⟩, hlive, hopened, hidle⟩, .of_log_eq rfl⟩
    exact absurd hr ((hwriting (Or.inr hs)).mp hw)
  | false =>
    have hempty : s.Up → s.conn.outputBuffer.readable = [] := fun hup ↦ by
      by_contra hne
      rw [(hwriting hup).mpr hne] at hw
      exact absurd hw (by decide)
    refine ⟨⟨⟨hwriting, fun _ _ _ _ _ _ ↦ ?_⟩, ⟨hlive.input, hlive.output, hlive.standing⟩,
      hopened, hidle⟩, [.shutdownWrite], rfl, fun _ ↦ hempty⟩
    exact List.mem_append_right _ (List.mem_singleton_self _)

theorem shutdown_waits (h : Waits s) :
    Waits (shutdown levelMasks s) ∧ ShutsDrained s (shutdown levelMasks s) := by
  rw [shutdown]
  split
  · rename_i hstate
    have hlive : Live (s.setState .kDisconnecting) :=
      ⟨h.live.input, h.live.output, h.live.standing⟩
    obtain ⟨hwaits, effects, hlog, hshut⟩ := shutdownInLoop_waits hlive StateE.noConfusion
      StateE.noConfusion fun _ ↦ h.writing (Or.inl hstate)
    exact ⟨hwaits, effects, hlog, hshut⟩
  · exact h.refl

theorem forceClose_waits (h : Waits s) : Waits (forceClose s) ∧ ShutsDrained s (forceClose s) := by
  rw [forceClose]
  split
  · rename_i hup
    refine ⟨.of_up ⟨fun _ ↦ h.writing hup, fun _ _ _ hclose ↦ ?_⟩
      ⟨h.live.input, h.live.output, h.live.standing⟩ (Or.inr rfl), .of_log_eq rfl⟩
    exact absurd (List.mem_append_right _ (List.mem_singleton_self _)) hclose
  · exact h.refl

/-- A connection that goes down is not up any more, and waits for nothing. -/
theorem goDown_waits (h : Live s) (hs' : goDown levelMasks s = .ok s') :
    Waits s' ∧ ShutsDrained s s' := by
  obtain ⟨disabled, hdisabled, hs'⟩ := bind_eq_ok.mp hs'
  obtain rfl := Except.ok.inj hs'
  have hlive : Live (s.setState .kDisconnected) := ⟨h.input, h.output, h.standing⟩
  have hcalled := Called.of_ok hlive hdisabled
  have hdown := hcalled.live hlive
  have hstate : disabled.conn.state = .kDisconnected := hcalled.state_eq
  refine ⟨⟨⟨fun hup ↦ absurd hstate hup.state_ne, fun hs ↦ ?_⟩,
    ⟨hdown.input, hdown.output, hdown.standing⟩, ?_, fun _ ↦ ?_⟩,
    .of_log (congrArg (· ++ _) hcalled.log_eq) nofun⟩
  · exact absurd (hstate.symm.trans hs) StateE.noConfusion
  · exact fun hs ↦ absurd (hstate.symm.trans hs) StateE.noConfusion
  · change disabled.conn.channel.isWriting levelMasks = false
    exact not_isWriting_of_events (hcalled.events_disableAll (m := .LT))

/-! ## The interest in reading -/

/-- The masks of the two directions have no bit in common. -/
theorem isWriting_call_read (c : Channel) (ha : a = .enableReading ∨ a = .disableReading) :
    (c.call levelMasks a).isWriting levelMasks = c.isWriting levelMasks := by
  have hdisjoint : (EPOLLIN ||| EPOLLPRI) &&& EPOLLOUT = 0#32 := by decide
  have hapart : ~~~(EPOLLIN ||| EPOLLPRI) &&& EPOLLOUT = EPOLLOUT := by decide
  rcases ha with rfl | rfl
  · change ((c.events ||| (EPOLLIN ||| EPOLLPRI)) &&& EPOLLOUT != 0) = (c.events &&& EPOLLOUT != 0)
    rw [BitVec.and_or_distrib_right, hdisjoint, BitVec.or_zero]
  · change ((c.events &&& ~~~(EPOLLIN ||| EPOLLPRI)) &&& EPOLLOUT != 0)
      = (c.events &&& EPOLLOUT != 0)
    rw [BitVec.and_assoc, hapart]

/-- Switching reading on or off does not concern writing. -/
theorem Called.waits_read (h : Called levelMasks s a t) (hs : Waits s)
    (ha : a = .enableReading ∨ a = .disableReading) (reading : Bool) :
    Waits (t.withReading reading) ∧ ShutsDrained s (t.withReading reading) := by
  have hlive := h.live hs.live
  have hwriting : t.conn.channel.isWriting levelMasks = s.conn.channel.isWriting levelMasks := by
    rw [Channel.isWriting, h.events]
    exact isWriting_call_read s.conn.channel ha
  refine ⟨hs.keep ⟨hlive.input, hlive.output, hlive.standing⟩ h.state_eq hwriting ?_ ?_ ?_ ?_,
    .of_log_eq h.log_eq⟩
  · change t.conn.outputBuffer = _
    rw [h.same]
  · change s.pendingFunctors ⊆ t.pendingFunctors
    rw [h.same]
    exact List.Subset.refl _
  · change t.queueing = s.queueing
    rw [h.same]
  · change s.log ⊆ t.log
    rw [h.log_eq]
    exact List.Subset.refl _

theorem startReadInLoop_waits (h : Waits s) (hs' : startReadInLoop levelMasks s = .ok s') :
    Waits s' ∧ ShutsDrained s s' := by
  rw [startReadInLoop] at hs'
  split at hs'
  · obtain ⟨enabled, henabled, hs'⟩ := bind_eq_ok.mp hs'
    obtain rfl := Except.ok.inj hs'
    exact (Called.of_ok h.live henabled).waits_read h (Or.inl rfl) true
  · exact Except.ok.inj hs' ▸ h.refl

theorem stopReadInLoop_waits (h : Waits s) (hs' : stopReadInLoop levelMasks s = .ok s') :
    Waits s' ∧ ShutsDrained s s' := by
  rw [stopReadInLoop] at hs'
  split at hs'
  · obtain ⟨disabled, hdisabled, hs'⟩ := bind_eq_ok.mp hs'
    obtain rfl := Except.ok.inj hs'
    exact (Called.of_ok h.live hdisabled).waits_read h (Or.inr rfl) false
  · exact Except.ok.inj hs' ▸ h.refl

/-! ## Sending -/

theorem noteWriteComplete_subset (s : Session) :
    s.pendingFunctors ⊆ (noteWriteComplete s).pendingFunctors := by
  rw [noteWriteComplete_pendingFunctors]
  exact List.subset_append_left _ _

theorem noteHighWater_subset (s : Session) (len : ℕ) :
    s.pendingFunctors ⊆ (noteHighWater s len).pendingFunctors ∧
      (noteHighWater s len).log = s.log := by
  rw [noteHighWater]
  split
  · exact ⟨List.subset_append_left _ _, rfl⟩
  · exact ⟨List.Subset.refl _, rfl⟩

theorem noteWriteComplete_queueing (s : Session) :
    (noteWriteComplete s).queueing = s.queueing := by
  rw [noteWriteComplete]
  split <;> rfl

/-- The direct write changes nothing but the queue and the log. -/
theorem directWrite_spec (s : Session) (data : List Byte) (answer : WriteResult) :
    s.pendingFunctors ⊆ (directWrite s data answer).pendingFunctors ∧
      (directWrite s data answer).queueing = s.queueing ∧
      (directWrite s data answer).log = s.log ++ [.accepted (answer.taken data)] := by
  rw [directWrite]
  split
  · exact ⟨noteWriteComplete_subset (s.record _), noteWriteComplete_queueing (s.record _),
      noteWriteComplete_log _⟩
  · exact ⟨List.Subset.refl _, rfl, rfl⟩

/-- What the kernel did not take is kept, and the channel waits for the socket. -/
theorem bufferRemaining_ok {remaining : List Byte} (h : Live s) (hne : remaining ≠ [])
    (hs' : bufferRemaining levelMasks s remaining = .ok s') :
    s'.conn.state = s.conn.state ∧ s'.conn.channel.isWriting levelMasks = true ∧
      s'.conn.outputBuffer.readable ≠ [] ∧ s'.log = s.log := by
  obtain ⟨outputBuffer, happend, hs'⟩ := bind_eq_ok.mp hs'
  obtain ⟨hwf, hreadable⟩ := append_ok h.output happend
  have hfull : outputBuffer.readable ≠ [] := by
    rw [hreadable]
    exact List.append_ne_nil_of_right_ne_nil _ hne
  have hbuf := (buffered_moves (k := levelMasks) (r := true) s remaining.length hwf).live h
  have hlog : ((noteHighWater s remaining.length).withOutput outputBuffer).log = s.log :=
    (noteHighWater_subset s remaining.length).2
  have hstate : ((noteHighWater s remaining.length).withOutput outputBuffer).conn.state
      = s.conn.state := by
    change (noteHighWater s remaining.length).conn.state = _
    rw [noteHighWater_conn]
  rw [awaitWritable] at hs'
  split at hs'
  · have hcalled := Called.of_ok hbuf hs'
    refine ⟨hcalled.state_eq.trans hstate, ?_, ?_, hcalled.log_eq.trans hlog⟩
    · exact hcalled.isWriting_enableWriting (Masks.kWriteEvent_ne_zero .LT)
    · rw [hcalled.same]
      exact hfull
  · rename_i hwriting
    obtain rfl := Except.ok.inj hs'
    exact ⟨hstate, by simpa using hwriting, hfull, hlog⟩

theorem sendInLoop_waits (h : Waits s) (hs' : sendInLoop levelMasks s data answer = .ok s') :
    Waits s' ∧ ShutsDrained s s' := by
  have hlive : Live s' :=
    ((sendInLoop_moves (k := levelMasks) (r := true) h.live).of_ok hs').live h.live
  obtain ⟨hpending, hqueueing, hlog⟩ := directWrite_spec s data answer
  have hconn := directWrite_conn s data answer
  rw [sendInLoop] at hs'
  split at hs'
  · exact Except.ok.inj hs' ▸ h.refl
  · rename_i hopen
    split at hs'
    · obtain ⟨_, -, hs'⟩ := bind_eq_ok.mp hs'
      split at hs'
      · rename_i hrest
        -- something is left, and waits from now on
        have hne := of_decide_eq_true (Bool.and_eq_true_iff.mp hrest).2
        have hwrote : Live (directWrite s data answer) :=
          (directWrite_moves (k := levelMasks) (r := true) s data answer).live h.live
        obtain ⟨hstate, hwriting, hfull, hlog'⟩ := bufferRemaining_ok hwrote hne hs'
        have hup : s'.Up := by
          rw [Session.Up, hstate, hconn]
          exact up_of_state_ne h.opened hopen
        exact ⟨.of_up ⟨fun _ ↦ iff_of_true hwriting hfull, fun _ hempty ↦ absurd hempty hfull⟩ hlive
          hup, .of_log (hlog'.trans hlog) (by simp)⟩
      · obtain rfl := Except.ok.inj hs'
        refine ⟨h.keep hlive (by rw [hconn]) (by rw [hconn]) (by rw [hconn]) hpending hqueueing ?_,
          .of_log hlog (by simp)⟩
        rw [hlog]
        exact List.subset_append_left _ _
    · exact Except.ok.inj hs' ▸ h.refl

/-! ## Draining -/

theorem handleWrite_waits {writes : ℕ → WriteResult} (h : Waits s)
    (hs' : handleWrite levelMasks s writes = .ok s') : Waits s' ∧ ShutsDrained s s' := by
  have hlive : Live s' :=
    ((handleWrite_moves (k := levelMasks) (r := true) h.live writes).of_ok hs').live h.live
  cases hwriting : s.conn.channel.isWriting levelMasks with
  | false =>
    rw [handleWrite_of_not_writing hwriting] at hs'
    exact Except.ok.inj hs' ▸ h.refl
  | true =>
    have hup : s.Up := up_of_state_ne h.opened fun hclosed ↦ by
      rw [h.idle hclosed] at hwriting
      exact absurd hwriting (by decide)
    obtain ⟨hwf, -, -, -⟩ := writeFd_spec h.live.output (writes 0) none
    have hw : writeOutput levelMasks s.conn.outputBuffer writes
        = some (s.conn.outputBuffer.writeFd (writes 0) none) := rfl
    by_cases hdone : 0 < (s.conn.outputBuffer.writeFd (writes 0) none).ret ∧
        (s.conn.outputBuffer.writeFd (writes 0) none).buffer.readableBytes = 0
    · -- the last byte is written
      obtain ⟨s₁, t, ht, hcalled, heq⟩ :=
        handleWrite_of_empty h.live hwriting hw hwf hdone.1 hdone.2
      obtain rfl := Except.ok.inj (ht.symm.trans hs')
      have hempty : (noteWriteComplete s₁).conn.outputBuffer.readable = [] := by
        rw [noteWriteComplete_conn, hcalled.same]
        exact hwf.readableBytes_eq_zero_iff.mp hdone.2
      have hidle : (noteWriteComplete s₁).conn.channel.isWriting levelMasks = false := by
        rw [noteWriteComplete_conn]
        exact hcalled.isWriting_disableWriting
      have hlog : (noteWriteComplete s₁).log = s.log
          ++ [.accepted (s.conn.outputBuffer.writeFd (writes 0) none).taken] := by
        rw [noteWriteComplete_log]
        exact hcalled.log_eq
      have hstate : (noteWriteComplete s₁).conn.state = s.conn.state := by
        rw [noteWriteComplete_conn]
        exact hcalled.state_eq
      have hiff : (noteWriteComplete s₁).conn.channel.isWriting levelMasks = true ↔
          (noteWriteComplete s₁).conn.outputBuffer.readable ≠ [] := by
        rw [hidle, hempty]
        exact iff_of_false (by decide) fun hne ↦ hne rfl
      split at heq
      · have hlive₁ : Live (noteWriteComplete s₁) :=
          (noteWriteComplete_moves (k := levelMasks) (r := true) s₁).live
            (hcalled.live (wrote_live h.live hwf))
        obtain ⟨hwaits, effects, hlog', -⟩ :=
          shutdownInLoop_waits hlive₁ (hstate ▸ h.opened) (fun _ ↦ hidle) fun _ ↦ hiff
        subst heq
        refine ⟨hwaits, .of_empty (hlog'.trans ((congrArg (· ++ effects) hlog).trans
          (List.append_assoc _ _ _))) ?_⟩
        rw [shutdownInLoop]
        split <;> exact hempty
      · rename_i hstate'
        subst heq
        refine ⟨⟨⟨fun _ ↦ hiff, fun hs ↦ ?_⟩, hlive, hstate ▸ h.opened, fun _ ↦ hidle⟩,
          .of_log hlog (by simp)⟩
        exact absurd (hstate.symm.trans hs) hstate'
    · rw [handleWrite_of_left hwriting hw hdone] at hs'
      obtain rfl := Except.ok.inj hs'
      -- a write that leaves nothing of something returns a count
      have hleft : (s.conn.outputBuffer.writeFd (writes 0) none).buffer.readable ≠ [] := by
        intro hempty
        have hne := (h.writing hup).mp hwriting
        have hzero := hwf.readableBytes_eq_zero_iff.mpr hempty
        exact hdone ⟨writeFd_ret_pos h.live.output hne hzero, hzero⟩
      exact ⟨.of_up ⟨fun _ ↦ iff_of_true hwriting hleft, fun _ hempty ↦ absurd hempty hleft⟩ hlive
        hup, .of_log rfl (by simp)⟩

/-! ## Calls on the loop thread -/

theorem userCall_waits {call : UserCall} (h : Waits s)
    (hs' : userCall levelMasks s call = .ok s') : Waits s' ∧ ShutsDrained s s' := by
  cases call with
  | send data answer =>
    rw [userCall, send] at hs'
    split at hs'
    · exact sendInLoop_waits h hs'
    · exact Except.ok.inj hs' ▸ h.refl
  | sendBuffer data answer => exact sendInLoop_waits h hs'
  | shutdown => exact Except.ok.inj hs' ▸ shutdown_waits h
  | forceClose => exact Except.ok.inj hs' ▸ forceClose_waits h
  | startRead => exact startReadInLoop_waits h hs'
  | stopRead => exact stopReadInLoop_waits h hs'

/-! ## Calls from other threads -/

/-- A call that sets the state of a closed connection finds nothing left to send. -/
def SetsInTime (s : Session) (call : UserCall) : Prop :=
  Reopens s call → s.conn.outputBuffer.readable = []

instance (s : Session) : DecidablePred (SetsInTime s) := fun _ ↦ inferInstanceAs (Decidable (_ → _))

theorem callBegins_waits {call : UserCall} (h : Waits s) (hs' : callBegins s call = .ok s') :
    Waits s' ∧ ShutsDrained s s' := by
  have hbegun : Waits { s with calls := call :: s.calls } :=
    h.keep ⟨h.live.input, h.live.output, h.live.standing⟩ rfl rfl rfl (List.Subset.refl _) rfl
      (List.Subset.refl _)
  cases call with
  | sendBuffer data answer => exact absurd hs' error_ne_ok
  | send _ _ | shutdown | forceClose | startRead | stopRead =>
    obtain rfl := Except.ok.inj hs'
    split
    · exact ⟨hbegun, .of_log_eq rfl⟩
    · exact h.refl

/-- The calls that set the state. They are about to queue what the half close waits for. -/
theorem UserCall.eq_of_stateAfter {call : UserCall} {state : StateE}
    (h : call.stateAfter state ≠ state) : call = .shutdown ∨ call = .forceClose := by
  cases call with
  | shutdown => exact Or.inl rfl
  | forceClose => exact Or.inr rfl
  | send _ _ | sendBuffer _ _ | startRead | stopRead => exact absurd rfl h

theorem callSets_waits {call : UserCall} (h : Waits s) (hin : SetsInTime s call) :
    Waits (callSets s call) ∧ ShutsDrained s (callSets s call) := by
  rw [callSets]
  split
  · rename_i hmem
    refine ⟨?_, .of_log_eq rfl⟩
    by_cases hsame : call.stateAfter s.conn.state = s.conn.state
    · -- no state is set
      rw [hsame]
      refine ⟨⟨h.writing, fun hs hr hshut hclose hcall hforce ↦ ?_⟩,
        ⟨h.live.input, h.live.output, h.live.standing⟩, h.opened, h.idle⟩
      exact h.closing hs hr hshut hclose (fun hm ↦ hcall (List.mem_cons_of_mem _ hm))
        fun hm ↦ hforce (List.mem_cons_of_mem _ hm)
    · have hset : call.stateAfter s.conn.state = .kDisconnecting := by
        rcases UserCall.eq_of_stateAfter hsame with rfl | rfl <;> rfl
      rw [hset]
      refine .of_up ⟨fun _ ↦ ?_, fun _ _ _ _ hcall hforce ↦ ?_⟩
        ⟨h.live.input, h.live.output, h.live.standing⟩ (Or.inr rfl)
      · by_cases hclosed : s.conn.state = .kDisconnected
        · -- a closed connection waits for nothing, and so has to have nothing to send
          have hempty := hin ⟨hmem, hclosed, hclosed ▸ hsame⟩
          refine iff_of_false (fun hwriting ↦ ?_) (not_not_intro hempty)
          exact Bool.false_ne_true ((h.idle hclosed).symm.trans hwriting)
        · exact h.writing (up_of_state_ne h.opened hclosed)
      · rcases UserCall.eq_of_stateAfter hsame with rfl | rfl
        · exact absurd List.mem_cons_self hcall
        · exact absurd List.mem_cons_self hforce
  · exact h.refl

theorem callEnds_waits (h : Waits s) (call : UserCall) :
    Waits (callEnds s call) ∧ ShutsDrained s (callEnds s call) := by
  rw [callEnds]
  split
  · refine ⟨⟨⟨h.writing, fun hs hr hshut hclose hcall hforce ↦ ?_⟩,
      ⟨h.live.input, h.live.output, h.live.standing⟩, h.opened, h.idle⟩, .of_log_eq rfl⟩
    have hqueued : call.functor ∈ s.pendingFunctors ++ [call.functor] :=
      List.mem_append_right _ (List.mem_singleton_self _)
    refine h.closing hs hr (fun hm ↦ hshut (List.mem_append_left _ hm))
      (fun hm ↦ hclose (List.mem_append_left _ hm)) (fun hm ↦ ?_) fun hm ↦ ?_
    · refine hcall ((List.mem_erase_of_ne ?_).mpr hm)
      rintro rfl
      exact hshut hqueued
    · refine hforce ((List.mem_erase_of_ne ?_).mpr hm)
      rintro rfl
      exact hclose hqueued
  · exact h.refl

/-! ## Functors -/

/-- The functor at the head of the queue. The two that the half close may wait for do what it waits
for. -/
theorem pending_waits {f : Functor} {fs : List Functor} (h : Waits s)
    (hfunctors : s.pendingFunctors = f :: fs)
    (hs' : runPlain levelMasks { s with pendingFunctors := fs } answer f = .ok s') :
    Waits s' ∧ ShutsDrained { s with pendingFunctors := fs } s' := by
  have hlive : Live { s with pendingFunctors := fs } :=
    ⟨h.live.input, h.live.output, h.live.standing⟩
  have hpopped (hshut : f ≠ .shutdownInLoop) (hclose : f ≠ .forceCloseInLoop) :
      Waits { s with pendingFunctors := fs } := by
    refine ⟨⟨h.writing, fun hs hr hshut' hclose' hcall hforce ↦ ?_⟩, hlive, h.opened, h.idle⟩
    refine h.closing hs hr ?_ ?_ hcall hforce <;> rw [hfunctors, List.mem_cons]
    · exact fun hm ↦ hm.elim (fun heq ↦ hshut heq.symm) hshut'
    · exact fun hm ↦ hm.elim (fun heq ↦ hclose heq.symm) hclose'
  cases f with
  | sendInLoop data => exact sendInLoop_waits (hpopped nofun nofun) hs'
  | startReadInLoop => exact startReadInLoop_waits (hpopped nofun nofun) hs'
  | stopReadInLoop => exact stopReadInLoop_waits (hpopped nofun nofun) hs'
  | writeCompleteCallback | highWaterMarkCallback _ =>
    exact Except.ok.inj hs' ▸ ⟨hpopped nofun nofun, .of_log_eq rfl⟩
  | shutdownInLoop =>
    obtain rfl := Except.ok.inj hs'
    exact shutdownInLoop_waits hlive h.opened h.idle h.writing
  | forceCloseInLoop =>
    rw [runPlain] at hs'
    split at hs'
    · exact goDown_waits hlive hs'
    · rename_i hdown
      obtain rfl := Except.ok.inj hs'
      exact ⟨⟨⟨h.writing, fun hs ↦ absurd (Or.inl hs) hdown⟩, hlive, h.opened, h.idle⟩,
        .of_log_eq rfl⟩

/-! ## Acts -/

/-- A call from another thread that sets the state does so in time. -/
def InTime (s : Session) : Act → Prop
  | .callSets call => SetsInTime s call
  | .user _ | .callBegins _ | .callEnds _ | .pending _ | .setRevents _ | .read _ | .offer _
  | .handleWrite _ | .goDown | .closeCallback => True

instance (s : Session) : DecidablePred (InTime s)
  | .callSets _ => inferInstanceAs (Decidable (SetsInTime _ _))
  | .user _ | .callBegins _ | .callEnds _ | .pending _ | .setRevents _ | .read _ | .offer _
  | .handleWrite _ | .goDown | .closeCallback => .isTrue trivial

/-- The same of a step. -/
def StepInTime (s : Session) (i : Step) : Prop := ∀ a ∈ i.otherAct, InTime s a

theorem inTime_of_isOwn {a : Act} (h : a.isOwn = true) : InTime s a := by
  cases a with
  | callSets call => exact absurd h Bool.false_ne_true
  | user _ | callBegins _ | callEnds _ | pending _ | setRevents _ | read _ | offer _
  | handleWrite _ | goDown | closeCallback => trivial

/-- The step lemma. -/
theorem Waits.act {act : Act} (h : Waits s) (hin : InTime s act)
    (hs' : TcpConnection.act levelMasks s act = .ok s') : Waits s' ∧ ShutsDrained s s' := by
  have hlive := h.live
  cases act with
  | user call => exact userCall_waits h hs'
  | callBegins call => exact callBegins_waits h hs'
  | callSets call => exact Except.ok.inj hs' ▸ callSets_waits h hin
  | callEnds call => exact Except.ok.inj hs' ▸ callEnds_waits h call
  | pending answer =>
    rw [TcpConnection.act] at hs'
    split at hs'
    · exact Except.ok.inj hs' ▸ h.refl
    · rename_i f fs hfunctors
      obtain ⟨hwaits, effects, hlog, hshut⟩ := pending_waits h hfunctors hs'
      exact ⟨hwaits, effects, hlog, hshut⟩
  | setRevents revents =>
    obtain rfl := Except.ok.inj hs'
    have hstands : Live (s.withRevents revents) :=
      Move.live (k := levelMasks) (r := true) (.revents revents) hlive
    exact ⟨h.keep hstands rfl rfl rfl (List.Subset.refl _) rfl (List.Subset.refl _),
      .of_log_eq rfl⟩
  | read reads =>
    obtain ⟨⟨n, saved, inputBuffer⟩, hread, hs'⟩ := bind_eq_ok.mp hs'
    obtain rfl := Except.ok.inj hs'
    have hwf := (readInput_ok hlive.input hread).1
    exact ⟨h.keep ⟨hwf, hlive.output, hlive.standing⟩ rfl rfl rfl (List.Subset.refl _) rfl
      (List.Subset.refl _), .of_log_eq rfl⟩
  | offer consumed =>
    obtain ⟨inputBuffer, hretrieve, hs'⟩ := bind_eq_ok.mp hs'
    obtain rfl := Except.ok.inj hs'
    obtain ⟨_, hcheck, -⟩ := bind_eq_ok.mp hretrieve
    obtain ⟨b', hb', hwf, -⟩ := retrieve_spec hlive.input (check_eq_ok.mp hcheck)
    obtain rfl := Except.ok.inj (hb'.symm.trans hretrieve)
    exact ⟨h.keep ⟨hwf, hlive.output, hlive.standing⟩ rfl rfl rfl (List.Subset.refl _) rfl
      (List.subset_append_left _ _), .of_log rfl (by simp)⟩
  | handleWrite writes => exact handleWrite_waits h hs'
  | goDown => exact goDown_waits hlive hs'
  | closeCallback =>
    obtain rfl := Except.ok.inj hs'
    exact ⟨h.keep ⟨hlive.input, hlive.output, hlive.standing⟩ rfl rfl rfl (List.Subset.refl _) rfl
      (List.subset_append_left _ _), .of_log rfl (by simp)⟩

/-- A call that comes too late leaves bytes that nobody waits to send. -/
theorem Waits.inTime_of_waits {call : UserCall} (h : Waits s)
    (hs' : WritesWaiting levelMasks (callSets s call)) : SetsInTime s call := by
  rintro ⟨hmem, hclosed, hset⟩
  by_contra hne
  have hstate : call.stateAfter s.conn.state = .kDisconnecting := by
    rw [hclosed]
    rcases UserCall.eq_of_stateAfter hset with rfl | rfl <;> rfl
  rw [callSets, if_pos hmem, hstate] at hs'
  have hwriting : s.conn.channel.isWriting levelMasks = true := (hs'.writing (Or.inr rfl)).mpr hne
  exact Bool.false_ne_true ((h.idle hclosed).symm.trans hwriting)

/-- A connection that was just established has nothing to send. -/
theorem waits_established {fresh : Session} (h : Fresh fresh)
    (hest : connectEstablished levelMasks fresh [] = .ok s) : Waits s := by
  obtain ⟨s₁, hcalled, hlive, heq⟩ := connectEstablished_of_fresh (k := levelMasks) h []
  rw [heq] at hest
  obtain rfl := Except.ok.inj hest
  have hstate : s₁.conn.state = .kConnected := hcalled.state_eq
  have hwriting : s₁.conn.channel.isWriting levelMasks = false := by
    rw [Channel.isWriting, hcalled.events]
    refine (isWriting_call_read _ (Or.inl rfl)).trans ?_
    change (fresh.conn.channel.events &&& _ != 0) = false
    rw [h.events]
    rfl
  have hempty : s₁.conn.outputBuffer.readable = [] := by
    rw [hcalled.same]
    exact h.output.2
  refine .of_up ⟨fun _ ↦ ?_, fun hs ↦ ?_⟩ ⟨hlive.input, hlive.output, hlive.standing⟩
    (Or.inl hstate)
  · exact iff_of_false (fun htrue ↦ Bool.false_ne_true (hwriting.symm.trans htrue))
      fun hne ↦ hne hempty
  · exact absurd (hstate.symm.trans hs) StateE.noConfusion

/-! ## Runs -/

/-- The act starts and ends with the writes waited for, and shuts down only what is drained. -/
def KeepsWriting (s : Session) (a : Act) : Prop :=
  WritesWaiting levelMasks s ∧
    Outcome (TcpConnection.act levelMasks s a)
      (fun s' ↦ WritesWaiting levelMasks s' ∧ ShutsDrained s s') fun _ ↦ True

theorem Waits.keepsWriting_iff (h : Waits s) (a : Act) : KeepsWriting s a ↔ InTime s a := by
  constructor
  · intro hkeeps
    cases a with
    | callSets call => exact h.inTime_of_waits hkeeps.2.1
    | user _ | callBegins _ | callEnds _ | pending _ | setRevents _ | read _ | offer _
    | handleWrite _ | goDown | closeCallback => trivial
  · intro hin
    refine ⟨h.toWritesWaiting, outcome_of (fun s' hs' ↦ ?_) fun _ _ ↦ trivial⟩
    obtain ⟨hwaits, hshuts⟩ := h.act hin hs'
    exact ⟨hwaits.toWritesWaiting, hshuts⟩

/-- A step in time is a run of acts in time. -/
theorem acts_of_stepInTime {i : Step} (hin : StepInTime s i) (hs' : step levelMasks s i = .ok s') :
    ∃ acts, Along (TcpConnection.act levelMasks) InTime s acts ∧
      run (TcpConnection.act levelMasks) s acts = .ok s' := by
  rcases step_acts hs' with ⟨acts, hown, hrun⟩ | ⟨a, ha, hact⟩
  · refine ⟨acts, ?_, hrun⟩
    exact (along_of_forall hown).guarantee (I := fun _ ↦ True) (fun _ _ _ _ _ _ ↦ trivial)
      (fun _ _ _ ha ↦ inTime_of_isOwn ha) trivial
  · refine ⟨[a], along_cons.mpr ⟨hin a ha, fun _ _ ↦ along_nil⟩, ?_⟩
    exact run_cons_eq_ok.mpr ⟨s', hact, rfl⟩

/-- So is a run of such steps. -/
theorem acts_of_alongInTime {steps : List Step} (hin : Along (step levelMasks) StepInTime s steps)
    (hrun : run (step levelMasks) s steps = .ok t) :
    ∃ acts, Along (TcpConnection.act levelMasks) InTime s acts ∧
      run (TcpConnection.act levelMasks) s acts = .ok t := by
  induction steps generalizing s with
  | nil =>
    obtain rfl := Except.ok.inj hrun
    exact ⟨[], along_nil, rfl⟩
  | cons i steps ih =>
    obtain ⟨u, hu, hrun⟩ := run_cons_eq_ok.mp hrun
    obtain ⟨hi, hrest⟩ := along_cons.mp hin
    obtain ⟨acts, halong, hacts⟩ := acts_of_stepInTime hi hu
    obtain ⟨acts', halong', hacts'⟩ := ih (hrest u hu) hrun
    exact ⟨acts ++ acts', (along_append hacts).mpr ⟨halong, halong'⟩,
      run_append_eq_ok.mpr ⟨u, hacts, hacts'⟩⟩

theorem Waits.step {i : Step} (h : Waits s) (hin : StepInTime s i)
    (hs' : TcpConnection.step levelMasks s i = .ok s') : Waits s' := by
  obtain ⟨acts, halong, hrun⟩ := acts_of_stepInTime hin hs'
  exact halong.run_inv (fun _ _ _ ht hi ht' ↦ (ht.act hi ht').1) h hrun

/-- The step starts and ends with the writes waited for. -/
def StepKeepsWriting (s : Session) (i : Step) : Prop :=
  WritesWaiting levelMasks s ∧
    Outcome (TcpConnection.step levelMasks s i) (WritesWaiting levelMasks) fun _ ↦ True

instance (s : Session) (i : Step) : Decidable (StepKeepsWriting s i) :=
  inferInstanceAs (Decidable (_ ∧ _))

theorem Waits.stepKeepsWriting_iff (h : Waits s) (i : Step) :
    StepKeepsWriting s i ↔ StepInTime s i := by
  constructor
  · intro hkeeps a ha
    cases i with
    | callSets call =>
      obtain rfl := Option.some.inj ha
      exact h.inTime_of_waits hkeeps.2
    | callBegins _ | callEnds _ =>
      obtain rfl := Option.some.inj ha
      trivial
    | handleEvent _ _ | user _ | pending _ => exact absurd ha.symm (Option.some_ne_none a)
  · intro hin
    exact ⟨h.toWritesWaiting,
      outcome_of (fun _ hs' ↦ (h.step hin hs').toWritesWaiting) fun _ _ ↦ trivial⟩

/-- **Write interest and the half close.** Through all acts of an established connection in
level-triggered mode, the channel waits for the socket exactly while something waits to be written,
an act that shuts the socket down leaves nothing to send, and a half-closed connection with nothing
to send and no functor that will see to it has shut the socket down, if and only if every call from
another thread that sets the state of a closed connection finds nothing left to send. The same holds
of the connection's own steps, which are made of such acts. -/
theorem writing_iff {ptr : ℕ} {fd : ℤ} {wc : Bool} {hw : Option ℕ} {conn : TcpConnection}
    {poller : EpollPoller} (hnew : TcpConnection.new ptr fd wc hw = .ok conn)
    (hfresh : poller.Stands conn.channel .fresh)
    (hest : connectEstablished levelMasks (.start conn poller) [] = .ok s) :
    (∀ acts, Along (TcpConnection.act levelMasks) KeepsWriting s acts ↔
        Along (TcpConnection.act levelMasks) InTime s acts) ∧
      ∀ steps, (Along (step levelMasks) StepKeepsWriting s steps ↔
          Along (step levelMasks) StepInTime s steps) ∧
        ∀ t, Along (step levelMasks) StepInTime s steps → run (step levelMasks) s steps = .ok t →
          ∃ acts, Along (TcpConnection.act levelMasks) InTime s acts ∧
            run (TcpConnection.act levelMasks) s acts = .ok t := by
  have hstart : Waits s := waits_established (fresh_start hnew hfresh) hest
  refine ⟨fun acts ↦ ?_, fun steps ↦ ⟨?_, fun t hin hrun ↦ acts_of_alongInTime hin hrun⟩⟩
  · exact along_congr (fun _ _ _ ht hi ht' ↦ (ht.act hi ht').1) (fun _ a ht ↦ ht.keepsWriting_iff a)
      hstart
  · exact along_congr (fun _ _ _ ht hi ht' ↦ ht.step hi ht')
      (fun _ i ht ↦ ht.stepKeepsWriting_iff i) hstart

/-- Two bytes sent of which the kernel takes one, a half close from another thread that waits for
the other, and the drain that takes it. -/
theorem writing_partial :
    ∃ s, connectEstablished levelMasks (.start newConn .new) [] = .ok s ∧
      Outcome (run (TcpConnection.act levelMasks) s [.user (.send [7, 8] (.accepts 1)),
          .callBegins .shutdown, .callSets .shutdown, .callEnds .shutdown,
          .pending (.fails .EAGAIN), .handleWrite fun _ ↦ .accepts 1])
        (fun t ↦ t.log = [.connectionCallback ⟨.kConnected, EPOLLIN ||| EPOLLPRI, true⟩,
          .accepted [7], .accepted [8], .shutdownWrite]) (fun _ ↦ False) ∧
      Along (TcpConnection.act levelMasks) KeepsWriting s
        [.user (.send [7, 8] (.accepts 1)), .callBegins .shutdown, .callSets .shutdown,
          .callEnds .shutdown, .pending (.fails .EAGAIN), .handleWrite fun _ ↦ .accepts 1] :=
  ⟨_, rfl, by decide +kernel,
    ((writing_iff new_eq_newConn stands_newConn rfl).1 _).mpr (by decide +kernel)⟩

/-- One of two bytes is left to send, another thread looks at the state in `shutdown`, the peer
closes, and then the other thread sets the state: the connection is half closed with a byte to send,
does not wait for the socket, and shuts it down when the functor runs. -/
theorem not_writing :
    ∃ s, connectEstablished levelMasks (.start newConn .new) [] = .ok s ∧
      ¬Along (step levelMasks) StepKeepsWriting s [.user (.send [7, 8] (.accepts 1)),
        .callBegins .shutdown, .handleEvent EPOLLIN { Env.silent with reads := [.data []] },
        .callSets .shutdown] ∧
      Outcome (run (step levelMasks) s [.user (.send [7, 8] (.accepts 1)), .callBegins .shutdown,
          .handleEvent EPOLLIN { Env.silent with reads := [.data []] }, .callSets .shutdown,
          .callEnds .shutdown, .pending .silent])
        (fun t ↦ t.Up ∧ .shutdownWrite ∈ t.log ∧ t.conn.outputBuffer.readable = [8])
        fun _ ↦ False :=
  ⟨_, rfl, by decide +kernel, by decide +kernel⟩

end TcpConnection

end Twnl
