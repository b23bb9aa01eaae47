import Twnl.EventLoop.Basic

/-!
# What the construction of a loop does to the others

The masks that say what the stored bits of a channel mean belong to the process, and the constructor
of every loop that uses epoll writes them. A loop that is constructed leaves the channels of the
others alone, and what they answer, exactly when it finds the masks as it would set them, or does
not set them at all, or is the only one (`undisturbed_iff`).

The masks of the two modes differ in the edge bit. A channel that was enabled in edge-triggered mode
and is disabled after the masks were set for the other mode keeps that bit, is not without events,
and so is not taken out of the poller.
-/

namespace Twnl

open Machine

/-- The channel answers under `k'` as under `k`, and any later calls lead to the same events. -/
structure Channel.Undisturbed (k k' : Masks) (c : Channel) : Prop where
  reading : c.isReading k' = c.isReading k
  writing : c.isWriting k' = c.isWriting k
  none : c.isNoneEvent k' = c.isNoneEvent k
  isET : k'.isET = k.isET
  calls : ∀ calls : List Channel.Call,
    (calls.foldl (Channel.call k') c).events = (calls.foldl (Channel.call k) c).events

theorem Masks.isET_inj {k k' : Masks} (h : k'.isET = k.isET) : k'.mode = k.mode := by
  rw [Masks.isET, Masks.isET] at h
  cases hk : k.mode <;> cases hk' : k'.mode <;> rw [hk, hk'] at h <;>
    first | rfl | exact absurd h (by decide)

/-- The masks can be read off what calls lead to, whatever the channel. -/
theorem Channel.undisturbed_iff_eq {k k' : Masks} {c : Channel} (hk : k.kNoneEvent = 0)
    (hk' : k'.kNoneEvent = 0) : c.Undisturbed k k' ↔ k' = k := by
  constructor
  · intro h
    have hread : k'.kNoneEvent ||| k'.kReadEvent = k.kNoneEvent ||| k.kReadEvent :=
      h.calls [.disableAll, .enableReading]
    have hwrite : k'.kNoneEvent ||| k'.kWriteEvent = k.kNoneEvent ||| k.kWriteEvent :=
      h.calls [.disableAll, .enableWriting]
    rw [hk, hk'] at hread hwrite
    replace hread : k'.kReadEvent = k.kReadEvent := by simpa using hread
    replace hwrite : k'.kWriteEvent = k.kWriteEvent := by simpa using hwrite
    calc k' = ⟨k'.mode, k'.kNoneEvent, k'.kReadEvent, k'.kWriteEvent⟩ := rfl
      _ = ⟨k.mode, k.kNoneEvent, k.kReadEvent, k.kWriteEvent⟩ := by
        rw [Masks.isET_inj h.isET, hk, hk', hread, hwrite]
  · rintro rfl
    exact ⟨rfl, rfl, rfl, rfl, fun _ ↦ rfl⟩

namespace EventLoop

/-- The channels of a loop, its own two among them. -/
def allChannels (l : EventLoop) : List Channel := l.timerChannel :: l.wakeupChannel :: l.channels

end EventLoop

namespace Process

/-- A construction leaves every living loop and what its channels answer as they were. -/
def Undisturbing (ps : Process) : Step → Prop
  | .construct thread mode emode timerfd wakeupFd =>
    Outcome (ps.step (.construct thread mode emode timerfd wakeupFd))
      (fun ps' ↦ ∀ (i : ℕ) (l : EventLoop), ps.loops[i]? = some (some l) →
        ps'.loops[i]? = some (some l) ∧
          ∀ c ∈ l.allChannels, c.Undisturbed ps.statics ps'.statics)
      fun _ ↦ True
  | .destroy _ _ | .newChannel _ _ | .channelCall _ _ _ _ | .channelRemove _ _ _ => True

/-- A loop that is constructed beside others finds the masks as it leaves them. -/
def Agreeing (ps : Process) : Step → Prop
  | .construct _ mode emode _ _ =>
    (∃ o ∈ ps.loops, o.isSome = true) → EventLoop.initMasks ps.statics mode emode = ps.statics
  | .destroy _ _ | .newChannel _ _ | .channelCall _ _ _ _ | .channelRemove _ _ _ => True

instance (ps : Process) : DecidablePred ps.Agreeing
  | .construct _ _ _ _ _ => inferInstanceAs (Decidable ((∃ o ∈ ps.loops, o.isSome = true) → _))
  | .destroy _ _ | .newChannel _ _ | .channelCall _ _ _ _ | .channelRemove _ _ _ => .isTrue trivial

variable {ps ps' : Process} {s : Step}

theorem initMasks_none {statics : Masks} (h : statics.kNoneEvent = 0) (mode : EventLoop.Mode)
    (emode : EventLoop.EpollMode) : (EventLoop.initMasks statics mode emode).kNoneEvent = 0 := by
  cases mode with
  | POLL => exact h
  | EPOLL => cases emode <;> rfl

/-- What a construction that returns leaves. -/
theorem construct_eq_ok {thread : ℕ} {mode : EventLoop.Mode} {emode : EventLoop.EpollMode}
    {timerfd wakeupFd : ℤ} (h : ps.step (.construct thread mode emode timerfd wakeupFd) = .ok ps') :
    ps'.statics = EventLoop.initMasks ps.statics mode emode ∧
      ∃ l, ps'.loops = ps.loops ++ [some l] := by
  rw [Process.step] at h
  split at h
  · obtain ⟨⟨k, l⟩, hnew, h⟩ := bind_eq_ok.mp h
    obtain rfl := Except.ok.inj h
    refine ⟨?_, l, rfl⟩
    obtain ⟨⟨registered, timerChannel⟩, -, hnew⟩ := bind_eq_ok.mp hnew
    cases hthread : ps.loopInThisThread thread with
    | some _ =>
      rw [hthread] at hnew
      exact absurd hnew nofun
    | none =>
      rw [hthread] at hnew
      obtain ⟨⟨poller, wakeupChannel⟩, -, hnew⟩ := bind_eq_ok.mp hnew
      exact (Prod.mk.inj (Except.ok.inj hnew)).1.symm
  · exact absurd h nofun

/-- What else is done to a loop leaves the masks alone. -/
theorem onLoop_statics {i : ℕ} {f : EventLoop → Except Fault EventLoop}
    (h : ps.onLoop i f = .ok ps') : ps'.statics = ps.statics := by
  rw [onLoop] at h
  split at h
  · exact absurd h nofun
  · exact absurd h nofun
  · obtain ⟨l', -, h⟩ := bind_eq_ok.mp h
    rw [← Except.ok.inj h]

/-- The step lemma: what stands for no event is the same in every mode. -/
theorem step_none (h : ps.statics.kNoneEvent = 0) (hps' : ps.step s = .ok ps') :
    ps'.statics.kNoneEvent = 0 := by
  cases s with
  | construct thread mode emode timerfd wakeupFd =>
    rw [(construct_eq_ok hps').1]
    exact initMasks_none h mode emode
  | destroy thread i =>
    rw [Process.step] at hps'
    split at hps'
    · exact absurd hps' nofun
    · exact absurd hps' nofun
    · exact Except.ok.inj hps' ▸ h
  | newChannel i fd =>
    rw [Process.step] at hps'
    split at hps'
    · exact onLoop_statics hps' ▸ h
    · exact absurd hps' nofun
  | channelCall thread i j a => exact onLoop_statics hps' ▸ h
  | channelRemove thread i j => exact onLoop_statics hps' ▸ h

/-- One step that returns. -/
theorem undisturbing_iff (h : ps.statics.kNoneEvent = 0) (hps' : ps.step s = .ok ps') :
    ps.Undisturbing s ↔ ps.Agreeing s := by
  cases s with
  | destroy _ _ | newChannel _ _ | channelCall _ _ _ _ | channelRemove _ _ _ => exact Iff.rfl
  | construct thread mode emode timerfd wakeupFd =>
    obtain ⟨hstatics, new, hloops⟩ := construct_eq_ok hps'
    have hnone : ps'.statics.kNoneEvent = 0 := step_none h hps'
    rw [Undisturbing, hps', outcome_ok, Agreeing, ← hstatics]
    constructor
    · rintro hkeep ⟨o, ho, hsome⟩
      obtain ⟨l, rfl⟩ := Option.isSome_iff_exists.mp hsome
      obtain ⟨i, hi⟩ := List.mem_iff_getElem?.mp ho
      -- every loop has the channel of its timers
      have hc := (hkeep i l hi).2 l.timerChannel List.mem_cons_self
      exact (Channel.undisturbed_iff_eq h hnone).mp hc
    · intro heq i l hi
      refine ⟨?_, fun c _ ↦ ?_⟩
      · rw [hloops, List.getElem?_append_left (List.getElem?_eq_some_iff.mp hi).1]
        exact hi
      · exact (Channel.undisturbed_iff_eq h hnone).mpr (heq ⟨_, List.mem_of_getElem? hi, rfl⟩)

/-- **What a construction does to other loops.** In every run of a process, each construction
leaves the channels of the loops there are, and what they answer now and later, as they were,
exactly when each loop that is constructed beside others finds the masks as it leaves them. -/
theorem undisturbed_iff {steps : List Step} (hrun : run Process.step start steps = .ok ps) :
    Along Process.step Undisturbing start steps ↔ Along Process.step Agreeing start steps := by
  refine along_congr_of (I := fun ps ↦ ps.statics.kNoneEvent = 0)
    (L := fun ps s ↦ ∃ ps', ps.step s = .ok ps') ?_ ?_ rfl (along_ok hrun)
  · exact fun ps s ps' h _ _ hps' ↦ step_none h hps'
  · exact fun ps s h ⟨ps', hps'⟩ ↦ undisturbing_iff h hps'

/-- Two loops of one mode, and one that does not use epoll. -/
theorem undisturbed_three :
    ∃ ps, run Process.step start [.construct 0 .EPOLL .ET 3 4, .newChannel 0 9,
        .channelCall 0 0 0 .enableReading, .construct 1 .EPOLL .ET 5 6, .construct 2 .POLL .LT 7 8,
        .channelCall 0 0 0 .disableReading] = .ok ps ∧
      Along Process.step Undisturbing start [.construct 0 .EPOLL .ET 3 4, .newChannel 0 9,
        .channelCall 0 0 0 .enableReading, .construct 1 .EPOLL .ET 5 6, .construct 2 .POLL .LT 7 8,
        .channelCall 0 0 0 .disableReading] := by
  have hrun : ∃ ps, run Process.step start [.construct 0 .EPOLL .ET 3 4, .newChannel 0 9,
      .channelCall 0 0 0 .enableReading, .construct 1 .EPOLL .ET 5 6, .construct 2 .POLL .LT 7 8,
      .channelCall 0 0 0 .disableReading] = .ok ps := ⟨_, rfl⟩
  obtain ⟨ps, hps⟩ := hrun
  exact ⟨ps, hps, (undisturbed_iff hps).mpr (by decide)⟩

/-- A loop in edge-triggered mode, and then one with the default arguments: a channel of the first
that is enabled before and disabled after keeps the edge bit, and is not without events. -/
theorem disturbed_default :
    ¬Along Process.step Undisturbing start [.construct 0 .EPOLL .ET 3 4, .newChannel 0 9,
        .channelCall 0 0 0 .enableReading, .construct 1 .EPOLL .LT 5 6] ∧
    ∃ ps l, run Process.step start [.construct 0 .EPOLL .ET 3 4, .newChannel 0 9,
        .channelCall 0 0 0 .enableReading, .construct 1 .EPOLL .LT 5 6,
        .channelCall 0 0 0 .disableReading] = .ok ps ∧
      ps.loops[0]? = some (some l) ∧
      l.channels.map (fun c ↦ (c.events, c.isNoneEvent ps.statics)) = [(EPOLLET, false)] := by
  refine ⟨fun h ↦ ?_, _, _, rfl, rfl, by decide⟩
  obtain ⟨-, h⟩ := along_cons.mp h
  obtain ⟨-, h⟩ := along_cons.mp (h _ rfl)
  obtain ⟨-, h⟩ := along_cons.mp (h _ rfl)
  obtain ⟨hlast, -⟩ := along_cons.mp (h _ rfl)
  obtain ⟨-, hkeep⟩ := hlast 0 _ rfl
  have hET := (hkeep _ List.mem_cons_self).isET
  exact absurd hET (by decide)

end Process

end Twnl
