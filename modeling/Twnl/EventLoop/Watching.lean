import Mathlib.Data.List.Basic
import Twnl.EventLoop.Basic

/-!
# Every loop watches its own descriptors

It does when a loop that uses epoll was constructed before it. The channel of the timers is enabled
with the masks as they are *before* the loop sets them: in a process that has had no such loop they
are zero, and the timer descriptor is registered for nothing (`watching_iff`). Whatever the
connections of the loop do with their channels, its own registrations stay as they were made.
-/

namespace Twnl

def POLLIN : BitVec 16 := 0x001

theorem setWidth_and_in (m : Mask) : m.setWidth 16 &&& POLLIN ≠ 0 ↔ m &&& EPOLLIN ≠ 0 := by
  refine not_congr ?_
  rw [← BitVec.toNat_inj, ← BitVec.toNat_inj, BitVec.toNat_and, BitVec.toNat_and,
    BitVec.toNat_setWidth]
  change m.toNat % 2 ^ 16 &&& 1 = 0 ↔ m.toNat &&& 1 = 0
  rw [Nat.and_one_is_mod, Nat.and_one_is_mod]
  omega

namespace Poller

/-- The descriptor is registered, and the `IN` bit is in its mask. -/
def Reports (fd : ℤ) : Poller → Prop
  | epoll p => ∃ event ∈ p.interest fd, event.1 &&& EPOLLIN ≠ 0
  | poll p => ∃ pfd ∈ p.pollfds, pfd.fd = fd ∧ pfd.events &&& POLLIN ≠ 0

instance (fd : ℤ) : DecidablePred (Reports fd)
  | epoll p => inferInstanceAs (Decidable (∃ event ∈ p.interest fd, _))
  | poll p => inferInstanceAs (Decidable (∃ pfd ∈ p.pollfds, _))

/-- The one registration of a descriptor: its mask, or none. -/
def Holds (fd : ℤ) (mask : Option Mask) : Poller → Prop
  | epoll p => (p.interest fd).map Prod.fst = mask
  | poll p => ∀ x : PollFd, x.fd = fd →
    (x ∈ p.pollfds ↔ mask.map (fun m ↦ ⟨fd, m.setWidth 16, 0⟩) = some x)

variable {k : Masks} {p : Poller} {c : Channel} {fd : ℤ} {mask : Option Mask} {m : Mask}

theorem holds_new (fd : ℤ) (mode : EventLoop.Mode) : (newDefaultPoller mode).Holds fd none := by
  cases mode with
  | EPOLL => rfl
  | POLL => exact fun x _ ↦ iff_of_false List.not_mem_nil nofun

theorem Holds.reports_iff (h : p.Holds fd (some m)) : p.Reports fd ↔ m &&& EPOLLIN ≠ 0 := by
  cases p with
  | epoll p =>
    obtain ⟨event, hevent, rfl⟩ := Option.map_eq_some_iff.mp h
    rw [Reports, hevent]
    simp only [Option.mem_some_iff, exists_eq_left']
  | poll p =>
    rw [← setWidth_and_in]
    constructor
    · rintro ⟨pfd, hmem, hfd, hin⟩
      obtain rfl := Option.some.inj ((h pfd hfd).mp hmem)
      exact hin
    · exact fun hin ↦ ⟨⟨fd, m.setWidth 16, 0⟩, (h _ rfl).mpr rfl, rfl, hin⟩

theorem updateChannel_fd {q : Poller × Channel} (h : p.updateChannel k c = .ok q) :
    q.2.fd = c.fd := by
  cases p with
  | epoll p =>
    obtain ⟨r, hr, h⟩ := bind_eq_ok.mp h
    obtain rfl := Except.ok.inj h
    obtain ⟨_, _, _, -, -, -, hc⟩ := EpollPoller.updateChannel_ctl hr
    change r.2.fd = c.fd
    rw [hc]
  | poll p =>
    obtain ⟨r, hr, h⟩ := bind_eq_ok.mp h
    obtain rfl := Except.ok.inj h
    rcases PollPoller.updateChannel_cases hr with ⟨-, -, rfl⟩ | ⟨i, pfd, -, -, -, -, rfl⟩
    · rfl
    · rfl

theorem removeChannel_fd {q : Poller × Channel × Option (ℕ × ℤ)}
    (h : p.removeChannel k c = .ok q) : q.2.1.fd = c.fd := by
  cases p with
  | epoll p =>
    obtain ⟨r, hr, h⟩ := bind_eq_ok.mp h
    obtain rfl := Except.ok.inj h
    obtain ⟨_, -, -, hc⟩ := EpollPoller.removeChannel_ctl hr
    change r.2.fd = c.fd
    rw [hc]
  | poll p =>
    obtain ⟨r, -, h⟩ := bind_eq_ok.mp h
    obtain rfl := Except.ok.inj h
    rfl

/-- An update leaves the registrations of other descriptors alone. -/
theorem Holds.updateChannel {q : Poller × Channel} (h : p.Holds fd mask) (hfd : 0 ≤ fd)
    (hc : 0 ≤ c.fd) (hne : fd ≠ c.fd) (hq : p.updateChannel k c = .ok q) : q.1.Holds fd mask := by
  cases p with
  | epoll p =>
    obtain ⟨r, hr, hq⟩ := bind_eq_ok.mp hq
    obtain rfl := Except.ok.inj hq
    exact (congrArg _ (EpollPoller.updateChannel_of_ne hne hr).2).trans h
  | poll p =>
    obtain ⟨r, hr, hq⟩ := bind_eq_ok.mp hq
    obtain rfl := Except.ok.inj hq
    rintro x rfl
    exact (PollPoller.mem_updateChannel_iff hfd hc hne hr).trans (h x rfl)

/-- So does a removal. -/
theorem Holds.removeChannel {q : Poller × Channel × Option (ℕ × ℤ)} (h : p.Holds fd mask)
    (hfd : 0 ≤ fd) (hc : 0 ≤ c.fd) (hne : fd ≠ c.fd) (hq : p.removeChannel k c = .ok q) :
    q.1.Holds fd mask := by
  cases p with
  | epoll p =>
    obtain ⟨r, hr, hq⟩ := bind_eq_ok.mp hq
    obtain rfl := Except.ok.inj hq
    exact (congrArg _ (EpollPoller.removeChannel_of_ne hne hr).2).trans h
  | poll p =>
    obtain ⟨r, hr, hq⟩ := bind_eq_ok.mp hq
    obtain rfl := Except.ok.inj hq
    rintro x rfl
    exact (PollPoller.mem_removeChannel_iff hfd hc hne hr).trans (h x rfl)

/-- The first update of a channel registers its descriptor for its events. -/
theorem updateChannel_new {q : Poller × Channel} (hindex : c.index = kNew)
    (h : p.Holds c.fd none) (hq : p.updateChannel k c = .ok q) :
    q.1.Holds c.fd (some c.events) := by
  cases p with
  | epoll p =>
    obtain ⟨r, hr, hq⟩ := bind_eq_ok.mp hq
    obtain rfl := Except.ok.inj hq
    obtain ⟨entered, op, _, hsame, hop, hadded, -⟩ := EpollPoller.updateChannel_ctl hr
    have hnone : entered.interest c.fd = none := by
      rw [hsame.interest]
      exact Option.map_eq_none_iff.mp h
    obtain rfl := hop.mpr (Or.inl hindex)
    simp only [EpollPoller.update, epollCtl, hnone] at hadded
    rw [Holds, ← Except.ok.inj hadded]
    change (Function.update entered.interest c.fd _ c.fd).map Prod.fst = _
    rw [Function.update_self]
    rfl
  | poll p =>
    obtain ⟨r, hr, hq⟩ := bind_eq_ok.mp hq
    obtain rfl := Except.ok.inj hq
    rcases PollPoller.updateChannel_cases hr with ⟨-, -, rfl⟩ | ⟨i, pfd, hi, -⟩
    · intro x hx
      have hnew : x ∉ p.pollfds := fun hmem ↦
        absurd ((h x hx).mp hmem).symm (Option.some_ne_none _)
      rw [List.mem_append, List.mem_singleton, Option.map_some, Option.some.injEq]
      exact (or_iff_right hnew).trans eq_comm
    · rw [hindex, kNew] at hi
      omega

end Poller

namespace EventLoop

/-- The loop would be told of wake-ups and of expired timers. -/
def Watching (l : EventLoop) : Prop :=
  l.poller.Reports l.wakeupChannel.fd ∧ l.poller.Reports l.timerChannel.fd

instance (l : EventLoop) : Decidable l.Watching := inferInstanceAs (Decidable (_ ∧ _))

variable {k statics : Masks} {p : Poller} {l l' : EventLoop} {fd : ℤ} {thread j : ℕ}
  {timer wakeup : Mask}

/-- A new channel is registered for what stands for reading at that time. -/
theorem enableNew_holds {ptr : ℕ} {q : Poller × Channel} (h : p.Holds fd none)
    (hq : enableNew k p ptr fd = .ok q) : q.1.Holds fd (some k.kReadEvent) ∧ q.2.fd = fd := by
  have hevents : ((Channel.new ptr fd).enableReading k).events = k.kReadEvent := BitVec.zero_or
  exact ⟨hevents ▸ Poller.updateChannel_new rfl h hq, Poller.updateChannel_fd hq⟩

/-- The registrations of a loop for its own channels. No channel of a connection is for one of their
descriptors. -/
structure Tended (timer wakeup : Mask) (l : EventLoop) : Prop where
  timer : l.poller.Holds l.timerChannel.fd (some timer)
  wakeup : l.poller.Holds l.wakeupChannel.fd (some wakeup)
  timer_nonneg : 0 ≤ l.timerChannel.fd
  wakeup_nonneg : 0 ≤ l.wakeupChannel.fd
  channels : ∀ c ∈ l.channels,
    0 ≤ c.fd ∧ l.timerChannel.fd ≠ c.fd ∧ l.wakeupChannel.fd ≠ c.fd

theorem new_tended {o : Option ℕ} {mode : Mode} {emode : EpollMode} {timerfd wakeupFd : ℤ}
    (htimer : 0 ≤ timerfd) (hwakeup : 0 ≤ wakeupFd) (hne : timerfd ≠ wakeupFd)
    (h : new statics o thread mode emode timerfd wakeupFd = .ok (k, l)) :
    k = initMasks statics mode emode ∧ l.Tended statics.kReadEvent k.kReadEvent := by
  obtain ⟨⟨registered, timerChannel⟩, hreg, h⟩ := bind_eq_ok.mp h
  cases o with
  | some _ => exact absurd h nofun
  | none =>
    obtain ⟨⟨poller, wakeupChannel⟩, hpoller, h⟩ := bind_eq_ok.mp h
    obtain ⟨rfl, rfl⟩ := Prod.mk.inj (Except.ok.inj h)
    obtain ⟨htheld, htfd⟩ := enableNew_holds (Poller.holds_new timerfd mode) hreg
    have hwnone : registered.Holds wakeupFd none :=
      (Poller.holds_new wakeupFd mode).updateChannel hwakeup htimer hne.symm hreg
    obtain ⟨hwheld, hwfd⟩ := enableNew_holds hwnone hpoller
    have htheld' := htheld.updateChannel htimer hwakeup hne hpoller
    refine ⟨rfl, ?_, ?_, ?_, ?_, fun c hc ↦ absurd hc List.not_mem_nil⟩
    · exact htfd ▸ htheld'
    · exact hwfd ▸ hwheld
    · exact htfd ▸ htimer
    · exact hwfd ▸ hwakeup

theorem Tended.newChannel (h : l.Tended timer wakeup) (hfd : 0 ≤ fd)
    (ht : l.timerChannel.fd ≠ fd) (hw : l.wakeupChannel.fd ≠ fd) :
    (l.newChannel fd).Tended timer wakeup := by
  refine ⟨h.timer, h.wakeup, h.timer_nonneg, h.wakeup_nonneg, fun c hc ↦ ?_⟩
  rcases List.mem_append.mp hc with hc | hc
  · exact h.channels c hc
  · rw [List.mem_singleton.mp hc]
    exact ⟨hfd, ht, hw⟩

/-- The poller may change, and a channel by another for the same descriptor. -/
theorem Tended.set {c c' : Channel} {q : Poller} (h : l.Tended timer wakeup)
    (hc : l.channels[j]? = some c) (hfd : c'.fd = c.fd)
    (ht : q.Holds l.timerChannel.fd (some timer)) (hw : q.Holds l.wakeupChannel.fd (some wakeup)) :
    EventLoop.Tended timer wakeup { l with poller := q, channels := l.channels.set j c' } := by
  refine ⟨ht, hw, h.timer_nonneg, h.wakeup_nonneg, fun d hd ↦ ?_⟩
  rcases List.mem_or_eq_of_mem_set hd with hd | rfl
  · exact h.channels d hd
  · rw [hfd]
    exact h.channels c (List.mem_of_getElem? hc)

theorem Tended.channelCall {a : Channel.Call} (h : l.Tended timer wakeup)
    (hl' : channelCall k thread j a l = .ok l') : l'.Tended timer wakeup := by
  rw [EventLoop.channelCall] at hl'
  split at hl'
  · exact absurd hl' nofun
  · rename_i c hc
    obtain ⟨_, -, hl'⟩ := bind_eq_ok.mp hl'
    obtain ⟨⟨q, c'⟩, hq, hl'⟩ := bind_eq_ok.mp hl'
    obtain rfl := Except.ok.inj hl'
    obtain ⟨hnonneg, ht, hw⟩ := h.channels c (List.mem_of_getElem? hc)
    have hfd : (c.call k a).fd = c.fd := Channel.call_fd k c a
    rw [← hfd] at hnonneg ht hw
    exact h.set hc ((Poller.updateChannel_fd hq).trans hfd)
      (h.timer.updateChannel h.timer_nonneg hnonneg ht hq)
      (h.wakeup.updateChannel h.wakeup_nonneg hnonneg hw hq)

theorem setIndex_at'_fd (ptr : ℕ) (i : ℤ) (c : Channel) : (setIndex.at' ptr i c).fd = c.fd := by
  rw [setIndex.at']
  split <;> rfl

theorem Tended.setIndex (h : l.Tended timer wakeup) (moved : Option (ℕ × ℤ)) :
    (l.setIndex moved).Tended timer wakeup := by
  cases moved with
  | none => exact h
  | some pi =>
    obtain ⟨ptr, i⟩ := pi
    have ht := setIndex_at'_fd ptr i l.timerChannel
    have hw := setIndex_at'_fd ptr i l.wakeupChannel
    refine ⟨ht.symm ▸ h.timer, hw.symm ▸ h.wakeup, ht.symm ▸ h.timer_nonneg,
      hw.symm ▸ h.wakeup_nonneg, fun d hd ↦ ?_⟩
    obtain ⟨c, hc, rfl⟩ := List.mem_map.mp hd
    have hchannels := h.channels c hc
    rw [← setIndex_at'_fd ptr i c, ← ht, ← hw] at hchannels
    exact hchannels

theorem Tended.channelRemove (h : l.Tended timer wakeup)
    (hl' : channelRemove k thread j l = .ok l') : l'.Tended timer wakeup := by
  rw [EventLoop.channelRemove] at hl'
  split at hl'
  · exact absurd hl' nofun
  · rename_i c hc
    obtain ⟨_, -, hl'⟩ := bind_eq_ok.mp hl'
    obtain ⟨_, -, hl'⟩ := bind_eq_ok.mp hl'
    obtain ⟨⟨q, c', moved⟩, hq, hl'⟩ := bind_eq_ok.mp hl'
    obtain rfl := Except.ok.inj hl'
    obtain ⟨hnonneg, ht, hw⟩ := h.channels c (List.mem_of_getElem? hc)
    exact (h.set hc (Poller.removeChannel_fd hq)
      (h.timer.removeChannel h.timer_nonneg hnonneg ht hq)
      (h.wakeup.removeChannel h.wakeup_nonneg hnonneg hw hq)).setIndex moved

end EventLoop

namespace Process

open Machine

/-- The modes of the loops in the order of their construction. -/
def modes (steps : List Step) : List EventLoop.Mode :=
  steps.filterMap fun
    | .construct _ mode _ _ _ => some mode
    | .destroy _ _ | .newChannel _ _ | .channelCall _ _ _ _ | .channelRemove _ _ _ => none

/-- The invariant, after loops of the modes `ms` were constructed. -/
structure Kept (ms : List EventLoop.Mode) (ps : Process) : Prop where
  length : ps.loops.length = ms.length
  statics : ps.statics.kReadEvent &&& EPOLLIN ≠ 0 ↔ .EPOLL ∈ ms
  loops : ∀ i l, ps.loops[i]? = some (some l) → ∃ timer wakeup, l.Tended timer wakeup ∧
    (timer &&& EPOLLIN ≠ 0 ↔ .EPOLL ∈ ms.take i) ∧
    (wakeup &&& EPOLLIN ≠ 0 ↔ .EPOLL ∈ ms.take (i + 1))

variable {ps ps' : Process} {ms : List EventLoop.Mode} {s : Step} {i : ℕ}

theorem kept_start : Kept [] start :=
  ⟨rfl, iff_of_false (by decide) List.not_mem_nil, fun _ _ h ↦ absurd h nofun⟩

theorem Kept.onLoop {f : EventLoop → Except Fault EventLoop} (h : Kept ms ps)
    (hf : ∀ l l' timer wakeup, some l ∈ ps.loops → l.Tended timer wakeup → f l = .ok l' →
      l'.Tended timer wakeup) (hps' : ps.onLoop i f = .ok ps') : Kept ms ps' := by
  rw [Process.onLoop] at hps'
  split at hps'
  · exact absurd hps' nofun
  · exact absurd hps' nofun
  · rename_i l hl
    obtain ⟨l', hl', hps'⟩ := bind_eq_ok.mp hps'
    obtain rfl := Except.ok.inj hps'
    refine ⟨(List.length_set ..).trans h.length, h.statics, fun i' t ht ↦ ?_⟩
    change (ps.loops.set i (some l'))[i']? = _ at ht
    by_cases hi : i = i'
    · subst hi
      rw [List.getElem?_set_self (List.getElem?_eq_some_iff.mp hl).1] at ht
      obtain rfl := Option.some.inj (Option.some.inj ht)
      obtain ⟨timer, wakeup, htended, hmasks⟩ := h.loops i l hl
      exact ⟨timer, wakeup, hf l l' timer wakeup (List.mem_of_getElem? hl) htended hl', hmasks⟩
    · rw [List.getElem?_set_ne hi] at ht
      exact h.loops i' t ht

theorem initMasks_in (statics : Masks) (mode : EventLoop.Mode) (emode : EventLoop.EpollMode) :
    (EventLoop.initMasks statics mode emode).kReadEvent &&& EPOLLIN ≠ 0 ↔
      statics.kReadEvent &&& EPOLLIN ≠ 0 ∨ mode = .EPOLL := by
  cases mode with
  | POLL => exact (or_iff_left nofun).symm
  | EPOLL =>
    refine iff_of_true ?_ (Or.inr rfl)
    cases emode with
    | LT => exact Masks.kReadEvent_and_in .LT
    | ET => exact Masks.kReadEvent_and_in .ET

/-- The step lemma. -/
theorem Kept.step (h : Kept ms ps) (hps' : ps.step s = .ok ps') : Kept (ms ++ modes [s]) ps' := by
  cases s with
  | construct thread mode emode timerfd wakeupFd =>
    rw [Process.step] at hps'
    split at hps'
    · rename_i hfresh
      obtain ⟨⟨ht, -⟩, ⟨hw, -⟩, hne⟩ := hfresh
      obtain ⟨⟨k, l⟩, hnew, hps'⟩ := bind_eq_ok.mp hps'
      obtain rfl := Except.ok.inj hps'
      obtain ⟨rfl, htended⟩ := EventLoop.new_tended ht hw hne hnew
      have hstatics : (EventLoop.initMasks ps.statics mode emode).kReadEvent &&& EPOLLIN ≠ 0 ↔
          .EPOLL ∈ ms ++ [mode] := by
        rw [initMasks_in, h.statics, List.mem_append, List.mem_singleton, eq_comm (a := mode)]
      refine ⟨?_, hstatics, fun i t hi ↦ ?_⟩
      · change (ps.loops ++ [some l]).length = (ms ++ [mode]).length
        rw [List.length_append, List.length_append, h.length]
        rfl
      · change (ps.loops ++ [some l])[i]? = _ at hi
        change ∃ timer wakeup, t.Tended timer wakeup ∧ (_ ↔ _ ∈ (ms ++ [mode]).take i) ∧
          (_ ↔ _ ∈ (ms ++ [mode]).take (i + 1))
        -- an older loop, the one that is constructed, or none
        rcases Nat.lt_trichotomy i ps.loops.length with hlt | rfl | hgt
        · rw [List.getElem?_append_left hlt] at hi
          rw [h.length] at hlt
          rw [List.take_append_of_le_length (Nat.le_of_lt hlt),
            List.take_append_of_le_length (Nat.succ_le_of_lt hlt)]
          exact h.loops i t hi
        · rw [List.getElem?_concat_length] at hi
          obtain rfl := Option.some.inj (Option.some.inj hi)
          refine ⟨_, _, htended, ?_, ?_⟩
          · rw [h.length, List.take_left, h.statics]
          · rw [h.length, List.take_of_length_le (by simp), hstatics]
        · rw [List.getElem?_eq_none (by simp; omega)] at hi
          exact absurd hi.symm (Option.some_ne_none _)
    · exact absurd hps' error_ne_ok
  | destroy thread i =>
    rw [show ms ++ modes [.destroy thread i] = ms from List.append_nil ms]
    rw [Process.step] at hps'
    split at hps'
    · exact absurd hps' error_ne_ok
    · exact absurd hps' error_ne_ok
    · rename_i l hl
      obtain rfl := Except.ok.inj hps'
      refine ⟨(List.length_set ..).trans h.length, h.statics, fun i' t ht ↦ ?_⟩
      change (ps.loops.set i none)[i']? = _ at ht
      by_cases hi : i = i'
      · subst hi
        rw [List.getElem?_set_self (List.getElem?_eq_some_iff.mp hl).1] at ht
        exact absurd (Option.some.inj ht).symm (Option.some_ne_none _)
      · rw [List.getElem?_set_ne hi] at ht
        exact h.loops i' t ht
  | newChannel i fd =>
    rw [show ms ++ modes [.newChannel i fd] = ms from List.append_nil ms]
    rw [Process.step] at hps'
    split at hps'
    · rename_i hfresh
      obtain ⟨hnonneg, hfresh⟩ := hfresh
      refine h.onLoop (fun l l' timer wakeup hmem htended hl' ↦ ?_) hps'
      obtain rfl := Except.ok.inj hl'
      refine htended.newChannel hnonneg (fun hfd ↦ ?_) fun hfd ↦ ?_
      · exact hfresh ⟨some l, hmem, l, rfl, Or.inl hfd⟩
      · exact hfresh ⟨some l, hmem, l, rfl, Or.inr hfd⟩
    · exact absurd hps' error_ne_ok
  | channelCall thread i j a =>
    rw [show ms ++ modes [.channelCall thread i j a] = ms from List.append_nil ms]
    exact h.onLoop (fun _ _ _ _ _ htended hl' ↦ htended.channelCall hl') hps'
  | channelRemove thread i j =>
    rw [show ms ++ modes [.channelRemove thread i j] = ms from List.append_nil ms]
    exact h.onLoop (fun _ _ _ _ _ htended hl' ↦ htended.channelRemove hl') hps'

theorem modes_cons (s : Step) (steps : List Step) : modes (s :: steps) = modes [s] ++ modes steps :=
  List.filterMap_append (l := [s])

theorem Kept.run {steps : List Step} (h : Kept ms ps) (hps' : run Process.step ps steps = .ok ps') :
    Kept (ms ++ modes steps) ps' := by
  induction steps generalizing ms ps with
  | nil =>
    obtain rfl := Except.ok.inj hps'
    rw [show ms ++ modes [] = ms from List.append_nil ms]
    exact h
  | cons s steps ih =>
    obtain ⟨t, ht, hps'⟩ := run_cons_eq_ok.mp hps'
    rw [modes_cons, ← List.append_assoc]
    exact ih (h.step ht) hps'

/-- **A loop watches its own descriptors** exactly when, before it, a loop that uses epoll was
constructed in the process. -/
theorem watching_iff {steps : List Step} (hrun : run Process.step start steps = .ok ps)
    {l : EventLoop} (hl : ps.loops[i]? = some (some l)) :
    l.Watching ↔ .EPOLL ∈ (modes steps).take i := by
  obtain ⟨timer, wakeup, htended, htimer, hwakeup⟩ := (kept_start.run hrun).loops i l hl
  rw [EventLoop.Watching, htended.timer.reports_iff, htended.wakeup.reports_iff, htimer, hwakeup]
  exact and_iff_right_of_imp fun hmem ↦
    List.Sublist.mem hmem (List.take_sublist_take_left (Nat.le_succ i))

/-- The second of two loops that use epoll. -/
theorem watching_second :
    ∃ ps l, run step start [.construct 0 .EPOLL .LT 3 4, .construct 1 .EPOLL .ET 5 6,
        .newChannel 1 9, .channelCall 1 1 0 .enableReading, .destroy 0 0,
        .channelCall 1 1 0 .disableAll, .channelRemove 1 1 0] = .ok ps ∧
      ps.loops[1]? = some (some l) ∧ l.Watching := by
  have hrun : ∃ ps l, run step start [.construct 0 .EPOLL .LT 3 4, .construct 1 .EPOLL .ET 5 6,
      .newChannel 1 9, .channelCall 1 1 0 .enableReading, .destroy 0 0,
      .channelCall 1 1 0 .disableAll, .channelRemove 1 1 0] = .ok ps ∧
      ps.loops[1]? = some (some l) := ⟨_, _, rfl, rfl⟩
  obtain ⟨ps, l, hps, hl⟩ := hrun
  exact ⟨ps, l, hps, hl, (watching_iff hps hl).mpr (by decide)⟩

/-- The first loop of a process registers the timer descriptor for nothing, and without epoll the
one for wake-ups too. -/
theorem not_watching_first :
    (∃ ps l, run step start [.construct 0 .EPOLL .LT 3 4] = .ok ps ∧
      ps.loops[0]? = some (some l) ∧ ¬l.poller.Reports l.timerChannel.fd ∧ ¬l.Watching) ∧
    ∃ ps l, run step start [.construct 0 .POLL .LT 3 4] = .ok ps ∧
      ps.loops[0]? = some (some l) ∧ ¬l.poller.Reports l.timerChannel.fd ∧
      ¬l.poller.Reports l.wakeupChannel.fd :=
  ⟨⟨_, _, rfl, rfl, by decide, by decide⟩, ⟨_, _, rfl, rfl, by decide, by decide⟩⟩

end Process

end Twnl
