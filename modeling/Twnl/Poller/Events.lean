import Mathlib.Algebra.Group.Nat.Defs
import Mathlib.Data.List.Forall2
import Mathlib.Data.List.Nodup
import Twnl.Kernel
import Twnl.Poller.Recycling

/-!
# What an epoll poller reports

`poll` has the kernel write the ready descriptors into a list of a fixed length, and turns what it
finds there into active channels. A list that was filled may have been too short, so it is doubled.

A reported pointer is one that was stored with a descriptor some time ago. It is that of the channel
that is registered under the descriptor *now*, whatever descriptors were closed and used again in
the meantime, exactly as long as the calls on the poller are apart (`polls_iff_apart`). The list
grows no further than twice the most that was ever found (`Sized`), and it does grow: where more
descriptors are ready than fit, each poll doubles it, so that after the logarithm of their number
none of them is left out (`all_reported`).
-/

namespace Twnl

open Machine Poller Poller.Session

/-- `static_cast<int>` of a size. -/
def castInt (n : ℕ) : ℤ := (n : ℤ).bmod (2 ^ 32)

namespace EpollPoller

/-- A `struct epoll_event`, with the pointer stored in it. -/
structure EpollEvent where
  events : Mask
  ptr : ℕ
  deriving DecidableEq, Repr

def kInitEventListSize : ℕ := 16

/-- The answer to an `epoll_wait`: descriptors with what they are ready for, or an `errno`. -/
inductive WaitResult
  | ready (found : List (ℤ × Mask))
  | fails (e : Errno)
  deriving DecidableEq, Repr

/-- A poller in its loop: its books, the list `events_` and the active channels of the last poll,
beside a record of how many polls filled the list and of the most that one of them found. -/
structure Polling where
  history : History EpollPoller
  events : List EpollEvent
  activeChannels : List ℕ
  filled : ℕ
  most : ℕ

namespace Polling

def start (fd : ℕ → ℤ) : Polling :=
  ⟨kind.start fd, List.replicate kInitEventListSize ⟨0, 0⟩, [], 0, 0⟩

/-- `epoll_wait`. It tells of no descriptor twice, of none that it does not watch, and of no more
than it is asked for; asked for none it fails. -/
def epollWait (interest : InterestSet) (maxevents : ℤ) :
    WaitResult → Except Fault (ℤ × List EpollEvent)
  | .fails _ => .ok (-1, [])
  | .ready found =>
    if 0 < maxevents ∧ found.length ≤ maxevents ∧ (found.map Prod.fst).Nodup then
      match found.mapM fun x ↦ (interest x.1).map fun event ↦ (⟨x.2, event.2⟩ : EpollEvent) with
      | some events => .ok (found.length, events)
      | none => .error .impossible
    else .error .impossible

/-- `Channel::set_revents`, by the pointer. -/
def setRevents (s : Session EpollPoller) (e : EpollEvent) : Session EpollPoller :=
  { s with channel := Function.update s.channel e.ptr { s.channel e.ptr with revents := e.events } }

/-- Both pollers have a function of this name, with an assert in it. -/
def fillActiveChannels (s : Session EpollPoller) (events : List EpollEvent) (numEvents : ℤ)
    (activeChannels : List ℕ) : Except Fault (Session EpollPoller × List ℕ) := do
  check (numEvents.toNat ≤ events.length) .pollFillActiveChannels
  let found := events.take numEvents.toNat
  .ok (found.foldl setRevents s, activeChannels ++ found.map EpollEvent.ptr)

/-- `events_.resize(events_.size() * 2)`, after a poll that filled the list. -/
def grown (events : List EpollEvent) (numEvents : ℤ) : List EpollEvent :=
  if numEvents.toNat = events.length then
    events ++ List.replicate (events.length * 2 - events.length) ⟨0, 0⟩
  else events

/-- `EpollPoller::poll`, after the loop has cleared its active channels. -/
def poll (s : Polling) (answer : WaitResult) : Except Fault Polling := do
  let (numEvents, found) ← epollWait s.history.session.poller.interest (castInt s.events.length)
    answer
  -- the kernel writes to the front of the list
  let events := found ++ s.events.drop found.length
  let most := max s.most found.length
  if 0 < numEvents then do
    let (session, active) ← fillActiveChannels s.history.session events numEvents []
    .ok ⟨⟨session, s.history.use⟩, grown events numEvents, active,
      if numEvents.toNat = events.length then s.filled + 1 else s.filled, most⟩
  else .ok ⟨s.history, events, [], s.filled, most⟩

inductive Step
  | call (i : Session.Step)
  | poll (answer : WaitResult)

def step (k : Masks) (s : Polling) : Step → Except Fault Polling
  | .call i => do
    let history ← kind.call k s.history i
    .ok { s with history := history }
  | .poll answer => s.poll answer

/-! ## What is shown -/

/-- The list is doubled as often as it was filled, and only for what was found. -/
structure Sized (s : Polling) : Prop where
  length_eq : s.events.length = kInitEventListSize * 2 ^ s.filled
  length_le : s.events.length ≤ max kInitEventListSize (2 * s.most)

/-- Each descriptor that the kernel tells of is that of the active channel in the same place. The
channel is registered, is told what was found for it, and is active once; the others are as they
were. -/
def Answered (fd : ℕ → ℤ) (s t : Polling) : WaitResult → Prop
  | .ready found =>
    List.Forall₂ (fun x ptr ↦ s.history.use ptr = .registered ∧ fd ptr = x.1 ∧
        (s.history.session.channel ptr).index = kAdded ∧
        (t.history.session.channel ptr).revents = x.2) found t.activeChannels ∧
      t.activeChannels.Nodup ∧
      ∀ ptr ∉ t.activeChannels, t.history.session.channel ptr = s.history.session.channel ptr
  | .fails _ => t.activeChannels = [] ∧ t.history = s.history

/-- The books are sound, a call keeps them, and a poll gives the channels that are ready; the assert
holds. -/
def Polls (k : Masks) (fd : ℕ → ℤ) (s : Polling) : Step → Prop
  | .call i => Recycles k fd s.history i ∧ Sized s
  | .poll answer => Sound fd s.history ∧ Sized s ∧
    Outcome (s.poll answer) (fun t ↦ Sound fd t.history ∧ Sized t ∧ Answered fd s t answer)
      (· = .impossible)

/-- The calls on the poller are apart. -/
def CallsApart (fd : ℕ → ℤ) (s : Polling) : Step → Prop
  | .call i => Apart fd s.history i
  | .poll _ => True

/-! ## The active channels -/

variable {k : Masks} {fd : ℕ → ℤ} {s t : Polling} {i : Step} {answer : WaitResult}
  {h : History EpollPoller} {session : Session EpollPoller} {found : List (ℤ × Mask)}
  {events : List EpollEvent} {e : EpollEvent} {ptr : ℕ}

/-- All that the books are about is left as it is. -/
structure SameBooks (s t : Session EpollPoller) : Prop where
  poller : t.poller = s.poller
  channel : ∀ ptr, ∃ revents, t.channel ptr = { s.channel ptr with revents := revents }

theorem SameBooks.refl (s : Session EpollPoller) : SameBooks s s :=
  ⟨rfl, fun ptr ↦ ⟨(s.channel ptr).revents, rfl⟩⟩

theorem SameBooks.setRevents {u : Session EpollPoller} (hs : SameBooks s.history.session u)
    (e : EpollEvent) : SameBooks s.history.session (setRevents u e) := by
  refine ⟨hs.poller, fun ptr ↦ ?_⟩
  change ∃ revents, Function.update u.channel e.ptr _ ptr = _
  by_cases hptr : ptr = e.ptr
  · subst hptr
    obtain ⟨revents, hrevents⟩ := hs.channel e.ptr
    refine ⟨e.events, ?_⟩
    rw [Function.update_self, hrevents]
  · rw [Function.update_of_ne hptr]
    exact hs.channel ptr

theorem SameBooks.foldl {u : Session EpollPoller} (hs : SameBooks s.history.session u)
    (events : List EpollEvent) :
    SameBooks s.history.session (events.foldl Polling.setRevents u) := by
  induction events generalizing u with
  | nil => exact hs
  | cons e events ih => exact ih (hs.setRevents e)

theorem SameBooks.kept {u : Session EpollPoller} (hs : SameBooks s.history.session u)
    (h : Kept fd s.history) : Kept fd ⟨u, s.history.use⟩ where
  ptr_eq ptr := by
    obtain ⟨_, heq⟩ := hs.channel ptr
    exact (congrArg Channel.ptr heq).trans (h.ptr_eq ptr)
  fd_eq ptr := by
    obtain ⟨_, heq⟩ := hs.channel ptr
    exact (congrArg Channel.fd heq).trans (h.fd_eq ptr)
  map x ptr := by
    change u.poller.channels x = _ ↔ _
    rw [hs.poller]
    exact h.map x ptr
  reports x m ptr := by
    obtain ⟨_, heq⟩ := hs.channel ptr
    change u.poller.interest x = _ ↔ _ ∧ _ ∧ (u.channel ptr).index = _ ∧ (u.channel ptr).events = _
    rw [hs.poller, heq]
    exact h.reports x m ptr
  index ptr := by
    obtain ⟨_, heq⟩ := hs.channel ptr
    change IndexOf (u.channel ptr).index _
    rw [heq]
    exact h.index ptr

theorem foldl_setRevents_of_notMem (events : List EpollEvent) (session : Session EpollPoller)
    (hptr : ptr ∉ events.map EpollEvent.ptr) :
    (events.foldl setRevents session).channel ptr = session.channel ptr := by
  induction events generalizing session with
  | nil => rfl
  | cons e events ih =>
    rw [List.map_cons, List.mem_cons, not_or] at hptr
    rw [List.foldl_cons, ih _ hptr.2]
    exact Function.update_of_ne hptr.1 _ _

/-- A channel that is active once has been told what was found for it. -/
theorem foldl_setRevents_of_mem (events : List EpollEvent) (session : Session EpollPoller)
    (hnodup : (events.map EpollEvent.ptr).Nodup) (he : e ∈ events) :
    ((events.foldl setRevents session).channel e.ptr).revents = e.events := by
  induction events generalizing session with
  | nil => exact absurd he List.not_mem_nil
  | cons e' events ih =>
    rw [List.map_cons, List.nodup_cons] at hnodup
    rw [List.foldl_cons]
    rcases List.mem_cons.mp he with rfl | he
    · rw [foldl_setRevents_of_notMem _ _ hnodup.1]
      exact congrArg Channel.revents (Function.update_self _ _ session.channel)
    · exact ih _ hnodup.2 he

theorem forall₂_of_mapM_eq_some {α β : Type} {f : α → Option β} {l : List α} {l' : List β}
    (hl : l.mapM f = some l') : List.Forall₂ (fun a b ↦ f a = some b) l l' := by
  induction l generalizing l' with
  | nil =>
    obtain rfl := Option.some.inj hl
    exact List.Forall₂.nil
  | cons a l ih =>
    rw [List.mapM_cons] at hl
    obtain ⟨b, hb, hl⟩ := Option.bind_eq_some_iff.mp hl
    obtain ⟨bs, hbs, hl⟩ := Option.bind_eq_some_iff.mp hl
    obtain rfl := Option.some.inj hl
    exact List.Forall₂.cons hb (ih hbs)

/-- What the kernel writes: for each descriptor its registered channel. -/
theorem forall₂_of_mapM (h : Sound fd s.history)
    (hevents : found.mapM (fun x ↦ (s.history.session.poller.interest x.1).map
      fun event ↦ (⟨x.2, event.2⟩ : EpollEvent)) = some events) :
    List.Forall₂ (fun x e ↦ s.history.use e.ptr = .registered ∧ fd e.ptr = x.1 ∧
      (s.history.session.channel e.ptr).index = kAdded ∧ e.events = x.2) found events := by
  refine (forall₂_of_mapM_eq_some hevents).imp fun x e he ↦ ?_
  obtain ⟨event, hevent, rfl⟩ := Option.map_eq_some_iff.mp he
  obtain ⟨hreg, hfd, hadded, -⟩ := (h.reports x.1 event.1 event.2).mp hevent
  exact ⟨hreg, hfd, hadded, rfl⟩

/-- Different descriptors are those of different channels. -/
theorem nodup_ptr {events : List EpollEvent} (hnodup : (found.map Prod.fst).Nodup)
    (hown : List.Forall₂ (fun x e ↦ s.history.use e.ptr = .registered ∧ fd e.ptr = x.1 ∧
      (s.history.session.channel e.ptr).index = kAdded ∧ e.events = x.2) found events) :
    (events.map EpollEvent.ptr).Nodup := by
  have hfds : (events.map EpollEvent.ptr).map fd = found.map Prod.fst := by
    rw [List.map_map]
    induction hown with
    | nil => rfl
    | cons he _ ih =>
      rw [List.map_cons, List.map_cons, ih (List.nodup_cons.mp hnodup).2, ← he.2.1]
      rfl
  exact List.Nodup.of_map fd (hfds ▸ hnodup)

/-! ## The steps -/

/-- The inversion of an answer. -/
theorem epollWait_eq_ok {interest : InterestSet} {maxevents : ℤ} {r : ℤ × List EpollEvent}
    (hr : epollWait interest maxevents (.ready found) = .ok r) :
    (0 < maxevents ∧ found.length ≤ maxevents ∧ (found.map Prod.fst).Nodup) ∧
      r.1 = found.length ∧
      found.mapM (fun x ↦ (interest x.1).map fun event ↦ (⟨x.2, event.2⟩ : EpollEvent)) =
        some r.2 := by
  rw [epollWait] at hr
  split at hr
  · rename_i hlegal
    split at hr
    · rename_i events hevents
      obtain rfl := Except.ok.inj hr
      exact ⟨hlegal, rfl, hevents⟩
    · exact absurd hr error_ne_ok
  · exact absurd hr error_ne_ok

theorem castInt_eq {n : ℕ} (hn : n < 2 ^ 31) : castInt n = n :=
  Int.bmod_eq_of_le (by omega) (by omega)

theorem castInt_le (n : ℕ) : castInt n ≤ n := by
  by_cases hn : n < 2 ^ 31
  · exact Int.le_of_eq (castInt_eq hn)
  · have hlt : castInt n < (((2 ^ 32 : ℕ) : ℤ) + 1) / 2 := Int.bmod_lt (Nat.two_pow_pos 32)
    omega

theorem sized_start (fd : ℕ → ℤ) : Sized (start fd) :=
  ⟨rfl, show kInitEventListSize ≤ max kInitEventListSize 0 from by decide⟩

/-- A poll leaves the list at its length, or doubles it. -/
theorem Sized.next (h : Sized s) {n most : ℕ} (hn : n ≤ s.events.length)
    (hevents : events.length = s.events.length) (hmost : n ≤ most) (hle : s.most ≤ most)
    (t : Polling) (hlist : t.events = grown events n) (ht : t.most = most)
    (hfilled : t.filled = if n = events.length then s.filled + 1 else s.filled) : Sized t := by
  have hlen := h.length_eq
  have hmax := h.length_le
  constructor
  · rw [hlist, hfilled, grown, Int.toNat_natCast]
    split
    · rw [List.length_append, List.length_replicate, pow_succ, ← Nat.mul_assoc, hevents, hlen]
      omega
    · rw [hevents, hlen]
  · rw [hlist, ht, grown, Int.toNat_natCast]
    split
    · rw [List.length_append, List.length_replicate]
      omega
    · omega

theorem epollWait_error {interest : InterestSet} {maxevents : ℤ} {x : Fault}
    (hx : epollWait interest maxevents answer = .error x) : x = .impossible := by
  cases answer with
  | fails e => exact absurd hx.symm error_ne_ok
  | ready found =>
    rw [epollWait] at hx
    split at hx
    · split at hx
      · exact absurd hx.symm error_ne_ok
      · exact (Except.error.inj hx).symm
    · exact (Except.error.inj hx).symm

/-- The step lemma for a poll. -/
theorem poll_spec (h : Kept fd s.history) (hs : Sized s) (answer : WaitResult) :
    Outcome (s.poll answer)
      (fun t ↦ Kept fd t.history ∧ Sized t ∧ Answered fd s t answer) (· = .impossible) := by
  rw [poll]
  cases hr : epollWait s.history.session.poller.interest (castInt s.events.length) answer with
  | error x => exact epollWait_error hr
  | ok r =>
    obtain ⟨numEvents, written⟩ := r
    rw [bind_ok]
    dsimp only
    cases answer with
    | fails e =>
      obtain ⟨rfl, rfl⟩ := Prod.mk.inj (Except.ok.inj hr)
      exact ⟨h, ⟨hs.length_eq, by rw [List.length_nil, Nat.max_zero]; exact hs.length_le⟩, rfl, rfl⟩
    | ready found =>
      obtain ⟨⟨-, hle, hnodup⟩, hnum, hwritten⟩ := epollWait_eq_ok hr
      replace hnum : numEvents = found.length := hnum
      have hown := forall₂_of_mapM h.toSound hwritten
      have hlen : written.length = found.length := hown.length_eq.symm
      have hfits : found.length ≤ s.events.length :=
        Int.ofNat_le.mp (Int.le_trans hle (castInt_le _))
      have hlist : (written ++ s.events.drop written.length).length = s.events.length := by
        rw [List.length_append, List.length_drop]
        omega
      subst hnum
      by_cases hnil : found = []
      · subst hnil
        obtain rfl := List.length_eq_zero_iff.mp hlen
        rw [if_neg (by simp)]
        refine ⟨h, ⟨hs.length_eq, ?_⟩, List.Forall₂.nil, List.nodup_nil, fun _ _ ↦ rfl⟩
        rw [List.length_nil, Nat.max_zero]
        exact hs.length_le
      · have hpos : 0 < (found.length : ℤ) := Int.natCast_pos.mpr (List.length_pos_iff.mpr hnil)
        have hcheck : (found.length : ℤ).toNat ≤
            (written ++ s.events.drop written.length).length := by
          rw [hlist, Int.toNat_natCast]
          exact hfits
        have htake : (written ++ s.events.drop written.length).take (found.length : ℤ).toNat =
            written := by
          rw [Int.toNat_natCast, ← hlen, List.take_left]
        rw [if_pos hpos, fillActiveChannels, check_pos hcheck, bind_ok, htake]
        have hdistinct := nodup_ptr hnodup hown
        refine ⟨((SameBooks.refl _).foldl written).kept h, ?_, ?_, hdistinct, fun ptr hptr ↦ ?_⟩
        · refine hs.next (n := found.length) hfits hlist (Nat.le_max_right _ _)
            (Nat.le_max_left _ _) _ rfl ?_ rfl
          exact congrArg (max s.most) hlen
        · -- each entry with its own channel
          change List.Forall₂ _ found (written.map EpollEvent.ptr)
          rw [List.forall₂_map_right_iff]
          have hrevents := fun e (he : e ∈ written) ↦
            foldl_setRevents_of_mem written s.history.session hdistinct he
          have hboth := ((List.forall₂_and_left _ _).mpr ⟨hrevents, hown.flip⟩).flip
          exact hboth.imp fun x e ⟨htold, hreg, hfd, hadded, hmask⟩ ↦
            ⟨hreg, hfd, hadded, htold.trans hmask⟩
        · exact foldl_setRevents_of_notMem written _ hptr

/-- **What is reported is registered.** Whatever descriptors the channels have, and whatever calls
and polls are made: the books stay sound, every poll that the kernel answers keeps its assert and
gives exactly the channels registered under the descriptors that are ready, and the list is as long
as it has to be, exactly as long as the calls are apart. -/
theorem polls_iff_apart (k : Masks) (fd : ℕ → ℤ) (steps : List Step) :
    Along (step k) (Polls k fd) (start fd) steps ↔
      Along (step k) (CallsApart fd) (start fd) steps := by
  refine along_congr (I := fun s ↦ Kept fd s.history ∧ Sized s) (fun s i t hs hapart ht ↦ ?_)
    (fun s i hs ↦ ⟨fun hpolls ↦ ?_, fun hapart ↦ ?_⟩) ⟨kept_start fd, sized_start fd⟩
  · cases i with
    | call i =>
      obtain ⟨history, hhistory, ht⟩ := bind_eq_ok.mp ht
      obtain rfl := Except.ok.inj ht
      obtain ⟨u, hu, hkept⟩ := hs.1.step (k := k) hapart
      obtain rfl := Except.ok.inj (hu.symm.trans hhistory)
      exact ⟨hkept, hs.2.length_eq, hs.2.length_le⟩
    | poll answer =>
      obtain ⟨hkept, hsized, -⟩ := (poll_spec hs.1 hs.2 answer).of_ok ht
      exact ⟨hkept, hsized⟩
  · cases i with
    | call i => exact hs.1.apart_of_recycles hpolls.1
    | poll answer => trivial
  · cases i with
    | call i =>
      obtain ⟨u, hu, hkept⟩ := hs.1.step (k := k) hapart
      refine ⟨⟨hs.1.toSound, ?_⟩, hs.2⟩
      rw [hu]
      exact hkept.toSound
    | poll answer =>
      exact ⟨hs.1.toSound, hs.2, (poll_spec hs.1 hs.2 answer).imp
        fun t ⟨hkept, hsized, hanswered⟩ ↦ ⟨hkept.toSound, hsized, hanswered⟩⟩

/-! ## More than fit -/

/-- As many descriptors are told of as fit, of `r` that are ready. -/
def Saturates (r : ℕ) (s : Polling) : Step → Prop
  | .call _ => True
  | .poll (.ready found) => found.length = min r s.events.length
  | .poll (.fails _) => False

instance (r : ℕ) (s : Polling) : DecidablePred (Saturates r s)
  | .call _ => .isTrue trivial
  | .poll (.ready found) => inferInstanceAs (Decidable (found.length = min r s.events.length))
  | .poll (.fails _) => .isFalse id

/-- A step is a poll. -/
def Step.isPoll : Step → Bool
  | .call _ => false
  | .poll _ => true

/-- A poll that leaves some out doubles the list. -/
theorem length_step {r : ℕ} (hsat : Saturates r s i) (ht : step k s i = .ok t) :
    s.events.length ≤ t.events.length ∧
      (i.isPoll → s.events.length ≤ r → t.events.length = s.events.length * 2 ∨ r = 0) := by
  cases i with
  | call i =>
    obtain ⟨history, -, ht⟩ := bind_eq_ok.mp ht
    obtain rfl := Except.ok.inj ht
    exact ⟨Nat.le_refl _, fun h ↦ absurd h (by simp [Step.isPoll])⟩
  | poll answer =>
    cases answer with
    | fails e => exact hsat.elim
    | ready found =>
      replace hsat : found.length = min r s.events.length := hsat
      rw [step, poll] at ht
      obtain ⟨⟨numEvents, written⟩, hr, ht⟩ := bind_eq_ok.mp ht
      obtain ⟨-, hnum, hwritten⟩ := epollWait_eq_ok hr
      have hlen : written.length = found.length :=
        (forall₂_of_mapM_eq_some hwritten).length_eq.symm
      have hlist : (written ++ s.events.drop written.length).length = s.events.length := by
        rw [List.length_append, List.length_drop]
        omega
      replace hnum : numEvents = found.length := hnum
      subst hnum
      change (if 0 < (found.length : ℤ) then _ else _) = Except.ok t at ht
      split at ht
      · obtain ⟨u, -, ht⟩ := bind_eq_ok.mp ht
        obtain rfl := Except.ok.inj ht
        change _ ≤ (grown _ _).length ∧ (_ → _ → (grown _ _).length = _ ∨ _)
        rw [grown, Int.toNat_natCast, hlist]
        split
        · rw [List.length_append, List.length_replicate, hlist]
          exact ⟨by omega, fun _ _ ↦ Or.inl (by omega)⟩
        · rename_i hpart
          exact ⟨Nat.le_of_eq hlist.symm, fun _ hr ↦ by omega⟩
      · obtain rfl := Except.ok.inj ht
        refine ⟨Nat.le_of_eq hlist.symm, fun _ hr ↦ ?_⟩
        change (written ++ s.events.drop written.length).length = _ ∨ _
        rw [hlist]
        omega

/-- The run lemma: after `n` polls the list is `2 ^ n` times as long, or long enough. -/
theorem length_run {r : ℕ} {steps : List Step} (hsat : Along (step k) (Saturates r) s steps)
    (ht : run (step k) s steps = .ok t) :
    s.events.length * 2 ^ steps.countP Step.isPoll ≤ t.events.length ∨ r ≤ t.events.length := by
  induction steps generalizing s with
  | nil =>
    obtain rfl := Except.ok.inj ht
    exact Or.inl (by simp)
  | cons i steps ih =>
    obtain ⟨u, hu, ht⟩ := run_cons_eq_ok.mp ht
    obtain ⟨hi, hrest⟩ := along_cons.mp hsat
    obtain ⟨hmono, hdouble⟩ := length_step hi hu
    rw [List.countP_cons]
    rcases ih (hrest u hu) ht with hlong | henough
    · by_cases hpoll : i.isPoll = true
      · rw [if_pos hpoll]
        by_cases hr : s.events.length ≤ r
        · rcases hdouble hpoll hr with htwice | hzero
          · left
            rw [htwice, Nat.mul_assoc, ← Nat.pow_succ'] at hlong
            exact hlong
          · exact Or.inr (hzero ▸ Nat.zero_le _)
        · right
          have hpos := Nat.le_mul_of_pos_right u.events.length
            (Nat.two_pow_pos (steps.countP Step.isPoll))
          omega
      · rw [if_neg hpoll, Nat.add_zero]
        exact Or.inl (Nat.le_trans (Nat.mul_le_mul_right _ hmono) hlong)
    · exact Or.inr henough

/-- **None is left out for long.** Where `r` descriptors stay ready and the kernel tells of as many
as fit, the polls after the first `n` tell of all of them, for every `n` with `r ≤ 16 * 2 ^ n`. -/
theorem all_reported {r n : ℕ} {steps : List Step}
    (hsat : Along (step k) (Saturates r) (start fd) (steps ++ [.poll (.ready found)]))
    (ht : run (step k) (start fd) steps = .ok t) (hn : n ≤ steps.countP Step.isPoll)
    (hr : r ≤ kInitEventListSize * 2 ^ n) : found.length = r := by
  obtain ⟨halong, hlast⟩ := (along_append ht).mp hsat
  replace hlast : found.length = min r t.events.length := (along_cons.mp hlast).1
  have hlen : (start fd).events.length = kInitEventListSize := List.length_replicate
  have hpow : kInitEventListSize * 2 ^ n ≤ kInitEventListSize * 2 ^ steps.countP Step.isPoll :=
    Nat.mul_le_mul_left _ (Nat.pow_le_pow_right (by decide) hn)
  rcases length_run halong ht with hlong | henough
  · rw [hlen] at hlong
    omega
  · omega

/-- Seventeen descriptors are ready: the first poll tells of sixteen, and the second of all. -/
theorem all_reported_seventeen :
    ∃ t, run (step Twin.masks) (start fun ptr ↦ ptr)
      ((List.range 17).map (fun ptr ↦ .call (.updateChannel ptr EPOLLIN)) ++
        [.poll (.ready ((List.range 16).map fun ptr ↦ (ptr, EPOLLIN)))]) = .ok t ∧
      Along (step Twin.masks) (Saturates 17) (start fun ptr ↦ ptr)
        ((List.range 17).map (fun ptr ↦ .call (.updateChannel ptr EPOLLIN)) ++
          [.poll (.ready ((List.range 16).map fun ptr ↦ (ptr, EPOLLIN)))] ++
          [.poll (.ready ((List.range 17).map fun ptr ↦ (ptr, EPOLLIN)))]) ∧
      ((List.range 17).map fun ptr : ℕ ↦ ((ptr : ℤ), EPOLLIN)).length = 17 := by
  have hok : Outcome (run (step Twin.masks) (start fun ptr ↦ ptr)
      ((List.range 17).map (fun ptr ↦ .call (.updateChannel ptr EPOLLIN)) ++
        [.poll (.ready ((List.range 16).map fun ptr ↦ (ptr, EPOLLIN)))])) (fun _ ↦ True)
      fun _ ↦ False := by decide +kernel
  obtain ⟨t, ht, -⟩ := hok.exists_ok
  have hsat : Along (step Twin.masks) (Saturates 17) (start fun ptr ↦ ptr)
      ((List.range 17).map (fun ptr ↦ .call (.updateChannel ptr EPOLLIN)) ++
        [.poll (.ready ((List.range 16).map fun ptr ↦ (ptr, EPOLLIN)))] ++
        [.poll (.ready ((List.range 17).map fun ptr ↦ (ptr, EPOLLIN)))]) := by decide +kernel
  exact ⟨t, ht, hsat, all_reported (n := 1) hsat ht (by decide) (by decide)⟩

end Polling

end EpollPoller

end Twnl
