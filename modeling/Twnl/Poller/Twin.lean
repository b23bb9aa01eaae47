import Twnl.Channel.Interest
import Twnl.Poller.Agreement
import Twnl.Poller.Table

/-!
# The two pollers watch the same

The same operations are made on the same channels over a poller of each kind. The one keeps a
channel that is switched off in its table under a negated descriptor, the other takes it out of the
interest set of the kernel.

They do not do the same with a channel that is switched off when it is off already. The epoll poller
puts it *back* into the interest set, with an empty mask, under which errors and hang-ups are told
all the same; the poll poller does so only with a channel it has not seen before, and then asserts
at its removal that it has not. Both watch the same, and a channel without events is watched by
neither, exactly when every call that leaves a channel without events is made on one that has some
(`same_iff`).
-/

namespace Twnl

open Machine Poller Poller.Session

namespace PollPoller

/-- The kernel is asked to watch the descriptor with the mask: `poll` passes over entries with a
negative one. -/
def Watches (p : PollPoller) (x : ℤ) (m : Mask) : Prop :=
  0 ≤ x ∧ ∃ pfd ∈ p.pollfds, pfd.fd = x ∧ pfd.events.signExtend 32 = m

variable {k : Masks} {fd : ℕ → ℤ} {s t : Session PollPoller} {ptr : ℕ} {events : Mask} {c : Channel}
  {p : PollPoller} {pfd : PollFd}

/-- The descriptor stands in the table as it is. -/
def Lists (p : PollPoller) (x : ℤ) : Prop := ∃ pfd ∈ p.pollfds, pfd.fd = x

/-- An entry that is not negated is that of the channel with its descriptor. -/
theorem Laid.owner_of_mem (h : Laid fd s) (hnonneg : ∀ ptr, 0 ≤ fd ptr)
    (hmem : pfd ∈ s.poller.pollfds) (hpfd : 0 ≤ pfd.fd) : ∃ ptr, pfd.fd = fd ptr ∧
      Registered fd s ptr ∧ ∃ i : ℕ, (s.channel ptr).index = i ∧ s.poller.pollfds[i]? = some pfd ∧
        Entry pfd (s.channel ptr) := by
  obtain ⟨i, hget⟩ := List.mem_iff_getElem?.mp hmem
  obtain ⟨ptr, hreg, hi⟩ := h.owner i (List.getElem?_eq_some_iff.mp hget).1
  obtain ⟨j, pfd', hj, hget', hentry⟩ := h.place ptr hreg
  obtain rfl : j = i := Int.ofNat.inj (hj.symm.trans hi)
  obtain rfl := Option.some.inj (hget.symm.trans hget')
  have hown := hentry.fd_eq (h.fd_eq ptr ▸ hnonneg ptr) hpfd
  exact ⟨ptr, hown.trans (h.fd_eq ptr), hreg, j, hj, hget, hentry⟩

/-- An entry with the descriptor of a channel is its own. -/
theorem Laid.place_of_mem (h : Laid fd s) (hfd : fd.Injective) (hnonneg : ∀ ptr, 0 ≤ fd ptr)
    (hmem : pfd ∈ s.poller.pollfds) (hpfd : pfd.fd = fd ptr) : Registered fd s ptr ∧
      ∃ i : ℕ, (s.channel ptr).index = i ∧ s.poller.pollfds[i]? = some pfd ∧
        Entry pfd (s.channel ptr) := by
  obtain ⟨a, ha, hown⟩ := h.owner_of_mem hnonneg hmem (hpfd ▸ hnonneg ptr)
  obtain rfl := hfd (ha.symm.trans hpfd)
  exact hown

/-- What is watched for a channel are the events it was given last. -/
theorem Laid.watches_iff (h : Laid fd s) (hfd : fd.Injective) (hnonneg : ∀ ptr, 0 ≤ fd ptr)
    (hLT : (s.channel ptr).events.IsLT) {m : Mask} :
    s.poller.Watches (fd ptr) m ↔ s.poller.Lists (fd ptr) ∧ m = (s.channel ptr).events := by
  constructor
  · rintro ⟨-, pfd, hmem, hpfd, rfl⟩
    obtain ⟨-, i, -, -, hentry⟩ := h.place_of_mem hfd hnonneg hmem hpfd
    refine ⟨⟨pfd, hmem, hpfd⟩, ?_⟩
    rw [hentry.events, hLT.signExtend_setWidth]
  · rintro ⟨⟨pfd, hmem, hpfd⟩, rfl⟩
    obtain ⟨-, i, -, -, hentry⟩ := h.place_of_mem hfd hnonneg hmem hpfd
    refine ⟨hnonneg ptr, pfd, hmem, hpfd, ?_⟩
    rw [hentry.events, hLT.signExtend_setWidth]

/-- What a call on the channel at `ptr` leaves: whether it is registered and listed, and the others
as they were. -/
structure Moves (fd : ℕ → ℤ) (s t : Session PollPoller) (ptr : ℕ) (registered listed : Prop)
    (events : Mask) : Prop extends Laid fd t where
  registered_iff : Registered fd t ptr ↔ registered
  lists_iff : t.poller.Lists (fd ptr) ↔ listed
  events_eq : (t.channel ptr).events = events
  frame : ∀ other ≠ ptr, (Registered fd t other ↔ Registered fd s other) ∧
    (t.poller.Lists (fd other) ↔ s.poller.Lists (fd other)) ∧
    (t.channel other).events = (s.channel other).events ∧
    (¬Registered fd s other → (t.channel other).index = (s.channel other).index)

/-- A channel that is new or registered passes the asserts of an update. -/
theorem Laid.updateChannel_returns (h : Laid fd s) (hfd : fd.Injective) (events : Mask)
    (hready : (s.channel ptr).index < 0 ∨ Registered fd s ptr) :
    ∃ q, s.poller.updateChannel k (s.given ptr events) = .ok q := by
  have hcfd : (s.given ptr events).fd = fd ptr := h.fd_eq ptr
  have hcptr : (s.given ptr events).ptr = ptr := h.ptr_eq ptr
  by_cases hreg : Registered fd s ptr
  · obtain ⟨i, pfd, hi, hget, hentry⟩ := h.place ptr hreg
    replace hi : (s.given ptr events).index = i := hi
    have hneg : ¬(s.given ptr events).index < 0 := by omega
    have hsome : s.poller.channels (s.given ptr events).fd = some (s.given ptr events).ptr := by
      rw [hcfd, hcptr]
      exact hreg
    have hpfd : s.poller.entry (s.given ptr events).index .pollUpdateChannel = .ok pfd := by
      rw [entry_eq_ok, hi]
      exact ⟨Int.natCast_nonneg i, hget⟩
    have hown : pfd.fd = (s.given ptr events).fd ∨ pfd.fd = ignored (s.given ptr events).fd :=
      hentry.fd
    rw [PollPoller.updateChannel, if_neg hneg, check_pos hsome, bind_ok, hpfd, bind_ok,
      check_pos hown]
    exact ⟨_, rfl⟩
  · have hneg : (s.given ptr events).index < 0 := hready.resolve_right hreg
    have hnone : s.poller.channels (s.given ptr events).fd = none := by
      rw [hcfd]
      by_contra hsome
      obtain ⟨a, ha⟩ := Option.ne_none_iff_exists'.mp hsome
      obtain rfl := hfd (h.own _ a ha)
      exact hreg ha
    rw [PollPoller.updateChannel, if_pos hneg, check_pos hnone]
    exact ⟨_, rfl⟩

/-- After an update the channel is in the map. -/
theorem updateChannel_channels {q : PollPoller × Channel} (h : updateChannel k p c = .ok q) :
    q.1.channels = Function.update p.channels c.fd (some c.ptr) := by
  rcases updateChannel_cases h with ⟨-, -, rfl⟩ | ⟨i, pfd, -, hreg, -, -, rfl⟩
  · rfl
  · exact (Function.update_eq_iff.mpr ⟨hreg.symm, fun _ _ ↦ rfl⟩).symm

/-- The entries with the descriptors of other channels stay. -/
theorem lists_congr {q : PollPoller} {x y : ℤ} (hx : 0 ≤ x) (hne : x ≠ y)
    (h : ∀ pfd : PollFd, 0 ≤ pfd.fd → pfd.fd ≠ y → (pfd ∈ q.pollfds ↔ pfd ∈ p.pollfds)) :
    q.Lists x ↔ p.Lists x := by
  refine exists_congr fun pfd ↦ ?_
  rw [and_comm, and_comm (a := pfd ∈ p.pollfds)]
  refine and_congr_right ?_
  rintro rfl
  exact h pfd hx hne

/-- An update of a channel that is new or registered returns. The channel is listed afterwards if it
has events. -/
theorem Laid.update_moves (h : Laid fd s) (hfd : fd.Injective) (hnonneg : ∀ ptr, 0 ≤ fd ptr)
    (events : Mask)
    (hready : (s.channel ptr).index < 0 ∨ Registered fd s ptr)
    (hevents : (s.given ptr events).isNoneEvent k = true → Registered fd s ptr) :
    ∃ t, PollPoller.step k s (.updateChannel ptr events) = .ok t ∧
      Moves fd s t ptr True ((s.given ptr events).isNoneEvent k = false) events := by
  have hcfd : (s.given ptr events).fd = fd ptr := h.fd_eq ptr
  have hcptr : (s.given ptr events).ptr = ptr := h.ptr_eq ptr
  obtain ⟨q, hq⟩ := h.updateChannel_returns (k := k) hfd events hready
  have hstep : PollPoller.step k s (.updateChannel ptr events)
      = .ok ⟨q.1, Function.update s.channel ptr q.2⟩ := by
    rw [PollPoller.step, hq]
    rfl
  have hlaid : Laid fd ⟨q.1, Function.update s.channel ptr q.2⟩ :=
    (h.updateChannel (k := k) hfd hnonneg ptr events).of_ok hstep
  have hself : Function.update s.channel ptr q.2 ptr = q.2 := Function.update_self _ _ _
  have hmap : q.1.channels = Function.update s.poller.channels (fd ptr) (some ptr) := by
    rw [updateChannel_channels hq, hcfd, hcptr]
  refine ⟨_, hstep, hlaid, iff_of_true ?_ trivial, ?_, ?_,
    fun other hother ↦ ⟨?_, ?_, ?_, fun _ ↦ ?_⟩⟩
  · change q.1.channels (fd ptr) = some ptr
    rw [hmap, Function.update_self]
  · change q.1.Lists (fd ptr) ↔ _
    rcases updateChannel_cases hq with ⟨hneg, -, rfl⟩ | ⟨i, pfd, hi, -, hget, -, rfl⟩
    · refine iff_of_true ⟨_, List.mem_append_right _ (List.mem_singleton_self _), hcfd⟩ ?_
      rw [Bool.eq_false_iff]
      intro hnone
      obtain ⟨i, -, hi, -⟩ := h.place ptr (hevents hnone)
      exact absurd (hi ▸ hneg : (i : ℤ) < 0) (Int.not_lt.mpr (Int.natCast_nonneg i))
    · have hlt := (List.getElem?_eq_some_iff.mp hget).1
      cases hnone : (s.given ptr events).isNoneEvent k with
      | false =>
        refine iff_of_true ⟨_, List.mem_set hlt _, ?_⟩ rfl
        rw [rewritten, hnone]
        exact hcfd
      | true =>
        -- the only entry that could be listed is the one that was negated
        refine iff_of_false ?_ Bool.false_ne_true.symm
        rintro ⟨x, hmem, hx⟩
        obtain ⟨-, j, hj, hgetx, -⟩ := hlaid.place_of_mem hfd hnonneg hmem hx
        rw [show (Function.update s.channel ptr (s.given ptr events) ptr).index = i from
          (congrArg Channel.index hself).trans hi] at hj
        obtain rfl := Int.ofNat.inj hj
        rw [List.getElem?_set_self hlt, Option.some.injEq] at hgetx
        have hneg : x.fd = -fd ptr - 1 := by
          rw [← hgetx, rewritten, hnone, if_pos rfl, hcfd]
          rfl
        have := hnonneg ptr
        omega
  · exact (congrArg Channel.events hself).trans (updateChannel_events hq)
  · change q.1.channels (fd other) = some other ↔ _
    rw [hmap, Function.update_of_ne (hfd.ne hother)]
    rfl
  · exact lists_congr (hnonneg other) (hfd.ne hother) fun x hx hne ↦
      mem_updateChannel_iff hx (hcfd ▸ hnonneg ptr) (hcfd ▸ hne) hq
  · exact congrArg Channel.events (Function.update_of_ne hother _ s.channel)
  · exact congrArg Channel.index (Function.update_of_ne hother _ s.channel)

/-- A removal of a registered channel without events that is not listed returns. -/
theorem Laid.remove_moves (h : Laid fd s) (hfd : fd.Injective) (hnonneg : ∀ ptr, 0 ≤ fd ptr)
    (hLT : (s.channel ptr).events.IsLT) (hreg : Registered fd s ptr)
    (hnone : (s.channel ptr).isNoneEvent k = true) (hlist : ¬s.poller.Lists (fd ptr)) :
    ∃ t, PollPoller.step k s (.removeChannel ptr) = .ok t ∧
      Moves fd s t ptr False False (s.channel ptr).events := by
  obtain ⟨place, pfd, hindex, hget, hentry⟩ := h.place ptr hreg
  have hignored : pfd.fd = ignored (s.channel ptr).fd := by
    refine hentry.fd.resolve_left fun heq ↦ hlist ⟨pfd, List.mem_of_getElem? hget, ?_⟩
    exact heq.trans (h.fd_eq ptr)
  have hrem : Removable k s.poller (s.channel ptr) place pfd := by
    refine ⟨?_, hnone, hindex, hget, hignored, ?_⟩
    · rw [h.fd_eq, h.ptr_eq]
      exact hreg
    · rw [hentry.events, hLT.signExtend_setWidth]
  obtain ⟨b, back, hb, hblast, hback, hstep⟩ := h.removeChannel_eq hfd hnonneg hrem
  have hlaid := h.erase hfd hnonneg hreg hrem.index hb hblast hback
  have hchannel (a : ℕ) : (Function.update s.channel b { s.channel b with index := place } a).events
      = (s.channel a).events := by
    by_cases hab : a = b
    · rw [hab, Function.update_self]
    · rw [Function.update_of_ne hab]
  have hgone : ¬Function.update s.poller.channels (fd ptr) none (fd ptr) = some ptr := by
    rw [Function.update_self]
    exact nofun
  obtain ⟨q, hq, hqstep⟩ := bind_eq_ok.mp hstep
  have hpoller := congrArg Session.poller (Except.ok.inj hqstep)
  refine ⟨_, hstep, hlaid, iff_of_false hgone id, iff_of_false ?_ id, hchannel ptr,
    fun other hother ↦ ⟨?_, ?_, hchannel other, fun hnew ↦ ?_⟩⟩
  · rintro ⟨x, hmem, hx⟩
    exact hgone (hlaid.place_of_mem hfd hnonneg hmem hx).1
  · change Function.update s.poller.channels (fd ptr) none (fd other) = _ ↔ _
    rw [Function.update_of_ne (hfd.ne hother)]
    rfl
  · refine lists_congr (hnonneg other) (hfd.ne hother) fun x hx hne ↦ ?_
    rw [← hpoller]
    exact mem_removeChannel_iff hx (h.fd_eq ptr ▸ hnonneg ptr) (h.fd_eq ptr ▸ hne) hq
  · have hob : other ≠ b := by
      rintro rfl
      exact hnew hb
    exact congrArg Channel.index (Function.update_of_ne hob _ s.channel)

end PollPoller

/-- The kernel is asked to watch the descriptor with the mask. -/
def EpollPoller.Watches (p : EpollPoller) (x : ℤ) (m : Mask) : Prop :=
  ∃ event ∈ p.interest x, event.1 = m

/-- How a channel has been used. -/
inductive Use
  | fresh
  | registered
  | removed
  deriving DecidableEq, Repr

/-- The same channels over a poller of each kind. -/
structure Twin where
  epoll : Session EpollPoller
  poll : Session PollPoller
  use : ℕ → Use

namespace Twin

inductive Step
  /-- One of the setters of the channel. -/
  | call (ptr : ℕ) (a : Channel.Call)
  /-- `Channel::remove`. -/
  | remove (ptr : ℕ)
  deriving DecidableEq, Repr

/-- The masks of level-triggered mode. -/
def masks : Masks := Masks.initDefaultEvent .LT

def start (fd : ℕ → ℤ) : Twin := ⟨.start .new fd, .start .new fd, fun _ ↦ .fresh⟩

def step (tw : Twin) : Step → Except Fault Twin
  | .call ptr a => do
    let epoll ← EpollPoller.step masks tw.epoll
      (.updateChannel ptr ((tw.epoll.channel ptr).call masks a).events)
    let poll ← PollPoller.step masks tw.poll
      (.updateChannel ptr ((tw.poll.channel ptr).call masks a).events)
    .ok ⟨epoll, poll, Function.update tw.use ptr .registered⟩
  | .remove ptr => do
    check ((tw.epoll.channel ptr).isNoneEvent masks) .channelRemove
    let epoll ← EpollPoller.step masks tw.epoll (.removeChannel ptr)
    check ((tw.poll.channel ptr).isNoneEvent masks) .channelRemove
    let poll ← PollPoller.step masks tw.poll (.removeChannel ptr)
    .ok ⟨epoll, poll, Function.update tw.use ptr .removed⟩

/-- No channel is used after its removal, and one that is removed is registered and has no
events. -/
def Legal (tw : Twin) : Step → Prop
  | .call ptr _ => tw.use ptr ≠ .removed
  | .remove ptr => tw.use ptr = .registered ∧ (tw.epoll.channel ptr).isNoneEvent masks ∧
      (tw.poll.channel ptr).isNoneEvent masks

instance (tw : Twin) : DecidablePred tw.Legal
  | .call ptr _ => inferInstanceAs (Decidable (tw.use ptr ≠ .removed))
  | .remove _ => inferInstanceAs (Decidable (_ ∧ _))

/-- The kernel is asked for the same by both, and for no channel that has no events. -/
structure Same (fd : ℕ → ℤ) (tw : Twin) : Prop where
  watches : ∀ x m, tw.epoll.poller.Watches x m ↔ tw.poll.poller.Watches x m
  quiet : ∀ ptr m, (tw.epoll.channel ptr).events = 0 → ¬tw.epoll.poller.Watches (fd ptr) m

/-- A call that leaves the channel without events is made on a channel that has some. -/
def Careful (tw : Twin) : Step → Prop
  | .call ptr a => ((tw.epoll.channel ptr).call masks a).events = 0 →
      (tw.epoll.channel ptr).events ≠ 0
  | .remove _ => True

instance (tw : Twin) : DecidablePred tw.Careful
  | .call _ _ => inferInstanceAs (Decidable (_ → _))
  | .remove _ => .isTrue trivial

/-! ## The invariant -/

/-- What the two pollers have of a channel that was used as named. -/
def AsUsed (fd : ℕ → ℤ) (tw : Twin) (ptr : ℕ) : Use → Prop
  | .fresh => tw.epoll.poller.Stands (tw.epoll.channel ptr) .fresh ∧
      (tw.poll.channel ptr).index < 0 ∧ ¬PollPoller.Registered fd tw.poll ptr ∧
      (tw.epoll.channel ptr).events = 0
  | .registered => tw.epoll.poller.Stands (tw.epoll.channel ptr)
        (if (tw.epoll.channel ptr).events = 0 then .disabled else .added) ∧
      PollPoller.Registered fd tw.poll ptr
  | .removed => tw.epoll.poller.Stands (tw.epoll.channel ptr) .removed ∧
      ¬PollPoller.Registered fd tw.poll ptr ∧ (tw.epoll.channel ptr).events = 0

structure Twinned (fd : ℕ → ℤ) (tw : Twin) : Prop where
  epoll : EpollPoller.Enrolled fd tw.epoll
  poll : PollPoller.Laid fd tw.poll
  events : ∀ ptr, (tw.poll.channel ptr).events = (tw.epoll.channel ptr).events
  lt : ∀ ptr, (tw.epoll.channel ptr).events.IsLT
  lists : ∀ ptr, tw.poll.poller.Lists (fd ptr) ↔ (tw.epoll.channel ptr).events ≠ 0
  use : ∀ ptr, tw.AsUsed fd ptr (tw.use ptr)

variable {fd : ℕ → ℤ} {tw tw' : Twin} {i : Step} {ptr : ℕ} {a : Channel.Call} {c : Channel}

theorem twinned_start (fd : ℕ → ℤ) : Twinned fd (start fd) where
  epoll := EpollPoller.enrolled_start fd
  poll := PollPoller.laid_start fd
  events _ := rfl
  lt _ := (by decide : Mask.IsLT 0)
  lists _ := iff_of_false (fun ⟨_, hmem, _⟩ ↦ absurd hmem List.not_mem_nil) fun h ↦ h rfl
  use _ := ⟨⟨rfl, rfl, rfl⟩, (by decide : (-1 : ℤ) < 0), nofun, rfl⟩

theorem isNoneEvent_iff : c.isNoneEvent masks = true ↔ c.events = 0 := beq_iff_eq

/-- A call keeps the events level-triggered. -/
theorem isLT_call (h : c.events.IsLT) (a : Channel.Call) : (c.call masks a).events.IsLT := by
  obtain ⟨i, hi, heq⟩ := h.exists_lt
  rw [Channel.call_events_congr (d := ⟨0, 0, _, 0, 0⟩) masks a heq]
  clear heq h
  revert i
  cases a <;> decide

/-- A channel is added to the interest set exactly when it has events. -/
theorem Twinned.stands (h : Twinned fd tw) (ptr : ℕ) :
    ∃ st, tw.epoll.poller.Stands (tw.epoll.channel ptr) st ∧
      (st = .added ↔ (tw.epoll.channel ptr).events ≠ 0) := by
  have huse := h.use ptr
  cases hu : tw.use ptr with
  | fresh =>
    rw [hu] at huse
    exact ⟨.fresh, huse.1, iff_of_false nofun (not_not_intro huse.2.2.2)⟩
  | removed =>
    rw [hu] at huse
    exact ⟨.removed, huse.1, iff_of_false nofun (not_not_intro huse.2.2)⟩
  | registered =>
    rw [hu] at huse
    refine ⟨_, huse.1, ?_⟩
    split
    · rename_i hzero
      exact iff_of_false nofun (not_not_intro hzero)
    · rename_i hne
      exact iff_of_true rfl hne

/-- What the epoll poller watches for a channel. -/
theorem Twinned.epoll_watches_iff (h : Twinned fd tw) {m : Mask} :
    tw.epoll.poller.Watches (fd ptr) m ↔
      (tw.epoll.channel ptr).events ≠ 0 ∧ m = (tw.epoll.channel ptr).events := by
  obtain ⟨st, hst, hadded⟩ := h.stands ptr
  have hsome := hst.isSome_iff.trans hadded
  rw [h.epoll.fd_eq ptr] at hsome
  rw [← hsome, Option.isSome_iff_exists]
  constructor
  · rintro ⟨event, hevent, rfl⟩
    rw [h.epoll.event ptr event hevent]
    exact ⟨⟨_, h.epoll.event ptr event hevent ▸ hevent⟩, rfl⟩
  · rintro ⟨⟨event, hevent⟩, rfl⟩
    exact ⟨event, hevent, congrArg Prod.fst (h.epoll.event ptr event hevent)⟩

theorem Twinned.same (h : Twinned fd tw) (hfd : fd.Injective) (hnonneg : ∀ ptr, 0 ≤ fd ptr) :
    Same fd tw where
  watches x m := by
    by_cases hx : ∃ ptr, fd ptr = x
    · obtain ⟨ptr, rfl⟩ := hx
      rw [h.epoll_watches_iff, h.poll.watches_iff hfd hnonneg (h.events ptr ▸ h.lt ptr),
        h.lists ptr, h.events ptr]
    · refine iff_of_false ?_ ?_
      · rintro ⟨event, hevent, -⟩
        rw [h.epoll.others x (not_exists.mp hx)] at hevent
        exact absurd hevent nofun
      · rintro ⟨hpos, pfd, hmem, rfl, -⟩
        obtain ⟨ptr, hptr, -⟩ := h.poll.owner_of_mem hnonneg hmem hpos
        exact hx ⟨ptr, hptr.symm⟩
  quiet _ _ hzero hwatch := (h.epoll_watches_iff.mp hwatch).1 hzero

/-! ## The steps -/

theorem given_call {π : Type} (s : Session π) (ptr : ℕ) (a : Channel.Call) :
    s.given ptr ((s.channel ptr).call masks a).events = (s.channel ptr).call masks a := by
  cases a <;> rfl

/-- What the pollers have of the channels other than the one that is used stays. -/
theorem AsUsed.frame {st : EpollPoller.Standing} {registered listed : Prop} {events events' : Mask}
    {other : ℕ} {u : Use} (h : tw.AsUsed fd other u) (hother : other ≠ ptr)
    (hepoll : EpollPoller.Moves fd tw.epoll tw'.epoll ptr st events)
    (hpoll : PollPoller.Moves fd tw.poll tw'.poll ptr registered listed events') :
    tw'.AsUsed fd other u := by
  obtain ⟨hchannel, hstands⟩ := hepoll.frame other hother
  obtain ⟨hreg, -, -, hindex⟩ := hpoll.frame other hother
  cases u with
  | fresh =>
    obtain ⟨hst, hneg, hnreg, hzero⟩ := h
    exact ⟨hstands _ hst, hindex hnreg ▸ hneg, mt hreg.mp hnreg, hchannel ▸ hzero⟩
  | registered =>
    obtain ⟨hst, hreg'⟩ := h
    refine ⟨?_, hreg.mpr hreg'⟩
    have hst' := hstands _ hst
    rw [← hchannel] at hst'
    exact hst'
  | removed =>
    obtain ⟨hst, hnreg, hzero⟩ := h
    exact ⟨hstands _ hst, mt hreg.mp hnreg, hchannel ▸ hzero⟩

/-- Both pollers do their part of a step, and what they have of the channel that is used is right.
-/
theorem Twinned.moves (h : Twinned fd tw) {epoll : Session EpollPoller} {poll : Session PollPoller}
    {st : EpollPoller.Standing} {registered listed : Prop} {events : Mask} {u : Use}
    (hepoll : EpollPoller.Moves fd tw.epoll epoll ptr st events)
    (hpoll : PollPoller.Moves fd tw.poll poll ptr registered listed events) (hLT : events.IsLT)
    (hlisted : listed ↔ events ≠ 0)
    (huse : AsUsed fd ⟨epoll, poll, Function.update tw.use ptr u⟩ ptr u) :
    Twinned fd ⟨epoll, poll, Function.update tw.use ptr u⟩ := by
  have hchannel (other : ℕ) (hother : other ≠ ptr) := (hepoll.frame other hother).1
  refine ⟨hepoll.toEnrolled, hpoll.toLaid, fun other ↦ ?_, fun other ↦ ?_, fun other ↦ ?_,
    fun other ↦ ?_⟩ <;> by_cases hother : other = ptr
  · rw [hother]
    exact hpoll.events_eq.trans hepoll.events_eq.symm
  · exact ((hpoll.frame other hother).2.2.1.trans (h.events other)).trans
      (congrArg Channel.events (hchannel other hother)).symm
  · rw [hother, hepoll.events_eq]
    exact hLT
  · rw [hchannel other hother]
    exact h.lt other
  · rw [hother]
    exact hpoll.lists_iff.trans (hlisted.trans (hepoll.events_eq ▸ Iff.rfl))
  · rw [hchannel other hother]
    exact (hpoll.frame other hother).2.1.trans (h.lists other)
  · subst hother
    change AsUsed fd _ other (Function.update tw.use other u other)
    rw [Function.update_self]
    exact huse
  · change AsUsed fd _ other (Function.update tw.use ptr u other)
    rw [Function.update_of_ne hother]
    have hframe : AsUsed fd ⟨epoll, poll, Function.update tw.use ptr u⟩ other (tw.use other) :=
      (h.use other).frame hother hepoll hpoll
    exact hframe

/-- Before a call the epoll poller has the channel in a standing, and the poll poller takes the
update. -/
theorem Twinned.ready (h : Twinned fd tw) (hlegal : tw.Legal (.call ptr a)) :
    (∃ st, tw.epoll.poller.Stands (tw.epoll.channel ptr) st ∧ st ≠ .removed ∧
      (st = .added ↔ (tw.epoll.channel ptr).events ≠ 0)) ∧
    ((tw.poll.channel ptr).index < 0 ∨ PollPoller.Registered fd tw.poll ptr) ∧
    ((tw.epoll.channel ptr).events ≠ 0 → PollPoller.Registered fd tw.poll ptr) := by
  have huse := h.use ptr
  cases hu : tw.use ptr with
  | fresh =>
    rw [hu] at huse
    obtain ⟨hst, hneg, -, hzero⟩ := huse
    exact ⟨⟨.fresh, hst, nofun, iff_of_false nofun (not_not_intro hzero)⟩, Or.inl hneg,
      fun hne ↦ absurd hzero hne⟩
  | registered =>
    rw [hu] at huse
    obtain ⟨hst, hreg⟩ := huse
    refine ⟨⟨_, hst, ?_, ?_⟩, Or.inr hreg, fun _ ↦ hreg⟩ <;> split
    · exact nofun
    · exact nofun
    · rename_i hzero
      exact iff_of_false nofun (not_not_intro hzero)
    · rename_i hne
      exact iff_of_true rfl hne
  | removed => exact absurd hu hlegal

/-- The step lemma for a call. -/
theorem Twinned.call (h : Twinned fd tw) (hfd : fd.Injective) (hnonneg : ∀ ptr, 0 ≤ fd ptr)
    (hlegal : tw.Legal (.call ptr a)) (hcareful : tw.Careful (.call ptr a)) :
    ∃ tw', tw.step (.call ptr a) = .ok tw' ∧ Twinned fd tw' := by
  obtain ⟨⟨st, hst, hremoved, hadded⟩, hready, hreg⟩ := h.ready hlegal
  have hsame : ((tw.poll.channel ptr).call masks a).events
      = ((tw.epoll.channel ptr).call masks a).events :=
    Channel.call_events_congr masks a (h.events ptr)
  have hnone : ((tw.poll.channel ptr).call masks a).isNoneEvent masks = true ↔
      ((tw.epoll.channel ptr).call masks a).events = 0 := by rw [isNoneEvent_iff, hsame]
  obtain ⟨epoll, hepoll, hemoves⟩ := h.epoll.updateChannel (k := masks) hfd
    ((tw.epoll.channel ptr).call masks a).events hst hremoved
  obtain ⟨poll, hpoll, hpmoves⟩ := h.poll.update_moves (k := masks) hfd hnonneg
    ((tw.poll.channel ptr).call masks a).events hready (by
      rw [given_call, hnone]
      exact fun hzero ↦ hreg (hcareful hzero))
  rw [given_call] at hemoves hpmoves
  rw [hsame] at hpmoves
  refine ⟨⟨epoll, poll, Function.update tw.use ptr .registered⟩, ?_,
    h.moves hemoves hpmoves (isLT_call (h.lt ptr) a) ?_ ?_⟩
  · rw [step, hepoll, bind_ok, hpoll, bind_ok]
  · rw [← not_iff_not, not_not, ← hnone, Bool.not_eq_false]
  · refine ⟨?_, hpmoves.registered_iff.mpr trivial⟩
    have hself := hemoves.self
    rw [hemoves.events_eq]
    change epoll.poller.Stands (epoll.channel ptr) _
    -- after a careful call the channel is added exactly when it has events
    split
    · rename_i hzero
      obtain rfl := hadded.mpr (hcareful hzero)
      rwa [isNoneEvent_iff.mpr hzero] at hself
    · rename_i hne
      have hfalse : ((tw.epoll.channel ptr).call masks a).isNoneEvent masks = false :=
        Bool.eq_false_iff.mpr (mt isNoneEvent_iff.mp hne)
      rw [hfalse] at hself
      cases st with
      | fresh | added | disabled => exact hself
      | removed => exact absurd rfl hremoved

/-- The step lemma for a removal. -/
theorem Twinned.remove (h : Twinned fd tw) (hfd : fd.Injective) (hnonneg : ∀ ptr, 0 ≤ fd ptr)
    (hlegal : tw.Legal (.remove ptr)) :
    ∃ tw', tw.step (.remove ptr) = .ok tw' ∧ Twinned fd tw' := by
  obtain ⟨hu, henone, hpnone⟩ := hlegal
  have hzero := isNoneEvent_iff.mp henone
  have huse := h.use ptr
  rw [hu] at huse
  obtain ⟨epoll, hepoll, hemoves⟩ := h.epoll.removeChannel (k := masks) hfd ptr
  obtain ⟨poll, hpoll, hpmoves⟩ := h.poll.remove_moves (k := masks) hfd hnonneg
    (h.events ptr ▸ h.lt ptr) huse.2 hpnone (mt (h.lists ptr).mp (not_not_intro hzero))
  rw [h.events ptr] at hpmoves
  refine ⟨⟨epoll, poll, Function.update tw.use ptr .removed⟩, ?_,
    h.moves hemoves hpmoves (h.lt ptr) (iff_of_false id (not_not_intro hzero)) ?_⟩
  · rw [step, check_pos henone, bind_ok, hepoll, bind_ok, check_pos hpnone, bind_ok, hpoll, bind_ok]
  · exact ⟨hemoves.self, hpmoves.registered_iff.mp, hemoves.events_eq.trans hzero⟩

/-- A call that is not careful has the channel watched without events. -/
theorem Twinned.not_same (h : Twinned fd tw) (hfd : fd.Injective) (hlegal : tw.Legal i)
    (hcareful : ¬tw.Careful i) : ¬Outcome (tw.step i) (Same fd) fun _ ↦ False := by
  cases i with
  | remove ptr => exact absurd trivial hcareful
  | call ptr a =>
    obtain ⟨hzero, hwas⟩ := Classical.not_imp.mp hcareful
    rw [not_not] at hwas
    obtain ⟨⟨st, hst, hremoved, hadded⟩, -, -⟩ := h.ready hlegal
    obtain ⟨epoll, hepoll, hemoves⟩ := h.epoll.updateChannel (k := masks) hfd
      ((tw.epoll.channel ptr).call masks a).events hst hremoved
    intro hout
    rw [step, hepoll, bind_ok] at hout
    cases hpoll : PollPoller.step masks tw.poll
        (.updateChannel ptr ((tw.poll.channel ptr).call masks a).events) with
    | error e =>
      rw [hpoll] at hout
      exact hout
    | ok poll =>
      rw [hpoll] at hout
      have hself : epoll.poller.Stands (epoll.channel ptr) .added := by
        have := hemoves.self
        cases st with
        | fresh | disabled => exact this
        | added => exact absurd hwas (hadded.mp rfl)
        | removed => exact absurd rfl hremoved
      obtain ⟨event, hevent⟩ := Option.isSome_iff_exists.mp (hself.isSome_iff.mpr rfl)
      rw [hemoves.fd_eq ptr] at hevent
      exact hout.quiet ptr event.1 (hemoves.events_eq.trans hzero) ⟨event, hevent, rfl⟩

/-- **The two pollers watch the same.** In a run in which no channel is used after its removal and
only registered channels without events are removed, every step of both pollers returns, both
watch the same and no channel without events, exactly when every call that leaves a channel without
events is made on one that has some. -/
theorem same_iff (hfd : fd.Injective) (hnonneg : ∀ ptr, 0 ≤ fd ptr) {steps : List Step}
    (hlegal : Along step Legal (start fd) steps) :
    Along step (fun tw i ↦ Outcome (tw.step i) (Same fd) fun _ ↦ False) (start fd) steps ↔
      Along step Careful (start fd) steps := by
  have hstep (tw : Twin) (i : Step) (h : Twinned fd tw) (hi : tw.Legal i) (hc : tw.Careful i) :
      ∃ tw', tw.step i = .ok tw' ∧ Twinned fd tw' := by
    cases i with
    | call ptr a => exact h.call hfd hnonneg hi hc
    | remove ptr => exact h.remove hfd hnonneg hi
  refine along_congr_of (I := Twinned fd) (fun tw i t h hi hc ht ↦ ?_) (fun tw i h hi ↦ ?_)
    (twinned_start fd) hlegal
  · obtain ⟨tw', htw', hgood⟩ := hstep tw i h hi hc
    exact Except.ok.inj (htw'.symm.trans ht) ▸ hgood
  · refine ⟨fun hout ↦ ?_, fun hc ↦ ?_⟩
    · by_contra hc
      exact h.not_same hfd hi hc hout
    · obtain ⟨tw', htw', hgood⟩ := hstep tw i h hi hc
      rw [htw']
      exact hgood.same hfd hnonneg

/-- Two channels, one of which is switched off by one call and removed. -/
theorem same_two :
    Along step (fun tw i ↦ Outcome (tw.step i) (Same fun ptr ↦ ptr) fun _ ↦ False)
      (start fun ptr ↦ ptr) [.call 5 .enableReading, .call 7 .enableWriting, .call 5 .enableWriting,
        .call 5 .disableAll, .remove 5, .call 7 .enableReading] :=
  (same_iff (fun _ _ ↦ Int.ofNat.inj) (fun _ ↦ Int.natCast_nonneg _) (by decide)).mpr (by decide)

/-- A channel that is switched off twice is watched by the epoll poller alone. -/
theorem not_same_twice :
    Along step Legal (start fun ptr ↦ ptr)
      [.call 5 .enableReading, .call 5 .disableReading, .call 5 .disableAll] ∧
    ¬Along step (fun tw i ↦ Outcome (tw.step i) (Same fun ptr ↦ ptr) fun _ ↦ False)
      (start fun ptr ↦ ptr)
      [.call 5 .enableReading, .call 5 .disableReading, .call 5 .disableAll] := by
  refine ⟨by decide, fun h ↦ ?_⟩
  obtain ⟨-, h⟩ := along_cons.mp h
  obtain ⟨-, h⟩ := along_cons.mp (h _ rfl)
  obtain ⟨hlast, -⟩ := along_cons.mp (h _ rfl)
  obtain ⟨-, pfd, hmem, hpfd, -⟩ := (hlast.watches 5 0).mp ⟨(0, 5), rfl, rfl⟩
  -- the one entry of the table is negated
  have hfds : pfd.fd ∈ [-6] := List.mem_map_of_mem (f := PollFd.fd) hmem
  rw [hpfd] at hfds
  exact absurd hfds (by decide)

end Twin

end Twnl
