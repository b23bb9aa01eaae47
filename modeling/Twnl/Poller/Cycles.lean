import Twnl.Poller.Twin

/-!
# A channel that comes back

A channel that was removed keeps its index: the epoll poller leaves `kDeleted` in it, which for an
update means "still in the map", and the poll poller the place its entry had. So its next update
looks it up in the map, where it is not, and fails the assert there. Up to that point both pollers
keep their books: `hasChannel` tells exactly which channels were updated last, and each of these has
what registration sets up. This goes on as long as no channel is updated after its removal, and no
longer (`cycles_iff_once`).

The argument is the same for both, and is made once, over what they have in common (`Kind`).
-/

namespace Twnl

open Machine

namespace Poller

open Session

/-- `Poller::hasChannel`, on the map `channels_`. -/
def hasChannel (channels : ℤ → Option ℕ) (c : Channel) : Bool :=
  match channels c.fd with
  | some ptr => ptr == c.ptr
  | none => false

theorem hasChannel_iff {channels : ℤ → Option ℕ} {c : Channel} :
    hasChannel channels c = true ↔ channels c.fd = some c.ptr := by
  rw [hasChannel]
  cases channels c.fd with
  | none => simp
  | some ptr => simp

/-- A session with how each channel has been used. -/
structure History (π : Type) where
  session : Session π
  use : ℕ → Use

/-- What the two pollers have in common. -/
structure Kind (π : Type) where
  new : π
  channels : π → ℤ → Option ℕ
  step : Masks → Session π → Step → Except Fault (Session π)
  /-- Where the asserts of `updateChannel` stand. -/
  updateSite : Site
  /-- What registration sets up for the channel at an address, besides its entry in the map. -/
  Placed : Session π → ℕ → Prop

/-- How the channels have been used after a call that returns. -/
def used (use : ℕ → Use) : Step → ℕ → Use
  | .updateChannel ptr _ => Function.update use ptr .registered
  | .removeChannel ptr => Function.update use ptr .removed

/-- A channel is removed only while it is registered and without events. -/
def Legal {π : Type} (k : Masks) (t : History π) : Step → Prop
  | .updateChannel _ _ => True
  | .removeChannel ptr =>
    t.use ptr = .registered ∧ (t.session.channel ptr).isNoneEvent k = true

instance {π : Type} (k : Masks) (t : History π) : DecidablePred (Legal k t)
  | .updateChannel _ _ => .isTrue trivial
  | .removeChannel _ => inferInstanceAs (Decidable (_ ∧ _))

/-- A channel is not updated after its removal. -/
def Once {π : Type} (t : History π) : Step → Prop
  | .updateChannel ptr _ => t.use ptr ≠ .removed
  | .removeChannel _ => True

instance {π : Type} (t : History π) : DecidablePred (Once t)
  | .updateChannel _ _ => inferInstanceAs (Decidable (_ ≠ _))
  | .removeChannel _ => .isTrue trivial

namespace Kind

variable {π : Type} (kind : Kind π)

def start (fd : ℕ → ℤ) : History π := ⟨.start kind.new fd, fun _ ↦ .fresh⟩

/-- One call, recorded. -/
def call (k : Masks) (t : History π) (i : Step) : Except Fault (History π) := do
  let s ← kind.step k t.session i
  .ok ⟨s, used t.use i⟩

/-- `hasChannel` tells of each channel whether it was updated last, and those that were have their
place. -/
structure Kept (t : History π) : Prop where
  hasChannel : ∀ ptr, hasChannel (kind.channels t.session.poller) (t.session.channel ptr) = true ↔
    t.use ptr = .registered
  placed : ∀ ptr, t.use ptr = .registered → kind.Placed t.session ptr

/-- The books are kept before a call and after it, and no assert of `updateChannel` fails. -/
def Cycles (k : Masks) (t : History π) (i : Step) : Prop :=
  kind.Kept t ∧ Outcome (kind.call k t i) kind.Kept (· ≠ .assertion kind.updateSite)

/-- What an invariant has to give for the books to be kept until a channel comes back. -/
structure Conducts (k : Masks) (I : History π → Prop) : Prop where
  kept : ∀ t, I t → kind.Kept t
  once : ∀ t i, I t → Legal k t i → Once t i →
    Outcome (kind.call k t i) I (· ≠ .assertion kind.updateSite)
  again : ∀ t ptr events, I t → t.use ptr = .removed →
    kind.call k t (.updateChannel ptr events) = .error (.assertion kind.updateSite)

variable {kind} {k : Masks} {I : History π → Prop} {t t' : History π} {i : Step}

theorem Conducts.cycles_iff_step (h : kind.Conducts k I) (hI : I t) (hlegal : Legal k t i) :
    kind.Cycles k t i ↔ Once t i := by
  constructor
  · rintro ⟨-, hout⟩
    cases i with
    | updateChannel ptr events =>
      intro hremoved
      rw [h.again t ptr events hI hremoved, outcome_error] at hout
      exact hout rfl
    | removeChannel ptr => trivial
  · intro honce
    exact ⟨h.kept t hI, (h.once t i hI hlegal honce).imp fun t' ht' ↦ h.kept t' ht'⟩

/-- The rule: the books are kept exactly as long as no channel comes back. -/
theorem Conducts.cycles_iff (h : kind.Conducts k I) (hI : I t) {steps : List Step}
    (hlegal : Along (kind.call k) (Legal k) t steps) :
    Along (kind.call k) (kind.Cycles k) t steps ↔ Along (kind.call k) Once t steps := by
  refine along_congr_of (I := I) (fun t i t' ht hi honce hcall ↦ ?_)
    (fun t i ht hi ↦ h.cycles_iff_step ht hi) hI hlegal
  exact (h.once t i ht hi honce).of_ok hcall

end Kind

end Poller

open Poller Poller.Session

/-! ## The epoll poller -/

namespace EpollPoller

/-- The channel is in the map, and in the interest set or marked as out of it. -/
def Placed (s : Session EpollPoller) (ptr : ℕ) : Prop :=
  s.poller.Stands (s.channel ptr) .added ∨ s.poller.Stands (s.channel ptr) .disabled

def kind : Kind EpollPoller := ⟨new, channels, step, .epollUpdateChannel, Placed⟩

/-- Where a channel stands that has been used as named. -/
def AsUsed (s : Session EpollPoller) (ptr : ℕ) : Use → Prop
  | .fresh => s.poller.Stands (s.channel ptr) .fresh
  | .registered => Placed s ptr
  | .removed => s.poller.Stands (s.channel ptr) .removed

/-- The invariant. -/
structure Recorded (fd : ℕ → ℤ) (t : History EpollPoller) : Prop extends Enrolled fd t.session where
  use : ∀ ptr, AsUsed t.session ptr (t.use ptr)

variable {k : Masks} {fd : ℕ → ℤ} {t : History EpollPoller} {s : Session EpollPoller}
  {ptr : ℕ} {events : Mask} {st : Standing} {u : Use}

theorem kind_call (k : Masks) (t : History EpollPoller) (i : Step) :
    kind.call k t i = step k t.session i >>= fun s ↦ .ok ⟨s, used t.use i⟩ := rfl

theorem recorded_start (fd : ℕ → ℤ) : Recorded fd (kind.start fd) :=
  ⟨enrolled_start fd, fun _ ↦ ⟨rfl, rfl, rfl⟩⟩

/-- Only a channel that is in the map has been updated last. -/
theorem AsUsed.channels_iff (h : AsUsed s ptr u) :
    s.poller.channels (s.channel ptr).fd = some (s.channel ptr).ptr ↔ u = .registered := by
  cases u with
  | fresh | removed =>
    rw [h.2.1]
    simp
  | registered =>
    rcases h with h | h
    · exact iff_of_true h.2.1 rfl
    · exact iff_of_true h.2.1 rfl

theorem Recorded.kept (h : Recorded fd t) : kind.Kept t where
  hasChannel ptr := by
    rw [hasChannel_iff]
    exact (h.use ptr).channels_iff
  placed ptr hptr := by
    have huse := h.use ptr
    rw [hptr] at huse
    exact huse

/-- What is left after a call on one channel. -/
theorem Recorded.moves (h : Recorded fd t) (hmoves : Moves fd t.session s ptr st events)
    (hself : AsUsed s ptr u) : Recorded fd ⟨s, Function.update t.use ptr u⟩ := by
  refine ⟨hmoves.toEnrolled, fun other ↦ ?_⟩
  by_cases hother : other = ptr
  · subst hother
    change AsUsed s other (Function.update t.use other u other)
    rw [Function.update_self]
    exact hself
  · obtain ⟨hchannel, hstands⟩ := hmoves.frame other hother
    change AsUsed s other (Function.update t.use ptr u other)
    rw [Function.update_of_ne hother]
    have huse := h.use other
    cases hu : t.use other with
    | fresh =>
      rw [hu] at huse
      exact hstands .fresh huse
    | removed =>
      rw [hu] at huse
      exact hstands .removed huse
    | registered =>
      rw [hu] at huse
      exact huse.imp (hstands _) (hstands _)

/-- An update puts a channel that is not there into the map and the interest set, and keeps one that
is there. -/
theorem placed_update (hst : st ≠ .removed) {isNone : Bool}
    (h : s.poller.Stands (s.channel ptr) (st.update isNone)) : Placed s ptr := by
  cases st with
  | fresh | disabled => exact Or.inl h
  | added =>
    cases isNone with
    | false => exact Or.inl h
    | true => exact Or.inr h
  | removed => exact absurd rfl hst

theorem conducts (k : Masks) (hfd : fd.Injective) : kind.Conducts k (Recorded fd) where
  kept _ h := h.kept
  once t i h _ honce := by
    cases i with
    | updateChannel ptr events =>
      obtain ⟨st, hst, hne⟩ :
          ∃ st, t.session.poller.Stands (t.session.channel ptr) st ∧ st ≠ .removed := by
        have huse := h.use ptr
        cases hu : t.use ptr with
        | fresh =>
          rw [hu] at huse
          exact ⟨.fresh, huse, by decide⟩
        | registered =>
          rw [hu] at huse
          rcases huse with hadded | hdisabled
          · exact ⟨.added, hadded, by decide⟩
          · exact ⟨.disabled, hdisabled, by decide⟩
        | removed => exact absurd hu honce
      obtain ⟨s, hs, hmoves⟩ := h.toEnrolled.updateChannel (k := k) hfd events hst hne
      rw [kind_call, hs, bind_ok]
      exact h.moves (u := .registered) hmoves (placed_update hne hmoves.self)
    | removeChannel ptr =>
      obtain ⟨s, hs, hmoves⟩ := h.toEnrolled.removeChannel (k := k) hfd ptr
      rw [kind_call, hs, bind_ok]
      exact h.moves (u := .removed) hmoves hmoves.self
  again t ptr events h hremoved := by
    have huse := h.use ptr
    rw [hremoved] at huse
    rw [kind_call, Stands.updateChannel_removed huse]
    rfl

end EpollPoller

/-! ## The poll poller -/

namespace PollPoller

/-- The channel has a place in the table, with an entry of its own, that no other has. -/
def Placed (s : Session PollPoller) (ptr : ℕ) : Prop :=
  ∃ (i : ℕ) (pfd : PollFd), (s.channel ptr).index = i ∧ s.poller.pollfds[i]? = some pfd ∧
    Entry pfd (s.channel ptr) ∧ ∀ other, hasChannel s.poller.channels (s.channel other) = true →
      (s.channel other).index = i → other = ptr

def kind : Kind PollPoller := ⟨new, channels, step, .pollUpdateChannel, Placed⟩

/-- What the index and the map say of a channel that has been used as named. -/
def AsUsed (fd : ℕ → ℤ) (s : Session PollPoller) (ptr : ℕ) : Use → Prop
  | .fresh => (s.channel ptr).index < 0 ∧ ¬Registered fd s ptr
  | .registered => Registered fd s ptr
  | .removed => 0 ≤ (s.channel ptr).index ∧ ¬Registered fd s ptr

/-- The invariant. -/
structure Recorded (fd : ℕ → ℤ) (t : History PollPoller) : Prop extends Laid fd t.session where
  use : ∀ ptr, AsUsed fd t.session ptr (t.use ptr)

variable {k : Masks} {fd : ℕ → ℤ} {t : History PollPoller} {s : Session PollPoller}
  {ptr : ℕ} {events : Mask} {u : Use}

theorem kind_call (k : Masks) (t : History PollPoller) (i : Step) :
    kind.call k t i = step k t.session i >>= fun s ↦ .ok ⟨s, used t.use i⟩ := rfl

theorem recorded_start (fd : ℕ → ℤ) : Recorded fd (kind.start fd) where
  toLaid := laid_start fd
  use ptr := ⟨(by decide : (-1 : ℤ) < 0), (Option.some_ne_none ptr).symm⟩

theorem AsUsed.registered_iff (h : AsUsed fd s ptr u) : Registered fd s ptr ↔ u = .registered := by
  cases u with
  | fresh | removed => exact iff_of_false h.2 (by decide)
  | registered => exact iff_of_true h rfl

theorem Laid.hasChannel_iff (h : Laid fd s) :
    hasChannel s.poller.channels (s.channel ptr) = true ↔ Registered fd s ptr := by
  rw [Poller.hasChannel_iff, h.fd_eq, h.ptr_eq]
  rfl

theorem Recorded.kept (h : Recorded fd t) (hfd : fd.Injective) (hnonneg : ∀ ptr, 0 ≤ fd ptr) :
    kind.Kept t where
  hasChannel ptr := h.toLaid.hasChannel_iff.trans (h.use ptr).registered_iff
  placed ptr hptr := by
    have hreg := (h.use ptr).registered_iff.mpr hptr
    obtain ⟨i, pfd, hi, hget, hentry⟩ := h.place ptr hreg
    refine ⟨i, pfd, hi, hget, hentry, fun other hother hoi ↦ ?_⟩
    exact h.index_injective hfd hnonneg (h.toLaid.hasChannel_iff.mp hother) hreg
      (hoi.trans hi.symm)

/-- What is left after a call on one channel. -/
theorem Recorded.moves (h : Recorded fd t) (hlaid : Laid fd s) (hself : AsUsed fd s ptr u)
    (hframe : ∀ other ≠ ptr, (Registered fd s other ↔ Registered fd t.session other) ∧
      (¬Registered fd t.session other →
        (s.channel other).index = (t.session.channel other).index)) :
    Recorded fd ⟨s, Function.update t.use ptr u⟩ := by
  refine ⟨hlaid, fun other ↦ ?_⟩
  by_cases hother : other = ptr
  · subst hother
    change AsUsed fd s other (Function.update t.use other u other)
    rw [Function.update_self]
    exact hself
  · obtain ⟨hreg, hindex⟩ := hframe other hother
    change AsUsed fd s other (Function.update t.use ptr u other)
    rw [Function.update_of_ne hother]
    have huse := h.use other
    cases hu : t.use other with
    | fresh =>
      rw [hu] at huse
      exact ⟨(hindex huse.2).symm ▸ huse.1, mt hreg.mp huse.2⟩
    | removed =>
      rw [hu] at huse
      exact ⟨(hindex huse.2).symm ▸ huse.1, mt hreg.mp huse.2⟩
    | registered =>
      rw [hu] at huse
      exact hreg.mpr huse

/-- An update of a channel that was not removed returns, and registers it. -/
theorem Recorded.updateChannel (h : Recorded fd t) (hfd : fd.Injective)
    (hnonneg : ∀ ptr, 0 ≤ fd ptr) (hne : t.use ptr ≠ .removed) :
    ∃ s, step k t.session (.updateChannel ptr events) = .ok s ∧
      Recorded fd ⟨s, Function.update t.use ptr .registered⟩ := by
  have hready : (t.session.channel ptr).index < 0 ∨ Registered fd t.session ptr := by
    have huse := h.use ptr
    cases hu : t.use ptr with
    | fresh =>
      rw [hu] at huse
      exact Or.inl huse.1
    | registered =>
      rw [hu] at huse
      exact Or.inr huse
    | removed => exact absurd hu hne
  have hcfd : (t.session.given ptr events).fd = fd ptr := h.fd_eq ptr
  have hcptr : (t.session.given ptr events).ptr = ptr := h.ptr_eq ptr
  obtain ⟨q, hq⟩ := h.toLaid.updateChannel_returns (k := k) hfd events hready
  have hstep : step k t.session (.updateChannel ptr events)
      = .ok ⟨q.1, Function.update t.session.channel ptr q.2⟩ := by
    rw [step, hq]
    rfl
  have hmap := updateChannel_channels hq
  rw [hcfd, hcptr] at hmap
  refine ⟨_, hstep, h.moves ((h.toLaid.updateChannel (k := k) hfd hnonneg ptr events).of_ok hstep)
    ?_ fun other hother ↦ ⟨?_, fun _ ↦ ?_⟩⟩
  · change q.1.channels (fd ptr) = some ptr
    rw [hmap, Function.update_self]
  · change q.1.channels (fd other) = some other ↔ _
    rw [hmap, Function.update_of_ne (hfd.ne hother)]
    rfl
  · exact congrArg Channel.index (Function.update_of_ne hother _ t.session.channel)

/-- A removal that returns leaves the channel out of the map, with the index it had. -/
theorem Recorded.removeChannel (h : Recorded fd t) (hfd : fd.Injective)
    (hnonneg : ∀ ptr, 0 ≤ fd ptr) :
    Outcome (step k t.session (.removeChannel ptr))
      (fun s ↦ Recorded fd ⟨s, Function.update t.use ptr .removed⟩)
      (· = .assertion .pollRemoveChannel) := by
  rcases removeChannel_cases k t.session.poller (t.session.channel ptr) with
    herr | ⟨place, pfd, hrem⟩
  · rw [step, herr]
    rfl
  · have hreg := hrem.registered
    rw [h.fd_eq, h.ptr_eq] at hreg
    obtain ⟨b, back, hb, hblast, hback, hstep⟩ := h.toLaid.removeChannel_eq hfd hnonneg hrem
    have hlaid := h.toLaid.erase hfd hnonneg hreg hrem.index hb hblast hback
    rw [hstep]
    refine h.moves (u := .removed) hlaid ⟨?_, ?_⟩ fun other hother ↦ ⟨?_, fun hnew ↦ ?_⟩
    · -- the index is the old place, also where the last entry was the channel's own
      change 0 ≤ (Function.update t.session.channel b _ ptr).index
      by_cases hptr : ptr = b
      · rw [hptr, Function.update_self]
        exact Int.natCast_nonneg place
      · rw [Function.update_of_ne hptr, hrem.index]
        exact Int.natCast_nonneg place
    · change ¬Function.update t.session.poller.channels (fd ptr) none (fd ptr) = some ptr
      rw [Function.update_self]
      exact (Option.some_ne_none ptr).symm
    · change Function.update t.session.poller.channels (fd ptr) none (fd other) = _ ↔ _
      rw [Function.update_of_ne (hfd.ne hother)]
      rfl
    · have hob : other ≠ b := by
        rintro rfl
        exact hnew hb
      exact congrArg Channel.index (Function.update_of_ne hob _ t.session.channel)

/-- An update of a channel that was removed fails an assert. -/
theorem Recorded.updateChannel_removed (h : Recorded fd t) (hremoved : t.use ptr = .removed) :
    step k t.session (.updateChannel ptr events) = .error (.assertion .pollUpdateChannel) := by
  have huse := h.use ptr
  rw [hremoved] at huse
  obtain ⟨hindex, hreg⟩ := huse
  have hpos : ¬(t.session.given ptr events).index < 0 := Int.not_lt.mpr hindex
  have hmap : ¬t.session.poller.channels (t.session.given ptr events).fd =
      some (t.session.given ptr events).ptr := by
    change ¬t.session.poller.channels (t.session.channel ptr).fd =
      some (t.session.channel ptr).ptr
    rw [h.fd_eq, h.ptr_eq]
    exact hreg
  rw [step, PollPoller.updateChannel, if_neg hpos, check_neg hmap]
  rfl

theorem conducts (k : Masks) (hfd : fd.Injective) (hnonneg : ∀ ptr, 0 ≤ fd ptr) :
    kind.Conducts k (Recorded fd) where
  kept _ h := h.kept hfd hnonneg
  once t i h _ honce := by
    cases i with
    | updateChannel ptr events =>
      obtain ⟨s, hs, hrecorded⟩ : ∃ s, step k t.session (.updateChannel ptr events) = .ok s ∧
          Recorded fd ⟨s, Function.update t.use ptr .registered⟩ :=
        h.updateChannel hfd hnonneg honce
      rw [kind_call, hs, bind_ok]
      exact hrecorded
    | removeChannel ptr =>
      have hremove : Outcome (step k t.session (.removeChannel ptr))
          (fun s ↦ Recorded fd ⟨s, Function.update t.use ptr .removed⟩)
          (· = .assertion .pollRemoveChannel) := h.removeChannel hfd hnonneg
      cases hs : step k t.session (.removeChannel ptr) with
      | ok s =>
        rw [hs] at hremove
        rw [kind_call, hs, bind_ok]
        exact hremove
      | error e =>
        rw [hs, outcome_error] at hremove
        rw [kind_call, hs, bind_error, hremove]
        exact (by decide : Fault.assertion .pollRemoveChannel ≠ .assertion .pollUpdateChannel)
  again t ptr events h hremoved := by
    rw [kind_call, h.updateChannel_removed hremoved]
    rfl

end PollPoller

/-! ## Whole runs -/

namespace Poller

/-- **Registration cycles.** For either poller, any channels with descriptors of their own and any
sequence of updates and removals in which channels are removed only while registered and without
events, the books are kept and no assert of `updateChannel` fails exactly when no channel is updated
after its removal. -/
theorem cycles_iff_once (k : Masks) {fd : ℕ → ℤ} (hfd : fd.Injective) (hnonneg : ∀ ptr, 0 ≤ fd ptr)
    (steps : List Step) :
    (Along (EpollPoller.kind.call k) (Legal k) (EpollPoller.kind.start fd) steps →
      (Along (EpollPoller.kind.call k) (EpollPoller.kind.Cycles k) (EpollPoller.kind.start fd)
          steps ↔
        Along (EpollPoller.kind.call k) Once (EpollPoller.kind.start fd) steps)) ∧
    (Along (PollPoller.kind.call k) (Legal k) (PollPoller.kind.start fd) steps →
      (Along (PollPoller.kind.call k) (PollPoller.kind.Cycles k) (PollPoller.kind.start fd)
          steps ↔
        Along (PollPoller.kind.call k) Once (PollPoller.kind.start fd) steps)) := by
  constructor
  · intro hlegal
    exact (EpollPoller.conducts k hfd).cycles_iff (EpollPoller.recorded_start fd) hlegal
  · intro hlegal
    exact (PollPoller.conducts k hfd hnonneg).cycles_iff (PollPoller.recorded_start fd) hlegal

/-- Two channels, one of which is switched off and removed. -/
theorem cycles_of_one_removal :
    Along (EpollPoller.kind.call Twin.masks) (EpollPoller.kind.Cycles Twin.masks)
        (EpollPoller.kind.start fun ptr ↦ ptr) [.updateChannel 5 EPOLLIN,
          .updateChannel 7 EPOLLOUT, .updateChannel 5 0, .removeChannel 5] ∧
      Along (PollPoller.kind.call Twin.masks) (PollPoller.kind.Cycles Twin.masks)
        (PollPoller.kind.start fun ptr ↦ ptr) [.updateChannel 5 EPOLLIN,
          .updateChannel 7 EPOLLOUT, .updateChannel 5 0, .removeChannel 5] := by
  have hinj : Function.Injective fun ptr : ℕ ↦ (ptr : ℤ) := fun _ _ ↦ Int.ofNat.inj
  have h := cycles_iff_once Twin.masks hinj
    (fun _ ↦ Int.natCast_nonneg _) [.updateChannel 5 EPOLLIN, .updateChannel 7 EPOLLOUT,
      .updateChannel 5 0, .removeChannel 5]
  exact ⟨(h.1 (by decide)).mpr (by decide), (h.2 (by decide)).mpr (by decide)⟩

/-- A channel that is switched off, removed and enabled again fails an assert of either poller. -/
theorem not_cycles_of_reuse :
    (Along (EpollPoller.kind.call Twin.masks) (Legal Twin.masks)
        (EpollPoller.kind.start fun ptr ↦ ptr) [.updateChannel 5 EPOLLIN, .updateChannel 5 0,
          .removeChannel 5, .updateChannel 5 EPOLLIN] ∧
      ¬Along (EpollPoller.kind.call Twin.masks) (EpollPoller.kind.Cycles Twin.masks)
        (EpollPoller.kind.start fun ptr ↦ ptr) [.updateChannel 5 EPOLLIN, .updateChannel 5 0,
          .removeChannel 5, .updateChannel 5 EPOLLIN]) ∧
    Along (PollPoller.kind.call Twin.masks) (Legal Twin.masks)
        (PollPoller.kind.start fun ptr ↦ ptr) [.updateChannel 5 EPOLLIN, .updateChannel 5 0,
          .removeChannel 5, .updateChannel 5 EPOLLIN] ∧
      ¬Along (PollPoller.kind.call Twin.masks) (PollPoller.kind.Cycles Twin.masks)
        (PollPoller.kind.start fun ptr ↦ ptr) [.updateChannel 5 EPOLLIN, .updateChannel 5 0,
          .removeChannel 5, .updateChannel 5 EPOLLIN] := by
  have hfd : Function.Injective fun ptr : ℕ ↦ (ptr : ℤ) := fun _ _ ↦ Int.ofNat.inj
  have hnonneg (ptr : ℕ) : (0 : ℤ) ≤ ptr := Int.natCast_nonneg ptr
  refine ⟨⟨by decide, fun h ↦ ?_⟩, by decide, fun h ↦ ?_⟩
  · rw [(EpollPoller.conducts _ hfd).cycles_iff (EpollPoller.recorded_start _) (by decide)] at h
    exact absurd h (by decide)
  · rw [(PollPoller.conducts _ hfd hnonneg).cycles_iff (PollPoller.recorded_start _)
      (by decide)] at h
    exact absurd h (by decide)

end Poller

end Twnl
