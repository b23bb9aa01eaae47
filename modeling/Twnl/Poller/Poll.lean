import Mathlib.Data.List.Basic
import Mathlib.Logic.Function.Basic
import Twnl.Channel.Basic
import Twnl.Fault

/-!
# The poll poller

The table handed to `poll` is dense: the index kept in a channel is the place of its entry, and a
removal moves the last entry into the gap, so that the channel of that entry gets a new index. A
descriptor that is not to be watched stands in the table as `-fd - 1`, which `poll` passes over.

Whatever is updated or removed, the entries of other descriptors stay in the table
(`mem_updateChannel_iff`, `mem_removeChannel_iff`): the asserts see to it that the entry written to
is the channel's own.
-/

namespace Twnl

/-- A `struct pollfd`. -/
structure PollFd where
  fd : ℤ
  events : BitVec 16
  revents : BitVec 16
  deriving DecidableEq, Repr

/-- The map `channels_` and the table `pollfds_`. -/
structure PollPoller where
  channels : ℤ → Option ℕ
  pollfds : List PollFd

namespace PollPoller

/-- A poller as its constructor leaves it. -/
def new : PollPoller := ⟨fun _ ↦ none, []⟩

/-- What stands in the table for a descriptor that is not to be watched. -/
def ignored (fd : ℤ) : ℤ := -fd - 1

/-- The entry at an index that is asserted to be in range. -/
def entry (p : PollPoller) (index : ℤ) (site : Site) : Except Fault PollFd :=
  match if 0 ≤ index then p.pollfds[index.toNat]? else none with
  | some pfd => .ok pfd
  | none => .error (.assertion site)

/-- The entry written for a channel that has one. -/
def rewritten (k : Masks) (c : Channel) : PollFd :=
  ⟨if c.isNoneEvent k then ignored c.fd else c.fd, c.events.setWidth 16, 0⟩

/-- Gives the poller and the channel with its index. -/
def updateChannel (k : Masks) (p : PollPoller) (c : Channel) :
    Except Fault (PollPoller × Channel) :=
  if c.index < 0 then do
    check (p.channels c.fd = none) .pollUpdateChannel
    .ok (⟨Function.update p.channels c.fd (some c.ptr),
        p.pollfds ++ [⟨c.fd, c.events.setWidth 16, 0⟩]⟩,
      { c with index := p.pollfds.length })
  else do
    check (p.channels c.fd = some c.ptr) .pollUpdateChannel
    let pfd ← p.entry c.index .pollUpdateChannel
    check (pfd.fd = c.fd ∨ pfd.fd = ignored c.fd) .pollUpdateChannel
    .ok ({ p with pollfds := p.pollfds.set c.index.toNat (rewritten k c) }, c)

/-- Takes the entry at a place out of the table. Gives the poller and, if the last entry has moved
there, its channel and the place. -/
def eraseAt (p : PollPoller) (place : ℕ) : Except Fault (PollPoller × Option (ℕ × ℤ)) :=
  if place = p.pollfds.length - 1 then .ok ({ p with pollfds := p.pollfds.dropLast }, none)
  else
    match p.pollfds.getLast? with
    | none => .error .outOfBounds
    | some back =>
      match p.channels (if back.fd < 0 then ignored back.fd else back.fd) with
      | none => .error .nullPointer
      | some ptr =>
        .ok ({ p with pollfds := (p.pollfds.set place back).dropLast }, some (ptr, place))

def removeChannel (k : Masks) (p : PollPoller) (c : Channel) :
    Except Fault (PollPoller × Option (ℕ × ℤ)) := do
  check (p.channels c.fd = some c.ptr) .pollRemoveChannel
  check (c.isNoneEvent k) .pollRemoveChannel
  let pfd ← p.entry c.index .pollRemoveChannel
  check (pfd.fd = ignored c.fd ∧ pfd.events.signExtend 32 = c.events) .pollRemoveChannel
  eraseAt { p with channels := Function.update p.channels c.fd none } c.index.toNat

/-- The descriptor that an entry stands for. -/
def decode (fd : ℤ) : ℤ := if fd < 0 then ignored fd else fd

/-- What `poll` has found is collected from the table until `numEvents` entries were found. Gives
the active channels as `set_revents` leaves them. -/
def fillActiveChannels (p : PollPoller) (channel : ℕ → Channel) (numEvents : ℤ) :
    Except Fault (List Channel) :=
  go p.pollfds numEvents
where
  go : List PollFd → ℤ → Except Fault (List Channel)
    | [], _ => .ok []
    | pfd :: rest, numEvents =>
      if 0 < numEvents then
        if 0 < pfd.revents.toInt then
          match p.channels pfd.fd with
          | none => .error (.assertion .pollFillActiveChannels)
          | some ptr => do
            check ((channel ptr).fd = pfd.fd) .pollFillActiveChannels
            let active ← go rest (numEvents - 1)
            .ok ({ channel ptr with revents := pfd.revents.signExtend 32 } :: active)
        else go rest numEvents
      else .ok []

variable {k : Masks} {p : PollPoller} {c : Channel} {pfd x : PollFd} {index : ℤ} {site : Site}

theorem entry_eq_ok : p.entry index site = .ok pfd ↔
    0 ≤ index ∧ p.pollfds[index.toNat]? = some pfd := by
  rw [entry]
  split
  · rename_i y h
    split at h
    · rename_i hpos
      rw [h, Except.ok.injEq, Option.some.injEq]
      exact (and_iff_right hpos).symm
    · exact absurd h nofun
  · rename_i h
    refine iff_of_false nofun ?_
    rintro ⟨hpos, hget⟩
    rw [if_pos hpos, hget] at h
    exact absurd h nofun

theorem entry_eq_error {e : Fault} (h : p.entry index site = .error e) : e = .assertion site := by
  rw [entry] at h
  split at h
  · exact absurd h nofun
  · exact (Except.error.inj h).symm

/-! ## What a call does -/

/-- The inversion of an update: the channel is new and gets the place behind the table, or it is
registered and its entry is written. -/
theorem updateChannel_cases {q : PollPoller × Channel} (h : updateChannel k p c = .ok q) :
    (c.index < 0 ∧ p.channels c.fd = none ∧
      q = (⟨Function.update p.channels c.fd (some c.ptr),
        p.pollfds ++ [⟨c.fd, c.events.setWidth 16, 0⟩]⟩,
        { c with index := p.pollfds.length })) ∨
    ∃ (i : ℕ) (pfd : PollFd), c.index = i ∧ p.channels c.fd = some c.ptr ∧
      p.pollfds[i]? = some pfd ∧ (pfd.fd = c.fd ∨ pfd.fd = ignored c.fd) ∧
      q = ({ p with pollfds := p.pollfds.set i (rewritten k c) }, c) := by
  rw [updateChannel] at h
  split at h
  · rename_i hneg
    obtain ⟨_, hnone, h⟩ := bind_eq_ok.mp h
    exact Or.inl ⟨hneg, check_eq_ok.mp hnone, (Except.ok.inj h).symm⟩
  · rename_i hneg
    obtain ⟨_, hsome, h⟩ := bind_eq_ok.mp h
    obtain ⟨pfd, hpfd, h⟩ := bind_eq_ok.mp h
    obtain ⟨_, hown, h⟩ := bind_eq_ok.mp h
    exact Or.inr ⟨c.index.toNat, pfd, (Int.toNat_of_nonneg (Int.not_lt.mp hneg)).symm,
      check_eq_ok.mp hsome, (entry_eq_ok.mp hpfd).2, check_eq_ok.mp hown, (Except.ok.inj h).symm⟩

/-- An update stops at an assert only. -/
theorem updateChannel_error {e : Fault} (h : updateChannel k p c = .error e) :
    e = .assertion .pollUpdateChannel := by
  rw [updateChannel] at h
  split at h
  · rcases bind_eq_error.mp h with hcheck | ⟨_, -, hrest⟩
    · exact (check_eq_error.mp hcheck).2
    · exact absurd hrest nofun
  · rcases bind_eq_error.mp h with hcheck | ⟨_, -, h⟩
    · exact (check_eq_error.mp hcheck).2
    · rcases bind_eq_error.mp h with hentry | ⟨pfd, -, h⟩
      · exact entry_eq_error hentry
      · rcases bind_eq_error.mp h with hown | ⟨_, -, hrest⟩
        · exact (check_eq_error.mp hown).2
        · exact absurd hrest nofun

/-- The asserts of a removal. -/
structure Removable (k : Masks) (p : PollPoller) (c : Channel) (place : ℕ) (pfd : PollFd) :
    Prop where
  registered : p.channels c.fd = some c.ptr
  none : c.isNoneEvent k = true
  index : c.index = place
  entry : p.pollfds[place]? = some pfd
  fd : pfd.fd = ignored c.fd
  events : pfd.events.signExtend 32 = c.events

/-- A channel that meets them has its entry taken out. -/
theorem removeChannel_eq {place : ℕ} (h : Removable k p c place pfd) :
    removeChannel k p c
      = eraseAt { p with channels := Function.update p.channels c.fd none } place := by
  have hentry : p.entry c.index .pollRemoveChannel = .ok pfd := by
    rw [entry_eq_ok, h.index]
    exact ⟨Int.natCast_nonneg place, h.entry⟩
  rw [removeChannel, check_pos h.registered, bind_ok, check_pos h.none, bind_ok, hentry, bind_ok,
    check_pos ⟨h.fd, h.events⟩, bind_ok, h.index]
  rfl

/-- A removal stops at an assert, or all of them are met. -/
theorem removeChannel_cases (k : Masks) (p : PollPoller) (c : Channel) :
    removeChannel k p c = .error (.assertion .pollRemoveChannel) ∨
      ∃ place pfd, Removable k p c place pfd := by
  rw [removeChannel]
  by_cases hmap : p.channels c.fd = some c.ptr
  · rw [check_pos hmap, bind_ok]
    by_cases hnone : c.isNoneEvent k = true
    · rw [check_pos hnone, bind_ok]
      cases hentry : p.entry c.index .pollRemoveChannel with
      | error e =>
        rw [entry_eq_error hentry]
        exact Or.inl rfl
      | ok pfd =>
        obtain ⟨hpos, hget⟩ := entry_eq_ok.mp hentry
        rw [bind_ok]
        by_cases hpfd : pfd.fd = ignored c.fd ∧ pfd.events.signExtend 32 = c.events
        · exact Or.inr ⟨c.index.toNat, pfd, hmap, hnone, (Int.toNat_of_nonneg hpos).symm, hget,
            hpfd.1, hpfd.2⟩
        · rw [check_neg hpfd]
          exact Or.inl rfl
    · rw [check_neg hnone]
      exact Or.inl rfl
  · rw [check_neg hmap]
    exact Or.inl rfl

/-- An entry is taken out by moving the last one to its place. -/
theorem eraseAt_eq {place ptr : ℕ} {back : PollFd} (hback : p.pollfds.getLast? = some back)
    (hptr : place ≠ p.pollfds.length - 1 → p.channels (decode back.fd) = some ptr) :
    p.eraseAt place = .ok ({ p with pollfds := (p.pollfds.set place back).dropLast },
      if place = p.pollfds.length - 1 then none else some (ptr, (place : ℤ))) := by
  rw [eraseAt]
  split
  · rename_i hlast
    obtain ⟨front, hsplit⟩ := List.getLast?_eq_some_iff.mp hback
    have hfront : place = front.length := by
      rw [hlast, hsplit, List.length_append, List.length_singleton, Nat.add_sub_cancel]
    rw [hsplit, hfront, List.set_append_right _ _ (Nat.le_refl _), Nat.sub_self,
      List.set_cons_zero, List.dropLast_concat]
  · rename_i hlast
    rw [hback]
    change (match p.channels (decode back.fd) with
      | none => _
      | some ptr => _) = _
    rw [hptr hlast]

/-! ## The entries of other descriptors -/

/-- Overwriting an element loses that element only. -/
theorem mem_set_iff {α : Type*} {l : List α} {i : ℕ} {old x : α} (hget : l[i]? = some old)
    (hx : x ≠ old) (a : α) : x ∈ l.set i a ↔ x = a ∨ x ∈ l := by
  obtain ⟨hi, hold⟩ := List.getElem?_eq_some_iff.mp hget
  refine ⟨fun hmem ↦ (List.mem_or_eq_of_mem_set hmem).symm, ?_⟩
  rintro (rfl | hmem)
  · exact List.mem_set hi x
  · obtain ⟨j, hj, rfl⟩ := List.mem_iff_getElem.mp hmem
    have hne : i ≠ j := by
      rintro rfl
      exact hx hold
    refine List.mem_iff_getElem.mpr ⟨j, by rwa [List.length_set], ?_⟩
    exact List.getElem_set_ne hne _

/-- Erasing an element loses that element only. -/
theorem mem_eraseAt_iff {place : ℕ} {q : PollPoller × Option (ℕ × ℤ)}
    (hget : p.pollfds[place]? = some pfd) (hx : x ≠ pfd) (h : p.eraseAt place = .ok q) :
    x ∈ q.1.pollfds ↔ x ∈ p.pollfds := by
  obtain ⟨hplace, hpfd⟩ := List.getElem?_eq_some_iff.mp hget
  have hne : p.pollfds ≠ [] := by
    intro hnil
    rw [hnil] at hplace
    exact absurd hplace (Nat.not_lt_zero _)
  obtain ⟨front, back, hsplit⟩ : ∃ front back, p.pollfds = front ++ [back] :=
    ⟨_, _, (List.dropLast_append_getLast hne).symm⟩
  rw [eraseAt] at h
  split at h
  · rename_i hlast
    obtain rfl := Except.ok.inj h
    -- the last entry is the one that is erased
    have hx' : x ≠ back := by
      rintro rfl
      refine hx ?_
      rw [← hpfd]
      simp only [hsplit, hlast, List.length_append, List.length_singleton, Nat.add_sub_cancel,
        List.getElem_concat_length]
    change x ∈ p.pollfds.dropLast ↔ _
    rw [hsplit, List.dropLast_concat, List.mem_append, List.mem_singleton]
    exact ⟨Or.inl, fun h ↦ h.resolve_right hx'⟩
  · rename_i hlast
    rw [hsplit, List.getLast?_concat] at h
    split at h
    · rename_i hnone
      exact absurd hnone nofun
    · rename_i b hb
      obtain rfl := Option.some.inj hb
      split at h
      · exact absurd h nofun
      · obtain rfl := Except.ok.inj h
        -- the last entry is moved to the place of the one that is erased
        have hfront : place < front.length := by
          rw [hsplit, List.length_append, List.length_singleton] at hplace hlast
          omega
        have hget' : front[place]? = some pfd := by
          rw [← hget, hsplit, List.getElem?_append_left hfront]
        change x ∈ ((front ++ [back]).set place back).dropLast ↔ _
        rw [List.set_append_left _ _ hfront, List.dropLast_concat, mem_set_iff hget' hx, hsplit,
          List.mem_append, List.mem_singleton, or_comm]

theorem fd_ne_of_ne (hx : 0 ≤ x.fd) (hc : 0 ≤ c.fd) (hfd : x.fd ≠ c.fd)
    (hpfd : pfd.fd = c.fd ∨ pfd.fd = ignored c.fd) : x ≠ pfd := by
  rintro rfl
  rcases hpfd with h | h
  · exact hfd h
  · rw [h, ignored] at hx
    omega

/-- An update leaves the entries of other descriptors alone. -/
theorem mem_updateChannel_iff {q : PollPoller × Channel} (hx : 0 ≤ x.fd) (hc : 0 ≤ c.fd)
    (hfd : x.fd ≠ c.fd) (h : updateChannel k p c = .ok q) :
    x ∈ q.1.pollfds ↔ x ∈ p.pollfds := by
  rcases updateChannel_cases h with ⟨-, -, rfl⟩ | ⟨i, pfd, -, -, hget, hown, rfl⟩
  · rw [List.mem_append, List.mem_singleton]
    exact or_iff_left (fd_ne_of_ne hx hc hfd (Or.inl rfl))
  · have hnew : x ≠ rewritten k c := by
      refine fd_ne_of_ne hx hc hfd ?_
      rw [rewritten]
      exact (ite_eq_or_eq _ _ _).symm
    exact (mem_set_iff hget (fd_ne_of_ne hx hc hfd hown) _).trans (or_iff_right hnew)

/-- So does a removal. -/
theorem mem_removeChannel_iff {q : PollPoller × Option (ℕ × ℤ)} (hx : 0 ≤ x.fd) (hc : 0 ≤ c.fd)
    (hfd : x.fd ≠ c.fd) (h : removeChannel k p c = .ok q) :
    x ∈ q.1.pollfds ↔ x ∈ p.pollfds := by
  rcases removeChannel_cases k p c with herr | ⟨place, pfd, hall⟩
  · exact absurd (herr.symm.trans h) error_ne_ok
  · rw [removeChannel_eq hall] at h
    exact mem_eraseAt_iff (p := { p with channels := Function.update p.channels c.fd none })
      hall.entry (fd_ne_of_ne hx hc hfd (Or.inr hall.fd)) h

end PollPoller

end Twnl
