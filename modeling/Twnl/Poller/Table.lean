import Mathlib.Data.List.Basic
import Twnl.Poller.Session

/-!
# The table of the poll poller

A registered channel has the place in the table that its index names, every place is that of one
registered channel, and the entry there says what the channel was given last. The channel of an
entry can be read back from the entry: where the descriptor is negated it decodes to that of the
channel. This is what a removal relies on when it moves the last entry into the gap and gives its
channel a new index, and what the collection of events relies on when it looks channels up by the
descriptors in the table (`table_always`).

The entries have sixteen bits for the events; those of a level-triggered channel fit.
-/

namespace Twnl

/-- The events of a level-triggered channel. -/
def Mask.IsLT (m : Mask) : Prop := m &&& ~~~(EPOLLIN ||| EPOLLPRI ||| EPOLLOUT) = 0

instance : DecidablePred Mask.IsLT := fun _ ↦ inferInstanceAs (Decidable (_ = _))

/-- There are eight of them. -/
theorem Mask.IsLT.exists_lt {m : Mask} (h : m.IsLT) : ∃ i < 8, m = BitVec.ofNat 32 i := by
  have hself : m = m &&& 7 := by
    have hsplit : m = (m &&& 7) ||| (m &&& ~~~7) := by
      ext i hi
      simp only [BitVec.getElem_or, BitVec.getElem_and, BitVec.getElem_not]
      cases m[i] <;> cases (7 : Mask)[i] <;> rfl
    have hzero : m &&& ~~~7 = 0#32 := h
    rw [hzero, BitVec.or_zero] at hsplit
    exact hsplit
  refine ⟨m.toNat % 8, Nat.mod_lt _ (by decide), ?_⟩
  rw [← Nat.and_two_pow_sub_one_eq_mod m.toNat 3]
  apply BitVec.eq_of_toNat_eq
  rw [BitVec.toNat_ofNat]
  conv_lhs => rw [hself, BitVec.toNat_and]
  change m.toNat &&& 7 = (m.toNat &&& 7) % 2 ^ 32
  exact (Nat.mod_eq_of_lt (Nat.lt_of_le_of_lt Nat.and_le_right (by decide))).symm

/-- Sixteen bits are enough for them. -/
theorem Mask.IsLT.signExtend_setWidth {m : Mask} (h : m.IsLT) :
    (m.setWidth 16).signExtend 32 = m := by
  obtain ⟨i, hi, rfl⟩ := h.exists_lt
  revert i
  decide

namespace PollPoller

open Machine Poller Poller.Session

/-- What `poll` leaves in a table: every entry with what was found for it. -/
def polled (p : PollPoller) (revents : ℕ → BitVec 16) : PollPoller :=
  { p with pollfds := p.pollfds.mapIdx fun i pfd ↦ { pfd with revents := revents i } }

/-- What `poll` may find: nothing for an entry with a negative descriptor, and for another any of
its conditions, none of which is the sign bit. -/
def Answer (p : PollPoller) (revents : ℕ → BitVec 16) : Prop :=
  ∀ i pfd, p.pollfds[i]? = some pfd →
    (pfd.fd < 0 → revents i = 0) ∧ (revents i).msb = false

/-- What `poll` returns: the number of entries for which it has found something. -/
def numEvents (p : PollPoller) (revents : ℕ → BitVec 16) : ℕ :=
  (p.polled revents).pollfds.countP (·.revents ≠ 0)

/-- The channel at an address is in the map. -/
def Registered (fd : ℕ → ℤ) (s : Session PollPoller) (ptr : ℕ) : Prop :=
  s.poller.channels (fd ptr) = some ptr

/-- The entry says what the channel was given last. -/
structure Entry (pfd : PollFd) (c : Channel) : Prop where
  fd : pfd.fd = c.fd ∨ pfd.fd = ignored c.fd
  events : pfd.events = c.events.setWidth 16

variable {k : Masks} {fd : ℕ → ℤ} {s t : Session PollPoller} {i : Step} {ptr : ℕ} {events : Mask}
  {c : Channel} {p : PollPoller} {pfd : PollFd}

theorem Entry.decode_eq (h : Entry pfd c) (hc : 0 ≤ c.fd) : decode pfd.fd = c.fd := by
  rw [decode]
  rcases h.fd with hfd | hfd
  · rw [hfd, if_neg (Int.not_lt.mpr hc)]
  · rw [hfd, ignored, if_pos (by omega), ignored]
    omega

/-- An entry that is watched is for the descriptor itself. -/
theorem Entry.fd_eq (h : Entry pfd c) (hc : 0 ≤ c.fd) (hfd : 0 ≤ pfd.fd) : pfd.fd = c.fd := by
  rw [← h.decode_eq hc, decode, if_neg (Int.not_lt.mpr hfd)]

/-! ## The invariant -/

/-- The places in the table and the registered channels are the same. -/
structure Laid (fd : ℕ → ℤ) (s : Session PollPoller) : Prop extends s.Addressed fd where
  own : ∀ x ptr, s.poller.channels x = some ptr → x = fd ptr
  place : ∀ ptr, Registered fd s ptr → ∃ (i : ℕ) (pfd : PollFd),
    (s.channel ptr).index = i ∧ s.poller.pollfds[i]? = some pfd ∧ Entry pfd (s.channel ptr)
  owner : ∀ i < s.poller.pollfds.length, ∃ ptr, Registered fd s ptr ∧ (s.channel ptr).index = i

theorem laid_start (fd : ℕ → ℤ) : Laid fd (start new fd) where
  toAddressed := addressed_start new fd
  own _ _ h := absurd h nofun
  place _ h := absurd h nofun
  owner _ h := absurd h (Nat.not_lt_zero _)

/-- Two channels do not have one place: the entry there tells which of them it is. -/
theorem Laid.index_injective (h : Laid fd s) (hfd : fd.Injective) (hnonneg : ∀ ptr, 0 ≤ fd ptr)
    {a b : ℕ} (ha : Registered fd s a) (hb : Registered fd s b)
    (heq : (s.channel a).index = (s.channel b).index) : a = b := by
  obtain ⟨i, pfd, hi, hget, hentry⟩ := h.place a ha
  obtain ⟨j, pfd', hj, hget', hentry'⟩ := h.place b hb
  obtain rfl : i = j := Int.ofNat.inj (hi.symm.trans (heq.trans hj))
  obtain rfl := Option.some.inj (hget.symm.trans hget')
  have hdecode := hentry.decode_eq (h.fd_eq a ▸ hnonneg a)
  rw [hentry'.decode_eq (h.fd_eq b ▸ hnonneg b), h.fd_eq a, h.fd_eq b] at hdecode
  exact (hfd hdecode).symm

/-! ## The steps -/

/-- A new channel gets the place behind the table. -/
theorem Laid.append (h : Laid fd s) (hfd : fd.Injective) (hindex : (s.given ptr events).index < 0) :
    Laid fd ⟨⟨Function.update s.poller.channels (s.given ptr events).fd
        (some (s.given ptr events).ptr),
      s.poller.pollfds ++ [⟨(s.given ptr events).fd, events.setWidth 16, 0⟩]⟩,
      Function.update s.channel ptr
        { s.given ptr events with index := s.poller.pollfds.length }⟩ := by
  have hcfd : (s.given ptr events).fd = fd ptr := h.fd_eq ptr
  have hcptr : (s.given ptr events).ptr = ptr := h.ptr_eq ptr
  have hnew : ¬Registered fd s ptr := by
    intro hreg
    obtain ⟨i, -, hi, -⟩ := h.place ptr hreg
    exact absurd (hi ▸ hindex : (i : ℤ) < 0) (Int.not_lt.mpr (Int.natCast_nonneg i))
  have haddr := h.toAddressed.update s.poller
    (c := { s.given ptr events with index := s.poller.pollfds.length }) hcptr hcfd
  rw [hcfd, hcptr]
  refine ⟨⟨haddr.ptr_eq, haddr.fd_eq⟩, fun x a hx ↦ ?_, fun a ha ↦ ?_, fun i hi ↦ ?_⟩
  · change Function.update s.poller.channels (fd ptr) (some ptr) x = some a at hx
    by_cases hne : x = fd ptr
    · rw [hne, Function.update_self] at hx
      rw [hne, Option.some.inj hx]
    · rw [Function.update_of_ne hne] at hx
      exact h.own x a hx
  · change Function.update s.poller.channels (fd ptr) (some ptr) (fd a) = some a at ha
    by_cases hne : a = ptr
    · subst hne
      refine ⟨s.poller.pollfds.length, ⟨fd a, events.setWidth 16, 0⟩, ?_,
        List.getElem?_concat_length, ?_⟩
      · exact congrArg Channel.index (Function.update_self a _ s.channel)
      · change Entry _ (Function.update s.channel a _ a)
        rw [Function.update_self]
        exact ⟨Or.inl hcfd.symm, rfl⟩
    · rw [Function.update_of_ne (hfd.ne hne)] at ha
      obtain ⟨i, pfd, hi, hget, hentry⟩ := h.place a ha
      refine ⟨i, pfd, ?_, ?_, ?_⟩
      · exact (congrArg Channel.index (Function.update_of_ne hne _ s.channel)).trans hi
      · exact (List.getElem?_append_left (List.getElem?_eq_some_iff.mp hget).1).trans hget
      · change Entry _ (Function.update s.channel ptr _ a)
        rw [Function.update_of_ne hne]
        exact hentry
  · rcases Nat.lt_succ_iff_lt_or_eq.mp (List.length_append ▸ hi) with hlt | rfl
    · obtain ⟨a, ha, hai⟩ := h.owner i hlt
      have hne : a ≠ ptr := fun heq ↦ hnew (heq ▸ ha)
      refine ⟨a, ?_, ?_⟩
      · exact (Function.update_of_ne (hfd.ne hne) _ s.poller.channels).trans ha
      · exact (congrArg Channel.index (Function.update_of_ne hne _ s.channel)).trans hai
    · refine ⟨ptr, Function.update_self _ _ _, ?_⟩
      exact congrArg Channel.index (Function.update_self ptr _ s.channel)

/-- A registered channel has its entry written. -/
theorem Laid.write (h : Laid fd s) (hfd : fd.Injective) (hnonneg : ∀ ptr, 0 ≤ fd ptr) {place : ℕ}
    (hindex : (s.given ptr events).index = place)
    (hreg : s.poller.channels (s.given ptr events).fd = some (s.given ptr events).ptr) :
    Laid fd ⟨{ s.poller with
        pollfds := s.poller.pollfds.set place (rewritten k (s.given ptr events)) },
      Function.update s.channel ptr (s.given ptr events)⟩ := by
  have hcfd : (s.given ptr events).fd = fd ptr := h.fd_eq ptr
  have hcptr : (s.given ptr events).ptr = ptr := h.ptr_eq ptr
  have haddr := h.toAddressed.update s.poller hcptr hcfd
  rw [hcfd, hcptr] at hreg
  obtain ⟨i, pfd, hi, hget, -⟩ := h.place ptr hreg
  obtain rfl : i = place := Int.ofNat.inj (hi.symm.trans hindex)
  have hlt : i < s.poller.pollfds.length := (List.getElem?_eq_some_iff.mp hget).1
  have hindices (a : ℕ) :
      (Function.update s.channel ptr (s.given ptr events) a).index = (s.channel a).index := by
    by_cases hne : a = ptr
    · rw [hne, Function.update_self]
      rfl
    · rw [Function.update_of_ne hne]
  refine ⟨⟨haddr.ptr_eq, haddr.fd_eq⟩, h.own, fun a ha ↦ ?_, fun j hj ↦ ?_⟩
  · by_cases hne : a = ptr
    · subst hne
      refine ⟨i, rewritten k (s.given a events), (hindices a).trans hi,
        List.getElem?_set_self hlt, ?_⟩
      change Entry _ (Function.update s.channel a _ a)
      rw [Function.update_self]
      exact ⟨(ite_eq_or_eq _ _ _).symm, rfl⟩
    · obtain ⟨j, pfd', hj, hget', hentry⟩ := h.place a ha
      have hij : i ≠ j := by
        rintro rfl
        exact hne (h.index_injective hfd hnonneg ha hreg (hj.trans hi.symm))
      refine ⟨j, pfd', (hindices a).trans hj, (List.getElem?_set_ne hij).trans hget', ?_⟩
      change Entry _ (Function.update s.channel ptr _ a)
      rw [Function.update_of_ne hne]
      exact hentry
  · obtain ⟨a, ha, haj⟩ := h.owner j (by rwa [List.length_set] at hj)
    exact ⟨a, ha, (hindices a).trans haj⟩

/-- The step lemma for an update. -/
theorem Laid.updateChannel (h : Laid fd s) (hfd : fd.Injective) (hnonneg : ∀ ptr, 0 ≤ fd ptr)
    (ptr : ℕ) (events : Mask) :
    Outcome (step k s (.updateChannel ptr events)) (Laid fd)
      (· = .assertion .pollUpdateChannel) := by
  refine outcome_of (fun t ht ↦ ?_) fun e he ↦ ?_
  · obtain ⟨q, hq, ht⟩ := bind_eq_ok.mp ht
    obtain rfl := Except.ok.inj ht
    rcases updateChannel_cases hq with ⟨hindex, -, rfl⟩ | ⟨i, pfd, hindex, hreg, -, -, rfl⟩
    · exact h.append hfd hindex
    · exact h.write hfd hnonneg hindex hreg
  · rcases bind_eq_error.mp he with hq | ⟨_, -, hrest⟩
    · exact updateChannel_error hq
    · exact absurd hrest nofun

/-- A registered channel loses its entry, and the channel of the last entry gets its place. -/
theorem Laid.erase (h : Laid fd s) (hfd : fd.Injective) (hnonneg : ∀ ptr, 0 ≤ fd ptr) {place b : ℕ}
    {back : PollFd} (ha : Registered fd s ptr) (haplace : (s.channel ptr).index = place)
    (hb : Registered fd s b) (hblast : (s.channel b).index = (s.poller.pollfds.length - 1 : ℕ))
    (hback : s.poller.pollfds[s.poller.pollfds.length - 1]? = some back) :
    Laid fd ⟨⟨Function.update s.poller.channels (fd ptr) none,
        (s.poller.pollfds.set place back).dropLast⟩,
      Function.update s.channel b { s.channel b with index := place }⟩ := by
  have haddr := h.toAddressed.update s.poller
    (c := { s.channel b with index := (place : ℤ) }) (h.ptr_eq b) (h.fd_eq b)
  have hentries (j : ℕ) (hj : j < s.poller.pollfds.length - 1) :
      (s.poller.pollfds.set place back).dropLast[j]?
        = if place = j then some back else s.poller.pollfds[j]? := by
    rw [List.getElem?_dropLast, List.length_set, if_pos hj, List.getElem?_set]
    by_cases hjplace : place = j
    · rw [if_pos hjplace, if_pos hjplace, if_pos (by omega)]
    · rw [if_neg hjplace, if_neg hjplace]
  have hlt {a j : ℕ} {pfd : PollFd} (hreg : Registered fd s a) (hindex : (s.channel a).index = j)
      (hget : s.poller.pollfds[j]? = some pfd) (hne : a ≠ b) : j < s.poller.pollfds.length - 1 := by
    have hj := (List.getElem?_eq_some_iff.mp hget).1
    have : j ≠ s.poller.pollfds.length - 1 := by
      rintro rfl
      exact hne (h.index_injective hfd hnonneg hreg hb (hindex.trans hblast.symm))
    omega
  refine ⟨⟨haddr.ptr_eq, haddr.fd_eq⟩, fun x a hx ↦ ?_, fun a hreg ↦ ?_, fun j hj ↦ ?_⟩
  · change Function.update s.poller.channels (fd ptr) none x = some a at hx
    by_cases hne : x = fd ptr
    · rw [hne, Function.update_self] at hx
      exact absurd hx nofun
    · rw [Function.update_of_ne hne] at hx
      exact h.own x a hx
  · change Function.update s.poller.channels (fd ptr) none (fd a) = some a at hreg
    have hne : a ≠ ptr := by
      rintro rfl
      rw [Function.update_self] at hreg
      exact absurd hreg nofun
    rw [Function.update_of_ne (hfd.ne hne)] at hreg
    obtain ⟨j, pfd, hj, hget, hentry⟩ := h.place a hreg
    have hjplace : place ≠ j := by
      rintro rfl
      exact hne (h.index_injective hfd hnonneg hreg ha (hj.trans haplace.symm))
    by_cases hab : a = b
    · subst hab
      -- the moved channel: its entry is the last one, and its place the gap
      obtain rfl : j = s.poller.pollfds.length - 1 := Int.ofNat.inj (hj.symm.trans hblast)
      obtain rfl := Option.some.inj (hget.symm.trans hback)
      obtain ⟨i, pfd', hi, hget', -⟩ := h.place ptr ha
      obtain rfl : i = place := Int.ofNat.inj (hi.symm.trans haplace)
      have hplace := hlt ha hi hget' hne.symm
      refine ⟨i, pfd, ?_, ?_, ?_⟩
      · exact congrArg Channel.index (Function.update_self a _ s.channel)
      · exact (hentries i hplace).trans (if_pos rfl)
      · change Entry _ (Function.update s.channel a _ a)
        rw [Function.update_self]
        exact ⟨hentry.fd, hentry.events⟩
    · refine ⟨j, pfd, ?_, ?_, ?_⟩
      · exact (congrArg Channel.index (Function.update_of_ne hab _ s.channel)).trans hj
      · exact ((hentries j (hlt hreg hj hget hab)).trans (if_neg hjplace)).trans hget
      · change Entry _ (Function.update s.channel b _ a)
        rw [Function.update_of_ne hab]
        exact hentry
  · rw [List.length_dropLast, List.length_set] at hj
    by_cases hjplace : j = place
    · subst hjplace
      have hne : b ≠ ptr := by
        rintro rfl
        exact absurd (Int.ofNat.inj (haplace.symm.trans hblast)) (Nat.ne_of_lt hj)
      refine ⟨b, ?_, ?_⟩
      · exact (Function.update_of_ne (hfd.ne hne) _ s.poller.channels).trans hb
      · exact congrArg Channel.index (Function.update_self b _ s.channel)
    · obtain ⟨a, hreg, haj⟩ := h.owner j (by omega)
      have hne : a ≠ ptr := by
        rintro rfl
        exact hjplace (Int.ofNat.inj (haj.symm.trans haplace))
      have hab : a ≠ b := by
        rintro rfl
        exact absurd (Int.ofNat.inj (haj.symm.trans hblast)) (Nat.ne_of_lt hj)
      refine ⟨a, ?_, ?_⟩
      · exact (Function.update_of_ne (hfd.ne hne) _ s.poller.channels).trans hreg
      · exact (congrArg Channel.index (Function.update_of_ne hab _ s.channel)).trans haj

/-- What a removal that passes the asserts leaves. -/
theorem Laid.removeChannel_eq (h : Laid fd s) (hfd : fd.Injective) (hnonneg : ∀ ptr, 0 ≤ fd ptr)
    {place : ℕ} (hrem : Removable k s.poller (s.channel ptr) place pfd) :
    ∃ (b : ℕ) (back : PollFd), Registered fd s b ∧
      (s.channel b).index = (s.poller.pollfds.length - 1 : ℕ) ∧
      s.poller.pollfds[s.poller.pollfds.length - 1]? = some back ∧
      step k s (.removeChannel ptr) = .ok ⟨⟨Function.update s.poller.channels (fd ptr) none,
          (s.poller.pollfds.set place back).dropLast⟩,
        Function.update s.channel b { s.channel b with index := place }⟩ := by
  have hlength := (List.getElem?_eq_some_iff.mp hrem.entry).1
  obtain ⟨b, hb, hblast⟩ := h.owner (s.poller.pollfds.length - 1) (by omega)
  obtain ⟨j, back, hj, hback, hentry⟩ := h.place b hb
  obtain rfl : j = s.poller.pollfds.length - 1 := Int.ofNat.inj (hj.symm.trans hblast)
  have hdecode : decode back.fd = fd b := by
    rw [hentry.decode_eq (h.fd_eq b ▸ hnonneg b), h.fd_eq b]
  have hmoved : place ≠ s.poller.pollfds.length - 1 →
      Function.update s.poller.channels (fd ptr) none (decode back.fd) = some b := by
    intro hne
    have hbptr : b ≠ ptr := by
      rintro rfl
      exact hne (Int.ofNat.inj (hrem.index.symm.trans hblast))
    rw [hdecode, Function.update_of_ne (hfd.ne hbptr)]
    exact hb
  have herase := eraseAt_eq
    (p := { s.poller with channels := Function.update s.poller.channels (fd ptr) none })
    (List.getLast?_eq_getElem?.trans hback) hmoved
  have hset : setIndex s.channel
      (if place = s.poller.pollfds.length - 1 then none else some (b, (place : ℤ)))
      = Function.update s.channel b { s.channel b with index := place } := by
    split
    · rename_i hlast
      -- the last channel keeps the index it has
      rw [hlast, ← hblast]
      exact (Function.update_eq_self b s.channel).symm
    · rfl
  refine ⟨b, back, hb, hblast, hback, ?_⟩
  rw [step, PollPoller.removeChannel_eq hrem, h.fd_eq ptr, herase, bind_ok, ← hset]

/-- The step lemma for a removal. -/
theorem Laid.removeChannel (h : Laid fd s) (hfd : fd.Injective) (hnonneg : ∀ ptr, 0 ≤ fd ptr)
    (ptr : ℕ) :
    Outcome (step k s (.removeChannel ptr)) (Laid fd) (· = .assertion .pollRemoveChannel) := by
  rcases removeChannel_cases k s.poller (s.channel ptr) with herr | ⟨place, pfd, hrem⟩
  · rw [step, herr]
    rfl
  · have hreg := hrem.registered
    rw [h.fd_eq, h.ptr_eq] at hreg
    obtain ⟨b, back, hb, hblast, hback, hstep⟩ := h.removeChannel_eq hfd hnonneg hrem
    rw [hstep]
    exact h.erase hfd hnonneg hreg hrem.index hb hblast hback

/-! ## The active channels -/

/-- What is collected for an entry. -/
def found (p : PollPoller) (channel : ℕ → Channel) (pfd : PollFd) : Option Channel :=
  if pfd.revents = 0 then none
  else (p.channels pfd.fd).map fun ptr ↦
    { channel ptr with revents := pfd.revents.signExtend 32 }

theorem go_zero (p : PollPoller) (channel : ℕ → Channel) (l : List PollFd) :
    fillActiveChannels.go p channel l 0 = .ok [] := by
  cases l with
  | nil => rfl
  | cons pfd rest => exact if_neg (Int.lt_irrefl 0)

/-- The collection goes on until it has found as many entries as there are. -/
theorem go_eq {p : PollPoller} {channel : ℕ → Channel} {l : List PollFd}
    (hl : ∀ pfd ∈ l, pfd.revents ≠ 0 → 0 < pfd.revents.toInt ∧
      ∃ ptr, p.channels pfd.fd = some ptr ∧ (channel ptr).fd = pfd.fd) :
    fillActiveChannels.go p channel l (l.countP (·.revents ≠ 0) : ℕ)
      = .ok (l.filterMap (found p channel)) := by
  induction l with
  | nil => rfl
  | cons pfd rest ih =>
    specialize ih fun x hx ↦ hl x (List.mem_cons_of_mem _ hx)
    by_cases hzero : pfd.revents = 0
    · have hfound : found p channel pfd = none := if_pos hzero
      have hpos : ¬0 < pfd.revents.toInt := by rw [hzero]; decide
      rw [List.countP_cons_of_neg (by simpa using hzero), List.filterMap_cons_none hfound, ← ih,
        fillActiveChannels.go, if_neg hpos]
      split
      · rfl
      · rename_i hnone
        -- none is left to be found
        rw [Nat.eq_zero_of_not_pos (mt Int.natCast_pos.mpr hnone)]
        exact (go_zero p channel rest).symm
    · obtain ⟨hpos, ptr, hptr, hfd⟩ := hl pfd List.mem_cons_self hzero
      have hfound : found p channel pfd
          = some { channel ptr with revents := pfd.revents.signExtend 32 } := by
        rw [found, if_neg hzero, hptr, Option.map_some]
      rw [List.countP_cons_of_pos (by simpa using hzero), List.filterMap_cons_some hfound,
        fillActiveChannels.go, if_pos (Int.natCast_pos.mpr (Nat.succ_pos _)), if_pos hpos, hptr]
      change (check _ _ >>= fun _ ↦ fillActiveChannels.go p channel rest _ >>= _) = _
      rw [check_pos hfd, bind_ok, Int.natCast_succ, Int.add_sub_cancel, ih, bind_ok]

/-- What has been found is positive. -/
theorem revents_pos {revents : BitVec 16} (h : revents.msb = false) (hne : revents ≠ 0) :
    0 < revents.toInt := by
  rw [BitVec.toInt_eq_toNat_of_msb h]
  exact Int.natCast_pos.mpr (Nat.pos_of_ne_zero fun hzero ↦ hne (BitVec.eq_of_toNat_eq hzero))

/-- A ready channel: registered, and something was found for its place. -/
def Ready (fd : ℕ → ℤ) (s : Session PollPoller) (revents : ℕ → BitVec 16) (c : Channel) : Prop :=
  ∃ (ptr i : ℕ), Registered fd s ptr ∧ (s.channel ptr).index = i ∧ revents i ≠ 0 ∧
    c = { s.channel ptr with revents := (revents i).signExtend 32 }

theorem mem_polled_iff {p : PollPoller} {revents : ℕ → BitVec 16} :
    pfd ∈ (p.polled revents).pollfds ↔
      ∃ (i : ℕ) (old : PollFd), p.pollfds[i]? = some old ∧
        pfd = { old with revents := revents i } := by
  rw [polled, List.mem_iff_getElem?]
  refine exists_congr fun i ↦ ?_
  rw [List.getElem?_mapIdx, Option.map_eq_some_iff]
  exact exists_congr fun old ↦ and_congr_right fun _ ↦ eq_comm

/-- The entries are for different descriptors. -/
theorem Laid.pairwise (h : Laid fd s) (hfd : fd.Injective) (hnonneg : ∀ ptr, 0 ≤ fd ptr) :
    s.poller.pollfds.Pairwise fun x y ↦ decode x.fd ≠ decode y.fd := by
  refine List.pairwise_iff_getElem.mpr fun i j hi hj hij ↦ ?_
  have hdecode (i : ℕ) (hi : i < s.poller.pollfds.length) :
      ∃ a, (s.channel a).index = i ∧ decode s.poller.pollfds[i].fd = fd a := by
    obtain ⟨a, ha, hai⟩ := h.owner i hi
    obtain ⟨i', pfd, hi', hget, hentry⟩ := h.place a ha
    obtain rfl : i' = i := Int.ofNat.inj (hi'.symm.trans hai)
    rw [List.getElem?_eq_getElem hi] at hget
    rw [Option.some.inj hget, hentry.decode_eq (h.fd_eq a ▸ hnonneg a), h.fd_eq a]
    exact ⟨a, hai, rfl⟩
  obtain ⟨a, ha, hda⟩ := hdecode i hi
  obtain ⟨b, hb, hdb⟩ := hdecode j hj
  rw [hda, hdb]
  intro heq
  obtain rfl := hfd heq
  exact absurd (Int.ofNat.inj (ha.symm.trans hb)) (Nat.ne_of_lt hij)

/-- **The collection.** Whatever `poll` has found, every ready channel is collected once, with what
was found for it, and no assert fails. -/
theorem Laid.fillActiveChannels (h : Laid fd s) (hfd : fd.Injective) (hnonneg : ∀ ptr, 0 ≤ fd ptr)
    {revents : ℕ → BitVec 16} (hanswer : s.poller.Answer revents) :
    ∃ active, (s.poller.polled revents).fillActiveChannels s.channel (s.poller.numEvents revents)
        = .ok active ∧
      (active.map Channel.ptr).Nodup ∧ ∀ c, c ∈ active ↔ Ready fd s revents c := by
  -- the entry at a place, its channel, and the descriptor when it is watched
  have hentry (i : ℕ) (old : PollFd) (hget : s.poller.pollfds[i]? = some old)
      (hne : revents i ≠ 0) : ∃ ptr, Registered fd s ptr ∧ (s.channel ptr).index = i ∧
        old.fd = fd ptr ∧ 0 < (revents i).toInt := by
    obtain ⟨ptr, hreg, hi⟩ := h.owner i (List.getElem?_eq_some_iff.mp hget).1
    obtain ⟨i', old', hi', hget', hold⟩ := h.place ptr hreg
    obtain rfl : i' = i := Int.ofNat.inj (hi'.symm.trans hi)
    obtain rfl := Option.some.inj (hget.symm.trans hget')
    obtain ⟨hneg, hmsb⟩ := hanswer i' old hget
    have hwatched : 0 ≤ old.fd := Int.not_lt.mp fun hlt ↦ hne (hneg hlt)
    refine ⟨ptr, hreg, hi, ?_, revents_pos hmsb hne⟩
    rw [hold.fd_eq (h.fd_eq ptr ▸ hnonneg ptr) hwatched, h.fd_eq ptr]
  refine ⟨(s.poller.polled revents).pollfds.filterMap (found s.poller s.channel), ?_, ?_, ?_⟩
  · refine go_eq fun pfd hpfd hne ↦ ?_
    obtain ⟨i, old, hget, rfl⟩ := mem_polled_iff.mp hpfd
    obtain ⟨ptr, hreg, -, hold, hpos⟩ := hentry i old hget hne
    refine ⟨hpos, ptr, ?_, ?_⟩
    · change s.poller.channels old.fd = some ptr
      rw [hold]
      exact hreg
    · exact (h.fd_eq ptr).trans hold.symm
  · have hpairwise : (s.poller.polled revents).pollfds.Pairwise
        fun x y ↦ decode x.fd ≠ decode y.fd := by
      rw [polled, List.pairwise_iff_getElem]
      intro i j hi hj hij
      simp only [List.getElem_mapIdx]
      exact List.pairwise_iff_getElem.mp (h.pairwise hfd hnonneg) i j _ _ hij
    refine List.pairwise_map.mpr (hpairwise.filterMap _ fun x y hxy c hc d hd hptr ↦ hxy ?_)
    have hown {x : PollFd} {c : Channel} (hc : found s.poller s.channel x = some c) :
        x.fd = fd c.ptr := by
      rw [found] at hc
      split at hc
      · exact absurd hc nofun
      · obtain ⟨ptr, hptr, rfl⟩ := Option.map_eq_some_iff.mp hc
        rw [h.own _ _ hptr]
        exact congrArg fd (h.ptr_eq ptr).symm
    rw [hown hc, hown hd, hptr]
  · intro c
    rw [List.mem_filterMap]
    constructor
    · rintro ⟨pfd, hpfd, hc⟩
      obtain ⟨i, old, hget, rfl⟩ := mem_polled_iff.mp hpfd
      rw [found] at hc
      split at hc
      · exact absurd hc nofun
      · rename_i hne
        obtain ⟨ptr, hreg, hi, hold, -⟩ := hentry i old hget hne
        rw [hold, hreg, Option.map_some, Option.some.injEq] at hc
        exact ⟨ptr, i, hreg, hi, hne, hc.symm⟩
    · rintro ⟨ptr, i, hreg, hi, hne, rfl⟩
      obtain ⟨i', old, hi', hget, -⟩ := h.place ptr hreg
      obtain rfl : i' = i := Int.ofNat.inj (hi'.symm.trans hi)
      obtain ⟨ptr', hreg', hi'', hold, -⟩ := hentry i' old hget hne
      obtain rfl := h.index_injective hfd hnonneg hreg hreg' (hi.trans hi''.symm)
      refine ⟨_, mem_polled_iff.mpr ⟨i', old, hget, rfl⟩, ?_⟩
      rw [found, if_neg hne]
      change (s.poller.channels old.fd).map _ = _
      rw [hold, hreg, Option.map_some]

/-! ## The table in every run -/

/-- The table, the map and the indices agree, and what `poll` finds is collected. -/
structure Table (fd : ℕ → ℤ) (s : Session PollPoller) : Prop where
  /-- A registered channel has the place of its index: the entry there has its descriptor, as it is
  or encoded, decodes to its key in the map, and has the events it was given last. -/
  place : ∀ ptr, Registered fd s ptr → ∃ (i : ℕ) (pfd : PollFd), (s.channel ptr).index = i ∧
    s.poller.pollfds[i]? = some pfd ∧ (pfd.fd = fd ptr ∨ pfd.fd = -fd ptr - 1) ∧
    s.poller.channels (decode pfd.fd) = some ptr ∧
    pfd.events.signExtend 32 = (s.channel ptr).events
  /-- Every place is that of one registered channel. -/
  owner : ∀ i < s.poller.pollfds.length, ∃ ptr, (Registered fd s ptr ∧ (s.channel ptr).index = i) ∧
    ∀ other, Registered fd s other → (s.channel other).index = i → other = ptr
  /-- The keys of the map are the descriptors of its channels. -/
  own : ∀ x ptr, s.poller.channels x = some ptr → x = fd ptr
  /-- The collection returns every ready channel once, with what was found for it. -/
  active : ∀ revents, s.poller.Answer revents → ∃ active,
    (s.poller.polled revents).fillActiveChannels s.channel (s.poller.numEvents revents)
        = .ok active ∧
      (active.map Channel.ptr).Nodup ∧ ∀ c, c ∈ active ↔ Ready fd s revents c

theorem Laid.table (h : Laid fd s) (hfd : fd.Injective) (hnonneg : ∀ ptr, 0 ≤ fd ptr)
    (hLT : ∀ ptr, (s.channel ptr).events.IsLT) : Table fd s where
  place ptr hreg := by
    obtain ⟨i, pfd, hi, hget, hentry⟩ := h.place ptr hreg
    have hdecode := hentry.decode_eq (h.fd_eq ptr ▸ hnonneg ptr)
    refine ⟨i, pfd, hi, hget, h.fd_eq ptr ▸ hentry.fd, ?_, ?_⟩
    · rw [hdecode, h.fd_eq ptr]
      exact hreg
    · rw [hentry.events]
      exact (hLT ptr).signExtend_setWidth
  owner i hi := by
    obtain ⟨ptr, hreg, hindex⟩ := h.owner i hi
    exact ⟨ptr, ⟨hreg, hindex⟩, fun other hother hoi ↦
      h.index_injective hfd hnonneg hother hreg (hoi.trans hindex.symm)⟩
  own := h.own
  active _ hanswer := h.fillActiveChannels hfd hnonneg hanswer

/-- The events that come with a step are those of a level-triggered channel. -/
def GivesLT : Step → Prop
  | .updateChannel _ events => events.IsLT
  | .removeChannel _ => True

instance : DecidablePred GivesLT
  | .updateChannel _ events => inferInstanceAs (Decidable events.IsLT)
  | .removeChannel _ => .isTrue trivial

theorem setIndex_events (channel : ℕ → Channel) (moved : Option (ℕ × ℤ)) (ptr : ℕ) :
    (setIndex channel moved ptr).events = (channel ptr).events := by
  cases moved with
  | none => rfl
  | some moved =>
    rw [setIndex]
    by_cases hne : ptr = moved.1
    · rw [hne, Function.update_self]
    · rw [Function.update_of_ne hne]

theorem updateChannel_events {q : PollPoller × Channel} (h : updateChannel k p c = .ok q) :
    q.2.events = c.events := by
  rcases updateChannel_cases h with ⟨-, -, rfl⟩ | ⟨_, _, -, -, -, -, rfl⟩ <;> rfl

theorem isLT_step (h : ∀ ptr, (s.channel ptr).events.IsLT) (hi : GivesLT i)
    (ht : step k s i = .ok t) (ptr : ℕ) : (t.channel ptr).events.IsLT := by
  cases i with
  | updateChannel a events =>
    obtain ⟨q, hq, ht⟩ := bind_eq_ok.mp ht
    obtain rfl := Except.ok.inj ht
    refine (Function.forall_update_iff s.channel fun _ c ↦ c.events.IsLT).mpr
      ⟨?_, fun ptr _ ↦ h ptr⟩ ptr
    rw [updateChannel_events hq]
    exact hi
  | removeChannel a =>
    obtain ⟨q, -, ht⟩ := bind_eq_ok.mp ht
    obtain rfl := Except.ok.inj ht
    change (setIndex s.channel q.2 ptr).events.IsLT
    rw [setIndex_events]
    exact h ptr

/-- The step lemma. -/
theorem Laid.step (h : Laid fd s) (hfd : fd.Injective) (hnonneg : ∀ ptr, 0 ≤ fd ptr) :
    Outcome (step k s i) (Laid fd) fun e ↦
      e = .assertion .pollUpdateChannel ∨ e = .assertion .pollRemoveChannel := by
  cases i with
  | updateChannel ptr events =>
    have hstep := h.updateChannel (k := k) hfd hnonneg ptr events
    exact outcome_of (fun _ ht ↦ hstep.of_ok ht) fun e he ↦ Or.inl (by rwa [he] at hstep)
  | removeChannel ptr =>
    have hstep := h.removeChannel (k := k) hfd hnonneg ptr
    exact outcome_of (fun _ ht ↦ hstep.of_ok ht) fun e he ↦ Or.inr (by rwa [he] at hstep)

/-- **The table of the poll poller.** At every step of every sequence of updates and removals of
channels with descriptors of their own and level-triggered events, the table is as it should be, and
either the step returns and it is so again, or one of the asserts of the call fails. -/
theorem table_always (k : Masks) {fd : ℕ → ℤ} (hfd : fd.Injective) (hnonneg : ∀ ptr, 0 ≤ fd ptr)
    {steps : List Step} (hsteps : ∀ i ∈ steps, GivesLT i) :
    Along (PollPoller.step k) (fun s i ↦ Table fd s ∧
      Outcome (PollPoller.step k s i) (Table fd) fun e ↦
        e = .assertion .pollUpdateChannel ∨ e = .assertion .pollRemoveChannel)
      (start new fd) steps := by
  refine Along.guarantee (Q := fun _ i ↦ GivesLT i)
    (I := fun s ↦ Laid fd s ∧ ∀ ptr, (s.channel ptr).events.IsLT) ?_ ?_
    (along_of_forall hsteps) ⟨laid_start fd, fun _ ↦ (by decide : Mask.IsLT 0)⟩
  · exact fun s i t hs hi ht ↦ ⟨(hs.1.step hfd hnonneg).of_ok ht, isLT_step hs.2 hi ht⟩
  · refine fun s i hs hi ↦ ⟨hs.1.table hfd hnonneg hs.2, ?_⟩
    have hstep := hs.1.step (k := k) (i := i) hfd hnonneg
    refine outcome_of (fun t ht ↦ ?_) fun e he ↦ by rwa [he] at hstep
    exact (hstep.of_ok ht).table hfd hnonneg (isLT_step hs.2 hi ht)

/-- Three channels, the first of which is switched off and removed: the last takes its place. -/
theorem table_three :
    (∃ t, run (PollPoller.step (Masks.initDefaultEvent .LT)) (start new fun ptr ↦ ptr)
      [.updateChannel 5 EPOLLIN, .updateChannel 6 EPOLLOUT, .updateChannel 7 EPOLLIN,
        .updateChannel 7 0, .updateChannel 5 0, .removeChannel 5, .updateChannel 7 EPOLLOUT]
      = .ok t ∧ (t.channel 7).index = 0) ∧
    Along (PollPoller.step (Masks.initDefaultEvent .LT)) (fun s i ↦ Table (fun ptr ↦ ptr) s ∧
      Outcome (PollPoller.step (Masks.initDefaultEvent .LT) s i) (Table fun ptr ↦ ptr) fun e ↦
        e = .assertion .pollUpdateChannel ∨ e = .assertion .pollRemoveChannel)
      (start new fun ptr ↦ ptr)
      [.updateChannel 5 EPOLLIN, .updateChannel 6 EPOLLOUT, .updateChannel 7 EPOLLIN,
        .updateChannel 7 0, .updateChannel 5 0, .removeChannel 5, .updateChannel 7 EPOLLOUT] :=
  ⟨⟨_, rfl, rfl⟩, table_always _ (fun _ _ ↦ Int.ofNat.inj) (fun _ ↦ Int.natCast_nonneg _)
    (by decide)⟩

end PollPoller

end Twnl
