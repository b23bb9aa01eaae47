import Twnl.Machine.Dense
import Twnl.Poller.Recycling

/-!
# Descriptors that are used again, in the table of the poll poller

Underneath, the table is a list of channels in a dense table, and each entry stands for the channel
that has its place (`Seated`). This says nothing of descriptors, so it holds whatever descriptors
the channels have.

The poll poller asserts before a removal that the channel is the one in the map. So only an update
can go wrong: its books stay sound exactly when no channel is updated while another one with its
descriptor is registered, or after its removal.
-/

namespace Twnl

open Machine Poller Poller.Session

namespace PollPoller

/-- The map has the registered channels under their descriptors, each of them has a place with an
entry of its own, and there are no other places. -/
structure Sound (fd : ℕ → ℤ) (t : History PollPoller) : Prop where
  map : ∀ x ptr, t.session.poller.channels x = some ptr ↔ t.use ptr = .registered ∧ fd ptr = x
  place : ∀ ptr, t.use ptr = .registered → ∃ (i : ℕ) (pfd : PollFd),
    (t.session.channel ptr).index = i ∧ t.session.poller.pollfds[i]? = some pfd ∧
      (pfd.fd = fd ptr ∨ pfd.fd = -fd ptr - 1) ∧
      pfd.events = (t.session.channel ptr).events.setWidth 16
  owner : ∀ i < t.session.poller.pollfds.length, ∃ ptr,
    (t.use ptr = .registered ∧ (t.session.channel ptr).index = i) ∧
      ∀ other, t.use other = .registered → (t.session.channel other).index = i → other = ptr

/-- The books are sound before a call, and the call returns with sound books or stops at an assert
of `removeChannel`. -/
def Recycles (k : Masks) (fd : ℕ → ℤ) (t : History PollPoller) (i : Step) : Prop :=
  Sound fd t ∧ Outcome (kind.call k t i) (Sound fd) (· = .assertion .pollRemoveChannel)

/-- A channel is not updated after its removal, and not while another one with its descriptor is
registered. -/
def UpdatedApart (fd : ℕ → ℤ) (t : History PollPoller) : Step → Prop
  | .updateChannel ptr _ => t.use ptr ≠ .removed ∧ Unshared fd t.use ptr
  | .removeChannel _ => True

/-! ## The invariant -/

/-- The registered channels sit in the places of the table, each at its entry. -/
structure Seated (fd : ℕ → ℤ) (t : History PollPoller) (owners : List ℕ) : Prop
    extends t.session.Addressed fd where
  dense : Dense owners fun ptr ↦ (t.session.channel ptr).index
  length_eq : owners.length = t.session.poller.pollfds.length
  entered : Entered (fun ptr pfd ↦ Entry pfd (t.session.channel ptr)) owners
    t.session.poller.pollfds
  map : ∀ x ptr, t.session.poller.channels x = some ptr ↔ ptr ∈ owners ∧ fd ptr = x
  use : ∀ ptr, ptr ∈ owners ↔ t.use ptr = .registered
  fresh : ∀ ptr, (t.session.channel ptr).index < 0 ↔ t.use ptr = .fresh

variable {k : Masks} {fd : ℕ → ℤ} {t t' : History PollPoller} {i : Step} {ptr : ℕ}
  {events : Mask} {c : Channel} {owners : List ℕ}

theorem seated_start (fd : ℕ → ℤ) : Seated fd (kind.start fd) [] where
  toAddressed := addressed_start new fd
  dense := Dense.nil _
  length_eq := rfl
  entered i ptr h := absurd h (by simp)
  map x ptr := iff_of_false nofun fun h ↦ absurd h.1 List.not_mem_nil
  use ptr := iff_of_false List.not_mem_nil
    fun h ↦ absurd (show Use.fresh = .registered from h) (by decide)
  fresh ptr := iff_of_true (by decide : (-1 : ℤ) < 0) rfl

theorem Seated.sound (h : Seated fd t owners) : Sound fd t where
  map x ptr := by rw [h.map, h.use]
  place ptr hreg := by
    obtain ⟨i, hi⟩ := List.mem_iff_getElem?.mp ((h.use ptr).mpr hreg)
    obtain ⟨pfd, hget, hentry⟩ := h.entered i ptr hi
    exact ⟨i, pfd, h.dense.index_eq i ptr hi, hget, h.fd_eq ptr ▸ hentry.fd, hentry.events⟩
  owner i hi := by
    have hlt : i < owners.length := h.length_eq ▸ hi
    refine ⟨owners[i], ⟨(h.use _).mp (List.getElem_mem hlt), ?_⟩, fun other hother hindex ↦ ?_⟩
    · exact h.dense.index_eq i _ (List.getElem?_eq_getElem hlt)
    · have hget := h.dense.getElem?_eq ((h.use other).mpr hother) hindex
      exact Option.some.inj (hget.symm.trans (List.getElem?_eq_getElem hlt))

/-- Two channels that are seated have different descriptors. -/
theorem Seated.injective (h : Seated fd t owners) {a b : ℕ} (ha : a ∈ owners) (hb : b ∈ owners)
    (hfd : fd a = fd b) : a = b :=
  Option.some.inj (((h.map _ a).mpr ⟨ha, hfd⟩).symm.trans ((h.map _ b).mpr ⟨hb, rfl⟩))

/-! ## Updates -/

/-- A channel that was not handed to the poller before sits down behind the others. -/
theorem Seated.concat (h : Seated fd t owners) (events : Mask) (hfresh : t.use ptr = .fresh)
    (hshared : Unshared fd t.use ptr) :
    ∃ t', kind.call k t (.updateChannel ptr events) = .ok t' ∧ Seated fd t' (owners ++ [ptr]) := by
  have hnotin : ptr ∉ owners := fun hmem ↦ by
    rw [(h.use ptr).mp hmem] at hfresh
    exact absurd hfresh (by decide)
  have hnone : t.session.poller.channels (fd ptr) = none := by
    refine Option.eq_none_iff_forall_ne_some.mpr fun a ha ↦ hnotin ?_
    obtain ⟨hmem, hfd⟩ := (h.map _ a).mp ha
    exact hshared a ((h.use a).mp hmem) hfd ▸ hmem
  have hneg : (t.session.given ptr events).index < 0 := (h.fresh ptr).mpr hfresh
  have hcheck : t.session.poller.channels (t.session.given ptr events).fd = none := by
    change t.session.poller.channels (t.session.channel ptr).fd = none
    rw [h.fd_eq, hnone]
  set seated : Channel :=
    { t.session.given ptr events with index := t.session.poller.pollfds.length } with hseated
  have hptr : seated.ptr = ptr := h.ptr_eq ptr
  have hcfd : seated.fd = fd ptr := h.fd_eq ptr
  have hself : Function.update t.session.channel ptr seated ptr = seated :=
    Function.update_self _ _ _
  have hother {a : ℕ} (ha : a ∈ owners) :
      Function.update t.session.channel ptr seated a = t.session.channel a := by
    refine Function.update_of_ne ?_ _ _
    rintro rfl
    exact hnotin ha
  have haddr := h.toAddressed.update t.session.poller hptr hcfd
  refine ⟨⟨⟨⟨Function.update t.session.poller.channels seated.fd (some seated.ptr),
    t.session.poller.pollfds ++ [⟨seated.fd, events.setWidth 16, 0⟩]⟩,
    Function.update t.session.channel ptr seated⟩, Function.update t.use ptr .registered⟩, ?_,
    ⟨haddr.ptr_eq, haddr.fd_eq⟩, ?_, ?_, ?_, ?_, ?_, ?_⟩
  · rw [kind_call, PollPoller.step, PollPoller.updateChannel, if_pos hneg, check_pos hcheck]
    rfl
  · refine h.dense.concat hnotin (fun a ha ↦ congrArg Channel.index (hother ha)) ?_
    exact (congrArg Channel.index hself).trans (congrArg Int.ofNat h.length_eq.symm)
  · change (owners ++ [ptr]).length = (t.session.poller.pollfds ++ [_]).length
    rw [List.length_append, List.length_append, h.length_eq]
    rfl
  · refine h.entered.concat h.length_eq (fun a ha pfd hentry ↦ ?_) ?_
    · change Entry pfd (Function.update t.session.channel ptr seated a)
      rw [hother ha]
      exact hentry
    · change Entry _ (Function.update t.session.channel ptr seated ptr)
      rw [hself]
      exact ⟨Or.inl rfl, rfl⟩
  · intro x a
    change Function.update t.session.poller.channels seated.fd (some seated.ptr) x = some a ↔ _
    rw [hcfd, hptr, List.mem_append, List.mem_singleton]
    by_cases hx : x = fd ptr
    · subst hx
      rw [Function.update_self, Option.some.injEq]
      constructor
      · rintro rfl
        exact ⟨Or.inr rfl, rfl⟩
      · rintro ⟨ha | rfl, hfd⟩
        · exact absurd (((h.map _ a).mpr ⟨ha, hfd⟩).symm.trans hnone) (Option.some_ne_none a)
        · rfl
    · rw [Function.update_of_ne hx, h.map]
      refine and_congr_left fun hfd ↦ (or_iff_left ?_).symm
      rintro rfl
      exact hx hfd.symm
  · intro a
    change a ∈ owners ++ [ptr] ↔ Function.update t.use ptr .registered a = .registered
    rw [List.mem_append, List.mem_singleton]
    by_cases ha : a = ptr
    · rw [ha, Function.update_self]
      exact iff_of_true (Or.inr rfl) rfl
    · rw [Function.update_of_ne ha, or_iff_left ha, h.use]
  · intro a
    change (Function.update t.session.channel ptr seated a).index < 0 ↔
      Function.update t.use ptr .registered a = .fresh
    by_cases ha : a = ptr
    · rw [ha, hself, Function.update_self]
      exact iff_of_false (Int.not_lt.mpr (Int.natCast_nonneg _)) (by decide)
    · rw [Function.update_of_ne ha, Function.update_of_ne ha, h.fresh]

/-- A channel that is seated has its entry written. -/
theorem Seated.rewrite (h : Seated fd t owners) (events : Mask) (hreg : t.use ptr = .registered) :
    ∃ t', kind.call k t (.updateChannel ptr events) = .ok t' ∧ Seated fd t' owners := by
  have hmem := (h.use ptr).mpr hreg
  obtain ⟨i, hi⟩ := List.mem_iff_getElem?.mp hmem
  have hindex : (t.session.given ptr events).index = i := h.dense.index_eq i ptr hi
  obtain ⟨pfd, hget, hentry⟩ := h.entered i ptr hi
  have hpos : ¬(t.session.given ptr events).index < 0 := by
    rw [hindex]
    exact Int.not_lt.mpr (Int.natCast_nonneg i)
  have hcheck : t.session.poller.channels (t.session.given ptr events).fd =
      some (t.session.given ptr events).ptr := by
    change t.session.poller.channels (t.session.channel ptr).fd = some (t.session.channel ptr).ptr
    rw [h.fd_eq, h.ptr_eq]
    exact (h.map _ _).mpr ⟨hmem, rfl⟩
  have hpfd : t.session.poller.entry (t.session.given ptr events).index .pollUpdateChannel =
      .ok pfd := by
    rw [entry_eq_ok, hindex]
    exact ⟨Int.natCast_nonneg i, hget⟩
  have hown : pfd.fd = (t.session.given ptr events).fd ∨
      pfd.fd = ignored (t.session.given ptr events).fd := hentry.fd
  have hself : Function.update t.session.channel ptr (t.session.given ptr events) ptr =
    t.session.given ptr events := Function.update_self _ _ _
  have hindices (a : ℕ) : (Function.update t.session.channel ptr
      (t.session.given ptr events) a).index = (t.session.channel a).index := by
    by_cases ha : a = ptr
    · rw [ha, hself]
      rfl
    · rw [Function.update_of_ne ha]
  have haddr := h.toAddressed.update t.session.poller
    (c := t.session.given ptr events) (h.ptr_eq ptr) (h.fd_eq ptr)
  refine ⟨⟨⟨⟨t.session.poller.channels,
    t.session.poller.pollfds.set i (rewritten k (t.session.given ptr events))⟩,
    Function.update t.session.channel ptr (t.session.given ptr events)⟩,
    Function.update t.use ptr .registered⟩, ?_, ⟨haddr.ptr_eq, haddr.fd_eq⟩,
    h.dense.congr fun a _ ↦ hindices a, ?_, ?_, h.map, ?_, ?_⟩
  · rw [kind_call, PollPoller.step, PollPoller.updateChannel, if_neg hpos, check_pos hcheck,
      bind_ok, hpfd, bind_ok, check_pos hown, hindex]
    rfl
  · exact h.length_eq.trans (List.length_set).symm
  · refine h.entered.set h.dense.nodup hi (fun a ha pfd' hentry' ↦ ?_) ?_
    · change Entry pfd' (Function.update t.session.channel ptr (t.session.given ptr events) a)
      rw [Function.update_of_ne ha]
      exact hentry'
    · change Entry _ (Function.update t.session.channel ptr (t.session.given ptr events) ptr)
      rw [hself]
      exact ⟨(ite_eq_or_eq _ _ _).symm, rfl⟩
  · intro a
    change a ∈ owners ↔ Function.update t.use ptr .registered a = .registered
    by_cases ha : a = ptr
    · rw [ha, Function.update_self]
      exact iff_of_true hmem rfl
    · rw [Function.update_of_ne ha, h.use]
  · intro a
    change (Function.update t.session.channel ptr (t.session.given ptr events) a).index < 0 ↔
      Function.update t.use ptr .registered a = .fresh
    rw [hindices]
    by_cases ha : a = ptr
    · rw [ha, Function.update_self]
      exact iff_of_false hpos (by decide)
    · rw [Function.update_of_ne ha, h.fresh]

/-! ## Removals -/

/-- A channel gets up, and the last one moves to its place. -/
theorem Seated.remove (h : Seated fd t owners) (hnonneg : ∀ ptr, 0 ≤ fd ptr) {place : ℕ}
    {pfd : PollFd} (hrem : Removable k t.session.poller (t.session.channel ptr) place pfd) :
    ∃ t', kind.call k t (.removeChannel ptr) = .ok t' ∧ Seated fd t' (swapRemove owners place) := by
  have hmem : ptr ∈ owners := by
    have hreg := hrem.registered
    rw [h.fd_eq, h.ptr_eq] at hreg
    exact ((h.map _ _).mp hreg).1
  have hplace := h.dense.getElem?_eq hmem hrem.index
  have hlt := (List.getElem?_eq_some_iff.mp hplace).1
  obtain ⟨b, hb⟩ : ∃ b, owners[owners.length - 1]? = some b :=
    ⟨_, List.getElem?_eq_getElem (by omega)⟩
  have hbmem := List.mem_of_getElem? hb
  obtain ⟨back, hback, hentry⟩ := h.entered _ b hb
  have hlast : t.session.poller.pollfds.getLast? = some back := by
    rw [List.getLast?_eq_getElem?, ← h.length_eq, hback]
  have hindexb := h.dense.index_eq _ b hb
  have hmoved : place ≠ t.session.poller.pollfds.length - 1 →
      Function.update t.session.poller.channels (fd ptr) none (decode back.fd) = some b := by
    intro hne
    have hbptr : b ≠ ptr := by
      rintro rfl
      rw [← h.length_eq] at hne
      exact hne (Int.ofNat.inj (hrem.index.symm.trans hindexb))
    rw [hentry.decode_eq (h.fd_eq b ▸ hnonneg b), h.fd_eq b,
      Function.update_of_ne fun hfd ↦ hbptr (h.injective hbmem hmem hfd)]
    exact (h.map _ _).mpr ⟨hbmem, rfl⟩
  have herase := eraseAt_eq
    (p := { t.session.poller with
      channels := Function.update t.session.poller.channels (fd ptr) none }) hlast hmoved
  set seated : Channel := { t.session.channel b with index := (place : ℤ) } with hseated
  have hset : setIndex t.session.channel
      (if place = t.session.poller.pollfds.length - 1 then none else some (b, (place : ℤ)))
      = Function.update t.session.channel b seated := by
    split
    · -- the channel is the last one itself, and has the index already
      rename_i hlastplace
      have hbindex : (t.session.channel b).index = place := by
        rw [hlastplace, ← h.length_eq]
        exact hindexb
      rw [setIndex, hseated, ← hbindex, Function.update_eq_self]
    · rfl
  have hself : Function.update t.session.channel b seated b = seated := Function.update_self _ _ _
  have hkeep {a : ℕ} (ha : a ≠ b) :
      Function.update t.session.channel b seated a = t.session.channel a :=
    Function.update_of_ne ha _ _
  have hnodup := h.dense.nodup
  have haddr := h.toAddressed.update t.session.poller (c := seated) (h.ptr_eq b) (h.fd_eq b)
  refine ⟨⟨⟨⟨Function.update t.session.poller.channels (fd ptr) none,
    (t.session.poller.pollfds.set place back).dropLast⟩,
    Function.update t.session.channel b seated⟩, Function.update t.use ptr .removed⟩, ?_,
    ⟨haddr.ptr_eq, haddr.fd_eq⟩, ?_, ?_, ?_, ?_, ?_, ?_⟩
  · rw [kind_call, PollPoller.step, removeChannel_eq hrem, h.fd_eq, herase, bind_ok]
    exact congrArg (fun channel ↦ Except.ok
      (⟨⟨⟨Function.update t.session.poller.channels (fd ptr) none,
        (t.session.poller.pollfds.set place back).dropLast⟩, channel⟩,
        Function.update t.use ptr .removed⟩ : History PollPoller)) hset
  · refine h.dense.swapRemove hplace hb (fun a _ ha ↦ congrArg Channel.index (hkeep ha)) ?_
    exact congrArg Channel.index hself
  · rw [length_swapRemove, List.length_dropLast, List.length_set, h.length_eq]
  · rw [← swapRemove_eq hlast]
    refine h.entered.swapRemove h.length_eq (fun a pfd' hentry' ↦ ?_) place
    change Entry pfd' (Function.update t.session.channel b seated a)
    by_cases hab : a = b
    · -- an entry does not depend on the index
      rw [hab, hself]
      rw [hab] at hentry'
      exact ⟨hentry'.fd, hentry'.events⟩
    · rw [hkeep hab]
      exact hentry'
  · intro x a
    change Function.update t.session.poller.channels (fd ptr) none x = some a ↔ _
    rw [mem_swapRemove_iff hnodup hplace]
    by_cases hx : x = fd ptr
    · subst hx
      rw [Function.update_self]
      refine iff_of_false (by simp) fun ha ↦ ha.1.2 (h.injective ha.1.1 hmem ha.2)
    · rw [Function.update_of_ne hx, h.map]
      refine and_congr_left fun hfd ↦ (and_iff_left ?_).symm
      rintro rfl
      exact hx hfd.symm
  · intro a
    change _ ↔ Function.update t.use ptr .removed a = .registered
    rw [mem_swapRemove_iff hnodup hplace]
    by_cases ha : a = ptr
    · rw [ha, Function.update_self]
      exact iff_of_false (fun h ↦ h.2 rfl) (by decide)
    · rw [Function.update_of_ne ha, and_iff_left ha, h.use]
  · intro a
    change (Function.update t.session.channel b seated a).index < 0 ↔
      Function.update t.use ptr .removed a = .fresh
    have hindex : (Function.update t.session.channel b seated a).index < 0 ↔
        (t.session.channel a).index < 0 := by
      by_cases hab : a = b
      · rw [hab, hself, hindexb]
        exact iff_of_false (Int.not_lt.mpr (Int.natCast_nonneg _))
          (Int.not_lt.mpr (Int.natCast_nonneg _))
      · rw [hkeep hab]
    rw [hindex]
    by_cases ha : a = ptr
    · rw [ha, Function.update_self, hrem.index]
      exact iff_of_false (Int.not_lt.mpr (Int.natCast_nonneg _)) (by decide)
    · rw [Function.update_of_ne ha, h.fresh]

/-! ## Whole runs -/

/-- The step lemma. -/
theorem Seated.step (h : Seated fd t owners) (hnonneg : ∀ ptr, 0 ≤ fd ptr)
    (hapart : UpdatedApart fd t i) :
    Outcome (kind.call k t i) (fun t' ↦ ∃ owners', Seated fd t' owners')
      (· = .assertion .pollRemoveChannel) := by
  cases i with
  | updateChannel ptr events =>
    obtain ⟨hremoved, hshared⟩ := hapart
    cases hu : t.use ptr with
    | fresh =>
      obtain ⟨t', ht', hseated⟩ := h.concat (k := k) events hu hshared
      rw [ht']
      exact ⟨_, hseated⟩
    | registered =>
      obtain ⟨t', ht', hseated⟩ := h.rewrite (k := k) events hu
      rw [ht']
      exact ⟨_, hseated⟩
    | removed => exact absurd hu hremoved
  | removeChannel ptr =>
    rcases removeChannel_cases k t.session.poller (t.session.channel ptr) with
      herr | ⟨place, pfd, hrem⟩
    · rw [kind_call, PollPoller.step, herr]
      rfl
    · obtain ⟨t', ht', hseated⟩ := h.remove hnonneg hrem
      rw [ht']
      exact ⟨_, hseated⟩

/-- An update that is not apart fails an assert. -/
theorem Seated.apart_of_recycles (h : Seated fd t owners) (hrec : Recycles k fd t i) :
    UpdatedApart fd t i := by
  cases i with
  | removeChannel ptr => trivial
  | updateChannel ptr events =>
    cases hq : PollPoller.updateChannel k t.session.poller (t.session.given ptr events) with
    | error e =>
      have herr := hrec.2
      rw [kind_call, PollPoller.step, hq, updateChannel_error hq] at herr
      exact absurd (show Fault.assertion .pollUpdateChannel = .assertion .pollRemoveChannel
        from herr) (by decide)
    | ok q =>
      rcases updateChannel_cases hq with ⟨hneg, hnone, -⟩ | ⟨j, pfd, -, hmap, -⟩
      · have hfresh : t.use ptr = .fresh := (h.fresh ptr).mp hneg
        refine ⟨by rw [hfresh]; decide, fun other hother hfd ↦ ?_⟩
        change t.session.poller.channels (t.session.channel ptr).fd = none at hnone
        rw [h.fd_eq, ← hfd, (h.map _ other).mpr ⟨(h.use other).mpr hother, rfl⟩] at hnone
        exact absurd hnone (Option.some_ne_none other)
      · change t.session.poller.channels (t.session.channel ptr).fd =
          some (t.session.channel ptr).ptr at hmap
        rw [h.fd_eq, h.ptr_eq] at hmap
        have hmem := ((h.map _ _).mp hmap).1
        refine ⟨by rw [(h.use ptr).mp hmem]; decide, fun other hother hfd ↦ ?_⟩
        exact h.injective ((h.use other).mpr hother) hmem hfd

/-- **Descriptors that are used again, in the table.** Whatever descriptors the channels have, and
whatever calls are made: the map has exactly the registered channels under their descriptors, each
of them has one place in the table and no place is without one, and no call stops but at the asserts
of `removeChannel`, exactly as long as no channel is updated while another with its descriptor is
registered, or after its removal. -/
theorem recycles_iff_updatedApart (k : Masks) {fd : ℕ → ℤ} (hnonneg : ∀ ptr, 0 ≤ fd ptr)
    (steps : List Step) :
    Along (kind.call k) (Recycles k fd) (kind.start fd) steps ↔
      Along (kind.call k) (UpdatedApart fd) (kind.start fd) steps := by
  refine along_congr (I := fun t ↦ ∃ owners, Seated fd t owners) (fun t i t' h hapart ht' ↦ ?_)
    (fun t i h ↦ ⟨?_, ?_⟩) ⟨[], seated_start fd⟩
  · obtain ⟨owners, hseated⟩ := h
    exact (hseated.step hnonneg hapart).of_ok ht'
  · obtain ⟨owners, hseated⟩ := h
    exact hseated.apart_of_recycles
  · intro hapart
    obtain ⟨owners, hseated⟩ := h
    exact ⟨hseated.sound, (hseated.step hnonneg hapart).imp fun t' ⟨_, ht'⟩ ↦ ht'.sound⟩

/-- A channel is switched off and removed, and another one has its descriptor then. -/
theorem recycles_of_reuse :
    (∃ t, run (kind.call Twin.masks) (kind.start fun _ ↦ 7) [.updateChannel 5 EPOLLIN,
      .updateChannel 5 0, .removeChannel 5, .updateChannel 6 EPOLLIN] = .ok t ∧
        t.session.poller.channels 7 = some 6) ∧
    Along (kind.call Twin.masks) (Recycles Twin.masks fun _ ↦ 7) (kind.start fun _ ↦ 7)
      [.updateChannel 5 EPOLLIN, .updateChannel 5 0, .removeChannel 5,
        .updateChannel 6 EPOLLIN] := by
  refine ⟨⟨_, rfl, rfl⟩, (recycles_iff_updatedApart _ (fun _ ↦ by decide) _).mpr ?_⟩
  refine ⟨⟨by decide, ?_⟩, ⟨by decide, ?_⟩, trivial, ⟨by decide, ?_⟩, trivial⟩
  all_goals
    intro other hother _
    by_contra hne
    simp only [used, Function.update_apply, Kind.start] at hother
    grind

end PollPoller

end Twnl
