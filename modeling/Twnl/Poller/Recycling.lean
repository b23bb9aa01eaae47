import Twnl.Machine.Directory
import Twnl.Poller.Cycles

/-!
# Descriptors that are used again

The kernel gives the descriptor of a socket that was closed to the next one that is opened, and a
connector hands its descriptor on to a connection while its own channel is still there. So over time
many channels have the same descriptor, and both pollers have only their maps from descriptors to
channels to tell them apart. Here `fd` may give any two channels the same descriptor.

The books of the epoll poller stay sound exactly when no channel is updated or removed while another
one with its descriptor is registered, and none is updated after its removal
(`recycles_iff_apart`). A removal that is not apart is the worse of the two: it asserts nothing, and
takes the other channel out of the map while the kernel goes on to report it.
-/

namespace Twnl

open Machine Poller Poller.Session

namespace Poller

/-- No other channel with the descriptor is registered. -/
def Unshared (fd : ℕ → ℤ) (use : ℕ → Use) (ptr : ℕ) : Prop :=
  ∀ other, use other = .registered → fd other = fd ptr → other = ptr

/-- A call that meets no other channel with the descriptor, and is no update of a channel that was
removed. -/
def Apart {π : Type} (fd : ℕ → ℤ) (t : History π) : Step → Prop
  | .updateChannel ptr _ => t.use ptr ≠ .removed ∧ Unshared fd t.use ptr
  | .removeChannel ptr => Unshared fd t.use ptr

end Poller

namespace EpollPoller

/-- The map has the registered channels under their descriptors, and the kernel reports those of
them whose index says so, with their pointers and the events they were given last. -/
structure Sound (fd : ℕ → ℤ) (t : History EpollPoller) : Prop where
  map : ∀ x ptr, t.session.poller.channels x = some ptr ↔ t.use ptr = .registered ∧ fd ptr = x
  reports : ∀ x m ptr, t.session.poller.interest x = some (m, ptr) ↔
    t.use ptr = .registered ∧ fd ptr = x ∧ (t.session.channel ptr).index = kAdded ∧
      (t.session.channel ptr).events = m

/-- The books are sound before a call, and the call returns with sound books. -/
def Recycles (k : Masks) (fd : ℕ → ℤ) (t : History EpollPoller) (i : Step) : Prop :=
  Sound fd t ∧ Outcome (kind.call k t i) (Sound fd) fun _ ↦ False

/-! ## The invariant -/

/-- The indices of a channel that was used as named. -/
def IndexOf (index : ℤ) : Use → Prop
  | .fresh => index = kNew
  | .registered => index = kAdded ∨ index = kDeleted
  | .removed => index = kDeleted

structure Kept (fd : ℕ → ℤ) (t : History EpollPoller) : Prop
    extends t.session.Addressed fd, Sound fd t where
  index : ∀ ptr, IndexOf (t.session.channel ptr).index (t.use ptr)

variable {k : Masks} {fd : ℕ → ℤ} {t t' : History EpollPoller} {i : Step} {ptr : ℕ}
  {events : Mask} {c : Channel} {p : EpollPoller} {u : Use}

theorem kept_start (fd : ℕ → ℤ) : Kept fd (kind.start fd) where
  toAddressed := addressed_start new fd
  map _ _ := iff_of_false nofun fun h ↦ absurd (show Use.fresh = .registered from h.1) (by decide)
  reports _ _ _ := iff_of_false nofun fun h ↦
    absurd (show Use.fresh = .registered from h.1) (by decide)
  index _ := rfl

theorem Sound.directory (h : Sound fd t) :
    Directory t.session.poller.channels fd (t.use · = .registered) := h.map

/-- Without a registered channel the descriptor is in neither of the two. -/
theorem Sound.none_of (h : Sound fd t) {x : ℤ} (hx : ∀ ptr, t.use ptr = .registered → fd ptr ≠ x) :
    t.session.poller.channels x = none ∧ t.session.poller.interest x = none := by
  refine ⟨h.directory.eq_none hx, Option.eq_none_iff_forall_ne_some.mpr fun event hevent ↦ ?_⟩
  obtain ⟨hreg, hfd, -⟩ := (h.reports x event.1 event.2).mp hevent
  exact hx event.2 hreg hfd

/-- Two registered channels have different descriptors. -/
theorem Sound.injective (h : Sound fd t) {a b : ℕ} (ha : t.use a = .registered)
    (hb : t.use b = .registered) (hfd : fd a = fd b) : a = b :=
  h.directory.injective ha hb hfd

/-- A channel that is apart from the others stands with the poller as it was used. -/
theorem Kept.stands (h : Kept fd t) (hshared : Unshared fd t.use ptr) :
    ∃ st, t.session.poller.Stands (t.session.channel ptr) st ∧
      (st = .removed ↔ t.use ptr = .removed) := by
  have hcfd := h.fd_eq ptr
  have hcptr := h.ptr_eq ptr
  have hindex := h.index ptr
  have hnone (hreg : t.use ptr ≠ .registered) :=
    h.toSound.none_of (x := fd ptr) fun other hother hfd ↦
      hreg (hshared other hother hfd ▸ hother)
  cases hu : t.use ptr with
  | fresh =>
    rw [hu] at hindex
    obtain ⟨hmap, hset⟩ := hnone (by rw [hu]; decide)
    exact ⟨.fresh, ⟨hindex, hcfd ▸ hmap, hcfd ▸ hset⟩, by decide⟩
  | removed =>
    rw [hu] at hindex
    obtain ⟨hmap, hset⟩ := hnone (by rw [hu]; decide)
    exact ⟨.removed, ⟨hindex, hcfd ▸ hmap, hcfd ▸ hset⟩, by decide⟩
  | registered =>
    rw [hu] at hindex
    have hmap : t.session.poller.channels (t.session.channel ptr).fd =
        some (t.session.channel ptr).ptr := by
      rw [hcfd, hcptr]
      exact (h.map _ _).mpr ⟨hu, rfl⟩
    rcases hindex with hadded | hdeleted
    · refine ⟨.added, ⟨hadded, hmap, ?_⟩, by decide⟩
      rw [hcfd, (h.reports _ _ ptr).mpr ⟨hu, rfl, hadded, rfl⟩]
      rfl
    · refine ⟨.disabled, ⟨hdeleted, hmap, ?_⟩, by decide⟩
      refine Option.eq_none_iff_forall_ne_some.mpr fun event hevent ↦ ?_
      rw [hcfd] at hevent
      obtain ⟨hreg, hfd, hadded, -⟩ := (h.reports _ event.1 event.2).mp hevent
      rw [h.toSound.injective hreg hu hfd, hdeleted] at hadded
      exact absurd hadded (by decide)

/-! ## The steps -/

/-- The use of a channel that stands as named after a call on it. -/
def useOf : Standing → Use
  | .fresh => .fresh
  | .added | .disabled => .registered
  | .removed => .removed

/-- The map has a channel that stands as named when its use says so. -/
theorem channels_eq_iff {st : Standing} (hst : p.Stands c st) {a : ℕ} :
    p.channels c.fd = some a ↔ useOf st = .registered ∧ a = c.ptr := by
  cases st with
  | fresh | removed => exact iff_of_false (by rw [hst.2.1]; simp) fun h ↦ absurd h.1 (by decide)
  | added | disabled =>
    rw [hst.2.1, Option.some.injEq, eq_comm]
    exact (and_iff_right rfl).symm

/-- The index of a channel that stands as named is one of its use. -/
theorem indexOf_useOf {st : Standing} (hst : p.Stands c st) : IndexOf c.index (useOf st) := by
  cases st with
  | fresh | removed => exact hst.1
  | added => exact Or.inl hst.1
  | disabled => exact Or.inr hst.1

/-- The kernel reports a channel that stands as named when its index says so, with the events it was
given last. -/
theorem interest_eq_iff {st : Standing} (hst : p.Stands c st)
    (hevent : ∀ event ∈ p.interest c.fd, event = (c.events, c.ptr)) {m : Mask} {a : ℕ} :
    p.interest c.fd = some (m, a) ↔
      a = c.ptr ∧ useOf st = .registered ∧ c.index = kAdded ∧ c.events = m := by
  rw [hst.index_eq_iff]
  constructor
  · intro hset
    obtain rfl := hst.isSome_iff.mp (by rw [hset]; rfl)
    obtain ⟨rfl, rfl⟩ := Prod.mk.inj (hevent _ hset)
    exact ⟨rfl, rfl, rfl, rfl⟩
  · rintro ⟨rfl, -, rfl, rfl⟩
    obtain ⟨event, hset⟩ := Option.isSome_iff_exists.mp hst.2.2
    rw [hset, hevent event hset]

/-- The poller changes at the descriptor of one channel that is apart, which then stands as it
should. -/
theorem Kept.moves (h : Kept fd t) (hshared : Unshared fd t.use ptr) {q : EpollPoller}
    {st : Standing} (hptr : c.ptr = ptr) (hcfd : c.fd = fd ptr) (hst : q.Stands c st)
    (hevent : ∀ event ∈ q.interest c.fd, event = (c.events, ptr))
    (hkeep : ∀ x, x ≠ c.fd →
      q.channels x = t.session.poller.channels x ∧ q.interest x = t.session.poller.interest x) :
    Kept fd ⟨⟨q, Function.update t.session.channel ptr c⟩,
      Function.update t.use ptr (useOf st)⟩ := by
  have hself : Function.update t.use ptr (useOf st) ptr = useOf st := Function.update_self _ _ _
  have hchannel : Function.update t.session.channel ptr c ptr = c := Function.update_self _ _ _
  -- with the descriptor of the channel only the channel itself is registered
  have halone {a : ℕ} : Function.update t.use ptr (useOf st) a = .registered ∧ fd a = fd ptr ↔
      useOf st = .registered ∧ a = ptr := by
    by_cases ha : a = ptr
    · rw [ha, hself, and_iff_left rfl, and_iff_left rfl]
    · rw [Function.update_of_ne ha]
      exact iff_of_false (fun hreg ↦ ha (hshared a hreg.1 hreg.2)) fun hreg ↦ ha hreg.2
  refine ⟨h.toAddressed.update q hptr hcfd, ⟨h.directory.replace (x := fd ptr)
    (fun x hx ↦ (hkeep x (hcfd ▸ hx)).1) (fun a ha ↦ ?_) (fun a ↦ ?_), fun x m a ↦ ?_⟩, fun a ↦ ?_⟩
  · change Function.update t.use ptr (useOf st) a = .registered ↔ _
    rw [Function.update_of_ne fun hap ↦ ha (congrArg fd hap)]
  · change _ ↔ Function.update t.use ptr (useOf st) a = .registered ∧ _
    rw [halone, ← hcfd, ← hptr]
    exact channels_eq_iff hst
  · change q.interest x = some (m, a) ↔ Function.update t.use ptr (useOf st) a = .registered ∧
      fd a = x ∧ (Function.update t.session.channel ptr c a).index = kAdded ∧
        (Function.update t.session.channel ptr c a).events = m
    by_cases hx : x = fd ptr
    · rw [hx, ← and_assoc, halone, and_comm (a := useOf st = _), and_assoc, ← hcfd,
        interest_eq_iff hst (hptr.symm ▸ hevent), hptr]
      refine and_congr_right fun ha ↦ ?_
      rw [ha, hchannel]
    · rw [(hkeep x (hcfd ▸ hx)).2, h.reports x m a]
      by_cases ha : a = ptr
      · subst ha
        exact iff_of_false (fun hreg ↦ hx hreg.2.1.symm) fun hreg ↦ hx hreg.2.1.symm
      · rw [Function.update_of_ne ha, Function.update_of_ne ha]
  · change IndexOf (Function.update t.session.channel ptr c a).index
      (Function.update t.use ptr (useOf st) a)
    by_cases ha : a = ptr
    · rw [ha, hself, hchannel]
      exact indexOf_useOf hst
    · rw [Function.update_of_ne ha, Function.update_of_ne ha]
      exact h.index a

/-- A channel that was not removed is registered by an update. -/
theorem useOf_update {st : Standing} (hst : st ≠ .removed) (isNone : Bool) :
    useOf (st.update isNone) = .registered := by
  cases st with
  | fresh | disabled => rfl
  | added => cases isNone <;> rfl
  | removed => exact absurd rfl hst

/-- The step lemma: a call that is apart returns and keeps the books. -/
theorem Kept.step (h : Kept fd t) (hapart : Apart fd t i) :
    ∃ t', kind.call k t i = .ok t' ∧ Kept fd t' := by
  cases i with
  | updateChannel ptr events =>
    obtain ⟨hremoved, hshared⟩ := hapart
    obtain ⟨st, hst, hiff⟩ := h.stands hshared
    have hne : st ≠ .removed := fun hst ↦ hremoved (hiff.mp hst)
    have hgiven : t.session.poller.Stands (t.session.given ptr events) st :=
      (stands_congr rfl rfl rfl).mpr hst
    have hptr : (t.session.given ptr events).ptr = ptr := h.ptr_eq ptr
    obtain ⟨q, index, hq, hst', hevent⟩ := updateChannel_spec (k := k) hgiven hne
    rw [hptr] at hevent
    have hkept := h.moves hshared (c := { t.session.given ptr events with index := index })
      hptr (h.fd_eq ptr) hst' hevent fun x hx ↦
        updateChannel_of_ne (c := t.session.given ptr events) hx hq
    rw [useOf_update hne] at hkept
    refine ⟨_, ?_, hkept⟩
    rw [kind_call, EpollPoller.step, hq]
    rfl
  | removeChannel ptr =>
    obtain ⟨st, hst, -⟩ := h.stands hapart
    obtain ⟨q, hq, hst'⟩ := removeChannel_spec hst
    have hgone : q.interest (t.session.channel ptr).fd = none := hst'.2.2
    have hkept := h.moves hapart (c := { t.session.channel ptr with index := kDeleted })
      (h.ptr_eq ptr) (h.fd_eq ptr) hst'
      (fun event hmem ↦ absurd (hgone.symm.trans hmem) (Option.some_ne_none event).symm)
      fun x hx ↦ removeChannel_of_ne (c := t.session.channel ptr) hx hq
    refine ⟨_, ?_, hkept⟩
    rw [kind_call, EpollPoller.step, hq]
    rfl

/-- A removal takes the entry of the descriptor out of the map, whose ever it is. -/
theorem channels_removeChannel {q : EpollPoller × Channel} (h : p.removeChannel c = .ok q) :
    q.1.channels c.fd = none := by
  obtain ⟨updated, hupdated, h⟩ := bind_eq_ok.mp h
  obtain rfl := Except.ok.inj h
  change updated.channels c.fd = none
  split at hupdated
  · rw [EpollPoller.update] at hupdated
    split at hupdated
    · rw [← Except.ok.inj hupdated]
      exact Function.update_self _ _ _
    · obtain rfl := Except.ok.inj ((if_pos rfl).symm.trans hupdated)
      exact Function.update_self _ _ _
  · rw [← Except.ok.inj hupdated]
    exact Function.update_self _ _ _

/-- A call that is not apart fails an assert or leaves books that are not sound. -/
theorem Kept.apart_of_recycles (h : Kept fd t) (hrec : Recycles k fd t i) : Apart fd t i := by
  obtain ⟨t', ht', hsound⟩ := hrec.2.exists_ok
  rw [kind_call] at ht'
  obtain ⟨s, hs, heq⟩ := bind_eq_ok.mp ht'
  obtain rfl := Except.ok.inj heq
  cases i with
  | updateChannel ptr events =>
    obtain ⟨q, hq, hs⟩ := bind_eq_ok.mp hs
    have hreg : Function.update t.use ptr .registered ptr = .registered :=
      Function.update_self _ _ _
    refine ⟨fun hremoved ↦ ?_, fun other hother hfd ↦ ?_⟩
    · -- the map has no entry for the channel, which the assert asks for
      have hindex := h.index ptr
      rw [hremoved] at hindex
      have hdeleted : (t.session.given ptr events).index = kDeleted := hindex
      have hmap : t.session.poller.channels (t.session.given ptr events).fd ≠
          some (t.session.given ptr events).ptr := by
        change t.session.poller.channels (t.session.channel ptr).fd ≠
          some (t.session.channel ptr).ptr
        rw [h.fd_eq, h.ptr_eq]
        intro hmap
        rw [((h.map _ _).mp hmap).1] at hremoved
        exact absurd hremoved (by decide)
      have hnew : (t.session.given ptr events).index ≠ kNew := by
        rw [hdeleted]
        decide
      rw [EpollPoller.updateChannel, if_pos (Or.inr hdeleted), if_neg hnew, check_neg hmap] at hq
      exact absurd hq error_ne_ok
    · by_cases hne : other = ptr
      · exact hne
      · refine hsound.injective (a := other) (b := ptr) ?_ hreg hfd
        exact (Function.update_of_ne hne _ t.use).trans hother
  | removeChannel ptr =>
    intro other hother hfd
    by_contra hne
    obtain ⟨q, hq, hs⟩ := bind_eq_ok.mp hs
    obtain rfl := Except.ok.inj hs
    have hgone := channels_removeChannel hq
    rw [h.fd_eq, ← hfd] at hgone
    have hreg : Function.update t.use ptr .removed other = .registered :=
      (Function.update_of_ne hne _ t.use).trans hother
    exact absurd (((hsound.map (fd other) other).mpr ⟨hreg, rfl⟩).symm.trans hgone)
      (Option.some_ne_none other)

/-! ## Whole runs -/

/-- **Descriptors that are used again.** Whatever descriptors the channels have, and whatever calls
are made: the map has exactly the registered channels under their descriptors, the kernel reports
only these, and no call stops, exactly as long as no call meets another registered channel with the
same descriptor and no channel is updated after its removal. -/
theorem recycles_iff_apart (k : Masks) (fd : ℕ → ℤ) (steps : List Step) :
    Along (kind.call k) (Recycles k fd) (kind.start fd) steps ↔
      Along (kind.call k) (Apart fd) (kind.start fd) steps := by
  refine along_congr (I := Kept fd) (fun t i t' h hapart ht' ↦ ?_) (fun t i h ↦ ⟨?_, ?_⟩)
    (kept_start fd)
  · obtain ⟨u, hu, hkept⟩ := h.step (k := k) hapart
    exact Except.ok.inj (hu.symm.trans ht') ▸ hkept
  · exact h.apart_of_recycles
  · intro hapart
    obtain ⟨t', ht', hkept⟩ := h.step (k := k) hapart
    refine ⟨h.toSound, ?_⟩
    rw [ht']
    exact hkept.toSound

/-- A channel that was never registered is removed, and the one with its descriptor is lost. -/
example :
    Outcome (run (kind.call Twin.masks) (kind.start fun _ ↦ 7)
        [.updateChannel 5 EPOLLIN, .removeChannel 6])
      (fun t ↦ t.use 5 = .registered ∧ t.session.poller.channels 7 = none ∧
        t.session.poller.interest 7 = some (EPOLLIN, 5)) fun _ ↦ False := by decide

end EpollPoller

end Twnl
