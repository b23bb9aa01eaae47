import Twnl.Poller.Session

/-!
# The epoll poller agrees with the kernel

Whatever channels are updated and removed, in whatever order and with whatever events, the index of
a channel tells whether its descriptor is in the interest set, every entry there is that of a
registered channel, with its pointer and the events of its last update, and every call of
`epoll_ctl` finds what it is for (`agrees_always`).

The invariant is that each channel stands with the poller in one of the four ways of `Standing`. A
channel that was removed stays removed: its next update fails the assert that looks it up in the
map, and this is the only way in which a run can stop.
-/

namespace Twnl

namespace EpollPoller

open Machine Poller Poller.Session

/-- A call that found what it is for: what was added was not there yet, and what was modified or
deleted was; so it did not fail. -/
def Finds (call : EpollCall) : Prop :=
  (call.op = .ADD ↔ call.present = false) ∧ call.succeeded = true

/-- What the poller, its channels and the kernel agree on. -/
structure Agrees (fd : ℕ → ℤ) (s : Session EpollPoller) : Prop where
  /-- The index tells whether the kernel watches the descriptor. -/
  index : ∀ ptr, (s.channel ptr).index = kAdded ↔ (s.poller.interest (fd ptr)).isSome
  /-- An entry has the pointer of the channel and the events it was given last. -/
  event : ∀ ptr, ∀ event ∈ s.poller.interest (fd ptr), event = ((s.channel ptr).events, ptr)
  /-- An entry is that of a channel in the map. -/
  registered : ∀ x, ∀ event ∈ s.poller.interest x,
    x = fd event.2 ∧ s.poller.channels x = some event.2
  /-- Every call of `epoll_ctl` that was made found what it is for. -/
  calls : ∀ call ∈ s.poller.calls, Finds call

/-- After a removal the descriptor is in neither of the two. -/
def Gone (fd : ℕ → ℤ) (s : Session EpollPoller) : Step → Prop
  | .updateChannel _ _ => True
  | .removeChannel ptr => s.poller.channels (fd ptr) = none ∧ s.poller.interest (fd ptr) = none

/-- What is so at a step: the poller and the kernel agree, and they agree again, on the calls that
the step makes too, unless an assert of `updateChannel` fails. -/
def Agreement (k : Masks) (fd : ℕ → ℤ) (s : Session EpollPoller) (i : Step) : Prop :=
  Agrees fd s ∧
    Outcome (step k s i) (fun t ↦ Agrees fd t ∧ Gone fd t i) (· = .assertion .epollUpdateChannel)

/-! ## The invariant -/

/-- Every channel stands with the poller, and no descriptor is watched but those of the channels. -/
structure Enrolled (fd : ℕ → ℤ) (s : Session EpollPoller) : Prop extends s.Addressed fd where
  stands : ∀ ptr, ∃ st, s.poller.Stands (s.channel ptr) st
  event : ∀ ptr, ∀ event ∈ s.poller.interest (fd ptr), event = ((s.channel ptr).events, ptr)
  others : ∀ x, (∀ ptr, fd ptr ≠ x) → s.poller.interest x = none
  calls : ∀ call ∈ s.poller.calls, Finds call

variable {k : Masks} {fd : ℕ → ℤ} {s t : Session EpollPoller} {i : Step} {ptr : ℕ}
  {events : Mask} {c : Channel} {p p' : EpollPoller} {q : EpollPoller × Channel} {st : Standing}

theorem enrolled_start (fd : ℕ → ℤ) : Enrolled fd (start new fd) where
  toAddressed := addressed_start new fd
  stands _ := ⟨.fresh, rfl, rfl, rfl⟩
  event _ _ h := absurd h nofun
  others _ _ := rfl
  calls _ h := absurd h List.not_mem_nil

/-- The index is `kAdded` in one standing only. -/
theorem Stands.index_eq_iff (h : p.Stands c st) : c.index = kAdded ↔ st = .added := by
  cases st with
  | added => exact iff_of_true h.1 rfl
  | fresh | disabled | removed =>
    refine iff_of_false ?_ nofun
    rw [h.1]
    decide

/-- So is the kernel's entry there. -/
theorem Stands.isSome_iff (h : p.Stands c st) : (p.interest c.fd).isSome ↔ st = .added := by
  cases st with
  | added => exact iff_of_true h.2.2 rfl
  | fresh | disabled | removed =>
    refine iff_of_false ?_ nofun
    rw [h.2.2]
    exact Bool.false_ne_true

theorem Enrolled.agrees (h : Enrolled fd s) : Agrees fd s where
  index ptr := by
    obtain ⟨st, hst⟩ := h.stands ptr
    rw [← h.fd_eq ptr, hst.index_eq_iff, hst.isSome_iff]
  event := h.event
  registered x event hevent := by
    -- the descriptor is that of some channel, which is added
    obtain ⟨ptr, rfl⟩ : ∃ ptr, fd ptr = x := by
      by_contra hx
      rw [h.others x (not_exists.mp hx)] at hevent
      exact absurd hevent nofun
    obtain rfl := h.event ptr event hevent
    obtain ⟨st, hst⟩ := h.stands ptr
    have hsome : (s.poller.interest (s.channel ptr).fd).isSome := by
      rw [h.fd_eq ptr]
      exact Option.isSome_of_mem hevent
    obtain rfl := hst.isSome_iff.mp hsome
    refine ⟨rfl, ?_⟩
    rw [← h.fd_eq ptr, hst.2.1, h.ptr_eq ptr]
  calls := h.calls

/-! ## The calls of `epoll_ctl` -/

theorem epollCtl_isSome {interest : InterestSet} {op : EpollOp} {x : ℤ} {event : Mask × ℕ}
    (h : op = .ADD ↔ interest x = none) : (epollCtl interest op x event).isSome := by
  unfold epollCtl
  cases op with
  | ADD =>
    rw [h.mp rfl]
    rfl
  | MOD | DEL =>
    obtain ⟨old, hold⟩ := Option.ne_none_iff_exists'.mp fun hnone ↦ absurd (h.mpr hnone) nofun
    rw [hold]
    rfl

/-- A call that is for what it finds is recorded as such. -/
theorem update_calls {op : EpollOp} (h : op = .ADD ↔ p.interest c.fd = none)
    (hupdate : p.update op c = .ok p') :
    ∃ call, p'.calls = p.calls ++ [call] ∧ Finds call := by
  obtain ⟨interest, hctl⟩ : ∃ interest, epollCtl p.interest op c.fd (c.events, c.ptr) =
    some interest := Option.isSome_iff_exists.mp (epollCtl_isSome h)
  rw [EpollPoller.update, hctl] at hupdate
  rw [← Except.ok.inj hupdate]
  have hpresent : (p.interest c.fd).isSome = false ↔ p.interest c.fd = none :=
    Option.isSome_eq_false_iff.trans Option.isNone_iff_eq_none
  exact ⟨_, rfl, h.trans hpresent.symm, rfl⟩

/-- An update adds a channel that is not in the interest set, and modifies or deletes one that is. -/
theorem Stands.updateChannel_calls (h : p.Stands c st) (hq : updateChannel k p c = .ok q) :
    ∃ call, q.1.calls = p.calls ++ [call] ∧ Finds call := by
  obtain ⟨entered, op, _, hsame, hop, hupdated, -⟩ := updateChannel_ctl hq
  have hfinds : op = .ADD ↔ entered.interest c.fd = none := by
    rw [hop, hsame.interest]
    cases st with
    | fresh => exact iff_of_true (Or.inl h.1) h.2.2
    | disabled | removed => exact iff_of_true (Or.inr h.1) h.2.2
    | added =>
      have hset : p.interest c.fd ≠ none := Option.isSome_iff_ne_none.mp h.2.2
      refine iff_of_false ?_ hset
      rw [h.1]
      decide
  rw [← hsame.calls]
  exact update_calls hfinds hupdated

/-- A removal deletes a channel that is in the interest set, or calls nothing. -/
theorem Stands.removeChannel_calls (h : p.Stands c st) (hq : removeChannel p c = .ok q) :
    ∃ made : List EpollCall, q.1.calls = p.calls ++ made ∧ ∀ call ∈ made, Finds call := by
  obtain ⟨erased, hsame, ⟨hadded, hdeleted⟩ | hskipped, -⟩ := removeChannel_ctl hq
  · have hset : erased.interest c.fd ≠ none := by
      rw [hsame.interest]
      exact Option.isSome_iff_ne_none.mp (h.isSome_iff.mpr (h.index_eq_iff.mp hadded))
    have hop : EpollOp.DEL = .ADD ↔ erased.interest c.fd = none := iff_of_false nofun hset
    obtain ⟨call, hcall, hfinds⟩ := update_calls hop hdeleted
    refine ⟨[call], by rw [hcall, hsame.calls], fun other hother ↦ ?_⟩
    rw [List.mem_singleton.mp hother]
    exact hfinds
  · refine ⟨[], ?_, fun call hcall ↦ absurd hcall List.not_mem_nil⟩
    rw [hskipped, hsame.calls, List.append_nil]

/-! ## The steps -/

/-- A standing is about the entries of the channel's own descriptor. -/
theorem Stands.congr {q : EpollPoller} (h : p.Stands c st)
    (hmap : q.channels c.fd = p.channels c.fd)
    (hset : q.interest c.fd = p.interest c.fd) : q.Stands c st := by
  cases st with
  | fresh | added | disabled | removed => exact ⟨h.1, hmap ▸ h.2.1, hset ▸ h.2.2⟩

/-- What a call on the channel at `ptr` leaves: that channel in a standing, and the others in those
they had. -/
structure Moves (fd : ℕ → ℤ) (s t : Session EpollPoller) (ptr : ℕ) (st : Standing) (events : Mask) :
    Prop extends Enrolled fd t where
  self : t.poller.Stands (t.channel ptr) st
  events_eq : (t.channel ptr).events = events
  frame : ∀ other ≠ ptr, t.channel other = s.channel other ∧
    ∀ st', s.poller.Stands (s.channel other) st' → t.poller.Stands (t.channel other) st'

/-- The poller changes at the descriptor of one channel, which then stands as it should. -/
theorem Enrolled.moves (h : Enrolled fd s) (hfd : fd.Injective) {q : EpollPoller}
    (hptr : c.ptr = ptr) (hcfd : c.fd = fd ptr) (hst : q.Stands c st)
    (hevent : ∀ event ∈ q.interest c.fd, event = (c.events, ptr))
    {made : List EpollCall} (hcalls : q.calls = s.poller.calls ++ made)
    (hfinds : ∀ call ∈ made, Finds call)
    (hkeep : ∀ x, x ≠ c.fd →
      q.channels x = s.poller.channels x ∧ q.interest x = s.poller.interest x) :
    Moves fd s ⟨q, Function.update s.channel ptr c⟩ ptr st c.events := by
  have hne {other : ℕ} (hother : other ≠ ptr) : fd other ≠ c.fd := fun heq ↦
    hother (hfd (heq.trans hcfd))
  have hself : q.Stands (Function.update s.channel ptr c ptr) st := by
    rw [Function.update_self]
    exact hst
  have hframe (other : ℕ) (hother : other ≠ ptr) :
      Function.update s.channel ptr c other = s.channel other ∧
      ∀ st', s.poller.Stands (s.channel other) st' →
        q.Stands (Function.update s.channel ptr c other) st' := by
    rw [Function.update_of_ne hother]
    obtain ⟨hmap, hset⟩ := hkeep _ (h.fd_eq other ▸ hne hother)
    exact ⟨rfl, fun st' hst' ↦ hst'.congr hmap hset⟩
  refine ⟨⟨h.toAddressed.update _ hptr hcfd, fun other ↦ ?_, ?_, fun x hx ↦ ?_,
    fun call hcall ↦ ?_⟩, hself, congrArg Channel.events (Function.update_self ptr c s.channel),
    hframe⟩
  · by_cases hother : other = ptr
    · rw [hother]
      exact ⟨st, hself⟩
    · obtain ⟨st', hst'⟩ := h.stands other
      exact ⟨st', (hframe other hother).2 st' hst'⟩
  · refine (Function.forall_update_iff s.channel fun a d ↦
      ∀ event ∈ q.interest (fd a), event = (d.events, a)).mpr
      ⟨hcfd ▸ hevent, fun other hother event hmem ↦ ?_⟩
    rw [(hkeep _ (hne hother)).2] at hmem
    exact h.event other event hmem
  · have hxc : x ≠ c.fd := fun heq ↦ hx ptr (heq.trans hcfd).symm
    exact (hkeep x hxc).2.trans (h.others x hx)
  · change call ∈ q.calls at hcall
    rw [hcalls] at hcall
    exact (List.mem_append.mp hcall).elim (h.calls call) (hfinds call)

/-- An update of a channel that was not removed returns. -/
theorem Enrolled.updateChannel (h : Enrolled fd s) (hfd : fd.Injective) (events : Mask)
    (hst : s.poller.Stands (s.channel ptr) st) (hremoved : st ≠ .removed) :
    ∃ t, step k s (.updateChannel ptr events) = .ok t ∧
      Moves fd s t ptr (st.update ((s.given ptr events).isNoneEvent k)) events := by
  replace hst : s.poller.Stands (s.given ptr events) st := (stands_congr rfl rfl rfl).mpr hst
  have hptr : (s.given ptr events).ptr = ptr := h.ptr_eq ptr
  obtain ⟨q, index, hq, hst', hevent⟩ := updateChannel_spec (k := k) hst hremoved
  rw [hptr] at hevent
  refine ⟨⟨q, Function.update s.channel ptr { s.given ptr events with index := index }⟩, ?_, ?_⟩
  · rw [step, hq]
    rfl
  · obtain ⟨call, hcall, hfinds⟩ := hst.updateChannel_calls hq
    refine h.moves hfd hptr (h.fd_eq ptr) hst' hevent hcall (fun other hother ↦ ?_) fun x hx ↦ ?_
    · rw [List.mem_singleton.mp hother]
      exact hfinds
    · exact updateChannel_of_ne (c := s.given ptr events) hx hq

/-- An update of a channel that was removed fails an assert. -/
theorem Stands.updateChannel_removed (h : s.poller.Stands (s.channel ptr) .removed) :
    step k s (.updateChannel ptr events) = .error (.assertion .epollUpdateChannel) := by
  replace h : s.poller.Stands (s.given ptr events) .removed := (stands_congr rfl rfl rfl).mpr h
  obtain ⟨hindex, hmap, -⟩ := h
  have hold : (s.given ptr events).index ≠ kNew := by rw [hindex]; decide
  have hcheck : s.poller.channels (s.given ptr events).fd ≠ some (s.given ptr events).ptr := by
    rw [hmap]
    exact nofun
  simp only [step, EpollPoller.updateChannel, if_pos (Or.inr hindex), if_neg hold,
    check_neg hcheck, bind_error]

/-- A removal returns. -/
theorem Enrolled.removeChannel (h : Enrolled fd s) (hfd : fd.Injective) (ptr : ℕ) :
    ∃ t, step k s (.removeChannel ptr) = .ok t ∧
      Moves fd s t ptr .removed (s.channel ptr).events := by
  obtain ⟨st, hst⟩ := h.stands ptr
  obtain ⟨q, hq, hst'⟩ := removeChannel_spec hst
  have hgone : q.interest (s.channel ptr).fd = none := hst'.2.2
  obtain ⟨made, hmade, hfinds⟩ := hst.removeChannel_calls hq
  refine ⟨⟨q, Function.update s.channel ptr { s.channel ptr with index := kDeleted }⟩, ?_,
    h.moves hfd (h.ptr_eq ptr) (h.fd_eq ptr) hst' (fun event hmem ↦ ?_) hmade hfinds
      fun x hx ↦ ?_⟩
  · rw [step, hq]
    rfl
  · change event ∈ q.interest (s.channel ptr).fd at hmem
    rw [hgone] at hmem
    exact absurd hmem nofun
  · exact removeChannel_of_ne (c := s.channel ptr) hx hq

/-- The step lemma. -/
theorem Enrolled.step (h : Enrolled fd s) (hfd : fd.Injective) :
    Outcome (step k s i) (fun t ↦ Enrolled fd t ∧ Gone fd t i)
      (· = .assertion .epollUpdateChannel) := by
  cases i with
  | updateChannel ptr events =>
    obtain ⟨st, hst⟩ := h.stands ptr
    by_cases hremoved : st = .removed
    · subst hremoved
      rw [hst.updateChannel_removed]
      rfl
    · obtain ⟨t, ht, hmoves⟩ := h.updateChannel (k := k) hfd events hst hremoved
      rw [ht]
      exact ⟨hmoves.toEnrolled, trivial⟩
  | removeChannel ptr =>
    obtain ⟨t, ht, hmoves⟩ := h.removeChannel (k := k) hfd ptr
    rw [ht]
    refine ⟨hmoves.toEnrolled, ?_⟩
    rw [Gone, ← hmoves.fd_eq ptr]
    exact hmoves.self.2

/-- **The epoll poller agrees with the kernel.** At every step of every sequence of updates and
removals of channels with descriptors of their own, the poller and the kernel agree, every call of
`epoll_ctl` found what it is for, and either the step returns, so it is again and a removed channel
is in neither, or an assert of `updateChannel` fails. -/
theorem agrees_always (k : Masks) {fd : ℕ → ℤ} (hfd : fd.Injective) (steps : List Step) :
    Along (step k) (Agreement k fd) (start new fd) steps := by
  refine Along.guarantee (Q := fun _ _ ↦ True) (I := Enrolled fd) ?_ ?_
    (along_of_forall fun _ _ ↦ trivial) (enrolled_start fd)
  · exact fun s i t hs _ ht ↦ ((hs.step hfd).of_ok ht).1
  · exact fun s i hs _ ↦ ⟨hs.agrees, (hs.step hfd).imp fun t ht ↦ ⟨ht.1.agrees, ht.2⟩⟩

/-- Two channels, one of them switched off and on again, then off, and removed. -/
theorem agrees_two :
    (∃ t, run (step (Masks.initDefaultEvent .LT)) (start new fun ptr ↦ ptr)
      [.updateChannel 5 EPOLLIN, .updateChannel 7 EPOLLOUT, .updateChannel 5 0,
        .updateChannel 5 EPOLLIN, .updateChannel 5 0, .removeChannel 5] = .ok t) ∧
    Along (step (Masks.initDefaultEvent .LT))
      (Agreement (Masks.initDefaultEvent .LT) fun ptr ↦ ptr) (start new fun ptr ↦ ptr)
      [.updateChannel 5 EPOLLIN, .updateChannel 7 EPOLLOUT, .updateChannel 5 0,
        .updateChannel 5 EPOLLIN, .updateChannel 5 0, .removeChannel 5] :=
  ⟨⟨_, rfl⟩, agrees_always _ (fun _ _ ↦ Int.ofNat.inj) _⟩

end EpollPoller

end Twnl
