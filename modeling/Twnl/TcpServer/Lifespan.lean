import Mathlib.Data.List.Basic
import Twnl.TcpServer.References

/-!
# How long a connection lives

While `connectDestroyed` has not run there is a strong reference: at first the entry in the map, and
once that is erased the functor of `connectDestroyed` itself, in the queue of the loop and then in
its batch (`Kept`).

Afterwards nothing keeps the connection but its user threads. A functor with the bare `this` that
one of them has queued, and that did not get into the batch of `connectDestroyed`, is left without
the object it is for when the last of them drops its reference, or when the batch ends and there is
none. In a build without the asserts such a functor can also have the removed channel watched again,
and then the poller, too, has a bare pointer: what it has reported is left like the functor, and it
may report the channel while the connection goes. These are the only steps that can go wrong
(`counted_iff_careful`).
-/

namespace Twnl

namespace TcpServer

namespace Lifespan

open Machine

/-! ## The law -/

/-- A functor of the connection is queued or runs, or a callback of its channel may be called. -/
def Needed (s : Lifespan) : Prop :=
  (∃ loop, (s.rounds loop).pendingFunctors ++ (s.rounds loop).left ≠ []) ∨
    s.active = true ∨ s.handling = true

/-- What needs the connection has it. -/
def Counted (s : Lifespan) : Prop := s.Needed → s.Held

/-- `connectDestroyed` has run, and neither a functor nor `handleClose` holds a reference. -/
def Gone (s : Lifespan) : Prop :=
  s.destroyed = true ∧ s.closing = false ∧ ¬s.BoundIn .base ∧ ¬s.BoundIn .io

/-- A functor with the bare `this` has not returned, or the loop has the channel among those it
handles the events of. -/
def Waits (s : Lifespan) : Prop :=
  (∃ f ∈ (s.rounds .io).pendingFunctors ++ (s.rounds .io).left, ¬f.Strong) ∨
    s.active = true ∨ s.handling = true

instance : DecidablePred Gone := fun _ ↦ inferInstanceAs (Decidable (_ ∧ _))

instance : DecidablePred Waits := fun _ ↦ inferInstanceAs (Decidable ((∃ f ∈ _, _) ∨ _))

/-- Nothing with the bare `this` waits when the last user thread drops its reference after
`connectDestroyed`, or when a batch ends then and there is no user thread; and `poll` does not
report the channel between the last reference and the close of the socket. -/
def Careful (s : Lifespan) : Step → Prop
  | .drops u | .dropsHere u => s.holders = [u] → s.Gone → ¬s.Waits
  | .ends loop => s.holders = [] → (s.ended loop).Gone → ¬s.Waits
  | .reports => s.holders = [] → ¬s.Gone
  | .acquires _ | .closes | .callBegins _ _ | .callSets _ _ | .callQueues _ _ | .callHere _ _ _
  | .handleEvent | .callback _ | .callbackReturns | .eventReturns | .swap _ | .calls _ _
  | .returns _ => True

instance (s : Lifespan) : DecidablePred s.Careful
  | .drops _ | .dropsHere _ | .ends _ => inferInstanceAs (Decidable (_ → _ → _))
  | .reports => inferInstanceAs (Decidable (_ → _))
  | .acquires _ | .closes | .callBegins _ _ | .callSets _ _ | .callQueues _ _ | .callHere _ _ _
  | .handleEvent | .callback _ | .callbackReturns | .eventReturns | .swap _ | .calls _ _
  | .returns _ => inferInstanceAs (Decidable True)

/-! ## The invariant -/

structure Kept (s : Lifespan) : Prop where
  batch : ∀ loop, ∀ f ∈ (s.rounds loop).left, f ∈ (s.rounds loop).functors
  base : ∀ f ∈ (s.rounds .base).pendingFunctors ++ (s.rounds .base).functors,
    f = .removeConnectionInLoop
  /-- Until it has run, the connection is in the map or `connectDestroyed` is on its way. -/
  chain : s.destroyed = false → s.mapped = true ∨
    .connectDestroyed ∈ (s.rounds .io).pendingFunctors ++ (s.rounds .io).left
  unmapped : s.destroyed = true ∨
    .connectDestroyed ∈ (s.rounds .io).pendingFunctors ++ (s.rounds .io).functors →
      s.mapped = false
  /-- The loop handles events or runs a batch. -/
  watched : s.active = true ∨ s.handling = true → (s.rounds .io).functors = []
  within : s.inCallback = true → s.handling = true
  guarded : s.closing = true → s.inCallback = true ∨
    (s.rounds .io).calling = true ∧ (s.rounds .io).left.head? = some .forceCloseInLoop
  users : ∀ u c, (u, c) ∈ s.calls ∨ (u, c) ∈ s.queueing → u ∈ s.holders

variable {build : Build} {s s' t : Lifespan} {i : Step} {f : Naming} {loop : LoopRole} {u : ℕ} {c : ConnCall}
  {sent : Sent} {r : Round}

/-- Before a batch there is nothing left of one. -/
theorem Kept.left_nil (h : Kept s) (hfunctors : (s.rounds loop).functors = []) :
    (s.rounds loop).left = [] := by
  refine List.eq_nil_iff_forall_not_mem.mpr fun f hf ↦ ?_
  have hmem := h.batch loop f hf
  rw [hfunctors] at hmem
  exact absurd hmem List.not_mem_nil

/-- Without a reference there are no users, and nothing that binds one. -/
theorem Kept.not_held_iff (h : Kept s) : ¬s.Held ↔ s.holders = [] ∧ s.Gone := by
  constructor
  · intro hnot
    simp only [Held, not_or, not_not] at hnot
    obtain ⟨hmapped, hclosing, hholders, hbase, hio⟩ := hnot
    refine ⟨hholders, ?_, Bool.eq_false_iff.mpr hclosing, hbase, hio⟩
    by_contra hdestroyed
    rcases h.chain (Bool.eq_false_iff.mpr hdestroyed) with hmap | hmem
    · exact hmapped hmap
    · refine hio ⟨.connectDestroyed, ?_, trivial⟩
      rcases List.mem_append.mp hmem with hmem | hmem
      · exact List.mem_append_left _ hmem
      · exact List.mem_append_right _ (h.batch .io _ hmem)
  · rintro ⟨hholders, hdestroyed, hclosed, hbase, hio⟩ (hmapped | hclosing | hne | hbound | hbound)
    · exact Bool.false_ne_true ((h.unmapped (Or.inl hdestroyed)).symm.trans hmapped)
    · exact Bool.false_ne_true (hclosed.symm.trans hclosing)
    · exact hne hholders
    · exact hbase hbound
    · exact hio hbound

theorem Kept.counted_iff (h : Kept s) : Counted s ↔ (s.Waits → s.Held) := by
  constructor
  · rintro hcounted (⟨f, hf, -⟩ | hwatched)
    · exact hcounted (Or.inl ⟨.io, List.ne_nil_of_mem hf⟩)
    · exact hcounted (Or.inr hwatched)
  · rintro hwaits (⟨loop, hne⟩ | hwatched)
    · obtain ⟨f, hf⟩ := List.exists_mem_of_ne_nil _ hne
      have hf' : f ∈ (s.rounds loop).pendingFunctors ++ (s.rounds loop).functors := by
        rcases List.mem_append.mp hf with hf | hf
        · exact List.mem_append_left _ hf
        · exact List.mem_append_right _ (h.batch loop f hf)
      by_cases hstrong : f.Strong
      · cases loop with
        | base => exact Or.inr (Or.inr (Or.inr (Or.inl ⟨f, hf', hstrong⟩)))
        | io => exact Or.inr (Or.inr (Or.inr (Or.inr ⟨f, hf', hstrong⟩)))
      · cases loop with
        | base =>
          obtain rfl := h.base f hf'
          exact absurd trivial hstrong
        | io => exact hwaits (Or.inl ⟨f, hf, hstrong⟩)
    · exact hwaits (Or.inr hwatched)

/-! ## What the code does to the references -/

/-- Nothing is done to the references but that functors are queued which hold one. -/
structure Tame (s s' : Lifespan) : Prop where
  mapped : s'.mapped = s.mapped
  closing : s'.closing = s.closing
  holders : s'.holders = s.holders
  calls : s'.calls = s.calls
  queueing : s'.queueing = s.queueing
  active : s'.active = s.active
  handling : s'.handling = s.handling
  inCallback : s'.inCallback = s.inCallback
  destroyed : s'.destroyed = s.destroyed
  base : s'.rounds .base = s.rounds .base
  queued : ∃ fs, (∀ f ∈ fs, f.Strong ∧ f ≠ .connectDestroyed) ∧
    s'.rounds .io = { s.rounds .io with pendingFunctors := (s.rounds .io).pendingFunctors ++ fs }

namespace Tame

theorem of_rounds_eq (hmapped : s'.mapped = s.mapped) (hclosing : s'.closing = s.closing)
    (hholders : s'.holders = s.holders) (hcalls : s'.calls = s.calls)
    (hqueueing : s'.queueing = s.queueing) (hactive : s'.active = s.active)
    (hhandling : s'.handling = s.handling) (hinCallback : s'.inCallback = s.inCallback)
    (hdestroyed : s'.destroyed = s.destroyed) (hrounds : s'.rounds = s.rounds) :
    Tame s s' :=
  ⟨hmapped, hclosing, hholders, hcalls, hqueueing, hactive, hhandling, hinCallback, hdestroyed,
    by rw [hrounds], [], nofun, by rw [hrounds, List.append_nil]⟩

theorem refl (s : Lifespan) : Tame s s :=
  of_rounds_eq rfl rfl rfl rfl rfl rfl rfl rfl rfl rfl

theorem trans (h : Tame s s') (h' : Tame s' t) : Tame s t := by
  obtain ⟨fs, hfs, hio⟩ := h.queued
  obtain ⟨gs, hgs, hio'⟩ := h'.queued
  refine ⟨h'.mapped.trans h.mapped, h'.closing.trans h.closing, h'.holders.trans h.holders,
    h'.calls.trans h.calls, h'.queueing.trans h.queueing, h'.active.trans h.active,
    h'.handling.trans h.handling, h'.inCallback.trans h.inCallback, h'.destroyed.trans h.destroyed,
    h'.base.trans h.base, fs ++ gs, fun f hf ↦ ?_, ?_⟩
  · exact (List.mem_append.mp hf).elim (hfs f) (hgs f)
  · rw [hio', hio, List.append_assoc]

theorem setState (s : Lifespan) (state : StateE) : Tame s (s.setState state) :=
  of_rounds_eq rfl rfl rfl rfl rfl rfl rfl rfl rfl rfl

theorem queueInLoop (s : Lifespan) (hstrong : f.Strong) (hf : f ≠ .connectDestroyed) :
    Tame s (s.queueInLoop .io f) := by
  refine ⟨rfl, rfl, rfl, rfl, rfl, rfl, rfl, rfl, rfl, rfl, [f], fun g hg ↦ ?_, rfl⟩
  rw [List.mem_singleton.mp hg]
  exact ⟨hstrong, hf⟩

theorem notice (s : Lifespan) (p : Bool) (hstrong : f.Strong) (hf : f ≠ .connectDestroyed) :
    Tame s (s.notice p f) := by
  rw [Lifespan.notice]
  split
  · exact queueInLoop s hstrong hf
  · exact refl s

theorem setInterest {isReading isWriting : Bool}
    (hs' : s.setInterest build isReading isWriting = .ok s') : Tame s s' := by
  obtain ⟨⟨⟩, -, hs'⟩ := bind_eq_ok.mp hs'
  obtain rfl := Except.ok.inj hs'
  exact of_rounds_eq rfl rfl rfl rfl rfl rfl rfl rfl rfl rfl

theorem startReadInLoop (hs' : s.startReadInLoop build = .ok s') : Tame s s' := by
  rw [Lifespan.startReadInLoop] at hs'
  split at hs'
  · obtain ⟨t, ht, hs'⟩ := bind_eq_ok.mp hs'
    obtain rfl := Except.ok.inj hs'
    exact (setInterest ht).trans (of_rounds_eq rfl rfl rfl rfl rfl rfl rfl rfl rfl rfl)
  · obtain rfl := Except.ok.inj hs'
    exact refl s

theorem stopReadInLoop (hs' : s.stopReadInLoop build = .ok s') : Tame s s' := by
  rw [Lifespan.stopReadInLoop] at hs'
  split at hs'
  · obtain ⟨t, ht, hs'⟩ := bind_eq_ok.mp hs'
    obtain rfl := Except.ok.inj hs'
    exact (setInterest ht).trans (of_rounds_eq rfl rfl rfl rfl rfl rfl rfl rfl rfl rfl)
  · obtain rfl := Except.ok.inj hs'
    exact refl s

theorem sendInLoop (hs' : s.sendInLoop build sent = .ok s') : Tame s s' := by
  unfold Lifespan.sendInLoop at hs'
  split at hs'
  · obtain rfl := Except.ok.inj hs'
    exact refl s
  · cases sent with
    | waits =>
      obtain rfl := Except.ok.inj hs'
      exact refl s
    | all p =>
      obtain rfl := Except.ok.inj hs'
      exact notice s p trivial nofun
    | some p =>
      exact (notice (f := .highWaterMarkCallback) s p trivial nofun).trans (setInterest hs')

theorem handleWrite (hs' : s.handleWrite build sent = .ok s') : Tame s s' := by
  unfold Lifespan.handleWrite at hs'
  split at hs'
  · obtain ⟨t, ht, hs'⟩ := bind_eq_ok.mp hs'
    obtain rfl := Except.ok.inj hs'
    exact (setInterest ht).trans (notice t _ trivial nofun)
  all_goals
    obtain rfl := Except.ok.inj hs'
    exact refl s

theorem connectEstablished (hs' : s.connectEstablished build = .ok s') : Tame s s' := by
  obtain ⟨⟨⟩, -, hs'⟩ := bind_eq_ok.mp hs'
  exact (setState s _).trans (setInterest hs')

theorem connectDestroyed (hs' : s.connectDestroyed build = .ok s') : Tame s s' := by
  rw [Lifespan.connectDestroyed] at hs'
  split at hs'
  · exact (setState s _).trans (setInterest hs')
  · obtain rfl := Except.ok.inj hs'
    exact refl s

end Tame

/-- `handleClose` has gone as far as the connection callback. -/
def Closes (s s' : Lifespan) : Prop :=
  ∃ t, Tame s t ∧ s' = { t with closing := true }

theorem handleClose_closes (hs' : s.handleClose build = .ok s') : Closes s s' := by
  obtain ⟨⟨⟩, -, hs'⟩ := bind_eq_ok.mp hs'
  obtain ⟨t, ht, hs'⟩ := bind_eq_ok.mp hs'
  obtain rfl := Except.ok.inj hs'
  exact ⟨t, (Tame.setState s _).trans (Tame.setInterest ht), rfl⟩

/-- What a functor does when it is called. -/
theorem callFunctor_cases (hs' : s.callFunctor build sent f = .ok s') :
    Tame s s' ∨ f = .forceCloseInLoop ∧ Closes s s' ∨
      f = .removeConnectionInLoop ∧ s' = s.removeConnectionInLoop := by
  cases f with
  | connectEstablished => exact Or.inl (Tame.connectEstablished hs')
  | connectDestroyed => exact Or.inl (Tame.connectDestroyed hs')
  | removeConnectionInLoop => exact Or.inr (Or.inr ⟨rfl, (Except.ok.inj hs').symm⟩)
  | forceCloseInLoop =>
    rw [callFunctor, forceCloseInLoop] at hs'
    split at hs'
    · exact Or.inr (Or.inl ⟨rfl, handleClose_closes hs'⟩)
    · obtain rfl := Except.ok.inj hs'
      exact Or.inl (Tame.refl s)
  | sendInLoop => exact Or.inl (Tame.sendInLoop hs')
  | startReadInLoop => exact Or.inl (Tame.startReadInLoop hs')
  | stopReadInLoop => exact Or.inl (Tame.stopReadInLoop hs')
  | writeCompleteCallback | highWaterMarkCallback | shutdownInLoop =>
    obtain rfl := Except.ok.inj hs'
    exact Or.inl (Tame.refl s)

/-- What a callback of the channel does when it is called. -/
theorem callChannel_cases {c : ChannelCallback} (hs' : s.callChannel build c = .ok s') :
    Tame s s' ∨ Closes s s' := by
  cases c with
  | close | readEnd => exact Or.inr (handleClose_closes hs')
  | write sent => exact Or.inl (Tame.handleWrite hs')
  | error | readMessage | readError =>
    obtain rfl := Except.ok.inj hs'
    exact Or.inl (Tame.refl s)

theorem callHere_tame (hs' : s.callHere build c sent = .ok s') : Tame s s' := by
  cases c with
  | send => exact Tame.sendInLoop hs'
  | shutdown =>
    obtain rfl := Except.ok.inj hs'
    exact Tame.refl s
  | forceClose =>
    obtain rfl := Except.ok.inj hs'
    exact Tame.queueInLoop s trivial nofun
  | startRead => exact Tame.startReadInLoop hs'
  | stopRead => exact Tame.stopReadInLoop hs'

/-! ## Queues -/

theorem rounds_setRound_self (s : Lifespan) (loop : LoopRole) (r : Round) :
    (s.setRound loop r).rounds loop = r := Function.update_self _ _ _

theorem rounds_setRound_of_ne {l : LoopRole} (s : Lifespan) (hl : l ≠ loop) (r : Round) :
    (s.setRound loop r).rounds l = s.rounds l := Function.update_of_ne hl _ _

/-- Another round for a loop: it has what the old one had, but for what is done with. -/
theorem Kept.setRound (h : Kept s) (hbatch : ∀ f ∈ r.left, f ∈ r.functors)
    (hbound : ∀ f ∈ r.pendingFunctors ++ r.functors,
      f ∈ (s.rounds loop).pendingFunctors ++ (s.rounds loop).functors)
    (hchain : loop = .io → s.destroyed = false →
      .connectDestroyed ∈ (s.rounds loop).pendingFunctors ++ (s.rounds loop).left →
        .connectDestroyed ∈ r.pendingFunctors ++ r.left)
    (hwatched : loop = .io → s.active = true ∨ s.handling = true → r.functors = [])
    (hguarded : loop = .io → s.closing = true → s.inCallback = true ∨
      r.calling = true ∧ r.left.head? = some .forceCloseInLoop) :
    Kept (s.setRound loop r) := by
  cases loop with
  | base =>
    refine ⟨fun l f hf ↦ ?_, fun f hf ↦ h.base f (hbound f hf), h.chain, h.unmapped, h.watched,
      h.within, h.guarded, h.users⟩
    cases l with
    | base => exact hbatch f hf
    | io => exact h.batch .io f hf
  | io =>
    refine ⟨fun l f hf ↦ ?_, h.base, fun hdestroyed ↦ ?_, fun hdestroy ↦ ?_, fun hwatch ↦ ?_,
      h.within, hguarded rfl, h.users⟩
    · cases l with
      | base => exact h.batch .base f hf
      | io => exact hbatch f hf
    · exact (h.chain hdestroyed).imp_right (hchain rfl hdestroyed)
    · exact h.unmapped (hdestroy.imp_right (hbound _))
    · exact hwatched rfl hwatch

theorem Kept.tame (h : Kept s) (ht : Tame s s') : Kept s' := by
  obtain ⟨fs, hfs, hio⟩ := ht.queued
  -- no `connectDestroyed` is among what is queued
  have hmem (l : List Naming) :
      .connectDestroyed ∈ (s.rounds .io).pendingFunctors ++ fs ++ l ↔
        .connectDestroyed ∈ (s.rounds .io).pendingFunctors ++ l := by
    simp only [List.mem_append]
    refine or_congr_left (or_iff_left fun hmem ↦ ?_)
    exact (hfs _ hmem).2 rfl
  refine ⟨fun l f hf ↦ ?_, ?_, ?_, ?_, ?_, ?_, ?_, ?_⟩
  · cases l with
    | base =>
      rw [ht.base] at hf ⊢
      exact h.batch .base f hf
    | io =>
      rw [hio] at hf ⊢
      exact h.batch .io f hf
  · rw [ht.base]
    exact h.base
  · rw [ht.mapped, hio, hmem, ht.destroyed]
    exact h.chain
  · rw [ht.mapped, hio, hmem, ht.destroyed]
    exact h.unmapped
  · rw [ht.active, ht.handling, hio]
    exact h.watched
  · rw [ht.inCallback, ht.handling]
    exact h.within
  · rw [ht.closing, ht.inCallback, hio]
    exact h.guarded
  · rw [ht.calls, ht.queueing, ht.holders]
    exact h.users

/-- What is queued that is not about the end of the connection. -/
theorem Kept.queueInLoop (h : Kept s) (hbase : loop = .base → f = .removeConnectionInLoop)
    (hf : f ≠ .connectDestroyed) : Kept (s.queueInLoop loop f) := by
  have hmem (l : List Naming) :
      .connectDestroyed ∈ (s.rounds .io).pendingFunctors ++ [f] ++ l ↔
        .connectDestroyed ∈ (s.rounds .io).pendingFunctors ++ l := by
    simp only [List.mem_append, List.mem_singleton]
    exact or_congr_left (or_iff_left hf.symm)
  cases loop with
  | base =>
    refine ⟨fun l g hg ↦ ?_, fun g hg ↦ ?_, h.chain, h.unmapped, h.watched, h.within, h.guarded,
      h.users⟩
    · cases l with
      | base => exact h.batch .base g hg
      | io => exact h.batch .io g hg
    · change g ∈ (s.rounds .base).pendingFunctors ++ [f] ++ (s.rounds .base).functors at hg
      rcases List.mem_append.mp hg with hg | hg
      · rcases List.mem_append.mp hg with hg | hg
        · exact h.base g (List.mem_append_left _ hg)
        · rw [List.mem_singleton.mp hg]
          exact hbase rfl
      · exact h.base g (List.mem_append_right _ hg)
  | io =>
    refine ⟨fun l g hg ↦ ?_, h.base, fun hdestroyed ↦ ?_, fun hdestroy ↦ ?_, h.watched, h.within,
      h.guarded, h.users⟩
    · cases l with
      | base => exact h.batch .base g hg
      | io => exact h.batch .io g hg
    · exact (h.chain hdestroyed).imp_right (hmem _).mpr
    · exact h.unmapped (hdestroy.imp_right (hmem _).mp)

/-- The entry in the map is erased, and `connectDestroyed` takes its place. -/
theorem Kept.removeConnectionInLoop (h : Kept s) : Kept s.removeConnectionInLoop := by
  refine ⟨fun l f hf ↦ ?_, h.base, fun _ ↦ Or.inr ?_, fun _ ↦ rfl, h.watched, h.within, h.guarded,
    h.users⟩
  · cases l with
    | base => exact h.batch .base f hf
    | io => exact h.batch .io f hf
  · exact List.mem_append_left _ (List.mem_append_right _ (List.mem_singleton.mpr rfl))

theorem Kept.removeConnection (h : Kept s) : Kept s.removeConnection := by
  rw [Lifespan.removeConnection]
  split
  · exact h.removeConnectionInLoop
  · exact h.queueInLoop (fun _ ↦ rfl) nofun

theorem Kept.closeCallback (h : Kept s) : Kept s.closeCallback := by
  rw [Lifespan.closeCallback]
  split
  · have hremoved := h.removeConnection
    exact ⟨hremoved.batch, hremoved.base, hremoved.chain, hremoved.unmapped, hremoved.watched,
      hremoved.within, nofun, hremoved.users⟩
  · exact h

/-! ## Steps -/

theorem kept_start (shared : Bool) : Kept (start shared) := by
  have hpending : .connectDestroyed ∉ ((start shared).rounds .io).pendingFunctors ++
      ((start shared).rounds .io).functors := by
    cases shared <;> decide
  refine ⟨fun l f hf ↦ ?_, nofun, fun _ ↦ Or.inl rfl, fun hdestroy ↦ ?_, nofun, nofun, nofun, ?_⟩
  · cases l with
    | base => exact hf
    | io => cases shared <;> exact hf
  · exact absurd (hdestroy.resolve_left nofun) hpending
  · rintro u c (h | h) <;> exact absurd h List.not_mem_nil

/-- `handleClose` on behalf of a callback of the channel. -/
theorem Kept.callChannel (h : Kept s) {c : ChannelCallback} (hhandling : s.handling = true)
    (hs' : s.callChannel build c = .ok s') : Kept { s' with inCallback := true } := by
  rcases callChannel_cases hs' with htame | ⟨t, htame, rfl⟩
  all_goals
    have hkept := h.tame htame
    exact ⟨hkept.batch, hkept.base, hkept.chain, hkept.unmapped, hkept.watched,
      fun _ ↦ htame.handling.trans hhandling, fun _ ↦ Or.inl rfl, hkept.users⟩

/-- The first functor of what is left of a batch is called. -/
theorem Kept.calls (h : Kept s) {fs : List Naming} (hleft : (s.rounds loop).left = f :: fs)
    (hidle : (s.rounds loop).calling = false) (hs' : s.callFunctor build sent f = .ok s') :
    Kept (s'.setRound loop { s'.rounds loop with calling := true }) := by
  have hcalls {t : Lifespan} (ht : Kept t)
      (hguarded : loop = .io → t.closing = true → t.inCallback = true ∨
        (t.rounds loop).left.head? = some .forceCloseInLoop) :
      Kept (t.setRound loop { t.rounds loop with calling := true }) :=
    ht.setRound (ht.batch loop) (fun _ hf ↦ hf) (fun _ _ hmem ↦ hmem)
      (fun hio hwatch ↦ by rw [hio]; exact ht.watched hwatch)
      fun hio hclosing ↦ (hguarded hio hclosing).imp_right fun hhead ↦ ⟨rfl, hhead⟩
  -- before the call it is a callback of the channel, if anything, that is closing
  have hclosing (hio : loop = .io) (hclosing : s.closing = true) : s.inCallback = true := by
    rcases h.guarded hclosing with hcallback | ⟨hcalling, -⟩
    · exact hcallback
    · rw [← hio, hidle] at hcalling
      exact absurd hcalling Bool.false_ne_true
  rcases callFunctor_cases hs' with htame | ⟨rfl, t, htame, rfl⟩ | ⟨rfl, rfl⟩
  · refine hcalls (h.tame htame) fun hio hclose ↦ Or.inl ?_
    rw [htame.inCallback]
    exact hclosing hio (htame.closing ▸ hclose)
  · cases loop with
    | base =>
      -- `forceCloseInLoop` is not queued in the base loop
      have hmem := h.base _ (List.mem_append_right _ (h.batch .base _
        (hleft ▸ List.mem_cons_self)))
      exact absurd hmem nofun
    | io =>
      have hkept := h.tame htame
      obtain ⟨gs, -, hio⟩ := htame.queued
      have hhead : (t.rounds .io).left.head? = some .forceCloseInLoop := by rw [hio, hleft]; rfl
      refine ⟨fun l g hg ↦ ?_, hkept.base, hkept.chain, hkept.unmapped, hkept.watched,
        hkept.within, fun _ ↦ Or.inr ⟨rfl, hhead⟩, hkept.users⟩
      cases l with
      | base => exact hkept.batch .base g hg
      | io => exact hkept.batch .io g hg
  · exact hcalls h.removeConnectionInLoop fun hio hclose ↦ Or.inl (hclosing hio hclose)

theorem closeCallback_frame (s : Lifespan) : s.closeCallback.closing = false ∧
    ∀ l, (s.closeCallback.rounds l).left = (s.rounds l).left := by
  rw [closeCallback]
  split
  · rw [removeConnection]
    split <;> refine ⟨rfl, fun l ↦ ?_⟩ <;> cases l <;> rfl
  · rename_i hclosing
    exact ⟨Bool.eq_false_iff.mpr hclosing, fun _ ↦ rfl⟩

theorem Kept.callbackReturns (h : Kept s) : Kept { s.closeCallback with inCallback := false } := by
  obtain ⟨hclosing, -⟩ := closeCallback_frame s
  have hkept := h.closeCallback
  refine ⟨hkept.batch, hkept.base, hkept.chain, hkept.unmapped, hkept.watched, nofun,
    fun hclose ↦ ?_, hkept.users⟩
  exact absurd (hclosing.symm.trans hclose) Bool.false_ne_true

/-- A functor other than `connectDestroyed` returns. -/
theorem Kept.pop (h : Kept s) {fs : List Naming} (hleft : (s.rounds loop).left = f :: fs)
    (hf : f ≠ .connectDestroyed)
    (hguarded : loop = .io → s.closing = true → s.inCallback = true) :
    Kept (s.setRound loop { s.rounds loop with left := fs, calling := false }) := by
  refine h.setRound (fun g hg ↦ ?_) (fun _ hg ↦ hg) (fun _ _ hmem ↦ ?_) (fun hio hwatch ↦ ?_)
    fun hio hclosing ↦ Or.inl (hguarded hio hclosing)
  · exact h.batch loop g (hleft ▸ List.mem_cons_of_mem f hg)
  · rw [hleft] at hmem
    rcases List.mem_append.mp hmem with hmem | hmem
    · exact List.mem_append_left _ hmem
    · refine List.mem_append_right _ ((List.mem_cons.mp hmem).resolve_left ?_)
      exact fun heq ↦ hf heq.symm
  · rw [hio]
    exact h.watched hwatch

/-- `connectDestroyed` returns, and the channel is removed. -/
theorem Kept.destroyed (h : Kept s) {fs : List Naming}
    (hleft : (s.rounds .io).left = .connectDestroyed :: fs) :
    Kept ({ s with standing := .removed, destroyed := true }.setRound .io
      { s.rounds .io with left := fs, calling := false }) := by
  have hmem : .connectDestroyed ∈ (s.rounds .io).functors :=
    h.batch .io _ (hleft ▸ List.mem_cons_self)
  have hbusy : (s.rounds .io).functors ≠ [] := List.ne_nil_of_mem hmem
  refine ⟨fun l f hf ↦ ?_, h.base, nofun,
    fun _ ↦ h.unmapped (Or.inr (List.mem_append_right _ hmem)),
    fun hwatch ↦ absurd (h.watched hwatch) hbusy, h.within, fun hclosing ↦ ?_, h.users⟩
  · cases l with
    | base => exact h.batch .base f hf
    | io => exact h.batch .io f (hleft ▸ List.mem_cons_of_mem _ hf)
  · -- the loop is in no other code of the connection
    rcases h.guarded hclosing with hcallback | ⟨-, hhead⟩
    · exact absurd (h.watched (Or.inr (h.within hcallback))) hbusy
    · rw [hleft] at hhead
      exact absurd (Option.some.inj hhead) nofun

/-- The first functor of what is left of a batch returns. -/
theorem Kept.returns (h : Kept s) {fs : List Naming} (hleft : (s.rounds loop).left = f :: fs)
    (hs' : s.finishFunctor build f = .ok s') :
    Kept (s'.setRound loop { s'.rounds loop with left := fs, calling := false }) := by
  by_cases hdestroy : f = .connectDestroyed
  · subst hdestroy
    obtain ⟨⟨⟩, -, hs'⟩ := bind_eq_ok.mp hs'
    obtain rfl := Except.ok.inj hs'
    cases loop with
    | base =>
      have hmem := h.base _ (List.mem_append_right _ (h.batch .base _
        (hleft ▸ List.mem_cons_self)))
      exact absurd hmem nofun
    | io => exact h.destroyed hleft
  · by_cases hclose : f = .forceCloseInLoop
    · subst hclose
      obtain rfl := Except.ok.inj hs'
      obtain ⟨hclosing, hlefts⟩ := closeCallback_frame s
      refine h.closeCallback.pop ((hlefts loop).trans hleft) hdestroy fun _ hclose ↦ ?_
      exact absurd (hclosing.symm.trans hclose) Bool.false_ne_true
    · -- all others are done when they return
      have hsame : s' = s := by
        cases f with
        | connectDestroyed => exact absurd rfl hdestroy
        | forceCloseInLoop => exact absurd rfl hclose
        | connectEstablished | removeConnectionInLoop | sendInLoop | startReadInLoop
        | stopReadInLoop | writeCompleteCallback | highWaterMarkCallback | shutdownInLoop =>
          exact (Except.ok.inj hs').symm
      subst hsame
      refine h.pop hleft hdestroy fun hio hclosing ↦ ?_
      rcases h.guarded hclosing with hcallback | ⟨-, hhead⟩
      · exact hcallback
      · rw [← hio, hleft] at hhead
        exact absurd (Option.some.inj hhead) hclose

theorem Kept.swap (h : Kept s) (hfunctors : (s.rounds loop).functors = []) (hdone : s.Done loop) :
    Kept (s.setRound loop (.taken (s.rounds loop).pendingFunctors)) := by
  have hleft := h.left_nil hfunctors
  refine h.setRound (fun _ hf ↦ hf) (fun f hf ↦ List.mem_append_left _ hf) (fun _ _ hmem ↦ ?_)
    (fun hio hwatch ↦ ?_) fun hio hclosing ↦ (h.guarded hclosing).imp_right fun hhead ↦ ?_
  · rw [hleft, List.append_nil] at hmem
    exact hmem
  · obtain ⟨hactive, hhandling⟩ := hdone hio
    rw [hactive, hhandling] at hwatch
    exact (hwatch.elim Bool.false_ne_true Bool.false_ne_true).elim
  · rw [← hio, hleft] at hhead
    exact absurd hhead.2 nofun

theorem Kept.ends (h : Kept s) (hleft : (s.rounds loop).left = []) : Kept (s.ended loop) := by
  refine h.setRound (fun f hf ↦ ?_) (fun f hf ↦ ?_) (fun _ _ hmem ↦ hmem) (fun _ _ ↦ rfl)
    fun hio hclosing ↦ (h.guarded hclosing).imp_right fun hhead ↦ ?_
  · rw [hleft] at hf
    exact absurd hf List.not_mem_nil
  · rw [List.append_nil] at hf
    exact List.mem_append_left _ hf
  · rw [← hio, hleft] at hhead
    exact absurd hhead.2 nofun

/-- What the kernel watches does not matter to the references. -/
theorem Kept.withStanding (h : Kept s) (standing : EpollPoller.Standing) :
    Kept { s with standing := standing } :=
  ⟨h.batch, h.base, h.chain, h.unmapped, h.watched, h.within, h.guarded, h.users⟩

theorem released_eq (s : Lifespan) :
    s.released = s ∨ s.released = { s with standing := .removed } := by
  rw [released]
  split
  · exact Or.inl rfl
  · exact Or.inr rfl

theorem Kept.released (h : Kept s) : Kept s.released := by
  rcases released_eq s with hs | hs <;> rw [hs]
  · exact h
  · exact h.withStanding .removed

theorem counted_released (s : Lifespan) : Counted s.released ↔ Counted s := by
  rcases released_eq s with hs | hs <;> rw [hs]
  exact Iff.rfl

/-- A thread that is in no call drops its reference. -/
theorem Kept.dropped (h : Kept s) (hfree : s.Free u) :
    Kept { s with holders := s.holders.erase u } := by
  obtain ⟨-, hcalls, hqueueing⟩ := hfree
  refine ⟨h.batch, h.base, h.chain, h.unmapped, h.watched, h.within, h.guarded, fun v c hv ↦ ?_⟩
  have hne : v ≠ u := by
    rintro rfl
    rcases hv with hv | hv
    · exact hcalls (List.mem_map_of_mem hv)
    · exact hqueueing (List.mem_map_of_mem hv)
  exact (List.mem_erase_of_ne hne).mpr (h.users v c hv)

theorem follow_eq_ok {v : Unit} (h : s.follow = .ok v) : s.Held := (ite_eq_ok.mp h).1

/-- The step lemma. -/
theorem Kept.step (h : Kept s) (ht : step build s i = .ok t) : Kept t := by
  cases i with
  | acquires u =>
    obtain ⟨-, ht⟩ := ite_eq_ok.mp ht
    obtain rfl := Except.ok.inj ht
    exact ⟨h.batch, h.base, h.chain, h.unmapped, h.watched, h.within, h.guarded,
      fun v c hv ↦ List.mem_append_left _ (h.users v c hv)⟩
  | drops u =>
    obtain ⟨hfree, ht⟩ := ite_eq_ok.mp ht
    obtain rfl := Except.ok.inj ht
    exact h.dropped hfree
  | dropsHere u =>
    obtain ⟨hfree, ht⟩ := ite_eq_ok.mp ht
    obtain rfl := Except.ok.inj ht
    exact (h.dropped hfree).released
  | closes =>
    rw [Lifespan.step] at ht
    split at ht
    · exact absurd ht nofun
    · obtain rfl := Except.ok.inj ht
      exact h.withStanding .removed
  | callBegins u c =>
    obtain ⟨hfree, ht⟩ := ite_eq_ok.mp ht
    split at ht <;> obtain rfl := Except.ok.inj ht
    · refine ⟨h.batch, h.base, h.chain, h.unmapped, h.watched, h.within, h.guarded,
        fun v d hv ↦ ?_⟩
      rcases hv with hv | hv
      · rcases List.mem_append.mp hv with hv | hv
        · exact h.users v d (Or.inl hv)
        · obtain ⟨rfl, rfl⟩ := Prod.mk.inj (List.mem_singleton.mp hv)
          exact hfree.1
      · exact h.users v d (Or.inr hv)
    · exact h
  | callSets u c =>
    obtain ⟨hmem, ht⟩ := ite_eq_ok.mp ht
    obtain rfl := Except.ok.inj ht
    refine ⟨h.batch, h.base, h.chain, h.unmapped, h.watched, h.within, h.guarded, fun v d hv ↦ ?_⟩
    rcases hv with hv | hv
    · exact h.users v d (Or.inl (List.mem_of_mem_erase hv))
    · rcases List.mem_append.mp hv with hv | hv
      · exact h.users v d (Or.inr hv)
      · obtain ⟨rfl, rfl⟩ := Prod.mk.inj (List.mem_singleton.mp hv)
        exact h.users v d (Or.inl hmem)
  | callQueues u c =>
    obtain ⟨-, ht⟩ := ite_eq_ok.mp ht
    obtain rfl := Except.ok.inj ht
    have hpopped : Kept { s with queueing := s.queueing.erase (u, c) } :=
      ⟨h.batch, h.base, h.chain, h.unmapped, h.watched, h.within, h.guarded, fun v d hv ↦
        h.users v d (hv.imp_right List.mem_of_mem_erase)⟩
    exact hpopped.queueInLoop nofun (by cases c <;> exact nofun)
  | callHere u c sent =>
    obtain ⟨-, ht⟩ := ite_eq_ok.mp ht
    have hpopped : Kept { s with queueing := s.queueing.erase (u, c) } :=
      ⟨h.batch, h.base, h.chain, h.unmapped, h.watched, h.within, h.guarded, fun v d hv ↦
        h.users v d (hv.imp_right List.mem_of_mem_erase)⟩
    exact hpopped.tame (callHere_tame ht)
  | reports =>
    obtain ⟨⟨-, hfunctors, -⟩, ht⟩ := ite_eq_ok.mp ht
    obtain rfl := Except.ok.inj ht
    exact ⟨h.batch, h.base, h.chain, h.unmapped, fun _ ↦ hfunctors, h.within, h.guarded, h.users⟩
  | handleEvent =>
    obtain ⟨hactive, ht⟩ := ite_eq_ok.mp ht
    obtain ⟨⟨⟩, -, ht⟩ := bind_eq_ok.mp ht
    obtain rfl := Except.ok.inj ht
    exact ⟨h.batch, h.base, h.chain, h.unmapped, fun _ ↦ h.watched (Or.inl hactive),
      fun _ ↦ rfl, h.guarded, h.users⟩
  | callback c =>
    obtain ⟨⟨hhandling, -⟩, ht⟩ := ite_eq_ok.mp ht
    obtain ⟨⟨⟩, -, ht⟩ := bind_eq_ok.mp ht
    obtain ⟨s', hs', ht⟩ := bind_eq_ok.mp ht
    obtain rfl := Except.ok.inj ht
    exact h.callChannel hhandling hs'
  | callbackReturns =>
    obtain ⟨-, ht⟩ := ite_eq_ok.mp ht
    obtain ⟨⟨⟩, -, ht⟩ := bind_eq_ok.mp ht
    obtain rfl := Except.ok.inj ht
    exact h.callbackReturns
  | eventReturns =>
    obtain ⟨⟨-, hcallback⟩, ht⟩ := ite_eq_ok.mp ht
    obtain ⟨⟨⟩, -, ht⟩ := bind_eq_ok.mp ht
    obtain rfl := Except.ok.inj ht
    refine ⟨h.batch, h.base, h.chain, h.unmapped, fun hwatch ↦ ?_, fun hin ↦ ?_, h.guarded, h.users⟩
    · exact h.watched (Or.inl (hwatch.resolve_right Bool.false_ne_true))
    · exact absurd (hcallback.symm.trans hin) Bool.false_ne_true
  | swap loop =>
    obtain ⟨⟨hfunctors, hdone⟩, ht⟩ := ite_eq_ok.mp ht
    obtain rfl := Except.ok.inj ht
    exact h.swap hfunctors hdone
  | calls loop sent =>
    rw [Lifespan.step] at ht
    split at ht
    · rename_i f fs hleft hidle
      obtain ⟨⟨⟩, -, ht⟩ := bind_eq_ok.mp ht
      obtain ⟨s', hs', ht⟩ := bind_eq_ok.mp ht
      obtain rfl := Except.ok.inj ht
      exact h.calls hleft hidle hs'
    · exact absurd ht nofun
    · exact absurd ht nofun
  | returns loop =>
    rw [Lifespan.step] at ht
    split at ht
    · rename_i f fs hleft hcalling
      obtain ⟨⟨⟩, -, ht⟩ := bind_eq_ok.mp ht
      obtain ⟨s', hs', ht⟩ := bind_eq_ok.mp ht
      obtain rfl := Except.ok.inj ht
      exact h.returns hleft hs'
    · exact absurd ht nofun
    · exact absurd ht nofun
  | ends loop =>
    obtain ⟨hleft, ht⟩ := ite_eq_ok.mp ht
    obtain rfl := Except.ok.inj ht
    cases loop with
    | base => exact h.ends hleft
    | io => exact (h.ends hleft).released

/-! ## References that are kept -/

theorem held_of_boundIn (loop : LoopRole) (h : s.BoundIn loop) : s.Held := by
  cases loop with
  | base => exact Or.inr (Or.inr (Or.inr (Or.inl h)))
  | io => exact Or.inr (Or.inr (Or.inr (Or.inr h)))

theorem held_of_mem (hu : u ∈ s.holders) : s.Held :=
  Or.inr (Or.inr (Or.inl (List.ne_nil_of_mem hu)))

theorem boundIn_queueInLoop (s : Lifespan) (hstrong : f.Strong) :
    (s.queueInLoop loop f).BoundIn loop := by
  refine ⟨f, List.mem_append_left _ ?_, hstrong⟩
  cases loop <;> exact List.mem_append_right _ (List.mem_singleton.mpr rfl)

theorem Tame.held (ht : Tame s s') (h : s.Held) : s'.Held := by
  rcases h with hmapped | hclosing | hholders | hbase | ⟨f, hf, hstrong⟩
  · exact Or.inl (ht.mapped.trans hmapped)
  · exact Or.inr (Or.inl (ht.closing.trans hclosing))
  · exact Or.inr (Or.inr (Or.inl (ht.holders ▸ hholders)))
  · refine held_of_boundIn .base ?_
    rw [BoundIn, ht.base]
    exact hbase
  · obtain ⟨fs, -, hio⟩ := ht.queued
    refine held_of_boundIn .io ⟨f, ?_, hstrong⟩
    rw [hio]
    rcases List.mem_append.mp hf with hf | hf
    · exact List.mem_append_left _ (List.mem_append_left _ hf)
    · exact List.mem_append_right _ hf

theorem closeCallback_held (h : s.Held) : s.closeCallback.Held := by
  rw [closeCallback]
  split
  · -- the functor that is queued takes over from `guardThis` and from the map
    rw [removeConnection]
    split
    · exact held_of_boundIn .io (boundIn_queueInLoop { s with mapped := false }
        (f := .connectDestroyed) trivial)
    · exact held_of_boundIn .base (boundIn_queueInLoop s
        (f := .removeConnectionInLoop) trivial)
  · exact h

theorem callFunctor_held (h : s.Held) (hs' : s.callFunctor build sent f = .ok s') : s'.Held := by
  rcases callFunctor_cases hs' with htame | ⟨-, t, -, -, rfl⟩ | ⟨-, rfl⟩
  · exact htame.held h
  · exact Or.inr (Or.inl rfl)
  · exact held_of_boundIn .io (boundIn_queueInLoop _ trivial)

theorem finishFunctor_held (h : s.Held) (hs' : s.finishFunctor build f = .ok s') : s'.Held := by
  cases f with
  | connectDestroyed =>
    obtain ⟨⟨⟩, -, hs'⟩ := bind_eq_ok.mp hs'
    obtain rfl := Except.ok.inj hs'
    exact h
  | forceCloseInLoop =>
    obtain rfl := Except.ok.inj hs'
    exact closeCallback_held h
  | connectEstablished | removeConnectionInLoop | sendInLoop | startReadInLoop | stopReadInLoop
  | writeCompleteCallback | highWaterMarkCallback | shutdownInLoop =>
    obtain rfl := Except.ok.inj hs'
    exact h

/-- Where a functor stands in its loop does not matter to the references. -/
theorem held_setRound (hr : r.pendingFunctors ++ r.functors =
    (s.rounds loop).pendingFunctors ++ (s.rounds loop).functors) :
    (s.setRound loop r).Held ↔ s.Held := by
  -- the queue and the batch have between them what they had
  have hbound (l : LoopRole) : (s.setRound loop r).BoundIn l ↔ s.BoundIn l := by
    rw [BoundIn, BoundIn]
    by_cases hl : l = loop
    · rw [hl, rounds_setRound_self, hr]
    · rw [rounds_setRound_of_ne s hl]
  rw [Held, Held, hbound, hbound]
  rfl

theorem waits_swap (h : Kept s) (hfunctors : (s.rounds loop).functors = []) :
    (s.setRound loop (.taken (s.rounds loop).pendingFunctors)).Waits ↔ s.Waits := by
  cases loop with
  | base => exact Iff.rfl
  | io =>
    have hleft := h.left_nil hfunctors
    change (∃ f ∈ [] ++ (s.rounds .io).pendingFunctors, _) ∨ _ ↔ _
    rw [Waits, hleft, List.append_nil, List.nil_append]
    rfl

theorem waits_ended (s : Lifespan) (loop : LoopRole) : (s.ended loop).Waits ↔ s.Waits := by
  cases loop <;> exact Iff.rfl

theorem Held.of_ended (h : (s.ended loop).Held) : s.Held := by
  have hbound (l : LoopRole) (hl : (s.ended loop).BoundIn l) : s.BoundIn l := by
    obtain ⟨f, hf, hstrong⟩ := hl
    refine ⟨f, ?_, hstrong⟩
    rw [ended] at hf
    by_cases heq : l = loop
    · subst heq
      rw [rounds_setRound_self, List.append_nil] at hf
      exact List.mem_append_left _ hf
    · rw [rounds_setRound_of_ne s heq] at hf
      exact hf
  rcases h with hmapped | hclosing | hholders | hbase | hio
  · exact Or.inl hmapped
  · exact Or.inr (Or.inl hclosing)
  · exact Or.inr (Or.inr (Or.inl hholders))
  · exact held_of_boundIn .base (hbound .base hbase)
  · exact held_of_boundIn .io (hbound .io hio)

/-! ## The steps that can go wrong -/

theorem Kept.drops_iff (h : Kept s) (hfree : s.Free u) :
    Counted { s with holders := s.holders.erase u } ↔ Counted s ∧ s.Careful (.drops u) := by
  have herase : s.holders.erase u = [] ↔ s.holders = [u] := by
    rw [List.erase_eq_nil_iff]
    exact or_iff_right (List.ne_nil_of_mem hfree.1)
  have hlast : Held { s with holders := s.holders.erase u } ↔ ¬(s.holders = [u] ∧ s.Gone) := by
    rw [← herase, ← not_iff_not, not_not]
    exact (h.dropped hfree).not_held_iff
  rw [(h.dropped hfree).counted_iff, hlast, h.counted_iff]
  constructor
  · intro hwaits
    exact ⟨fun _ ↦ held_of_mem hfree.1, fun hholders hgone hwait ↦ hwaits hwait ⟨hholders, hgone⟩⟩
  · rintro ⟨-, hcareful⟩ hwait ⟨hholders, hgone⟩
    exact hcareful hholders hgone hwait

theorem Kept.ends_iff (h : Kept s) (ht : Kept (s.ended loop)) :
    Counted (s.ended loop) ↔ Counted s ∧ s.Careful (.ends loop) := by
  have hlast : (s.ended loop).Held ↔ ¬(s.holders = [] ∧ (s.ended loop).Gone) := by
    rw [← not_iff_not, not_not]
    exact ht.not_held_iff
  rw [ht.counted_iff, h.counted_iff, waits_ended]
  constructor
  · intro hwaits
    refine ⟨fun hwait ↦ (hwaits hwait).of_ended, fun hholders hgone hwait ↦ ?_⟩
    exact hlast.mp (hwaits hwait) ⟨hholders, hgone⟩
  · rintro ⟨-, hcareful⟩ hwait
    exact hlast.mpr fun ⟨hholders, hgone⟩ ↦ hcareful hholders hgone hwait

/-- A step from a connection that is held to one that is. -/
theorem counted_iff_of_held (h : s.Held) (ht : t.Held) (hcareful : s.Careful i) :
    Counted t ↔ Counted s ∧ s.Careful i :=
  iff_of_true (fun _ ↦ ht) ⟨fun _ ↦ h, hcareful⟩

/-- After each step the connection is counted if it was before and the step is careful. -/
theorem Kept.step_iff (h : Kept s) (ht : Lifespan.step build s i = .ok t) :
    Counted t ↔ Counted s ∧ s.Careful i := by
  have hkept := h.step ht
  cases i with
  | acquires u =>
    obtain ⟨⟨-, hfrom⟩, ht⟩ := ite_eq_ok.mp ht
    obtain rfl := Except.ok.inj ht
    have hheld : s.Held := hfrom.elim And.left fun hne ↦ Or.inr (Or.inr (Or.inl hne))
    refine counted_iff_of_held hheld (held_of_mem (u := u) ?_) trivial
    exact List.mem_append_right _ (List.mem_singleton.mpr rfl)
  | drops u =>
    obtain ⟨hfree, ht⟩ := ite_eq_ok.mp ht
    obtain rfl := Except.ok.inj ht
    exact h.drops_iff hfree
  | dropsHere u =>
    obtain ⟨hfree, ht⟩ := ite_eq_ok.mp ht
    obtain rfl := Except.ok.inj ht
    exact (counted_released _).trans (h.drops_iff hfree)
  | closes =>
    rw [Lifespan.step] at ht
    split at ht
    · exact absurd ht nofun
    · obtain rfl := Except.ok.inj ht
      exact (and_iff_left trivial).symm
  | callBegins u c =>
    obtain ⟨hfree, ht⟩ := ite_eq_ok.mp ht
    split at ht <;> obtain rfl := Except.ok.inj ht <;>
      exact counted_iff_of_held (held_of_mem hfree.1) (held_of_mem hfree.1) trivial
  | callSets u c =>
    obtain ⟨hmem, ht⟩ := ite_eq_ok.mp ht
    obtain rfl := Except.ok.inj ht
    have hu := h.users u c (Or.inl hmem)
    exact counted_iff_of_held (held_of_mem hu) (held_of_mem hu) trivial
  | callQueues u c =>
    obtain ⟨hmem, ht⟩ := ite_eq_ok.mp ht
    obtain rfl := Except.ok.inj ht
    have hu := h.users u c (Or.inr hmem)
    exact counted_iff_of_held (held_of_mem hu) (held_of_mem (u := u) hu) trivial
  | callHere u c sent =>
    obtain ⟨hmem, ht⟩ := ite_eq_ok.mp ht
    have hheld := held_of_mem (h.users u c (Or.inr hmem))
    exact counted_iff_of_held hheld ((callHere_tame ht).held hheld) trivial
  | reports =>
    obtain ⟨-, ht⟩ := ite_eq_ok.mp ht
    obtain rfl := Except.ok.inj ht
    -- from now on the channel waits for the loop
    have hcareful : s.Careful .reports ↔ s.Held := by
      rw [← not_iff_not, h.not_held_iff]
      exact Classical.not_imp.trans (and_congr_right fun _ ↦ not_not)
    rw [hcareful]
    constructor
    · intro hcounted
      have hheld : s.Held := hcounted (Or.inr (Or.inl rfl))
      exact ⟨fun _ ↦ hheld, hheld⟩
    · exact fun ⟨_, hheld⟩ _ ↦ hheld
  | handleEvent | eventReturns =>
    obtain ⟨-, ht⟩ := ite_eq_ok.mp ht
    obtain ⟨v, hv, ht⟩ := bind_eq_ok.mp ht
    obtain rfl := Except.ok.inj ht
    exact counted_iff_of_held (follow_eq_ok hv) (follow_eq_ok hv) trivial
  | callback c =>
    obtain ⟨-, ht⟩ := ite_eq_ok.mp ht
    obtain ⟨v, hv, ht⟩ := bind_eq_ok.mp ht
    obtain ⟨s', hs', ht⟩ := bind_eq_ok.mp ht
    obtain rfl := Except.ok.inj ht
    have hheld : s'.Held := by
      rcases callChannel_cases hs' with htame | ⟨t, -, -, rfl⟩
      · exact htame.held (follow_eq_ok hv)
      · exact Or.inr (Or.inl rfl)
    exact counted_iff_of_held (follow_eq_ok hv) hheld trivial
  | callbackReturns =>
    obtain ⟨-, ht⟩ := ite_eq_ok.mp ht
    obtain ⟨v, hv, ht⟩ := bind_eq_ok.mp ht
    obtain rfl := Except.ok.inj ht
    exact counted_iff_of_held (follow_eq_ok hv) (closeCallback_held (follow_eq_ok hv)) trivial
  | swap loop =>
    obtain ⟨⟨hfunctors, -⟩, ht⟩ := ite_eq_ok.mp ht
    obtain rfl := Except.ok.inj ht
    rw [hkept.counted_iff, h.counted_iff, waits_swap h hfunctors, held_setRound]
    · exact (and_iff_left trivial).symm
    · rw [hfunctors, List.append_nil]
      rfl
  | calls loop sent =>
    rw [Lifespan.step] at ht
    split at ht
    · obtain ⟨v, hv, ht⟩ := bind_eq_ok.mp ht
      obtain ⟨s', hs', ht⟩ := bind_eq_ok.mp ht
      obtain rfl := Except.ok.inj ht
      refine counted_iff_of_held (follow_eq_ok hv) ?_ trivial
      rw [held_setRound]
      · exact callFunctor_held (follow_eq_ok hv) hs'
      · rfl
    · exact absurd ht nofun
    · exact absurd ht nofun
  | returns loop =>
    rw [Lifespan.step] at ht
    split at ht
    · obtain ⟨v, hv, ht⟩ := bind_eq_ok.mp ht
      obtain ⟨s', hs', ht⟩ := bind_eq_ok.mp ht
      obtain rfl := Except.ok.inj ht
      refine counted_iff_of_held (follow_eq_ok hv) ?_ trivial
      rw [held_setRound]
      · exact finishFunctor_held (follow_eq_ok hv) hs'
      · rfl
    · exact absurd ht nofun
    · exact absurd ht nofun
  | ends loop =>
    obtain ⟨hleft, ht⟩ := ite_eq_ok.mp ht
    obtain rfl := Except.ok.inj ht
    cases loop with
    | base => exact h.ends_iff (h.ends hleft)
    | io => exact (counted_released _).trans (h.ends_iff (h.ends hleft))

/-! ## What follows the pointer -/

/-- An assert of the source stops the run, or an input that cannot be. -/
def Stopped (e : Fault) : Prop := e = .impossible ∨ ∃ site, e = .assertion site

theorem setInterest_error {isReading isWriting : Bool} {e : Fault}
    (he : s.setInterest build isReading isWriting = .error e) : Stopped e := by
  rcases bind_eq_error.mp he with he | ⟨v, -, he⟩
  · exact Or.inr ⟨_, Build.check_eq_error he⟩
  · exact absurd he nofun

theorem handleClose_error {e : Fault} (he : s.handleClose build = .error e) : Stopped e := by
  rcases bind_eq_error.mp he with he | ⟨v, -, he⟩
  · exact Or.inr ⟨_, Build.check_eq_error he⟩
  · rcases bind_eq_error.mp he with he | ⟨t, -, he⟩
    · exact setInterest_error he
    · exact absurd he nofun

theorem startReadInLoop_error {e : Fault} (he : s.startReadInLoop build = .error e) : Stopped e := by
  rw [startReadInLoop] at he
  split at he
  · rcases bind_eq_error.mp he with he | ⟨t, -, he⟩
    · exact setInterest_error he
    · exact absurd he nofun
  · exact absurd he nofun

theorem stopReadInLoop_error {e : Fault} (he : s.stopReadInLoop build = .error e) : Stopped e := by
  rw [stopReadInLoop] at he
  split at he
  · rcases bind_eq_error.mp he with he | ⟨t, -, he⟩
    · exact setInterest_error he
    · exact absurd he nofun
  · exact absurd he nofun

theorem sendInLoop_error {e : Fault} (he : s.sendInLoop build sent = .error e) : Stopped e := by
  unfold sendInLoop at he
  split at he
  · exact absurd he nofun
  · cases sent with
    | waits | all _ => exact absurd he nofun
    | some _ => exact setInterest_error he

theorem handleWrite_error {e : Fault} (he : s.handleWrite build sent = .error e) : Stopped e := by
  unfold handleWrite at he
  split at he
  · rcases bind_eq_error.mp he with he | ⟨t, -, he⟩
    · exact setInterest_error he
    · exact absurd he nofun
  all_goals exact absurd he nofun

theorem callFunctor_error {e : Fault} (he : s.callFunctor build sent f = .error e) : Stopped e := by
  cases f with
  | connectEstablished =>
    rcases bind_eq_error.mp he with he | ⟨v, -, he⟩
    · exact Or.inr ⟨_, Build.check_eq_error he⟩
    · exact setInterest_error he
  | connectDestroyed =>
    rw [callFunctor, connectDestroyed] at he
    split at he
    · exact setInterest_error he
    · exact absurd he nofun
  | forceCloseInLoop =>
    rw [callFunctor, forceCloseInLoop] at he
    split at he
    · exact handleClose_error he
    · exact absurd he nofun
  | sendInLoop => exact sendInLoop_error he
  | startReadInLoop => exact startReadInLoop_error he
  | stopReadInLoop => exact stopReadInLoop_error he
  | removeConnectionInLoop | writeCompleteCallback | highWaterMarkCallback | shutdownInLoop =>
    exact absurd he nofun

theorem finishFunctor_error {e : Fault} (he : s.finishFunctor build f = .error e) : Stopped e := by
  cases f with
  | connectDestroyed =>
    rcases bind_eq_error.mp he with he | ⟨v, -, he⟩
    · exact Or.inr ⟨_, Build.check_eq_error he⟩
    · exact absurd he nofun
  | connectEstablished | removeConnectionInLoop | forceCloseInLoop | sendInLoop | startReadInLoop
  | stopReadInLoop | writeCompleteCallback | highWaterMarkCallback | shutdownInLoop =>
    exact absurd he nofun

theorem callChannel_error {c : ChannelCallback} {e : Fault} (he : s.callChannel build c = .error e) :
    Stopped e := by
  cases c with
  | close | readEnd => exact handleClose_error he
  | write sent => exact handleWrite_error he
  | error | readMessage | readError => exact absurd he nofun

theorem callHere_error {e : Fault} (he : s.callHere build c sent = .error e) : Stopped e := by
  cases c with
  | send => exact sendInLoop_error he
  | shutdown | forceClose => exact absurd he nofun
  | startRead => exact startReadInLoop_error he
  | stopRead => exact stopReadInLoop_error he

theorem follow_of_held (h : s.Held) : s.follow = .ok () := if_pos h

/-- Where everything is counted, no step follows the pointer in vain. -/
theorem Kept.step_error (h : Kept s) (hcounted : Counted s) {e : Fault}
    (he : Lifespan.step build s i = .error e) : Stopped e := by
  -- past the guard of the step there is only the code
  have hguard {p : Prop} [Decidable p] {x : Except Fault Lifespan}
      (hx : (if p then x else .error .impossible) = .error e) :
      Stopped e ∨ p ∧ x = .error e := by
    split at hx
    · exact Or.inr ⟨‹_›, hx⟩
    · exact Or.inl (Or.inl (Except.error.inj hx).symm)
  cases i with
  | acquires | drops | dropsHere | callSets | callQueues | reports | swap | ends =>
    exact (hguard he).resolve_right fun hx ↦ absurd hx.2 nofun
  | closes =>
    rw [Lifespan.step] at he
    split at he
    · exact Or.inl (Except.error.inj he).symm
    · exact absurd he nofun
  | callBegins u c =>
    refine (hguard he).resolve_right fun hx ↦ ?_
    obtain ⟨-, hx⟩ := hx
    split at hx <;> exact absurd hx nofun
  | callHere u c sent => exact (hguard he).elim id fun hx ↦ callHere_error hx.2
  | handleEvent =>
    refine (hguard he).elim id fun ⟨hactive, hx⟩ ↦ ?_
    rw [follow_of_held (hcounted (Or.inr (Or.inl hactive)))] at hx
    exact absurd hx nofun
  | callback c =>
    refine (hguard he).elim id fun ⟨⟨hhandling, _⟩, hx⟩ ↦ ?_
    rw [follow_of_held (hcounted (Or.inr (Or.inr hhandling))), bind_ok] at hx
    rcases bind_eq_error.mp hx with hx | ⟨t, -, hx⟩
    · exact callChannel_error hx
    · exact absurd hx nofun
  | callbackReturns =>
    refine (hguard he).elim id fun ⟨hcallback, hx⟩ ↦ ?_
    rw [follow_of_held (hcounted (Or.inr (Or.inr (h.within hcallback))))] at hx
    exact absurd hx nofun
  | eventReturns =>
    refine (hguard he).elim id fun ⟨⟨hhandling, _⟩, hx⟩ ↦ ?_
    rw [follow_of_held (hcounted (Or.inr (Or.inr hhandling)))] at hx
    exact absurd hx nofun
  | calls loop sent =>
    rw [Lifespan.step] at he
    split at he
    · rename_i f fs hleft hidle
      have hheld : s.Held := hcounted (Or.inl ⟨loop, by rw [hleft]; simp⟩)
      rw [follow_of_held hheld, bind_ok] at he
      rcases bind_eq_error.mp he with he | ⟨t, -, he⟩
      · exact callFunctor_error he
      · exact absurd he nofun
    all_goals exact Or.inl (Except.error.inj he).symm
  | returns loop =>
    rw [Lifespan.step] at he
    split at he
    · rename_i f fs hleft hcalling
      have hheld : s.Held := hcounted (Or.inl ⟨loop, by rw [hleft]; simp⟩)
      rw [follow_of_held hheld, bind_ok] at he
      rcases bind_eq_error.mp he with he | ⟨t, -, he⟩
      · exact finishFunctor_error he
      · exact absurd he nofun
    all_goals exact Or.inl (Except.error.inj he).symm

/-- A batch of functors without a connection. -/
theorem calls_useAfterFree (build : Build) (h : ¬s.Held) {fs : List Naming}
    (hleft : (s.rounds .io).left = f :: fs) :
    ∃ i, Lifespan.step build s i = .error .useAfterFree := by
  have hfollow : s.follow = .error .useAfterFree := if_neg h
  cases hcalling : (s.rounds .io).calling with
  | true =>
    refine ⟨.returns .io, ?_⟩
    simp only [Lifespan.step, hleft, hcalling, hfollow, bind_error]
  | false =>
    refine ⟨.calls .io .waits, ?_⟩
    simp only [Lifespan.step, hleft, hcalling, hfollow, bind_error]

/-- A channel without a connection, in the list of the active ones or in `handleEvent`. -/
theorem channel_useAfterFree (build : Build) (h : ¬s.Held)
    (hwatched : s.active = true ∨ s.handling = true) :
    ∃ i, Lifespan.step build s i = .error .useAfterFree := by
  have hfollow : s.follow = .error .useAfterFree := if_neg h
  rcases hwatched with hactive | hhandling
  · refine ⟨.handleEvent, ?_⟩
    rw [Lifespan.step, if_pos hactive, hfollow, bind_error]
  · cases hcallback : s.inCallback with
    | true =>
      refine ⟨.callbackReturns, ?_⟩
      rw [Lifespan.step, if_pos hcallback, hfollow, bind_error]
    | false =>
      refine ⟨.eventReturns, ?_⟩
      rw [Lifespan.step, if_pos ⟨hhandling, hcallback⟩, hfollow, bind_error]

/-- Where something is not counted, the loop comes to it. -/
theorem Kept.useAfterFree (build : Build) (h : Kept s) (hcounted : ¬Counted s) :
    ∃ steps, run (Lifespan.step build) s steps = .error .useAfterFree := by
  rw [h.counted_iff, Classical.not_imp] at hcounted
  obtain ⟨hwaits, hheld⟩ := hcounted
  by_cases hwatched : s.active = true ∨ s.handling = true
  · obtain ⟨i, hi⟩ := channel_useAfterFree build hheld hwatched
    exact ⟨[i], by rw [run, hi]⟩
  obtain ⟨f, hf, -⟩ := hwaits.resolve_right hwatched
  cases hleft : (s.rounds .io).left with
  -- the functor is in the batch, which goes on
  | cons g gs =>
    obtain ⟨i, hi⟩ := calls_useAfterFree build hheld hleft
    exact ⟨[i], by rw [run, hi]⟩
  | nil =>
    -- the functor is in the queue: the batch ends, and the next one has it
    have hends : Lifespan.step build s (.ends .io) = .ok (s.ended .io).released := if_pos hleft
    have hheld' : ¬(s.ended .io).Held := fun hended ↦ hheld hended.of_ended
    rw [Lifespan.released, if_neg hheld'] at hends
    rw [not_or, Bool.not_eq_true, Bool.not_eq_true] at hwatched
    have hswap : Lifespan.step build { s.ended .io with standing := .removed } (.swap .io) =
        .ok ({ s.ended .io with standing := .removed }.setRound .io
          (.taken (s.rounds .io).pendingFunctors)) :=
      if_pos ⟨rfl, fun _ ↦ hwatched⟩
    have htaken : ¬({ s.ended .io with standing := .removed }.setRound .io
        (.taken (s.rounds .io).pendingFunctors)).Held := by
      rw [held_setRound]
      · exact hheld'
      · exact (List.append_nil _).symm
    rw [hleft, List.append_nil] at hf
    obtain ⟨g, gs, hpending⟩ := List.exists_cons_of_ne_nil (List.ne_nil_of_mem hf)
    obtain ⟨i, hi⟩ := calls_useAfterFree build htaken hpending
    refine ⟨[.ends .io, .swap .io, i], ?_⟩
    simp only [run, hends, hswap, hi]

theorem kept_of_run {shared : Bool} {steps : List Step}
    (hrun : run (Lifespan.step build) (start shared) steps = .ok s) : Kept s :=
  run_inv (fun _ _ _ h ht ↦ h.step ht) (kept_start shared) hrun

theorem counted_start (shared : Bool) : Counted (start shared) := fun _ ↦ Or.inl rfl

/-- **No functor outlives its connection** in a run of careful steps, and only in such runs: after
one that is not, there is a functor that will follow the pointer in vain. -/
theorem counted_iff_careful (build : Build) (shared : Bool) (steps : List Step) :
    (Along (Lifespan.step build) Careful (start shared) steps →
      Outcome (run (Lifespan.step build) (start shared) steps) Counted (· ≠ .useAfterFree)) ∧
    ∀ s, run (Lifespan.step build) (start shared) steps = .ok s →
      ¬Along (Lifespan.step build) Careful (start shared) steps →
        ¬Counted s ∧ ∃ more, run (Lifespan.step build) s more = .error .useAfterFree := by
  have hiff {s : Lifespan} (hrun : run (Lifespan.step build) (start shared) steps = .ok s) :
      Counted s ↔ Along (Lifespan.step build) Careful (start shared) steps := by
    rw [run_iff_along (fun _ _ _ h ht ↦ Kept.step h ht) (fun _ _ _ h ht ↦ Kept.step_iff h ht)
      (kept_start shared) hrun]
    exact and_iff_right (counted_start shared)
  constructor
  · intro hcareful
    refine outcome_of (fun s hrun ↦ (hiff hrun).mpr hcareful) fun e hrun ↦ ?_
    -- a careful run stops for another reason
    have hstopped : Stopped e := by
      refine Along.run_error (I := fun s ↦ Kept s ∧ Counted s) (fun s i t h hi ht ↦ ?_)
        (fun s i e h _ he ↦ h.1.step_error h.2 he) hcareful
        ⟨kept_start shared, counted_start shared⟩ hrun
      exact ⟨h.1.step ht, (h.1.step_iff ht).mpr ⟨h.2, hi⟩⟩
    rintro rfl
    rcases hstopped with hstopped | ⟨site, hstopped⟩ <;> exact absurd hstopped nofun
  · intro s hrun hcareless
    have hcounted : ¬Counted s := fun hcounted ↦ hcareless ((hiff hrun).mp hcounted)
    exact ⟨hcounted, (kept_of_run hrun).useAfterFree build hcounted⟩

/-- A user thread looks at the state, and queues its `sendInLoop` when the connection is closed and
destroyed. It keeps its reference, the last one, until the functor has run. -/
theorem counted_of_patient :
    ((run (Lifespan.step .debug) (start true) [.calls .io .waits, .acquires 0, .returns .io,
          .ends .io, .callBegins 0 .send, .reports, .handleEvent, .callback .close,
          .callbackReturns, .eventReturns, .swap .io, .calls .io .waits, .returns .io, .ends .io,
          .callSets 0 .send, .callQueues 0 .send, .swap .io, .calls .io .waits, .returns .io,
          .drops 0]).toOption.map fun s ↦ (s.holders, decide s.Held)) = some ([], false) ∧
      Outcome (run (Lifespan.step .debug) (start true) [.calls .io .waits, .acquires 0,
          .returns .io, .ends .io, .callBegins 0 .send, .reports, .handleEvent, .callback .close,
          .callbackReturns, .eventReturns, .swap .io, .calls .io .waits, .returns .io, .ends .io,
          .callSets 0 .send, .callQueues 0 .send, .swap .io, .calls .io .waits, .returns .io,
          .drops 0]) Counted (· ≠ .useAfterFree) :=
  ⟨by decide, (counted_iff_careful .debug true _).1 (by decide)⟩

/-- The same thread drops its reference before the loop comes to the functor; and one that calls
`startRead` on a connection that is destroyed, and drops its reference. Without the asserts, one
that has waited until that functor has run, and drops its reference when `poll` has reported the
channel that is watched again. -/
theorem not_counted :
    (∀ build, run (Lifespan.step build) (start false) [.swap .io, .calls .io .waits, .acquires 0,
        .returns .io, .ends .io, .callBegins 0 .send, .reports, .handleEvent, .callback .close,
        .callbackReturns, .eventReturns, .swap .base, .calls .base .waits, .returns .base,
        .ends .base, .swap .io, .calls .io .waits, .returns .io, .ends .io, .callSets 0 .send,
        .callQueues 0 .send, .drops 0, .swap .io, .calls .io .waits] = .error .useAfterFree ∧
      run (Lifespan.step build) (start false) [.swap .io, .calls .io .waits, .acquires 0,
        .returns .io, .ends .io, .reports, .handleEvent, .callback .close, .callbackReturns,
        .eventReturns, .swap .base, .calls .base .waits, .returns .base, .ends .base, .swap .io,
        .calls .io .waits, .returns .io, .ends .io, .callBegins 0 .startRead,
        .callSets 0 .startRead, .callQueues 0 .startRead, .drops 0, .swap .io,
        .calls .io .waits] = .error .useAfterFree) ∧
      run (Lifespan.step .release) (start false) [.swap .io, .calls .io .waits, .acquires 0,
        .returns .io, .ends .io, .reports, .handleEvent, .callback .close, .callbackReturns,
        .eventReturns, .swap .base, .calls .base .waits, .returns .base, .ends .base, .swap .io,
        .calls .io .waits, .returns .io, .ends .io, .callBegins 0 .startRead,
        .callSets 0 .startRead, .callQueues 0 .startRead, .swap .io, .calls .io .waits,
        .returns .io, .ends .io, .reports, .drops 0, .handleEvent] = .error .useAfterFree :=
  ⟨fun build ↦ by cases build <;> exact ⟨rfl, rfl⟩, rfl⟩

end Lifespan

end TcpServer

end Twnl
