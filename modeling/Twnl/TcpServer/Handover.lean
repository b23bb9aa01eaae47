import Mathlib.Data.List.Count
import Twnl.TcpServer.Basic

/-!
# From loop to loop

A connection is handed four times from loop to loop: it is accepted on the base loop, established on
its own, removed on the base loop, and destroyed on its own. What is queued of this and what was
done of it add up, for each functor, to what was asked for (`Handed`), however the loops go on and
however often a connection closes.

What has someone else post `connectDestroyed`, beside the removals, is a parameter: there is no such
thing while the server lives.
-/

namespace Twnl

namespace TcpServer

open Machine

/-- The connections whose removal has run. -/
def removals (s : ServerSession) : List ℕ := s.erased.map Prod.fst

/-- What stops a run: a connection closes that is closed. -/
def Reclosed (f : Fault) : Prop := f = .impossible ∨ f = .assertion .handleClose

/-- What is queued and what was done add up. -/
structure Handed (posted : List ℕ) (s : ServerSession) : Prop where
  establish : ∀ i k, (s.queues k).count (.connectEstablished i) + s.established.count (i, k) =
    if i < s.accepted ∧ (s.conn i).loop = k then 1 else 0
  remove : ∀ i k, (s.queues k).count (.removeConnectionInLoop i) +
    (if k = 0 then (removals s).count i else 0) = if k = 0 then s.fired.count i else 0
  destroy : ∀ i k, (s.queues k).count (.connectDestroyed i) + s.destroyed.count (i, k) =
    if (s.conn i).loop = k then (removals s).count i + posted.count i else 0
  /-- Nothing but `connectEstablished` is done with a connection before it is established. -/
  begun : ∀ i, i ∈ s.fired ∨ i ∈ s.closing ∨ (∃ c, (c, i) ∈ s.calls) ∨
    (s.conn i).state ≠ .kConnecting → (i, (s.conn i).loop) ∈ s.established

variable {s s' : ServerSession} {i id k loop : ℕ} {f : ServerFunctor} {name : List Char}
  {posted : List ℕ}

theorem handed_start (name : List Char) (numThreads : ℕ) : Handed [] (.start name numThreads) := by
  refine ⟨fun i k ↦ ?_, fun i k ↦ ?_, fun i k ↦ (ite_self _).symm, ?_⟩
  · exact (if_neg fun h ↦ Nat.not_lt_zero i h.1).symm
  · change 0 + (if k = 0 then 0 else 0) = if k = 0 then 0 else 0
    rw [Nat.zero_add]
  · rintro i (h | h | ⟨c, h⟩ | h)
    · exact absurd h List.not_mem_nil
    · exact absurd h List.not_mem_nil
    · exact absurd h List.not_mem_nil
    · exact absurd rfl h

namespace Handed

theorem lt_accepted (h : Handed posted s) (hid : (id, loop) ∈ s.established) :
    id < s.accepted ∧ (s.conn id).loop = loop := by
  by_contra hnot
  have hcount := h.establish id loop
  rw [if_neg hnot] at hcount
  have hpos := List.count_pos_iff.mpr hid
  omega

/-- A connection that was removed was closed before. -/
theorem fired_of_removed (h : Handed posted s) (hid : id ∈ removals s) : id ∈ s.fired := by
  have hcount := h.remove id 0
  rw [if_pos rfl, if_pos rfl] at hcount
  have hpos := List.count_pos_iff.mpr hid
  exact List.count_pos_iff.mp (by omega)

theorem not_established (h : Handed posted s) (k : ℕ) : (s.accepted, k) ∉ s.established :=
  fun hmem ↦ Nat.lt_irrefl _ (h.lt_accepted hmem).1

theorem not_removed (h : Handed posted s) : s.accepted ∉ removals s :=
  fun hmem ↦ h.not_established _ (h.begun _ (Or.inl (h.fired_of_removed hmem)))

end Handed

/-! ## Queues -/

theorem count_concat {α : Type*} [BEq α] [LawfulBEq α] [DecidableEq α] (l : List α) (a b : α) :
    (l ++ [a]).count b = l.count b + if b = a then 1 else 0 := by
  rw [List.count_append, List.count_singleton]
  by_cases h : b = a
  · rw [if_pos h, if_pos (beq_iff_eq.mpr h.symm)]
  · rw [if_neg h, if_neg fun heq ↦ h (beq_iff_eq.mp heq).symm]

theorem queues_queueInLoop (s : ServerSession) (loop : ℕ) (f : ServerFunctor) :
    (s.queueInLoop loop f).queues = Function.update s.queues loop (s.queues loop ++ [f]) := rfl

theorem count_queueInLoop (s : ServerSession) (loop : ℕ) (f : ServerFunctor) (k : ℕ)
    (g : ServerFunctor) : ((s.queueInLoop loop f).queues k).count g =
      (s.queues k).count g + if g = f ∧ k = loop then 1 else 0 := by
  rw [queues_queueInLoop]
  by_cases hk : k = loop
  · subst hk
    rw [Function.update_self, count_concat]
    simp only [and_true]
  · rw [Function.update_of_ne hk, if_neg (fun h ↦ hk h.2), Nat.add_zero]

/-- One more `connectDestroyed` in the queue of its loop is one more that is due. -/
theorem destroy_queued {queued done due : ℕ} (id i k : ℕ)
    (h : queued + done = if (s.conn i).loop = k then due else 0) :
    (queued + if ServerFunctor.connectDestroyed i = .connectDestroyed id ∧ k = (s.conn id).loop
        then 1 else 0) + done =
      if (s.conn i).loop = k then due + (if i = id then 1 else 0) else 0 := by
  simp only [ServerFunctor.connectDestroyed.injEq]
  by_cases hid : i = id
  · subst hid
    by_cases hk : (s.conn i).loop = k
    · rw [if_pos hk] at h
      rw [if_pos ⟨rfl, hk.symm⟩, if_pos hk, if_pos rfl]
      omega
    · rw [if_neg hk] at h
      rw [if_neg fun h ↦ hk h.2.symm, if_neg hk]
      omega
  · simp only [hid, false_and, if_false, Nat.add_zero]
    exact h

/-- The queues are those of the session but for one functor of a loop. -/
def Popped (s : ServerSession) (queues : ℕ → List ServerFunctor) (loop : ℕ) (f : ServerFunctor) :
    Prop :=
  ∀ k g, (queues k).count g + (if g = f ∧ k = loop then 1 else 0) = (s.queues k).count g

theorem popped_of_cons {fs : List ServerFunctor} (h : s.queues loop = f :: fs) :
    Popped s (Function.update s.queues loop fs) loop f := by
  intro k g
  by_cases hk : k = loop
  · subst hk
    rw [Function.update_self, h, List.count_cons]
    by_cases hg : g = f
    · rw [if_pos ⟨hg, rfl⟩, if_pos (beq_iff_eq.mpr hg.symm)]
    · rw [if_neg (fun h ↦ hg h.1), if_neg (fun h ↦ hg (beq_iff_eq.mp h).symm)]
  · rw [Function.update_of_ne hk, if_neg (fun h ↦ hk h.2), Nat.add_zero]

theorem Popped.mem {queues : ℕ → List ServerFunctor} (h : Popped s queues loop f) :
    f ∈ s.queues loop := by
  have hcount := h loop f
  rw [if_pos ⟨rfl, rfl⟩] at hcount
  exact List.count_pos_iff.mp (by omega)

/-- What runs at once might have been queued. -/
theorem popped_queueInLoop (s : ServerSession) (loop : ℕ) (f : ServerFunctor) :
    Popped (s.queueInLoop loop f) s.queues loop f :=
  fun k g ↦ (count_queueInLoop s loop f k g).symm

/-- The functors that hand connections from loop to loop. -/
def HandsOver (f : ServerFunctor) : Prop :=
  ∃ i, f = .connectEstablished i ∨ f = .removeConnectionInLoop i ∨ f = .connectDestroyed i

theorem not_handsOver_callFunctor (c : StateCall) (id : ℕ) :
    ¬HandsOver (ServerSession.callFunctor c id) := by
  rintro ⟨i, h⟩
  cases c <;> rcases h with h | h | h <;> exact absurd h nofun

/-! ## States -/

theorem conn_setState (s : ServerSession) (id : ℕ) (state : StateE) :
    (s.setState id state).conn =
      Function.update s.conn id { s.conn id with state := state } := rfl

@[simp] theorem setState_loop (s : ServerSession) (id : ℕ) (state : StateE) (i : ℕ) :
    ((s.setState id state).conn i).loop = (s.conn i).loop := by
  rw [conn_setState]
  by_cases hi : i = id
  · subst hi
    rw [Function.update_self]
  · rw [Function.update_of_ne hi]

@[simp] theorem setState_name (s : ServerSession) (id : ℕ) (state : StateE) (i : ℕ) :
    ((s.setState id state).conn i).name = (s.conn i).name := by
  rw [conn_setState]
  by_cases hi : i = id
  · subst hi
    rw [Function.update_self]
  · rw [Function.update_of_ne hi]

theorem setState_state_of_ne {state : StateE} (hi : i ≠ id) :
    ((s.setState id state).conn i).state = (s.conn i).state := by
  rw [conn_setState, Function.update_of_ne hi]

theorem ne_kConnecting_of_passes {c : StateCall} {state : StateE}
    (h : ServerSession.Passes c state) : state ≠ .kConnecting := by
  rintro rfl
  cases c with
  | shutdown => exact absurd h nofun
  | forceClose => exact h.elim nofun nofun

namespace Handed

/-- The queues count for what they hand over. -/
theorem withQueues (h : Handed posted s) {queues : ℕ → List ServerFunctor}
    (hqueues : ∀ k g, HandsOver g → (queues k).count g = (s.queues k).count g) :
    Handed posted { s with queues := queues } := by
  refine ⟨fun i k ↦ ?_, fun i k ↦ ?_, fun i k ↦ ?_, h.begun⟩
  · change (queues k).count _ + _ = _
    rw [hqueues k _ ⟨i, Or.inl rfl⟩]
    exact h.establish i k
  · change (queues k).count _ + _ = _
    rw [hqueues k _ ⟨i, Or.inr (Or.inl rfl)⟩]
    exact h.remove i k
  · change (queues k).count _ + _ = _
    rw [hqueues k _ ⟨i, Or.inr (Or.inr rfl)⟩]
    exact h.destroy i k

theorem queueOther (h : Handed posted s) (hf : ¬HandsOver f) :
    Handed posted (s.queueInLoop loop f) := by
  refine h.withQueues fun k g hg ↦ ?_
  have hcount := count_queueInLoop s loop f k g
  rwa [if_neg (fun heq : g = f ∧ k = loop ↦ hf (heq.1 ▸ hg)), Nat.add_zero] at hcount

theorem popOther (h : Handed posted s) {queues : ℕ → List ServerFunctor}
    (hpop : Popped s queues loop f) (hf : ¬HandsOver f) :
    Handed posted { s with queues := queues } := by
  refine h.withQueues fun k g hg ↦ ?_
  have hcount := hpop k g
  rwa [if_neg (fun heq : g = f ∧ k = loop ↦ hf (heq.1 ▸ hg)), Nat.add_zero] at hcount

/-- Once it is established a connection may be in any state. -/
theorem setState (h : Handed posted s) (hid : (id, (s.conn id).loop) ∈ s.established)
    (state : StateE) : Handed posted (s.setState id state) := by
  refine ⟨fun i k ↦ ?_, h.remove, fun i k ↦ ?_, fun i hi ↦ ?_⟩
  · rw [setState_loop]
    exact h.establish i k
  · rw [setState_loop]
    exact h.destroy i k
  · rw [setState_loop]
    by_cases heq : i = id
    · rw [heq]
      exact hid
    · rw [setState_state_of_ne heq] at hi
      exact h.begun i hi

/-! ## Functors -/

theorem connectEstablished (h : Handed posted s) {queues : ℕ → List ServerFunctor}
    (hpop : Popped s queues loop (.connectEstablished id)) :
    Outcome (ServerSession.connectEstablished { s with queues := queues } loop id) (Handed posted)
      Reclosed := by
  have hpos := hpop loop (.connectEstablished id)
  rw [if_pos ⟨rfl, rfl⟩] at hpos
  have hcount := h.establish id loop
  have hloop : id < s.accepted ∧ (s.conn id).loop = loop := by
    by_contra hnot
    rw [if_neg hnot] at hcount
    omega
  rw [if_pos hloop] at hcount
  -- it is queued once, so it has not run before
  have hnew : (id, loop) ∉ s.established := List.count_eq_zero.mp (by omega)
  have hstate : (s.conn id).state = .kConnecting := by
    by_contra hstate
    have hmem := h.begun id (Or.inr (Or.inr (Or.inr hstate)))
    rw [hloop.2] at hmem
    exact hnew hmem
  -- what leaves the queue enters the record
  have hdone : Handed posted { s with
      queues := queues, established := s.established ++ [(id, loop)] } := by
    refine ⟨fun i k ↦ ?_, fun i k ↦ ?_, fun i k ↦ ?_,
      fun i hi ↦ List.mem_append_left _ (h.begun i hi)⟩
    · have hi := h.establish i k
      have hq := hpop k (.connectEstablished i)
      change (queues k).count _ + (s.established ++ [(id, loop)]).count (i, k) =
        if i < s.accepted ∧ (s.conn i).loop = k then 1 else 0
      rw [count_concat]
      simp only [Prod.mk.injEq, ServerFunctor.connectEstablished.injEq] at hq ⊢
      omega
    · have hq := hpop k (.removeConnectionInLoop i)
      simp only [reduceCtorEq, false_and, if_false, Nat.add_zero] at hq
      exact hq ▸ h.remove i k
    · have hq := hpop k (.connectDestroyed i)
      simp only [reduceCtorEq, false_and, if_false, Nat.add_zero] at hq
      exact hq ▸ h.destroy i k
  rw [ServerSession.connectEstablished, check_pos hstate, bind_ok, outcome_ok]
  refine hdone.setState (List.mem_append_right _ (List.mem_singleton.mpr ?_)) .kConnected
  rw [hloop.2]

/-- A removal is due to a close callback, and is on the base loop. -/
theorem remove_pos (h : Handed posted s) (hmem : .removeConnectionInLoop id ∈ s.queues loop) :
    loop = 0 ∧ (removals s).count id < s.fired.count id := by
  have hpos := List.count_pos_iff.mpr hmem
  have hcount := h.remove id loop
  by_cases hloop : loop = 0
  · subst hloop
    rw [if_pos rfl, if_pos rfl] at hcount
    exact ⟨rfl, by omega⟩
  · rw [if_neg hloop, if_neg hloop] at hcount
    omega

theorem removeConnectionInLoop (h : Handed posted s) {queues : ℕ → List ServerFunctor}
    (hpop : Popped s queues loop (.removeConnectionInLoop id)) :
    Handed posted (ServerSession.removeConnectionInLoop { s with queues := queues } id) := by
  have hloop := (h.remove_pos hpop.mem).1
  have hremovals : removals (ServerSession.removeConnectionInLoop { s with queues := queues } id) =
      removals s ++ [id] := List.map_append
  have hqueues (g : ServerFunctor) (k : ℕ) :
      ((ServerSession.removeConnectionInLoop { s with queues := queues } id).queues k).count g =
        (queues k).count g +
          if g = .connectDestroyed id ∧ k = (s.conn id).loop then 1 else 0 :=
    count_queueInLoop _ _ _ k g
  refine ⟨fun i k ↦ ?_, fun i k ↦ ?_, fun i k ↦ ?_, h.begun⟩
  · have hq := hpop k (.connectEstablished i)
    simp only [reduceCtorEq, false_and, if_false, Nat.add_zero] at hq
    rw [hqueues, if_neg nofun, Nat.add_zero, hq]
    exact h.establish i k
  · have hi := h.remove i k
    have hq := hpop k (.removeConnectionInLoop i)
    rw [hqueues, if_neg nofun, Nat.add_zero, hremovals, count_concat]
    simp only [ServerFunctor.removeConnectionInLoop.injEq, hloop] at hq
    change _ = if k = 0 then s.fired.count i else 0
    by_cases hk : k = 0
    · simp only [hk, and_true, if_true] at hi hq ⊢
      omega
    · simp only [hk, and_false, if_false] at hi hq ⊢
      omega
  · -- the removal is what asks for one more `connectDestroyed`
    have hi := h.destroy i k
    have hq := hpop k (.connectDestroyed i)
    simp only [reduceCtorEq, false_and, if_false, Nat.add_zero] at hq
    rw [hqueues, hremovals, count_concat, hq]
    change _ + s.destroyed.count (i, k) = if (s.conn i).loop = k then _ else 0
    rw [Nat.add_right_comm ((removals s).count i)]
    exact destroy_queued id i k hi

theorem connectDestroyed (h : Handed posted s) {queues : ℕ → List ServerFunctor}
    (hpop : Popped s queues loop (.connectDestroyed id)) :
    Handed posted (ServerSession.connectDestroyed { s with queues := queues } loop id) := by
  have hdone : Handed posted { s with
      queues := queues, destroyed := s.destroyed ++ [(id, loop)] } := by
    refine ⟨fun i k ↦ ?_, fun i k ↦ ?_, fun i k ↦ ?_, h.begun⟩
    · have hq := hpop k (.connectEstablished i)
      simp only [reduceCtorEq, false_and, if_false, Nat.add_zero] at hq
      exact hq ▸ h.establish i k
    · have hq := hpop k (.removeConnectionInLoop i)
      simp only [reduceCtorEq, false_and, if_false, Nat.add_zero] at hq
      exact hq ▸ h.remove i k
    · have hi := h.destroy i k
      have hq := hpop k (.connectDestroyed i)
      change (queues k).count _ + (s.destroyed ++ [(id, loop)]).count (i, k) =
        if (s.conn i).loop = k then (removals s).count i + posted.count i else 0
      rw [count_concat]
      simp only [Prod.mk.injEq, ServerFunctor.connectDestroyed.injEq] at hq ⊢
      omega
  rw [ServerSession.connectDestroyed]
  dsimp only
  split
  · rename_i hstate
    -- a connection that is up was established
    have hbegun : (s.conn id).state ≠ .kConnecting := by
      intro hconnecting
      exact absurd (hconnecting.symm.trans hstate) nofun
    exact hdone.setState (h.begun id (Or.inr (Or.inr (Or.inr hbegun)))) .kDisconnected
  · exact hdone

theorem handleClose (h : Handed posted s) :
    Outcome (s.handleClose id) (Handed posted) Reclosed := by
  rw [ServerSession.handleClose]
  by_cases hstate : (s.conn id).state = .kConnected ∨ (s.conn id).state = .kDisconnecting
  · have hbegun : (s.conn id).state ≠ .kConnecting := by
      rcases hstate with hstate | hstate <;> rw [hstate] <;> exact nofun
    have hestablished := h.begun id (Or.inr (Or.inr (Or.inr hbegun)))
    have hclosing : Handed posted { s with closing := s.closing ++ [id] } := by
      refine ⟨h.establish, h.remove, h.destroy, fun i hi ↦ ?_⟩
      rcases hi with hi | hi | hi | hi
      · exact h.begun i (Or.inl hi)
      · rcases List.mem_append.mp hi with hi | hi
        · exact h.begun i (Or.inr (Or.inl hi))
        · obtain rfl := List.mem_singleton.mp hi
          exact hestablished
      · exact h.begun i (Or.inr (Or.inr (Or.inl hi)))
      · exact h.begun i (Or.inr (Or.inr (Or.inr hi)))
    rw [check_pos hstate, bind_ok, outcome_ok]
    exact hclosing.setState hestablished .kDisconnected
  · rw [check_neg hstate]
    exact Or.inr rfl

/-- The functor that was taken runs. -/
theorem runFunctor (h : Handed posted s) {queues : ℕ → List ServerFunctor}
    (hpop : Popped s queues loop f) :
    Outcome (ServerSession.runFunctor { s with queues := queues } loop f) (Handed posted)
      Reclosed := by
  cases f with
  | connectEstablished id => exact h.connectEstablished hpop
  | removeConnectionInLoop id => exact h.removeConnectionInLoop hpop
  | connectDestroyed id => exact h.connectDestroyed hpop
  | shutdownInLoop id => exact h.popOther hpop (not_handsOver_callFunctor .shutdown id)
  | forceCloseInLoop id =>
    have hpopped := h.popOther hpop (not_handsOver_callFunctor .forceClose id)
    rw [ServerSession.runFunctor, ServerSession.forceCloseInLoop]
    split
    · exact hpopped.handleClose
    · exact hpopped

end Handed

/-! ## Calls and events -/

/-- The server after a connection is made, and the connection in the map. -/
def listedConnection (s : ServerSession) : ServerSession :=
  ServerSession.setConnection { s with
    server := { ServerSession.advance s.server with
      nextConnId := increment s.server.nextConnId }
    accepted := s.accepted + 1
    conn := Function.update s.conn s.accepted
      ⟨ServerSession.getNextLoop s.server, ServerSession.connName s.server, .kConnecting⟩ }
    (ServerSession.connName s.server) s.accepted

theorem advance_frame (server : TcpServer) :
    (ServerSession.advance server).ipPort = server.ipPort ∧
      (ServerSession.advance server).name = server.name ∧
      (ServerSession.advance server).connections = server.connections := by
  rw [ServerSession.advance]
  split <;> exact ⟨rfl, rfl, rfl⟩

theorem newConnection_eq (s : ServerSession) :
    s.newConnection = if ServerSession.getNextLoop s.server = 0 then
        (listedConnection s).connectEstablished 0 s.accepted
      else .ok ((listedConnection s).queueInLoop (ServerSession.getNextLoop s.server)
        (.connectEstablished s.accepted)) := rfl

theorem listedConnection_self (s : ServerSession) : (listedConnection s).conn s.accepted =
    ⟨ServerSession.getNextLoop s.server, ServerSession.connName s.server, .kConnecting⟩ :=
  Function.update_self _ _ _

theorem listedConnection_of_ne (hi : i ≠ s.accepted) :
    (listedConnection s).conn i = s.conn i :=
  Function.update_of_ne hi _ _

namespace Handed

/-- A connection is made, and is to be established. -/
theorem queueListed (h : Handed [] s) :
    Handed [] ((listedConnection s).queueInLoop (ServerSession.getNextLoop s.server)
      (.connectEstablished s.accepted)) := by
  have hqueues (g : ServerFunctor) (k : ℕ) :
      (((listedConnection s).queueInLoop (ServerSession.getNextLoop s.server)
        (.connectEstablished s.accepted)).queues k).count g = (s.queues k).count g +
          if g = .connectEstablished s.accepted ∧ k = ServerSession.getNextLoop s.server then 1
          else 0 :=
    count_queueInLoop _ _ _ k g
  refine ⟨fun i k ↦ ?_, fun i k ↦ ?_, fun i k ↦ ?_, fun i hi ↦ ?_⟩
  · -- the new connection is the first that is asked to be established
    have hi := h.establish i k
    rw [hqueues]
    change _ + s.established.count (i, k) =
      if i < s.accepted + 1 ∧ ((listedConnection s).conn i).loop = k then 1 else 0
    simp only [ServerFunctor.connectEstablished.injEq]
    by_cases heq : i = s.accepted
    · subst heq
      rw [if_neg fun hlt ↦ Nat.lt_irrefl _ hlt.1] at hi
      rw [listedConnection_self]
      by_cases hk : k = ServerSession.getNextLoop s.server
      · rw [if_pos ⟨rfl, hk⟩, if_pos ⟨Nat.lt_succ_self _, hk.symm⟩]
        omega
      · rw [if_neg fun h ↦ hk h.2, if_neg fun h ↦ hk h.2.symm]
        omega
    · have hlt : i < s.accepted + 1 ↔ i < s.accepted := by omega
      rw [if_neg fun h ↦ heq h.1, listedConnection_of_ne heq, Nat.add_zero]
      simp only [hlt]
      exact hi
  · rw [hqueues, if_neg nofun, Nat.add_zero]
    exact h.remove i k
  · have hi := h.destroy i k
    rw [hqueues, if_neg nofun, Nat.add_zero]
    change _ + s.destroyed.count (i, k) = if ((listedConnection s).conn i).loop = k then
      (removals s).count i + List.count i [] else 0
    by_cases heq : i = s.accepted
    · rw [heq, List.count_eq_zero.mpr h.not_removed, List.count_nil, ite_self] at hi ⊢
      exact hi
    · rw [listedConnection_of_ne heq]
      exact hi
  · by_cases heq : i = s.accepted
    · -- nothing was done yet with the new connection
      subst heq
      rcases hi with hi | hi | hi | hi
      · exact absurd (h.begun _ (Or.inl hi)) (h.not_established _)
      · exact absurd (h.begun _ (Or.inr (Or.inl hi))) (h.not_established _)
      · exact absurd (h.begun _ (Or.inr (Or.inr (Or.inl hi)))) (h.not_established _)
      · exact absurd (congrArg ServerConn.state (listedConnection_self s)) hi
    · have hi' : i ∈ s.fired ∨ i ∈ s.closing ∨ (∃ c, (c, i) ∈ s.calls) ∨
          (s.conn i).state ≠ .kConnecting := by
        rw [← listedConnection_of_ne heq]
        exact hi
      change (i, ((listedConnection s).conn i).loop) ∈ s.established
      rw [listedConnection_of_ne heq]
      exact h.begun i hi'

/-- A connection is accepted. -/
theorem newConnection (h : Handed [] s) : Outcome s.newConnection (Handed []) Reclosed := by
  have hlisted := h.queueListed
  rw [newConnection_eq]
  split
  · rename_i hzero
    rw [hzero] at hlisted
    exact hlisted.connectEstablished (popped_queueInLoop (listedConnection s) 0 _)
  · exact hlisted

/-- The close callback of a connection, as though its functor were queued. -/
theorem queueRemoval (h : Handed posted s) (hid : id ∈ s.closing) :
    Handed posted (ServerSession.queueInLoop
      { s with closing := s.closing.erase id, fired := s.fired ++ [id] } 0
      (.removeConnectionInLoop id)) := by
  have hestablished := h.begun id (Or.inr (Or.inl hid))
  have hqueues (g : ServerFunctor) (k : ℕ) :
      ((ServerSession.queueInLoop
        { s with closing := s.closing.erase id, fired := s.fired ++ [id] } 0
        (.removeConnectionInLoop id)).queues k).count g = (s.queues k).count g +
          if g = .removeConnectionInLoop id ∧ k = 0 then 1 else 0 :=
    count_queueInLoop _ _ _ k g
  refine ⟨fun i k ↦ ?_, fun i k ↦ ?_, fun i k ↦ ?_, fun i hi ↦ ?_⟩
  · rw [hqueues, if_neg nofun, Nat.add_zero]
    exact h.establish i k
  · have hi := h.remove i k
    rw [hqueues]
    change _ + (if k = 0 then (removals s).count i else 0) =
      if k = 0 then (s.fired ++ [id]).count i else 0
    rw [count_concat]
    simp only [ServerFunctor.removeConnectionInLoop.injEq]
    by_cases hk : k = 0
    · simp only [hk, and_true, if_true] at hi ⊢
      omega
    · simp only [hk, and_false, if_false] at hi ⊢
      omega
  · rw [hqueues, if_neg nofun, Nat.add_zero]
    exact h.destroy i k
  · rcases hi with hi | hi | hi | hi
    · rcases List.mem_append.mp hi with hi | hi
      · exact h.begun i (Or.inl hi)
      · obtain rfl := List.mem_singleton.mp hi
        exact hestablished
    · exact h.begun i (Or.inr (Or.inl (List.mem_of_mem_erase hi)))
    · exact h.begun i (Or.inr (Or.inr (Or.inl hi)))
    · exact h.begun i (Or.inr (Or.inr (Or.inr hi)))

/-- The close callback of a connection fires. -/
theorem removeConnection (h : Handed posted s) (hid : id ∈ s.closing) :
    Handed posted
      (ServerSession.removeConnection { s with closing := s.closing.erase id } id) := by
  have hcalled := h.queueRemoval hid
  rw [ServerSession.removeConnection]
  dsimp only
  split
  · exact hcalled.removeConnectionInLoop (popped_queueInLoop _ 0 _)
  · exact hcalled

theorem callBegins (h : Handed posted s) {c : StateCall}
    (hpasses : ServerSession.Passes c (s.conn id).state) :
    Handed posted { s with calls := s.calls ++ [(c, id)] } := by
  refine ⟨h.establish, h.remove, h.destroy, fun i hi ↦ ?_⟩
  rcases hi with hi | hi | ⟨c', hi⟩ | hi
  · exact h.begun i (Or.inl hi)
  · exact h.begun i (Or.inr (Or.inl hi))
  · rcases List.mem_append.mp hi with hi | hi
    · exact h.begun i (Or.inr (Or.inr (Or.inl ⟨c', hi⟩)))
    · obtain ⟨rfl, rfl⟩ := Prod.mk.inj (List.mem_singleton.mp hi)
      exact h.begun i (Or.inr (Or.inr (Or.inr (ne_kConnecting_of_passes hpasses))))
  · exact h.begun i (Or.inr (Or.inr (Or.inr hi)))

theorem setCall (h : Handed posted s) {c : StateCall} (hid : (c, id) ∈ s.calls) :
    Handed posted (s.setCall c id) := by
  have hset := h.setState (h.begun id (Or.inr (Or.inr (Or.inl ⟨c, hid⟩)))) .kDisconnecting
  refine ⟨hset.establish, hset.remove, hset.destroy, fun i hi ↦ ?_⟩
  rcases hi with hi | hi | ⟨c', hi⟩ | hi
  · exact hset.begun i (Or.inl hi)
  · exact hset.begun i (Or.inr (Or.inl hi))
  · exact hset.begun i (Or.inr (Or.inr (Or.inl ⟨c', List.mem_of_mem_erase hi⟩)))
  · exact hset.begun i (Or.inr (Or.inr (Or.inr hi)))

theorem finishCall (h : Handed posted s) (c : StateCall) (id : ℕ) :
    Handed posted (s.finishCall c id) := by
  have hended : Handed posted { s with queueing := s.queueing.erase (c, id) } :=
    ⟨h.establish, h.remove, h.destroy, h.begun⟩
  exact hended.queueOther (not_handsOver_callFunctor c id)

/-- The step lemma. -/
theorem step {i : Step} (h : Handed posted s) (hi : i = .accept → posted = []) :
    Outcome (TcpServer.step s i) (Handed posted) Reclosed := by
  cases i with
  | accept =>
    obtain rfl := hi rfl
    exact h.newConnection
  | closes id =>
    rw [TcpServer.step]
    split
    · exact h.handleClose
    · exact Or.inl rfl
  | closeCallback id =>
    rw [TcpServer.step]
    split
    · exact h.removeConnection ‹_›
    · exact Or.inl rfl
  | callBegins c id =>
    rw [TcpServer.step]
    split
    · split
      · exact h.callBegins ‹_›
      · exact h
    · exact Or.inl rfl
  | callSets c id =>
    rw [TcpServer.step]
    split
    · exact h.setCall ‹_›
    · exact Or.inl rfl
  | callEnds c id =>
    rw [TcpServer.step]
    split
    · exact h.finishCall c id
    · exact Or.inl rfl
  | pending loop =>
    rw [TcpServer.step]
    split
    · exact h.runFunctor (popped_of_cons ‹_›)
    · exact Or.inl rfl

end Handed

end TcpServer

end Twnl
