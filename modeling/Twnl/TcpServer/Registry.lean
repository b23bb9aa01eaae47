import Mathlib.Data.List.Nodup
import Twnl.TcpServer.Record

/-!
# The registry of the connections

The map of the server holds the connections that were accepted and not removed, under distinct
names, so that nothing in it is overwritten and every removal finds its entry (`registered`). What
goes from loop to loop adds up (`Handed`), so that a connection whose close callback fires once is
removed and destroyed once.
-/

namespace Twnl

namespace TcpServer

open Machine

/-! ## The law -/

/-- There are fewer than 2³¹ connections, and each close callback fires once. -/
def Conforming (s : ServerSession) : Step → Prop
  | .accept => s.accepted + 1 < 2 ^ 31
  | .closeCallback id => id ∉ s.fired
  | .closes _ | .callBegins _ _ | .callSets _ _ | .callEnds _ _ | .pending _ => True

instance (s : ServerSession) : DecidablePred (Conforming s)
  | .accept => inferInstanceAs (Decidable (_ < _))
  | .closeCallback _ => inferInstanceAs (Decidable (_ ∉ _))
  | .closes _ | .callBegins _ _ | .callSets _ _ | .callEnds _ _ | .pending _ =>
    inferInstanceAs (Decidable True)

structure Registered (s : ServerSession) : Prop where
  distinct : ∀ i < s.accepted, ∀ j < s.accepted, (s.conn i).name = (s.conn j).name → i = j
  overwritten : s.overwritten = []
  erasesOne : ∀ e ∈ s.erased, e.2 = 1
  /-- The map holds what was accepted and not removed. -/
  holds : s.server.connections.Nodup ∧ ∀ name id, (name, id) ∈ s.server.connections ↔
    id < s.accepted ∧ id ∉ removals s ∧ name = (s.conn id).name
  destroyedOnce : (s.destroyed.map Prod.fst).Nodup
  /-- Whatever was destroyed was established before, on the same loop, which is its own. -/
  destroyed : ∀ id loop, (id, loop) ∈ s.destroyed →
    loop = (s.conn id).loop ∧ (id, loop) ∈ s.established

/-! ## The invariant -/

/-- The map, the names, and the record of the removals. -/
structure Catalog (s : ServerSession) : Prop where
  ipPort : s.server.ipPort = []
  connId : s.server.nextConnId = connIdAt s.accepted
  few : s.accepted < 2 ^ 31
  named : ∀ i < s.accepted, (s.conn i).name = connNameAt s.server.name i
  listed : s.server.connections = ((List.range s.accepted).filter (· ∉ removals s)).map
    fun i ↦ ((s.conn i).name, i)
  overwritten : s.overwritten = []
  erasesOne : ∀ e ∈ s.erased, e.2 = 1
  firedOnce : ∀ i, s.fired.count i ≤ 1

structure Enrolled (s : ServerSession) : Prop where
  handed : Handed [] s
  catalog : Catalog s

variable {s s' : ServerSession} {i id k loop : ℕ} {f : ServerFunctor} {name : List Char}

theorem catalog_start (name : List Char) (numThreads : ℕ) : Catalog (.start name numThreads) := by
  have hfew : 0 + 1 < 2 ^ 31 := by omega
  exact ⟨rfl, (connIdAt_eq hfew).symm, Nat.two_pow_pos 31, fun i hi ↦ absurd hi (Nat.not_lt_zero i),
    rfl, rfl, nofun, fun i ↦ Nat.zero_le 1⟩

namespace Catalog

theorem name_inj (h : Catalog s) {j : ℕ} (hi : i < s.accepted) (hj : j < s.accepted)
    (heq : (s.conn i).name = (s.conn j).name) : i = j := by
  rw [h.named i hi, h.named j hj] at heq
  have hfew := h.few
  exact connNameAt_inj (by omega) (by omega) heq

theorem mem_connections (h : Catalog s) : (name, id) ∈ s.server.connections ↔
    id < s.accepted ∧ id ∉ removals s ∧ name = (s.conn id).name := by
  rw [h.listed, List.mem_map]
  constructor
  · rintro ⟨j, hj, heq⟩
    obtain ⟨rfl, rfl⟩ := Prod.mk.inj heq
    obtain ⟨hlt, hopen⟩ := List.mem_filter.mp hj
    exact ⟨List.mem_range.mp hlt, of_decide_eq_true hopen, rfl⟩
  · rintro ⟨hlt, hopen, rfl⟩
    exact ⟨id, List.mem_filter.mpr ⟨List.mem_range.mpr hlt, decide_eq_true hopen⟩, rfl⟩

/-- A connection that was not removed has one entry. -/
theorem countP_name (h : Catalog s) (hlt : id < s.accepted) (hopen : id ∉ removals s) :
    s.server.connections.countP (·.1 = (s.conn id).name) = 1 := by
  have hmem : id ∈ (List.range s.accepted).filter (· ∉ removals s) :=
    List.mem_filter.mpr ⟨List.mem_range.mpr hlt, decide_eq_true hopen⟩
  have hnodup : ((List.range s.accepted).filter (· ∉ removals s)).Nodup :=
    List.nodup_range.filter _
  rw [h.listed, List.countP_map, ← List.count_eq_one_of_mem hnodup hmem, List.count]
  refine List.countP_congr fun i hi ↦ ?_
  have hlt' := List.mem_range.mp (List.mem_filter.mp hi).1
  rw [Function.comp_apply, decide_eq_true_iff, beq_iff_eq]
  exact ⟨h.name_inj hlt' hlt, fun heq ↦ heq ▸ rfl⟩

/-- Without its name the entries are those of the others. -/
theorem filter_name (h : Catalog s) (hlt : id < s.accepted) :
    s.server.connections.filter (·.1 ≠ (s.conn id).name) =
      ((List.range s.accepted).filter (· ∉ removals s ++ [id])).map
        fun i ↦ ((s.conn i).name, i) := by
  rw [h.listed, List.filter_map, List.filter_filter]
  congr 1
  refine List.filter_congr fun i hi ↦ ?_
  have hname : (s.conn i).name = (s.conn id).name ↔ i = id :=
    ⟨h.name_inj (List.mem_range.mp hi) hlt, fun heq ↦ heq ▸ rfl⟩
  rw [Function.comp_apply, ← Bool.decide_and]
  refine decide_eq_decide.mpr ?_
  rw [List.mem_append, List.mem_singleton, not_or, ne_eq, hname, and_comm]

/-- A name that was not given is not in the map. -/
theorem connName_ne (h : Catalog s) (hfew : s.accepted + 1 < 2 ^ 31) {e : List Char × ℕ}
    (he : e ∈ s.server.connections) : e.1 ≠ connNameAt s.server.name s.accepted := by
  obtain ⟨hlt, -, hname⟩ := h.mem_connections.mp (show (e.1, e.2) ∈ s.server.connections from he)
  intro heq
  rw [hname, h.named e.2 hlt] at heq
  have hsame := connNameAt_inj (by omega) hfew heq
  omega

theorem connName_eq (h : Catalog s) :
    ServerSession.connName s.server = connNameAt s.server.name s.accepted := by
  rw [ServerSession.connName, h.ipPort, h.connId]
  rfl

/-! ### Steps -/

theorem congr (h : Catalog s) (hsame : SameRecord s s') : Catalog s' := by
  refine ⟨?_, ?_, ?_, fun i hi ↦ ?_, ?_, ?_, ?_, ?_⟩
  · rw [hsame.server]
    exact h.ipPort
  · rw [hsame.server, hsame.accepted]
    exact h.connId
  · rw [hsame.accepted]
    exact h.few
  · rw [hsame.name, hsame.server]
    exact h.named i (hsame.accepted ▸ hi)
  · rw [hsame.server, hsame.accepted, hsame.removals]
    simp only [hsame.name]
    exact h.listed
  · rw [hsame.overwritten]
    exact h.overwritten
  · rw [hsame.erased]
    exact h.erasesOne
  · rw [hsame.fired]
    exact h.firedOnce

/-- The removal of a connection finds its entry. -/
theorem removeConnectionInLoop (h : Catalog s) (hlt : id < s.accepted) (hopen : id ∉ removals s) :
    Catalog (s.removeConnectionInLoop id) := by
  have hremovals : removals (s.removeConnectionInLoop id) = removals s ++ [id] := List.map_append
  refine ⟨h.ipPort, h.connId, h.few, h.named, ?_, h.overwritten, fun e he ↦ ?_, h.firedOnce⟩
  · rw [hremovals]
    exact h.filter_name hlt
  · rcases List.mem_append.mp he with he | he
    · exact h.erasesOne e he
    · obtain rfl := List.mem_singleton.mp he
      exact h.countP_name hlt hopen

end Catalog

namespace Enrolled

/-- A connection is made. -/
theorem listedConnection (h : Enrolled s) (hfew : s.accepted + 1 < 2 ^ 31) :
    Catalog (listedConnection s) := by
  obtain ⟨hipPort, hname, hconnections⟩ := advance_frame s.server
  have hcatalog := h.catalog
  refine ⟨hipPort.trans hcatalog.ipPort, ?_, hfew, fun i hi ↦ ?_, ?_, ?_, hcatalog.erasesOne,
    hcatalog.firedOnce⟩
  · change increment s.server.nextConnId = connIdAt (s.accepted + 1)
    rw [hcatalog.connId, increment_connIdAt]
  · change _ = connNameAt (ServerSession.advance s.server).name i
    rw [hname]
    by_cases heq : i = s.accepted
    · rw [heq, listedConnection_self]
      exact hcatalog.connName_eq
    · rw [listedConnection_of_ne heq]
      exact hcatalog.named i (Nat.lt_of_le_of_ne (Nat.le_of_lt_succ hi) heq)
  · change (ServerSession.advance s.server).connections.filter
        (·.1 ≠ ServerSession.connName s.server) ++ [(ServerSession.connName s.server, s.accepted)] =
      ((List.range (s.accepted + 1)).filter (· ∉ removals s)).map
        fun i ↦ (((TcpServer.listedConnection s).conn i).name, i)
    -- no entry has the new name, so none is overwritten
    have hall : s.server.connections.filter (·.1 ≠ connNameAt s.server.name s.accepted) =
        s.server.connections :=
      List.filter_eq_self.mpr fun e he ↦ decide_eq_true (hcatalog.connName_ne hfew he)
    have hlast : [s.accepted].filter (· ∉ removals s) = [s.accepted] :=
      List.filter_cons_of_pos (decide_eq_true h.handed.not_removed)
    rw [hconnections, hcatalog.connName_eq, hall, List.range_succ, List.filter_append, hlast,
      List.map_append, hcatalog.listed]
    congr 1
    · refine List.map_congr_left fun i hi ↦ ?_
      rw [listedConnection_of_ne (Nat.ne_of_lt (List.mem_range.mp (List.mem_filter.mp hi).1))]
    · rw [List.map_singleton, listedConnection_self, hcatalog.connName_eq]
  · change s.overwritten ++ ((ServerSession.advance s.server).connections.filter
      (·.1 = ServerSession.connName s.server)).map Prod.fst = []
    have hnone : s.server.connections.filter (·.1 = connNameAt s.server.name s.accepted) = [] :=
      List.filter_eq_nil_iff.mpr fun e he heq ↦
        hcatalog.connName_ne hfew he (of_decide_eq_true heq)
    rw [hconnections, hcatalog.connName_eq, hnone, hcatalog.overwritten]
    rfl

/-- The removal of a connection that fired its close callback, and is not removed yet. -/
theorem removeConnectionInLoop (h : Enrolled s)
    (hmem : .removeConnectionInLoop id ∈ s.queues loop) :
    Catalog (s.removeConnectionInLoop id) := by
  obtain ⟨-, hless⟩ := h.handed.remove_pos hmem
  have honce := h.catalog.firedOnce id
  have hopen : id ∉ removals s := List.count_eq_zero.mp (by omega)
  have hfired : id ∈ s.fired := List.count_pos_iff.mp (by omega)
  have hlt := (h.handed.lt_accepted (h.handed.begun id (Or.inl hfired))).1
  exact h.catalog.removeConnectionInLoop hlt hopen

/-- The close callback of a connection fires, for the first time. -/
theorem removeConnection (h : Enrolled s) (hid : id ∈ s.closing) (hnew : id ∉ s.fired) :
    Catalog (s.removeConnection id) := by
  -- on the base loop the removal runs as though it had been queued
  have hcalled : Enrolled (ServerSession.queueInLoop
      { s with closing := s.closing.erase id, fired := s.fired ++ [id] } 0
      (.removeConnectionInLoop id)) := by
    refine ⟨h.handed.queueRemoval hid, ?_⟩
    refine ⟨h.catalog.ipPort, h.catalog.connId, h.catalog.few, h.catalog.named, h.catalog.listed,
      h.catalog.overwritten, h.catalog.erasesOne, fun i ↦ ?_⟩
    have hi := h.catalog.firedOnce i
    change (s.fired ++ [id]).count i ≤ 1
    rw [count_concat]
    split
    · rename_i heq
      rw [heq, List.count_eq_zero.mpr hnew]
    · exact hi
  rw [ServerSession.removeConnection]
  split
  · refine (hcalled.removeConnectionInLoop (popped_queueInLoop _ 0 _).mem).congr ?_
    exact ⟨rfl, rfl, fun _ ↦ rfl, rfl, rfl, rfl⟩
  · exact hcalled.catalog.congr ⟨rfl, rfl, fun _ ↦ rfl, rfl, rfl, rfl⟩

theorem recordedFunctor (h : Enrolled s) (hmem : f ∈ s.queues loop) :
    Catalog (TcpServer.recordedFunctor s f) := by
  cases f with
  | removeConnectionInLoop id => exact h.removeConnectionInLoop hmem
  | connectEstablished | connectDestroyed | shutdownInLoop | forceCloseInLoop => exact h.catalog

/-- The step lemma. -/
theorem step {i : Step} (h : Enrolled s) (hi : Conforming s i) :
    Outcome (TcpServer.step s i) Enrolled Reclosed := by
  have hhanded := h.handed.step (i := i) fun _ ↦ rfl
  refine outcome_of (fun s' hs' ↦ ⟨hhanded.of_ok hs', ?_⟩) fun e he ↦ ?_
  · refine Catalog.congr ?_ (step_recorded hs')
    cases i with
    | accept => exact h.listedConnection hi
    | closeCallback id => exact h.removeConnection (ite_eq_ok.mp hs').1 hi
    | pending loop =>
      rw [recorded]
      cases hhead : (s.queues loop).head? with
      | none => exact h.catalog
      | some f => exact h.recordedFunctor (List.mem_of_head? hhead)
    | closes | callBegins | callSets | callEnds => exact h.catalog
  · rw [he] at hhanded
    exact hhanded

/-! ### What follows -/

theorem removals_le_one (h : Enrolled s) (i : ℕ) : (removals s).count i ≤ 1 := by
  have hcount := h.handed.remove i 0
  rw [if_pos rfl, if_pos rfl] at hcount
  have hfired := h.catalog.firedOnce i
  omega

/-- A connection is destroyed on its own loop. -/
theorem destroyed_loop (h : Enrolled s) (hid : (id, loop) ∈ s.destroyed) :
    (s.conn id).loop = loop ∧ id ∈ removals s := by
  have hcount := h.handed.destroy id loop
  rw [List.count_nil, Nat.add_zero] at hcount
  have hpos := List.count_pos_iff.mpr hid
  split at hcount
  · rename_i hloop
    exact ⟨hloop, List.count_pos_iff.mp (by omega)⟩
  · omega

theorem law (h : Enrolled s) : Registered s := by
  refine ⟨fun i hi j hj ↦ h.catalog.name_inj hi hj, h.catalog.overwritten, h.catalog.erasesOne,
    ⟨?_, fun name id ↦ h.catalog.mem_connections⟩, ?_, fun id loop hid ↦ ?_⟩
  · rw [h.catalog.listed]
    refine (List.nodup_range.filter _).map fun i j heq ↦ ?_
    exact (Prod.mk.inj heq).2
  · -- once on its own loop, and on no other
    refine List.nodup_map_iff_inj_on ?_ |>.mpr ?_
    · refine List.nodup_iff_count_le_one.mpr fun ⟨id, loop⟩ ↦ ?_
      have hcount := h.handed.destroy id loop
      rw [List.count_nil, Nat.add_zero] at hcount
      have hle := h.removals_le_one id
      split at hcount <;> omega
    · rintro ⟨i, k⟩ hi ⟨j, l⟩ hj (rfl : i = j)
      rw [← (h.destroyed_loop hi).1, ← (h.destroyed_loop hj).1]
  · obtain ⟨rfl, hremoved⟩ := h.destroyed_loop hid
    exact ⟨rfl, h.handed.begun id (Or.inl (h.handed.fired_of_removed hremoved))⟩

end Enrolled

theorem enrolled_start (name : List Char) (numThreads : ℕ) : Enrolled (.start name numThreads) :=
  ⟨handed_start name numThreads, catalog_start name numThreads⟩

/-- **The registry of the connections.** -/
theorem registered {numThreads : ℕ} {steps : List Step}
    (hconforming : Along step Conforming (.start name numThreads) steps) :
    Outcome (run step (.start name numThreads) steps) Registered Reclosed := by
  have hstep : ∀ s i s', Enrolled s → Conforming s i → step s i = .ok s' → Enrolled s' :=
    fun s i s' h hi hs' ↦ (h.step hi).of_ok hs'
  refine outcome_of (fun s hrun ↦ ?_) fun f hrun ↦ ?_
  · exact (Along.run_inv hstep hconforming (enrolled_start name numThreads) hrun).law
  · refine Along.run_error hstep (fun s i f h hi hf ↦ ?_) hconforming
      (enrolled_start name numThreads) hrun
    have hfault := h.step hi
    rw [hf] at hfault
    exact hfault

/-- Two loops: the first connection is closed by its peer and the second by a call, and the first is
destroyed while a third is accepted. -/
theorem registered_of_three :
    ((run step (.start ['s'] 2) [.accept, .accept, .pending 1, .pending 2, .closes 0,
          .callBegins .forceClose 1, .closeCallback 0, .callSets .forceClose 1,
          .callEnds .forceClose 1, .pending 2, .pending 0, .closeCallback 1, .accept, .pending 1,
          .pending 0]).toOption.map
        fun s ↦ (s.server.connections.map Prod.snd, s.destroyed)) = some ([2], [(0, 1)]) ∧
      Outcome (run step (.start ['s'] 2) [.accept, .accept, .pending 1, .pending 2, .closes 0,
          .callBegins .forceClose 1, .closeCallback 0, .callSets .forceClose 1,
          .callEnds .forceClose 1, .pending 2, .pending 0, .closeCallback 1, .accept, .pending 1,
          .pending 0]) Registered Reclosed :=
  ⟨by decide, registered (by decide)⟩

end TcpServer

end Twnl
