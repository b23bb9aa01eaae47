import Twnl.EventLoopThreadPool.Rotation
import Twnl.Machine.Simulation
import Twnl.TcpServer.Record

/-!
# The connections of the loops

A server takes the loop of each new connection from its pool. So the run of a server contains a run
of the pool, which hands out the loops of the connections in the order in which they were accepted
(`draws`), and the rotation of the pool is that of the server: whatever is closed, removed and
called meanwhile, the loops of the pool have had the same number of connections, up to one, and a
connection is established and destroyed on the loop of its turn (`spread`).

The loops of the pool are numbered from 1, and 0 is the base loop.
-/

namespace Twnl

namespace TcpServer

open Machine PoolSession

variable {s s' : ServerSession} {q : PoolSession ℕ} {i : Step} {id loop n : ℕ} {name : List Char}

/-! ## The loops stay -/

theorem connectEstablished_loop (hs' : s.connectEstablished loop id = .ok s') (j : ℕ) :
    (s'.conn j).loop = (s.conn j).loop := by
  obtain ⟨⟨⟩, -, hs'⟩ := bind_eq_ok.mp hs'
  obtain rfl := Except.ok.inj hs'
  exact setState_loop s id .kConnected j

theorem connectDestroyed_loop (s : ServerSession) (loop id j : ℕ) :
    ((s.connectDestroyed loop id).conn j).loop = (s.conn j).loop := by
  rw [ServerSession.connectDestroyed]
  split
  · exact setState_loop s id .kDisconnected j
  · rfl

theorem handleClose_loop (hs' : s.handleClose id = .ok s') (j : ℕ) :
    (s'.conn j).loop = (s.conn j).loop := by
  obtain ⟨⟨⟩, -, hs'⟩ := bind_eq_ok.mp hs'
  obtain rfl := Except.ok.inj hs'
  exact setState_loop s id .kDisconnected j

theorem runFunctor_loop {f : ServerFunctor} (hs' : ServerSession.runFunctor s loop f = .ok s')
    (j : ℕ) : (s'.conn j).loop = (s.conn j).loop := by
  cases f with
  | connectEstablished id => exact connectEstablished_loop hs' j
  | removeConnectionInLoop id =>
    obtain rfl := Except.ok.inj hs'
    rfl
  | connectDestroyed id =>
    obtain rfl := Except.ok.inj hs'
    exact connectDestroyed_loop s loop id j
  | shutdownInLoop id =>
    obtain rfl := Except.ok.inj hs'
    rfl
  | forceCloseInLoop id =>
    rw [ServerSession.runFunctor, ServerSession.forceCloseInLoop] at hs'
    split at hs'
    · exact handleClose_loop hs' j
    · obtain rfl := Except.ok.inj hs'
      rfl

/-- A connection that was accepted stays on its loop. -/
theorem step_loop (hs' : step s i = .ok s') {j : ℕ} (hj : j < s.accepted) :
    (s'.conn j).loop = (s.conn j).loop := by
  cases i with
  | accept =>
    have hlisted : ((listedConnection s).conn j).loop = (s.conn j).loop := by
      rw [listedConnection_of_ne hj.ne]
    rw [step, newConnection_eq] at hs'
    split at hs'
    · exact (connectEstablished_loop hs' j).trans hlisted
    · obtain rfl := Except.ok.inj hs'
      exact hlisted
  | closes id => exact handleClose_loop (ite_eq_ok.mp hs').2 j
  | closeCallback id =>
    obtain ⟨-, hs'⟩ := ite_eq_ok.mp hs'
    obtain rfl := Except.ok.inj hs'
    rw [ServerSession.removeConnection]
    split <;> rfl
  | callBegins c id =>
    obtain ⟨-, hs'⟩ := ite_eq_ok.mp hs'
    split at hs' <;> obtain rfl := Except.ok.inj hs' <;> rfl
  | callSets c id =>
    obtain ⟨-, hs'⟩ := ite_eq_ok.mp hs'
    obtain rfl := Except.ok.inj hs'
    exact setState_loop s id .kDisconnecting j
  | callEnds c id =>
    obtain ⟨-, hs'⟩ := ite_eq_ok.mp hs'
    obtain rfl := Except.ok.inj hs'
    rfl
  | pending loop =>
    rw [step] at hs'
    split at hs'
    · exact runFunctor_loop hs' j
    · exact absurd hs' error_ne_ok

/-! ## The pool of the server -/

/-- The loops of a pool with that many threads. -/
def poolLoops (n : ℕ) : List ℕ := (List.range n).map (· + 1)

@[simp] theorem length_poolLoops (n : ℕ) : (poolLoops n).length = n := by simp [poolLoops]

theorem nodup_poolLoops (n : ℕ) : (poolLoops n).Nodup :=
  List.nodup_range.map fun _ _ ↦ Nat.succ.inj

/-- How a pool is made that has that many threads. -/
def startSteps (n : ℕ) : List (PoolSession.Step ℕ) :=
  [.setThreadNum (Int32.ofNat n), .start true false] ++ (poolLoops n).map .spawns ++ [.returns]

/-- What a step takes from the pool. -/
def poolSteps (_ : ServerSession) : Step → List (PoolSession.Step ℕ)
  | .accept => [.getNextLoop true]
  | .closes _ | .closeCallback _ | .callBegins _ _ | .callSets _ _ | .callEnds _ _
  | .pending _ => []

theorem poolSteps_of_ne (hi : i ≠ .accept) : poolSteps s i = [] := by
  cases i with
  | accept => exact absurd rfl hi
  | _ => rfl

/-- The pool is that of the server, and handed out the loops of its connections. -/
structure Draws (n : ℕ) (name : List Char) (q : PoolSession ℕ) (s : ServerSession) : Prop where
  turns : Turns 0 name q
  started : q.pool.started = true
  ready : q.starting = none
  loops : q.pool.loops = poolLoops n
  numThreads : s.server.numThreads = n
  next : q.pool.next = s.server.next
  given : q.given = (List.range s.accepted).map fun j ↦ (s.conn j).loop

theorem served_poolLoops (n k : ℕ) : served (poolLoops n) 0 k = if n = 0 then 0 else k % n + 1 := by
  by_cases hn : n = 0
  · rw [hn]
    rfl
  · have hlt : k % n < n := Nat.mod_lt k (Nat.pos_of_ne_zero hn)
    rw [if_neg hn, served, length_poolLoops, poolLoops]
    simp [hlt]

theorem poolLoops_succ (k : ℕ) : poolLoops (k + 1) = poolLoops k ++ [k + 1] := by
  rw [poolLoops, List.range_succ, List.map_append]
  rfl

/-- `start` makes the loops one by one. -/
theorem run_spawns {q : PoolSession ℕ} (hstarting : q.starting = some (0, false))
    (hnone : q.pool.loops = []) (hbound : q.pool.numThreads < 2 ^ 31) {k : ℕ}
    (hk : k ≤ q.pool.numThreads) :
    ∃ q', run PoolSession.step q ((poolLoops k).map .spawns) = .ok q' ∧
      q'.starting = some ((k : ℤ), false) ∧ q'.pool.loops = poolLoops k ∧
      q'.pool.numThreads = q.pool.numThreads ∧ q'.pool.started = q.pool.started ∧
      q'.given = q.given := by
  induction k with
  | zero => exact ⟨q, rfl, hstarting, hnone, rfl, rfl, rfl⟩
  | succ k ih =>
    obtain ⟨u, hu, hindex, hloops, hnum, hstarted, hgiven⟩ := ih (by omega)
    have hspawn : ∃ q', u.step (.spawns (k + 1)) = .ok q' ∧
        q'.starting = some (((k + 1 : ℕ) : ℤ), false) ∧ q'.pool.loops = poolLoops (k + 1) ∧
        q'.pool.numThreads = u.pool.numThreads ∧ q'.pool.started = u.pool.started ∧
        q'.given = u.given := by
      rw [PoolSession.step, PoolSession.spawn, hindex]
      dsimp only
      rw [if_pos (show (k : ℤ) < u.pool.numThreads by omega)]
      refine ⟨_, rfl, ?_, ?_, rfl, rfl, rfl⟩
      · rw [increment_natCast (n := k) (by omega)]
      · rw [hloops, poolLoops_succ]
    obtain ⟨q', hq', hindex', hloops', hnum', hstarted', hgiven'⟩ := hspawn
    refine ⟨q', ?_, hindex', hloops', hnum'.trans hnum, hstarted'.trans hstarted,
      hgiven'.trans hgiven⟩
    rw [poolLoops_succ, List.map_append]
    exact run_append_eq_ok.mpr ⟨u, hu, run_cons_eq_ok.mpr ⟨q', hq', rfl⟩⟩

/-- The server starts with the pool that `start` leaves. -/
theorem draws_start (hn : n < 2 ^ 31) (name server : List Char) :
    ∃ q, run PoolSession.step (.new 0 name) (startSteps n) = .ok q ∧
      Draws n name q (.start server n) := by
  have hnum : (Int32.ofNat n).toInt = n := Int32.toInt_ofNat_of_lt hn
  set q₁ : PoolSession ℕ := { PoolSession.new 0 name with
    pool := { EventLoopThreadPool.new 0 name with
      numThreads := (Int32.ofNat n).toInt, started := true }
    starting := some (0, false) } with hq₁
  obtain ⟨q₂, hq₂, hindex, hloops, hnum₂, hstarted, hgiven⟩ :=
    run_spawns (q := q₁) rfl rfl (Int32.toInt_lt _) (k := n) hnum.ge
  have hfinish : q₂.step .returns = .ok { q₂ with starting := none } := by
    have hend : ¬(n : ℤ) < q₂.pool.numThreads := by
      rw [hnum₂]
      exact Int.not_lt.mpr hnum.le
    rw [PoolSession.step, PoolSession.finish, hindex]
    dsimp only
    rw [if_neg hend, if_neg fun hc ↦ Bool.false_ne_true hc.2]
  have hrun : run PoolSession.step (.new 0 name) (startSteps n) =
      .ok { q₂ with starting := none } :=
    run_append_eq_ok.mpr ⟨q₂, run_append_eq_ok.mpr ⟨q₁, rfl, hq₂⟩,
      run_cons_eq_ok.mpr ⟨_, hfinish, rfl⟩⟩
  have hturns := turns_run hrun
  have hzero : q₂.given = [] := hgiven
  refine ⟨_, hrun, hturns, hstarted, rfl, hloops, rfl, ?_, hgiven⟩
  rw [hturns.next]
  change ((placeAfter q₂.pool.loops.length q₂.given.length : ℕ) : ℤ) = 0
  rw [hzero, placeAfter]
  split
  · rfl
  · rw [List.length_nil, Nat.zero_mod, Nat.cast_zero]

/-- `newConnection` takes the loop that `getNextLoop` hands out, and moves on as it does. -/
theorem Draws.getNextLoop (h : Draws n name q s) :
    q.step (.getNextLoop true) = .ok { q with
        pool := { q.pool with next := (ServerSession.advance s.server).next }
        given := q.given ++ [ServerSession.getNextLoop s.server] } := by
  have hplace : s.server.next = placeAfter n q.given.length := by
    have hnext := h.turns.next
    rw [h.next, h.loops, length_poolLoops] at hnext
    exact Int.ofNat_inj.mp hnext
  have hloop : ServerSession.getNextLoop s.server = served (poolLoops n) 0 q.given.length := by
    rw [ServerSession.getNextLoop, h.numThreads, served_poolLoops, hplace, placeAfter]
    split <;> rfl
  have hadvance : (ServerSession.advance s.server).next = placeAfter n (q.given.length + 1) := by
    rw [ServerSession.advance, h.numThreads]
    by_cases hn : n = 0
    · rw [if_pos hn, hplace, placeAfter, placeAfter, if_pos hn, if_pos hn]
    · rw [if_neg hn, placeAfter_succ (Nat.pos_of_ne_zero hn), ← hplace]
      rfl
  rw [PoolSession.step, if_pos (show q.Comes true from fun _ ↦ h.ready),
    h.turns.getNextLoop h.started, h.loops, length_poolLoops, hloop, hadvance]
  rfl

/-- Only an accepted connection moves the pool. -/
theorem recorded_pool (s : ServerSession) (hi : i ≠ .accept) :
    (recorded s i).server.numThreads = s.server.numThreads ∧
      (recorded s i).server.next = s.server.next ∧ (recorded s i).accepted = s.accepted := by
  cases i with
  | accept => exact absurd rfl hi
  | closes id | callBegins c id | callSets c id | callEnds c id => exact ⟨rfl, rfl, rfl⟩
  | closeCallback id =>
    rw [recorded, ServerSession.removeConnection]
    split <;> exact ⟨rfl, rfl, rfl⟩
  | pending loop =>
    rw [recorded]
    cases (s.queues loop).head? with
    | none => exact ⟨rfl, rfl, rfl⟩
    | some f => cases f <;> exact ⟨rfl, rfl, rfl⟩

/-- The step lemma: an accepted connection is a turn of the pool, and all else leaves it alone. -/
theorem Draws.step (h : Draws n name q s) (hs' : TcpServer.step s i = .ok s') :
    ∃ q', Machine.run PoolSession.step q (poolSteps s i) = .ok q' ∧ Draws n name q' s' := by
  have hrecorded := step_recorded hs'
  have hloops : (List.range s.accepted).map (fun j ↦ (s'.conn j).loop) = q.given := by
    rw [h.given]
    exact List.map_congr_left fun j hj ↦ step_loop hs' (List.mem_range.mp hj)
  by_cases hi : i = .accept
  · subst hi
    have hturn := h.getNextLoop
    have hserver : s'.server = (listedConnection s).server := hrecorded.server
    have haccepted : s'.accepted = s.accepted + 1 := hrecorded.accepted
    have hnum : (ServerSession.advance s.server).numThreads = s.server.numThreads := by
      rw [ServerSession.advance]
      split <;> rfl
    have hnew : (s'.conn s.accepted).loop = ServerSession.getNextLoop s.server := by
      have hlisted := congrArg ServerConn.loop (listedConnection_self s)
      rw [TcpServer.step, newConnection_eq] at hs'
      split at hs'
      · exact (connectEstablished_loop hs' s.accepted).trans hlisted
      · obtain rfl := Except.ok.inj hs'
        exact hlisted
    refine ⟨_, run_cons_eq_ok.mpr ⟨_, hturn, rfl⟩, Turns.step h.turns hturn, h.started, h.ready,
      h.loops, ?_, ?_, ?_⟩
    · rw [hserver]
      exact hnum.trans h.numThreads
    · rw [hserver]
      rfl
    · rw [haccepted, List.range_succ, List.map_append, hloops, ← hnew]
      rfl
  · obtain ⟨hnum, hnext, haccepted⟩ := recorded_pool s hi
    rw [poolSteps_of_ne hi]
    refine ⟨q, rfl, h.turns, h.started, h.ready, h.loops, ?_, ?_, ?_⟩
    · rw [hrecorded.server, hnum, h.numThreads]
    · rw [hrecorded.server, hnext, h.next]
    · rw [hrecorded.accepted, haccepted, hloops]

/-- Every run of a server is, in what it takes from the pool, a run of the pool. -/
theorem draws (hn : n < 2 ^ 31) (name server : List Char) {steps : List Step}
    (hrun : run step (.start server n) steps = .ok s) :
    ∃ q, run PoolSession.step (.new 0 name)
        (startSteps n ++ trace step poolSteps (.start server n) steps) = .ok q ∧
      Draws n name q s := by
  obtain ⟨q₀, hq₀, hstart⟩ := draws_start hn name server
  have hstep : ∀ (i : Step) (_ : List Step) (s : ServerSession) (q : PoolSession ℕ)
      (s' : ServerSession), Draws n name q s → step s i = .ok s' →
      ∃ q', run PoolSession.step q (poolSteps s i) = .ok q' ∧
        Along PoolSession.step (fun _ _ ↦ True) q (poolSteps s i) ∧ Draws n name q' s' := by
    intro i _ s q s' hdraws hs'
    obtain ⟨q', hq', hdraws'⟩ := hdraws.step hs'
    exact ⟨q', hq', along_of_forall fun _ _ ↦ trivial, hdraws'⟩
  obtain ⟨q, hq, -, hdraws⟩ := run_matched (R := fun _ s q ↦ Draws n name q s) hstep hstart hrun
  exact ⟨q, run_append_eq_ok.mpr ⟨q₀, hq₀, hq⟩, hdraws⟩

theorem count_map_range {f : ℕ → ℕ} (a k : ℕ) :
    ((List.range k).map f).count a = (List.range k).countP fun j ↦ f j = a := by
  rw [List.count, List.countP_map]
  exact List.countP_congr fun j _ ↦ by simp

/-- Where a connection is established and destroyed. -/
theorem handed_run {steps : List Step} (hrun : run step (.start name n) steps = .ok s) :
    Handed [] s :=
  run_inv (fun _ _ _ h hs' ↦ (h.step fun _ ↦ rfl).of_ok hs') (handed_start name n) hrun

/-- **The connections are spread evenly.** Each is on the loop of its turn, where it is established
and destroyed, and no loop of the pool has had more than one connection more than another. -/
theorem spread (hn : n < 2 ^ 31) {server : List Char} {steps : List Step}
    (hrun : run step (.start server n) steps = .ok s) :
    (∀ j < s.accepted, (s.conn j).loop = if n = 0 then 0 else j % n + 1) ∧
      (∀ j loop, (j, loop) ∈ s.established ∨ (j, loop) ∈ s.destroyed → loop = (s.conn j).loop) ∧
      ∀ a ∈ poolLoops n, ∀ b ∈ poolLoops n,
        (List.range s.accepted).countP (fun j ↦ (s.conn j).loop = a) ≤
          (List.range s.accepted).countP (fun j ↦ (s.conn j).loop = b) + 1 := by
  obtain ⟨q, -, hdraws⟩ := draws hn [] server hrun
  have hhanded := handed_run hrun
  have hlen : q.given.length = s.accepted := by
    rw [hdraws.given, List.length_map, List.length_range]
  have hgiven := hdraws.turns.given
  rw [hdraws.loops, hlen, hdraws.given] at hgiven
  refine ⟨fun j hj ↦ ?_, fun j loop hmem ↦ ?_, fun a ha b hb ↦ ?_⟩
  · have hturn := List.map_inj_left.mp hgiven j (List.mem_range.mpr hj)
    exact hturn.trans (served_poolLoops n j)
  · rcases hmem with hmem | hmem
    · exact (hhanded.lt_accepted hmem).2.symm
    · by_contra hne
      have hcount := hhanded.destroy j loop
      rw [if_neg (fun hc ↦ hne hc.symm)] at hcount
      have hpos := List.count_pos_iff.mpr hmem
      omega
  · have hle := count_rotation_le (d := 0) (k := s.accepted) (nodup_poolLoops n) ha hb
    rw [← hgiven, count_map_range, count_map_range] at hle
    exact hle

/-- Five connections on two loops, of which the first is closed in between. -/
theorem spread_five :
    ∃ s, run step (.start ['s'] 2) [.accept, .accept, .pending 1, .closes 0, .accept,
        .closeCallback 0, .pending 0, .accept, .pending 1, .accept] = .ok s ∧
      (List.range s.accepted).countP (fun j ↦ (s.conn j).loop = 1) ≤
        (List.range s.accepted).countP (fun j ↦ (s.conn j).loop = 2) + 1 :=
  ⟨_, rfl, (spread (by decide) (rfl : run step (.start ['s'] 2) [.accept, .accept, .pending 1,
    .closes 0, .accept, .closeCallback 0, .pending 0, .accept, .pending 1, .accept] = .ok _)).2.2
    1 (by decide) 2 (by decide)⟩

end TcpServer

end Twnl
