import Twnl.InetAddress.Basic
import Twnl.TcpServer.Record

/-!
# The names of the connections of several servers

The name of a server is the text of the address it listens on, and the name of a connection is that
of its server with a number behind it. So the names tell apart the connections of all servers of a
process that listen on different addresses (`names_eq_iff`).
-/

namespace Twnl

namespace TcpServer

open Machine Fields ServerSession

/-- The names that were given, and what the next one is made of. -/
structure Named (name : List Char) (s : ServerSession) : Prop where
  ipPort : s.server.ipPort = []
  server : s.server.name = name
  connId : s.server.nextConnId = connIdAt s.accepted
  named : ∀ i < s.accepted, (s.conn i).name = connNameAt name i

variable {s s' t : ServerSession} {name : List Char}

theorem named_start (name : List Char) (numThreads : ℕ) : Named name (.start name numThreads) := by
  have hfirst : connIdAt 0 = 1 := connIdAt_eq (by decide)
  exact ⟨rfl, rfl, hfirst.symm, fun i hi ↦ absurd hi (Nat.not_lt_zero i)⟩

theorem Named.congr (h : Named name s) (hsame : SameRecord s s') : Named name s' := by
  refine ⟨?_, ?_, ?_, ?_⟩
  · rw [hsame.server]
    exact h.ipPort
  · rw [hsame.server]
    exact h.server
  · rw [hsame.server, hsame.accepted]
    exact h.connId
  · intro i hi
    rw [hsame.accepted] at hi
    rw [hsame.name]
    exact h.named i hi

theorem Named.listedConnection (h : Named name s) : Named name (listedConnection s) := by
  obtain ⟨hipPort, hname, -⟩ := advance_frame s.server
  refine ⟨hipPort.trans h.ipPort, hname.trans h.server, ?_, ?_⟩
  · change increment s.server.nextConnId = connIdAt (s.accepted + 1)
    rw [h.connId, increment_connIdAt]
  · intro i hi
    by_cases heq : i = s.accepted
    · rw [heq, listedConnection_self, connName, h.ipPort, h.server, h.connId]
      rfl
    · rw [listedConnection_of_ne heq]
      exact h.named i (Nat.lt_of_le_of_ne (Nat.le_of_lt_succ hi) heq)

/-- Removals change neither the names nor the counter. -/
theorem Named.removeConnection (h : Named name s) (id : ℕ) :
    Named name (s.removeConnection id) := by
  rw [ServerSession.removeConnection]
  split
  · exact ⟨h.ipPort, h.server, h.connId, h.named⟩
  · exact ⟨h.ipPort, h.server, h.connId, h.named⟩

/-- The step lemma. -/
theorem Named.step {i : Step} (h : Named name s) (hs' : step s i = .ok s') : Named name s' := by
  refine Named.congr ?_ (step_recorded hs')
  cases i with
  | accept => exact h.listedConnection
  | closeCallback id => exact h.removeConnection id
  | pending loop =>
    rw [recorded]
    cases (s.queues loop).head? with
    | none => exact h
    | some f =>
      cases f with
      | removeConnectionInLoop id => exact ⟨h.ipPort, h.server, h.connId, h.named⟩
      | connectEstablished | connectDestroyed | shutdownInLoop | forceCloseInLoop => exact h
  | closes | callBegins | callSets | callEnds => exact h

theorem named_run {numThreads : ℕ} {steps : List Step}
    (hrun : run step (.start name numThreads) steps = .ok s) : Named name s :=
  run_inv (fun _ _ _ h hs' ↦ Named.step h hs') (named_start name numThreads) hrun

/-- The number is behind the last hyphen. -/
theorem connNameAt_eq_iff {name' : List Char} {i j : ℕ} (hi : i + 1 < 2 ^ 31)
    (hj : j + 1 < 2 ^ 31) : connNameAt name i = connNameAt name' j ↔ name = name' ∧ i = j := by
  have hnumber (n : ℕ) : '-' ∉ '#' :: decimalDigits n := by
    intro hmem
    rcases List.mem_cons.mp hmem with heq | hmem
    · exact absurd heq (by decide)
    · exact notMem_decimalDigits (by decide) n hmem
  constructor
  · intro h
    rw [connNameAt_eq hi, connNameAt_eq hj] at h
    obtain ⟨hname, hdigits⟩ := append_cons_inj (hnumber _) (hnumber _) h
    exact ⟨hname, Nat.succ.inj (decimalDigits_inj (List.cons.inj hdigits).2)⟩
  · rintro ⟨rfl, rfl⟩
    rfl

/-- **Names across servers.** In any runs of two servers, a connection of the one has the name of a
connection of the other exactly when the servers listen on the same address and port and it is the
connection with the same number. -/
theorem names_eq_iff {a b : InetAddress} {n m : ℕ} {is js : List Step}
    (hs : run step (.start a.toIpPort n) is = .ok s)
    (ht : run step (.start b.toIpPort m) js = .ok t) {i j : ℕ} (hi : i < s.accepted)
    (hj : j < t.accepted) (hfew : i + 1 < 2 ^ 31) (hfew' : j + 1 < 2 ^ 31) :
    (s.conn i).name = (t.conn j).name ↔ a.endpoint = b.endpoint ∧ i = j := by
  rw [(named_run hs).named i hi, (named_run ht).named j hj, connNameAt_eq_iff hfew hfew',
    InetAddress.toIpPort_inj]

/-- The second connections of a server on every address and of one on the loopback address. -/
theorem names_eq_iff_of_loopback :
    ∃ s t, run step (.start (InetAddress.new .zero 4000 false false).toIpPort 0)
        [.accept, .accept] = .ok s ∧
      run step (.start (InetAddress.new .zero 4000 true false).toIpPort 0)
        [.accept, .accept] = .ok t ∧
      ((s.conn 1).name = (t.conn 1).name ↔
        (InetAddress.new .zero 4000 false false).endpoint =
          (InetAddress.new .zero 4000 true false).endpoint ∧ 1 = 1) := by
  obtain ⟨s, hs⟩ : ∃ s, run step (.start (InetAddress.new .zero 4000 false false).toIpPort 0)
    [.accept, .accept] = .ok s := ⟨_, rfl⟩
  obtain ⟨t, ht⟩ : ∃ t, run step (.start (InetAddress.new .zero 4000 true false).toIpPort 0)
    [.accept, .accept] = .ok t := ⟨_, rfl⟩
  have haccepted : s.accepted = 2 := by
    obtain rfl := Except.ok.inj hs
    rfl
  have haccepted' : t.accepted = 2 := by
    obtain rfl := Except.ok.inj ht
    rfl
  exact ⟨s, t, hs, ht, names_eq_iff hs ht (by omega) (by omega) (by decide) (by decide)⟩

end TcpServer

end Twnl
