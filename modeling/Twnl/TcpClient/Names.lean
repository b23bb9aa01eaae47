import Twnl.InetAddress.Basic
import Twnl.TcpClient.Attempts

/-!
# The names of the connections of a client

A connection is named after the text of its peer's address and a number, which are printed to a
buffer of 32 bytes. What does not fit is cut from the back, and that is from the number. So the
names stay apart only while the numbers have no more digits than there is room for
(`names_nodup_iff`): the text of an address of four bytes leaves room for eight at least, and that
of an address of sixteen may leave none. The numbers are counted in an `int`, and this is about the
connections before it starts over.
-/

namespace Twnl

namespace TcpClient

open Machine Numeral

variable {c c' : ClientSession} {a : Attempt} {i : Step}

/-- What `newConnection` prints to its buffer. -/
def connName (peer : List Char) (client : TcpClient) : List Char :=
  snprintf 32 (':' :: peer ++ '#' :: decimal client.nextConnId)

/-- The names of the connections that a step makes. -/
def names (peer : List Char) (c : ClientSession) (i : Step) : List (List Char) :=
  match step c i with
  | .ok c' => if c'.opened = c.opened then [] else [connName peer c.client]
  | .error _ => []

/-! ## The counter -/

namespace ClientSession

/-- How many connections were made, and the number of the next. -/
def counters (c : ClientSession) : ℕ × ℤ := (c.opened, c.client.nextConnId)

/-- A connection is made or none. -/
def Counts (c c' : ClientSession) : Prop :=
  c'.counters = c.counters ∨ c'.counters = (c.opened + 1, increment c.client.nextConnId)

theorem retry_counters (c : ClientSession) (fd : ℤ) : (c.retry fd).counters = c.counters := by
  rw [retry]
  split
  · rfl
  · rfl

theorem connect_counters (hc' : c.connect a = .ok c') : c'.counters = c.counters := by
  rcases connect_cases c a with ⟨-, h⟩ | ⟨-, h⟩ | ⟨-, h⟩
  · rw [h] at hc'
    obtain ⟨⟨⟩, -, hc'⟩ := bind_eq_ok.mp hc'
    obtain rfl := Except.ok.inj hc'
    rfl
  · rw [h] at hc'
    rw [← Except.ok.inj hc', retry_counters]
  · rw [h] at hc'
    obtain rfl := Except.ok.inj hc'
    rfl

theorem startInLoop_counters (hc' : c.startInLoop a = .ok c') : c'.counters = c.counters := by
  obtain ⟨⟨⟩, -, hc'⟩ := bind_eq_ok.mp hc'
  split at hc'
  · exact connect_counters hc'
  · obtain rfl := Except.ok.inj hc'
    rfl

theorem handleError_counters (hc' : c.handleError = .ok c') : c'.counters = c.counters := by
  obtain ⟨-, channel, -, rfl⟩ := handleError_eq_ok hc'
  exact retry_counters _ _

theorem handleWrite_counts {err : ℤ} {isSelfConnect : Bool}
    (hc' : c.handleWrite err isSelfConnect = .ok c') : Counts c c' := by
  rw [handleWrite] at hc'
  split at hc'
  · rename_i channel _ _
    split at hc'
    · rw [← Except.ok.inj hc']
      exact Or.inl (retry_counters _ _)
    · split at hc'
      · rw [← Except.ok.inj hc']
        exact Or.inl (retry_counters _ _)
      · split at hc'
        · rw [← Except.ok.inj hc']
          exact Or.inr rfl
        · rw [← Except.ok.inj hc']
          exact Or.inl rfl
  · exact absurd hc' error_ne_ok
  · rw [← Except.ok.inj hc']
    exact Or.inl rfl
  · exact absurd hc' error_ne_ok

theorem handleEvent_counts {revents : Mask} {err : ℤ} {isSelfConnect : Bool}
    (hc' : c.handleEvent revents err isSelfConnect = .ok c') : Counts c c' := by
  have hwritable {u : ClientSession} (hcounters : u.counters = c.counters)
      (hu : (if revents &&& EPOLLOUT ≠ 0 then u.handleWrite err isSelfConnect else .ok u) =
        .ok c') : Counts c c' := by
    obtain ⟨hopened, hnext⟩ := Prod.mk.inj hcounters
    split at hu
    · have hcounts := handleWrite_counts hu
      rwa [Counts, hcounters, hopened, hnext] at hcounts
    · rw [← Except.ok.inj hu]
      exact Or.inl hcounters
  rw [ClientSession.handleEvent] at hc'
  by_cases herror : revents &&& EPOLLERR ≠ 0
  · rw [if_pos herror] at hc'
    obtain ⟨u, hu, hc'⟩ := bind_eq_ok.mp hc'
    exact hwritable (handleError_counters hu) hc'
  · rw [if_neg herror, bind_ok] at hc'
    exact hwritable rfl hc'

theorem removeConnection_counters {id : ℕ} (hc' : c.removeConnection id a = .ok c') :
    c'.counters = c.counters := by
  obtain ⟨⟨⟩, -, hc'⟩ := bind_eq_ok.mp hc'
  split at hc'
  · have hsame := startInLoop_counters hc'
    exact hsame
  · rw [← Except.ok.inj hc']
    rfl

theorem call_counters {call : ClientCall} (hc' : c.call call = .ok c') :
    c'.counters = c.counters := by
  cases call with
  | connect a =>
    have hsame := startInLoop_counters hc'
    exact hsame
  | disconnect | enableRetry =>
    obtain rfl := Except.ok.inj hc'
    rfl
  | stop =>
    obtain rfl := Except.ok.inj hc'
    rw [connectorStop]
    cases c.connector.timer <;> rfl
  | forceClose id =>
    rw [← Except.ok.inj hc', forceClose]
    split
    · rfl
    · rfl

theorem runFunctor_counters (c : ClientSession) (f : ClientFunctor) :
    (c.runFunctor f).counters = c.counters := by
  cases f with
  | resetChannel => rfl
  | forceClose id =>
    rw [runFunctor]
    split
    · rfl
    · rfl
  | connectDestroyed id => rfl

end ClientSession

open ClientSession

/-- A step makes one connection at most. -/
theorem step_counts (hc' : step c i = .ok c') : Counts c c' := by
  cases i with
  | call call => exact Or.inl (call_counters hc')
  | handleEvent revents err isSelfConnect => exact handleEvent_counts (ite_eq_ok.mp hc').2
  | fires a =>
    rw [step] at hc'
    split at hc'
    · have hsame := startInLoop_counters hc'
      exact Or.inl hsame
    · exact absurd hc' error_ne_ok
  | callbackReturns a =>
    rw [step] at hc'
    split at hc'
    · rw [← Except.ok.inj hc']
      exact Or.inl rfl
    · have hsame := removeConnection_counters hc'
      exact Or.inl hsame
    · exact absurd hc' error_ne_ok
  | expires _ | closes _ | dispatched | poll =>
    rw [← Except.ok.inj (ite_eq_ok.mp hc').2]
    exact Or.inl rfl
  | pending =>
    rw [step] at hc'
    split at hc'
    · rw [← Except.ok.inj hc']
      exact Or.inl (runFunctor_counters _ _)
    all_goals exact absurd hc' error_ne_ok

/-! ## The names of a run -/

/-- The name of the connection that was made after that many. -/
def nameAt (peer : List Char) (id : ℕ) : List Char :=
  snprintf 32 (':' :: peer ++ '#' :: decimal (connIdAt id))

theorem names_of_step (peer : List Char) (hnext : c.client.nextConnId = connIdAt c.opened)
    (hc' : step c i = .ok c') : c'.client.nextConnId = connIdAt c'.opened ∧
      c.opened ≤ c'.opened ∧
      names peer c i = (List.range' c.opened (c'.opened - c.opened)).map (nameAt peer) := by
  rw [names, hc']
  change _ ∧ _ ∧ (if c'.opened = c.opened then _ else _) = _
  rcases step_counts hc' with hsame | hcounts
  · obtain ⟨hopened, hnext'⟩ := Prod.mk.inj hsame
    rw [if_pos hopened, hnext', hopened, Nat.sub_self]
    exact ⟨hnext, Nat.le_refl _, rfl⟩
  · obtain ⟨hopened, hnext'⟩ := Prod.mk.inj hcounts
    rw [if_neg (by omega), hnext', hopened, Nat.add_sub_cancel_left, hnext, increment_connIdAt]
    refine ⟨rfl, Nat.le_succ _, ?_⟩
    rw [connName, hnext]
    rfl

/-- The run lemma. -/
theorem names_run (peer : List Char) {steps : List Step}
    (hnext : c.client.nextConnId = connIdAt c.opened) (hrun : run step c steps = .ok c') :
    c.opened ≤ c'.opened ∧ trace step (names peer) c steps =
      (List.range' c.opened (c'.opened - c.opened)).map (nameAt peer) := by
  induction steps generalizing c with
  | nil =>
    obtain rfl := Except.ok.inj hrun
    rw [Nat.sub_self]
    exact ⟨Nat.le_refl _, rfl⟩
  | cons i steps ih =>
    obtain ⟨u, hu, hrun⟩ := run_cons_eq_ok.mp hrun
    obtain ⟨hnext', hle, hnames⟩ := names_of_step peer hnext hu
    obtain ⟨hle', hrest⟩ := ih hnext' hrun
    rw [trace_cons_ok hu, hrest, hnames, ← List.map_append]
    refine ⟨Nat.le_trans hle hle', congrArg _ ?_⟩
    have hfront : u.opened = c.opened + 1 * (u.opened - c.opened) := by omega
    have htotal : c'.opened - c.opened =
        u.opened - c.opened + (c'.opened - u.opened) := by omega
    rw [htotal, ← List.range'_append, ← hfront]

/-- The buffer has room for so much of the number. -/
theorem nameAt_eq (peer : List Char) {id : ℕ} (hid : id + 1 < 2 ^ 31) :
    nameAt peer id = (':' :: peer ++ ['#']).take 31 ++
      ((numeral 10 (id + 1)).map Nat.digitChar).take (29 - peer.length) := by
  have hlength : (':' :: peer ++ ['#']).length = peer.length + 2 := by simp
  have hsplit : ':' :: peer ++ '#' :: decimal (connIdAt id) =
      (':' :: peer ++ ['#']) ++ decimal (connIdAt id) := by simp
  rw [nameAt, snprintf, hsplit, List.take_append, hlength, connIdAt_eq hid, decimal_natCast,
    decimalDigits_eq]
  congr 2
  omega

/-- An address of four bytes leaves room for eight digits at least. -/
theorem room_of_inet {a : InetAddress} (h : a.family ≠ AF_INET6) :
    8 ≤ 29 - a.toIpPort.length := by
  have hip : a.ip = .v4 a.sin_addr := if_neg h
  have haddr := length_inetNtop4_le a.sin_addr
  have hport := length_port_le a.toPort
  have hlength : a.toIpPort.length =
      (inetNtop4 a.sin_addr).length + ((decimalDigits a.toPort.toNat).length + 1) := by
    rw [InetAddress.toIpPort_eq, Endpoint.text, InetAddress.endpoint, hip, List.length_append,
      List.length_cons]
    rfl
  omega

/-- **The names of a client's connections.** In every run with less than 2³¹ connections, the names
of those to a peer are distinct exactly when no number is longer than what the text of the peer
leaves of the buffer, or there is only one connection. -/
theorem names_nodup_iff {a : InetAddress} {steps : List Step}
    (hrun : run step .start steps = .ok c) (hfew : c.opened < 2 ^ 31) :
    ((trace step (names a.toIpPort) .start steps).Nodup ↔
        c.opened < 10 ^ (29 - a.toIpPort.length) ∨ c.opened ≤ 1) ∧
      (a.family ≠ AF_INET6 → 8 ≤ 29 - a.toIpPort.length) := by
  refine ⟨?_, room_of_inet⟩
  have hfirst : ClientSession.start.client.nextConnId = connIdAt ClientSession.start.opened :=
    (connIdAt_eq (by decide)).symm
  obtain ⟨-, htrace⟩ := names_run a.toIpPort hfirst hrun
  have hcut := nodup_take_map_iff (by decide : 1 < 10) digitOf_ten (29 - a.toIpPort.length)
    c.opened
  have hnames : (List.range' 0 c.opened).map (nameAt a.toIpPort) =
      ((List.range c.opened).map fun k ↦
        ((numeral 10 (k + 1)).map Nat.digitChar).take (29 - a.toIpPort.length)).map
          ((':' :: a.toIpPort ++ ['#']).take 31 ++ ·) := by
    rw [← List.range_eq_range', List.map_map]
    refine List.map_congr_left fun k hk ↦ ?_
    rw [Function.comp_apply, nameAt_eq _ (by have := List.mem_range.mp hk; omega)]
  change trace step _ _ _ = (List.range' 0 (c.opened - 0)).map _ at htrace
  rw [htrace, Nat.sub_zero, hnames, List.nodup_map_iff (List.append_right_injective _), hcut]

/-- A peer whose address leaves no room, and a client that connects to it again. -/
def longPeer : InetAddress :=
  { InetAddress.zero with
    family := AF_INET6
    sin_port := htobe16 12345
    sin6_addr := #v[0x1111, 0x2222, 0x3333, 0x4444, 0x5555, 0x6666, 0x7777, 0x8888] }

def twoConnections : List Step :=
  [.call .enableRetry, .call (.connect ⟨3, none⟩), .handleEvent EPOLLOUT 0 false,
    .callbackReturns ⟨0, none⟩, .call (.forceClose 0), .dispatched, .pending, .pending,
    .callbackReturns ⟨4, none⟩, .poll, .handleEvent EPOLLOUT 0 false]

theorem names_nodup_iff_of_long : ∃ c, run step .start twoConnections = .ok c ∧
    ¬(trace step (names longPeer.toIpPort) .start twoConnections).Nodup := by
  obtain ⟨c, hc⟩ : ∃ c, run step .start twoConnections = .ok c := ⟨_, rfl⟩
  have hcount : c.opened = 2 := by
    obtain rfl := Except.ok.inj hc
    rfl
  have hlength : longPeer.toIpPort.length = 45 := by decide
  refine ⟨c, hc, ?_⟩
  rw [(names_nodup_iff hc (by rw [hcount]; decide)).1, hcount, hlength]
  decide

end TcpClient

end Twnl
