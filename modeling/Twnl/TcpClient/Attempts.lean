import Mathlib.Data.List.Pairwise
import Twnl.TcpClient.Basic

/-!
# At most one attempt or connection

An attempt begins in `startInLoop`, which `connect`, an expired timer and the closing of a
connection enter. Only the last of the three comes at a time the client has chosen: it leaves the
connector disconnected, and by then the channel of the last attempt is gone, since the functor that
resets it is ahead of whatever can close the connection. The other two ask for nothing, and the
asserts hold in exactly the runs in which they come to a connector that is disconnected and, where
the attempt gets under way, has no channel any more (`atMostOne_iff_careful`).
-/

namespace Twnl

namespace TcpClient

open Connector Machine

/-! ## The condition -/

/-- `connect` returns at once, or says that it will not fail at once. -/
def Attempt.underWay (a : Attempt) : Bool :=
  match a.errno with
  | none | some .EINPROGRESS | some .EINTR | some .EISCONN => true
  | some _ => false

namespace ClientSession

/-- The connector is disconnected, and has no channel if it is to connect and that gets under
way. -/
def Idle (s : ClientSession) (connect : Bool) (a : Attempt) : Prop :=
  s.connector.state = .kDisconnected ∧
    (connect = true → a.underWay = true → s.connector.channel = none)

instance (s : ClientSession) (connect : Bool) (a : Attempt) : Decidable (s.Idle connect a) :=
  inferInstanceAs (Decidable (_ ∧ _))

end ClientSession

/-- `connect` is called, and an expired timer is, only when the connector is idle. -/
def Careful (s : ClientSession) : Step → Prop
  | .call (.connect a) => s.Idle true a
  | .fires a => s.due ≠ [] → s.Idle s.connector.connect a
  | .call .disconnect | .call .stop | .call .enableRetry | .call (.forceClose _)
  | .handleEvent _ _ _ | .expires _ | .closes _ | .callbackReturns _ | .dispatched | .pending
  | .poll => True

instance (s : ClientSession) : DecidablePred (Careful s)
  | .call (.connect a) => inferInstanceAs (Decidable (s.Idle true a))
  | .fires a => inferInstanceAs (Decidable (s.due ≠ [] → s.Idle s.connector.connect a))
  | .call .disconnect | .call .stop | .call .enableRetry | .call (.forceClose _)
  | .handleEvent _ _ _ | .expires _ | .closes _ | .callbackReturns _ | .dispatched | .pending
  | .poll => inferInstanceAs (Decidable True)

/-- At most one socket is being connected or belongs to a connection that is up. -/
def AtMostOne (s : ClientSession) : Prop := s.attempts.length + s.established.length ≤ 1

instance : DecidablePred AtMostOne := fun _ ↦ inferInstanceAs (Decidable (_ ≤ _))

/-! ## The invariant -/

/-- The connector's side: its state, its channel and the functor that is to reset it. -/
structure Attempting (state : States) (channel : Option AttemptChannel) (attempts : List ℤ)
    (fs : List ClientFunctor) : Prop where
  connecting : state = .kConnecting ↔ ∃ c ∈ channel, c.registered = true
  attempts_eq : attempts = ((channel.filter AttemptChannel.registered).map AttemptChannel.fd).toList
  reset : .resetChannel ∈ fs ↔ ∃ c ∈ channel, c.registered = false
  once : fs.count .resetChannel ≤ 1

/-- The client's side: its connection and the callback that may be running for it. -/
structure Holding (state : States) (channel : Option AttemptChannel) (connection : Option ℕ)
    (established : List ℕ) (callback : Option Callback) : Prop where
  connected : ∀ id, connection = some id → state = .kConnected
  up : (∀ id, callback ≠ some (.down id)) → established = connection.toList
  down : ∀ id, callback = some (.down id) →
    established = [] ∧ connection = some id ∧ channel = none

/-- What comes before what: the reset of the channel before the next poll, and before whatever
closes the connection. -/
structure InOrder (channel : Option AttemptChannel) (connection : Option ℕ) (opened : ℕ)
    (polled : List ℕ) (phase : Phase) (fs : List ClientFunctor) : Prop where
  free : ∀ id ∈ polled, connection = some id → channel = none
  left : ∀ n, phase = .functors n → .resetChannel ∉ fs.drop n
  ordered : ∀ id, connection = some id →
    fs.Pairwise fun f g ↦ f = .forceClose id → g ≠ .resetChannel
  fresh : ∀ id, .forceClose id ∈ fs ∨ id ∈ polled ∨ connection = some id → id < opened

structure Tidy (s : ClientSession) : Prop where
  attempting : Attempting s.connector.state s.connector.channel s.attempts s.pendingFunctors
  holding : Holding s.connector.state s.connector.channel s.client.connection s.established
    s.callback
  inOrder : InOrder s.connector.channel s.client.connection s.opened s.polled s.phase
    s.pendingFunctors

variable {s s' : ClientSession} {a : Attempt} {i : Step} {state state' : States}
  {channel : Option AttemptChannel} {attempts : List ℤ} {fs : List ClientFunctor}
  {c : AttemptChannel} {f : ClientFunctor} {connection : Option ℕ} {opened : ℕ}
  {polled established : List ℕ} {phase : Phase} {callback : Option Callback}

theorem tidy_start : Tidy .start := by
  refine ⟨⟨?_, rfl, ?_, ?_⟩, ⟨?_, ?_, ?_⟩, ⟨?_, ?_, ?_, ?_⟩⟩
  · exact iff_of_false nofun nofun
  · exact iff_of_false nofun nofun
  · exact Nat.zero_le 1
  · exact nofun
  · intro _
    rfl
  · exact nofun
  · exact nofun
  · exact nofun
  · exact nofun
  · rintro id (h | h | h) <;> exact absurd h nofun

namespace Attempting

theorem attempts_of_not_registered (h : Attempting state channel attempts fs)
    (hnot : ¬∃ c ∈ channel, c.registered = true) : attempts = [] := by
  rw [h.attempts_eq]
  cases channel with
  | none => rfl
  | some c =>
    have hc : c.registered = false := by
      rw [← Bool.not_eq_true]
      exact fun hreg ↦ hnot ⟨c, rfl, hreg⟩
    rw [Option.filter_some, hc]
    rfl

/-- The channel is gone when it is neither registered nor about to be reset. -/
theorem channel_eq_none (h : Attempting state channel attempts fs) (hstate : state ≠ .kConnecting)
    (hreset : .resetChannel ∉ fs) : channel = none := by
  cases channel with
  | none => rfl
  | some c =>
    cases hc : c.registered with
    | true => exact absurd (h.connecting.mpr ⟨c, rfl, hc⟩) hstate
    | false => exact absurd (h.reset.mpr ⟨c, rfl, hc⟩) hreset

/-- The connection attempt begins. -/
theorem begins (h : Attempting state none attempts fs) (sockfd : ℤ) :
    Attempting .kConnecting (some ⟨sockfd, true⟩) (attempts ++ [sockfd]) fs := by
  constructor
  · exact iff_of_true rfl ⟨_, rfl, rfl⟩
  · rw [h.attempts_of_not_registered nofun]
    rfl
  · refine iff_of_false (fun hmem ↦ ?_) ?_
    · obtain ⟨c, hc, -⟩ := h.reset.mp hmem
      exact absurd hc nofun
    · rintro ⟨c, hc, hfalse⟩
      obtain rfl := Option.mem_some_iff.mp hc
      exact absurd hfalse nofun
  · exact h.once

/-- The attempt ends: the channel is taken from the poller and is to be reset. -/
theorem ends (h : Attempting state (some c) attempts fs) (hreg : c.registered = true)
    (hstate : state' ≠ .kConnecting) :
    Attempting state' (some { c with registered := false }) (attempts.erase c.fd)
      (fs ++ [.resetChannel]) := by
  have hnone : .resetChannel ∉ fs := by
    intro hmem
    obtain ⟨c', hc', hfalse⟩ := h.reset.mp hmem
    obtain rfl := Option.mem_some_iff.mp hc'
    rw [hreg] at hfalse
    exact absurd hfalse nofun
  constructor
  · refine iff_of_false hstate ?_
    rintro ⟨c', hc', htrue⟩
    obtain rfl := Option.mem_some_iff.mp hc'
    exact absurd htrue nofun
  · rw [h.attempts_eq, Option.filter_some, if_pos hreg]
    exact List.erase_cons_head _ _
  · exact iff_of_true (List.mem_append_right _ List.mem_cons_self) ⟨_, rfl, rfl⟩
  · rw [List.count_append, List.count_eq_zero.mpr hnone]
    exact Nat.le_refl 1

/-- Without an attempt, the state may be any but `kConnecting`. -/
theorem setState (h : Attempting state channel attempts fs) (hstate : state ≠ .kConnecting)
    (hstate' : state' ≠ .kConnecting) : Attempting state' channel attempts fs :=
  ⟨iff_of_false hstate' (mt h.connecting.mpr hstate), h.attempts_eq, h.reset, h.once⟩

/-- The other functors do not matter. -/
theorem congr_count {fs' : List ClientFunctor} (h : Attempting state channel attempts fs)
    (hcount : fs'.count .resetChannel = fs.count .resetChannel) :
    Attempting state channel attempts fs' := by
  refine ⟨h.connecting, h.attempts_eq, ?_, hcount ▸ h.once⟩
  rw [← h.reset, ← List.count_pos_iff, ← List.count_pos_iff, hcount]

theorem append (h : Attempting state channel attempts fs) (hf : f ≠ .resetChannel) :
    Attempting state channel attempts (fs ++ [f]) := by
  apply h.congr_count
  rw [List.count_append, List.count_singleton, beq_false_of_ne hf]
  rfl

theorem pop (h : Attempting state channel attempts (f :: fs)) (hf : f ≠ .resetChannel) :
    Attempting state channel attempts fs := by
  apply h.congr_count
  rw [List.count_cons_of_ne hf]

/-- The functor that resets the channel. -/
theorem popReset (h : Attempting state channel attempts (.resetChannel :: fs)) :
    Attempting state none attempts fs := by
  obtain ⟨c, hc, hfalse⟩ := h.reset.mp List.mem_cons_self
  obtain rfl := Option.mem_def.mp hc
  have hnot : ¬∃ c' ∈ some c, c'.registered = true := by
    rintro ⟨c', hc', htrue⟩
    obtain rfl := Option.mem_some_iff.mp hc'
    rw [hfalse] at htrue
    exact absurd htrue nofun
  have honce := h.once
  rw [List.count_cons_self] at honce
  constructor
  · exact iff_of_false (mt h.connecting.mp hnot) nofun
  · exact h.attempts_of_not_registered hnot
  · refine iff_of_false (fun hmem ↦ ?_) nofun
    have hpos := List.count_pos_iff.mpr hmem
    omega
  · omega

end Attempting

namespace InOrder

theorem append (h : InOrder channel connection opened polled phase fs) (hf : f ≠ .resetChannel)
    (hclose : ∀ id, f = .forceClose id → id < opened) :
    InOrder channel connection opened polled phase (fs ++ [f]) := by
  constructor
  · exact h.free
  · intro n hn hmem
    rw [List.drop_append] at hmem
    rcases List.mem_append.mp hmem with hmem | hmem
    · exact h.left n hn hmem
    · exact hf (List.mem_singleton.mp (List.mem_of_mem_drop hmem)).symm
  · intro id hid
    refine List.pairwise_append.mpr ⟨h.ordered id hid, List.pairwise_singleton _ _, ?_⟩
    intro g _ g' hg' _
    rw [List.mem_singleton.mp hg']
    exact hf
  · rintro id (hmem | hid)
    · rcases List.mem_append.mp hmem with hmem | hmem
      · exact h.fresh id (Or.inl hmem)
      · exact hclose id (List.mem_singleton.mp hmem).symm
    · exact h.fresh id (Or.inr hid)

/-- While events are dispatched and there is no connection, the reset may be queued. -/
theorem appendReset {channel' : Option AttemptChannel}
    (h : InOrder channel none opened polled .dispatch fs) :
    InOrder channel' none opened polled .dispatch (fs ++ [.resetChannel]) := by
  refine ⟨nofun, nofun, nofun, ?_⟩
  rintro id (hmem | hid)
  · rcases List.mem_append.mp hmem with hmem | hmem
    · exact h.fresh id (Or.inl hmem)
    · exact absurd (List.mem_singleton.mp hmem) nofun
  · exact h.fresh id (Or.inr hid)

/-- A new connection is not one that was polled or is to be closed. -/
theorem connect (h : InOrder channel none opened polled .dispatch fs) :
    InOrder channel (some opened) (opened + 1) polled .dispatch fs := by
  constructor
  · rintro id hmem hid
    obtain rfl := Option.some.inj hid
    exact absurd (h.fresh _ (Or.inr (Or.inl hmem))) (Nat.lt_irrefl _)
  · exact nofun
  · rintro id hid
    obtain rfl := Option.some.inj hid
    refine List.pairwise_of_forall_mem_list fun f hf g _ heq ↦ ?_
    exact absurd (h.fresh _ (Or.inl (heq ▸ hf))) (Nat.lt_irrefl _)
  · rintro id (hmem | hmem | hid)
    · exact Nat.lt_succ_of_lt (h.fresh id (Or.inl hmem))
    · exact Nat.lt_succ_of_lt (h.fresh id (Or.inr (Or.inl hmem)))
    · obtain rfl := Option.some.inj hid
      exact Nat.lt_succ_self _

/-- The connection is gone. -/
theorem disconnect (h : InOrder channel connection opened polled phase fs) :
    InOrder channel none opened polled phase fs :=
  ⟨nofun, h.left, nofun, fun id hid ↦ h.fresh id (hid.imp_right fun h ↦ h.imp_right nofun)⟩

/-- The functor at the head runs. -/
theorem pop {n : ℕ}
    (h : InOrder channel connection opened polled (.functors (n + 1)) (f :: fs)) :
    InOrder channel connection opened polled (.functors n) fs := by
  refine ⟨h.free, ?_, fun id hid ↦ (List.pairwise_cons.mp (h.ordered id hid)).2, ?_⟩
  · intro m hm
    obtain rfl := Phase.functors.inj hm
    exact h.left (n + 1) rfl
  · rintro id (hmem | hid)
    · exact h.fresh id (Or.inl (List.mem_cons_of_mem f hmem))
    · exact h.fresh id (Or.inr hid)

/-- Where no connection was polled, or the channel is none, the channel may be another. -/
theorem setChannel {channel' : Option AttemptChannel}
    (h : InOrder channel connection opened polled phase fs)
    (hchannel : connection = none ∨ channel' = none) :
    InOrder channel' connection opened polled phase fs := by
  refine ⟨fun id _ hid ↦ ?_, h.left, h.ordered, h.fresh⟩
  rcases hchannel with hnone | hnone
  · exact absurd (hnone.symm.trans hid) nofun
  · exact hnone

end InOrder

/-! ## The operations -/

theorem Tidy.connection_eq_none (h : Tidy s) (hstate : s.connector.state ≠ .kConnected) :
    s.client.connection = none := by
  cases hconn : s.client.connection with
  | none => rfl
  | some id => exact absurd (h.holding.connected id hconn) hstate

/-- The three ways of a `connect`. -/
theorem connect_cases (s : ClientSession) (a : Attempt) :
    (a.underWay = true ∧ s.connect a = s.connecting a.sockfd) ∨
      (a.underWay = false ∧ s.connect a = .ok (s.retry a.sockfd)) ∨
      (a.underWay = false ∧ s.connect a = .ok (s.close a.sockfd)) := by
  obtain ⟨sockfd, errno⟩ := a
  rw [ClientSession.connect, Attempt.underWay]
  cases errno with
  | none => exact Or.inl ⟨rfl, rfl⟩
  | some e =>
    cases e <;> first
      | exact Or.inl ⟨rfl, rfl⟩
      | exact Or.inr (Or.inl ⟨rfl, rfl⟩)
      | exact Or.inr (Or.inr ⟨rfl, rfl⟩)

/-- An error ends the attempt whose channel it came from. -/
theorem handleError_eq_ok (hs' : s.handleError = .ok s') : s.connector.state = .kConnecting ∧
    ∃ c, s.connector.channel = some c ∧ s' = (s.removeAndResetChannel c).retry c.fd := by
  obtain ⟨⟨⟩, hstate, hs'⟩ := bind_eq_ok.mp hs'
  rw [check_eq_ok] at hstate
  cases hchannel : s.connector.channel with
  | none =>
    rw [hchannel] at hs'
    exact absurd hs' error_ne_ok
  | some c =>
    rw [hchannel] at hs'
    exact ⟨hstate, c, rfl, (Except.ok.inj hs').symm⟩

/-- `startInLoop` on an idle connector. -/
theorem Tidy.startInLoop (h : Tidy s) (hidle : s.Idle s.connector.connect a) :
    Outcome (s.startInLoop a) Tidy (fun _ ↦ False) := by
  obtain ⟨hstate, hchannel⟩ := hidle
  have hnone : s.client.connection = none := by
    apply h.connection_eq_none
    rw [hstate]
    exact nofun
  rw [ClientSession.startInLoop, check_pos hstate, bind_ok]
  split
  · rename_i hconnect
    rcases connect_cases s a with ⟨hway, heq⟩ | ⟨-, heq⟩ | ⟨-, heq⟩
    · have hfree := hchannel hconnect hway
      rw [heq, ClientSession.connecting, check_pos hfree, bind_ok, outcome_ok]
      -- the new channel is the only one, and no connection is up
      refine ⟨(hfree ▸ h.attempting).begins a.sockfd, ⟨?_, h.holding.up, ?_⟩, ?_⟩
      · exact fun id hid ↦ absurd (hnone.symm.trans hid) nofun
      · exact fun id hid ↦ absurd (hnone.symm.trans (h.holding.down id hid).2.1) nofun
      · exact h.inOrder.setChannel (Or.inl hnone)
    · rw [heq, outcome_ok, ClientSession.retry]
      have hattempting := h.attempting
      have hholding := h.holding
      rw [hstate] at hattempting hholding
      split
      · exact ⟨hattempting, hholding, h.inOrder⟩
      · exact ⟨hattempting, hholding, h.inOrder⟩
    · rw [heq, outcome_ok]
      exact ⟨h.attempting, h.holding, h.inOrder⟩
  · exact h

/-- On any other connector an assert of `startInLoop` or of `connecting` fails. -/
theorem startInLoop_error (hidle : ¬s.Idle s.connector.connect a) :
    ∃ site, s.startInLoop a = .error (.assertion site) := by
  rw [ClientSession.startInLoop]
  by_cases hstate : s.connector.state = .kDisconnected
  · rw [check_pos hstate, bind_ok]
    have hbusy : ¬(s.connector.connect = true → a.underWay = true → s.connector.channel = none) :=
      fun h ↦ hidle ⟨hstate, h⟩
    obtain ⟨hconnect, hbusy⟩ := Classical.not_imp.mp hbusy
    obtain ⟨hway, hchannel⟩ := Classical.not_imp.mp hbusy
    rw [if_pos hconnect]
    rcases connect_cases s a with ⟨-, heq⟩ | ⟨hnot, -⟩ | ⟨hnot, -⟩
    · rw [heq, ClientSession.connecting, check_neg hchannel]
      exact ⟨_, rfl⟩
    · exact absurd (hway.symm.trans hnot) nofun
    · exact absurd (hway.symm.trans hnot) nofun
  · rw [check_neg hstate]
    exact ⟨_, rfl⟩

/-- An attempt that is given up: the channel is to be reset, and there may be a timer. -/
theorem Tidy.retry (h : Tidy s) (hphase : s.phase = .dispatch) (hc : s.connector.channel = some c)
    (hreg : c.registered = true) : Tidy ((s.removeAndResetChannel c).retry c.fd) := by
  have hstate : s.connector.state = .kConnecting := h.attempting.connecting.mpr ⟨c, hc, hreg⟩
  have hnone : s.client.connection = none := by
    apply h.connection_eq_none
    rw [hstate]
    exact nofun
  have hattempting := (hc ▸ h.attempting).ends hreg (show States.kDisconnected ≠ _ from nofun)
  have hholding : Holding .kDisconnected (some { c with registered := false }) s.client.connection
      s.established s.callback := by
    refine ⟨fun id hid ↦ absurd (hnone.symm.trans hid) nofun, h.holding.up, fun id hid ↦ ?_⟩
    exact absurd (hnone.symm.trans (h.holding.down id hid).2.1) nofun
  have hinOrder := h.inOrder
  rw [hnone, hphase] at hinOrder
  have hinOrder' : InOrder (some { c with registered := false }) s.client.connection
      s.opened s.polled s.phase (s.pendingFunctors ++ [.resetChannel]) := by
    rw [hnone, hphase]
    exact hinOrder.appendReset
  rw [ClientSession.retry]
  split
  · exact ⟨hattempting, hholding, hinOrder'⟩
  · exact ⟨hattempting, hholding, hinOrder'⟩

/-- An attempt that succeeds: there is a connection if the connector is still to connect. -/
theorem Tidy.handleWrite (h : Tidy s) (hd : s.Dispatching) (hr : s.Registered) (err : ℤ)
    (isSelfConnect : Bool) : Outcome (s.handleWrite err isSelfConnect) Tidy (fun _ ↦ False) := by
  obtain ⟨c, hc, hreg⟩ := hr
  obtain ⟨hphase, hcallback, -⟩ := hd
  have hc : s.connector.channel = some c := Option.mem_def.mp hc
  have hstate : s.connector.state = .kConnecting := h.attempting.connecting.mpr ⟨c, hc, hreg⟩
  have hnone : s.client.connection = none := by
    apply h.connection_eq_none
    rw [hstate]
    exact nofun
  have hestablished : s.established = [] := by
    rw [h.holding.up fun id hid ↦ absurd (hcallback.symm.trans hid) nofun, hnone]
    rfl
  have hattempting := (hc ▸ h.attempting).ends hreg (show States.kConnected ≠ _ from nofun)
  have hinOrder := h.inOrder
  rw [hnone, hphase] at hinOrder
  rw [ClientSession.handleWrite, hstate, hc]
  change Outcome (if err ≠ 0 then _ else if isSelfConnect = true then _ else _) _ _
  split
  · exact h.retry hphase hc hreg
  split
  · exact h.retry hphase hc hreg
  split
  · refine ⟨hattempting, ⟨fun _ _ ↦ rfl, fun _ ↦ ?_, fun id hid ↦ ?_⟩, ?_⟩
    · change s.established ++ [s.opened] = _
      rw [hestablished]
      rfl
    · exact absurd (Option.some.inj hid) nofun
    · change InOrder _ _ _ _ s.phase _
      rw [hphase]
      exact hinOrder.appendReset.connect
  · refine ⟨hattempting, ⟨fun _ _ ↦ rfl, h.holding.up, fun id hid ↦ ?_⟩, ?_⟩
    · exact absurd (hcallback.symm.trans hid) nofun
    · change InOrder _ s.client.connection _ _ s.phase _
      rw [hnone, hphase]
      exact hinOrder.appendReset

theorem handleWrite_of_kDisconnected (h : s.connector.state = .kDisconnected) (err : ℤ)
    (isSelfConnect : Bool) : s.handleWrite err isSelfConnect = .ok s := by
  cases hc : s.connector.channel <;> simp only [ClientSession.handleWrite, h, hc]

/-- After an error the callback for writing finds the connector disconnected. -/
theorem Tidy.handleEvent {revents : Mask} {err : ℤ} {isSelfConnect : Bool} (h : Tidy s)
    (hd : s.Dispatching) (hr : s.Registered) :
    Outcome (s.handleEvent revents err isSelfConnect) Tidy (fun _ ↦ False) := by
  have hwrite := h.handleWrite hd hr err isSelfConnect
  obtain ⟨c, hc, hreg⟩ := hr
  have hc : s.connector.channel = some c := Option.mem_def.mp hc
  have hstate : s.connector.state = .kConnecting := h.attempting.connecting.mpr ⟨c, hc, hreg⟩
  rw [ClientSession.handleEvent]
  by_cases herr : revents &&& EPOLLERR ≠ 0
  · have hretried := h.retry hd.1 hc hreg
    rw [if_pos herr, ClientSession.handleError, check_pos hstate, bind_ok, hc, bind_ok]
    -- `handleError` has disconnected the connector, so `handleWrite` does nothing
    have hstate' : ((s.removeAndResetChannel c).retry c.fd).connector.state = .kDisconnected := by
      rw [ClientSession.retry]
      split <;> rfl
    split
    · change Outcome (ClientSession.handleWrite _ err isSelfConnect) _ _
      rw [handleWrite_of_kDisconnected hstate']
      exact hretried
    · exact hretried
  · rw [if_neg herr, bind_ok]
    split
    · exact hwrite
    · exact h

/-- A connection may close once the channel of its attempt is gone. -/
theorem Tidy.goesDown {id : ℕ} (h : Tidy s) (hcallback : s.callback = none)
    (hid : id ∈ s.established) (hfree : s.connector.channel = none) : Tidy (s.goesDown id) := by
  have hestablished := h.holding.up fun id hid ↦ absurd (hcallback.symm.trans hid) nofun
  have hconn : s.client.connection = some id := by
    rw [hestablished] at hid
    exact Option.mem_toList.mp hid
  refine ⟨h.attempting, ⟨h.holding.connected, fun hnot ↦ absurd rfl (hnot id), ?_⟩, h.inOrder⟩
  intro j hj
  obtain rfl := Callback.down.inj (Option.some.inj hj)
  refine ⟨?_, hconn, hfree⟩
  change s.established.erase id = []
  rw [hestablished, hconn]
  exact List.erase_cons_head _ _

theorem Tidy.mem_established {id : ℕ} (h : Tidy s) (hid : id ∈ s.established) :
    s.client.connection = some id := by
  by_cases hup : ∀ j, s.callback ≠ some (.down j)
  · rw [h.holding.up hup] at hid
    exact Option.mem_toList.mp hid
  · obtain ⟨j, hj⟩ := Classical.not_forall.mp hup
    rw [(h.holding.down j (Classical.not_not.mp hj)).1] at hid
    exact absurd hid List.not_mem_nil

/-- The connection that has closed is the client's, and where another attempt follows, the connector
is idle. -/
theorem Tidy.removeConnection {id : ℕ} (h : Tidy s) (hid : s.callback = some (.down id)) :
    Outcome (ClientSession.removeConnection { s with callback := none } id a) Tidy
      (fun _ ↦ False) := by
  obtain ⟨hestablished, hconn, hfree⟩ := h.holding.down id hid
  have hstate := h.holding.connected id hconn
  have hne : s.connector.state ≠ .kConnecting := by
    rw [hstate]
    exact nofun
  have hdestroy : ClientFunctor.connectDestroyed id ≠ .resetChannel := nofun
  have hattempting := h.attempting.append hdestroy
  have hinOrder := (h.inOrder.append hdestroy nofun).disconnect
  rw [ClientSession.removeConnection, check_pos hconn, bind_ok]
  split
  · refine Tidy.startInLoop ⟨hattempting.setState hne nofun, ⟨nofun, ?_, nofun⟩, hinOrder⟩
      ⟨rfl, fun _ _ ↦ hfree⟩
    exact fun _ ↦ hestablished
  · exact ⟨hattempting, ⟨nofun, fun _ ↦ hestablished, nofun⟩, hinOrder⟩

theorem Tidy.runFunctor {n : ℕ} (h : Tidy s) (hcallback : s.callback = none)
    (hphase : s.phase = .functors (n + 1)) (hfs : s.pendingFunctors = f :: fs) :
    Tidy (ClientSession.runFunctor { s with phase := .functors n, pendingFunctors := fs } f) := by
  have hattempting := h.attempting
  have hinOrder := h.inOrder
  rw [hfs] at hattempting
  rw [hphase, hfs] at hinOrder
  cases f with
  | resetChannel =>
    refine ⟨hattempting.popReset, ⟨h.holding.connected, h.holding.up, fun id hid ↦ ?_⟩,
      hinOrder.pop.setChannel (Or.inr rfl)⟩
    exact absurd (hcallback.symm.trans hid) nofun
  | connectDestroyed id => exact ⟨hattempting.pop nofun, h.holding, hinOrder.pop⟩
  | forceClose id =>
    have hpopped : Tidy { s with phase := .functors n, pendingFunctors := fs } :=
      ⟨hattempting.pop nofun, h.holding, hinOrder.pop⟩
    rw [ClientSession.runFunctor]
    split
    · rename_i hid
      have hconn := hpopped.mem_established hid
      have hstate : s.connector.state ≠ .kConnecting := by
        rw [h.holding.connected id hconn]
        exact nofun
      -- the reset of the attempt was queued before anything of its connection
      have hreset : .resetChannel ∉ fs := fun hmem ↦
        (List.pairwise_cons.mp (hinOrder.ordered id hconn)).1 _ hmem rfl rfl
      exact hpopped.goesDown hcallback hid (hpopped.attempting.channel_eq_none hstate hreset)
    · exact hpopped

/-- The calls that start nothing. -/
theorem Tidy.call {c : ClientCall} (h : Tidy s) (hc : ∀ a, c ≠ .connect a) :
    Outcome (s.call c) Tidy (fun _ ↦ False) := by
  cases c with
  | connect a => exact absurd rfl (hc a)
  | disconnect => exact ⟨h.attempting, h.holding, h.inOrder⟩
  | stop =>
    rw [ClientSession.call, ClientSession.connectorStop]
    unfold ClientSession.cancelTimer
    split
    · exact ⟨h.attempting, h.holding, h.inOrder⟩
    · exact ⟨h.attempting, h.holding, h.inOrder⟩
  | enableRetry => exact ⟨h.attempting, h.holding, h.inOrder⟩
  | forceClose id =>
    rw [ClientSession.call, ClientSession.forceClose]
    split
    · rename_i hid
      have hne : ClientFunctor.forceClose id ≠ .resetChannel := nofun
      refine ⟨h.attempting.append hne, h.holding, h.inOrder.append hne fun j hj ↦ ?_⟩
      obtain rfl := ClientFunctor.forceClose.inj hj
      exact h.inOrder.fresh _ (Or.inr (Or.inr (h.mem_established hid)))
    · exact h

/-! ## One step -/

/-- What is no `assert` that fails. -/
theorem outcome_impossible {x : Except Fault ClientSession} {P : ClientSession → Prop}
    (h : Outcome x P (fun _ ↦ False)) : Outcome x P (· = .impossible) := by
  cases x with
  | ok s => exact h
  | error e => exact h.elim

/-- The step lemma. -/
theorem Tidy.step (h : Tidy s) (hi : Careful s i) : Outcome (step s i) Tidy (· = .impossible) := by
  cases i with
  | call c =>
    apply outcome_impossible
    by_cases hc : ∃ a, c = .connect a
    · obtain ⟨a, rfl⟩ := hc
      exact Tidy.startInLoop ⟨h.attempting, h.holding, h.inOrder⟩ hi
    · exact h.call fun a ha ↦ hc ⟨a, ha⟩
  | handleEvent revents err isSelfConnect =>
    rw [TcpClient.step]
    split
    · rename_i hd
      exact outcome_impossible (h.handleEvent hd.1 hd.2)
    · rfl
  | expires batch =>
    rw [TcpClient.step]
    split
    · exact ⟨h.attempting, h.holding, h.inOrder⟩
    · rfl
  | fires a =>
    rw [TcpClient.step]
    split
    · rename_i hdue
      apply outcome_impossible
      exact Tidy.startInLoop ⟨h.attempting, h.holding, h.inOrder⟩ (hi (by rw [hdue]; exact nofun))
    · rfl
  | closes id =>
    rw [TcpClient.step]
    split
    · rename_i hd
      obtain ⟨⟨-, hcallback, -⟩, hpolled, hid⟩ := hd
      exact h.goesDown hcallback hid (h.inOrder.free id hpolled (h.mem_established hid))
    · rfl
  | callbackReturns a =>
    rw [TcpClient.step]
    split
    · rename_i id hup
      refine ⟨h.attempting, ⟨h.holding.connected, fun _ ↦ ?_, nofun⟩, h.inOrder⟩
      apply h.holding.up
      intro j hj
      exact absurd (Option.some.inj (hup.symm.trans hj)) nofun
    · rename_i id hdown
      exact outcome_impossible (h.removeConnection hdown)
    · rfl
  | dispatched =>
    rw [TcpClient.step]
    split
    · refine ⟨h.attempting, h.holding, h.inOrder.free, ?_, h.inOrder.ordered, h.inOrder.fresh⟩
      intro n hn
      obtain rfl := Phase.functors.inj hn
      rw [List.drop_length]
      exact List.not_mem_nil
    · rfl
  | pending =>
    rw [TcpClient.step]
    split
    · rename_i n f fs hphase hcallback hfs
      exact h.runFunctor hcallback hphase hfs
    all_goals rfl
  | poll =>
    rw [TcpClient.step]
    split
    · rename_i hpoll
      obtain ⟨hphase, hcallback⟩ := hpoll
      have hreset : .resetChannel ∉ s.pendingFunctors := h.inOrder.left 0 hphase
      refine ⟨h.attempting, h.holding, ?_, nofun, h.inOrder.ordered, ?_⟩
      · intro id hid hconn
        apply h.attempting.channel_eq_none ?_ hreset
        rw [h.holding.connected id hconn]
        exact nofun
      · rintro id (hmem | hmem | hconn)
        · exact h.inOrder.fresh id (Or.inl hmem)
        · exact h.inOrder.fresh id (Or.inr (Or.inr (h.mem_established hmem)))
        · exact h.inOrder.fresh id (Or.inr (Or.inr hconn))
    · rfl

/-- A step that is not careful stops at an assert. -/
theorem careful_of_step {P : ClientSession → Prop} (h : Outcome (step s i) P (· = .impossible)) :
    Careful s i := by
  cases i with
  | call c =>
    cases c with
    | connect a =>
      by_contra hidle
      obtain ⟨site, hsite⟩ := startInLoop_error (s := { s with
        client := { s.client with connect := true }
        connector := { s.connector with connect := true } }) hidle
      have hstep : TcpClient.step s (.call (.connect a)) = .error (.assertion site) := hsite
      rw [hstep] at h
      exact absurd h nofun
    | disconnect | stop | enableRetry | forceClose _ => trivial
  | fires a =>
    intro hne
    by_contra hidle
    obtain ⟨timer, due, hdue⟩ := List.exists_cons_of_ne_nil hne
    obtain ⟨site, hsite⟩ := startInLoop_error (s := { s with due := due }) hidle
    have hstep : TcpClient.step s (.fires a) = .error (.assertion site) := by
      rw [TcpClient.step, hdue]
      exact hsite
    rw [hstep] at h
    exact absurd h nofun
  | handleEvent _ _ _ | expires _ | closes _ | callbackReturns _ | dispatched | pending | poll =>
    trivial

theorem Tidy.atMostOne (h : Tidy s) : AtMostOne s := by
  have hestablished : s.established.length ≤ 1 := by
    by_cases hup : ∀ j, s.callback ≠ some (.down j)
    · rw [h.holding.up hup]
      cases s.client.connection <;> simp
    · obtain ⟨j, hj⟩ := Classical.not_forall.mp hup
      rw [(h.holding.down j (Classical.not_not.mp hj)).1]
      exact Nat.zero_le 1
  rw [AtMostOne]
  by_cases hreg : s.Registered
  · have hstate : s.connector.state = .kConnecting := h.attempting.connecting.mpr hreg
    -- while an attempt is under way no connection is up
    have hnone : s.established = [] := by
      refine List.eq_nil_iff_forall_not_mem.mpr fun id hid ↦ ?_
      have hconnected := h.holding.connected id (h.mem_established hid)
      exact absurd (hstate.symm.trans hconnected) nofun
    obtain ⟨c, hc, hc'⟩ := hreg
    have hlen : s.attempts.length = 1 := by
      rw [h.attempting.attempts_eq, Option.mem_def.mp hc, Option.filter_some, if_pos hc']
      rfl
    rw [hlen, hnone]
    exact Nat.le_refl 1
  · rw [h.attempting.attempts_of_not_registered hreg, List.length_nil, Nat.zero_add]
    exact hestablished

/-! ## Runs -/

/-- **At most one attempt or connection.** In a run of a client no assert fails, and at each time
there is at most one attempt or connection, exactly when `connect` is called and the callbacks of
timers run only when the connector is idle. -/
theorem atMostOne_iff_careful (steps : List Step) :
    Along step (fun s i ↦ Outcome (step s i) AtMostOne (· = .impossible)) .start steps ↔
      Along step Careful .start steps := by
  refine along_congr (I := Tidy) (fun s i s' h hi hs' ↦ (h.step hi).of_ok hs') ?_ tidy_start
  intro s i h
  constructor
  · exact careful_of_step
  · intro hi
    exact (h.step hi).imp fun _ h' ↦ h'.atMostOne

/-- An attempt fails and is made again when the timer expires; the connection is closed from its
callback, and a third attempt follows. -/
example : Along step Careful .start
    [.call .enableRetry, .call (.connect ⟨3, some .EINPROGRESS⟩), .handleEvent EPOLLERR 111 false,
      .dispatched, .pending, .poll, .expires [0], .fires ⟨4, none⟩, .handleEvent EPOLLOUT 0 false,
      .call (.forceClose 0), .callbackReturns ⟨0, none⟩, .dispatched, .pending, .pending,
      .callbackReturns ⟨5, none⟩] := by decide

/-- `connect` is called twice; it is called again after the connection has closed; a timer expires
during the attempt that another `connect` has begun, or has expired when another timer's callback
begins it; and `connect` is called before the channel of the attempt that has failed is reset. -/
theorem not_atMostOne :
    run step .start [.call (.connect ⟨3, none⟩), .call (.connect ⟨4, none⟩)] =
        .error (.assertion .startInLoop) ∧
      run step .start [.call (.connect ⟨3, none⟩), .handleEvent EPOLLOUT 0 false,
        .callbackReturns ⟨0, none⟩, .dispatched, .pending, .poll, .closes 0,
        .callbackReturns ⟨0, none⟩, .call (.connect ⟨4, none⟩)] =
        .error (.assertion .startInLoop) ∧
      run step .start [.call (.connect ⟨3, some .ECONNREFUSED⟩), .call (.connect ⟨4, none⟩),
        .expires [0], .fires ⟨5, none⟩] = .error (.assertion .startInLoop) ∧
      run step .start [.call (.connect ⟨3, some .ECONNREFUSED⟩), .expires [0],
        .call (.connect ⟨4, none⟩), .fires ⟨5, none⟩] = .error (.assertion .startInLoop) ∧
      run step .start [.call (.connect ⟨3, none⟩), .handleEvent EPOLLERR 111 false,
        .call (.connect ⟨4, none⟩)] = .error (.assertion .connecting) :=
  ⟨rfl, rfl, rfl, rfl, rfl⟩

end TcpClient

end Twnl
