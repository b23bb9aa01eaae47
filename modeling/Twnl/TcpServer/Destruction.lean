import Mathlib.Data.List.Nodup
import Twnl.TcpServer.Record

/-!
# The destruction of a server

The destructor runs on the thread of the base loop, while the other loops go on. It posts
`connectDestroyed` to each connection that it finds in the map, and when it returns there is no
server any more. But a connection that closes on a loop of the pool posts `removeConnectionInLoop`
with a bare pointer to the server, which nothing takes out of the queue of the base loop.

So the destruction is clean (`destroyed_clean_iff`) just when no such functor waits as the
destructor begins, no connection calls its close callback from then on, and the map has every
connection that was not removed.
-/

namespace Twnl

namespace TcpServer

open Machine

/-- How far the destructor is. Once it has begun, in which session it did is remembered. -/
inductive DestructorPhase
  | alive
  /-- The connections for which it has to post `connectDestroyed` yet. -/
  | destroying (begun : ServerSession) (left : List ℕ)
  | destroyed (begun : ServerSession)

structure Destruction where
  session : ServerSession
  phase : DestructorPhase
  /-- The connections for which the destructor posted `connectDestroyed`. -/
  posted : List ℕ

namespace Destruction

def start (name : List Char) (numThreads : ℕ) : Destruction :=
  ⟨.start name numThreads, .alive, []⟩

/-- `runInLoop` of `connectDestroyed`, on the thread of the base loop. -/
def postDestroyed (s : ServerSession) (id : ℕ) : ServerSession :=
  if (s.conn id).loop = 0 then s.connectDestroyed 0 id
  else s.queueInLoop (s.conn id).loop (.connectDestroyed id)

/-- The thread of the base loop takes the step. -/
def OnBase (s : ServerSession) : Step → Prop
  | .accept => True
  | .closes id | .closeCallback id => (s.conn id).loop = 0
  | .callBegins _ _ | .callSets _ _ | .callEnds _ _ => False
  | .pending loop => loop = 0

instance (s : ServerSession) : DecidablePred (OnBase s)
  | .accept => inferInstanceAs (Decidable True)
  | .closes _ | .closeCallback _ | .pending _ => inferInstanceAs (Decidable (_ = _))
  | .callBegins _ _ | .callSets _ _ | .callEnds _ _ => inferInstanceAs (Decidable False)

/-- The pointer to the server is bound in the functor. -/
def BindsServer : ServerFunctor → Prop
  | .removeConnectionInLoop _ => True
  | .connectEstablished _ | .connectDestroyed _ | .shutdownInLoop _ | .forceCloseInLoop _ => False

instance : DecidablePred BindsServer
  | .removeConnectionInLoop _ => inferInstanceAs (Decidable True)
  | .connectEstablished _ | .connectDestroyed _ | .shutdownInLoop _ | .forceCloseInLoop _ =>
    inferInstanceAs (Decidable False)

/-- The step follows the pointer to the server. -/
def UsesServer (s : ServerSession) : Step → Prop
  | .closeCallback _ => True
  | .pending loop => ∃ f ∈ (s.queues loop).head?, BindsServer f
  | .accept | .closes _ | .callBegins _ _ | .callSets _ _ | .callEnds _ _ => False

instance (s : ServerSession) : DecidablePred (UsesServer s)
  | .closeCallback _ => inferInstanceAs (Decidable True)
  | .pending _ => inferInstanceAs (Decidable (∃ f ∈ (_ : Option ServerFunctor), _))
  | .accept | .closes _ | .callBegins _ _ | .callSets _ _ | .callEnds _ _ =>
    inferInstanceAs (Decidable False)

end Destruction

open Destruction

inductive DestructionStep
  | server (i : Step)
  /-- The destructor is called, outside any connection callback of its thread. -/
  | begins
  /-- It goes on to a connection of the map. In which order it does is left open. -/
  | posts (id : ℕ)
  | ends
  deriving DecidableEq, Repr

def Destruction.step (s : Destruction) : DestructionStep → Except Fault Destruction
  | .server i =>
    match s.phase with
    | .alive => do
      let session ← TcpServer.step s.session i
      .ok { s with session := session }
    | .destroying _ _ =>
      -- the thread of the base loop is in the destructor
      if ¬OnBase s.session i then do
        let session ← TcpServer.step s.session i
        .ok { s with session := session }
      else .error .impossible
    | .destroyed _ =>
      -- the listening socket is closed
      if i ≠ .accept then do
        let session ← TcpServer.step s.session i
        if ¬UsesServer s.session i then .ok { s with session := session }
        else .error .useAfterFree
      else .error .impossible
  | .begins =>
    match s.phase with
    | .alive =>
      -- no callback of the base loop is under way
      if ∀ id ∈ s.session.closing, (s.session.conn id).loop ≠ 0 then
        .ok { s with
          phase := .destroying s.session (s.session.server.connections.map Prod.snd) }
      else .error .impossible
    | .destroying _ _ | .destroyed _ => .error .impossible
  | .posts id =>
    match s.phase with
    | .destroying begun left =>
      if id ∈ left then
        .ok ⟨postDestroyed s.session id, .destroying begun (left.erase id), s.posted ++ [id]⟩
      else .error .impossible
    | .alive | .destroyed _ => .error .impossible
  | .ends =>
    match s.phase with
    | .destroying begun [] => .ok { s with phase := .destroyed begun }
    | .alive | .destroying _ _ | .destroyed _ => .error .impossible

/-! ## The law -/

/-- How often `connectDestroyed` was posted for a connection. -/
def postings (s : ServerSession) (id : ℕ) : ℕ :=
  (s.queues (s.conn id).loop).count (.connectDestroyed id) +
    s.destroyed.count (id, (s.conn id).loop)

/-- No functor refers to the server, and `connectDestroyed` was posted once for each connection for
which it had not been, and not again for the others. -/
def CleanSince (begun s : ServerSession) : Prop :=
  (∀ loop, ∀ f ∈ s.queues loop, ¬BindsServer f) ∧
    ∀ id < s.accepted, postings s id = if postings begun id = 0 then 1 else postings begun id

/-- The map has every connection that was not removed. -/
def Covers (s : ServerSession) : Prop :=
  ∀ id < s.accepted, id ∉ removals s → id ∈ s.server.connections.map Prod.snd

/-- When the destructor begins no removal waits, and from then on no close callback is called. -/
def Timely (s : Destruction) : DestructionStep → Prop
  | .begins => (∀ f ∈ s.session.queues 0, ¬BindsServer f) ∧ Covers s.session
  | .server (.closeCallback _) =>
    match s.phase with
    | .alive => True
    | .destroying _ _ | .destroyed _ => False
  | .server _ | .posts _ | .ends => True

/-! ## The invariant -/

/-- What is in the map was accepted and not removed. -/
structure Listed (s : ServerSession) : Prop where
  entry : ∀ e ∈ s.server.connections,
    e.2 < s.accepted ∧ e.2 ∉ removals s ∧ e.1 = (s.conn e.2).name
  nodup : (s.server.connections.map Prod.snd).Nodup

namespace DestructorPhase

def begun : DestructorPhase → Option ServerSession
  | .alive => none
  | .destroying begun _ | .destroyed begun => some begun

def left : DestructorPhase → List ℕ
  | .destroying _ left => left
  | .alive | .destroyed _ => []

end DestructorPhase

/-- What the destructor found, and what it has done of it. -/
structure Since (s : Destruction) (begun : ServerSession) : Prop where
  handed : Handed [] begun
  listed : Listed begun
  accepted : s.session.accepted = begun.accepted
  erased : s.session.erased = begun.erased
  ledger : ∀ id, s.posted.count id + s.phase.left.count id =
    (begun.server.connections.map Prod.snd).count id

structure Sound (s : Destruction) : Prop where
  handed : Handed s.posted s.session
  alive : s.phase.begun = none → s.posted = [] ∧ Listed s.session
  since : ∀ begun, s.phase.begun = some begun → Since s begun

/-- No removal waits. -/
def Quiet (s : ServerSession) : Prop := ∀ id, (removals s).count id = s.fired.count id

/-- Nothing has gone wrong so far. -/
def Fine (s : Destruction) : Prop :=
  ∀ begun, s.phase.begun = some begun → Quiet s.session ∧ Covers begun

variable {s s' : ServerSession} {d d' : Destruction} {begun : ServerSession} {posted : List ℕ}
  {i : Step} {id loop : ℕ} {f : ServerFunctor} {name : List Char}

/-! ### The map -/

namespace Listed

theorem congr (h : Listed s) (hsame : SameRecord s s') : Listed s' := by
  refine ⟨fun e he ↦ ?_, ?_⟩
  · rw [hsame.server] at he
    rw [hsame.accepted, hsame.removals, hsame.name]
    exact h.entry e he
  · rw [hsame.server]
    exact h.nodup

theorem listedConnection (h : Listed s) (hhanded : Handed [] s) :
    Listed (listedConnection s) := by
  have hconnections : (TcpServer.listedConnection s).server.connections =
      s.server.connections.filter (·.1 ≠ ServerSession.connName s.server) ++
        [(ServerSession.connName s.server, s.accepted)] := by
    rw [← (advance_frame s.server).2.2]
    rfl
  refine ⟨fun e he ↦ ?_, ?_⟩
  · rw [hconnections] at he
    rcases List.mem_append.mp he with he | he
    · obtain ⟨hlt, hopen, hname⟩ := h.entry e (List.mem_filter.mp he).1
      rw [listedConnection_of_ne (Nat.ne_of_lt hlt)]
      exact ⟨Nat.lt_succ_of_lt hlt, hopen, hname⟩
    · obtain rfl := List.mem_singleton.mp he
      rw [listedConnection_self]
      exact ⟨Nat.lt_succ_self _, hhanded.not_removed, rfl⟩
  · rw [hconnections, List.map_append, List.map_singleton]
    refine List.nodup_append.mpr ⟨h.nodup.sublist (List.filter_sublist.map _),
      List.nodup_singleton _, fun j hj k hk ↦ ?_⟩
    obtain ⟨e, he, rfl⟩ := List.mem_map.mp hj
    rw [List.mem_singleton.mp hk]
    exact Nat.ne_of_lt (h.entry e (List.mem_filter.mp he).1).1

theorem removeConnectionInLoop (h : Listed s) (id : ℕ) :
    Listed (s.removeConnectionInLoop id) := by
  have hremovals : removals (s.removeConnectionInLoop id) = removals s ++ [id] := List.map_append
  refine ⟨fun e he ↦ ?_, h.nodup.sublist (List.filter_sublist.map _)⟩
  obtain ⟨he, hother⟩ := List.mem_filter.mp he
  obtain ⟨hlt, hopen, hname⟩ := h.entry e he
  refine ⟨hlt, ?_, hname⟩
  rw [hremovals, List.mem_append, List.mem_singleton]
  rintro (hmem | heq)
  · exact hopen hmem
  · rw [heq] at hname
    exact of_decide_eq_true hother hname

theorem step (h : Listed s) (hhanded : Handed [] s) (hs' : TcpServer.step s i = .ok s') :
    Listed s' := by
  refine Listed.congr ?_ (step_recorded hs')
  cases i with
  | accept => exact h.listedConnection hhanded
  | closeCallback id =>
    have hcalled : Listed { s with fired := s.fired ++ [id] } := ⟨h.entry, h.nodup⟩
    rw [recorded, ServerSession.removeConnection]
    split
    · exact hcalled.removeConnectionInLoop id
    · exact hcalled.congr (SameRecord.queueInLoop _ _ _)
  | pending loop =>
    rw [recorded]
    cases hhead : (s.queues loop).head? with
    | none => exact h
    | some f =>
      cases f with
      | removeConnectionInLoop id => exact h.removeConnectionInLoop id
      | connectEstablished | connectDestroyed | shutdownInLoop | forceCloseInLoop => exact h
  | closes | callBegins | callSets | callEnds => exact h

end Listed

/-! ### The other loops -/

theorem quiet_iff (h : Handed posted s) :
    Quiet s ↔ ∀ f ∈ s.queues 0, ¬BindsServer f := by
  constructor
  · intro hquiet f hf hbinds
    cases f with
    | removeConnectionInLoop id =>
      have hless := (h.remove_pos hf).2
      exact Nat.ne_of_lt hless (hquiet id)
    | connectEstablished | connectDestroyed | shutdownInLoop | forceCloseInLoop => exact hbinds
  · intro hnone id
    have hcount := h.remove id 0
    have hzero : (s.queues 0).count (.removeConnectionInLoop id) = 0 :=
      List.count_eq_zero.mpr fun hmem ↦ hnone _ hmem trivial
    rw [if_pos rfl, if_pos rfl, hzero, Nat.zero_add] at hcount
    exact hcount

/-- The pointer to the server is bound in functors of the base loop only. -/
theorem Handed.not_bindsServer (h : Handed posted s) (hf : f ∈ s.queues loop)
    (hloop : loop ≠ 0) : ¬BindsServer f := by
  intro hbinds
  cases f with
  | removeConnectionInLoop id => exact hloop (h.remove_pos hf).1
  | connectEstablished | connectDestroyed | shutdownInLoop | forceCloseInLoop => exact hbinds

/-- The connections whose close callback the step calls. -/
def called : Step → List ℕ
  | .closeCallback id => [id]
  | .accept | .closes _ | .callBegins _ _ | .callSets _ _ | .callEnds _ _ | .pending _ => []

/-- The step neither accepts nor removes. -/
def Spares (s : ServerSession) (i : Step) : Prop :=
  i ≠ .accept ∧ (∀ id, i = .closeCallback id → (s.conn id).loop ≠ 0) ∧
    ∀ loop, i = .pending loop → ∀ f ∈ (s.queues loop).head?, ¬BindsServer f

theorem spares_of_not_onBase (h : Handed posted s) (hbase : ¬OnBase s i) : Spares s i := by
  refine ⟨?_, ?_, ?_⟩
  · rintro rfl
    exact hbase trivial
  · rintro id rfl
    exact hbase
  · rintro loop rfl f hf
    exact h.not_bindsServer (List.mem_of_head? hf) hbase

theorem spares_of_not_usesServer (haccept : i ≠ .accept) (huses : ¬UsesServer s i) :
    Spares s i := by
  refine ⟨haccept, ?_, ?_⟩
  · rintro id rfl
    exact absurd trivial huses
  · rintro loop rfl f hf hbinds
    exact huses ⟨f, hf, hbinds⟩

/-- What such a step does to the record is to note the close callback it calls. -/
theorem Spares.recorded (h : Spares s i) (hs' : TcpServer.step s i = .ok s') :
    s'.accepted = s.accepted ∧ s'.erased = s.erased ∧ s'.fired = s.fired ++ called i := by
  have hsame := step_recorded hs'
  rw [hsame.accepted, hsame.erased, hsame.fired]
  obtain ⟨haccept, hclose, hpending⟩ := h
  cases i with
  | accept => exact absurd rfl haccept
  | closeCallback id =>
    rw [TcpServer.recorded, ServerSession.removeConnection, if_neg (hclose id rfl)]
    exact ⟨rfl, rfl, rfl⟩
  | pending loop =>
    rw [TcpServer.recorded, called, List.append_nil]
    cases hhead : (s.queues loop).head? with
    | none => exact ⟨rfl, rfl, rfl⟩
    | some f =>
      cases f with
      | removeConnectionInLoop id => exact absurd trivial (hpending loop rfl _ hhead)
      | connectEstablished | connectDestroyed | shutdownInLoop | forceCloseInLoop =>
        exact ⟨rfl, rfl, rfl⟩
  | closes | callBegins | callSets | callEnds => exact ⟨rfl, rfl, (List.append_nil _).symm⟩

/-! ### The destructor -/

theorem sound_start (name : List Char) (numThreads : ℕ) : Sound (.start name numThreads) :=
  ⟨handed_start name numThreads, fun _ ↦ ⟨rfl, nofun, List.nodup_nil⟩, nofun⟩

/-- The destructor posts `connectDestroyed`, as though it were queued for the base loop too. -/
theorem Handed.queueDestroyed (h : Handed posted s) (id : ℕ) :
    Handed (posted ++ [id]) (s.queueInLoop (s.conn id).loop (.connectDestroyed id)) := by
  have hqueues := count_queueInLoop s (s.conn id).loop (.connectDestroyed id)
  refine ⟨fun i k ↦ ?_, fun i k ↦ ?_, fun i k ↦ ?_, h.begun⟩
  · rw [hqueues, if_neg nofun, Nat.add_zero]
    exact h.establish i k
  · rw [hqueues, if_neg nofun, Nat.add_zero]
    exact h.remove i k
  · rw [hqueues, count_concat]
    change _ + s.destroyed.count (i, k) =
      if (s.conn i).loop = k then (removals s).count i + _ else 0
    rw [← Nat.add_assoc ((removals s).count i)]
    exact destroy_queued id i k (h.destroy i k)

theorem Handed.postDestroyed (h : Handed posted s) (id : ℕ) :
    Handed (posted ++ [id]) (postDestroyed s id) := by
  have hqueued := h.queueDestroyed id
  rw [Destruction.postDestroyed]
  split
  · rename_i hloop
    rw [hloop] at hqueued
    exact hqueued.connectDestroyed (popped_queueInLoop s 0 _)
  · exact hqueued

namespace Sound

/-- What a step keeps, and when nothing has gone wrong after it. -/
def Keeps (d : Destruction) (j : DestructionStep) (d' : Destruction) : Prop :=
  Sound d' ∧ (Fine d' ↔ Fine d ∧ Timely d j)

theorem removals_le (h : Sound d) (id : ℕ) :
    (removals d.session).count id ≤ d.session.fired.count id := by
  have hcount := h.handed.remove id 0
  rw [if_pos rfl, if_pos rfl] at hcount
  omega

theorem fine_of_alive (hphase : d.phase.begun = none) : Fine d := by
  intro begun hbegun
  rw [hphase] at hbegun
  exact absurd hbegun nofun

/-- The server goes on while it lives. -/
theorem server (h : Sound d) (hphase : d.phase = .alive)
    (hs' : TcpServer.step d.session i = .ok s') :
    Keeps d (.server i) { d with session := s' } := by
  have hnone : d.phase.begun = none := by rw [hphase]; rfl
  obtain ⟨hposted, hlisted⟩ := h.alive hnone
  have hhanded : Handed [] d.session := hposted ▸ h.handed
  refine ⟨⟨?_, fun _ ↦ ⟨hposted, hlisted.step hhanded hs'⟩, fun begun hbegun ↦ ?_⟩, ?_⟩
  · rw [hposted]
    exact (hhanded.step fun _ ↦ rfl).of_ok hs'
  · exact absurd (hnone.symm.trans hbegun) nofun
  · refine iff_of_true (fine_of_alive hnone) ⟨fine_of_alive hnone, ?_⟩
    cases i with
    | closeCallback id =>
      rw [Timely, hphase]
      trivial
    | accept | closes | callBegins | callSets | callEnds | pending => trivial

/-- The other loops go on while the server dies. -/
theorem others (h : Sound d) (hbegun : d.phase.begun = some begun) (hspares : Spares d.session i)
    (hs' : TcpServer.step d.session i = .ok s') :
    Keeps d (.server i) { d with session := s' } := by
  obtain ⟨haccepted, herased, hfired⟩ := hspares.recorded hs'
  have hsince := h.since begun hbegun
  refine ⟨⟨?_, fun hnone ↦ ?_, fun b hb ↦ ?_⟩, ?_⟩
  · exact (h.handed.step fun heq ↦ absurd heq hspares.1).of_ok hs'
  · exact absurd (hbegun.symm.trans hnone) (Option.some_ne_none begun)
  · obtain rfl := Option.some.inj (hbegun.symm.trans hb)
    exact ⟨hsince.handed, hsince.listed, haccepted.trans hsince.accepted,
      herased.trans hsince.erased, hsince.ledger⟩
  · have hremovals : removals s' = removals d.session := by rw [removals, herased, removals]
    -- the removals stay as they are, so a close callback would not be matched
    have hsame : (∀ id, (removals s').count id = s'.fired.count id) ↔
        Quiet d.session ∧ called i = [] := by
      rw [hremovals, hfired]
      constructor
      · intro hquiet
        have hnone : called i = [] := by
          refine List.eq_nil_iff_forall_not_mem.mpr fun id hid ↦ ?_
          have hcount := hquiet id
          have hle := h.removals_le id
          have hpos := List.count_pos_iff.mpr hid
          rw [List.count_append] at hcount
          omega
        rw [hnone, List.append_nil] at hquiet
        exact ⟨hquiet, hnone⟩
      · rintro ⟨hquiet, hnone⟩
        rw [hnone, List.append_nil]
        exact hquiet
    have htimely : Timely d (.server i) ↔ called i = [] := by
      cases i with
      | closeCallback id =>
        refine iff_of_false ?_ (List.cons_ne_nil id [])
        rw [Timely]
        cases hphase : d.phase with
        | alive =>
          rw [hphase] at hbegun
          exact absurd hbegun.symm (Option.some_ne_none begun)
        | destroying | destroyed => exact not_false
      | accept | closes | callBegins | callSets | callEnds | pending =>
        exact iff_of_true trivial rfl
    rw [htimely]
    constructor
    · intro hfine
      obtain ⟨hquiet, hcovers⟩ := hfine begun hbegun
      obtain ⟨hquiet, hcalled⟩ := hsame.mp hquiet
      refine ⟨fun b hb ↦ ?_, hcalled⟩
      obtain rfl := Option.some.inj (hbegun.symm.trans hb)
      exact ⟨hquiet, hcovers⟩
    · rintro ⟨hfine, hcalled⟩ b hb
      obtain ⟨hquiet, hcovers⟩ := hfine b hb
      exact ⟨hsame.mpr ⟨hquiet, hcalled⟩, hcovers⟩

/-- The destructor begins. -/
theorem begins (h : Sound d) (hphase : d.phase = .alive) :
    Keeps d .begins { d with
      phase := .destroying d.session (d.session.server.connections.map Prod.snd) } := by
  have hnone : d.phase.begun = none := by rw [hphase]; rfl
  obtain ⟨hposted, hlisted⟩ := h.alive hnone
  have hhanded : Handed [] d.session := hposted ▸ h.handed
  refine ⟨⟨h.handed, nofun, fun b hb ↦ ?_⟩, ?_⟩
  · obtain rfl := Option.some.inj hb
    refine ⟨hhanded, hlisted, rfl, rfl, fun id ↦ ?_⟩
    rw [hposted]
    exact Nat.zero_add _
  · rw [Timely, ← quiet_iff h.handed]
    constructor
    · intro hfine
      exact ⟨fine_of_alive hnone, hfine _ rfl⟩
    · rintro ⟨-, hready⟩ b hb
      obtain rfl := Option.some.inj hb
      exact hready

theorem postDestroyed_recorded (s : ServerSession) (id : ℕ) :
    SameRecord s (postDestroyed s id) := by
  rw [Destruction.postDestroyed]
  split
  · exact SameRecord.connectDestroyed s 0 id
  · exact SameRecord.queueInLoop s _ _

/-- The destructor goes on to a connection. -/
theorem posts (h : Sound d) {left : List ℕ} (hphase : d.phase = .destroying begun left)
    (hid : id ∈ left) :
    Keeps d (.posts id)
      ⟨postDestroyed d.session id, .destroying begun (left.erase id), d.posted ++ [id]⟩ := by
  have hbegun : d.phase.begun = some begun := by rw [hphase]; rfl
  have hsame := postDestroyed_recorded d.session id
  have hsince := h.since begun hbegun
  refine ⟨⟨h.handed.postDestroyed id, nofun, fun b hb ↦ ?_⟩, ?_⟩
  · obtain rfl := Option.some.inj hb
    refine ⟨hsince.handed, hsince.listed, hsame.accepted.trans hsince.accepted,
      hsame.erased.trans hsince.erased, fun j ↦ ?_⟩
    -- what is posted is left no longer
    have hledger := hsince.ledger j
    have hpos := List.count_pos_iff.mpr hid
    rw [hphase] at hledger
    change (d.posted ++ [id]).count j + (left.erase id).count j = _
    change d.posted.count j + left.count j = _ at hledger
    rw [count_concat]
    by_cases hj : j = id
    · subst hj
      rw [if_pos rfl, List.count_erase_self]
      omega
    · rw [if_neg hj, List.count_erase_of_ne hj]
      exact hledger
  · rw [Timely, and_true]
    constructor
    · intro hfine b hb
      obtain rfl := Option.some.inj (hbegun.symm.trans hb)
      obtain ⟨hquiet, hcovers⟩ := hfine begun rfl
      refine ⟨fun j ↦ ?_, hcovers⟩
      rw [← hsame.removals, ← hsame.fired]
      exact hquiet j
    · intro hfine b hb
      obtain rfl := Option.some.inj hb
      obtain ⟨hquiet, hcovers⟩ := hfine begun hbegun
      refine ⟨fun j ↦ ?_, hcovers⟩
      rw [hsame.removals, hsame.fired]
      exact hquiet j

theorem ends (h : Sound d) (hphase : d.phase = .destroying begun []) :
    Keeps d .ends { d with phase := .destroyed begun } := by
  have hbegun : d.phase.begun = some begun := by rw [hphase]; rfl
  have hsince := h.since begun hbegun
  refine ⟨⟨h.handed, nofun, fun b hb ↦ ?_⟩, ?_⟩
  · obtain rfl := Option.some.inj hb
    refine ⟨hsince.handed, hsince.listed, hsince.accepted, hsince.erased, fun j ↦ ?_⟩
    have hledger := hsince.ledger j
    rw [hphase] at hledger
    exact hledger
  · rw [Timely, and_true, Fine, Fine, hphase]
    rfl

/-- The step lemma. -/
theorem step {j : DestructionStep} (h : Sound d) (hd' : Destruction.step d j = .ok d') :
    Keeps d j d' := by
  cases j with
  | server i =>
    rw [Destruction.step] at hd'
    split at hd'
    · rename_i hphase
      obtain ⟨s', hs', hd'⟩ := bind_eq_ok.mp hd'
      obtain rfl := Except.ok.inj hd'
      exact h.server hphase hs'
    · rename_i b left hphase
      obtain ⟨hbase, hd'⟩ := ite_eq_ok.mp hd'
      obtain ⟨s', hs', hd'⟩ := bind_eq_ok.mp hd'
      obtain rfl := Except.ok.inj hd'
      have hbegun : d.phase.begun = some b := by rw [hphase]; rfl
      exact h.others hbegun (spares_of_not_onBase h.handed hbase) hs'
    · rename_i b hphase
      obtain ⟨haccept, hd'⟩ := ite_eq_ok.mp hd'
      obtain ⟨s', hs', hd'⟩ := bind_eq_ok.mp hd'
      obtain ⟨huses, hd'⟩ := ite_eq_ok.mp hd'
      obtain rfl := Except.ok.inj hd'
      have hbegun : d.phase.begun = some b := by rw [hphase]; rfl
      exact h.others hbegun (spares_of_not_usesServer haccept huses) hs'
  | begins =>
    rw [Destruction.step] at hd'
    split at hd'
    · rename_i hphase
      obtain ⟨-, hd'⟩ := ite_eq_ok.mp hd'
      obtain rfl := Except.ok.inj hd'
      exact h.begins hphase
    · exact absurd hd' nofun
    · exact absurd hd' nofun
  | posts id =>
    rw [Destruction.step] at hd'
    split at hd'
    · rename_i begun left hphase
      obtain ⟨hid, hd'⟩ := ite_eq_ok.mp hd'
      obtain rfl := Except.ok.inj hd'
      exact h.posts hphase hid
    · exact absurd hd' nofun
    · exact absurd hd' nofun
  | ends =>
    rw [Destruction.step] at hd'
    split at hd'
    · rename_i hphase
      obtain rfl := Except.ok.inj hd'
      exact h.ends hphase
    · exact absurd hd' nofun
    · exact absurd hd' nofun
    · exact absurd hd' nofun

/-! ### What follows -/

theorem postings_eq (h : Handed posted s) (id : ℕ) :
    postings s id = (removals s).count id + posted.count id := by
  have hcount := h.destroy id (s.conn id).loop
  rw [if_pos rfl] at hcount
  exact hcount

/-- A destructor that has returned has posted `connectDestroyed` to what it found in the map. -/
theorem cleanSince (h : Sound d) (hphase : d.phase = .destroyed begun) :
    CleanSince begun d.session ↔ Fine d := by
  have hbegun : d.phase.begun = some begun := by rw [hphase]; rfl
  have hsince := h.since begun hbegun
  have hremovals : removals d.session = removals begun := by
    rw [removals, hsince.erased, removals]
  -- nothing is left to be posted
  have hposted (id : ℕ) :
      d.posted.count id = (begun.server.connections.map Prod.snd).count id := by
    have hledger := hsince.ledger id
    rw [hphase] at hledger
    exact hledger
  have hpost (id : ℕ) (hlt : id < begun.accepted) :
      (postings d.session id = if postings begun id = 0 then 1 else postings begun id) ↔
        (id ∉ removals begun → id ∈ begun.server.connections.map Prod.snd) := by
    rw [postings_eq h.handed, postings_eq hsince.handed, hremovals, hposted, List.count_nil,
      Nat.add_zero]
    have honce := List.nodup_iff_count_le_one.mp hsince.listed.nodup id
    -- what was removed is not in the map, and had its posting from the removal
    by_cases hremoved : id ∈ removals begun
    · have hpos := List.count_pos_iff.mpr hremoved
      have hnone : id ∉ begun.server.connections.map Prod.snd := by
        intro hmem
        obtain ⟨e, he, rfl⟩ := List.mem_map.mp hmem
        exact (hsince.listed.entry e he).2.1 hremoved
      rw [List.count_eq_zero.mpr hnone, if_neg (Nat.ne_of_gt hpos)]
      exact iff_of_true rfl fun hopen ↦ absurd hremoved hopen
    · rw [List.count_eq_zero.mpr hremoved, if_pos rfl, Nat.zero_add]
      refine ⟨fun hcount _ ↦ List.count_pos_iff.mp (by omega), fun hmem ↦ ?_⟩
      have hpos := List.count_pos_iff.mpr (hmem hremoved)
      omega
  have hquiet : Quiet d.session ↔ ∀ loop, ∀ f ∈ d.session.queues loop, ¬BindsServer f := by
    rw [quiet_iff h.handed]
    refine ⟨fun hbase loop f hf ↦ ?_, fun hall ↦ hall 0⟩
    by_cases hloop : loop = 0
    · exact hbase f (hloop ▸ hf)
    · exact h.handed.not_bindsServer hf hloop
  have hcovers : Covers begun ↔ ∀ id < d.session.accepted,
      postings d.session id = if postings begun id = 0 then 1 else postings begun id := by
    rw [hsince.accepted]
    exact forall₂_congr fun id hlt ↦ (hpost id hlt).symm
  rw [CleanSince, ← hquiet, ← hcovers]
  constructor
  · intro hclean b hb
    obtain rfl := Option.some.inj (hbegun.symm.trans hb)
    exact hclean
  · intro hfine
    exact hfine begun hbegun

end Sound

/-- **The destruction of a server.** -/
theorem destroyed_clean_iff {numThreads : ℕ} (steps : List DestructionStep)
    (hrun : run Destruction.step (.start name numThreads) steps = .ok d)
    (hphase : d.phase = .destroyed begun) :
    CleanSince begun d.session ↔
      Along Destruction.step Timely (.start name numThreads) steps := by
  have hsound : Sound d := run_inv (fun d j d' h hd' ↦ (h.step hd').1) (sound_start name numThreads)
    hrun
  have hfine : Fine d ↔ Fine (.start name numThreads) ∧
      Along Destruction.step Timely (.start name numThreads) steps :=
    run_iff_along (fun d j d' h hd' ↦ (h.step hd').1) (fun d j d' h hd' ↦ (h.step hd').2)
      (sound_start name numThreads) hrun
  rw [hsound.cleanSince hphase, hfine]
  exact and_iff_right nofun

/-- Of two connections the first is removed before the destructor begins, and runs its
`connectDestroyed` while it runs. The second is posted its own. -/
theorem destroyed_clean_of_two :
    ∃ d begun, run Destruction.step (.start ['s'] 1)
        [.server .accept, .server .accept, .server (.pending 1), .server (.closes 0),
          .server (.closeCallback 0), .server (.pending 0), .begins, .server (.pending 1),
          .server (.pending 1), .posts 1, .ends, .server (.pending 1)] = .ok d ∧
      d.phase = .destroyed begun ∧ d.session.destroyed = [(0, 1), (1, 1)] ∧
      (CleanSince begun d.session ↔ Along Destruction.step Timely (.start ['s'] 1)
        [.server .accept, .server .accept, .server (.pending 1), .server (.closes 0),
          .server (.closeCallback 0), .server (.pending 0), .begins, .server (.pending 1),
          .server (.pending 1), .posts 1, .ends, .server (.pending 1)]) :=
  ⟨_, _, rfl, rfl, rfl, destroyed_clean_iff [.server .accept, .server .accept, .server (.pending 1),
    .server (.closes 0), .server (.closeCallback 0), .server (.pending 0), .begins,
    .server (.pending 1), .server (.pending 1), .posts 1, .ends, .server (.pending 1)] rfl rfl⟩

/-- A connection closes on its loop, and the server is destroyed before the base loop goes on: the
removal is left in the queue, and what runs it follows the pointer to the server. -/
theorem not_destroyed_clean :
    (∃ d begun, run Destruction.step (.start ['s'] 1)
        [.server .accept, .server (.pending 1), .server (.closes 0), .server (.closeCallback 0),
          .begins, .posts 0, .ends] = .ok d ∧
      d.phase = .destroyed begun ∧ d.session.queues 0 = [.removeConnectionInLoop 0] ∧
      ¬CleanSince begun d.session) ∧
    run Destruction.step (.start ['s'] 1)
        [.server .accept, .server (.pending 1), .server (.closes 0), .server (.closeCallback 0),
          .begins, .posts 0, .ends, .server (.pending 0)] = .error .useAfterFree :=
  ⟨⟨_, _, rfl, rfl, rfl, fun hclean ↦ hclean.1 0 (.removeConnectionInLoop 0)
    (List.mem_singleton.mpr rfl) trivial⟩, rfl⟩

end TcpServer

end Twnl
