import Mathlib.Data.List.Range
import Twnl.Acceptor.Basic
import Twnl.Machine.Ledger

/-!
# Accepting when descriptors run out

The kernel refuses to accept a connection when the process has no descriptor left. The acceptor
keeps an idle one for that: it closes it, accepts the connection with what has become free, closes
the connection, and opens the idle one again. Each of these is a system call, and between them the
other threads may open and close descriptors and connections may come.

Every connection that has come waits in the queue, was handed to the callback, or was closed, and
the process never has more descriptors than it may (`descriptors_conserved`). As long as no other
thread opens a descriptor while the idle one is given up, there is an idle one after every event,
and an event takes a connection from the queue even when there is no descriptor left (`sheds`).
-/

namespace Twnl

namespace Acceptor

open Machine

/-- The descriptors of the process and the connections of a listening socket. -/
structure Table where
  /-- How many descriptors the process may have. -/
  limit : ℕ
  /-- How many it has, but for the socket and `idleFd_`. -/
  others : ℕ
  /-- `idleFd_` is a descriptor. -/
  idleFd : Bool
  newConnectionCallback : Bool
  arrived : ℕ
  backlog : List ℕ
  /-- The connections that the callback got, and those that were closed without it. -/
  handed : List ℕ
  closed : List ℕ
  deriving DecidableEq, Repr

namespace Table

/-- What may happen between two calls. -/
inductive Act
  /-- Another thread opens a descriptor, or closes one. -/
  | opens
  | closes
  | arrives
  deriving DecidableEq, Repr

/-- The answer to `accept4`: what the state of the kernel calls for, or an error of the connection,
which the kernel may have dropped from the queue. When there are no descriptors a second connection
error may be the answer to the second call. -/
inductive Answer
  | ready (again : Bool)
  | fails (e : AcceptErrno) (dropped : Bool)
  deriving DecidableEq, Repr

variable (s : Table)

/-- The descriptors of the process. -/
def used : ℕ := s.others + 1 + if s.idleFd then 1 else 0

/-- There is a descriptor left. -/
def Vacant : Prop := s.used < s.limit

instance : Decidable s.Vacant := inferInstanceAs (Decidable (_ < _))

def act : Act → Table
  | .opens => if s.Vacant then { s with others := s.others + 1 } else s
  | .closes => { s with others := s.others - 1 }
  | .arrives => { s with arrived := s.arrived + 1, backlog := s.backlog ++ [s.arrived] }

def acts (between : List Act) : Table := between.foldl act s

/-- A connection that had an error is dropped from the queue. -/
def lose : Except Fault Table :=
  match s.backlog with
  | conn :: backlog => .ok { s with backlog := backlog, closed := s.closed ++ [conn] }
  | [] => .error .impossible

/-- `::close(idleFd_)`. Without a descriptor it fails, and nothing looks at that. -/
def closeIdle : Table := { s with idleFd := false }

/-- `idleFd_ = ::accept(...)`. The connection is as good as closed, since that is next. -/
def acceptIdle (again : Bool) : Table :=
  match s.backlog with
  | conn :: backlog =>
    if s.Vacant ∧ again = true then
      { s with idleFd := true, backlog := backlog, closed := s.closed ++ [conn] }
    else { s with idleFd := false }
  | [] => { s with idleFd := false }

/-- `idleFd_ = ::open("/dev/null", ...)`. -/
def openIdle : Table := { s with idleFd := decide s.Vacant }

/-- What is done when there are no descriptors, with what happens in between. -/
def shed (again : Bool) (between : Fin 3 → List Act) : Table :=
  ((((s.closeIdle.acts (between 0)).acceptIdle again).acts (between 1)).closeIdle.acts
    (between 2)).openIdle

/-- `Acceptor::handleRead`, with `sockets::accept`. -/
def handleRead (answer : Answer) (between : Fin 3 → List Act) : Except Fault Table :=
  match answer with
  | .ready again =>
    -- the kernel looks for a descriptor before it looks at the queue
    if s.Vacant then
      match s.backlog with
      | conn :: backlog =>
        if s.newConnectionCallback then
          .ok { s with
            others := s.others + 1, backlog := backlog, handed := s.handed ++ [conn] }
        else .ok { s with backlog := backlog, closed := s.closed ++ [conn] }
      | [] => .ok s
    else .ok (s.shed again between)
  | .fails .EAGAIN dropped | .fails .ECONNABORTED dropped | .fails .EINTR dropped
  | .fails .EPROTO dropped | .fails .EPERM dropped =>
    if dropped then s.lose else .ok s
  | .fails .EMFILE _ => .error .impossible
  | .fails (.other _) _ => .error .abort

/-- The constructor: without a descriptor for the socket it aborts, and without one for `idleFd_` it
does not. -/
def start (limit others : ℕ) (callback : Bool) : Except Fault Table :=
  if others < limit then
    .ok (openIdle ⟨limit, others, false, callback, 0, [], [], []⟩)
  else .error .abort

end Table

open Table

inductive TableStep
  | act (a : Act)
  | handleRead (answer : Answer) (between : Fin 3 → List Act)

def tableStep (s : Table) : TableStep → Except Fault Table
  | .act a => .ok (s.act a)
  | .handleRead answer between => s.handleRead answer between

/-! ## What is conserved -/

/-- Every connection is in one place, and the process has no more descriptors than it may. -/
structure Conserved (s : Table) : Prop where
  used_le : s.used ≤ s.limit
  ledger : Ledger (s.backlog ++ s.handed) s.closed (· < s.arrived)

variable {s t : Table} {a : Act} {i : TableStep} {conn : ℕ} {backlog : List ℕ}

namespace Conserved

theorem act (h : Conserved s) (a : Act) : Conserved (s.act a) := by
  cases a with
  | opens =>
    rw [Table.act]
    split
    · rename_i hvacant
      refine ⟨?_, h.ledger⟩
      rw [Vacant, used] at hvacant
      change s.others + 1 + 1 + (if s.idleFd = true then 1 else 0) ≤ s.limit
      omega
    · exact h
  | closes =>
    refine ⟨?_, h.ledger⟩
    have hle := h.used_le
    rw [used] at hle
    change s.others - 1 + 1 + (if s.idleFd = true then 1 else 0) ≤ s.limit
    have hpos := Nat.sub_le s.others 1
    omega
  | arrives =>
    refine ⟨h.used_le, h.ledger.take (Nat.lt_irrefl s.arrived) ?_ fun j ↦ ?_⟩
    · change ((s.backlog ++ [s.arrived]) ++ s.handed).Perm (s.arrived :: (s.backlog ++ s.handed))
      rw [List.append_assoc]
      exact List.perm_middle
    · exact (Nat.lt_succ_iff_lt_or_eq).trans or_comm

theorem acts (h : Conserved s) (between : List Act) : Conserved (s.acts between) := by
  induction between generalizing s with
  | nil => exact h
  | cons a between ih => exact ih (h.act a)

theorem closeIdle (h : Conserved s) : Conserved s.closeIdle := by
  refine ⟨?_, h.ledger⟩
  have hle := h.used_le
  rw [used] at hle
  change s.others + 1 + 0 ≤ s.limit
  omega

theorem openIdle (h : Conserved s) : Conserved s.openIdle := by
  refine ⟨?_, h.ledger⟩
  have hle := h.used_le
  rw [used] at hle
  change s.others + 1 + (if decide s.Vacant = true then 1 else 0) ≤ s.limit
  split
  · rename_i hvacant
    have hlt : s.used < s.limit := of_decide_eq_true hvacant
    rw [used] at hlt
    omega
  · omega

/-- The connection at the head of the queue is closed. -/
theorem drop (h : Conserved s) (hbacklog : s.backlog = conn :: backlog) {idleFd : Bool}
    (hused : s.others + 1 + (if idleFd then 1 else 0) ≤ s.limit) :
    Conserved { s with idleFd := idleFd, backlog := backlog, closed := s.closed ++ [conn] } := by
  refine ⟨hused, h.ledger.release ?_⟩
  rw [hbacklog]
  rfl

theorem acceptIdle (h : Conserved s) (again : Bool) : Conserved (s.acceptIdle again) := by
  rw [Table.acceptIdle]
  split
  · split
    · rename_i hready
      have hvacant := hready.1
      rw [Vacant, used] at hvacant
      refine h.drop ‹_› ?_
      rw [if_pos rfl]
      omega
    · exact h.closeIdle
  · exact h.closeIdle

theorem shed (h : Conserved s) (again : Bool) (between : Fin 3 → List Act) :
    Conserved (s.shed again between) :=
  (((((h.closeIdle.acts _).acceptIdle again).acts _).closeIdle).acts _).openIdle

/-- The connection at the head of the queue goes to the callback. -/
theorem hand (h : Conserved s) (hvacant : s.Vacant) (hbacklog : s.backlog = conn :: backlog) :
    Conserved { s with
      others := s.others + 1, backlog := backlog, handed := s.handed ++ [conn] } := by
  refine ⟨?_, h.ledger.move ?_⟩
  · rw [Vacant, used] at hvacant
    change s.others + 1 + 1 + (if s.idleFd = true then 1 else 0) ≤ s.limit
    omega
  · rw [hbacklog, List.cons_append]
    exact (List.append_assoc _ _ _ ▸ List.perm_append_singleton conn (backlog ++ s.handed))

theorem lose (h : Conserved s) (ht : s.lose = .ok t) : Conserved t := by
  rw [Table.lose] at ht
  split at ht
  · obtain rfl := Except.ok.inj ht
    exact h.drop ‹_› h.used_le
  · exact absurd ht error_ne_ok

theorem handleRead {answer : Answer} {between : Fin 3 → List Act} (h : Conserved s)
    (ht : s.handleRead answer between = .ok t) : Conserved t := by
  cases answer with
  | ready again =>
    rw [Table.handleRead] at ht
    split at ht
    · rename_i hvacant
      split at ht
      · split at ht
        · obtain rfl := Except.ok.inj ht
          exact h.hand hvacant ‹_›
        · obtain rfl := Except.ok.inj ht
          exact h.drop ‹_› h.used_le
      · exact Except.ok.inj ht ▸ h
    · exact Except.ok.inj ht ▸ h.shed again between
  | fails e dropped =>
    cases e with
    | EAGAIN | ECONNABORTED | EINTR | EPROTO | EPERM =>
      rw [Table.handleRead] at ht
      split at ht
      · exact h.lose ht
      · exact Except.ok.inj ht ▸ h
    | EMFILE | other code => exact absurd ht error_ne_ok

/-- The step lemma. -/
theorem step (h : Conserved s) (ht : tableStep s i = .ok t) : Conserved t := by
  cases i with
  | act a => exact Except.ok.inj ht ▸ h.act a
  | handleRead answer between => exact h.handleRead ht

end Conserved

theorem conserved_start {limit others : ℕ} {callback : Bool}
    (h : Table.start limit others callback = .ok s) : Conserved s := by
  rw [Table.start] at h
  split at h
  · rename_i hlt
    obtain rfl := Except.ok.inj h
    refine Conserved.openIdle ⟨?_, List.nodup_nil, fun j ↦ ?_⟩
    · change others + 1 + 0 ≤ limit
      omega
    · exact iff_of_false (Nat.not_lt_zero j) List.not_mem_nil
  · exact absurd h error_ne_ok

/-- **No connection is lost.** In every run the process has no more descriptors than it may, and
each connection that came is in the queue, was handed over or was closed, one of these and once. -/
theorem descriptors_conserved {limit others : ℕ} {callback : Bool}
    (hstart : Table.start limit others callback = .ok s) {steps : List TableStep}
    (hrun : run tableStep s steps = .ok t) :
    t.used ≤ t.limit ∧ ∀ conn < t.arrived,
      (t.backlog ++ t.handed).count conn + t.closed.count conn = 1 := by
  have ht : Conserved t := run_inv (fun _ _ _ h ↦ h.step) (conserved_start hstart) hrun
  exact ⟨ht.used_le, fun conn hconn ↦ ht.ledger.count_eq_one hconn⟩

/-- One connection is handed over and one is closed for want of a descriptor. -/
theorem descriptors_conserved_of_full :
    ∃ s t, Table.start 4 1 true = .ok s ∧ run tableStep s [.act .arrives, .act .arrives,
        .handleRead (.ready true) fun _ ↦ [],
        .handleRead (.ready true) fun _ ↦ [.arrives]] = .ok t ∧
      (t.backlog ++ t.handed).count 1 + t.closed.count 1 = 1 := by
  obtain ⟨s, hs⟩ : ∃ s, Table.start 4 1 true = .ok s := ⟨_, rfl⟩
  have hrun : Outcome (Table.start 4 1 true >>= fun s ↦ run tableStep s [.act .arrives,
      .act .arrives, .handleRead (.ready true) fun _ ↦ [],
      .handleRead (.ready true) fun _ ↦ [.arrives]]) (fun t ↦ 1 < t.arrived) fun _ ↦ False := by
    decide
  rw [hs, bind_ok] at hrun
  obtain ⟨t, ht, harrived⟩ := hrun.exists_ok
  exact ⟨s, t, hs, ht, (descriptors_conserved hs ht).2 1 harrived⟩

/-! ## With a descriptor in reserve -/

/-- No other thread opens a descriptor while the idle one is given up, and the second call accepts
when it can. -/
def Undisturbed : TableStep → Prop
  | .act _ => True
  | .handleRead (.ready again) between => again = true ∧ ∀ j, .opens ∉ between j
  | .handleRead (.fails _ _) _ => True

instance : DecidablePred Undisturbed
  | .act _ => inferInstanceAs (Decidable True)
  | .handleRead (.ready _) _ => inferInstanceAs (Decidable (_ ∧ _))
  | .handleRead (.fails _ _) _ => inferInstanceAs (Decidable True)

/-- What happens between two calls when no other thread opens a descriptor. -/
structure Calm (s t : Table) : Prop where
  limit : t.limit = s.limit
  idleFd : t.idleFd = s.idleFd
  others : t.others ≤ s.others
  backlog : s.backlog <+: t.backlog
  closed : t.closed = s.closed

theorem calm_act (s : Table) (ha : a ≠ .opens) : Calm s (s.act a) := by
  cases a with
  | opens => exact absurd rfl ha
  | closes => exact ⟨rfl, rfl, Nat.sub_le _ _, List.prefix_rfl, rfl⟩
  | arrives => exact ⟨rfl, rfl, Nat.le_refl _, List.prefix_append _ _, rfl⟩

theorem calm_acts {between : List Act} (s : Table) (h : .opens ∉ between) :
    Calm s (s.acts between) := by
  induction between generalizing s with
  | nil => exact ⟨rfl, rfl, Nat.le_refl _, List.prefix_rfl, rfl⟩
  | cons a between ih =>
    have hfirst := calm_act s fun ha ↦ h (ha ▸ List.mem_cons_self)
    have hrest := ih (s.act a) fun hmem ↦ h (List.mem_cons_of_mem a hmem)
    exact ⟨hrest.limit.trans hfirst.limit, hrest.idleFd.trans hfirst.idleFd,
      hrest.others.trans hfirst.others, hfirst.backlog.trans hrest.backlog,
      hrest.closed.trans hfirst.closed⟩

/-- The descriptor that was given up is there to accept with and to open again. -/
theorem shed_of_undisturbed {between : Fin 3 → List Act} (hused : s.used ≤ s.limit)
    (hidle : s.idleFd = true) (hcalm : ∀ j, .opens ∉ between j) :
    (s.shed true between).idleFd = true ∧
      ∀ conn, s.backlog.head? = some conn → conn ∈ (s.shed true between).closed := by
  rw [used, hidle, if_pos rfl] at hused
  set s₁ := s.closeIdle.acts (between 0) with hs₁
  set s₂ := s₁.acceptIdle true with hs₂
  set s₃ := (s₂.acts (between 1)).closeIdle.acts (between 2) with hs₃
  have hfirst : Calm s.closeIdle s₁ := calm_acts _ (hcalm 0)
  have hsecond : Calm s₂ (s₂.acts (between 1)) := calm_acts _ (hcalm 1)
  have hthird : Calm (s₂.acts (between 1)).closeIdle s₃ := calm_acts _ (hcalm 2)
  have hlimit₁ : s₁.limit = s.limit := hfirst.limit
  have hothers₁ : s₁.others ≤ s.others := hfirst.others
  have hvacant₁ : s₁.Vacant := by
    have hidle₁ : s₁.idleFd = false := hfirst.idleFd
    rw [Vacant, used, hidle₁]
    change s₁.others + 1 + 0 < s₁.limit
    omega
  have hkept : s₂.limit = s₁.limit ∧ s₂.others = s₁.others := by
    rw [hs₂, acceptIdle]
    split
    · split <;> exact ⟨rfl, rfl⟩
    · exact ⟨rfl, rfl⟩
  have hlimit₃ : s₃.limit = s₂.limit := hthird.limit.trans hsecond.limit
  have hothers₃ : s₃.others ≤ s₂.others := hthird.others.trans hsecond.others
  have hvacant₃ : s₃.Vacant := by
    have hidle₃ : s₃.idleFd = false := hthird.idleFd
    rw [Vacant, used, hidle₃]
    change s₃.others + 1 + 0 < s₃.limit
    omega
  refine ⟨decide_eq_true hvacant₃, fun conn hconn ↦ ?_⟩
  -- the connection is still at the head of the queue when it is accepted
  obtain ⟨backlog, hbacklog⟩ : ∃ backlog, s₁.backlog = conn :: backlog := by
    obtain ⟨rest, hrest⟩ := List.head?_eq_some_iff.mp hconn
    obtain ⟨more, hmore⟩ := hfirst.backlog
    refine ⟨rest ++ more, ?_⟩
    rw [← hmore]
    change s.backlog ++ more = _
    rw [hrest, List.cons_append]
  have hclosed₂ : conn ∈ s₂.closed := by
    rw [hs₂, acceptIdle, hbacklog]
    dsimp only
    rw [if_pos ⟨hvacant₁, rfl⟩]
    exact List.mem_append_right _ (List.mem_singleton_self conn)
  have hclosed₃ : s₃.closed = s₂.closed := hthird.closed.trans hsecond.closed
  change conn ∈ s₃.closed
  rw [hclosed₃]
  exact hclosed₂

/-- The connection at the head of the queue is handed over, or closed if it cannot be. -/
def Sheds (s : Table) (i : TableStep) : Prop :=
  ∀ again between conn, i = .handleRead (.ready again) between → s.backlog.head? = some conn →
    Outcome (tableStep s i) (fun t ↦
      if s.Vacant ∧ s.newConnectionCallback = true then conn ∈ t.handed else conn ∈ t.closed)
      fun _ ↦ False

theorem reserve_step (hused : s.used ≤ s.limit) (hidle : s.idleFd = true) (hi : Undisturbed i)
    (ht : tableStep s i = .ok t) : t.idleFd = true := by
  cases i with
  | act a =>
    rw [← Except.ok.inj ht]
    cases a with
    | opens =>
      rw [act]
      split <;> exact hidle
    | closes | arrives => exact hidle
  | handleRead answer between =>
    cases answer with
    | ready again =>
      obtain ⟨rfl, hcalm⟩ := hi
      rw [tableStep, handleRead] at ht
      split at ht
      · split at ht
        · split at ht <;> exact Except.ok.inj ht ▸ hidle
        · exact Except.ok.inj ht ▸ hidle
      · rw [← Except.ok.inj ht]
        exact (shed_of_undisturbed hused hidle hcalm).1
    | fails e dropped =>
      cases e with
      | EAGAIN | ECONNABORTED | EINTR | EPROTO | EPERM =>
        rw [tableStep, handleRead] at ht
        split at ht
        · rw [lose] at ht
          split at ht
          · exact Except.ok.inj ht ▸ hidle
          · exact absurd ht error_ne_ok
        · exact Except.ok.inj ht ▸ hidle
      | EMFILE | other code => exact absurd ht error_ne_ok

theorem sheds_step (hused : s.used ≤ s.limit) (hidle : s.idleFd = true) (hi : Undisturbed i) :
    Sheds s i := by
  rintro again between conn rfl hconn
  obtain ⟨rfl, hcalm⟩ := hi
  obtain ⟨rest, hrest⟩ := List.head?_eq_some_iff.mp hconn
  rw [tableStep, handleRead]
  by_cases hvacant : s.Vacant
  · rw [if_pos hvacant, hrest]
    dsimp only
    by_cases hcallback : s.newConnectionCallback = true
    · rw [if_pos hcallback]
      change if _ then _ else _
      rw [if_pos ⟨hvacant, hcallback⟩]
      exact List.mem_append_right _ (List.mem_singleton_self conn)
    · rw [if_neg hcallback]
      change if _ then _ else _
      rw [if_neg fun h ↦ hcallback h.2]
      exact List.mem_append_right _ (List.mem_singleton_self conn)
  · rw [if_neg hvacant]
    change if _ then _ else _
    rw [if_neg fun h ↦ hvacant h.1]
    exact (shed_of_undisturbed hused hidle hcalm).2 conn hconn

/-- **The reserve is kept.** Along every undisturbed run of an acceptor that has an idle descriptor,
each event takes a connection from the queue, whether or not there is a descriptor for it, and there
is an idle descriptor again. -/
theorem sheds {limit others : ℕ} {callback : Bool} (hroom : others + 1 < limit)
    (hstart : Table.start limit others callback = .ok s) {steps : List TableStep}
    (hcalm : ∀ i ∈ steps, Undisturbed i) :
    Along tableStep Sheds s steps ∧ ∀ t, run tableStep s steps = .ok t → t.idleFd = true := by
  have hidle : s.idleFd = true := by
    rw [Table.start, if_pos (by omega)] at hstart
    rw [← Except.ok.inj hstart]
    exact decide_eq_true hroom
  have halong : Along tableStep (fun _ i ↦ Undisturbed i) s steps := along_of_forall hcalm
  have hstep : ∀ u i v, Conserved u ∧ u.idleFd = true → Undisturbed i → tableStep u i = .ok v →
      Conserved v ∧ v.idleFd = true :=
    fun u i v hu hi hv ↦ ⟨hu.1.step hv, reserve_step hu.1.used_le hu.2 hi hv⟩
  have hfirst : Conserved s ∧ s.idleFd = true := ⟨conserved_start hstart, hidle⟩
  refine ⟨Along.guarantee hstep (fun u i hu hi ↦ sheds_step hu.1.used_le hu.2 hi) halong hfirst,
    fun t hrun ↦ ?_⟩
  exact (Along.run_inv hstep halong hfirst hrun).2

/-- There is no descriptor left when the connection comes, and another thread closes one. -/
theorem sheds_of_full :
    ∃ s, Table.start 3 1 true = .ok s ∧ Along tableStep Sheds s
      [.act .arrives,
        .handleRead (.ready true) fun j ↦ if j = 1 then [.closes] else [.arrives]] := by
  obtain ⟨s, hs⟩ : ∃ s, Table.start 3 1 true = .ok s := ⟨_, rfl⟩
  exact ⟨s, hs, (sheds (by decide) hs (by decide)).1⟩

/-- A descriptor that another thread opens meanwhile comes out of the reserve, for good. -/
example : Outcome (Table.start 3 1 true >>= fun s ↦ run tableStep s [.act .arrives, .act .arrives,
      .handleRead (.ready true) fun j ↦ if j = 0 then [.opens] else [],
      .handleRead (.ready true) fun _ ↦ []])
    (fun t ↦ t.backlog = [0, 1] ∧ t.idleFd = false) fun _ ↦ False := by
  decide

end Acceptor

end Twnl
