import Twnl.EventLoopThreadPool.Basic
import Twnl.Fault
import Twnl.Machine.Rotation
import Twnl.Machine.Run

/-!
# The loops of a pool

A pool that has been started keeps its loops, and `getNextLoop` hands them out in rotation: whatever
else is called, from whatever thread, the turns go round the loops that `start` made. So no loop is
handed out more than once more often than another (`rotates`).

The threads are numbered from 0, and their names are distinct and never cut (`threadNames`).
-/

namespace Twnl

namespace PoolSession

open EventLoopThreadPool Machine

variable {L : Type} {base : L} {name : List Char} {s t : PoolSession L} {i : Step L}

/-- Where `next_` stands after that many turns. -/
def placeAfter (n k : ℕ) : ℕ := if n = 0 then 0 else k % n

/-- The name of the thread with that index, whole. -/
def nameOf (name : List Char) (i : ℕ) : List Char := cStr name ++ decimalDigits i

/-- The loops and their threads came one by one, and those handed out are a rotation. -/
structure Turns (base : L) (name : List Char) (s : PoolSession L) : Prop where
  baseLoop : s.pool.baseLoop = base
  name_eq : s.pool.name = name
  stopped : s.pool.started = false → s.starting = none ∧ s.pool.loops = [] ∧ s.given = [] ∧
    s.initialized = []
  starting : ∀ i callback, s.starting = some (i, callback) →
    i = s.pool.loops.length ∧ s.given = []
  small : s.pool.loops.length < 2 ^ 31
  bound : s.pool.numThreads < 2 ^ 31
  next : s.pool.next = placeAfter s.pool.loops.length s.given.length
  given : s.given = rotation s.pool.loops base s.given.length
  threads : s.pool.threads = (List.range s.pool.loops.length).map (nameOf name)

theorem turns_new (base : L) (name : List Char) : Turns base name (.new base name) where
  baseLoop := rfl
  name_eq := rfl
  stopped _ := ⟨rfl, rfl, rfl, rfl⟩
  starting i callback h := absurd h (Option.some_ne_none _).symm
  small := Nat.two_pow_pos 31
  bound := show (0 : ℤ) < 2 ^ 31 by decide
  next := rfl
  given := rfl
  threads := rfl

/-! ## Numbers -/

theorem increment_natCast {n : ℕ} (h : n + 1 < 2 ^ 31) : increment n = (n + 1 : ℕ) :=
  Int.bmod_eq_of_le (by omega) (by omega)

theorem castSize_natCast {n : ℕ} (h : n < 2 ^ 31) : castSize n = n := by
  rw [castSize]
  omega

/-- The buffer holds the name and any `int`. -/
theorem threadName_eq {p : EventLoopThreadPool L} {n : ℕ} (h : n < 2 ^ 31) :
    p.threadName n = nameOf p.name n := by
  have hlen := length_decimalDigits h
  have hname : (cStr p.name).length ≤ p.name.length := (List.takeWhile_prefix _).length_le
  rw [threadName, decimal_natCast, snprintf, List.take_of_length_le, nameOf]
  rw [List.length_append]
  omega

theorem nameOf_inj {m n : ℕ} (h : nameOf name m = nameOf name n) : m = n :=
  decimalDigits_inj (List.append_cancel_left h)

/-- The place after the one that was handed out. -/
theorem placeAfter_succ {n k : ℕ} (hn : 0 < n) :
    placeAfter n (k + 1) = turn n (placeAfter n k) := by
  rw [placeAfter, placeAfter, if_neg hn.ne', if_neg hn.ne', turn_mod hn]

/-! ## The calls -/

theorem Turns.getNextLoop (h : Turns base name s) (hstarted : s.pool.started = true) :
    s.pool.getNextLoop true = .ok (served s.pool.loops base s.given.length,
      { s.pool with next := placeAfter s.pool.loops.length (s.given.length + 1) }) := by
  have hassert : s.pool.assertStarted = .ok () := if_pos hstarted
  change (s.pool.assertStarted >>= fun _ ↦ _) = _
  rw [hassert]
  change (if s.pool.loops = [] then _ else _) = _
  by_cases hnil : s.pool.loops = []
  · have hnext : s.pool.next = 0 := h.next.trans (by rw [hnil]; rfl)
    rw [if_pos hnil, hnil, served_nil, h.baseLoop]
    have hpool : s.pool = { s.pool with next := 0 } := by rw [← hnext]
    exact congrArg (fun p ↦ Except.ok (base, p)) hpool
  · have hpos : 0 < s.pool.loops.length := List.length_pos_iff.mpr hnil
    have hplace : placeAfter s.pool.loops.length s.given.length =
        s.given.length % s.pool.loops.length := if_neg hpos.ne'
    have hlt := Nat.mod_lt s.given.length hpos
    have hsmall := h.small
    have hnext : s.pool.next = (s.given.length % s.pool.loops.length : ℕ) := by
      rw [h.next, hplace]
    have hloop : s.pool.loopAt (castSize s.pool.next) =
        .ok (served s.pool.loops base s.given.length) := by
      rw [hnext, castSize_natCast (hlt.trans hsmall), loopAt, getElem?_served hnil]
    rw [if_neg hnil, hloop]
    have hincrement : increment s.pool.next = (s.given.length % s.pool.loops.length + 1 : ℕ) := by
      rw [hnext, increment_natCast (by omega)]
    rw [bind_ok]
    dsimp only
    rw [hincrement, castSize_natCast (by omega), placeAfter_succ hpos, hplace, turn, Nat.cast_ite]
    rfl

/-- A subscript is in range whatever the hash. -/
theorem Turns.getLoopForHash (h : Turns base name s) (hashCode : ℕ) :
    s.pool.getLoopForHash true hashCode = .ok (served s.pool.loops base hashCode) := by
  change (if s.pool.loops = [] then _ else _) = _
  by_cases hnil : s.pool.loops = []
  · rw [if_pos hnil, hnil, served_nil, h.baseLoop]
  · rw [if_neg hnil, loopAt, getElem?_served hnil]

/-- All loops, or the base loop if there is no other. -/
def allLoops (base : L) (loops : List L) : List L := if loops = [] then [base] else loops

theorem Turns.getAllLoops (h : Turns base name s) (hstarted : s.pool.started = true) :
    s.pool.getAllLoops true = .ok (allLoops base s.pool.loops) := by
  have hassert : s.pool.assertStarted = .ok () := if_pos hstarted
  change (s.pool.assertStarted >>= fun _ ↦ _) = _
  rw [hassert, bind_ok, allLoops, h.baseLoop]
  split <;> rfl

/-! ## The step lemma -/

theorem begin_eq_ok {inLoop callback : Bool} (ht : s.begin inLoop callback = .ok t) :
    s.pool.started = false ∧
      t = { s with pool := { s.pool with started := true }, starting := some (0, callback) } := by
  obtain ⟨_, hstopped, ht⟩ := bind_eq_ok.mp ht
  obtain ⟨_, -, ht⟩ := bind_eq_ok.mp ht
  refine ⟨?_, (Except.ok.inj ht).symm⟩
  rw [assertStopped] at hstopped
  split at hstopped
  · exact absurd hstopped error_ne_ok
  · rename_i hno
    exact Bool.eq_false_iff.mpr hno

theorem Turns.begin {inLoop callback : Bool} (h : Turns base name s)
    (ht : s.begin inLoop callback = .ok t) : Turns base name t := by
  obtain ⟨hno, rfl⟩ := begin_eq_ok ht
  obtain ⟨-, hloops, hgiven, -⟩ := h.stopped hno
  refine ⟨h.baseLoop, h.name_eq, fun hc ↦ Bool.noConfusion hc, fun i cb heq ↦ ?_, h.small, h.bound,
    h.next, h.given, h.threads⟩
  obtain ⟨rfl, rfl⟩ := Prod.mk.inj (Option.some.inj heq)
  exact ⟨by rw [hloops]; rfl, hgiven⟩

/-- The index of the loop in `start` is the number of the threads so far, and stays an `int`. -/
theorem Turns.spawn {loop : L} (h : Turns base name s) (ht : s.spawn loop = .ok t) :
    Turns base name t := by
  rw [PoolSession.spawn] at ht
  split at ht
  · rename_i i callback hstarting
    obtain ⟨rfl, hgiven⟩ := h.starting i callback hstarting
    split at ht
    · rename_i hlt
      obtain rfl := Except.ok.inj ht
      have hbound := h.bound
      have hlen : (s.pool.loops ++ [loop]).length = s.pool.loops.length + 1 := List.length_append
      have hnone : s.given.length = 0 := by rw [hgiven]; rfl
      have hplace : placeAfter (s.pool.loops.length + 1) 0 = 0 := Nat.zero_mod _
      have hzero : placeAfter s.pool.loops.length 0 = 0 := by
        rw [placeAfter]
        split
        · rfl
        · exact Nat.zero_mod _
      refine ⟨h.baseLoop, h.name_eq, fun hstopped ↦ ?_, fun i cb heq ↦ ?_, ?_, h.bound, ?_, ?_, ?_⟩
      · exact absurd hstarting (by rw [(h.stopped hstopped).1]; exact (Option.some_ne_none _).symm)
      · obtain ⟨rfl, rfl⟩ := Prod.mk.inj (Option.some.inj heq)
        refine ⟨?_, hgiven⟩
        rw [increment_natCast (by omega)]
        exact congrArg Nat.cast hlen.symm
      · rw [hlen]
        omega
      · change s.pool.next = (placeAfter (s.pool.loops ++ [loop]).length s.given.length : ℕ)
        rw [hlen, h.next, hnone, hplace, hzero]
      · change s.given = rotation (s.pool.loops ++ [loop]) base s.given.length
        rw [hnone, hgiven, rotation_zero]
      · change s.pool.threads ++ [s.pool.threadName s.pool.loops.length] = _
        rw [hlen, List.range_succ, List.map_append, ← h.threads, threadName_eq h.small, h.name_eq]
        rfl
    · exact absurd ht error_ne_ok
  · exact absurd ht error_ne_ok

theorem Turns.finish (h : Turns base name s) (ht : s.finish = .ok t) : Turns base name t := by
  rw [PoolSession.finish] at ht
  split at ht
  · rename_i i callback hstarting
    split at ht
    · exact absurd ht error_ne_ok
    · obtain rfl := Except.ok.inj ht
      refine ⟨h.baseLoop, h.name_eq, fun hc ↦ ?_, fun i cb heq ↦ ?_, h.small, h.bound, h.next,
        h.given, h.threads⟩
      · exact absurd (hstarting.symm.trans (h.stopped hc).1) (Option.some_ne_none _)
      · exact absurd heq (Option.some_ne_none _).symm
  · exact absurd ht error_ne_ok

/-- What a turn does, and to what. -/
theorem getNextLoop_eq_ok {inLoop : Bool} (h : Turns base name s)
    (ht : s.step (.getNextLoop inLoop) = .ok t) :
    inLoop = true ∧ s.starting = none ∧ s.pool.started = true ∧
      t = { s with
        pool := { s.pool with
          next := placeAfter s.pool.loops.length (s.given.length + 1) }
        given := s.given ++ [served s.pool.loops base s.given.length] } := by
  rw [PoolSession.step] at ht
  split at ht
  · rename_i hcomes
    obtain ⟨⟨loop, pool⟩, hnext, ht⟩ := bind_eq_ok.mp ht
    have hassert := bind_eq_ok.mp hnext
    obtain ⟨_, hinLoop, hrest⟩ := hassert
    obtain rfl : inLoop = true := by
      cases inLoop with
      | true => rfl
      | false => exact absurd hinLoop error_ne_ok
    obtain ⟨_, hstarted, -⟩ := bind_eq_ok.mp hrest
    have hyes : s.pool.started = true := by
      rw [assertStarted] at hstarted
      split at hstarted
      · assumption
      · exact absurd hstarted error_ne_ok
    obtain ⟨rfl, rfl⟩ := Prod.mk.inj (Except.ok.inj ((h.getNextLoop hyes).symm.trans hnext))
    exact ⟨rfl, hcomes rfl, hyes, (Except.ok.inj ht).symm⟩
  · exact absurd ht error_ne_ok

/-- The queries change nothing. -/
theorem query_eq_ok {α : Type} {inLoop : Bool} {x : Except PoolFault α}
    (ht : (if s.Comes inLoop then x >>= fun _ ↦ .ok s else .error .impossible) = .ok t) :
    t = s := by
  split at ht
  · obtain ⟨_, -, ht⟩ := bind_eq_ok.mp ht
    exact (Except.ok.inj ht).symm
  · exact absurd ht error_ne_ok

theorem Turns.step (h : Turns base name s) (ht : s.step i = .ok t) : Turns base name t := by
  cases i with
  | setThreadNum numThreads =>
    obtain rfl := Except.ok.inj ht
    exact ⟨h.baseLoop, h.name_eq, h.stopped, h.starting, h.small, numThreads.toInt_lt, h.next,
      h.given, h.threads⟩
  | start inLoop callback =>
    rw [PoolSession.step] at ht
    split at ht
    · exact h.begin ht
    · exact absurd ht error_ne_ok
  | spawns loop => exact h.spawn ht
  | returns => exact h.finish ht
  | getNextLoop inLoop =>
    obtain ⟨-, hstarting, hstarted, rfl⟩ := getNextLoop_eq_ok h ht
    have hlen : (s.given ++ [served s.pool.loops base s.given.length]).length =
        s.given.length + 1 := List.length_append
    refine ⟨h.baseLoop, h.name_eq, fun hc ↦ ?_, fun i cb heq ↦ ?_, h.small, h.bound, ?_, ?_,
      h.threads⟩
    · exact absurd (hc.symm.trans hstarted) Bool.false_ne_true
    · exact absurd (heq.symm.trans hstarting) (Option.some_ne_none _)
    · change _ = ((placeAfter s.pool.loops.length (s.given ++ [_]).length : ℕ) : ℤ)
      rw [hlen]
    · change s.given ++ [_] = rotation s.pool.loops base (s.given ++ [_]).length
      rw [hlen, rotation_succ, ← h.given]
  | getLoopForHash inLoop hashCode =>
    obtain rfl := query_eq_ok ht
    exact h
  | getAllLoops inLoop =>
    obtain rfl := query_eq_ok ht
    exact h

theorem turns_run {is : List (Step L)} (h : run step (.new base name) is = .ok s) :
    Turns base name s :=
  run_inv (fun _ _ _ hs ht ↦ Turns.step hs ht) (turns_new base name) h

/-! ## The loops -/

/-- A pool that was started and whose `start` has returned keeps its loops. -/
theorem Turns.loops_eq (h : Turns base name s) (hstarted : s.pool.started = true)
    (hready : s.starting = none) (ht : s.step i = .ok t) :
    t.pool.started = true ∧ t.starting = none ∧ t.pool.loops = s.pool.loops := by
  cases i with
  | setThreadNum numThreads =>
    obtain rfl := Except.ok.inj ht
    exact ⟨hstarted, hready, rfl⟩
  | start inLoop callback =>
    rw [PoolSession.step] at ht
    split at ht
    · exact absurd ((begin_eq_ok ht).1.symm.trans hstarted) Bool.false_ne_true
    · exact absurd ht error_ne_ok
  | spawns loop =>
    rw [PoolSession.step, PoolSession.spawn, hready] at ht
    exact absurd ht error_ne_ok
  | returns =>
    rw [PoolSession.step, PoolSession.finish, hready] at ht
    exact absurd ht error_ne_ok
  | getNextLoop inLoop =>
    obtain ⟨-, -, -, rfl⟩ := getNextLoop_eq_ok h ht
    exact ⟨hstarted, hready, rfl⟩
  | getLoopForHash inLoop hashCode =>
    obtain rfl := query_eq_ok ht
    exact ⟨hstarted, hready, rfl⟩
  | getAllLoops inLoop =>
    obtain rfl := query_eq_ok ht
    exact ⟨hstarted, hready, rfl⟩

/-- **The loops are handed out in rotation.** After `start` the pool keeps the loops that it made,
and the three ways to ask for loops agree on them: the turns of `getNextLoop` go round them, a hash
always gets the same one, and no loop is handed out more than once more often than another. -/
theorem rotates [DecidableEq L] {is js : List (Step L)} (hs : run step (.new base name) is = .ok s)
    (hstarted : s.pool.started = true) (hready : s.starting = none)
    (ht : run step s js = .ok t) :
    t.given = rotation s.pool.loops base t.given.length ∧
      (∀ hashCode, t.pool.getLoopForHash true hashCode =
        .ok (served s.pool.loops base hashCode)) ∧
      t.pool.getAllLoops true = .ok (allLoops base s.pool.loops) ∧
      (s.pool.loops.Nodup → ∀ a ∈ s.pool.loops, ∀ b ∈ s.pool.loops,
        t.given.count a ≤ t.given.count b + 1) := by
  obtain ⟨hturns, hyes, -, hloops⟩ := run_inv
    (I := fun u ↦ Turns base name u ∧ u.pool.started = true ∧ u.starting = none ∧
      u.pool.loops = s.pool.loops) (fun u i u' hu hstep ↦ by
        obtain ⟨hturns, hyes, hidle, hloops⟩ := hu
        obtain ⟨hyes', hidle', hloops'⟩ := hturns.loops_eq hyes hidle hstep
        exact ⟨Turns.step hturns hstep, hyes', hidle', hloops'.trans hloops⟩)
    ⟨turns_run hs, hstarted, hready, rfl⟩ ht
  have hgiven := hturns.given
  rw [hloops] at hgiven
  refine ⟨hgiven, fun hashCode ↦ ?_, ?_, fun hnodup a ha b hb ↦ ?_⟩
  · rw [hturns.getLoopForHash, hloops]
  · rw [hturns.getAllLoops hyes, hloops]
  · rw [hgiven]
    exact count_rotation_le hnodup ha hb

/-- Three loops, and seven turns. -/
theorem rotates_three :
    ∃ s t : PoolSession ℕ, run step (.new 0 ['s'])
        [.setThreadNum 3, .start true false, .spawns 7, .spawns 8, .spawns 9, .returns] = .ok s ∧
      run step s [.getNextLoop true, .getNextLoop true, .setThreadNum 5, .getNextLoop true,
        .getAllLoops true, .getNextLoop true, .getNextLoop true] = .ok t ∧
      t.given = rotation [7, 8, 9] 0 5 :=
  ⟨_, _, rfl, rfl, (rotates (rfl : run step (.new 0 ['s']) [.setThreadNum 3, .start true false,
    .spawns 7, .spawns 8, .spawns 9, .returns] = .ok _) rfl rfl (rfl : run step _
      [.getNextLoop true, .getNextLoop true, .setThreadNum 5, .getNextLoop true,
        .getAllLoops true, .getNextLoop true, .getNextLoop true] = .ok _)).1⟩

/-! ## The threads -/

/-- **The threads are named apart.** There is a thread for each loop, its name is that of the pool,
as a C string, with its index behind it, and no two have the same. -/
theorem threads_named {is : List (Step L)} (h : run step (.new base name) is = .ok s) :
    s.pool.threads = (List.range s.pool.loops.length).map (nameOf name) ∧
      s.pool.threads.Nodup := by
  have hthreads := (turns_run h).threads
  refine ⟨hthreads, ?_⟩
  rw [hthreads]
  exact List.nodup_range.map fun _ _ ↦ nameOf_inj

theorem threads_named_of_two :
    ∃ s : PoolSession ℕ, run step (.new 0 ['s'])
        [.setThreadNum 2, .start true false, .spawns 1, .spawns 2] = .ok s ∧
      s.pool.threads.Nodup := by
  obtain ⟨s, hs⟩ : ∃ s : PoolSession ℕ, run step (.new 0 ['s'])
    [.setThreadNum 2, .start true false, .spawns 1, .spawns 2] = .ok s := ⟨_, rfl⟩
  exact ⟨s, hs, (threads_named hs).2⟩

theorem error_ne_outOfRange {α : Type} {e : PoolFault} (he : e ≠ .outOfRange) :
    (Except.error e : Except PoolFault α) ≠ .error .outOfRange :=
  fun hc ↦ he (Except.error.inj hc)

/-- A call that cannot come, and one from another thread. -/
theorem call_ne_outOfRange {x : Bool → Except PoolFault (PoolSession L)} {inLoop : Bool}
    (hother : x false = .error .notInLoopThread) (hloop : x true ≠ .error .outOfRange) :
    (if s.Comes inLoop then x inLoop else .error .impossible) ≠ .error .outOfRange := by
  split
  · cases inLoop with
    | true => exact hloop
    | false =>
      rw [hother]
      exact error_ne_outOfRange (by decide)
  · exact error_ne_outOfRange (by decide)

/-- What fails is an assert, never a subscript. -/
theorem Turns.ne_outOfRange (h : Turns base name s) : s.step i ≠ .error .outOfRange := by
  cases i with
  | setThreadNum numThreads => exact error_ne_ok.symm
  | start inLoop callback =>
    rw [PoolSession.step, PoolSession.begin, assertStopped]
    split
    · split
      · exact error_ne_outOfRange (by decide)
      · cases inLoop with
        | true => exact error_ne_ok.symm
        | false => exact error_ne_outOfRange (by decide)
    · exact error_ne_outOfRange (by decide)
  | spawns loop =>
    rw [PoolSession.step, PoolSession.spawn]
    split
    · split
      · exact error_ne_ok.symm
      · exact error_ne_outOfRange (by decide)
    · exact error_ne_outOfRange (by decide)
  | returns =>
    rw [PoolSession.step, PoolSession.finish]
    split
    · split
      · exact error_ne_outOfRange (by decide)
      · exact error_ne_ok.symm
    · exact error_ne_outOfRange (by decide)
  | getNextLoop inLoop =>
    refine call_ne_outOfRange (x := fun inLoop ↦ s.pool.getNextLoop inLoop >>= fun r ↦
      .ok { s with pool := r.2, given := s.given ++ [r.1] }) rfl ?_
    cases hstarted : s.pool.started with
    | true =>
      rw [h.getNextLoop hstarted]
      exact error_ne_ok.symm
    | false =>
      have hassert : s.pool.getNextLoop true = .error .notStarted := by
        rw [EventLoopThreadPool.getNextLoop, assertStarted, hstarted]
        rfl
      rw [hassert]
      exact error_ne_outOfRange (by decide)
  | getLoopForHash inLoop hashCode =>
    refine call_ne_outOfRange (x := fun inLoop ↦ s.pool.getLoopForHash inLoop hashCode >>=
      fun _ ↦ .ok s) rfl ?_
    rw [h.getLoopForHash]
    exact error_ne_ok.symm
  | getAllLoops inLoop =>
    refine call_ne_outOfRange (x := fun inLoop ↦ s.pool.getAllLoops inLoop >>= fun _ ↦ .ok s) rfl ?_
    cases hstarted : s.pool.started with
    | true =>
      rw [h.getAllLoops hstarted]
      exact error_ne_ok.symm
    | false =>
      have hassert : s.pool.getAllLoops true = .error .notStarted := by
        rw [EventLoopThreadPool.getAllLoops, assertStarted, hstarted]
        rfl
      rw [hassert]
      exact error_ne_outOfRange (by decide)

/-- No run leaves a vector. -/
theorem in_range (is : List (Step L)) : run step (.new base name) is ≠ .error .outOfRange :=
  fun hrun ↦ Along.run_error (E := fun e ↦ e ≠ .outOfRange)
    (fun _ _ _ hs _ ht ↦ Turns.step hs ht)
    (fun _ _ _ hs _ he hc ↦ hs.ne_outOfRange (hc ▸ he)) (along_of_forall fun _ _ ↦ trivial)
    (turns_new base name) hrun rfl

/-! ## The callback -/

/-- The number of threads is left alone while `start` goes on. -/
def Quiet (s : PoolSession L) : Step L → Prop
  | .setThreadNum _ => s.starting = none
  | .start _ _ | .spawns _ | .returns | .getNextLoop _ | .getLoopForHash _ _ | .getAllLoops _ =>
    True

instance (s : PoolSession L) : DecidablePred (Quiet s)
  | .setThreadNum _ => inferInstanceAs (Decidable (_ = none))
  | .start _ _ | .spawns _ | .returns | .getNextLoop _ | .getLoopForHash _ _ | .getAllLoops _ =>
    inferInstanceAs (Decidable True)

/-- How far `start` has come: the callback was called with the loops that there are. -/
structure Initializing (n : ℤ) (callback : Bool) (s : PoolSession L) : Prop where
  started : s.pool.started = true
  begun : ∀ i cb, s.starting = some (i, cb) → cb = callback ∧ s.pool.numThreads = n ∧
    (0 < s.pool.loops.length → i ≤ n) ∧
    s.initialized = if callback then s.pool.loops else []
  ended : s.starting = none → s.pool.loops.length = n.toNat ∧
    s.initialized = if callback = true then
      if n = 0 then [s.pool.baseLoop] else s.pool.loops else []

theorem Initializing.step {n : ℤ} {callback : Bool} (h : Initializing n callback s)
    (hs : Turns base name s) (hquiet : Quiet s i) (ht : s.step i = .ok t) :
    Initializing n callback t := by
  cases i with
  | setThreadNum numThreads =>
    obtain rfl := Except.ok.inj ht
    refine ⟨h.started, fun i cb heq ↦ ?_, h.ended⟩
    exact absurd (heq.symm.trans hquiet) (Option.some_ne_none _)
  | start inLoop cb =>
    rw [PoolSession.step] at ht
    split at ht
    · exact absurd ((begin_eq_ok ht).1.symm.trans h.started) Bool.false_ne_true
    · exact absurd ht error_ne_ok
  | spawns loop =>
    rw [PoolSession.step, PoolSession.spawn] at ht
    split at ht
    · rename_i i cb hstarting
      obtain ⟨rfl, hn, hle, hinit⟩ := h.begun i cb hstarting
      obtain ⟨rfl, -⟩ := hs.starting i cb hstarting
      split at ht
      · rename_i hlt
        obtain rfl := Except.ok.inj ht
        have hbound := hs.bound
        refine ⟨h.started, fun i' cb' heq ↦ ?_, fun hc ↦ absurd hc (Option.some_ne_none _)⟩
        obtain ⟨rfl, rfl⟩ := Prod.mk.inj (Option.some.inj heq)
        refine ⟨rfl, hn, fun _ ↦ ?_, ?_⟩
        · rw [increment_natCast (by omega)]
          omega
        · change (if cb = true then s.initialized ++ [loop] else s.initialized) = _
          rw [hinit]
          split <;> rfl
      · exact absurd ht error_ne_ok
    · exact absurd ht error_ne_ok
  | returns =>
    rw [PoolSession.step, PoolSession.finish] at ht
    split at ht
    · rename_i i cb hstarting
      obtain ⟨rfl, hn, hle, hinit⟩ := h.begun i cb hstarting
      obtain ⟨rfl, -⟩ := hs.starting i cb hstarting
      split at ht
      · exact absurd ht error_ne_ok
      · rename_i hge
        obtain rfl := Except.ok.inj ht
        refine ⟨h.started, fun i' cb' heq ↦ absurd heq.symm (Option.some_ne_none _), fun _ ↦ ?_⟩
        have hlen : s.pool.loops.length = n.toNat := by omega
        refine ⟨hlen, ?_⟩
        change (if s.pool.numThreads = 0 ∧ cb = true then s.initialized ++ [s.pool.baseLoop]
          else s.initialized) = if cb = true then
            if n = 0 then [s.pool.baseLoop] else s.pool.loops else []
        rw [hn, hinit]
        cases cb with
        | true =>
          by_cases hzero : n = 0
          · have hnil : s.pool.loops = [] := List.eq_nil_of_length_eq_zero (by omega)
            simp [hzero, hnil]
          · simp [hzero]
        | false => simp
    · exact absurd ht error_ne_ok
  | getNextLoop inLoop =>
    obtain ⟨-, hidle, -, rfl⟩ := getNextLoop_eq_ok hs ht
    exact ⟨h.started, h.begun, h.ended⟩
  | getLoopForHash inLoop hashCode =>
    obtain rfl := query_eq_ok ht
    exact h
  | getAllLoops inLoop =>
    obtain rfl := query_eq_ok ht
    exact h

/-- **Every loop is initialized once.** When `start` returns there are as many loops as were asked
for, and the callback has been called once with each of the loops that the pool has then, unless the
number was negative: then the base loop is all there is and the callback has not been called. -/
theorem initializes_iff {is js : List (Step L)} {inLoop callback : Bool} {u : PoolSession L}
    (hs : run step (.new base name) is = .ok s)
    (hstart : s.step (.start inLoop callback) = .ok u) (hquiet : Along step Quiet u js)
    (ht : run step u js = .ok t) (hready : t.starting = none) :
    t.pool.loops.length = s.pool.numThreads.toNat ∧
      (t.initialized = (if callback then allLoops base t.pool.loops else []) ↔
        (callback = true → 0 ≤ s.pool.numThreads)) := by
  have hturns := turns_run hs
  have hbegun : Initializing s.pool.numThreads callback u := by
    rw [PoolSession.step] at hstart
    split at hstart
    · obtain ⟨hno, rfl⟩ := begin_eq_ok hstart
      obtain ⟨-, hloops, -, hinit⟩ := hturns.stopped hno
      refine ⟨rfl, fun i cb heq ↦ ?_, fun hc ↦ absurd hc (Option.some_ne_none _)⟩
      obtain ⟨rfl, rfl⟩ := Prod.mk.inj (Option.some.inj heq)
      refine ⟨rfl, rfl, fun hpos ↦ ?_, ?_⟩
      · rw [hloops] at hpos
        exact absurd hpos (Nat.lt_irrefl 0)
      · rw [hinit, hloops, ite_self]
    · exact absurd hstart error_ne_ok
  obtain ⟨hturns', hinit⟩ := Along.run_inv
    (I := fun v ↦ Turns base name v ∧ Initializing s.pool.numThreads callback v)
    (fun v i v' hv hi hstep ↦ ⟨Turns.step hv.1 hstep, hv.2.step hv.1 hi hstep⟩) hquiet
    ⟨Turns.step hturns hstart, hbegun⟩ ht
  obtain ⟨hlen, heq⟩ := hinit.ended hready
  refine ⟨hlen, ?_⟩
  rw [heq, hturns'.baseLoop, allLoops]
  cases callback with
  | false => simp
  | true =>
    simp only [if_true, true_imp_iff]
    by_cases hnil : t.pool.loops = []
    · have hnone : s.pool.numThreads.toNat = 0 := hlen.symm.trans (congrArg List.length hnil)
      rw [hnil, if_pos rfl]
      by_cases hzero : s.pool.numThreads = 0
      · rw [if_pos hzero]
        exact iff_of_true rfl hzero.ge
      · rw [if_neg hzero]
        exact iff_of_false (List.cons_ne_nil _ _).symm (by omega)
    · have hpos := List.length_pos_iff.mpr hnil
      rw [if_neg hnil, if_neg (by omega)]
      exact iff_of_true rfl (by omega)

theorem initializes_iff_of_two :
    ∃ s u t : PoolSession ℕ, run step (.new 0 ['s']) [.setThreadNum 2] = .ok s ∧
      s.step (.start true true) = .ok u ∧ run step u [.spawns 7, .spawns 8, .returns] = .ok t ∧
      t.initialized = [7, 8] := by
  refine ⟨_, _, _, rfl, rfl, rfl, ?_⟩
  exact (initializes_iff (rfl : run step (.new 0 ['s']) [.setThreadNum 2] = .ok _)
    (rfl : PoolSession.step _ (.start true true) = .ok _) (by decide)
    (rfl : run step _ [.spawns 7, .spawns 8, .returns] = .ok _) rfl).2.mpr (by decide)

end PoolSession

end Twnl
