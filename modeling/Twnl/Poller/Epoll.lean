import Mathlib.Logic.Function.Basic
import Twnl.Channel.Basic
import Twnl.Fault

/-!
# The epoll poller

Registration is spread over three places: the poller's map from descriptors to channels, the index
kept in the channel, and the interest set in the kernel. `Standing` names the four ways in which
they agree on a channel, and `updateChannel_spec` is the transition between them.

An update of a channel that was taken out of the interest set puts it back *whatever its events*:
the branch for `kDeleted` does not ask for them. A second update of a channel without events is
therefore watched again, with an empty mask.
-/

namespace Twnl

def kNew : ℤ := -1
def kAdded : ℤ := 1
def kDeleted : ℤ := 2

/-- The operations of `epoll_ctl`. -/
inductive EpollOp
  | ADD
  | MOD
  | DEL
  deriving DecidableEq, Repr

/-- The interest set of an epoll instance: for a descriptor, the events watched for and the pointer
stored with them. -/
abbrev InterestSet := ℤ → Option (Mask × ℕ)

/-- `epoll_ctl`, which fails with `EEXIST` on adding what is there, and with `ENOENT` on modifying
or deleting what is not. -/
def epollCtl (interest : InterestSet) (op : EpollOp) (fd : ℤ) (event : Mask × ℕ) :
    Option InterestSet :=
  match op, interest fd with
  | .ADD, none => some (Function.update interest fd (some event))
  | .MOD, some _ => some (Function.update interest fd (some event))
  | .DEL, some _ => some (Function.update interest fd none)
  | .ADD, some _ | .MOD, none | .DEL, none => none

/-- A call of `epoll_ctl`: the operation and the descriptor, and whether the descriptor was in the
interest set and the call succeeded. -/
structure EpollCall where
  op : EpollOp
  fd : ℤ
  present : Bool
  succeeded : Bool
  deriving DecidableEq, Repr

/-- The map `channels_` and the kernel's interest set, beside a record of the calls of `epoll_ctl`
that were made. -/
structure EpollPoller where
  channels : ℤ → Option ℕ
  interest : InterestSet
  calls : List EpollCall

namespace EpollPoller

/-- A poller as its constructor leaves it. -/
def new : EpollPoller := ⟨fun _ ↦ none, fun _ ↦ none, []⟩

/-- A failure to delete is logged; a failure to add or to modify aborts. -/
def update (p : EpollPoller) (op : EpollOp) (c : Channel) : Except Fault EpollPoller :=
  let made (succeeded : Bool) : EpollCall := ⟨op, c.fd, (p.interest c.fd).isSome, succeeded⟩
  match epollCtl p.interest op c.fd (c.events, c.ptr) with
  | some interest => .ok { p with interest := interest, calls := p.calls ++ [made true] }
  | none => if op = .DEL then .ok { p with calls := p.calls ++ [made false] } else .error .abort

/-- Gives the poller and the channel with its index. -/
def updateChannel (k : Masks) (p : EpollPoller) (c : Channel) :
    Except Fault (EpollPoller × Channel) :=
  if c.index = kNew ∨ c.index = kDeleted then do
    let entered ← (if c.index = kNew then do
        check (p.channels c.fd = none) .epollUpdateChannel
        .ok { p with channels := Function.update p.channels c.fd (some c.ptr) }
      else do
        check (p.channels c.fd = some c.ptr) .epollUpdateChannel
        .ok p : Except Fault EpollPoller)
    let updated ← entered.update .ADD c
    .ok (updated, { c with index := kAdded })
  else if c.isNoneEvent k then do
    let updated ← p.update .DEL c
    .ok (updated, { c with index := kDeleted })
  else do
    let updated ← p.update .MOD c
    .ok (updated, c)

def removeChannel (p : EpollPoller) (c : Channel) : Except Fault (EpollPoller × Channel) := do
  let erased : EpollPoller := { p with channels := Function.update p.channels c.fd none }
  let updated ← (if c.index = kAdded then erased.update .DEL c else .ok erased :
    Except Fault EpollPoller)
  .ok (updated, { c with index := kDeleted })

/-- The map apart from the entry of `c`, the interest set and the record are the same. -/
structure SameBut (c : Channel) (p q : EpollPoller) : Prop where
  channels : ∀ fd ≠ c.fd, q.channels fd = p.channels fd
  interest : q.interest = p.interest
  calls : q.calls = p.calls

/-- The inversion of an update: the channel is entered in the map, unless it is there, and one call
of `epoll_ctl` is made, which adds exactly what the index says is not there. -/
theorem updateChannel_ctl {k : Masks} {p : EpollPoller} {c : Channel} {q : EpollPoller × Channel}
    (h : updateChannel k p c = .ok q) :
    ∃ (entered : EpollPoller) (op : EpollOp) (i : ℤ), SameBut c p entered ∧
      (op = .ADD ↔ c.index = kNew ∨ c.index = kDeleted) ∧
      entered.update op c = .ok q.1 ∧ q.2 = { c with index := i } := by
  rw [updateChannel] at h
  split at h
  · rename_i hnew
    obtain ⟨entered, hentered, h⟩ := bind_eq_ok.mp h
    obtain ⟨updated, hupdated, h⟩ := bind_eq_ok.mp h
    obtain rfl := Except.ok.inj h
    have hmap : SameBut c p entered := by
      split at hentered
      · obtain ⟨_, -, hentered⟩ := bind_eq_ok.mp hentered
        obtain rfl := Except.ok.inj hentered
        exact ⟨fun fd hfd ↦ Function.update_of_ne hfd _ _, rfl, rfl⟩
      · obtain ⟨_, -, hentered⟩ := bind_eq_ok.mp hentered
        obtain rfl := Except.ok.inj hentered
        exact ⟨fun _ _ ↦ rfl, rfl, rfl⟩
    exact ⟨entered, .ADD, kAdded, hmap, iff_of_true rfl hnew, hupdated, rfl⟩
  · rename_i hold
    split at h
    · obtain ⟨updated, hupdated, h⟩ := bind_eq_ok.mp h
      obtain rfl := Except.ok.inj h
      exact ⟨p, .DEL, kDeleted, ⟨fun _ _ ↦ rfl, rfl, rfl⟩, iff_of_false nofun hold, hupdated, rfl⟩
    · obtain ⟨updated, hupdated, h⟩ := bind_eq_ok.mp h
      obtain rfl := Except.ok.inj h
      exact ⟨p, .MOD, c.index, ⟨fun _ _ ↦ rfl, rfl, rfl⟩, iff_of_false nofun hold, hupdated, rfl⟩

/-- The inversion of a removal: the channel is erased from the map, and deleted from the interest
set if its index says that it is there. -/
theorem removeChannel_ctl {p : EpollPoller} {c : Channel} {q : EpollPoller × Channel}
    (h : removeChannel p c = .ok q) :
    ∃ erased : EpollPoller, SameBut c p erased ∧
      (c.index = kAdded ∧ erased.update .DEL c = .ok q.1 ∨ q.1 = erased) ∧
      q.2 = { c with index := kDeleted } := by
  obtain ⟨updated, hupdated, h⟩ := bind_eq_ok.mp h
  obtain rfl := Except.ok.inj h
  refine ⟨{ p with channels := Function.update p.channels c.fd none },
    ⟨fun fd hfd ↦ Function.update_of_ne hfd _ _, rfl, rfl⟩, ?_, rfl⟩
  split at hupdated
  · rename_i hadded
    exact Or.inl ⟨hadded, hupdated⟩
  · exact Or.inr (Except.ok.inj hupdated).symm

/-! ## Standings -/

/-- Where a channel stands with the poller. -/
inductive Standing
  /-- Never updated. -/
  | fresh
  /-- In the map and in the interest set. -/
  | added
  /-- In the map, and out of the interest set. -/
  | disabled
  /-- Removed from both. -/
  | removed
  deriving DecidableEq, Repr

/-- The map, the index and the interest set say that `c` stands as named. -/
def Stands (p : EpollPoller) (c : Channel) : Standing → Prop
  | .fresh => c.index = kNew ∧ p.channels c.fd = none ∧ p.interest c.fd = none
  | .added => c.index = kAdded ∧ p.channels c.fd = some c.ptr ∧ (p.interest c.fd).isSome
  | .disabled => c.index = kDeleted ∧ p.channels c.fd = some c.ptr ∧ p.interest c.fd = none
  | .removed => c.index = kDeleted ∧ p.channels c.fd = none ∧ p.interest c.fd = none

/-- The standing after an update of a channel that has no events, or has some. -/
def Standing.update (isNone : Bool) : Standing → Standing
  | .fresh | .disabled => .added
  | .added => if isNone then .disabled else .added
  | .removed => .removed

variable {k : Masks} {p : EpollPoller} {c : Channel} {st : Standing}

/-- Only a channel that is added is watched. -/
theorem Stands.interest_eq_none (h : p.Stands c st) (hst : st ≠ .added) :
    p.interest c.fd = none := by
  cases st with
  | fresh | disabled | removed => exact h.2.2
  | added => exact absurd rfl hst

/-- The index and the map do not see the events. -/
theorem stands_congr {d : Channel} (hptr : d.ptr = c.ptr) (hfd : d.fd = c.fd)
    (hindex : d.index = c.index) : p.Stands d st ↔ p.Stands c st := by
  cases st <;> simp only [Stands, hptr, hfd, hindex]

/-- **The transition.** An update of a channel that was not removed returns and moves its standing;
if the channel is watched afterwards, it is for the events it has. -/
theorem updateChannel_spec (h : p.Stands c st) (hst : st ≠ .removed) :
    ∃ p' i, updateChannel k p c = .ok (p', { c with index := i }) ∧
      p'.Stands { c with index := i } (st.update (c.isNoneEvent k)) ∧
      ∀ event ∈ p'.interest c.fd, event = (c.events, c.ptr) := by
  have hself (m : InterestSet) (event : Mask × ℕ) :
      ∀ e ∈ Function.update m c.fd (some event) c.fd, e = event := by
    intro e he
    rw [Function.update_self, Option.mem_some_iff] at he
    exact he.symm
  cases st with
  | fresh =>
    obtain ⟨hindex, hmap, hset⟩ := h
    refine ⟨⟨Function.update p.channels c.fd (some c.ptr),
      Function.update p.interest c.fd (some (c.events, c.ptr)),
      p.calls ++ [⟨.ADD, c.fd, false, true⟩]⟩, kAdded, ?_, ⟨rfl, ?_, ?_⟩, hself _ _⟩
    · rw [updateChannel, if_pos (Or.inl hindex), if_pos hindex, check_pos hmap]
      simp only [bind_ok, EpollPoller.update, epollCtl, hset, Option.isSome_none]
    · exact Function.update_self _ _ _
    · change (Function.update p.interest c.fd (some (c.events, c.ptr)) c.fd).isSome = true
      rw [Function.update_self, Option.isSome_some]
  | disabled =>
    obtain ⟨hindex, hmap, hset⟩ := h
    have hnew : c.index ≠ kNew := by rw [hindex]; decide
    refine ⟨⟨p.channels, Function.update p.interest c.fd (some (c.events, c.ptr)),
      p.calls ++ [⟨.ADD, c.fd, false, true⟩]⟩, kAdded, ?_, ⟨rfl, hmap, ?_⟩, hself _ _⟩
    · rw [updateChannel, if_pos (Or.inr hindex), if_neg hnew, check_pos hmap]
      simp only [bind_ok, EpollPoller.update, epollCtl, hset, Option.isSome_none]
    · change (Function.update p.interest c.fd (some (c.events, c.ptr)) c.fd).isSome = true
      rw [Function.update_self, Option.isSome_some]
  | added =>
    obtain ⟨hindex, hmap, hset⟩ := h
    obtain ⟨event, hevent⟩ := Option.isSome_iff_exists.mp hset
    have hold : ¬(c.index = kNew ∨ c.index = kDeleted) := by rw [hindex]; decide
    cases hnone : c.isNoneEvent k with
    | true =>
      refine ⟨⟨p.channels, Function.update p.interest c.fd none,
        p.calls ++ [⟨.DEL, c.fd, true, true⟩]⟩, kDeleted, ?_, ⟨rfl, hmap, ?_⟩, ?_⟩
      · rw [updateChannel, if_neg hold, if_pos hnone]
        simp only [bind_ok, EpollPoller.update, epollCtl, hevent, Option.isSome_some]
      · exact Function.update_self _ _ _
      · intro event hmem
        change event ∈ Function.update p.interest c.fd none c.fd at hmem
        rw [Function.update_self] at hmem
        exact absurd hmem (Option.not_mem_none _)
    | false =>
      refine ⟨⟨p.channels, Function.update p.interest c.fd (some (c.events, c.ptr)),
        p.calls ++ [⟨.MOD, c.fd, true, true⟩]⟩, c.index, ?_, ⟨hindex, hmap, ?_⟩, hself _ _⟩
      · rw [updateChannel, if_neg hold, if_neg (by rw [hnone]; exact Bool.false_ne_true)]
        simp only [bind_ok, EpollPoller.update, epollCtl, hevent, Option.isSome_some]
      · change (Function.update p.interest c.fd (some (c.events, c.ptr)) c.fd).isSome = true
        rw [Function.update_self, Option.isSome_some]
  | removed => exact absurd rfl hst

/-- A removal returns and leaves the channel removed. -/
theorem removeChannel_spec (h : p.Stands c st) :
    ∃ p', removeChannel p c = .ok (p', { c with index := kDeleted }) ∧
      p'.Stands { c with index := kDeleted } .removed := by
  by_cases hst : st = .added
  · subst hst
    obtain ⟨hindex, -, hset⟩ := h
    obtain ⟨event, hevent⟩ := Option.isSome_iff_exists.mp hset
    refine ⟨⟨Function.update p.channels c.fd none, Function.update p.interest c.fd none,
      p.calls ++ [⟨.DEL, c.fd, true, true⟩]⟩, ?_, rfl, Function.update_self _ _ _,
      Function.update_self _ _ _⟩
    rw [removeChannel, if_pos hindex]
    simp only [bind_ok, EpollPoller.update, epollCtl, hevent, Option.isSome_some]
  · have hindex : c.index ≠ kAdded := by
      cases st with
      | fresh | disabled | removed => rw [h.1]; decide
      | added => exact absurd rfl hst
    refine ⟨⟨Function.update p.channels c.fd none, p.interest, p.calls⟩, ?_, rfl,
      Function.update_self _ _ _, h.interest_eq_none hst⟩
    rw [removeChannel, if_neg hindex, bind_ok]

/-! ## Other descriptors -/

theorem update_of_ne {op : EpollOp} {p' : EpollPoller} {fd : ℤ} (hfd : fd ≠ c.fd)
    (h : p.update op c = .ok p') : p'.channels = p.channels ∧ p'.interest fd = p.interest fd := by
  rw [EpollPoller.update] at h
  split at h
  · rename_i interest hctl
    rw [Except.ok.injEq] at h
    subst h
    refine ⟨rfl, ?_⟩
    unfold epollCtl at hctl
    split at hctl <;> first
      | (rw [Option.some.injEq] at hctl; subst hctl; exact Function.update_of_ne hfd _ _)
      | exact absurd hctl (by simp)
  · split at h
    · rw [Except.ok.injEq] at h
      exact h ▸ ⟨rfl, rfl⟩
    · exact absurd h (by simp)

/-- An update leaves the entries of other descriptors alone. -/
theorem updateChannel_of_ne {q : EpollPoller × Channel} {fd : ℤ} (hfd : fd ≠ c.fd)
    (h : updateChannel k p c = .ok q) :
    q.1.channels fd = p.channels fd ∧ q.1.interest fd = p.interest fd := by
  obtain ⟨entered, op, i, hsame, -, hupdated, -⟩ := updateChannel_ctl h
  obtain ⟨hmap, hset⟩ := update_of_ne hfd hupdated
  rw [hmap, hset, hsame.interest]
  exact ⟨hsame.channels fd hfd, rfl⟩

/-- So does a removal. -/
theorem removeChannel_of_ne {q : EpollPoller × Channel} {fd : ℤ} (hfd : fd ≠ c.fd)
    (h : removeChannel p c = .ok q) :
    q.1.channels fd = p.channels fd ∧ q.1.interest fd = p.interest fd := by
  obtain ⟨erased, hsame, ⟨-, hdeleted⟩ | hskipped, -⟩ := removeChannel_ctl h
  · obtain ⟨hmap, hset⟩ := update_of_ne hfd hdeleted
    rw [hmap, hset, hsame.interest]
    exact ⟨hsame.channels fd hfd, rfl⟩
  · rw [hskipped, hsame.interest]
    exact ⟨hsame.channels fd hfd, rfl⟩

end EpollPoller

end Twnl
