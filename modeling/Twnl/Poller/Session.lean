import Twnl.Machine.Run
import Twnl.Poller.Epoll
import Twnl.Poller.Poll

/-!
# A poller and its channels

The pollers keep pointers to channels, and write the index into the channels themselves. A session
has a poller of either kind and the channels of its loop by their addresses; its steps are the calls
the loop makes. An update comes with the events its channel has been given.

The channels have descriptors of their own: `fd` gives the descriptor of the channel at an address.
-/

namespace Twnl

namespace Poller

/-- A poller with the channels of its loop. -/
structure Session (π : Type) where
  poller : π
  channel : ℕ → Channel

namespace Session

variable {π : Type}

/-- A poller that was just made, and channels that have not been handed to it. -/
def start (poller : π) (fd : ℕ → ℤ) : Session π := ⟨poller, fun ptr ↦ .new ptr (fd ptr)⟩

/-- The channel at an address with the events it is given. -/
def given (s : Session π) (ptr : ℕ) (events : Mask) : Channel :=
  { s.channel ptr with events := events }

inductive Step
  /-- The channel at `ptr` is given its events and handed to the poller. -/
  | updateChannel (ptr : ℕ) (events : Mask)
  | removeChannel (ptr : ℕ)
  deriving DecidableEq, Repr

/-- Every channel stands at its address and has its descriptor. -/
structure Addressed (fd : ℕ → ℤ) (s : Session π) : Prop where
  ptr_eq : ∀ ptr, (s.channel ptr).ptr = ptr
  fd_eq : ∀ ptr, (s.channel ptr).fd = fd ptr

variable {fd : ℕ → ℤ} {s : Session π} {poller : π} {ptr : ℕ} {c : Channel}

theorem addressed_start (poller : π) (fd : ℕ → ℤ) : (start poller fd).Addressed fd :=
  ⟨fun _ ↦ rfl, fun _ ↦ rfl⟩

/-- A channel may be written to. -/
theorem Addressed.update (h : s.Addressed fd) (poller : π) (hptr : c.ptr = ptr)
    (hfd : c.fd = fd ptr) :
    Addressed fd ⟨poller, Function.update s.channel ptr c⟩ where
  ptr_eq := (Function.forall_update_iff s.channel fun a c ↦ c.ptr = a).mpr
    ⟨hptr, fun a _ ↦ h.ptr_eq a⟩
  fd_eq := (Function.forall_update_iff s.channel fun a c ↦ c.fd = fd a).mpr
    ⟨hfd, fun a _ ↦ h.fd_eq a⟩

end Session

end Poller

namespace EpollPoller

open Poller.Session

def step (k : Masks) (s : Poller.Session EpollPoller) :
    Step → Except Fault (Poller.Session EpollPoller)
  | .updateChannel ptr events => do
    let (poller, c) ← s.poller.updateChannel k (s.given ptr events)
    .ok ⟨poller, Function.update s.channel ptr c⟩
  | .removeChannel ptr => do
    let (poller, c) ← s.poller.removeChannel (s.channel ptr)
    .ok ⟨poller, Function.update s.channel ptr c⟩

end EpollPoller

namespace PollPoller

open Poller.Session

/-- `Channel::set_index` on the channel that a removal has moved. -/
def setIndex (channel : ℕ → Channel) : Option (ℕ × ℤ) → ℕ → Channel
  | none => channel
  | some (ptr, i) => Function.update channel ptr { channel ptr with index := i }

def step (k : Masks) (s : Poller.Session PollPoller) :
    Step → Except Fault (Poller.Session PollPoller)
  | .updateChannel ptr events => do
    let (poller, c) ← s.poller.updateChannel k (s.given ptr events)
    .ok ⟨poller, Function.update s.channel ptr c⟩
  | .removeChannel ptr => do
    let (poller, moved) ← s.poller.removeChannel k (s.channel ptr)
    .ok ⟨poller, setIndex s.channel moved⟩

end PollPoller

end Twnl
