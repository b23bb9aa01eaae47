import Mathlib.Data.Int.Notation
import Mathlib.Data.Nat.Notation

/-!
# Channels

A channel ties a descriptor to the events its owner is interested in. The masks that stand for an
interest in reading and in writing are not constants: they are variables of the whole process, zero
until the first loop that uses epoll sets them, and set again by each such loop. Every operation
that reads them takes them as an argument.
-/

namespace Twnl

/-- An `int` of event bits. -/
abbrev Mask := BitVec 32

def EPOLLIN : Mask := 0x001
def EPOLLPRI : Mask := 0x002
def EPOLLOUT : Mask := 0x004
def EPOLLERR : Mask := 0x008
def EPOLLHUP : Mask := 0x010
def EPOLLRDHUP : Mask := 0x2000
def EPOLLET : Mask := 0x80000000

/-- `Channel::mode`: level- or edge-triggered. -/
inductive Mode
  | LT
  | ET
  deriving DecidableEq, Repr

/-- The static members of `Channel`. -/
structure Masks where
  mode : Mode
  kNoneEvent : Mask
  kReadEvent : Mask
  kWriteEvent : Mask
  deriving DecidableEq, Repr

namespace Masks

/-- The statics of a process in which no loop has set them. -/
def zero : Masks := ⟨.LT, 0, 0, 0⟩

def initDefaultEvent : Mode → Masks
  | .LT => ⟨.LT, 0, EPOLLIN ||| EPOLLPRI, EPOLLOUT⟩
  | .ET => ⟨.ET, 0, EPOLLET ||| EPOLLIN ||| EPOLLPRI, EPOLLET ||| EPOLLOUT⟩

def isET (k : Masks) : Bool := k.mode == .ET

theorem kWriteEvent_ne_zero (m : Mode) : (initDefaultEvent m).kWriteEvent ≠ 0 := by
  cases m <;> decide

theorem kReadEvent_and_in (m : Mode) : (initDefaultEvent m).kReadEvent &&& EPOLLIN ≠ 0 := by
  cases m <;> decide

theorem kNoneEvent_eq_zero (m : Mode) : (initDefaultEvent m).kNoneEvent = 0 := by
  cases m <;> rfl

end Masks

/-- A channel. Its address, by which pollers tell channels apart, is part of it. -/
structure Channel where
  ptr : ℕ
  fd : ℤ
  events : Mask
  revents : Mask
  index : ℤ
  deriving DecidableEq, Repr

namespace Channel

/-- The constructor. -/
def new (ptr : ℕ) (fd : ℤ) : Channel := ⟨ptr, fd, 0, 0, -1⟩

variable (k : Masks) (c : Channel)

def isNoneEvent : Bool := c.events == k.kNoneEvent

def isReading : Bool := c.events &&& k.kReadEvent != 0

def isWriting : Bool := c.events &&& k.kWriteEvent != 0

/-! The five setters; each is followed by `update()`, which hands the channel to the poller. -/

def enableReading : Channel := { c with events := c.events ||| k.kReadEvent }

def disableReading : Channel := { c with events := c.events &&& ~~~k.kReadEvent }

def enableWriting : Channel := { c with events := c.events ||| k.kWriteEvent }

def disableWriting : Channel := { c with events := c.events &&& ~~~k.kWriteEvent }

def disableAll : Channel := { c with events := k.kNoneEvent }

/-- The calls that change a channel's interest. -/
inductive Call
  | enableReading
  | disableReading
  | enableWriting
  | disableWriting
  | disableAll
  deriving DecidableEq, Repr

/-- The effect of a call on the channel itself. -/
def call : Call → Channel
  | .enableReading => c.enableReading k
  | .disableReading => c.disableReading k
  | .enableWriting => c.enableWriting k
  | .disableWriting => c.disableWriting k
  | .disableAll => c.disableAll k

@[simp] theorem call_ptr (a : Call) : (c.call k a).ptr = c.ptr := by cases a <;> rfl

@[simp] theorem call_fd (a : Call) : (c.call k a).fd = c.fd := by cases a <;> rfl

@[simp] theorem call_index (a : Call) : (c.call k a).index = c.index := by cases a <;> rfl

/-! Bits. -/

theorem ne_zero_of_and {a b : Mask} (h : a &&& b ≠ 0) : a ≠ 0 := by
  rintro rfl
  exact h BitVec.zero_and

/-! A setter decides the test of its own direction, whatever bits the directions share. -/

theorem isWriting_disableWriting : (c.disableWriting k).isWriting k = false := by
  have hzero : c.events &&& ~~~k.kWriteEvent &&& k.kWriteEvent = 0 := by
    ext i hi
    simp
  rw [isWriting, disableWriting, hzero]
  rfl

theorem isWriting_enableWriting (hk : k.kWriteEvent ≠ 0) :
    (c.enableWriting k).isWriting k = true := by
  have hself : (c.events ||| k.kWriteEvent) &&& k.kWriteEvent = k.kWriteEvent := by
    ext i hi
    simp only [BitVec.getElem_and, BitVec.getElem_or]
    cases k.kWriteEvent[i] <;> simp
  rw [isWriting, enableWriting, hself]
  exact bne_iff_ne.mpr hk

end Channel

end Twnl
