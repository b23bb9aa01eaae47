import Mathlib.Data.List.Basic
import Mathlib.Data.Int.Notation

/-!
# What the kernel answers

The results of the system calls are inputs of the model. A `write` is answered by a count, of which
the kernel takes at most what it was offered, or by an `errno`; a `read` by the bytes it delivered,
none of them at end of file, or by an `errno`.
-/

namespace Twnl

/-- `char`, as the element of a buffer. -/
abbrev Byte := UInt8

/-- The `errno` values the source compares against. -/
inductive Errno
  | EINTR
  | EAGAIN
  | EPIPE
  | ECONNRESET
  | EINPROGRESS
  | EISCONN
  | EADDRINUSE
  | EADDRNOTAVAIL
  | ECONNREFUSED
  | ENETUNREACH
  | EACCES
  | EPERM
  | EAFNOSUPPORT
  | EALREADY
  | EBADF
  | EFAULT
  | ENOTSOCK
  | other (code : ℕ)
  deriving DecidableEq, Repr

/-- On Linux the two names stand for one value. -/
abbrev Errno.EWOULDBLOCK : Errno := .EAGAIN

/-- The thread a call is made from: that of the loop, or another. -/
inductive Thread
  | loop
  | other
  deriving DecidableEq, Repr

/-- The answer to a `write`. -/
inductive WriteResult
  | accepts (count : ℕ)
  | fails (e : Errno)
  deriving DecidableEq, Repr

namespace WriteResult

/-- The bytes the kernel takes of those offered. -/
def taken : WriteResult → List Byte → List Byte
  | accepts count, offered => offered.take count
  | fails _, _ => []

/-- The bytes left of those offered. -/
def remaining (r : WriteResult) (offered : List Byte) : List Byte :=
  offered.drop (r.taken offered).length

/-- The return value of `write`. -/
def ret : WriteResult → List Byte → ℤ
  | accepts count, offered => (offered.take count).length
  | fails _, _ => -1

theorem taken_prefix (r : WriteResult) (offered : List Byte) : r.taken offered <+: offered := by
  cases r with
  | accepts count => exact List.take_prefix _ _
  | fails e => exact List.nil_prefix

/-- What is taken and what is left make up what was offered. -/
theorem taken_append_remaining (r : WriteResult) (offered : List Byte) :
    r.taken offered ++ r.remaining offered = offered :=
  List.prefix_iff_eq_append.mp (r.taken_prefix offered)

theorem length_remaining_le (r : WriteResult) (offered : List Byte) :
    (r.remaining offered).length ≤ offered.length := by
  rw [remaining, List.length_drop]
  exact Nat.sub_le _ _

end WriteResult

/-- The answer to a `read`; no bytes stand for end of file. -/
inductive ReadResult
  | data (bytes : List Byte)
  | fails (e : Errno)
  deriving DecidableEq, Repr

end Twnl
