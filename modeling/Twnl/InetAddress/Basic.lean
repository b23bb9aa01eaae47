import Twnl.InetAddress.Text

/-!
# Socket addresses

An `InetAddress` is a union of the address structures of the two families. Both begin with the
family and the port. Where the one has its address, of four bytes, the other has its flow label, and
the fill behind it is the first half of the address of the other.

What an address stands for is an `Endpoint`: an address of one of the two kinds and a port. Its text
fits the buffer that it is printed to, and it says neither less nor more than the endpoint
(`toIpPort_eq_iff`). An address that is made from the text of another one has its endpoint
(`ofText_endpoint`), and the text that an address of four bytes was made from is its text if it is
one at all (`toIp_ofText_iff`).
-/

namespace Twnl

open Machine Fields

def AF_INET : UInt16 := 2

def AF_INET6 : UInt16 := 10

/-- `sockaddr_in` and `sockaddr_in6` in one memory. -/
structure InetAddress where
  family : UInt16
  /-- In the order of the network. -/
  sin_port : Byte × Byte
  /-- Or `sin6_flowinfo`. -/
  sin_addr : Vector Byte 4
  /-- Of which the first half is `sin_zero`. -/
  sin6_addr : Vector UInt16 8
  sin6_scope_id : UInt32
  deriving DecidableEq, Repr

namespace InetAddress

/-! ## Constructors -/

/-- `memset(&addr6_, 0, sizeof addr6_)`. -/
def zero : InetAddress where
  family := 0
  sin_port := (0, 0)
  sin_addr := #v[0, 0, 0, 0]
  sin6_addr := #v[0, 0, 0, 0, 0, 0, 0, 0]
  sin6_scope_id := 0

/-- `memset(&addr_, 0, sizeof addr_)`, which leaves what is behind the shorter structure. -/
def clear (memory : InetAddress) : InetAddress :=
  { memory with
    family := 0
    sin_port := (0, 0)
    sin_addr := #v[0, 0, 0, 0]
    sin6_addr := #v[0, 0, 0, 0, memory.sin6_addr[4], memory.sin6_addr[5], memory.sin6_addr[6],
      memory.sin6_addr[7]] }

def kInaddrAny : Vector Byte 4 := #v[0, 0, 0, 0]

def kInaddrLoopback : Vector Byte 4 := #v[127, 0, 0, 1]

def in6addr_any : Vector UInt16 8 := #v[0, 0, 0, 0, 0, 0, 0, 0]

def in6addr_loopback : Vector UInt16 8 := #v[0, 0, 0, 0, 0, 0, 0, 1]

/-- Constructed in some memory. -/
def new (memory : InetAddress) (port : UInt16) (loopbackOnly ipv6 : Bool) : InetAddress :=
  if ipv6 then
    { zero with
      family := AF_INET6
      sin6_addr := if loopbackOnly then in6addr_loopback else in6addr_any
      sin_port := htobe16 port }
  else
    { memory.clear with
      family := AF_INET
      sin_addr := if loopbackOnly then kInaddrLoopback else kInaddrAny
      sin_port := htobe16 port }

/-- Constructed from a text. If that is not an address, nothing is written for it. -/
def ofText (memory : InetAddress) (ip : List Char) (port : UInt16) (ipv6 : Bool) : InetAddress :=
  if ipv6 then
    { zero with
      family := AF_INET6
      sin_port := htobe16 port
      sin6_addr := (inetPton6 (cStr ip)).getD zero.sin6_addr }
  else
    { memory.clear with
      family := AF_INET
      sin_port := htobe16 port
      sin_addr := (inetPton4 (cStr ip)).getD memory.clear.sin_addr }

def setScopeId (a : InetAddress) (scope_id : UInt32) : InetAddress :=
  if a.family = AF_INET6 then { a with sin6_scope_id := scope_id } else a

/-! ## Texts -/

/-- A buffer of that size, which `inet_ntop` leaves empty when a text does not fit. -/
def ntop (size : ℕ) (text : List Char) : List Char := if text.length < size then text else []

def toIp (a : InetAddress) : List Char :=
  if a.family = AF_INET6 then ntop 64 (inetNtop6 a.sin6_addr) else ntop 64 (inetNtop4 a.sin_addr)

/-- `toIp`, and the port behind it in what is left of the buffer. -/
def toIpPort (a : InetAddress) : List Char :=
  let ip := a.toIp
  ip ++ snprintf (64 - ip.length) (':' :: decimalDigits (be16toh a.sin_port).toNat)

def portNetEndian (a : InetAddress) : Byte × Byte := a.sin_port

def toPort (a : InetAddress) : UInt16 := be16toh a.portNetEndian

end InetAddress

/-! ## Endpoints -/

inductive Ip
  | v4 (addr : Vector Byte 4)
  | v6 (addr : Vector UInt16 8)
  deriving DecidableEq, Repr

/-- What an address stands for. -/
structure Endpoint where
  ip : Ip
  port : UInt16
  deriving DecidableEq, Repr

def Ip.text : Ip → List Char
  | v4 addr => inetNtop4 addr
  | v6 addr => inetNtop6 addr

def Endpoint.text (e : Endpoint) : List Char := e.ip.text ++ ':' :: decimalDigits e.port.toNat

/-- A family other than that of the long addresses is taken for that of the short ones. -/
def InetAddress.ip (a : InetAddress) : Ip :=
  if a.family = AF_INET6 then .v6 a.sin6_addr else .v4 a.sin_addr

def InetAddress.endpoint (a : InetAddress) : Endpoint := ⟨a.ip, a.toPort⟩

/-- The two kinds of text are told apart by the colons. -/
theorem Ip.colon_mem_text (addr : Vector UInt16 8) : ':' ∈ (Ip.v6 addr).text :=
  colon_mem_inetNtop6 addr

theorem Ip.text_inj {i j : Ip} (h : i.text = j.text) : i = j := by
  cases i with
  | v4 addr =>
    cases j with
    | v4 addr' =>
      have hread := inetPton4_inetNtop4 addr
      rw [show inetNtop4 addr = inetNtop4 addr' from h, inetPton4_inetNtop4] at hread
      exact congrArg v4 (Option.some.inj hread).symm
    | v6 addr' =>
      have hcolon := colon_mem_text addr'
      rw [← h] at hcolon
      exact absurd hcolon (notMem_inetNtop4 separates_colon addr)
  | v6 addr =>
    cases j with
    | v4 addr' =>
      have hcolon := colon_mem_text addr
      rw [h] at hcolon
      exact absurd hcolon (notMem_inetNtop4 separates_colon addr')
    | v6 addr' =>
      have hread := inetPton6_inetNtop6 addr
      rw [show inetNtop6 addr = inetNtop6 addr' from h, inetPton6_inetNtop6] at hread
      exact congrArg v6 (Option.some.inj hread).symm

/-- The port is behind the last colon. -/
theorem Endpoint.text_inj {e f : Endpoint} (h : e.text = f.text) : e = f := by
  have hport (n : ℕ) : ':' ∉ decimalDigits n := notMem_decimalDigits (by decide) n
  obtain ⟨hip, hdigits⟩ := append_cons_inj (hport _) (hport _) h
  have heq : e.port = f.port := UInt16.toNat_inj.mp (decimalDigits_inj hdigits)
  cases e with
  | mk ip port =>
    cases f with
    | mk ip' port' => exact congrArg₂ Endpoint.mk (Ip.text_inj hip) heq

theorem Ip.notMem_text {c : Char} (h : Separates c) (hcolon : c ≠ ':') (i : Ip) : c ∉ i.text := by
  cases i with
  | v4 addr => exact notMem_inetNtop4 h addr
  | v6 addr => exact notMem_intercalate hcolon (notMem_fieldsOf h _ _ _)

theorem Ip.length_text_le (i : Ip) : i.text.length ≤ 39 := by
  cases i with
  | v4 addr => exact Nat.le_trans (length_inetNtop4_le addr) (by decide)
  | v6 addr => exact length_inetNtop6_le addr

theorem length_port_le (port : UInt16) : (decimalDigits port.toNat).length ≤ 5 := by
  have hlt := port.toNat_lt
  rw [decimalDigits_eq, List.length_map]
  exact Numeral.length_numeral_le (by decide) (by decide) (by omega)

namespace InetAddress

variable {a b : InetAddress}

/-- The text of the address fits. -/
theorem toIp_eq (a : InetAddress) : a.toIp = a.ip.text := by
  rw [toIp, ip]
  split
  · exact if_pos (Nat.lt_of_le_of_lt (Ip.length_text_le (.v6 _)) (by decide))
  · exact if_pos (Nat.lt_of_le_of_lt (Ip.length_text_le (.v4 _)) (by decide))

/-- The port fits behind it. -/
theorem toIpPort_eq (a : InetAddress) : a.toIpPort = a.endpoint.text := by
  have hip := Ip.length_text_le a.ip
  have hport := length_port_le a.toPort
  have hlength : (':' :: decimalDigits a.toPort.toNat).length ≤ 64 - a.ip.text.length - 1 := by
    rw [List.length_cons]
    omega
  change a.toIp ++ snprintf (64 - a.toIp.length) (':' :: decimalDigits a.toPort.toNat) = _
  rw [toIp_eq, snprintf, List.take_of_length_le hlength]
  rfl

theorem toIpPort_inj : a.toIpPort = b.toIpPort ↔ a.endpoint = b.endpoint := by
  rw [toIpPort_eq, toIpPort_eq]
  constructor
  · intro h
    exact Endpoint.text_inj h
  · intro h
    rw [h]

/-- **The text of an address.** Two addresses have the same text exactly when they have the same
endpoint; and the text is that of the endpoint, which the buffer has room for with the NUL behind
it. -/
theorem toIpPort_eq_iff (a b : InetAddress) :
    (a.toIpPort = b.toIpPort ↔ a.endpoint = b.endpoint) ∧
      a.toIpPort = a.endpoint.text ∧ a.endpoint.text.length < 64 := by
  refine ⟨toIpPort_inj, toIpPort_eq a, ?_⟩
  have hip := Ip.length_text_le a.ip
  have hport := length_port_le a.toPort
  change (a.ip.text ++ ':' :: decimalDigits a.toPort.toNat).length < 64
  rw [List.length_append, List.length_cons]
  omega

/-! ## What an address stands for -/

/-- Nothing of what was in memory is left in an endpoint. -/
theorem new_endpoint (memory : InetAddress) (port : UInt16) (loopbackOnly ipv6 : Bool) :
    (new memory port loopbackOnly ipv6).endpoint =
      ⟨if ipv6 then .v6 (if loopbackOnly then in6addr_loopback else in6addr_any)
        else .v4 (if loopbackOnly then kInaddrLoopback else kInaddrAny), port⟩ := by
  have hport : be16toh (htobe16 port) = port := be16toh_htobe16 port
  cases ipv6 with
  | true => exact congrArg (Endpoint.mk _) hport
  | false => exact congrArg (Endpoint.mk _) hport

theorem setScopeId_endpoint (a : InetAddress) (scope_id : UInt32) :
    (a.setScopeId scope_id).endpoint = a.endpoint := by
  rw [setScopeId]
  split
  · rfl
  · rfl

/-! ## From a text -/

theorem cStr_text (i : Ip) : cStr i.text = i.text := by
  refine List.takeWhile_eq_self_iff.mpr fun c hmem ↦ decide_eq_true ?_
  rintro rfl
  exact Ip.notMem_text ⟨by decide, by decide⟩ (by decide) i hmem

/-- **To a text and back.** An address that is made from the text of another has its endpoint,
whatever was in memory. -/
theorem ofText_endpoint (memory a : InetAddress) :
    (ofText memory a.toIp a.toPort (a.family = AF_INET6)).endpoint = a.endpoint := by
  have hport : be16toh (htobe16 a.toPort) = a.toPort := be16toh_htobe16 _
  rw [toIp_eq, ofText, cStr_text]
  by_cases hfamily : a.family = AF_INET6
  · have hip : a.ip = .v6 a.sin6_addr := if_pos hfamily
    rw [if_pos (decide_eq_true hfamily), endpoint, endpoint, hip, Ip.text, inetPton6_inetNtop6,
      Option.getD_some]
    exact congrArg (Endpoint.mk (.v6 a.sin6_addr)) hport
  · have hip : a.ip = .v4 a.sin_addr := if_neg hfamily
    rw [if_neg (by simpa using hfamily), endpoint, endpoint, hip, Ip.text, inetPton4_inetNtop4,
      Option.getD_some]
    exact congrArg (Endpoint.mk (.v4 a.sin_addr)) hport

/-- What an address of four bytes is made from is the text up to its first NUL. -/
theorem toIp_ofText (memory : InetAddress) (text : List Char) (port : UInt16) :
    (ofText memory text port false).toIp =
      if (inetPton4 (cStr text)).isSome then cStr text else "0.0.0.0".toList := by
  rw [toIp_eq]
  change (Ip.v4 ((inetPton4 (cStr text)).getD _)).text = _
  cases haddr : inetPton4 (cStr text) with
  | none => rfl
  | some addr => exact inetNtop4_of_inetPton4 haddr

/-- **From a text and back.** The text that an address of four bytes was made from is its text
exactly when it is the text of an address. Of any text the part up to its first NUL is taken, if
that is the text of an address, and otherwise `0.0.0.0`. -/
theorem toIp_ofText_iff (memory : InetAddress) (text : List Char) (port : UInt16) :
    ((ofText memory text port false).toIp = text ↔ (inetPton4 text).isSome = true) ∧
      (ofText memory text port false).toIp =
        if (inetPton4 (cStr text)).isSome then cStr text else "0.0.0.0".toList := by
  refine ⟨⟨fun h ↦ ?_, fun h ↦ ?_⟩, toIp_ofText memory text port⟩
  · rw [← h, toIp_eq]
    exact Option.isSome_iff_exists.mpr ⟨_, inetPton4_inetNtop4 _⟩
  · obtain ⟨addr, haddr⟩ := Option.isSome_iff_exists.mp h
    have hcStr : cStr text = text := by
      rw [← inetNtop4_of_inetPton4 haddr]
      exact cStr_text (.v4 addr)
    rw [toIp_ofText, hcStr, if_pos h]

end InetAddress

/-! ## Both ends of a connection -/

namespace sockets

open InetAddress

/-- `getsockname` into a structure of zeros, which stays as it is when that fails. -/
def getLocalAddr (sockname : Option InetAddress) : InetAddress := sockname.getD zero

/-- The same with `getpeername`. -/
def getPeerAddr (peername : Option InetAddress) : InetAddress := peername.getD zero

def isSelfConnect (sockname peername : Option InetAddress) : Bool :=
  let localaddr := getLocalAddr sockname
  let peeraddr := getPeerAddr peername
  if localaddr.family = AF_INET then
    localaddr.sin_port = peeraddr.sin_port && localaddr.sin_addr = peeraddr.sin_addr
  else if localaddr.family = AF_INET6 then
    localaddr.sin_port = peeraddr.sin_port && localaddr.sin6_addr = peeraddr.sin6_addr
  else false

theorem sin_port_eq_iff (a b : InetAddress) : a.sin_port = b.sin_port ↔ a.toPort = b.toPort := by
  constructor
  · intro h
    exact congrArg be16toh h
  · intro h
    rw [← htobe16_be16toh a.sin_port, ← htobe16_be16toh b.sin_port]
    exact congrArg htobe16 h

theorem isSelfConnect_some {a b : InetAddress} (hsame : b.family = a.family) :
    isSelfConnect (some a) (some b) = true ↔
      (a.family = AF_INET ∨ a.family = AF_INET6) ∧ a.toIpPort = b.toIpPort := by
  have hports := sin_port_eq_iff a b
  rw [toIpPort_inj, endpoint, endpoint, Endpoint.mk.injEq, ip, ip, hsame]
  change (if a.family = AF_INET then decide (a.sin_port = b.sin_port) && decide (a.sin_addr = _)
    else if a.family = AF_INET6 then decide (a.sin_port = b.sin_port) && decide (a.sin6_addr = _)
    else false) = true ↔ _
  by_cases hv4 : a.family = AF_INET
  · have hne : a.family ≠ AF_INET6 := by
      rw [hv4]
      decide
    rw [if_pos hv4, if_neg hne, if_neg hne, Bool.and_eq_true, decide_eq_true_iff,
      decide_eq_true_iff, hports, Ip.v4.injEq, and_iff_right (Or.inl hv4)]
    exact and_comm
  · rw [if_neg hv4]
    by_cases hv6 : a.family = AF_INET6
    · rw [if_pos hv6, if_pos hv6, if_pos hv6, Bool.and_eq_true, decide_eq_true_iff,
        decide_eq_true_iff, hports, Ip.v6.injEq, and_iff_right (Or.inr hv6)]
      exact and_comm
    · rw [if_neg hv6]
      exact iff_of_false Bool.false_ne_true fun h ↦ h.1.elim hv4 hv6

/-- A port is not that of zeros. -/
theorem isSelfConnect_none {a : InetAddress} (hport : a.toPort ≠ 0) :
    isSelfConnect (some a) none = false := by
  have hne : a.sin_port ≠ zero.sin_port := by
    intro h
    exact hport ((sin_port_eq_iff a zero).mp h)
  change (if a.family = AF_INET then decide (a.sin_port = zero.sin_port) && _
    else if a.family = AF_INET6 then decide (a.sin_port = zero.sin_port) && _ else false) = false
  rw [decide_eq_false hne, Bool.false_and, Bool.false_and, ite_self, ite_self]

/-- **Connected to itself.** A socket that has a port is found to be connected to itself exactly
when both its addresses are known, are of one of the two families, and have the same text. -/
theorem isSelfConnect_iff {sockname peername : Option InetAddress}
    (hport : ∀ a, sockname = some a → a.toPort ≠ 0)
    (hsame : ∀ a b, sockname = some a → peername = some b → b.family = a.family) :
    isSelfConnect sockname peername = true ↔ ∃ a b, sockname = some a ∧ peername = some b ∧
      (a.family = AF_INET ∨ a.family = AF_INET6) ∧ a.toIpPort = b.toIpPort := by
  cases sockname with
  | none =>
    refine iff_of_false Bool.false_ne_true ?_
    rintro ⟨a, -, ha, -⟩
    exact Option.some_ne_none a ha.symm
  | some a =>
    cases peername with
    | none =>
      rw [isSelfConnect_none (hport a rfl)]
      refine iff_of_false Bool.false_ne_true ?_
      rintro ⟨-, b, -, hb, -⟩
      exact Option.some_ne_none b hb.symm
    | some b =>
      rw [isSelfConnect_some (hsame a b rfl rfl)]
      constructor
      · intro h
        exact ⟨a, b, rfl, rfl, h⟩
      · rintro ⟨a', b', ha, hb, h⟩
        obtain rfl := Option.some.inj ha
        obtain rfl := Option.some.inj hb
        exact h

/-- The loopback address with one port, on both ends. -/
theorem isSelfConnect_iff_of_loopback :
    isSelfConnect (some (.new .zero 4000 true false)) (some (.new .zero 4000 true false)) = true ↔
      ∃ a b, some (InetAddress.new .zero 4000 true false) = some a ∧
        some (InetAddress.new .zero 4000 true false) = some b ∧
        (a.family = AF_INET ∨ a.family = AF_INET6) ∧ a.toIpPort = b.toIpPort := by
  refine isSelfConnect_iff ?_ ?_
  · rintro a ha
    obtain rfl := Option.some.inj ha
    decide
  · rintro a b ha hb
    rw [← Option.some.inj ha, ← Option.some.inj hb]

end sockets

end Twnl
