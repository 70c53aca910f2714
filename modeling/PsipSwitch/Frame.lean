import Mathlib.Data.UInt
import Mathlib.Data.BitVec
import PsipSwitch.Lib.OrderedTable

/-! What the switch sees of libtins: interfaces of the host, hardware addresses and
received frames. A frame is its stack of protocol layers with what `size()` and
`serialize()` answer for it; the parser and the encoder are outside this model. -/
namespace PsipSwitch

/- The bytes of a `std::string`, one character each. -/
abbrev Text := List Char

def text (literal : String) : Text := literal.toList

/- `Tins::HWAddress<6>`: six octets, the first one in the highest bits. -/
abbrev MacAddress := BitVec 48

namespace MacAddress

def rank (address : MacAddress) : Nat := address.toNat

def octet (address : MacAddress) (index : Nat) : Nat := (address.toNat / 256 ^ (5 - index)) % 256

def isBroadcast (address : MacAddress) : Bool := address == BitVec.allOnes 48

def hexDigit (n : Nat) : Char := if n < 10 then Char.ofNat (48 + n) else Char.ofNat (87 + n)

def octetText (address : MacAddress) (index : Nat) : Text :=
  [hexDigit (octet address index / 16), hexDigit (octet address index % 16)]

def toText (address : MacAddress) : Text :=
  octetText address 0 ++ text ":" ++ octetText address 1 ++ text ":" ++ octetText address 2 ++ text ":" ++
  octetText address 3 ++ text ":" ++ octetText address 4 ++ text ":" ++ octetText address 5

theorem rankInjective {a b : MacAddress} (same : rank a = rank b) : a = b := BitVec.eq_of_toNat_eq same

/- The broadcast address is a group address: the test that comes second never decides. -/
theorem broadcastIsGroup {a : MacAddress} (all : isBroadcast a = true) : octet a 0 % 2 ≠ 0 := by
  have same : a = BitVec.allOnes 48 := by simpa [isBroadcast] using all
  subst same
  decide

end MacAddress

/- `Tins::NetworkInterface`: the number the kernel knows the interface by. Two of
them are equal when their numbers are. -/
structure Interface where
  id : UInt32
  deriving DecidableEq, Repr

namespace Interface

def rank (net : Interface) : Nat := net.id.toNat

theorem rankInjective {a b : Interface} (same : rank a = rank b) : a = b := by
  cases a; cases b
  simpa [rank, ← UInt32.toNat_inj] using same

end Interface

/- What the operating system answers about interfaces. Address and name are fixed, but an
interface may leave the host and come back: `present` is asked with the reading of the
clock. The constructor from a name throws where `byName` has no answer. -/
structure Host where
  hwAddress : Interface → MacAddress
  name : Interface → Text
  byName : Text → Option Interface
  present : Int → Interface → Bool

inductive Layer where
  | ethernetII (srcAddr dstAddr : MacAddress)
  | arp
  | ip
  | tcp (sport dport : UInt16)
  | udp
  | icmp
  | other
  deriving DecidableEq, Repr

structure Ethernet where
  srcAddr : MacAddress
  dstAddr : MacAddress
  deriving DecidableEq, Repr

structure Tcp where
  sport : UInt16
  dport : UInt16
  deriving DecidableEq, Repr

structure Frame where
  layers : List Layer
  size : Nat
  serialize : List UInt8
  deriving DecidableEq, Repr

namespace Frame

def ethernet? (packet : Frame) : Option Ethernet :=
  packet.layers.findSome? fun
    | .ethernetII src dst => some ⟨src, dst⟩
    | _ => none

def tcp? (packet : Frame) : Option Tcp :=
  packet.layers.findSome? fun
    | .tcp sport dport => some ⟨sport, dport⟩
    | _ => none

def hasArp (packet : Frame) : Bool := packet.layers.any (· == .arp)
def hasIp (packet : Frame) : Bool := packet.layers.any (· == .ip)
def hasUdp (packet : Frame) : Bool := packet.layers.any (· == .udp)
def hasIcmp (packet : Frame) : Bool := packet.layers.any (· == .icmp)

end Frame

inductive Protocol where
  | ethernetII | arp | ip | tcp | udp | icmp | http
  deriving DecidableEq, Repr

namespace Protocol

def number : Protocol → UInt32
  | .ethernetII => 0
  | .arp => 1
  | .ip => 2
  | .tcp => 3
  | .udp => 4
  | .icmp => 5
  | .http => 6

def all : List Protocol := [.ethernetII, .arp, .ip, .tcp, .udp, .icmp, .http]

theorem memAll (p : Protocol) : p ∈ all := by cases p <;> decide

theorem numberInjective {p q : Protocol} (same : p.number = q.number) : p = q := by
  revert same
  cases p <;> cases q <;> decide

theorem numberSmall (p : Protocol) : p.number.toNat < 7 := by cases p <;> decide

theorem ofNumber {n : Nat} (small : n < 7) : ∃ p : Protocol, p.number.toNat = n := by
  match n, small with
  | 0, _ => exact ⟨.ethernetII, rfl⟩
  | 1, _ => exact ⟨.arp, rfl⟩
  | 2, _ => exact ⟨.ip, rfl⟩
  | 3, _ => exact ⟨.tcp, rfl⟩
  | 4, _ => exact ⟨.udp, rfl⟩
  | 5, _ => exact ⟨.icmp, rfl⟩
  | 6, _ => exact ⟨.http, rfl⟩

end Protocol
end PsipSwitch
