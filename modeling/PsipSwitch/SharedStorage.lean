import Mathlib.Data.List.OfFn
import Mathlib.Data.List.Nodup
import PsipSwitch.Lib.Sweep
import PsipSwitch.Frame

/-! The storage all threads share, one structure under one mutex. Times are the
nanoseconds of `steady_clock`, durations are milliseconds, and both are 64-bit
signed in the program: sums and conversions wrap. -/
namespace PsipSwitch

namespace Settings
def defaultMacTimeout : Int := 30000
def defaultSentPacketTimeout : Int := 300000
def defaultSessionTimeout : Int := 30000
def defaultHostname : Text := text "Switch"
def restUsername : Text := text "root"
def restPassword : Text := text "root"
def tokenLength : Nat := 32
end Settings

def int64 (n : Int) : Int := (n + 9223372036854775808) % 18446744073709551616 - 9223372036854775808

theorem int64Exact {n : Int} (low : -9223372036854775808 ≤ n) (high : n < 9223372036854775808) :
    int64 n = n := by
  unfold int64
  omega

def nanoseconds (ms : Int) : Int := int64 (ms * 1000000)

def timePlus (start ms : Int) : Int := int64 (start + nanoseconds ms)

structure Timeout where
  start : Int
  duration : Int
  deriving DecidableEq, Repr

namespace Timeout

def expired (t : Timeout) (now : Int) : Bool := decide (timePlus t.start t.duration < now)

def reset (t : Timeout) (now : Int) : Timeout := { t with start := now }

def timeLeft (t : Timeout) (now : Int) : Int := (int64 (timePlus t.start t.duration - now)).tdiv 1000000

theorem expiredMono {t : Timeout} {now later : Int} (order : now ≤ later)
    (fresh : t.expired later = false) : t.expired now = false := by
  simp only [expired, decide_eq_false_iff_not] at fresh ⊢
  omega

/- Neither the conversion to nanoseconds nor the sum leaves the range of the clock. -/
structure Fits (t : Timeout) : Prop where
  span : -9223372036854775808 ≤ t.duration * 1000000 ∧ t.duration * 1000000 < 9223372036854775808
  sum : -9223372036854775808 ≤ t.start + t.duration * 1000000 ∧
    t.start + t.duration * 1000000 < 9223372036854775808

theorem Fits.timePlus {t : Timeout} (fits : t.Fits) : timePlus t.start t.duration = t.start + t.duration * 1000000 := by
  have span : nanoseconds t.duration = t.duration * 1000000 := int64Exact fits.span.1 fits.span.2
  rw [PsipSwitch.timePlus, span]
  exact int64Exact fits.sum.1 fits.sum.2

end Timeout

structure StatisticEntry where
  input : Int32
  output : Int32
  deriving DecidableEq, Repr

structure StatisticKey where
  protocol : Protocol
  target : Interface
  deriving DecidableEq, Repr

namespace StatisticKey

/- The sum is unsigned and is then read as a signed number. -/
def value (key : StatisticKey) : Int := (key.target.id + key.protocol.number).toInt32.toInt

theorem valueIff {a b : StatisticKey} :
    value a = value b ↔ a.target.id + a.protocol.number = b.target.id + b.protocol.number := by
  constructor
  · intro same
    have back := congrArg Int32.toUInt32 (Int32.toInt_inj.mp same)
    simpa only [UInt32.toUInt32_toInt32] using back
  · intro same
    simp only [value, same]

end StatisticKey

abbrev StatisticsTable := OrderedTable StatisticKey.value StatisticEntry

def protocolToString : Protocol → Text
  | .ethernetII => text "EthernetII"
  | .arp => text "ARP"
  | .ip => text "IP"
  | .tcp => text "TCP"
  | .udp => text "UDP"
  | .icmp => text "ICMP"
  | .http => text "HTTP"

/- One draw of the token generator, from 0 to 64 with both ends. -/
def tokenChar (result : Nat) : Char :=
  if result < 10 then Char.ofNat (result + 48)
  else if result < 36 then Char.ofNat (result - 10 + 97)
  else if result < 62 then Char.ofNat (result - 36 + 65)
  else if result % 2 = 0 then '-' else '_'

abbrev Draws := Fin Settings.tokenLength → Fin 65

structure Session where
  token : Text
  expiration : Timeout
  deriving DecidableEq, Repr

def Session.create (draws : Draws) (now : Int) : Session :=
  ⟨(List.ofFn draws).map (fun result => tokenChar result.val), ⟨now, Settings.defaultSessionTimeout⟩⟩

def Session.getToken (session : Session) : Text := session.token

structure MacEntry where
  interface : Interface
  expiration : Timeout
  deriving DecidableEq, Repr

abbrev MacTable := OrderedTable MacAddress.rank MacEntry

structure DeviceInfo where
  hostname : Text
  defaultMacTimeout : Int
  deriving DecidableEq, Repr

structure ThreadControl where
  running : Bool
  finished : Bool
  deriving DecidableEq, Repr

structure InterfaceEntry where
  control : ThreadControl
  up : Bool
  name : Text
  deriving DecidableEq, Repr

def InterfaceEntry.blank : InterfaceEntry := ⟨⟨false, false⟩, false, []⟩

abbrev InterfaceTable := OrderedTable Interface.rank InterfaceEntry

structure Packet where
  data : List UInt8
  expiration : Timeout
  deriving DecidableEq, Repr

namespace Packet

def ofPdu (packet : Frame) (now : Int) : Packet :=
  ⟨packet.serialize, ⟨now, Settings.defaultSentPacketTimeout⟩⟩

/- `operator==`: the expiration takes no part. -/
def same (a b : Packet) : Bool := a.data == b.data

def hashStep (hash : UInt64) (byte : UInt8) : UInt64 :=
  hash ^^^ (byte.toUInt64 + (73 : UInt64) + (hash >>> (1 : UInt64)) + (hash <<< (3 : UInt64)))

def hash (packet : Packet) : UInt64 := packet.data.foldl hashStep packet.data.length.toUInt64

/- An unordered set tells two packets apart by their hashes first. -/
def equivalent (a b : Packet) : Bool := a.hash == b.hash && a.same b

theorem equivalentIff {a b : Packet} : a.equivalent b = true ↔ a.data = b.data := by
  simp only [equivalent, same, Bool.and_eq_true, beq_iff_eq, and_iff_right_iff_imp]
  intro bytes
  simp only [hash, bytes]

end Packet

structure PacketTable where
  packets : List Packet
  distinct : packets.Pairwise (fun a b => a.data ≠ b.data)

namespace PacketTable

@[ext] theorem ext {s t : PacketTable} (same : s.packets = t.packets) : s = t := by
  cases s; cases t; cases same; rfl

instance : DecidableEq PacketTable := fun s t =>
  decidable_of_iff (s.packets = t.packets) ⟨ext, congrArg packets⟩

def empty : PacketTable := ⟨[], .nil⟩

def count (t : PacketTable) (packet : Packet) : Nat := t.packets.countP (fun q => q.equivalent packet)

theorem countIff {t : PacketTable} {packet : Packet} :
    t.count packet = 1 ↔ ∃ q ∈ t.packets, q.data = packet.data := by
  have few : ∀ ps : List Packet, ps.Pairwise (fun a b => a.data ≠ b.data) →
      ps.countP (fun q => q.equivalent packet) ≤ 1 := by
    intro ps distinct
    induction ps with
    | nil => simp
    | cons p rest ih =>
      obtain ⟨differ, tail⟩ := List.pairwise_cons.mp distinct
      rw [List.countP_cons]
      split
      · rename_i hit
        have none : rest.countP (fun q => q.equivalent packet) = 0 := by
          refine List.countP_eq_zero.mpr ?_
          intro q member twice
          have here := Packet.equivalentIff.mp hit
          exact differ q member (here.trans (Packet.equivalentIff.mp twice).symm)
        omega
      · exact ih tail
  have positive : 0 < t.count packet ↔ ∃ q ∈ t.packets, q.data = packet.data := by
    simp only [count, List.countP_pos_iff, Packet.equivalentIff]
  have bound : t.count packet ≤ 1 := few t.packets t.distinct
  rw [← positive]
  omega

def insert (t : PacketTable) (packet : Packet) : PacketTable :=
  if fresh : t.count packet = 0 then
    ⟨packet :: t.packets, List.pairwise_cons.mpr ⟨by
      intro q member bytes
      have none := List.countP_eq_zero.mp fresh q member
      exact none (Packet.equivalentIff.mpr bytes.symm), t.distinct⟩⟩
  else t

theorem insertFresh {t : PacketTable} {packet : Packet} (fresh : t.count packet ≠ 1) :
    (t.insert packet).packets = packet :: t.packets := by
  have zero : t.count packet = 0 := by
    refine List.countP_eq_zero.mpr ?_
    intro q member hit
    exact fresh (countIff.mpr ⟨q, member, Packet.equivalentIff.mp hit⟩)
  simp only [insert, dif_pos zero]

theorem insertKeeps {t : PacketTable} {packet q : Packet} (member : q ∈ t.packets) :
    q ∈ (t.insert packet).packets := by
  unfold insert
  split
  · exact List.mem_cons_of_mem _ member
  · exact member

theorem memInsert {t : PacketTable} {packet q : Packet} (member : q ∈ (t.insert packet).packets) :
    q ∈ t.packets ∨ q = packet := by
  unfold insert at member
  split at member
  · exact (List.mem_cons.mp member).symm
  · exact .inl member

def shrink (t : PacketTable) (ps : List Packet) (sub : ps.Sublist t.packets) : PacketTable :=
  ⟨ps, t.distinct.sublist sub⟩

end PacketTable

structure SharedStorage where
  macTable : MacTable
  statisticsTable : StatisticsTable
  sessions : List Session
  deviceInfo : DeviceInfo
  restThread : ThreadControl
  interfaces : InterfaceTable
  sentPackets : PacketTable
  deriving DecidableEq

namespace SharedStorage

/- The control flags of the REST thread are not touched. -/
def reset (s : SharedStorage) : SharedStorage :=
  { s with
    macTable := .empty
    statisticsTable := .empty
    sessions := []
    deviceInfo := ⟨Settings.defaultHostname, Settings.defaultMacTimeout⟩
    sentPackets := .empty
    interfaces := .empty }

/- `SharedStorage()`, after its own `reset`. -/
def initial : SharedStorage where
  macTable := .empty
  statisticsTable := .empty
  sessions := []
  deviceInfo := ⟨Settings.defaultHostname, Settings.defaultMacTimeout⟩
  restThread := ⟨false, false⟩
  interfaces := .empty
  sentPackets := .empty

def setInterface (s : SharedStorage) (net : Interface) (f : InterfaceEntry → InterfaceEntry) : SharedStorage :=
  { s with interfaces := s.interfaces.update net (fun old => f (old.getD .blank)) }

/- `interfaces[net]` as a value that is read: the entry is there afterwards. -/
def touch (s : SharedStorage) (net : Interface) : SharedStorage := s.setInterface net id

def interface (s : SharedStorage) (net : Interface) : InterfaceEntry := (s.interfaces.find? net).getD .blank

def Registered (s : SharedStorage) (net : Interface) : Prop := net ∈ s.interfaces.keys
instance (s net) : Decidable (Registered s net) := by unfold Registered; infer_instance

theorem registeredIff {s : SharedStorage} {net : Interface} :
    s.Registered net ↔ s.interfaces.contains net = true := by
  rw [OrderedTable.containsIff]
  constructor
  · exact fun member => ⟨net, member, rfl⟩
  · rintro ⟨k, member, same⟩
    exact Interface.rankInjective same ▸ member

theorem registeredFind {s : SharedStorage} {net : Interface} (registered : s.Registered net) :
    s.interfaces.find? net = some (s.interface net) := by
  obtain ⟨entry, found⟩ := OrderedTable.findOfKey registered
  simp only [interface, found, Option.getD_some]

theorem setInterfaceIdle {s : SharedStorage} {net : Interface} {f : InterfaceEntry → InterfaceEntry}
    (registered : s.Registered net) (idle : f (s.interface net) = s.interface net) : s.setInterface net f = s := by
  have same := OrderedTable.updateIdle (f := fun old => f (old.getD .blank)) (registeredFind registered) idle
  rw [setInterface, same]

theorem touchRegistered {s : SharedStorage} {net : Interface} (registered : s.Registered net) : s.touch net = s :=
  setInterfaceIdle registered rfl

theorem setInterfaceSame (s : SharedStorage) (net : Interface) (f : InterfaceEntry → InterfaceEntry) :
    (s.setInterface net f).interface net = f (s.interface net) := by
  simp only [setInterface, interface, OrderedTable.findUpdateSelf, Option.getD_some]

theorem setInterfaceFind (s : SharedStorage) (net : Interface) (f : InterfaceEntry → InterfaceEntry) :
    (s.setInterface net f).interfaces.find? net = some (f (s.interface net)) := by
  simp only [setInterface, interface, OrderedTable.findUpdateSelf]

theorem setInterfaceFindOther (s : SharedStorage) {net other : Interface}
    (f : InterfaceEntry → InterfaceEntry) (different : other ≠ net) :
    (s.setInterface net f).interfaces.find? other = s.interfaces.find? other :=
  OrderedTable.findUpdateOther _ _ (fun same => different (Interface.rankInjective same))

theorem touchInterface (s : SharedStorage) (net other : Interface) : (s.touch net).interface other = s.interface other := by
  by_cases here : other = net
  · rw [here, touch, setInterfaceSame, id]
  · rw [interface, touch, setInterfaceFindOther s id here]
    rfl

theorem touchTwice (s : SharedStorage) (net : Interface) : (s.touch net).touch net = s.touch net := by
  simp only [touch, setInterface, OrderedTable.updateTwice, Option.getD_some, id]

theorem setInterfaceKeys {s : SharedStorage} {net : Interface} (f : InterfaceEntry → InterfaceEntry)
    (registered : s.Registered net) : (s.setInterface net f).interfaces.keys = s.interfaces.keys :=
  OrderedTable.updateKeys _ (registeredIff.mp registered)

theorem setInterfaceRegistered {s : SharedStorage} {net other : Interface}
    (f : InterfaceEntry → InterfaceEntry) (registered : s.Registered other) :
    (s.setInterface net f).Registered other := OrderedTable.keysKept _ registered

theorem setInterfaceRegisteredIff {s : SharedStorage} {net other : Interface} (f : InterfaceEntry → InterfaceEntry)
    (registered : s.Registered net) : (s.setInterface net f).Registered other ↔ s.Registered other := by
  rw [Registered, Registered, setInterfaceKeys f registered]

theorem setInterfaceRegisters (s : SharedStorage) (net : Interface) (f : InterfaceEntry → InterfaceEntry) :
    (s.setInterface net f).Registered net := by
  rw [registeredIff, OrderedTable.contains, setInterfaceFind]
  rfl

theorem registeredOfSet {s : SharedStorage} {net other : Interface} {f : InterfaceEntry → InterfaceEntry}
    (registered : (s.setInterface net f).Registered other) : other = net ∨ s.Registered other :=
  OrderedTable.keysUpdate registered

end SharedStorage
end PsipSwitch
