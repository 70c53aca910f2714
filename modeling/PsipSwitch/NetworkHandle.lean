import Mathlib.Data.List.Infix
import PsipSwitch.SharedStorage

/-! The receive callback of a network thread. It holds the mutex from its first
look at the storage to its return, so one reception is one step, at one reading
of the clock. Next to the storage it leaves the calls it made, in order. -/
namespace PsipSwitch
namespace NetworkHandle

inductive Call where
  | send (destination : Interface)
  | broadcast
  | outputStatistics (net : Interface)
  | transmit (net : Interface)
  deriving DecidableEq, Repr

def layerTest (packet : Frame) : Protocol → Bool
  | .ethernetII => packet.ethernet?.isSome
  | .arp => packet.hasArp
  | .ip => packet.hasIp
  | .tcp => packet.tcp?.isSome
  | .udp => packet.hasUdp
  | .icmp => packet.hasIcmp
  | .http => false

def inputPorts (tcp : Tcp) : Bool := tcp.sport == 80 || tcp.dport == 80 || tcp.sport == 443 || tcp.dport == 443

def outputPorts (tcp : Tcp) : Bool := tcp.sport == 80 || tcp.dport == 80

/- `rfind_pdu` throws where there is no TCP layer, and the handler swallows it. -/
def portTest (ports : Tcp → Bool) (packet : Frame) : Bool :=
  match packet.tcp? with
  | some tcp => ports tcp
  | none => false

def inputTest (packet : Frame) (p : Protocol) : Bool :=
  if p = .http then portTest inputPorts packet else layerTest packet p

def outputTest (packet : Frame) (p : Protocol) : Bool :=
  if p = .http then portTest outputPorts packet else layerTest packet p

def countOne (increment : StatisticEntry → StatisticEntry) (net : Interface) (p : Protocol)
    (t : StatisticsTable) : StatisticsTable :=
  t.update ⟨p, net⟩ (fun old => increment (old.getD ⟨0, 0⟩))

def countAll (test : Protocol → Bool) (increment : StatisticEntry → StatisticEntry) (net : Interface)
    (ps : List Protocol) (t : StatisticsTable) : StatisticsTable :=
  ps.foldl (fun t p => if test p then countOne increment net p t else t) t

def incrementInput (entry : StatisticEntry) : StatisticEntry := { entry with input := entry.input + 1 }

def incrementOutput (entry : StatisticEntry) : StatisticEntry := { entry with output := entry.output + 1 }

def inputStatistics (packet : Frame) (net : Interface) (s : SharedStorage) : SharedStorage :=
  { s with statisticsTable := countAll (inputTest packet) incrementInput net Protocol.all s.statisticsTable }

def outputStatistics (packet : Frame) (net : Interface) (s : SharedStorage) : SharedStorage :=
  { s with statisticsTable := countAll (outputTest packet) incrementOutput net Protocol.all s.statisticsTable }

def updateMac (me : Interface) (mac : MacAddress) (now : Int) (s : SharedStorage) : SharedStorage :=
  { s with macTable := s.macTable.update mac (fun _ => ⟨me, ⟨now, s.deviceInfo.defaultMacTimeout⟩⟩) }

def recordSent (packet : Frame) (now : Int) (s : SharedStorage) : SharedStorage :=
  { s with sentPackets := s.sentPackets.insert (.ofPdu packet now) }

def jumboToWifi (host : Host) (packet : Frame) (destination : Interface) : Bool :=
  decide (1500 < packet.size) && decide (text "wlo" <:+: host.name destination)

def send (host : Host) (packet : Frame) (destination : Interface) (now : Int) (s : SharedStorage) :
    SharedStorage × List Call :=
  let s := recordSent packet now (outputStatistics packet destination s)
  if jumboToWifi host packet destination then
    (s, [.send destination, .outputStatistics destination])
  else (s, [.send destination, .outputStatistics destination, .transmit destination])

def others (me : Interface) (s : SharedStorage) : List Interface := s.interfaces.keys.filter (· ≠ me)

def broadcast (me : Interface) (packet : Frame) (now : Int) (s : SharedStorage) : SharedStorage × List Call :=
  let s := recordSent packet now s
  ((others me s).foldl (fun s net => outputStatistics packet net s) s,
    .broadcast :: (others me s).flatMap (fun net => [.outputStatistics net, .transmit net]))

inductive Exit where
  | skip
  | send (destination : Interface)
  | broadcast
  deriving DecidableEq, Repr

def unicastExit (host : Host) (me : Interface) (dst : MacAddress) (s : SharedStorage) : Exit :=
  if dst = host.hwAddress me then .skip
  else match s.interfaces.keys.find? (fun net => dst == host.hwAddress net) with
    | some net => .send net
    | none => match s.macTable.find? dst with
      | some entry => if entry.interface = me then .skip else .send entry.interface
      | none => .broadcast

def duplicate (packet : Frame) (now : Int) (s : SharedStorage) : Bool :=
  s.sentPackets.count (.ofPdu packet now) == 1

/- The checks of the callback in their order: the storage they leave and the exit. -/
def select (host : Host) (me : Interface) (now : Int) (packet : Frame) (s : SharedStorage) :
    SharedStorage × Exit :=
  let s := s.touch me
  match packet.ethernet? with
  | none => (s, .skip)
  | some eth =>
    if (s.interface me).up = false then (s, .skip)
    else if duplicate packet now s then (s, .skip)
    else
      let s := inputStatistics packet me s
      if eth.srcAddr = host.hwAddress me then (s, .skip)
      else if MacAddress.octet eth.dstAddr 0 % 2 ≠ 0 then (s, .broadcast)
      else if MacAddress.isBroadcast eth.dstAddr then (s, .broadcast)
      else
        let s := updateMac me eth.srcAddr now s
        (s, unicastExit host me eth.dstAddr s)

def leave (host : Host) (me : Interface) (now : Int) (packet : Frame) :
    SharedStorage × Exit → SharedStorage × List Call
  | (s, .skip) => (s, [])
  | (s, .send destination) => send host packet destination now s
  | (s, .broadcast) => broadcast me packet now s

structure Reception where
  storage : SharedStorage
  calls : List Call
  running : Bool
  deriving DecidableEq

def receive (host : Host) (me : Interface) (now : Int) (packet : Frame) (s : SharedStorage) : Reception :=
  let after := leave host me now packet (select host me now packet s)
  ⟨after.1, after.2, (after.1.interface me).control.running⟩

def start (net : Interface) (s : SharedStorage) : SharedStorage :=
  s.setInterface net (fun _ => ⟨⟨true, false⟩, true, []⟩)

def signalStop (net : Interface) (s : SharedStorage) : SharedStorage :=
  s.setInterface net (fun entry => { entry with control := { entry.control with running := false } })

def finish (net : Interface) (s : SharedStorage) : SharedStorage :=
  s.setInterface net (fun entry => { entry with control := { entry.control with finished := true } })

/-! What a reception can do, said once: it is refused, counted only, flooded as a
group frame, or learned from and sent on as a unicast one. -/

def Accepts (me : Interface) (now : Int) (packet : Frame) (s : SharedStorage) : Prop :=
  packet.ethernet?.isSome = true ∧ (s.interface me).up = true ∧ duplicate packet now s = false
instance (me now packet s) : Decidable (Accepts me now packet s) := by unfold Accepts; infer_instance

def Group (dst : MacAddress) : Prop := MacAddress.octet dst 0 % 2 ≠ 0
instance (dst) : Decidable (Group dst) := by unfold Group; infer_instance

theorem duplicateIff {packet : Frame} {now : Int} {s : SharedStorage} :
    duplicate packet now s = true ↔ ∃ q ∈ s.sentPackets.packets, q.data = packet.serialize := by
  simp only [duplicate, beq_iff_eq]
  exact PacketTable.countIff

inductive Selected (host : Host) (me : Interface) (now : Int) (packet : Frame) (s : SharedStorage) :
    SharedStorage × Exit → Prop where
  | refused (no : ¬ Accepts me now packet s) : Selected host me now packet s (s, .skip)
  | own {eth} (accepted : Accepts me now packet s) (layer : packet.ethernet? = some eth)
      (source : eth.srcAddr = host.hwAddress me) :
      Selected host me now packet s (inputStatistics packet me s, .skip)
  | group {eth} (accepted : Accepts me now packet s) (layer : packet.ethernet? = some eth)
      (source : eth.srcAddr ≠ host.hwAddress me) (group : Group eth.dstAddr) :
      Selected host me now packet s (inputStatistics packet me s, .broadcast)
  | unicast {eth} (accepted : Accepts me now packet s) (layer : packet.ethernet? = some eth)
      (source : eth.srcAddr ≠ host.hwAddress me) (single : ¬ Group eth.dstAddr) :
      Selected host me now packet s
        (updateMac me eth.srcAddr now (inputStatistics packet me s),
          unicastExit host me eth.dstAddr (updateMac me eth.srcAddr now (inputStatistics packet me s)))

section Equations

variable {host : Host} {me : Interface} {now : Int} {packet : Frame} {s : SharedStorage} {eth : Ethernet}

theorem selectRefused (registered : s.Registered me) (no : ¬ Accepts me now packet s) :
    select host me now packet s = (s, .skip) := by
  unfold select
  simp only [SharedStorage.touchRegistered registered]
  split
  · rfl
  · rename_i layer
    split
    · rfl
    · rename_i up
      split
      · rfl
      · rename_i miss
        exact absurd ⟨by simp [layer], by simpa using up, by simpa using miss⟩ no

theorem selectOwn (registered : s.Registered me) (accepted : Accepts me now packet s)
    (layer : packet.ethernet? = some eth) (source : eth.srcAddr = host.hwAddress me) :
    select host me now packet s = (inputStatistics packet me s, .skip) := by
  obtain ⟨_, up, miss⟩ := accepted
  simp [select, SharedStorage.touchRegistered registered, layer, up, miss, source]

theorem selectGroup (registered : s.Registered me) (accepted : Accepts me now packet s)
    (layer : packet.ethernet? = some eth) (source : eth.srcAddr ≠ host.hwAddress me) (group : Group eth.dstAddr) :
    select host me now packet s = (inputStatistics packet me s, .broadcast) := by
  obtain ⟨_, up, miss⟩ := accepted
  have odd : MacAddress.octet eth.dstAddr 0 % 2 ≠ 0 := group
  simp only [select, SharedStorage.touchRegistered registered, layer, up, miss, if_neg source, if_pos odd]
  rfl

theorem selectUnicast (registered : s.Registered me) (accepted : Accepts me now packet s)
    (layer : packet.ethernet? = some eth) (source : eth.srcAddr ≠ host.hwAddress me)
    (single : ¬ Group eth.dstAddr) :
    select host me now packet s = (updateMac me eth.srcAddr now (inputStatistics packet me s),
      unicastExit host me eth.dstAddr (updateMac me eth.srcAddr now (inputStatistics packet me s))) := by
  obtain ⟨_, up, miss⟩ := accepted
  have even : ¬ MacAddress.octet eth.dstAddr 0 % 2 ≠ 0 := single
  have narrow : ¬ MacAddress.isBroadcast eth.dstAddr := fun all => single (MacAddress.broadcastIsGroup all)
  simp only [select, SharedStorage.touchRegistered registered, layer, up, miss, if_neg source, if_neg even,
    if_neg narrow]
  rfl

end Equations

theorem selectSpec (host : Host) (now : Int) (packet : Frame) {me : Interface} {s : SharedStorage}
    (registered : s.Registered me) : Selected host me now packet s (select host me now packet s) := by
  by_cases accepted : Accepts me now packet s
  · obtain ⟨eth, layer⟩ := Option.isSome_iff_exists.mp accepted.1
    by_cases source : eth.srcAddr = host.hwAddress me
    · rw [selectOwn registered accepted layer source]
      exact .own accepted layer source
    · by_cases group : Group eth.dstAddr
      · rw [selectGroup registered accepted layer source group]
        exact .group accepted layer source group
      · rw [selectUnicast registered accepted layer source group]
        exact .unicast accepted layer source group
  · rw [selectRefused registered accepted]
    exact .refused accepted

inductive Chosen (host : Host) (me : Interface) (dst : MacAddress) (s : SharedStorage) : Exit → Prop where
  | own (here : dst = host.hwAddress me) : Chosen host me dst s .skip
  | device {net} (away : dst ≠ host.hwAddress me)
      (found : s.interfaces.keys.find? (fun net => dst == host.hwAddress net) = some net) :
      Chosen host me dst s (.send net)
  | behind {entry} (away : dst ≠ host.hwAddress me)
      (foreign : s.interfaces.keys.find? (fun net => dst == host.hwAddress net) = none)
      (found : s.macTable.find? dst = some entry) (back : entry.interface = me) : Chosen host me dst s .skip
  | known {entry} (away : dst ≠ host.hwAddress me)
      (foreign : s.interfaces.keys.find? (fun net => dst == host.hwAddress net) = none)
      (found : s.macTable.find? dst = some entry) (onward : entry.interface ≠ me) :
      Chosen host me dst s (.send entry.interface)
  | unknown (away : dst ≠ host.hwAddress me)
      (foreign : s.interfaces.keys.find? (fun net => dst == host.hwAddress net) = none)
      (missing : s.macTable.find? dst = none) : Chosen host me dst s .broadcast

theorem unicastExitSpec (host : Host) (me : Interface) (dst : MacAddress) (s : SharedStorage) :
    Chosen host me dst s (unicastExit host me dst s) := by
  unfold unicastExit
  split
  · rename_i here
    exact .own here
  · rename_i away
    split
    · rename_i found
      exact .device away found
    · rename_i foreign
      split
      · rename_i found
        split
        · rename_i back
          exact .behind away foreign found back
        · rename_i onward
          exact .known away foreign found onward
      · rename_i missing
        exact .unknown away foreign missing

def transmitted (calls : List Call) : List Interface := calls.filterMap fun
  | .transmit net => some net
  | _ => none

theorem transmittedSend (host : Host) (packet : Frame) (destination : Interface) (now : Int) (s : SharedStorage) :
    transmitted (send host packet destination now s).2 =
      if jumboToWifi host packet destination then [] else [destination] := by
  unfold send
  split <;> simp [transmitted, *]

theorem transmittedBroadcast (me : Interface) (packet : Frame) (now : Int) (s : SharedStorage) :
    transmitted (broadcast me packet now s).2 = others me s := by
  have pass : ∀ nets : List Interface,
      transmitted (nets.flatMap (fun net => [Call.outputStatistics net, Call.transmit net])) = nets := by
    intro nets
    induction nets with
    | nil => rfl
    | cons net rest ih =>
      simp only [transmitted, List.flatMap_cons, List.filterMap_append] at ih ⊢
      rw [ih]
      rfl
  exact pass (others me (recordSent packet now s))

theorem outputAll (packet : Frame) (nets : List Interface) (s : SharedStorage) :
    nets.foldl (fun s net => outputStatistics packet net s) s =
      { s with
        statisticsTable :=
          nets.foldl (fun t net => countAll (outputTest packet) incrementOutput net Protocol.all t)
            s.statisticsTable } := by
  induction nets generalizing s with
  | nil => rfl
  | cons net rest ih =>
    rw [List.foldl_cons, ih]
    rfl

theorem leaveFrame (host : Host) (me : Interface) (now : Int) (packet : Frame) (s : SharedStorage) (exit : Exit) :
    ∃ stats sent, (leave host me now packet (s, exit)).1 =
      { s with statisticsTable := stats, sentPackets := sent } := by
  cases exit with
  | skip => exact ⟨_, _, rfl⟩
  | send destination =>
    simp only [leave, send]
    split <;> exact ⟨_, _, rfl⟩
  | broadcast =>
    simp only [leave, broadcast, outputAll]
    exact ⟨_, _, rfl⟩

theorem receiveFrame (host : Host) (now : Int) (packet : Frame) {me : Interface} {s : SharedStorage}
    (registered : s.Registered me) :
    ∃ mac stats sent, (receive host me now packet s).storage =
      { s with macTable := mac, statisticsTable := stats, sentPackets := sent } := by
  have selected := selectSpec host now packet registered
  simp only [receive]
  generalize select host me now packet s = result at selected
  cases selected with
  | refused no => exact ⟨_, _, _, rfl⟩
  | own accepted layer source => exact ⟨_, _, _, rfl⟩
  | group accepted layer source group =>
    obtain ⟨stats, sent, same⟩ := leaveFrame host me now packet (inputStatistics packet me s) .broadcast
    exact ⟨_, stats, sent, same⟩
  | unicast accepted layer source single =>
    obtain ⟨stats, sent, same⟩ := leaveFrame host me now packet
      (updateMac me _ now (inputStatistics packet me s)) (unicastExit host me _ _)
    exact ⟨_, stats, sent, same⟩

theorem refusedReceive {host : Host} {me : Interface} {now : Int} {packet : Frame} {s : SharedStorage}
    (registered : s.Registered me) (no : ¬ Accepts me now packet s) :
    (receive host me now packet s).calls = [] ∧ (receive host me now packet s).storage = s := by
  simp only [receive, selectRefused registered no]
  exact ⟨rfl, rfl⟩

theorem selectKeeps (host : Host) (now : Int) (packet : Frame) {me : Interface} {s : SharedStorage}
    (registered : s.Registered me) : (select host me now packet s).1.sentPackets = s.sentPackets ∧
      (select host me now packet s).1.interfaces = s.interfaces := by
  have selected := selectSpec host now packet registered
  generalize select host me now packet s = result at selected
  cases selected with
  | refused no => exact ⟨rfl, rfl⟩
  | own accepted layer source => exact ⟨rfl, rfl⟩
  | group accepted layer source group => exact ⟨rfl, rfl⟩
  | unicast accepted layer source single => exact ⟨rfl, rfl⟩

theorem receiveMac (host : Host) (now : Int) (packet : Frame) {me : Interface} {s : SharedStorage}
    (registered : s.Registered me) :
    (receive host me now packet s).storage.macTable = s.macTable ∨
    ∃ mac, (receive host me now packet s).storage.macTable =
      s.macTable.update mac (fun _ => ⟨me, ⟨now, s.deviceInfo.defaultMacTimeout⟩⟩) := by
  have selected := selectSpec host now packet registered
  have kept : ∀ t exit, (leave host me now packet (t, exit)).1.macTable = t.macTable := by
    intro t exit
    obtain ⟨_, _, same⟩ := leaveFrame host me now packet t exit
    rw [same]
  simp only [receive]
  generalize select host me now packet s = result at selected
  cases selected with
  | refused no => exact .inl (kept _ _)
  | own accepted layer source => exact .inl (kept _ _)
  | group accepted layer source group => exact .inl (kept _ _)
  | unicast accepted layer source single => exact .inr ⟨_, kept _ _⟩

theorem receiveInterfaces (host : Host) (now : Int) (packet : Frame) {me : Interface} {s : SharedStorage}
    (registered : s.Registered me) : (receive host me now packet s).storage.interfaces = s.interfaces := by
  obtain ⟨_, _, _, same⟩ := receiveFrame host now packet registered
  rw [same]

end NetworkHandle
end PsipSwitch
