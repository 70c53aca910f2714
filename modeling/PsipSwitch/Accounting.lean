import PsipSwitch.LoopSuppression
import PsipSwitch.Statistics

/-! What is counted and recorded as sent, and what is sent. `send` counts and records a
frame before it looks at the size; `broadcast` never looks at it. -/
namespace PsipSwitch
namespace Accounting
open NetworkHandle NetworkSwitch SharedStorage Forwarding LoopSuppression

def Coincide (host : Host) (a b : Interface) (now : Int) (packet : Frame) (s : SharedStorage) : Prop :=
  (∀ net, net ∈ transmitted (send host packet b now s).2 ↔ net ∈ transmitted (broadcast a packet now s).2) ∧
  (send host packet b now s).1 = (broadcast a packet now s).1

def Indifferent (host : Host) (a b : Interface) (now : Int) (packet : Frame) (s : SharedStorage) : Prop :=
  ∀ eth expiration, packet.ethernet? = some eth → s.macTable.find? eth.dstAddr = none →
    ∀ net, net ∈ transmitted (receive host a now packet s).calls ↔
      net ∈ transmitted (receive host a now packet
        { s with macTable := s.macTable.update eth.dstAddr (fun _ => ⟨b, expiration⟩) }).calls

def TwoPorts (a b : Interface) (s : SharedStorage) : Prop :=
  a ≠ b ∧ ∀ net, s.Registered net ↔ net = a ∨ net = b

theorem othersTwo {a b : Interface} {s : SharedStorage} (ports : TwoPorts a b s) : others a s = [b] := by
  obtain ⟨different, table⟩ := ports
  have once : (others a s).Nodup := s.interfaces.keysNodup.filter _
  have only : ∀ net ∈ others a s, net = b := by
    intro net member
    obtain ⟨registered, away⟩ := memOthers.mp member
    exact ((table net).mp registered).resolve_left away
  have there : b ∈ others a s := memOthers.mpr ⟨(table b).mpr (.inr rfl), Ne.symm different⟩
  match nets : others a s with
  | [] =>
    rw [nets] at there
    contradiction
  | [net] =>
    rw [nets] at only
    rw [only net List.mem_cons_self]
  | x :: y :: rest =>
    rw [nets] at only once
    have first := only x List.mem_cons_self
    have second := only y (List.mem_cons_of_mem _ List.mem_cons_self)
    subst first second
    simp at once

theorem recordOutput (packet : Frame) (net : Interface) (now : Int) (s : SharedStorage) :
    recordSent packet now (outputStatistics packet net s) = outputStatistics packet net (recordSent packet now s) := rfl

theorem sendStorage (host : Host) (packet : Frame) (destination : Interface) (now : Int) (s : SharedStorage) :
    (send host packet destination now s).1 = recordSent packet now (outputStatistics packet destination s) := by
  unfold send
  split <;> rfl

theorem broadcastTwo {a b : Interface} {s : SharedStorage} (ports : TwoPorts a b s) (packet : Frame) (now : Int) :
    (broadcast a packet now s).1 = outputStatistics packet b (recordSent packet now s) ∧
    transmitted (broadcast a packet now s).2 = [b] := by
  have same : others a (recordSent packet now s) = [b] := othersTwo ports
  refine ⟨?_, ?_⟩
  · simp only [broadcast, same, List.foldl_cons, List.foldl_nil]
  · rw [transmittedBroadcast, othersTwo ports]

theorem coincideIff {host : Host} {a b : Interface} {now : Int} {packet : Frame} {s : SharedStorage}
    (ports : TwoPorts a b s) : Coincide host a b now packet s ↔ jumboToWifi host packet b = false := by
  obtain ⟨storage, flooded⟩ := broadcastTwo ports packet now
  rw [Coincide, storage, flooded, sendStorage, recordOutput, transmittedSend]
  by_cases jumbo : jumboToWifi host packet b = true
  · simp [jumbo]
  · simp [jumbo]

theorem ownCalls {host : Host} {me : Interface} {now : Int} {packet : Frame} {s : SharedStorage} {eth : Ethernet}
    (registered : s.Registered me) (layer : packet.ethernet? = some eth) (source : eth.srcAddr = host.hwAddress me) :
    (receive host me now packet s).calls = [] := by
  by_cases accepted : Accepts me now packet s
  · simp only [receive, selectOwn registered accepted layer source]
    rfl
  · exact (refusedReceive registered accepted).1

def learned (me : Interface) (src : MacAddress) (now : Int) (packet : Frame) (s : SharedStorage) : SharedStorage :=
  NetworkHandle.updateMac me src now (inputStatistics packet me s)

theorem unicastCalls {host : Host} {me : Interface} {now : Int} {packet : Frame} {s : SharedStorage} {eth : Ethernet}
    (registered : s.Registered me) (accepted : Accepts me now packet s) (layer : packet.ethernet? = some eth)
    (source : eth.srcAddr ≠ host.hwAddress me) (single : ¬ Group eth.dstAddr) :
    (receive host me now packet s).calls =
      (leave host me now packet (learned me eth.srcAddr now packet s,
        unicastExit host me eth.dstAddr (learned me eth.srcAddr now packet s))).2 := by
  simp only [receive, selectUnicast registered accepted layer source single]
  rfl

theorem exitsAlike {host : Host} {a b : Interface} {now : Int} {packet : Frame} {dst src : MacAddress}
    {s t : SharedStorage} (ports : TwoPorts a b s) (same : t.interfaces = s.interfaces) (expiration : Timeout)
    (missing : s.macTable.find? dst = none) (known : t.macTable.find? dst = some ⟨b, expiration⟩)
    (normal : jumboToWifi host packet b = false) :
    transmitted (leave host a now packet (learned a src now packet s,
      unicastExit host a dst (learned a src now packet s))).2 =
    transmitted (leave host a now packet (learned a src now packet t,
      unicastExit host a dst (learned a src now packet t))).2 := by
  have tables : (learned a src now packet t).interfaces = (learned a src now packet s).interfaces := same
  have unknown : (learned a src now packet s).macTable.find? dst = _ := findLearned
  have behind : (learned a src now packet t).macTable.find? dst = _ := findLearned
  rw [missing] at unknown
  rw [known] at behind
  unfold unicastExit
  rw [tables, unknown, behind]
  split
  · rfl
  · split
    · simp only [leave, transmittedSend]
    · by_cases itself : dst = src
      · simp only [if_pos itself]
        rfl
      · have flooded : others a (learned a src now packet s) = [b] := othersTwo (s := learned a src now packet s) ports
        simp only [if_neg itself, if_neg (Ne.symm ports.1), leave, transmittedSend, normal, transmittedBroadcast,
          flooded, Bool.false_eq_true, if_false]

theorem indifferent {host : Host} {a b : Interface} {now : Int} {packet : Frame} {s : SharedStorage}
    (ports : TwoPorts a b s) (normal : jumboToWifi host packet b = false) : Indifferent host a b now packet s := by
  intro eth expiration layer missing net
  have registered : s.Registered a := (ports.2 a).mpr (.inl rfl)
  let t : SharedStorage := { s with macTable := s.macTable.update eth.dstAddr (fun _ => ⟨b, expiration⟩) }
  have known : t.macTable.find? eth.dstAddr = some ⟨b, expiration⟩ := OrderedTable.findUpdateSelf _ _ _
  suffices alike : transmitted (receive host a now packet s).calls = transmitted (receive host a now packet t).calls by
    rw [alike]
  by_cases accepted : Accepts a now packet s
  · by_cases source : eth.srcAddr = host.hwAddress a
    · rw [ownCalls registered layer source, ownCalls (s := t) registered layer source]
    · by_cases group : Group eth.dstAddr
      · have second : transmitted (receive host a now packet t).calls = others a t :=
          receiveGroup registered accepted layer source group
        rw [receiveGroup registered accepted layer source group, second]
        rfl
      · rw [unicastCalls registered accepted layer source group,
          unicastCalls (s := t) registered accepted layer source group]
        exact exitsAlike ports rfl expiration missing known normal
  · rw [(refusedReceive registered accepted).1, (refusedReceive (s := t) registered accepted).1]

theorem floodDirected {host : Host} {a b : Interface} {s : SharedStorage} (ports : TwoPorts a b s) (now : Int)
    (packet : Frame) : Coincide host a b now packet s ∧ Indifferent host a b now packet s ↔
      jumboToWifi host packet b = false := by
  constructor
  · intro both
    exact (coincideIff ports).mp both.1
  · intro normal
    exact ⟨(coincideIff ports).mpr normal, indifferent ports normal⟩

def wireless : Host := { bench with name := fun net => if net = ⟨2⟩ then text "wlo1" else bench.name net }

def jumbo : Frame where
  layers := [.ethernetII 9 7, .other]
  size := 1501
  serialize := [0, 0, 0, 0, 0, 7, 0, 0, 0, 0, 0, 9, 8, 0] ++ List.replicate 1487 0

theorem benchPorts : TwoPorts ⟨1⟩ ⟨2⟩ benchStore.storage := by
  have table : benchStore.storage.interfaces.keys = [⟨1⟩, ⟨2⟩] := by decide
  refine ⟨by decide, ?_⟩
  intro net
  simp [Registered, table]

theorem jumboKept : jumboToWifi wireless jumbo ⟨2⟩ = true := by decide

theorem floodDirectedBench : Coincide bench ⟨1⟩ ⟨2⟩ 5 (benchFrame 9 7) benchStore.storage :=
  ((floodDirected benchPorts 5 (benchFrame 9 7)).mpr (by decide)).1

theorem directedWithheld : ¬ ∀ (host : Host) (a b : Interface) (now : Int) (packet : Frame) (s : SharedStorage),
    TwoPorts a b s → Coincide host a b now packet s := by
  intro claim
  have same := (coincideIff benchPorts).mp (claim wireless ⟨1⟩ ⟨2⟩ 5 jumbo benchStore.storage benchPorts)
  rw [jumboKept] at same
  contradiction

structure Accounted (host : Host) (me : Interface) (now : Int) (packet : Frame) (s : SharedStorage) : Prop where
  counted : ∀ net, (receive host me now packet s).calls.count (.outputStatistics net) =
    (receive host me now packet s).calls.count (.transmit net)
  recorded : (receive host me now packet s).storage.sentPackets ≠ s.sentPackets →
    transmitted (receive host me now packet s).calls ≠ []

/- The frame leaves through `send`, to `net`: the interface that has the address, or the
one the table names. -/
def Directed (host : Host) (me : Interface) (now : Int) (packet : Frame) (s : SharedStorage) (net : Interface) : Prop :=
  ∃ eth, packet.ethernet? = some eth ∧ Accepts me now packet s ∧ eth.srcAddr ≠ host.hwAddress me ∧
    ¬ Group eth.dstAddr ∧ eth.dstAddr ≠ host.hwAddress me ∧
    match s.interfaces.keys.find? (fun other => eth.dstAddr == host.hwAddress other) with
    | some device => device = net
    | none => eth.dstAddr ≠ eth.srcAddr ∧ net ≠ me ∧
        ∃ expiration, s.macTable.find? eth.dstAddr = some ⟨net, expiration⟩

def Deliverable (host : Host) (me : Interface) (now : Int) (packet : Frame) (s : SharedStorage) : Prop :=
  ∀ net, Directed host me now packet s net → jumboToWifi host packet net = false

theorem unicastDirected {host : Host} {me net : Interface} {now : Int} {packet : Frame} {dst src : MacAddress}
    {s : SharedStorage} : unicastExit host me dst (learned me src now packet s) = .send net ↔
      dst ≠ host.hwAddress me ∧
      match s.interfaces.keys.find? (fun other => dst == host.hwAddress other) with
      | some device => device = net
      | none => dst ≠ src ∧ net ≠ me ∧ ∃ expiration, s.macTable.find? dst = some ⟨net, expiration⟩ := by
  have tables : (learned me src now packet s).interfaces = s.interfaces := rfl
  rw [exitLearned tables findLearned]
  split
  · rename_i stopped
    obtain ⟨rfl, foreign⟩ := stopped
    simp [foreign]
  · rename_i onward
    have other : s.interfaces.keys.find? (fun net => dst == host.hwAddress net) = none → dst ≠ src :=
      fun foreign itself => onward ⟨itself, foreign⟩
    have chosen := unicastExitSpec host me dst s
    generalize unicastExit host me dst s = exit at chosen
    cases chosen with
    | own here => simp [here]
    | device away found => simp [away, found]
    | behind away foreign found back =>
      simp only [foreign, found]
      constructor
      · intro leaves
        contradiction
      · rintro ⟨_, _, elsewhere, expiration, same⟩
        cases Option.some.inj same
        exact absurd back elsewhere
    | @known entry away foreign found elsewhere =>
      simp only [foreign, found]
      constructor
      · rintro ⟨⟩
        exact ⟨away, other foreign, elsewhere, entry.expiration, rfl⟩
      · rintro ⟨_, _, _, expiration, same⟩
        cases Option.some.inj same
        rfl
    | unknown away foreign missing => simp [foreign, missing]

theorem directedIff {host : Host} {me net : Interface} {now : Int} {packet : Frame} {s : SharedStorage}
    (registered : s.Registered me) :
    (select host me now packet s).2 = .send net ↔ Directed host me now packet s net := by
  have selected := selectSpec host now packet registered
  generalize select host me now packet s = result at selected
  cases selected with
  | refused no =>
    refine ⟨fun leaves => by contradiction, ?_⟩
    rintro ⟨_, _, accepted, _⟩
    exact absurd accepted no
  | own accepted layer source =>
    refine ⟨fun leaves => by contradiction, ?_⟩
    rintro ⟨eth, layer', _, away, _⟩
    cases Option.some.inj (layer.symm.trans layer')
    exact absurd source away
  | group accepted layer source group =>
    refine ⟨fun leaves => by contradiction, ?_⟩
    rintro ⟨eth, layer', _, _, single, _⟩
    cases Option.some.inj (layer.symm.trans layer')
    exact absurd group single
  | @unicast eth accepted layer source single =>
    refine Iff.trans unicastDirected ?_
    constructor
    · intro onward
      exact ⟨eth, layer, accepted, source, single, onward⟩
    · rintro ⟨eth', layer', _, _, _, onward⟩
      cases Option.some.inj (layer.symm.trans layer')
      exact onward

theorem countTransmitted (calls : List Call) (net : Interface) :
    calls.count (.transmit net) = (transmitted calls).count net := by
  induction calls with
  | nil => rfl
  | cons call rest ih =>
    cases call <;> simp [transmitted, List.count_cons] at ih ⊢ <;> omega

theorem leaveAccounted {host : Host} (me : Interface) (now : Int) {packet : Frame} (s : SharedStorage) {exit : Exit}
    (normal : ∀ net, exit = .send net → jumboToWifi host packet net = false) :
    transmitted (leave host me now packet (s, exit)).2 = Statistics.targets me s exit := by
  cases exit with
  | skip => rfl
  | send destination => simp [leave, transmittedSend, Statistics.targets, normal destination rfl]
  | broadcast => simp only [leave, transmittedBroadcast, Statistics.targets]

theorem leaveRecorded {host : Host} {me other : Interface} {now : Int} {packet : Frame} {s : SharedStorage}
    {exit : Exit} (company : other ∈ others me s)
    (changed : (leave host me now packet (s, exit)).1.sentPackets ≠ s.sentPackets) :
    Statistics.targets me s exit ≠ [] := by
  cases exit with
  | skip => exact absurd rfl changed
  | send destination => simp [Statistics.targets]
  | broadcast => exact List.ne_nil_of_mem company

theorem accountedIff {host : Host} {me : Interface} {now : Int} {packet : Frame} {s : SharedStorage}
    (registered : s.Registered me) (accompanied : ∃ other, s.Registered other ∧ other ≠ me) :
    Accounted host me now packet s ↔ Deliverable host me now packet s := by
  have chosen : ∀ net, (select host me now packet s).2 = .send net ↔ Directed host me now packet s net :=
    fun net => directedIff registered
  constructor
  · intro accounted net directed
    have counted := accounted.counted net
    rw [countTransmitted] at counted
    simp only [receive] at counted
    rw [show select host me now packet s = ((select host me now packet s).1, .send net) from
      Prod.ext rfl ((chosen net).mpr directed), Statistics.countTargets] at counted
    simp only [leave, transmittedSend, Statistics.targets] at counted
    by_contra withheld
    have kept : jumboToWifi host packet net = true := by simpa using withheld
    simp [kept] at counted
  · intro deliverable
    have normal : ∀ net, (select host me now packet s).2 = .send net → jumboToWifi host packet net = false :=
      fun net leaves => deliverable net ((chosen net).mp leaves)
    have handed := leaveAccounted me now (select host me now packet s).1 normal
    refine ⟨?_, ?_⟩
    · intro net
      rw [countTransmitted]
      simp only [receive]
      rw [handed]
      exact Statistics.countTargets host me now packet _ _ net
    · intro changed silent
      obtain ⟨sent, interfaces⟩ := selectKeeps host now packet registered
      obtain ⟨other, there, onward⟩ := accompanied
      have company : other ∈ others me (select host me now packet s).1 := by
        rw [memOthers, Registered, interfaces]
        exact ⟨there, onward⟩
      rw [← sent] at changed
      exact leaveRecorded company changed (handed.symm.trans silent)

abbrev Received (host : Host) (s : Store) (ops : List Operation) (u : Store) (me : Interface) (now : Int)
    (packet : Frame) : Prop := (sections host).Moment s ops u (.receive me now packet)

def Accompanied (host : Host) (s : Store) (ops : List Operation) : Prop :=
  ∀ u me now packet, Received host s ops u me now packet → ∃ other, u.storage.Registered other ∧ other ≠ me

def calling (host : Host) (call : Call) (s : Store) : Operation → Nat
  | .receive me now packet => (receive host me now packet s.storage).calls.count call
  | _ => 0

theorem passedDelivered {host : Host} {me : Interface} {now : Int} {packet : Frame} {s : SharedStorage}
    (registered : s.Registered me) (accounted : Accounted host me now packet s)
    (passed : Passed (receive host me now packet s).calls) : transmitted (receive host me now packet s).calls ≠ [] := by
  refine accounted.recorded ?_
  intro same
  have held := passedHeld registered passed
  rw [Held, same] at held
  rw [(heldSilent registered held rfl).1] at passed
  simp [Passed] at passed

theorem accountingMatches {host : Host} {s t : Store} {ops : List Operation} (run : (sections host).Run s ops t)
    (accompanied : Accompanied host s ops) :
    (∀ u me now packet, Received host s ops u me now packet →
      (Accounted host me now packet u.storage ↔ Deliverable host me now packet u.storage)) ∧
    ((∀ u me now packet, Received host s ops u me now packet → Deliverable host me now packet u.storage) →
      (∀ net, (sections host).tally (calling host (.outputStatistics net)) s ops =
        (sections host).tally (calling host (.transmit net)) s ops) ∧
      ∀ q, Held q t.storage → Held q s.storage ∨
        ∃ u me now packet, Received host s ops u me now packet ∧ q = .ofPdu packet now ∧
          transmitted (receive host me now packet u.storage).calls ≠ []) := by
  have exactly : ∀ u me now packet, Received host s ops u me now packet →
      (Accounted host me now packet u.storage ↔ Deliverable host me now packet u.storage) := by
    intro u me now packet moment
    have registered : u.storage.Registered me := (Machine.momentEnabled run moment).2
    exact accountedIff registered (accompanied u me now packet moment)
  refine ⟨exactly, ?_⟩
  intro deliverable
  refine ⟨?_, ?_⟩
  · intro net
    refine Machine.tallySame ?_
    intro u op moment
    cases op with
    | receive me now packet =>
      have accounted := (exactly u me now packet moment).mpr (deliverable u me now packet moment)
      exact accounted.counted net
    | _ => rfl
  · intro q held
    rcases runRecorded run held with before | ⟨u, op, moment, recorded⟩
    · exact .inl before
    · cases op with
      | receive me now packet =>
        obtain ⟨same, passed⟩ := recorded
        have registered : u.storage.Registered me := (Machine.momentEnabled run moment).2
        have accounted := (exactly u me now packet moment).mpr (deliverable u me now packet moment)
        exact .inr ⟨u, me, now, packet, moment, same, passedDelivered registered accounted passed⟩
      | _ => exact recorded.elim

def benchTaught : Store := (sections wireless).step benchStore (.receive ⟨2⟩ 1 (benchFrame 7 9))

theorem taughtReady : (sections wireless).enabled benchStore (.receive ⟨2⟩ 1 (benchFrame 7 9)) :=
  ⟨by decide, by decide⟩

theorem jumboReady : (sections wireless).enabled benchTaught (.receive ⟨1⟩ 2 jumbo) := ⟨by decide, by decide⟩

theorem jumboDirected : Directed wireless ⟨1⟩ 2 jumbo benchTaught.storage ⟨2⟩ := by
  have miss : duplicate jumbo 2 benchTaught.storage = false := by
    have packets : benchTaught.storage.sentPackets.packets = [.ofPdu (benchFrame 7 9) 1] := by decide
    rw [Bool.eq_false_iff, ne_eq, duplicateIff, packets]
    rintro ⟨q, member, bytes⟩
    rw [List.mem_singleton.mp member] at bytes
    exact absurd (congrArg List.head? bytes) (by decide)
  refine ⟨⟨9, 7⟩, rfl, ⟨rfl, by decide, miss⟩, by decide, by decide, by decide, ?_⟩
  exact ⟨by decide, by decide, ⟨1, 30000⟩, by decide⟩

theorem accountingMatchesBench : Accounted wireless ⟨2⟩ 1 (benchFrame 7 9) benchStore.storage := by
  have moment : Received wireless benchStore [.receive ⟨2⟩ 1 (benchFrame 7 9)] benchStore ⟨2⟩ 1 (benchFrame 7 9) :=
    .inl ⟨rfl, rfl⟩
  have accompanied : Accompanied wireless benchStore [.receive ⟨2⟩ 1 (benchFrame 7 9)] := by
    intro u me now packet received
    rcases received with ⟨rfl, same⟩ | later
    · cases same
      exact ⟨⟨1⟩, by decide, by decide⟩
    · exact later.elim
  refine ((accountingMatches (.cons taughtReady (.nil _)) accompanied).1 _ _ _ _ moment).mpr ?_
  rintro net ⟨eth, layer, _, _, _, _, onward⟩
  cases Option.some.inj layer
  obtain ⟨_, _, expiration, found⟩ := onward
  have nothing : none = some (MacEntry.mk net expiration) := found
  contradiction

/- The frame is counted and recorded as sent and goes nowhere. -/
theorem jumboMiscounted : ¬ ∀ (host : Host) (s t : Store) (ops : List Operation), (sections host).Run s ops t →
    Accompanied host s ops → ∀ u me now packet, Received host s ops u me now packet →
    Accounted host me now packet u.storage := by
  intro claim
  have run : (sections wireless).Run benchStore [.receive ⟨2⟩ 1 (benchFrame 7 9), .receive ⟨1⟩ 2 jumbo] _ :=
    .cons taughtReady (.cons jumboReady (.nil _))
  have company : ∃ other, benchTaught.storage.Registered other ∧ other ≠ ⟨1⟩ := ⟨⟨2⟩, by decide, by decide⟩
  have accompanied : Accompanied wireless benchStore
      [.receive ⟨2⟩ 1 (benchFrame 7 9), .receive ⟨1⟩ 2 jumbo] := by
    intro u me now packet received
    rcases received with ⟨rfl, same⟩ | ⟨rfl, same⟩ | later
    · cases same
      exact ⟨⟨1⟩, by decide, by decide⟩
    · cases same
      exact company
    · exact later.elim
  have accounted := claim wireless _ _ _ run accompanied benchTaught _ _ _ (.inr (.inl ⟨rfl, rfl⟩))
  have deliverable := (accountedIff jumboReady.2 company).mp accounted
  have delivered := deliverable ⟨2⟩ jumboDirected
  exact Bool.noConfusion (jumboKept.symm.trans delivered)

end Accounting
end PsipSwitch
