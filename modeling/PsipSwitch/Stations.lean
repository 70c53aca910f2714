import PsipSwitch.Learning

/-! Where a station was last heard, and where frames for it go. Group frames leave the
callback before the table is updated, so a station that has moved and only announces
itself is still looked for at its old place. -/
namespace PsipSwitch
namespace Stations
open NetworkHandle NetworkSwitch SharedStorage Forwarding Accounting Learning

def From (host : Host) (me : Interface) (now : Int) (packet : Frame) (s : SharedStorage) (mac : MacAddress) : Prop :=
  Accepts me now packet s ∧ ∃ eth, packet.ethernet? = some eth ∧ eth.srcAddr = mac ∧
    eth.srcAddr ≠ host.hwAddress me

instance (host me now packet s mac) : Decidable (From host me now packet s mac) :=
  decidable_of_iff (Accepts me now packet s ∧ ∃ eth ∈ packet.ethernet?.toList, eth.srcAddr = mac ∧
    eth.srcAddr ≠ host.hwAddress me) (by simp [From])

def ToGroup (packet : Frame) : Prop := ∃ eth, packet.ethernet? = some eth ∧ Group eth.dstAddr

theorem learnsFrom {host : Host} {me : Interface} {now : Int} {packet : Frame} {s : SharedStorage}
    {mac : MacAddress} : Learns host me now packet s mac ↔ From host me now packet s mac ∧ ¬ ToGroup packet := by
  cases layer : packet.ethernet? with
  | none => simp [Learns, From, layer]
  | some eth => simp [Learns, From, ToGroup, layer, and_assoc]

def heard (host : Host) (mac : MacAddress) (s : Store) : Operation → Option Interface → Option Interface
  | .receive me now packet, last => if From host me now packet s.storage mac then some me else last
  | _, last => last

def lastHeard (host : Host) (mac : MacAddress) (s : Store) (ops : List Operation) : Option Interface :=
  (session host).observe (heard host mac) s ops none

def Addressed (host : Host) (me : Interface) (now : Int) (packet : Frame) (s : SharedStorage) (mac : MacAddress) :
    Prop :=
  Accepts me now packet s ∧ packet.size ≤ 1500 ∧ ∃ eth, packet.ethernet? = some eth ∧
    eth.srcAddr ≠ host.hwAddress me ∧ eth.srcAddr ≠ mac ∧ eth.dstAddr = mac

def Behind (net : Interface) (mac : MacAddress) (s : SharedStorage) : Prop :=
  ∃ expiration, s.macTable.find? mac = some ⟨net, expiration⟩

theorem noDevice {host : Host} {i j : Interface} {mac : MacAddress} {s : SharedStorage} (ports : TwoPorts j i s)
    (foreign : mac ≠ host.hwAddress i ∧ mac ≠ host.hwAddress j) :
    s.interfaces.keys.find? (fun net => mac == host.hwAddress net) = none := by
  rw [List.find?_eq_none]
  intro net member
  rcases (ports.2 net).mp member with rfl | rfl
  · simpa using foreign.2
  · simpa using foreign.1

theorem followedIff {host : Host} {i j : Interface} {mac : MacAddress} {now : Int} {packet : Frame} {s : SharedStorage}
    (ports : TwoPorts j i s) (names : MacNames s) (single : ¬ Group mac)
    (foreign : mac ≠ host.hwAddress i ∧ mac ≠ host.hwAddress j) (addressed : Addressed host j now packet s mac) :
    i ∈ transmitted (receive host j now packet s).calls ↔ ¬ Behind j mac s := by
  obtain ⟨accepted, small, eth, layer, source, other, rfl⟩ := addressed
  have registered : s.Registered j := (ports.2 j).mpr (.inl rfl)
  have normal : ∀ net, jumboToWifi host packet net = false := by
    intro net
    have short : ¬ 1500 < packet.size := by omega
    simp [jumboToWifi, short]
  have tables : (learned j eth.srcAddr now packet s).interfaces = s.interfaces := rfl
  have known : (learned j eth.srcAddr now packet s).macTable.find? eth.dstAddr = s.macTable.find? eth.dstAddr :=
    findLearned.trans (if_neg (Ne.symm other))
  have flooded : others j (learned j eth.srcAddr now packet s) = [i] :=
    othersTwo (s := learned j eth.srcAddr now packet s) ports
  rw [unicastCalls registered accepted layer source single]
  unfold unicastExit
  rw [if_neg foreign.2, tables, noDevice ports foreign, known]
  cases found : s.macTable.find? eth.dstAddr with
  | none => simp [leave, transmittedBroadcast, flooded, Behind, found]
  | some entry =>
    rcases entry with ⟨net, expiration⟩
    by_cases back : net = j
    · subst back
      simp [leave, transmitted, Behind, found]
    · have there : net = i := ((ports.2 net).mp (names _ _ found)).resolve_left back
      subst there
      simp [leave, transmittedSend, normal, Behind, found, back]

def between (host : Host) (i j : Interface) : Machine Store Operation :=
  (session host).restrict (fun _ op => ∀ net, op = .start net → net = i ∨ net = j)

def Within (i j : Interface) (s : SharedStorage) : Prop := ∀ net, s.Registered net → net = i ∨ net = j

structure Placed (i j : Interface) (s : SharedStorage) (last : Option Interface) : Prop where
  within : Within i j s
  names : MacNames s
  heard : ∀ net, last = some net → s.Registered net

theorem stepRegistered {host : Host} {s : Store} {op : Operation} {net : Interface}
    (ready : (session host).enabled s op) (registered : s.storage.Registered net) :
    ((session host).step s op).storage.Registered net := by
  by_cases starts : ∃ other, op = .start other
  · obtain ⟨other, rfl⟩ := starts
    exact setInterfaceRegistered _ registered
  · rw [Registered, keysLast ready (fun other same => starts ⟨other, same⟩)]
    exact registered

theorem stepWithin {host : Host} {i j : Interface} {s : Store} {op : Operation}
    (ready : (between host i j).enabled s op) (before : Within i j s.storage) :
    Within i j ((between host i j).step s op).storage := by
  intro net registered
  by_cases starts : ∃ other, op = .start other
  · obtain ⟨other, rfl⟩ := starts
    rcases registeredOfSet registered with here | old
    · exact ready.2 net (by rw [here])
    · exact before net old
  · have old : ((session host).step s op).storage.Registered net := registered
    rw [Registered, keysLast ready.1 (fun other same => starts ⟨other, same⟩)] at old
    exact before net old

theorem heardRegistered {host : Host} {mac : MacAddress} {s : Store} {op : Operation} {last : Option Interface}
    (ready : (session host).enabled s op) (before : ∀ net, last = some net → s.storage.Registered net) :
    ∀ net, heard host mac s op last = some net → s.storage.Registered net := by
  intro net here
  cases op with
  | receive me now packet =>
    simp only [heard] at here
    split at here
    · cases Option.some.inj here
      exact ready.1.2
    · exact before net here
  | _ => exact before net here

theorem stepPlaced {host : Host} {i j : Interface} {mac : MacAddress} {s : Store} {op : Operation}
    {last : Option Interface} (ready : (between host i j).enabled s op) (before : Placed i j s.storage last) :
    Placed i j ((between host i j).step s op).storage (heard host mac s op last) where
  within := stepWithin ready before.within
  names := stepMacNames ready.1.1 before.names
  heard net here := stepRegistered ready.1 (heardRegistered ready.1 before.heard net here)

theorem emptyNames {s : SharedStorage} (empty : s.macTable = .empty) : MacNames s := by
  intro mac entry found
  rw [empty] at found
  contradiction

theorem runPlaced {host : Host} {i j : Interface} {mac : MacAddress} {s t : Store} {ops : List Operation}
    (run : (between host i j).Run s ops t) (within : Within i j s.storage) (empty : s.storage.macTable = .empty) :
    Placed i j t.storage (lastHeard host mac s ops) := by
  have placed : Placed i j t.storage ((between host i j).observe (heard host mac) s ops none) := by
    refine Machine.observeInvariant (R := fun u last => Placed i j u.storage last) ?_ run ?_
    · intro s op last ready before
      exact stepPlaced ready before
    · exact ⟨within, emptyNames empty, fun _ known => by contradiction⟩
  rw [between, Machine.observeRestrict] at placed
  exact placed

/- A group frame of the station never comes in where the table does not have it. -/
def following (host : Host) (i j : Interface) (mac : MacAddress) : Machine Store Operation :=
  (between host i j).restrict (fun s op =>
    ∀ me now packet, op = .receive me now packet → From host me now packet s.storage mac → ToGroup packet →
      ∀ net, Behind net mac s.storage → net = me)

def Tracks (mac : MacAddress) (s : Store) (last : Option Interface) : Prop :=
  ∀ entry, s.storage.macTable.find? mac = some entry → last = some entry.interface

theorem stepTracks {host : Host} {i j : Interface} {mac : MacAddress} {s : Store} {op : Operation}
    {last : Option Interface} (ready : (following host i j mac).enabled s op) (before : Tracks mac s last) :
    Tracks mac ((following host i j mac).step s op) (heard host mac s op last) := by
  cases op with
  | reset => exact absurd trivial ready.1.1.2
  | receive me now packet =>
    intro entry found
    have after := receiveEntry host now packet ready.1.1.1.2 mac
    replace found := after.symm.trans found
    simp only [heard]
    by_cases source : From host me now packet s.storage mac
    · rw [if_pos source]
      by_cases group : ToGroup packet
      · have silent : ¬ Learns host me now packet s.storage mac := fun learns => (learnsFrom.mp learns).2 group
        rw [if_neg silent] at found
        have here := ready.2 me now packet rfl source group entry.interface ⟨entry.expiration, found⟩
        rw [here]
      · rw [if_pos (learnsFrom.mpr ⟨source, group⟩)] at found
        cases Option.some.inj found
        rfl
    · have silent : ¬ Learns host me now packet s.storage mac := fun learns => source (learnsFrom.mp learns).1
      rw [if_neg silent] at found
      rw [if_neg source]
      exact before entry found
  | request now draws request =>
    exact RestHandle.respondKeeps (P := fun t => ∀ entry, t.macTable.find? mac = some entry →
      last = some entry.interface) host now draws request (fun _ => before) (fun _ _ _ => before) (fun _ => before)
  | maintain m =>
    intro entry found
    obtain ⟨old, present, same⟩ := maintainEntry found
    rw [← same]
    exact before old present
  | _ => exact before

theorem runTracks {host : Host} {i j : Interface} {mac : MacAddress} {s t : Store} {ops : List Operation}
    (run : (following host i j mac).Run s ops t) (empty : s.storage.macTable = .empty) :
    Tracks mac t (lastHeard host mac s ops) := by
  have tracks : Tracks mac t ((following host i j mac).observe (heard host mac) s ops none) := by
    refine Machine.observeInvariant ?_ run ?_
    · intro s op last ready before
      exact stepTracks ready before
    · intro entry found
      rw [empty] at found
      contradiction
  rw [following, Machine.observeRestrict, between, Machine.observeRestrict] at tracks
  exact tracks

def LearnedOn (net : Interface) (past : Option Past) : Prop :=
  ∃ it, past = some it ∧ it.interface = net ∧ it.overdue = false

theorem behindIff {mac : MacAddress} {net : Interface} {s : Store} {past : Option Past} (tells : Learning.Tells mac s past) :
    Behind net mac s.storage ↔ LearnedOn net past := by
  rw [Behind, LearnedOn, tells.entry]
  cases past with
  | none => simp
  | some it => cases overdue : it.overdue <;> simp [Past.entry, overdue]

theorem stationFollowed {host : Host} {i j : Interface} {mac : MacAddress} {s t : Store} {ops : List Operation}
    (different : i ≠ j) (single : ¬ Group mac) (foreign : mac ≠ host.hwAddress i ∧ mac ≠ host.hwAddress j)
    (within : Within i j s.storage) (empty : s.storage.macTable = .empty)
    (run : (between host i j).Run s ops t) (last : lastHeard host mac s ops = some i)
    (started : t.storage.Registered j) :
    (∀ now packet, Addressed host j now packet t.storage mac →
      (i ∈ transmitted (receive host j now packet t.storage).calls ↔ ¬ Behind j mac t.storage)) ∧
    (Behind j mac t.storage ↔ LearnedOn j (history host mac s ops)) ∧
    ((following host i j mac).Run s ops t → ∀ now packet, Addressed host j now packet t.storage mac →
      i ∈ transmitted (receive host j now packet t.storage).calls) := by
  have placed : Placed i j t.storage (lastHeard host mac s ops) := runPlaced run within empty
  have ports : TwoPorts j i t.storage := by
    refine ⟨Ne.symm different, ?_⟩
    intro net
    constructor
    · exact fun registered => (placed.within net registered).symm
    · rintro (rfl | rfl)
      · exact started
      · exact placed.heard _ last
  have exactly : ∀ now packet, Addressed host j now packet t.storage mac →
      (i ∈ transmitted (receive host j now packet t.storage).calls ↔ ¬ Behind j mac t.storage) :=
    fun now packet addressed => followedIff ports placed.names single foreign addressed
  refine ⟨exactly, behindIff (runTells (Machine.runUnrestrict run) empty), ?_⟩
  intro careful now packet addressed
  refine (exactly now packet addressed).mpr ?_
  rintro ⟨expiration, found⟩
  have there := runTracks careful empty _ found
  rw [last] at there
  exact different (Option.some.inj there)

def stationFrame (src dst : MacAddress) : Frame where
  layers := [.ethernetII src dst]
  size := 14
  serialize := [dst, src].flatMap (fun mac => (List.range 6).map (fun n => UInt8.ofNat (MacAddress.octet mac n))) ++
    [0, 0]

theorem benchAddressed {s : SharedStorage} (up : (s.interface ⟨2⟩).up = true)
    (miss : duplicate (stationFrame 7 9) 3 s = false) : Addressed bench ⟨2⟩ 3 (stationFrame 7 9) s 9 :=
  ⟨⟨rfl, up, miss⟩, by decide, ⟨7, 9⟩, rfl, by decide, by decide, rfl⟩

theorem benchForeign : (9 : MacAddress) ≠ bench.hwAddress ⟨1⟩ ∧ (9 : MacAddress) ≠ bench.hwAddress ⟨2⟩ :=
  ⟨by decide, by decide⟩

def benchBlank : Store := ⟨.initial, 0⟩

theorem benchWithin : Within ⟨1⟩ ⟨2⟩ benchBlank.storage := fun _ registered => nomatch registered

def benchEarly : List Operation := [.start ⟨1⟩, .receive ⟨1⟩ 1 (stationFrame 9 7), .start ⟨2⟩]

def benchHeard : Store := benchEarly.foldl (between bench ⟨1⟩ ⟨2⟩).step benchBlank

theorem benchEarlyRun : (between bench ⟨1⟩ ⟨2⟩).Run benchBlank benchEarly benchHeard := by
  refine .cons ⟨⟨⟨by decide, trivial⟩, id⟩, ?_⟩ (.cons ⟨⟨⟨by decide, by decide⟩, id⟩, by simp⟩
    (.cons ⟨⟨⟨by decide, trivial⟩, id⟩, ?_⟩ (.nil _)))
  · rintro net ⟨⟩
    exact .inl rfl
  · rintro net ⟨⟩
    exact .inr rfl

theorem stationFollowedBench : ⟨1⟩ ∈ transmitted (receive bench ⟨2⟩ 3 (stationFrame 7 9) benchHeard.storage).calls := by
  have followed := stationFollowed (by decide) (by decide) benchForeign benchWithin rfl benchEarlyRun
    (by decide : lastHeard bench 9 benchBlank benchEarly = some ⟨1⟩) (by decide)
  refine (followed.1 3 (stationFrame 7 9) (benchAddressed (by decide) (by decide))).mpr ?_
  rw [followed.2.1]
  rintro ⟨past, known, there, _⟩
  have heard : history bench 9 benchBlank benchEarly = some ⟨⟨1⟩, 1, 30000, none, false⟩ := by decide
  cases Option.some.inj (heard.symm.trans known)
  contradiction

/- 9 is heard on interface 2 and then, with a broadcast, on interface 1: the table still
has it on 2, and a frame for it that comes in there goes nowhere. -/

def benchMoves : List Operation :=
  [.receive ⟨2⟩ 1 (stationFrame 9 7), .receive ⟨1⟩ 2 (stationFrame 9 (BitVec.allOnes 48))]

def benchMoved : Store := benchMoves.foldl (between bench ⟨1⟩ ⟨2⟩).step benchStore

theorem stationLost : ¬ ∀ (host : Host) (i j : Interface) (mac : MacAddress) (s t : Store) (ops : List Operation),
    i ≠ j → ¬ Group mac → mac ≠ host.hwAddress i ∧ mac ≠ host.hwAddress j → Within i j s.storage →
    s.storage.macTable = .empty → (between host i j).Run s ops t → lastHeard host mac s ops = some i →
    t.storage.Registered j → (t.storage.interface i).up = true →
    ∀ now packet, Addressed host j now packet t.storage mac →
      i ∈ transmitted (receive host j now packet t.storage).calls := by
  intro claim
  have run : (between bench ⟨1⟩ ⟨2⟩).Run benchStore benchMoves benchMoved :=
    .cons ⟨⟨⟨by decide, by decide⟩, id⟩, by simp⟩ (.cons ⟨⟨⟨by decide, by decide⟩, id⟩, by simp⟩ (.nil _))
  have within : Within ⟨1⟩ ⟨2⟩ benchStore.storage := fun net => (benchPorts.2 net).mp
  have carried := claim bench ⟨1⟩ ⟨2⟩ 9 benchStore benchMoved benchMoves (by decide) (by decide) benchForeign within rfl
    run (by decide) (by decide) (by decide) 3 (stationFrame 7 9) (benchAddressed (by decide) (by decide))
  exact absurd carried (by decide)

end Stations
end PsipSwitch
