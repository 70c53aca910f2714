import PsipSwitch.TrafficIndependence

/-! Conversations are kept apart. What becomes of a frame depends on the frames with its bytes and
on those that came from the address it is for; frames that are neither can be taken out of a
run, and all others are still treated the same, as are the requests. -/
namespace PsipSwitch
namespace Conversations
open NetworkSwitch NetworkHandle SharedStorage
open RestHandle (Outcome respond)
open RestIndependence (Open Alike earlier respondOpen)
open TrafficIndependence (Agree Writes agreeSelect agreeCalls receiveWrites)
open Sweep (Readings)

structure Concern where
  addresses : MacAddress → Bool
  contents : List UInt8 → Bool

def packetPart (contents : List UInt8 → Bool) (t : PacketTable) : PacketTable :=
  t.shrink (t.packets.filter (fun q => contents q.data)) List.filter_sublist

def heeded (c : Concern) (s : SharedStorage) : SharedStorage :=
  { s with
    statisticsTable := .empty
    macTable := s.macTable.filter (fun it => c.addresses it.1)
    sentPackets := packetPart c.contents s.sentPackets }

def Heard (c : Concern) (packet : Frame) : Prop :=
  c.contents packet.serialize = true ∧ ∀ eth, packet.ethernet? = some eth → c.addresses eth.dstAddr = true

def Unheard (c : Concern) (packet : Frame) : Prop :=
  c.contents packet.serialize = false ∧ ∀ eth, packet.ethernet? = some eth → c.addresses eth.srcAddr = false

section Parts
variable {c : Concern} {s t : SharedStorage}

theorem ranked (c : Concern) (a b : MacAddress) (same : a.rank = b.rank) : c.addresses a = c.addresses b :=
  congrArg c.addresses (MacAddress.rankInjective same)

theorem heededOpen (c : Concern) : Open (heeded c) id where
  sessions _ := rfl
  device _ := rfl
  interfaces s := OrderedTable.ext (List.map_id s.interfaces.entries).symm
  name _ := rfl
  up _ := rfl
  setSessions _ _ := rfl
  setDevice _ _ := rfl
  setEntry _ _ _ := rfl

theorem packetPartIff {contents : List UInt8 → Bool} {bytes : List UInt8} (inside : contents bytes = true)
    (t : PacketTable) : (∃ q ∈ (packetPart contents t).packets, q.data = bytes) ↔ ∃ q ∈ t.packets, q.data = bytes := by
  constructor
  · rintro ⟨q, member, same⟩
    exact ⟨q, List.mem_of_mem_filter member, same⟩
  · rintro ⟨q, member, rfl⟩
    exact ⟨q, List.mem_filter.mpr ⟨member, inside⟩, rfl⟩

theorem packetPartInsert {contents : List UInt8 → Bool} {q : Packet} {t : PacketTable} (outside : contents q.data = false) :
    packetPart contents (t.insert q) = packetPart contents t := by
  refine PacketTable.ext ?_
  unfold PacketTable.insert
  split
  · simp only [packetPart, PacketTable.shrink, List.filter_cons, outside, Bool.false_eq_true, if_false]
  · rfl

theorem packetPartFresh {contents : List UInt8 → Bool} {q : Packet} {t u : PacketTable} (inside : contents q.data = true)
    (same : packetPart contents t = packetPart contents u) (fresh : t.count q ≠ 1) :
    packetPart contents (t.insert q) = packetPart contents (u.insert q) := by
  have there : u.count q ≠ 1 := by
    rw [ne_eq, PacketTable.countIff, ← packetPartIff inside, ← same, packetPartIff inside, ← PacketTable.countIff]
    exact fresh
  have packets := congrArg PacketTable.packets same
  refine PacketTable.ext ?_
  change (t.insert q).packets.filter _ = (u.insert q).packets.filter _
  simp only [PacketTable.insertFresh fresh, PacketTable.insertFresh there, List.filter_cons, inside, if_true]
  exact congrArg (q :: ·) packets

theorem heededInterface (same : heeded c s = heeded c t) : s.interfaces = t.interfaces := by
  have table := congrArg SharedStorage.interfaces same
  exact table

theorem heededAgree (me : Interface) {packet : Frame} (same : heeded c s = heeded c t) (heard : Heard c packet) :
    Agree me packet s t where
  keys := congrArg OrderedTable.keys (heededInterface same)
  up := by rw [interface, heededInterface same, interface]
  period := by
    have device := congrArg SharedStorage.deviceInfo same
    exact congrArg DeviceInfo.defaultMacTimeout device
  sent := by
    have sent : packetPart c.contents s.sentPackets = packetPart c.contents t.sentPackets :=
      congrArg SharedStorage.sentPackets same
    rw [← packetPartIff heard.1, sent, packetPartIff heard.1]
  table eth layer := by
    have table : s.macTable.filter (fun it => c.addresses it.1) = t.macTable.filter (fun it => c.addresses it.1) :=
      congrArg SharedStorage.macTable same
    have inside := heard.2 eth layer
    rw [← OrderedTable.findPart (ranked c) s.macTable inside, table, OrderedTable.findPart (ranked c) t.macTable inside]

theorem heededWritten (same : heeded c s = heeded c t) {mac mac' : MacTable} {sent sent' : PacketTable}
    (table : mac.filter (fun it => c.addresses it.1) = mac'.filter (fun it => c.addresses it.1))
    (packets : packetPart c.contents sent = packetPart c.contents sent') (stats stats' : StatisticsTable) :
    heeded c { s with statisticsTable := stats, macTable := mac, sentPackets := sent } =
      heeded c { t with statisticsTable := stats', macTable := mac', sentPackets := sent' } := by
  have written := congrArg (fun w : SharedStorage => { w with
    macTable := mac.filter (fun it => c.addresses it.1), sentPackets := packetPart c.contents sent }) same
  refine written.trans ?_
  rw [table, packets]
  rfl

theorem writesPart {packet : Frame} {g : MacTable → MacTable} (writes : Writes packet g) {table table' : MacTable}
    (same : table.filter (fun it => c.addresses it.1) = table'.filter (fun it => c.addresses it.1)) :
    (g table).filter (fun it => c.addresses it.1) = (g table').filter (fun it => c.addresses it.1) := by
  rcases writes with idle | ⟨eth, entry, _, written⟩
  · rw [idle, idle, same]
  · rw [written, written]
    cases inside : c.addresses eth.srcAddr with
    | true =>
      rw [OrderedTable.updateInside (ranked c) _ _ inside, OrderedTable.updateInside (ranked c) _ _ inside, same]
    | false =>
      rw [OrderedTable.updateOutside (ranked c) _ _ inside, OrderedTable.updateOutside (ranked c) _ _ inside, same]

theorem writesOutside {packet : Frame} {g : MacTable → MacTable} (writes : Writes packet g)
    (outside : ∀ eth, packet.ethernet? = some eth → c.addresses eth.srcAddr = false) (table : MacTable) :
    (g table).filter (fun it => c.addresses it.1) = table.filter (fun it => c.addresses it.1) := by
  rcases writes with idle | ⟨eth, entry, layer, written⟩
  · rw [idle]
  · rw [written, OrderedTable.updateOutside (ranked c) _ _ (outside eth layer)]

end Parts

section Sections
variable {host : Host} {c : Concern} {s t : SharedStorage}

theorem heardReceive (host : Host) {me : Interface} (now : Int) {packet : Frame} (registered : s.Registered me) (heard : Heard c packet)
    (same : heeded c s = heeded c t) :
    (receive host me now packet s).calls = (receive host me now packet t).calls ∧
      heeded c (receive host me now packet s).storage = heeded c (receive host me now packet t).storage := by
  have agree := heededAgree me same heard
  have there : t.Registered me := by
    rw [Registered, ← agree.keys]
    exact registered
  obtain ⟨exit, g, writes, first, second⟩ := agreeSelect host now registered agree
  obtain ⟨_, here⟩ := receiveWrites host now packet registered
  obtain ⟨_, again⟩ := receiveWrites host now packet there
  refine ⟨agreeCalls host now registered agree, ?_⟩
  have table := writesPart writes (congrArg SharedStorage.macTable same)
  have sent : packetPart c.contents s.sentPackets = packetPart c.contents t.sentPackets :=
    congrArg SharedStorage.sentPackets same
  rw [here, again, first, second, exit]
  refine heededWritten same table ?_ _ _
  split
  · exact sent
  · rename_i passed
    have accepted : Accepts me now packet s := by
      by_contra no
      exact passed (exit.symm.trans (by rw [selectRefused registered no]))
    have fresh : s.sentPackets.count (.ofPdu packet now) ≠ 1 := by simpa [duplicate] using accepted.2.2
    exact packetPartFresh heard.1 sent fresh

theorem unheardReceive {me : Interface} {now : Int} {packet : Frame} (registered : s.Registered me)
    (unheard : Unheard c packet) : heeded c (receive host me now packet s).storage = heeded c s := by
  have itself : Agree me packet s s := ⟨rfl, rfl, rfl, Iff.rfl, fun _ _ => rfl⟩
  obtain ⟨_, g, writes, first, _⟩ := agreeSelect host now registered itself
  obtain ⟨_, here⟩ := receiveWrites host now packet registered
  rw [here, first]
  refine heededWritten rfl (writesOutside writes unheard.2 _) ?_ _ s.statisticsTable
  split
  · rfl
  · exact packetPartInsert unheard.1

def Plain : Operation → Prop
  | .receive _ _ _ | .maintain (.resetMac _) | .maintain (.updateMac _) | .maintain (.updatePackets _) => False
  | _ => True

theorem plainHeeded (host : Host) {op : Operation} (plain : Plain op) (s : SharedStorage) :
    heeded c (perform host op s) = perform host op (heeded c s) := by
  cases op with
  | receive me now packet => exact plain.elim
  | request now draws request => exact (congrArg Prod.snd (respondOpen (heededOpen c) host now draws request s)).symm
  | maintain m =>
    cases m with
    | resetMac r => exact plain.elim
    | updateMac r => exact plain.elim
    | updatePackets r => exact plain.elim
    | _ => rfl
  | _ => rfl

theorem resetMacHeeded (r : Readings) (same : heeded c s = heeded c t) : ∃ r' : Readings, r.first ≤ r'.first ∧
    r'.last = r.last ∧ heeded c (NetworkSwitch.resetMac r s) = heeded c (NetworkSwitch.resetMac r' t) := by
  have entries := congrArg (fun s : SharedStorage => s.macTable.entries) same
  obtain ⟨r', first, last, touched⟩ := Sweep.retouched (f := Sweep.touchEntry NetworkSwitch.renewed) (fun _ _ => rfl) r entries
  refine ⟨r', first, last, ?_⟩
  have table : (NetworkSwitch.resetMac r s).macTable.filter (fun it => c.addresses it.1) =
      (NetworkSwitch.resetMac r' t).macTable.filter (fun it => c.addresses it.1) := OrderedTable.ext touched
  exact heededWritten same table (congrArg SharedStorage.sentPackets same) s.statisticsTable t.statisticsTable

theorem updateMacHeeded (r : Readings) (same : heeded c s = heeded c t) : ∃ r' : Readings, r.first ≤ r'.first ∧
    r'.last = r.last ∧ heeded c (NetworkSwitch.updateMac r s) = heeded c (NetworkSwitch.updateMac r' t) := by
  have entries := congrArg (fun s : SharedStorage => s.macTable.entries) same
  obtain ⟨r', first, last, swept⟩ := Sweep.retimed (fun it now => it.2.expiration.expired now) r entries
  refine ⟨r', first, last, ?_⟩
  have table : (NetworkSwitch.updateMac r s).macTable.filter (fun it => c.addresses it.1) =
      (NetworkSwitch.updateMac r' t).macTable.filter (fun it => c.addresses it.1) := OrderedTable.ext swept
  exact heededWritten same table (congrArg SharedStorage.sentPackets same) s.statisticsTable t.statisticsTable

theorem updatePacketsHeeded (r : Readings) (same : heeded c s = heeded c t) : ∃ r' : Readings, r.first ≤ r'.first ∧
    r'.last = r.last ∧ heeded c (updatePackets r s) = heeded c (updatePackets r' t) := by
  have packets := congrArg (fun s : SharedStorage => s.sentPackets.packets) same
  obtain ⟨r', first, last, swept⟩ := Sweep.retimed (fun it now => it.expiration.expired now) r packets
  refine ⟨r', first, last, ?_⟩
  have sent : packetPart c.contents (updatePackets r s).sentPackets =
      packetPart c.contents (updatePackets r' t).sentPackets := PacketTable.ext swept
  exact heededWritten same (congrArg SharedStorage.macTable same) sent s.statisticsTable t.statisticsTable

end Sections

inductive Seen where
  | frame (calls : List NetworkHandle.Call)
  | answer (outcome : Outcome)

def seen (host : Host) (visible : Frame → Bool) (s : Store) : Operation → List Seen
  | .receive me now packet => if visible packet then [.frame (receive host me now packet s.storage).calls] else []
  | .request now draws request => [.answer (respond host now draws request s.storage).1]
  | _ => []

def stays (visible : Frame → Bool) : Operation → Bool
  | .receive _ _ packet => visible packet
  | _ => true

/- The same section, where a loop may read the clock at other moments of the same time. -/
inductive Resembles : Operation → Operation → Prop where
  | same (op : Operation) : Resembles op op
  | resetMac {r r' : Readings} (first : r.first ≤ r'.first) (last : r'.last = r.last) :
      Resembles (.maintain (.resetMac r)) (.maintain (.resetMac r'))
  | updateMac {r r' : Readings} (first : r.first ≤ r'.first) (last : r'.last = r.last) :
      Resembles (.maintain (.updateMac r)) (.maintain (.updateMac r'))
  | updatePackets {r r' : Readings} (first : r.first ≤ r'.first) (last : r'.last = r.last) :
      Resembles (.maintain (.updatePackets r)) (.maintain (.updatePackets r'))

def Fits (c : Concern) (visible : Frame → Bool) : Operation → Prop
  | .receive _ _ packet => if visible packet then Heard c packet else Unheard c packet
  | _ => True

def divided (host : Host) (c : Concern) (visible : Frame → Bool) : Machine Store Operation :=
  (sections host).restrict (fun _ op => Fits c visible op)

section Runs
variable {host : Host} {c : Concern} {visible : Frame → Bool} {s t : Store} {op : Operation}

theorem admittedHeeded (same : heeded c s.storage = heeded c t.storage) (ready : admitted s.storage op) :
    admitted t.storage op := by
  have interfaces := heededInterface same
  cases op with
  | signalStop net | finish net | receive net now packet =>
    rw [admitted, Registered, ← interfaces]
    exact ready
  | _ => trivial

theorem plainSeen (plain : Plain op) (same : heeded c s.storage = heeded c t.storage) :
    seen host visible t op = seen host visible s op := by
  cases op with
  | receive me now packet => exact plain.elim
  | request now draws request =>
    have first := congrArg Prod.fst (respondOpen (heededOpen c) host now draws request s.storage)
    have second := congrArg Prod.fst (respondOpen (heededOpen c) host now draws request t.storage)
    have answer := second.symm.trans ((congrArg (fun s => (respond host now draws request s).1) same.symm).trans first)
    exact congrArg (fun outcome => [Seen.answer outcome]) answer
  | _ => rfl

theorem hiddenStep (ready : (divided host c visible).enabled s op) (gone : stays visible op = false)
    (alike : Alike (heeded c) s t) :
    seen host visible s op = [] ∧ Alike (heeded c) ((divided host c visible).step s op) t := by
  have forward := alike.clock.trans (clockForward ready.1)
  cases op with
  | receive me now packet =>
    have hidden : visible packet = false := gone
    have unheard : Unheard c packet := by
      have fits : if visible packet then Heard c packet else Unheard c packet := ready.2
      simpa only [hidden, Bool.false_eq_true, if_false] using fits
    refine ⟨if_neg (by simp [hidden]), ?_, forward⟩
    exact (unheardReceive ready.1.2 unheard).trans alike.storage
  | _ => contradiction

theorem staysStep (ready : (divided host c visible).enabled s op) (there : stays visible op = true)
    (alike : Alike (heeded c) s t) : ∃ d, Resembles op d ∧ (divided host c visible).enabled t d ∧
      seen host visible t d = seen host visible s op ∧
      Alike (heeded c) ((divided host c visible).step s op) ((divided host c visible).step t d) := by
  have admitted := admittedHeeded alike.storage ready.1.2
  obtain ⟨order, clock⟩ := earlier alike.clock ready.1.1
  by_cases plain : Plain op
  · refine ⟨op, .same op, ⟨⟨order, admitted⟩, ready.2⟩, plainSeen plain alike.storage, ?_, clock⟩
    change heeded c (perform host op s.storage) = heeded c (perform host op t.storage)
    rw [plainHeeded host plain, plainHeeded host plain, alike.storage]
  · cases op with
    | receive me now packet =>
      have shown : visible packet = true := there
      have heard : Heard c packet := by
        have fits : if visible packet then Heard c packet else Unheard c packet := ready.2
        simpa only [shown, if_true] using fits
      obtain ⟨calls, storage⟩ := heardReceive host now ready.1.2 heard alike.storage
      refine ⟨_, .same _, ⟨⟨order, admitted⟩, ready.2⟩, ?_, storage, clock⟩
      simp only [seen, shown, if_true, calls]
    | maintain m =>
      cases m with
      | resetMac r =>
        obtain ⟨r', first, last, storage⟩ := resetMacHeeded r alike.storage
        exact ⟨_, .resetMac first last, ⟨⟨(alike.clock.trans ready.1.1).trans first, trivial⟩, trivial⟩, rfl, storage,
          le_of_eq last⟩
      | updateMac r =>
        obtain ⟨r', first, last, storage⟩ := updateMacHeeded r alike.storage
        exact ⟨_, .updateMac first last, ⟨⟨(alike.clock.trans ready.1.1).trans first, trivial⟩, trivial⟩, rfl, storage,
          le_of_eq last⟩
      | updatePackets r =>
        obtain ⟨r', first, last, storage⟩ := updatePacketsHeeded r alike.storage
        exact ⟨_, .updatePackets first last, ⟨⟨(alike.clock.trans ready.1.1).trans first, trivial⟩, trivial⟩, rfl, storage,
          le_of_eq last⟩
      | _ => exact absurd trivial plain
    | _ => exact absurd trivial plain

end Runs

def frames (ops : List Operation) : List Frame := ops.filterMap fun
  | .receive _ _ packet => some packet
  | _ => none

def concern (visible : Frame → Bool) (packets : List Frame) : Concern where
  addresses mac := packets.any (fun m => visible m && m.ethernet?.any (fun eth => eth.dstAddr == mac))
  contents bytes := packets.any (fun m => visible m && m.serialize == bytes)

def Unrelated (m m' : Frame) : Prop :=
  m'.serialize ≠ m.serialize ∧ ∀ eth ∈ m.ethernet?, ∀ eth' ∈ m'.ethernet?, eth'.srcAddr ≠ eth.dstAddr
instance (m m') : Decidable (Unrelated m m') := by unfold Unrelated; infer_instance

theorem concernHeard {visible : Frame → Bool} {packets : List Frame} {m : Frame} (member : m ∈ packets)
    (shown : visible m = true) : Heard (concern visible packets) m := by
  constructor
  · exact List.any_eq_true.mpr ⟨m, member, by simp [shown]⟩
  · intro eth layer
    exact List.any_eq_true.mpr ⟨m, member, by simp [shown, layer]⟩

theorem concernUnheard {visible : Frame → Bool} {packets : List Frame} {m' : Frame}
    (unrelated : ∀ m ∈ packets, visible m = true → Unrelated m m') : Unheard (concern visible packets) m' := by
  constructor
  · refine List.any_eq_false.mpr (fun m member => ?_)
    cases shown : visible m with
    | false => simp
    | true => simpa using (unrelated m member shown).1.symm
  · intro eth' source
    refine List.any_eq_false.mpr (fun m member => ?_)
    cases shown : visible m with
    | false => simp
    | true =>
      cases layer : m.ethernet? with
      | none => simp
      | some eth => simpa using ((unrelated m member shown).2 eth layer eth' source).symm

theorem framesMember {ops : List Operation} {me : Interface} {now : Int} {packet : Frame}
    (member : .receive me now packet ∈ ops) : packet ∈ frames ops :=
  List.mem_filterMap.mpr ⟨_, member, rfl⟩

theorem concernFits {visible : Frame → Bool} {ops : List Operation}
    (unrelated : ∀ m ∈ frames ops, ∀ m' ∈ frames ops, visible m = true → visible m' = false → Unrelated m m')
    (op : Operation) (member : op ∈ ops) : Fits (concern visible (frames ops)) visible op := by
  cases op with
  | receive me now packet =>
    have inside := framesMember member
    simp only [Fits]
    split
    · rename_i shown
      exact concernHeard inside shown
    · rename_i hidden
      exact concernUnheard (fun m there shown => unrelated m there packet inside shown (Bool.eq_false_of_not_eq_true hidden))
  | _ => trivial

def benchVisible (m : Frame) : Bool := m.ethernet?.any (fun eth => eth.srcAddr != 5)

def benchTalk : List Operation :=
  [.receive ⟨1⟩ 1 ⟨[.ethernetII 9 7], 60, [1]⟩, .receive ⟨1⟩ 2 ⟨[.ethernetII 5 9], 60, [2]⟩,
    .maintain (.updateMac (.still 3)), .receive ⟨2⟩ 4 ⟨[.ethernetII 7 9], 60, [3]⟩]

end Conversations
end PsipSwitch
