import PsipSwitch.Lib.LearningBridge
import PsipSwitch.Learning
import PsipSwitch.LoopSuppression

/-! The switch is a learning bridge. Its ordered tables, its set of packets and the checks of
its callback are one way of building it: each section is what the bridge does, none or a few
actions of it, and shows the same. -/
namespace PsipSwitch
namespace Bridging
open NetworkHandle NetworkSwitch SharedStorage Learning LoopSuppression
open LearningBridge (Setting Station Bridge Action Notice InUse Way Treats bridge)

def setting (host : Host) : Setting Interface MacAddress Frame (List UInt8) where
  address := host.hwAddress
  Group := Group
  ends packet := packet.ethernet?.map (fun eth => (eth.srcAddr, eth.dstAddr))
  content := Frame.serialize
  Fits net packet := jumboToWifi host packet net = false
  due := timePlus
  ageing := Settings.defaultMacTimeout
  holding := Settings.defaultSentPacketTimeout

def station (entry : MacEntry) : Station Interface :=
  ⟨entry.interface, entry.expiration.start, entry.expiration.duration⟩

def sentAt (t : PacketTable) (bytes : List UInt8) : Option Int :=
  (t.packets.find? (fun q => q.data = bytes)).map (fun q => q.expiration.start)

def bridgeOf (s : Store) : Bridge Interface MacAddress (List UInt8) where
  ports net := (s.storage.interfaces.find? net).map (fun entry => entry.up)
  stations mac := (s.storage.macTable.find? mac).map station
  sent := sentAt s.storage.sentPackets
  ageing := s.storage.deviceInfo.defaultMacTimeout
  clock := s.clock

def Stamped (s : SharedStorage) : Prop :=
  ∀ q ∈ s.sentPackets.packets, q.expiration.duration = Settings.defaultSentPacketTimeout

section Frames
variable {host : Host} {s : Store} {me : Interface} {now : Int} {packet : Frame}

theorem usedIff {net : Interface} : InUse (bridgeOf s) net ↔ s.storage.Registered net := by
  rw [registeredIff, OrderedTable.contains]
  simp [InUse, bridgeOf, Option.isSome_iff_ne_none]

theorem sentNone {t : PacketTable} {bytes : List UInt8} :
    sentAt t bytes = none ↔ ¬ ∃ q ∈ t.packets, q.data = bytes := by
  simp [sentAt]

theorem acceptsIff (now : Int) : LearningBridge.Accepts (setting host) (bridgeOf s) me packet ↔ Accepts me now packet s.storage := by
  have link : (setting host).ends packet ≠ none ↔ packet.ethernet?.isSome = true := by
    simp [setting, Option.isSome_iff_ne_none]
  have up : (bridgeOf s).ports me = some true ↔ (s.storage.interface me).up = true := by
    simp only [bridgeOf, interface]
    cases s.storage.interfaces.find? me with
    | none => simp [InterfaceEntry.blank]
    | some entry => simp
  have fresh : (bridgeOf s).sent packet.serialize = none ↔ duplicate packet now s.storage = false := by
    rw [← Bool.not_eq_true, duplicateIff]
    exact sentNone
  exact and_congr link (and_congr up fresh)

theorem teachesIff (now : Int) {mac : MacAddress} :
    LearningBridge.Teaches (setting host) (bridgeOf s) me packet mac ↔ Learns host me now packet s.storage mac := by
  rw [LearningBridge.Teaches, acceptsIff now, Learns]
  refine and_congr_right (fun _ => ?_)
  cases layer : packet.ethernet? with
  | none => simp [setting, layer]
  | some eth =>
    simp only [setting, layer, Option.map_some, Option.some.injEq, Prod.mk.injEq]
    constructor
    · rintro ⟨dst, ⟨rfl, rfl⟩, foreign, single⟩
      exact ⟨rfl, foreign, single⟩
    · rintro ⟨rfl, foreign, single⟩
      exact ⟨_, ⟨rfl, rfl⟩, foreign, single⟩

def exits (host : Host) (me : Interface) (packet : Frame) (s : SharedStorage) : Exit → Option (Set Interface)
  | .skip => none
  | .send destination => some (LearningBridge.direct (setting host) destination packet)
  | .broadcast => some {net | net ∈ others me s}

theorem othersSame (s : Store) (me : Interface) : {net | net ∈ others me s.storage} = LearningBridge.others (bridgeOf s) me := by
  ext net
  exact Forwarding.memOthers.trans (and_congr_left (fun _ => usedIff.symm))

theorem leftOn (t : SharedStorage) (exit : Exit) :
    {net | net ∈ transmitted (leave host me now packet (t, exit)).2} = (exits host me packet t exit).getD ∅ := by
  cases exit with
  | skip => exact Set.eq_empty_of_forall_notMem (fun _ member => List.not_mem_nil member)
  | send destination =>
    simp only [leave, transmittedSend, exits, Option.getD_some]
    ext net
    by_cases large : jumboToWifi host packet destination = true
    · rw [if_pos large]
      constructor
      · exact fun member => absurd member List.not_mem_nil
      · rintro ⟨rfl, fits⟩
        exact absurd (large.symm.trans fits) (by decide)
    · have fits : jumboToWifi host packet destination = false := Bool.eq_false_of_not_eq_true large
      rw [if_neg large]
      constructor
      · intro member
        have same := List.mem_singleton.mp member
        exact ⟨same, same ▸ fits⟩
      · rintro ⟨same, _⟩
        exact List.mem_singleton.mpr same
  | broadcast =>
    simp only [leave, transmittedBroadcast]
    rfl

theorem wayOf {b : Bridge Interface MacAddress (List UInt8)} {t : SharedStorage} {dst : MacAddress} {exit : Exit}
    (used : ∀ net, InUse b net ↔ t.Registered net)
    (knows : b.stations dst = (t.macTable.find? dst).map station) (chosen : Chosen host me dst t exit) :
    Way (setting host) b me packet dst (exits host me packet t exit) := by
  have away (foreign : t.interfaces.keys.find? (fun net => dst == host.hwAddress net) = none) :
      ∀ net, InUse b net → dst ≠ (setting host).address net := by
    intro net inside same
    have missed := List.find?_eq_none.mp foreign net ((used net).mp inside)
    exact missed (beq_iff_eq.mpr same)
  cases chosen with
  | own here => exact .here here
  | @device net elsewhere found =>
    have own : dst = host.hwAddress net := by simpa using List.find?_some found
    exact .device elsewhere ((used net).mpr (List.mem_of_find?_eq_some found)) own
  | @behind entry _ foreign found back =>
    have heard : b.stations dst = some (station entry) := by rw [knows, found, Option.map_some]
    exact .behind (away foreign) heard back
  | @known entry _ foreign found onward =>
    have heard : b.stations dst = some (station entry) := by rw [knows, found, Option.map_some]
    exact .onward (away foreign) heard onward
  | unknown _ foreign missing =>
    have all : {net | net ∈ others me t} = LearningBridge.others b me := by
      ext net
      exact Forwarding.memOthers.trans (and_congr_left (fun _ => (used net).symm))
    rw [exits, all]
    refine .unknown (away foreign) ?_
    rw [knows, missing, Option.map_none]

theorem hears (host : Host) (now : Int) (packet : Frame) (mac : MacAddress) (registered : s.storage.Registered me) :
    (LearningBridge.hear (setting host) (bridgeOf s) me now packet).stations mac =
      ((receive host me now packet s.storage).storage.macTable.find? mac).map station := by
  rw [receiveEntry host now packet registered mac]
  simp only [LearningBridge.hear, teachesIff now]
  split
  · rfl
  · rfl

def chosen (host : Host) (s : Store) (me : Interface) (now : Int) (packet : Frame) : Option (Set Interface) :=
  exits host me packet (select host me now packet s.storage).1 (select host me now packet s.storage).2

theorem treats (registered : s.storage.Registered me) :
    Treats (setting host) (bridgeOf s) me now packet (chosen host s me now packet) := by
  have selected := selectSpec host now packet registered
  have table : (receive host me now packet s.storage).storage.macTable =
      (select host me now packet s.storage).1.macTable := by
    obtain ⟨_, _, same⟩ := leaveFrame host me now packet (select host me now packet s.storage).1
      (select host me now packet s.storage).2
    have kept := congrArg SharedStorage.macTable same
    exact kept
  have ends {eth : Ethernet} (layer : packet.ethernet? = some eth) :
      (setting host).ends packet = some (eth.srcAddr, eth.dstAddr) := by simp only [setting, layer, Option.map_some]
  have knows (mac : MacAddress) := hears host now packet mac registered
  simp only [table] at knows
  unfold chosen
  generalize select host me now packet s.storage = result at selected knows
  cases selected with
  | refused no => exact .refused (fun accepted => no ((acceptsIff now).mp accepted))
  | own accepted layer source => exact .own ((acceptsIff now).mpr accepted) (ends layer) source
  | group accepted layer source group =>
    have all := othersSame s me
    refine (congrArg (Treats (setting host) (bridgeOf s) me now packet) (congrArg some all)).mpr ?_
    exact .group ((acceptsIff now).mpr accepted) (ends layer) source group
  | unicast accepted layer source single =>
    refine .single ((acceptsIff now).mpr accepted) (ends layer) source single ?_
    exact wayOf (fun net => usedIff) (knows _) (unicastExitSpec host me _ _)

theorem passage : {net | net ∈ transmitted (receive host me now packet s.storage).calls} =
    (chosen host s me now packet).getD ∅ := leftOn _ _

theorem sentInsert {t : PacketTable} {q : Packet} (fresh : t.count q ≠ 1) (bytes : List UInt8) :
    sentAt (t.insert q) bytes = if bytes = q.data then some q.expiration.start else sentAt t bytes := by
  simp only [sentAt, PacketTable.insertFresh fresh, List.find?_cons]
  by_cases here : bytes = q.data
  · simp [here]
  · simp [here, Ne.symm here]

theorem sentReceive (registered : s.storage.Registered me) (bytes : List UInt8) :
    sentAt (receive host me now packet s.storage).storage.sentPackets bytes =
      if chosen host s me now packet ≠ none ∧ bytes = packet.serialize then some now
      else sentAt s.storage.sentPackets bytes := by
  have left : chosen host s me now packet = none ↔ (select host me now packet s.storage).2 = .skip := by
    unfold chosen
    cases (select host me now packet s.storage).2 <;> simp [exits]
  rw [receiveSent host now packet registered]
  by_cases skip : (select host me now packet s.storage).2 = .skip
  · rw [if_pos skip, if_neg (fun both => both.1 (left.mpr skip))]
  · have accepted : Accepts me now packet s.storage := by
      by_contra no
      rw [selectRefused registered no] at skip
      exact skip rfl
    have fresh : s.storage.sentPackets.count (.ofPdu packet now) ≠ 1 := by simpa [duplicate] using accepted.2.2
    rw [if_neg skip, sentInsert fresh]
    have gone : chosen host s me now packet ≠ none := fun none => skip (left.mp none)
    simp only [gone, ne_eq, not_false_eq_true, true_and]
    rfl

theorem receiveAct (registered : s.storage.Registered me) :
    LearningBridge.act (setting host) (bridgeOf s) (.message me now packet (chosen host s me now packet)) =
      bridgeOf ((sections host).step s (.receive me now packet)) := by
  obtain ⟨_, _, _, same⟩ := receiveFrame host now packet registered
  have interfaces := receiveInterfaces host now packet registered
  have device : (receive host me now packet s.storage).storage.deviceInfo = s.storage.deviceInfo := by rw [same]
  refine Bridge.ext (funext fun net => ?_) (funext fun mac => hears host now packet mac registered) (funext fun bytes => ?_)
    (congrArg DeviceInfo.defaultMacTimeout device.symm) rfl
  · change (bridgeOf s).ports net = ((receive host me now packet s.storage).storage.interfaces.find? net).map _
    rw [interfaces]
    rfl
  · refine Eq.trans ?_ (sentReceive registered bytes).symm
    simp only [LearningBridge.act]
    congr

end Frames

section Sections
variable {host : Host}

def Accounts (host : Host) (s t : Store) (notices : List (Notice Interface MacAddress Frame (List UInt8))) : Prop :=
  ∃ acts, (bridge (setting host)).Run (bridgeOf s) acts (bridgeOf t) ∧
    (bridge (setting host)).trace LearningBridge.shows (bridgeOf s) acts = notices

theorem accountsNone {s t : Store} (same : bridgeOf t = bridgeOf s) : Accounts host s t [] := by
  refine ⟨[], ?_, rfl⟩
  rw [same]
  exact .nil _

theorem accountsOne {s t : Store} {a : Action Interface MacAddress Frame (List UInt8)}
    (ready : LearningBridge.allowed (setting host) (bridgeOf s) a)
    (same : LearningBridge.act (setting host) (bridgeOf s) a = bridgeOf t) :
    Accounts host s t (LearningBridge.shows (bridgeOf s) a) := by
  have run : (bridge (setting host)).Run (bridgeOf s) [a] (LearningBridge.act (setting host) (bridgeOf s) a) :=
    .cons ready (.nil _)
  exact ⟨[a], same ▸ run, List.append_nil _⟩

theorem accountsTrans {s t u : Store} {first second : List (Notice Interface MacAddress Frame (List UInt8))} (here : Accounts host s t first)
    (there : Accounts host t u second) : Accounts host s u (first ++ second) := by
  obtain ⟨acts, run, shown⟩ := here
  obtain ⟨more, rest, later⟩ := there
  exact ⟨acts ++ more, Machine.runAppend run rest, by rw [Machine.traceAppend run, shown, later]⟩

theorem accountsWait {s : Store} {now : Int} (order : s.clock ≤ now) : Accounts host s ⟨s.storage, now⟩ [] :=
  accountsOne (a := .wait now) order rfl

theorem portsSet (s : SharedStorage) (net : Interface) (f : InterfaceEntry → InterfaceEntry) (clock : Int) :
    bridgeOf ⟨s.setInterface net f, clock⟩ = LearningBridge.put net (f (s.interface net)).up (bridgeOf ⟨s, clock⟩) := by
  refine Bridge.ext (funext fun other => ?_) rfl rfl rfl rfl
  by_cases here : other = net
  · subst here
    rw [LearningBridge.putSelf]
    exact congrArg (Option.map _) (setInterfaceFind s other f)
  · rw [LearningBridge.putOther here]
    exact congrArg (Option.map _) (setInterfaceFindOther s f here)

theorem portsIdle {s : Store} {net : Interface} {f : InterfaceEntry → InterfaceEntry} (registered : s.storage.Registered net)
    (same : ∀ entry, (f entry).up = entry.up) : bridgeOf ⟨s.storage.setInterface net f, s.clock⟩ = bridgeOf s := by
  have there : (bridgeOf s).ports net = some (s.storage.interface net).up := by
    simp only [bridgeOf, registeredFind registered, Option.map_some]
  rw [portsSet, same]
  exact LearningBridge.putIdle there

theorem looks {κ : Type} {clock : Int} (r : Sweep.Readings) (order : clock ≤ r.first) (place : κ → Nat) :
    LearningBridge.Looks clock (fun k => r.time (place k)) r.last :=
  ⟨order.trans r.firstLeLast, fun _ => ⟨order.trans (r.ordered (Nat.zero_le _)), r.bounded _⟩⟩

theorem sentSweep {s : SharedStorage} (stamped : Stamped s) (r : Sweep.Readings) (bytes : List UInt8) :
    sentAt (updatePackets r s).sentPackets bytes = (sentAt s.sentPackets bytes).filter (fun since =>
      !decide (timePlus since Settings.defaultSentPacketTimeout <
        r.time (s.sentPackets.packets.findIdx (fun q => q.data = bytes)))) := by
  have swept := Sweep.findKeySweep (fun q : Packet => q.data) (fun q now => q.expiration.expired now) r.time bytes 0
    s.sentPackets.distinct
  rw [Nat.zero_add] at swept
  have found : (updatePackets r s).sentPackets.packets.find? (fun q => q.data = bytes) = _ := swept
  rw [sentAt, sentAt, found]
  cases present : s.sentPackets.packets.find? (fun q => q.data = bytes) with
  | none => rfl
  | some q =>
    have period := stamped q (List.mem_of_find?_eq_some present)
    simp only [Option.filter_some, Option.map_some, Timeout.expired, period]
    split <;> rfl

/- What a section tells of: receptions with the interfaces the frame has gone out on, and what is
done to the ports, the tables and the default timeout. -/

abbrev Told := Notice Interface MacAddress Frame (List UInt8)

def packetLooked (s : SharedStorage) (r : Sweep.Readings) (bytes : List UInt8) : Int :=
  r.time (s.sentPackets.packets.findIdx (fun q => q.data = bytes))

def maintained (s : SharedStorage) : Maintenance → List Told
  | .clearMac => [.forgotten]
  | .clearStats | .clearStatsOf _ | .clearSessions => []
  | .resetMac r => [.renewed (fun mac => lookedAt mac r s) r.last]
  | .applyMac newTimeout => [.aged newTimeout]
  | .setMacTimeout newTimeout => [.aged (RestHandle.milliseconds newTimeout)]
  | .updateMac r => [.expired (fun mac => lookedAt mac r s) r.last]
  | .updatePackets r => [.released (packetLooked s r) r.last]
  | .updateSessions _ => []

def requested (s : SharedStorage) : RestHandle.Request → List Told
  | .editInterface authorization (.ok id) (.ok config) => match RestHandle.check authorization s, RestHandle.byId id s with
      | .ok _, some it => [.enabled it.1 (RestHandle.editEntry config it.2).up]
      | _, _ => []
  | .editDevice authorization (.ok config) => match RestHandle.check authorization s with
      | .ok _ => [.aged (RestHandle.editDevice config s).deviceInfo.defaultMacTimeout]
      | .error _ => []
  | _ => []

def notices (host : Host) (s : Store) : Operation → List Told
  | .reset => [.cleared]
  | .start net => [.attached net]
  | .receive me now packet =>
      [.passage ⟨me, now, packet, {net | net ∈ transmitted (receive host me now packet s.storage).calls}⟩]
  | .request _ _ request => requested s.storage request
  | .maintain m => maintained s.storage m
  | _ => []

theorem maintainAccounts {s : Store} {m : Maintenance} (order : s.clock ≤ m.begins.getD s.clock) (stamped : Stamped s.storage) :
    Accounts host s ⟨maintain m s.storage, m.ends.getD s.clock⟩ (maintained s.storage m) := by
  cases m with
  | clearMac => exact accountsOne (a := .forget) trivial rfl
  | clearStats => exact accountsNone rfl
  | clearStatsOf requiredInterface => exact accountsNone rfl
  | clearSessions => exact accountsNone rfl
  | resetMac r =>
    refine accountsOne (a := .renew (fun mac => lookedAt mac r s.storage) r.last) (looks r order _) ?_
    refine Bridge.ext rfl (funext fun mac => ?_) rfl rfl rfl
    have found := Sweep.findTouch renewed r.time s.storage.macTable mac
    refine Eq.trans ?_ (congrArg (Option.map station) found).symm
    simp only [LearningBridge.act, bridgeOf, Option.map_map]
    rfl
  | applyMac newTimeout => exact accountsOne (a := .age newTimeout) trivial rfl
  | setMacTimeout newTimeout => exact accountsOne (a := .age (RestHandle.milliseconds newTimeout)) trivial rfl
  | updateMac r =>
    refine accountsOne (a := .expire (fun mac => lookedAt mac r s.storage) r.last) (looks r order _) ?_
    refine Bridge.ext rfl (funext fun mac => ?_) rfl rfl rfl
    have found := Sweep.findSweep s.storage.macTable (fun entry now => entry.expiration.expired now) r.time mac
    refine Eq.trans ?_ (congrArg (Option.map station) found).symm
    simp only [LearningBridge.act, bridgeOf]
    cases s.storage.macTable.find? mac with
    | none => rfl
    | some entry =>
      simp only [Option.map_some, Option.filter_some, apply_ite (Option.map station), Option.map_none]
      rfl
  | updatePackets r =>
    refine accountsOne (a := .release (packetLooked s.storage r) r.last) (looks r order _) ?_
    refine Bridge.ext rfl rfl (funext fun bytes => ?_) rfl rfl
    exact (sentSweep stamped r bytes).symm
  | updateSessions r =>
    exact accountsWait (order.trans r.firstLeLast)

theorem requestAccounts {s : Store} {now : Int} (draws : Draws) (request : RestHandle.Request) (order : s.clock ≤ now) :
    Accounts host s ⟨(RestHandle.respond host now draws request s.storage).2, now⟩ (requested s.storage request) := by
  have waited : Accounts host s ⟨s.storage, now⟩ [] := accountsWait order
  cases request with
  | editInterface authorization id config =>
    simp only [RestHandle.respond, RestHandle.handle, RestHandle.execInterfaceEdit]
    cases id with
    | error message => cases RestHandle.check authorization s.storage <;> exact waited
    | ok id =>
      cases config with
      | error message => cases RestHandle.check authorization s.storage <;> exact waited
      | ok config =>
        simp only [requested]
        cases RestHandle.check authorization s.storage with
        | error failure => exact waited
        | ok u =>
          cases found : RestHandle.byId id s.storage with
          | none => simpa only [found] using waited
          | some it =>
            obtain ⟨registered, _, entry⟩ := RestHandle.byIdRegistered found
            simp only [found]
            refine accountsTrans waited (accountsOne (a := .enable it.1 (RestHandle.editEntry config it.2).up)
              (usedIff.mpr registered) ?_)
            rw [← entry]
            exact (portsSet s.storage it.1 (RestHandle.editEntry config) now).symm
  | editDevice authorization config =>
    simp only [RestHandle.respond, RestHandle.handle, RestHandle.execDeviceEdit]
    cases config with
    | error message => cases RestHandle.check authorization s.storage <;> exact waited
    | ok config =>
      simp only [requested]
      cases RestHandle.check authorization s.storage with
      | error failure => exact waited
      | ok u =>
        exact accountsTrans waited
          (accountsOne (a := .age (RestHandle.editDevice config s.storage).deviceInfo.defaultMacTimeout) trivial rfl)
  | _ =>
    refine accountsTrans waited (accountsNone ?_)
    exact RestHandle.respondPlain (f := fun t => bridgeOf ⟨t, now⟩) (fun _ => rfl) host now draws id

theorem sectionAccounts {s : Store} {op : Operation} (ready : (sections host).enabled s op) (stamped : Stamped s.storage) :
    Accounts host s ((sections host).step s op) (notices host s op) := by
  cases op with
  | reset => exact accountsOne (a := .clear) trivial rfl
  | start net =>
    exact accountsOne (a := .attach net) trivial (portsSet s.storage net (fun _ => ⟨⟨true, false⟩, true, []⟩) s.clock).symm
  | signalStop net => exact accountsNone (portsIdle ready.2 (fun _ => rfl))
  | finish net => exact accountsNone (portsIdle ready.2 (fun _ => rfl))
  | receive me now packet =>
    rw [notices, passage]
    exact accountsOne (a := .message me now packet (chosen host s me now packet))
      ⟨ready.1, usedIff.mpr ready.2, treats ready.2⟩ (receiveAct ready.2)
  | startRest => exact accountsNone rfl
  | signalStopRest => exact accountsNone rfl
  | finishRest => exact accountsNone rfl
  | request now draws request => exact requestAccounts draws request ready.1
  | maintain m => exact maintainAccounts ready.1 stamped
  | look now => exact accountsWait ready.1

theorem stepStamped {s : Store} {op : Operation} (ready : (sections host).enabled s op) (stamped : Stamped s.storage) :
    Stamped ((sections host).step s op).storage := by
  intro q member
  rcases stepRecorded ready member with before | recorded
  · exact stamped q before
  · cases op with
    | receive me now packet =>
      rw [recorded.1]
      rfl
    | _ => exact recorded.elim

theorem sectionsBridged {s t : Store} {ops : List Operation} (run : (sections host).Run s ops t)
    (stamped : Stamped s.storage) : Accounts host s t ((sections host).trace (notices host) s ops) := by
  have start : bridgeOf s = bridgeOf s ∧ Stamped s.storage := ⟨rfl, stamped⟩
  obtain ⟨acts, b, matched, ended, same⟩ := Machine.simulationTrace (n := bridge (setting host))
    LearningBridge.shows (R := fun s b => b = bridgeOf s ∧ Stamped s.storage) (fun s b op ready related => by
      obtain ⟨rfl, stamped⟩ := related
      obtain ⟨acts, follows, shown⟩ := sectionAccounts ready stamped
      exact ⟨acts, _, follows, ⟨rfl, stepStamped ready stamped⟩, shown⟩) run start
  obtain ⟨rfl, _⟩ := ended
  exact ⟨acts, matched, same⟩

end Sections

/-! Loops. However the network is wired, and however many copies of a frame come in, the switch
itself sends the same bytes out on an interface once in five minutes at most. -/
section Loops
variable {host : Host}

def copies (host : Host) (net : Interface) (bytes : List UInt8) (s : Store) : Operation → Nat
  | .receive me now packet =>
      if packet.serialize = bytes then (transmitted (receive host me now packet s.storage).calls).count net else 0
  | _ => 0

def resets : Operation → Nat
  | .reset => 1
  | _ => 0

theorem leaveOnce (host : Host) (me : Interface) (now : Int) (packet : Frame) (s : SharedStorage) (exit : Exit) :
    (transmitted (leave host me now packet (s, exit)).2).Nodup := by
  cases exit with
  | skip => exact .nil
  | send destination =>
    simp only [leave, transmittedSend]
    split
    · exact .nil
    · exact List.nodup_singleton _
  | broadcast =>
    simp only [leave, transmittedBroadcast]
    exact s.interfaces.keysNodup.filter _

theorem copiesNoticed (host : Host) (net : Interface) (bytes : List UInt8) (s : Store) (op : Operation) :
    copies host net bytes s op ≤ LearningBridge.copies (setting host) bytes (notices host s op) := by
  cases op with
  | receive me now packet =>
    simp only [copies]
    split
    · rename_i content
      by_cases member : net ∈ transmitted (receive host me now packet s.storage).calls
      · have once := List.nodup_iff_count_le_one.mp (leaveOnce host me now packet
          (select host me now packet s.storage).1 (select host me now packet s.storage).2) net
        have copy : LearningBridge.Copy (setting host) bytes (.passage ⟨me, now, packet,
            {net | net ∈ transmitted (receive host me now packet s.storage).calls}⟩) := ⟨content, net, member⟩
        have counted : LearningBridge.copies (setting host) bytes (notices host s (.receive me now packet)) = 1 := by
          simp [LearningBridge.copies, notices, copy]
        rw [counted]
        exact once
      · rw [List.count_eq_zero_of_not_mem member]
        exact Nat.zero_le _
    · exact Nat.zero_le _
  | _ => exact Nat.zero_le _

theorem restartsNoticed (host : Host) (s : Store) (op : Operation) :
    LearningBridge.restarts (notices host s op) = resets op := by
  cases op with
  | request now draws request =>
    simp only [notices, requested]
    split
    · split <;> rfl
    · split <;> rfl
    · rfl
  | maintain m => cases m <;> rfl
  | _ => rfl

theorem runNoticed (host : Host) (net : Interface) (bytes : List UInt8) (s : Store) (ops : List Operation) :
    (sections host).tally (copies host net bytes) s ops ≤
      LearningBridge.copies (setting host) bytes ((sections host).trace (notices host) s ops) ∧
    LearningBridge.restarts ((sections host).trace (notices host) s ops) = (ops.map resets).sum := by
  induction ops generalizing s with
  | nil => exact ⟨Nat.le_refl _, rfl⟩
  | cons op ops ih =>
    obtain ⟨fewer, cleared⟩ := ih ((sections host).step s op)
    have here := copiesNoticed host net bytes s op
    have restart := restartsNoticed host s op
    have split1 := LearningBridge.copiesAppend (c := setting host) (x := bytes) (notices host s op)
      ((sections host).trace (notices host) ((sections host).step s op) ops)
    have split2 := LearningBridge.restartsAppend (notices host s op)
      ((sections host).trace (notices host) ((sections host).step s op) ops)
    rw [Machine.tallyCons, Machine.trace, split1, split2, restart, cleared, List.map_cons, List.sum_cons]
    exact ⟨Nat.add_le_add here fewer, rfl⟩

theorem copiesRare {s t : Store} {ops : List Operation} (run : (sections host).Run s ops t)
    (empty : s.storage.sentPackets = .empty) (past : 0 ≤ s.clock)
    (future : t.clock + 300000000000 < 9223372036854775808) (net : Interface) (bytes : List UInt8) :
    ((sections host).tally (copies host net bytes) s ops : Int) * 300000000000 ≤
      (1 + ((ops.map resets).sum : Nat)) * 300000000000 + (t.clock - s.clock) := by
  have stamped : Stamped s.storage := by
    intro q member
    rw [empty] at member
    exact absurd member List.not_mem_nil
  obtain ⟨acts, matched, shown⟩ := sectionsBridged run stamped
  have keeps : ∀ since, (bridgeOf s).clock ≤ since → since ≤ (bridgeOf t).clock →
      since + 300000000000 ≤ (setting host).due since (setting host).holding := by
    intro since low high
    have first : s.clock ≤ since := low
    have last : since ≤ t.clock := high
    exact le_of_eq (sentTimeoutExact (by omega) (by omega)).symm
  have fresh : (bridgeOf s).sent bytes = none := by
    rw [bridgeOf, empty]
    rfl
  have rare := LearningBridge.rarely (by decide) keeps fresh matched
  obtain ⟨fewer, cleared⟩ := runNoticed host net bytes s ops
  rw [shown, cleared] at rare
  have scaled := Int.mul_le_mul_of_nonneg_right (Int.ofNat_le.mpr fewer) (by decide : (0 : Int) ≤ 300000000000)
  exact scaled.trans rare

/- The same frame goes out a second time as soon as the first is swept away: no rarer bound
would hold. -/
def benchTwice : List Operation :=
  [.receive ⟨1⟩ 1 (benchFrame 9 7), .maintain (.updatePackets (.still 300000000002)),
    .receive ⟨1⟩ 300000000002 (benchFrame 9 7)]

theorem copiesRareBench : (sections bench).tally (copies bench ⟨2⟩ [1, 2, 3]) benchStore benchTwice = 2 ∧
    (2 : Int) * 300000000000 ≤ (1 + 0) * 300000000000 + (300000000002 - 0) := by
  have run : (sections bench).Run benchStore benchTwice _ :=
    .cons ⟨by decide, by decide⟩ (.cons ⟨by decide, trivial⟩ (.cons ⟨by decide, by decide⟩ (.nil _)))
  have twice : (sections bench).tally (copies bench ⟨2⟩ [1, 2, 3]) benchStore benchTwice = 2 := by decide
  have rare := copiesRare run rfl (by decide) (by decide) ⟨2⟩ [1, 2, 3]
  rw [twice] at rare
  exact ⟨twice, rare⟩

end Loops
end Bridging
end PsipSwitch
