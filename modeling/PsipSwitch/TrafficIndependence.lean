import PsipSwitch.Forwarding
import PsipSwitch.LoopSuppression
import PsipSwitch.RestIndependence

/-! What goes out on the wire is no matter of the REST interface, as long as nobody who is
logged in puts an interface up or down or sets the timeout. All requests can be taken out of
such a run, with the threads that stop or end and what is done to sessions and counters, and
every frame is still treated the same. -/
namespace PsipSwitch
namespace TrafficIndependence
open NetworkSwitch NetworkHandle SharedStorage RestIndependence LoopSuppression
open RestHandle (Authorised Request respond execInterfaceEdit execDeviceEdit byIdRegistered respondPlain editEntry)

def carrying (entry : InterfaceEntry) : InterfaceEntry := { entry with control := ⟨false, false⟩, name := [] }

def wired (s : SharedStorage) : SharedStorage :=
  { s with
    statisticsTable := .empty
    sessions := []
    deviceInfo := { s.deviceInfo with hostname := [] }
    restThread := ⟨false, false⟩
    interfaces := s.interfaces.mapValues carrying }

theorem wiredKeys (s : SharedStorage) : (wired s).interfaces.keys = s.interfaces.keys := List.map_map

structure Common (s t : SharedStorage) : Prop where
  keys : s.interfaces.keys = t.interfaces.keys
  table : s.macTable = t.macTable
  sent : s.sentPackets = t.sentPackets
  period : s.deviceInfo.defaultMacTimeout = t.deviceInfo.defaultMacTimeout

theorem wiredCommon {s t : SharedStorage} (same : wired s = wired t) : Common s t := by
  have table := congrArg SharedStorage.macTable same
  have sent := congrArg SharedStorage.sentPackets same
  have period := congrArg (fun s : SharedStorage => s.deviceInfo.defaultMacTimeout) same
  exact ⟨by rw [← wiredKeys, same, wiredKeys], table, sent, period⟩

theorem wiredRegistered {s t : SharedStorage} {net : Interface} (same : wired s = wired t) :
    s.Registered net ↔ t.Registered net := by
  rw [Registered, Registered, (wiredCommon same).keys]

theorem wiredUp (s : SharedStorage) (net : Interface) : ((wired s).interface net).up = (s.interface net).up := by
  simp only [interface, wired, OrderedTable.findMapValues]
  cases s.interfaces.find? net <;> rfl

theorem wiredIdle {s : SharedStorage} {net : Interface} {f : InterfaceEntry → InterfaceEntry}
    (registered : s.Registered net) (same : ∀ entry, carrying (f entry) = carrying entry) :
    wired (s.setInterface net f) = wired s := by
  have table := interfacesIdle (g := carrying) registered same
  exact congrArg (fun table => { wired s with interfaces := table }) table

section Frames
variable {host : Host} {me : Interface} {now : Int} {packet : Frame} {s t : SharedStorage}

structure Agree (me : Interface) (packet : Frame) (s t : SharedStorage) : Prop where
  keys : s.interfaces.keys = t.interfaces.keys
  up : (s.interface me).up = (t.interface me).up
  period : s.deviceInfo.defaultMacTimeout = t.deviceInfo.defaultMacTimeout
  sent : (∃ q ∈ s.sentPackets.packets, q.data = packet.serialize) ↔
    ∃ q ∈ t.sentPackets.packets, q.data = packet.serialize
  table : ∀ eth, packet.ethernet? = some eth → s.macTable.find? eth.dstAddr = t.macTable.find? eth.dstAddr

def Writes (packet : Frame) (g : MacTable → MacTable) : Prop :=
  (∀ table, g table = table) ∨
    ∃ eth entry, packet.ethernet? = some eth ∧ ∀ table, g table = table.update eth.srcAddr (fun _ => entry)

theorem agreeAccepts (agree : Agree me packet s t) : Accepts me now packet s ↔ Accepts me now packet t := by
  have fresh : duplicate packet now s = false ↔ duplicate packet now t = false := by
    rw [← Bool.not_eq_true, ← Bool.not_eq_true, duplicateIff, duplicateIff]
    exact not_congr agree.sent
  rw [Accepts, Accepts, agree.up, fresh]

theorem agreeExit {eth : Ethernet} (agree : Agree me packet s t) (layer : packet.ethernet? = some eth) :
    unicastExit host me eth.dstAddr (updateMac me eth.srcAddr now (inputStatistics packet me s)) =
      unicastExit host me eth.dstAddr (updateMac me eth.srcAddr now (inputStatistics packet me t)) := by
  have keys : (updateMac me eth.srcAddr now (inputStatistics packet me s)).interfaces.keys =
      (updateMac me eth.srcAddr now (inputStatistics packet me t)).interfaces.keys := agree.keys
  unfold unicastExit
  rw [keys, Forwarding.findLearned, Forwarding.findLearned, agree.period, agree.table eth layer]

theorem agreeSelect (host : Host) (now : Int) (registered : s.Registered me) (agree : Agree me packet s t) :
    (select host me now packet s).2 = (select host me now packet t).2 ∧ ∃ g, Writes packet g ∧
      (select host me now packet s).1.macTable = g s.macTable ∧ (select host me now packet t).1.macTable = g t.macTable := by
  have there : t.Registered me := by
    rw [Registered, ← agree.keys]
    exact registered
  by_cases accepted : Accepts me now packet s
  · have again := (agreeAccepts agree).mp accepted
    obtain ⟨eth, layer⟩ := Option.isSome_iff_exists.mp accepted.1
    by_cases source : eth.srcAddr = host.hwAddress me
    · rw [selectOwn registered accepted layer source, selectOwn there again layer source]
      exact ⟨rfl, id, .inl (fun _ => rfl), rfl, rfl⟩
    · by_cases group : Group eth.dstAddr
      · rw [selectGroup registered accepted layer source group, selectGroup there again layer source group]
        exact ⟨rfl, id, .inl (fun _ => rfl), rfl, rfl⟩
      · rw [selectUnicast registered accepted layer source group, selectUnicast there again layer source group]
        refine ⟨agreeExit agree layer, fun table => table.update eth.srcAddr
          (fun _ => ⟨me, ⟨now, s.deviceInfo.defaultMacTimeout⟩⟩), .inr ⟨eth, _, layer, fun _ => rfl⟩, rfl, ?_⟩
        rw [agree.period]
        rfl
  · have again : ¬ Accepts me now packet t := fun other => accepted ((agreeAccepts agree).mpr other)
    rw [selectRefused registered accepted, selectRefused there again]
    exact ⟨rfl, id, .inl (fun _ => rfl), rfl, rfl⟩

theorem leaveAlike (host : Host) (me : Interface) (now : Int) (packet : Frame) (exit : Exit)
    (keys : s.interfaces.keys = t.interfaces.keys) :
    (leave host me now packet (s, exit)).2 = (leave host me now packet (t, exit)).2 := by
  cases exit with
  | skip => rfl
  | send destination =>
    simp only [leave, send]
    split <;> rfl
  | broadcast =>
    have all : others me (recordSent packet now s) = others me (recordSent packet now t) := congrArg (List.filter _) keys
    simp only [leave, broadcast, all]

theorem agreeCalls (host : Host) (now : Int) (registered : s.Registered me) (agree : Agree me packet s t) :
    (receive host me now packet s).calls = (receive host me now packet t).calls := by
  have there : t.Registered me := by
    rw [Registered, ← agree.keys]
    exact registered
  obtain ⟨exit, _⟩ := agreeSelect host now registered agree
  have first := (selectKeeps host now packet registered).2
  have second := (selectKeeps host now packet there).2
  have keys : (select host me now packet s).1.interfaces.keys = (select host me now packet t).1.interfaces.keys := by
    rw [first, second]
    exact agree.keys
  have left := leaveAlike host me now packet (select host me now packet s).2 keys
  exact left.trans (by rw [exit]; rfl)

theorem receiveWrites (host : Host) (now : Int) (packet : Frame) (registered : s.Registered me) :
    ∃ stats, (receive host me now packet s).storage = { s with
      statisticsTable := stats
      macTable := (select host me now packet s).1.macTable
      sentPackets := if (select host me now packet s).2 = .skip then s.sentPackets
        else s.sentPackets.insert (.ofPdu packet now) } := by
  obtain ⟨mac, stats, sent, same⟩ := receiveFrame host now packet registered
  have table : (receive host me now packet s).storage.macTable = (select host me now packet s).1.macTable := by
    obtain ⟨_, _, kept⟩ := leaveFrame host me now packet (select host me now packet s).1 (select host me now packet s).2
    have same := congrArg SharedStorage.macTable kept
    exact same
  have packets := receiveSent host now packet registered
  refine ⟨stats, ?_⟩
  rw [← table, ← packets, same]

theorem agreeWired (packet : Frame) (same : wired s = wired t) : Agree me packet s t where
  keys := (wiredCommon same).keys
  up := by rw [← wiredUp, same, wiredUp]
  period := (wiredCommon same).period
  sent := by rw [(wiredCommon same).sent]
  table eth _ := by rw [(wiredCommon same).table]

theorem wiredWritten (same : wired s = wired t) (mac : MacTable) (sent : PacketTable) (stats stats' : StatisticsTable) :
    wired { s with statisticsTable := stats, macTable := mac, sentPackets := sent } =
      wired { t with statisticsTable := stats', macTable := mac, sentPackets := sent } :=
  congrArg (fun w : SharedStorage => { w with macTable := mac, sentPackets := sent }) same

theorem receiveAlike (registered : s.Registered me) (same : wired s = wired t) :
    (receive host me now packet s).calls = (receive host me now packet t).calls ∧
      wired (receive host me now packet s).storage = wired (receive host me now packet t).storage := by
  obtain ⟨exit, g, _, first, second⟩ := agreeSelect host now registered (agreeWired packet same)
  obtain ⟨_, here⟩ := receiveWrites host now packet registered
  obtain ⟨_, there⟩ := receiveWrites host now packet ((wiredRegistered same).mp registered)
  refine ⟨agreeCalls host now registered (agreeWired packet same), ?_⟩
  rw [here, there, first, second, exit, (wiredCommon same).table, (wiredCommon same).sent]
  exact wiredWritten same _ _ _ _

end Frames

def Steers (s : SharedStorage) : Request → Prop
  | .editInterface authorization _ (.ok config) => Authorised authorization s ∧ config.up ≠ none
  | .editDevice authorization (.ok config) => Authorised authorization s ∧ config.timeout ≠ none
  | _ => False

theorem respondWired (host : Host) (now : Int) (draws : Draws) {request : Request} {s : SharedStorage}
    (idle : ¬ Steers s request) : wired (respond host now draws request s).2 = wired s := by
  cases request with
  | editInterface authorization id config =>
    simp only [respond, RestHandle.handle, execInterfaceEdit]
    split
    · rfl
    · rfl
    · rfl
    · rename_i u id config checked
      split
      · rename_i it found
        have kept : config.up = none := by
          by_contra up
          exact idle ⟨checked, up⟩
        refine wiredIdle (byIdRegistered found).1 (fun entry => ?_)
        simp only [carrying, editEntry, kept]
      · rfl
  | editDevice authorization config =>
    simp only [respond, RestHandle.handle, execDeviceEdit]
    split
    · rfl
    · rfl
    · rename_i u config checked
      have kept : config.timeout = none := by
        by_contra timeout
        exact idle ⟨checked, timeout⟩
      simp only [wired, RestHandle.editDevice, kept]
  | _ => exact respondPlain (f := wired) (fun _ => rfl) host now draws id

def unsteered (host : Host) : Machine Store Operation := (sections host).restrict (fun s op =>
  ∀ now draws request, op = .request now draws request → ¬ Steers s.storage request)

def carries : Operation → Bool
  | .reset | .start _ | .receive _ _ _ => true
  | .maintain .clearMac | .maintain (.resetMac _) | .maintain (.updateMac _) | .maintain (.updatePackets _) => true
  | .maintain (.applyMac _) | .maintain (.setMacTimeout _) => true
  | _ => false

def treated (host : Host) (s : Store) : Operation → List (List Call)
  | .receive me now packet => [(receive host me now packet s.storage).calls]
  | _ => []

theorem idleWired {host : Host} {s : Store} {op : Operation} (ready : (unsteered host).enabled s op)
    (idle : carries op = false) : wired (perform host op s.storage) = wired s.storage := by
  cases op with
  | signalStop net => exact wiredIdle ready.1.2 (fun _ => rfl)
  | finish net => exact wiredIdle ready.1.2 (fun _ => rfl)
  | request now draws request => exact respondWired host now draws (ready.2 now draws request rfl)
  | maintain m => cases m <;> first | rfl | contradiction
  | startRest => rfl
  | signalStopRest => rfl
  | finishRest => rfl
  | look now => rfl
  | _ => contradiction

theorem performAlike (host : Host) {op : Operation} {s t : SharedStorage} (busy : carries op = true) (ready : admitted s op)
    (same : wired s = wired t) : wired (perform host op s) = wired (perform host op t) := by
  cases op with
  | reset => rfl
  | start net =>
    have opened (s : SharedStorage) : wired (NetworkHandle.start net s) =
        { wired s with interfaces := (wired s).interfaces.update net (fun _ => ⟨⟨false, false⟩, true, []⟩) } := by
      have table : (s.interfaces.update net (fun _ => ⟨⟨true, false⟩, true, []⟩)).mapValues carrying =
          (s.interfaces.mapValues carrying).update net (fun _ => ⟨⟨false, false⟩, true, []⟩) :=
        OrderedTable.mapValuesUpdate s.interfaces (fun _ => rfl)
      exact congrArg (fun table => { wired s with interfaces := table }) table
    simp only [perform, opened, same]
  | receive me now packet => exact (receiveAlike ready same).2
  | maintain m =>
    have commutes (s : SharedStorage) : wired (maintain m s) = maintain m (wired s) := by cases m <;> rfl
    simp only [perform, commutes, same]
  | _ => contradiction

theorem admittedAlike {op : Operation} {s t : SharedStorage} (same : wired s = wired t) (ready : admitted s op) :
    admitted t op := by
  cases op with
  | signalStop net => exact (wiredRegistered same).mp ready
  | finish net => exact (wiredRegistered same).mp ready
  | receive me now packet => exact (wiredRegistered same).mp ready
  | _ => trivial

theorem treatedAlike {host : Host} {op : Operation} {s t : Store} (same : wired s.storage = wired t.storage)
    (ready : admitted s.storage op) : treated host t op = treated host s op := by
  cases op with
  | receive me now packet => exact congrArg (fun calls => [calls]) (receiveAlike ready same).1.symm
  | _ => rfl

theorem aloneHidden {host : Host} {s t : Store} {op : Operation} (ready : (unsteered host).enabled s op)
    (idle : carries op = false) (alike : Alike wired s t) :
    treated host s op = [] ∧ Alike wired ((unsteered host).step s op) t := by
  refine ⟨?_, (idleWired ready idle).trans alike.storage, alike.clock.trans (clockForward ready.1)⟩
  cases op with
  | receive me now packet => contradiction
  | _ => rfl

theorem aloneKept {host : Host} {s t : Store} {op : Operation} (ready : (unsteered host).enabled s op)
    (busy : carries op = true) (alike : Alike wired s t) : (unsteered host).enabled t op ∧
      treated host t op = treated host s op ∧ Alike wired ((unsteered host).step s op) ((unsteered host).step t op) := by
  obtain ⟨order, clock⟩ := earlier alike.clock ready.1.1
  refine ⟨⟨⟨order, admittedAlike alike.storage ready.1.2⟩, ?_⟩, treatedAlike alike.storage ready.1.2,
    performAlike host busy ready.1.2 alike.storage, clock⟩
  rintro now draws request rfl
  contradiction

/- Without the requests it is a run all the same, and every frame is treated as it was. -/
theorem framesUntouched {host : Host} {s u : Store} {ops : List Operation} (run : (unsteered host).Run s ops u) :
    ∃ v, (sections host).Run s (ops.filter carries) v ∧ wired v.storage = wired u.storage ∧
      Machine.trace (sections host) (treated host) s (ops.filter carries) =
        Machine.trace (sections host) (treated host) s ops := by
  have start : Alike wired s s := ⟨rfl, le_refl _⟩
  obtain ⟨v, shorter, alike, same⟩ := Machine.purge (fun _ _ _ ready idle alike => aloneHidden ready idle alike)
    (fun _ _ _ ready busy alike => aloneKept ready busy alike) run start
  refine ⟨v, Machine.runUnrestrict shorter, alike.storage.symm, ?_⟩
  simpa only [unsteered, Machine.traceRestrict] using same

def benchMeddled : List Operation :=
  [.request 1 benchDraws (.login (.ok (text "root", text "root"))),
    .request 2 benchDraws (.editInterface (text "Bearer " ++ benchToken) (.ok 2) (.ok ⟨some (text "lan"), none⟩)),
    .request 3 benchDraws (.editInterface (text "Bearer ") (.ok 2) (.ok ⟨none, some 0⟩)),
    .receive ⟨1⟩ 4 (benchFrame 9 7)]

theorem framesUntouchedBench : (benchMeddled.filter carries).length = 1 ∧
    Machine.trace (sections bench) (treated bench) benchStore (benchMeddled.filter carries) =
      Machine.trace (sections bench) (treated bench) benchStore benchMeddled := by
  have run : ∃ u, (unsteered bench).Run benchStore benchMeddled u := by
    refine ⟨_, .cons ⟨⟨by decide, trivial⟩, ?_⟩ (.cons ⟨⟨by decide, trivial⟩, ?_⟩ (.cons ⟨⟨by decide, trivial⟩, ?_⟩
      (.cons ⟨⟨by decide, by decide⟩, ?_⟩ (.nil _))))⟩
    · rintro now draws request ⟨⟩
      exact id
    · rintro now draws request ⟨⟩
      exact fun steers => steers.2 rfl
    · rintro now draws request ⟨⟩
      rintro ⟨authorised, _⟩
      contradiction
    · rintro now draws request ⟨⟩
  obtain ⟨u, run⟩ := run
  obtain ⟨_, _, _, same⟩ := framesUntouched run
  exact ⟨by decide, same⟩

end TrafficIndependence
end PsipSwitch
