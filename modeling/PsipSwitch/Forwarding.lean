import PsipSwitch.Refinement

/-! Where a frame may go. It never goes back where it came from nor out twice on one
interface, and it only goes out on interfaces of the session: the entries of the MAC
table name no others. A group frame goes out on all the others. -/
namespace PsipSwitch
namespace Forwarding
open NetworkHandle NetworkSwitch SharedStorage

def MacNames (s : SharedStorage) : Prop :=
  ∀ mac entry, s.macTable.find? mac = some entry → s.Registered entry.interface

theorem macNamesKept {s t : SharedStorage} (table : t.macTable = s.macTable)
    (kept : ∀ net, s.Registered net → t.Registered net) (before : MacNames s) : MacNames t := by
  intro mac entry found
  rw [table] at found
  exact kept _ (before mac entry found)

theorem macNamesSet {s : SharedStorage} {net : Interface} (f : InterfaceEntry → InterfaceEntry)
    (before : MacNames s) : MacNames (s.setInterface net f) :=
  macNamesKept (s := s) rfl (fun _ registered => setInterfaceRegistered f registered) before

theorem macNamesUpdate {s : SharedStorage} {me : Interface} (mac : MacAddress) (expiration : Timeout)
    (registered : s.Registered me) (before : MacNames s) {t : SharedStorage}
    (table : t.macTable = s.macTable.update mac (fun _ => ⟨me, expiration⟩))
    (interfaces : t.interfaces = s.interfaces) : MacNames t := by
  intro other entry found
  rw [Registered, interfaces]
  rw [table] at found
  by_cases same : other.rank = mac.rank
  · rw [OrderedTable.findUpdateSame _ _ same] at found
    cases Option.some.inj found
    exact registered
  · rw [OrderedTable.findUpdateOther _ _ same] at found
    exact before other entry found

theorem receiveMacNames {host : Host} {me : Interface} {now : Int} {packet : Frame} {s : SharedStorage}
    (registered : s.Registered me) (before : MacNames s) : MacNames (receive host me now packet s).storage := by
  have interfaces := receiveInterfaces host now packet registered
  rcases receiveMac host now packet registered with same | ⟨mac, learned⟩
  · refine macNamesKept same ?_ before
    intro net present
    rw [Registered, interfaces]
    exact present
  · exact macNamesUpdate mac _ registered before learned interfaces

theorem maintainEntry {m : Maintenance} {s : SharedStorage} {mac : MacAddress} {entry : MacEntry}
    (found : (maintain m s).macTable.find? mac = some entry) :
    ∃ old, s.macTable.find? mac = some old ∧ old.interface = entry.interface := by
  cases m with
  | clearMac => contradiction
  | resetMac r =>
    simp only [maintain, NetworkSwitch.resetMac, Sweep.findTouch, Option.map_eq_some_iff] at found
    obtain ⟨old, present, rfl⟩ := found
    exact ⟨old, present, rfl⟩
  | updateMac r =>
    simp only [maintain, NetworkSwitch.updateMac] at found
    exact ⟨entry, OrderedTable.findShrink found, rfl⟩
  | _ => exact ⟨entry, found, rfl⟩

theorem maintainMacNames (m : Maintenance) {s : SharedStorage} (before : MacNames s) : MacNames (maintain m s) := by
  intro mac entry found
  obtain ⟨old, present, same⟩ := maintainEntry found
  rw [Registered, (Lifecycle.maintainControl m s).keys, ← same]
  exact before mac old present

theorem stepMacNames {host : Host} {s : Store} {op : Operation} (ready : (sections host).enabled s op)
    (before : MacNames s.storage) : MacNames ((sections host).step s op).storage := by
  cases op with
  | reset =>
    intro mac entry found
    contradiction
  | start net => exact macNamesSet _ before
  | signalStop net => exact macNamesSet _ before
  | finish net => exact macNamesSet _ before
  | receive me now packet => exact receiveMacNames ready.2 before
  | request now draws request =>
    exact RestHandle.respondKeeps (P := MacNames) host now draws request (fun _ => before)
      (fun _ _ _ => macNamesSet _ before) (fun _ => before)
  | maintain m => exact maintainMacNames m before
  | _ => exact macNamesKept rfl (fun _ registered => registered) before

theorem reachableMacNames {host : Host} {s : System} (reached : (operated host).Reachable Initial s) :
    MacNames s.switch.storage := by
  refine Machine.reachableInvariant (P := fun s : Store => MacNames s.storage) ?_ ?_
    (Refinement.reachableFollows reached)
  · intro s op ready before
    exact stepMacNames ready before
  · intro s start mac entry found
    rw [start] at found
    contradiction

theorem keysLast {host : Host} {s : Store} {op : Operation} (ready : (session host).enabled s op)
    (settled : ∀ net, op ≠ .start net) :
    ((session host).step s op).storage.interfaces.keys = s.storage.interfaces.keys := by
  cases op with
  | reset => exact absurd trivial ready.2
  | start net => exact absurd rfl (settled net)
  | signalStop net => exact setInterfaceKeys _ ready.1.2
  | finish net => exact setInterfaceKeys _ ready.1.2
  | receive me now packet => exact (Lifecycle.receiveControl host now packet ready.1.2).keys
  | request now draws request => exact (Lifecycle.requestControl host now draws request s.storage).keys
  | maintain m => exact (Lifecycle.maintainControl m s.storage).keys
  | _ => rfl

structure Sound (me : Interface) (s : SharedStorage) (sent : List Interface) : Prop where
  horizon : me ∉ sent
  once : sent.Nodup
  registered : ∀ net ∈ sent, s.Registered net

theorem soundNone (me : Interface) (s : SharedStorage) : Sound me s [] :=
  ⟨List.not_mem_nil, List.nodup_nil, fun _ member => nomatch member⟩

theorem soundOne {me destination : Interface} {s : SharedStorage} (onward : destination ≠ me)
    (registered : s.Registered destination) : Sound me s [destination] := by
  refine ⟨?_, List.nodup_singleton _, ?_⟩
  · intro back
    exact onward (List.mem_singleton.mp back).symm
  · intro net member
    rw [List.mem_singleton.mp member]
    exact registered

theorem memOthers {me net : Interface} {s : SharedStorage} : net ∈ others me s ↔ s.Registered net ∧ net ≠ me := by
  simp [others, Registered]

theorem soundOthers (me : Interface) (s : SharedStorage) : Sound me s (others me s) :=
  ⟨fun back => (memOthers.mp back).2 rfl, s.interfaces.keysNodup.filter _, fun _ member => (memOthers.mp member).1⟩

theorem soundSend {host : Host} {me destination : Interface} {now : Int} {packet : Frame} {s t : SharedStorage}
    (onward : destination ≠ me) (registered : s.Registered destination) :
    Sound me s (transmitted (send host packet destination now t).2) := by
  rw [transmittedSend]
  split
  · exact soundNone me s
  · exact soundOne onward registered

theorem deviceOnward {host : Host} {me net : Interface} {dst : MacAddress} {nets : List Interface}
    (away : dst ≠ host.hwAddress me)
    (found : nets.find? (fun net => dst == host.hwAddress net) = some net) : net ≠ me ∧ net ∈ nets := by
  have hit : dst = host.hwAddress net := by simpa using List.find?_some found
  refine ⟨?_, List.mem_of_find?_eq_some found⟩
  rintro rfl
  exact away hit

theorem soundLeave {host : Host} {me : Interface} {now : Int} {packet : Frame} {dst : MacAddress}
    {s t : SharedStorage} (names : MacNames t) (same : t.interfaces = s.interfaces) :
    Sound me s (transmitted (leave host me now packet (t, unicastExit host me dst t)).2) := by
  have chosen := unicastExitSpec host me dst t
  have present : ∀ net, t.Registered net → s.Registered net := by
    intro net registered
    rw [Registered, ← same]
    exact registered
  generalize unicastExit host me dst t = exit at chosen
  cases chosen with
  | own here => exact soundNone me s
  | device away found =>
    obtain ⟨onward, member⟩ := deviceOnward away found
    exact soundSend onward (present _ member)
  | behind away foreign found back => exact soundNone me s
  | known away foreign found onward => exact soundSend onward (present _ (names dst _ found))
  | unknown away foreign missing =>
    have others : others me t = others me s := by simp only [NetworkHandle.others, same]
    simp only [leave, transmittedBroadcast, others]
    exact soundOthers me s

theorem receiveSound (host : Host) (now : Int) (packet : Frame) {me : Interface} {s : SharedStorage}
    (registered : s.Registered me) (names : MacNames s) :
    Sound me s (transmitted (receive host me now packet s).calls) := by
  have selected := selectSpec host now packet registered
  simp only [receive]
  generalize select host me now packet s = result at selected
  cases selected with
  | refused no => exact soundNone me s
  | own accepted layer source => exact soundNone me s
  | group accepted layer source group =>
    simp only [leave, transmittedBroadcast]
    exact soundOthers me s
  | unicast accepted layer source single => exact soundLeave (macNamesUpdate _ _ registered names rfl rfl) rfl

theorem receiveGroup {host : Host} {me : Interface} {now : Int} {packet : Frame} {s : SharedStorage} {eth : Ethernet}
    (registered : s.Registered me) (accepted : Accepts me now packet s) (layer : packet.ethernet? = some eth)
    (source : eth.srcAddr ≠ host.hwAddress me) (group : Group eth.dstAddr) :
    transmitted (receive host me now packet s).calls = others me s := by
  simp only [receive, selectGroup registered accepted layer source group, leave]
  exact transmittedBroadcast _ _ _ _

theorem findLearned {me : Interface} {src dst : MacAddress} {now : Int} {packet : Frame} {s : SharedStorage} :
    (NetworkHandle.updateMac me src now (inputStatistics packet me s)).macTable.find? dst =
      if dst = src then some ⟨me, ⟨now, s.deviceInfo.defaultMacTimeout⟩⟩ else s.macTable.find? dst := by
  by_cases here : dst = src
  · subst here
    simp only [if_true, NetworkHandle.updateMac, OrderedTable.findUpdateSelf]
    rfl
  · rw [if_neg here]
    exact OrderedTable.findUpdateOther _ _ (fun same => here (MacAddress.rankInjective same))

/- Learning changes the exit of one frame only, the one sent to its own source: it is
known to be behind the receiver now. -/
theorem exitLearned {host : Host} {me : Interface} {src dst : MacAddress} {expiration : Timeout}
    {s t : SharedStorage} (same : t.interfaces = s.interfaces)
    (learned : t.macTable.find? dst = if dst = src then some ⟨me, expiration⟩ else s.macTable.find? dst) :
    unicastExit host me dst t =
      if dst = src ∧ s.interfaces.keys.find? (fun net => dst == host.hwAddress net) = none then .skip
      else unicastExit host me dst s := by
  unfold unicastExit
  rw [same, learned]
  by_cases itself : dst = src
  · cases s.interfaces.keys.find? (fun net => dst == host.hwAddress net) with
    | some device => simp
    | none => simp [itself]
  · simp only [itself, if_false, false_and]

theorem splitHorizon {host : Host} {s : System} {me : Interface} (now : Int) (packet : Frame)
    (reached : (operated host).Reachable Initial s) (registered : s.switch.storage.Registered me) :
    (me ∉ transmitted (receive host me now packet s.switch.storage).calls) ∧
    (transmitted (receive host me now packet s.switch.storage).calls).Nodup ∧
    (∀ net ∈ transmitted (receive host me now packet s.switch.storage).calls, s.switch.storage.Registered net) ∧
    (∀ eth, packet.ethernet? = some eth → duplicate packet now s.switch.storage = false → Group eth.dstAddr →
      (s.switch.storage.interface me).up = true → eth.srcAddr ≠ host.hwAddress me →
      ∀ net, net ∈ transmitted (receive host me now packet s.switch.storage).calls ↔
        s.switch.storage.Registered net ∧ net ≠ me) := by
  have sound := receiveSound host now packet registered (reachableMacNames reached)
  refine ⟨sound.horizon, sound.once, sound.registered, ?_⟩
  intro eth layer miss group up source net
  have accepted : Accepts me now packet s.switch.storage := ⟨by rw [layer]; rfl, up, miss⟩
  rw [receiveGroup registered accepted layer source group, memOthers]

theorem splitHorizonBench : ⟨2⟩ ∈ transmitted
    (receive bench ⟨1⟩ 5 (benchFrame 9 (BitVec.allOnes 48)) Lifecycle.benchStart.switch.storage).calls := by
  have registered : Lifecycle.benchStart.switch.storage.Registered ⟨1⟩ := by decide
  have sound := splitHorizon 5 (benchFrame 9 (BitVec.allOnes 48)) Lifecycle.benchReached registered
  have all := sound.2.2.2 ⟨9, BitVec.allOnes 48⟩ rfl (by decide) (by decide) (by decide) (by decide)
  exact (all ⟨2⟩).mpr ⟨by decide, by decide⟩

end Forwarding
end PsipSwitch
