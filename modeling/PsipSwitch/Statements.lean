import PsipSwitch.Lib.EraseLoop
import PsipSwitch.Lib.Loops
import PsipSwitch.NetworkSwitch

/-! The locked sections of the network threads and of the main thread, statement by statement. A
statement reads or writes the storage once, and a section alone does what its operation does. -/
namespace PsipSwitch
namespace Statements
open NetworkSwitch (Store SwitchState)
open NetworkHandle (Call countOne countAll inputTest outputTest incrementInput incrementOutput jumboToWifi others recordSent)
open Program (alone walk eraseLoop visited)
open Sweep (Readings)

abbrev Body := Program Store

def put (f : SharedStorage → SharedStorage) : Body Unit := .write (fun s => { s with storage := f s.storage })

def look {α : Type} (g : SharedStorage → α) : Body α := .read (fun s => g s.storage)

def entry (net : Interface) : Body InterfaceEntry :=
  .exchange (fun s => { s with storage := s.storage.touch net }) (fun s => (s.storage.touch net).interface net)

def now (delay : Int) : Body Int :=
  .exchange (fun s => { s with clock := s.clock + delay }) (fun s => s.clock + delay)

def start (net : Interface) : Body Unit := do
  put (·.setInterface net (fun _ => .blank))
  put (·.setInterface net (fun old => { old with control := { old.control with running := true } }))
  put (·.setInterface net (fun old => { old with up := true }))

def statistics (test : Protocol → Bool) (increment : StatisticEntry → StatisticEntry) (net : Interface) :
    List Protocol → Body Unit
  | [] => pure ()
  | p :: ps => do
    if test p then put (fun s => { s with statisticsTable := countOne increment net p s.statisticsTable })
    statistics test increment net ps

def inputStatistics (packet : Frame) (net : Interface) : Body Unit :=
  statistics (inputTest packet) incrementInput net Protocol.all

def outputStatistics (packet : Frame) (net : Interface) : Body Unit :=
  statistics (outputTest packet) incrementOutput net Protocol.all

def updateMac (me : Interface) (mac : MacAddress) (at_ : Int) : Body Unit := do
  let timeout ← look (·.deviceInfo.defaultMacTimeout)
  put (fun s => { s with macTable := s.macTable.update mac (fun _ => ⟨me, ⟨at_, timeout⟩⟩) })

def send (host : Host) (packet : Frame) (destination : Interface) (at_ : Int) : Body (List Call) := do
  outputStatistics packet destination
  put (recordSent packet at_)
  if jumboToWifi host packet destination then return [.send destination, .outputStatistics destination]
  else return [.send destination, .outputStatistics destination, .transmit destination]

def broadcastOn (me : Interface) (packet : Frame) (it : Interface × InterfaceEntry) (calls : List Call) :
    Body (ForInStep (List Call)) := do
  if it.1 = me then return .yield calls
  else
    outputStatistics packet it.1
    return .yield (calls ++ [.outputStatistics it.1, .transmit it.1])

def broadcast (me : Interface) (packet : Frame) (at_ : Int) : Body (List Call) := do
  put (recordSent packet at_)
  walk (fun s => s.storage.interfaces.entries) (fun _ => broadcastOn me packet) [.broadcast]

def deviceOf (host : Host) (mac : MacAddress) : Body (Option Interface) :=
  walk (fun s => s.storage.interfaces.entries) (fun _ it found =>
    if mac == host.hwAddress it.1 then pure (.done (some it.1)) else pure (.yield found)) none

def unicast (host : Host) (me : Interface) (dst : MacAddress) (at_ : Int) (packet : Frame) : Body (List Call) := do
  if dst = host.hwAddress me then return []
  else match ← deviceOf host dst with
    | some net => send host packet net at_
    | none => match ← look (·.macTable.find? dst) with
      | some known => if known.interface = me then return [] else send host packet known.interface at_
      | none => broadcast me packet at_

def callback (host : Host) (me : Interface) (at_ : Int) (packet : Frame) : Body (List Call) :=
  match packet.ethernet? with
  | none => return []
  | some eth => do
    if (← entry me).up = false then return []
    else if ← look (NetworkHandle.duplicate packet at_) then return []
    else
      inputStatistics packet me
      if eth.srcAddr = host.hwAddress me then return []
      else if MacAddress.octet eth.dstAddr 0 % 2 ≠ 0 then broadcast me packet at_
      else if MacAddress.isBroadcast eth.dstAddr then broadcast me packet at_
      else
        updateMac me eth.srcAddr at_
        unicast host me eth.dstAddr at_ packet

def receive (host : Host) (me : Interface) (at_ : Int) (packet : Frame) : Body (List Call × Bool) := do
  let calls ← callback host me at_ packet
  return (calls, (← entry me).control.running)

def startRest : Body Unit := do
  put (fun s => { s with restThread := { s.restThread with running := true } })
  put (fun s => { s with restThread := { s.restThread with finished := false } })

def reset : Body Unit := do
  put (fun s => { s with macTable := .empty })
  put (fun s => { s with statisticsTable := .empty })
  put (fun s => { s with sessions := [] })
  put (fun s => { s with deviceInfo.hostname := Settings.defaultHostname })
  put (fun s => { s with deviceInfo.defaultMacTimeout := Settings.defaultMacTimeout })
  put (fun s => { s with sentPackets := .empty })
  put (fun s => { s with interfaces := .empty })

def standing (it : Interface × InterfaceEntry) (found : Option SwitchState) : Body (ForInStep (Option SwitchState)) :=
  if it.2.control.running = false ∧ it.2.control.finished = false then pure (.done (some .stopping))
  else if it.2.control.running = true ∧ it.2.control.finished = false then pure (.done (some .runningNetwork))
  else pure (.yield found)

/- `restThread_m.get() != nullptr` is asked for under the lock, but only the main thread writes it. -/
def state (served : Bool) : Body SwitchState := do
  if (← look (·.restThread.running)) = true then return .runningRest
  else match ← walk (fun s => s.storage.interfaces.entries) (fun _ => standing) none with
    | some found => return found
    | none =>
      if served ∧ (← look (·.restThread.running)) = false ∧ (← look (·.restThread.finished)) = false then
        return .stopping
      else return .idle

def clearStatsOf (requiredInterface : Interface) : Body Unit :=
  eraseLoop (fun s => s.storage.statisticsTable.entries)
    (fun i s => { s with storage.statisticsTable :=
      s.storage.statisticsTable.shrink (s.storage.statisticsTable.entries.eraseIdx i) (List.eraseIdx_sublist _ i) })
    (fun it _ => !(it.1.target != requiredInterface)) (fun _ => 0)

def renew (at_ : Int) (mac : MacAddress) (s : SharedStorage) : SharedStorage :=
  { s with macTable := s.macTable.update mac (fun old => NetworkSwitch.renewed (old.getD ⟨⟨0⟩, ⟨0, 0⟩⟩) at_) }

def resetMac (time : Nat → Int) : Body Unit :=
  walk (fun s => s.storage.macTable.keys) (fun i mac _ => do
    put (renew (time i) mac)
    return .yield ()) ()

def sweepMac (time : Nat → Int) : Body Unit :=
  eraseLoop (fun s => s.storage.macTable.entries)
    (fun i s => { s with storage.macTable :=
      s.storage.macTable.shrink (s.storage.macTable.entries.eraseIdx i) (List.eraseIdx_sublist _ i) })
    (fun it now => it.2.expiration.expired now) time

def sweepPackets (time : Nat → Int) : Body Unit :=
  eraseLoop (fun s => s.storage.sentPackets.packets)
    (fun i s => { s with storage.sentPackets :=
      s.storage.sentPackets.shrink (s.storage.sentPackets.packets.eraseIdx i) (List.eraseIdx_sublist _ i) })
    (fun it now => it.expiration.expired now) time

def sweepSessions (time : Nat → Int) : Body Unit :=
  eraseLoop (fun s => s.storage.sessions) (fun i s => { s with storage.sessions := s.storage.sessions.eraseIdx i })
    (fun it now => it.expiration.expired now) time

def timed (r : Readings) (sweep : (Nat → Int) → Body Unit) : Body Unit := do
  let clock ← .read (fun s => s.clock)
  sweep (r.after clock).time
  .write (fun s => { s with clock := (r.after clock).last })

/-! Alone, they are the operations. -/
section Alone
variable {host : Host} {me net : Interface} {at_ : Int} {packet : Frame} {s : Store}

@[simp] theorem alonePut (f : SharedStorage → SharedStorage) (s : Store) :
    alone (put f) s = some ((), { s with storage := f s.storage }) := rfl

@[simp] theorem aloneLook {α : Type} (g : SharedStorage → α) (s : Store) :
    alone (look g) s = some (g s.storage, s) := rfl

@[simp] theorem aloneEntry (net : Interface) (s : Store) :
    alone (entry net) s = some ((s.storage.touch net).interface net, { s with storage := s.storage.touch net }) := rfl

@[simp] theorem aloneNow (delay : Int) (s : Store) :
    alone (now delay) s = some (s.clock + delay, { s with clock := s.clock + delay }) := rfl

theorem aloneStart : alone (start net) s = some ((), { s with storage := NetworkHandle.start net s.storage }) := by
  simp only [start, Program.aloneBind, alonePut, Option.bind_some, NetworkHandle.start, SharedStorage.setInterface,
    OrderedTable.updateTwice]
  rfl

theorem aloneStatistics (test : Protocol → Bool) (increment : StatisticEntry → StatisticEntry) (ps : List Protocol) :
    alone (statistics test increment net ps) s = some ((), { s with storage := { s.storage with
      statisticsTable := countAll test increment net ps s.storage.statisticsTable } }) := by
  induction ps generalizing s with
  | nil => rfl
  | cons p ps ih =>
    simp only [statistics, countAll, List.foldl_cons]
    cases counts : test p with
    | true => simp only [if_true, Program.aloneBind, alonePut, Option.bind_some, ih, countAll]
    | false => simp only [Bool.false_eq_true, if_false, ih, countAll]

theorem aloneInput : alone (inputStatistics packet net) s =
    some ((), { s with storage := NetworkHandle.inputStatistics packet net s.storage }) := aloneStatistics _ _ _

theorem aloneOutput : alone (outputStatistics packet net) s =
    some ((), { s with storage := NetworkHandle.outputStatistics packet net s.storage }) := aloneStatistics _ _ _

theorem aloneSend : alone (send host packet net at_) s =
    some ((NetworkHandle.send host packet net at_ s.storage).2,
      { s with storage := (NetworkHandle.send host packet net at_ s.storage).1 }) := by
  simp only [send, NetworkHandle.send, Program.aloneBind, aloneOutput, alonePut, Option.bind_some]
  split <;> rfl

theorem aloneBroadcastOn (it : Interface × InterfaceEntry) (calls : List Call) :
    alone (broadcastOn me packet it calls) s =
      some (.yield (if it.1 ≠ me then calls ++ [.outputStatistics it.1, .transmit it.1] else calls),
        if it.1 ≠ me then { s with storage := NetworkHandle.outputStatistics packet it.1 s.storage } else s) := by
  by_cases own : it.1 = me
  · simp [broadcastOn, own]
  · simp [broadcastOn, own, Program.aloneBind, aloneOutput]

theorem othersFold {α : Type} (me : Interface) (f : α → Interface → α) (start : α) (storage : SharedStorage) :
    storage.interfaces.entries.foldl (fun a it => if it.1 ≠ me then f a it.1 else a) start =
      (others me storage).foldl f start := by
  rw [others, OrderedTable.keys, List.foldl_filter, List.foldl_map]
  simp only [decide_eq_true_eq]

theorem storageFold {β : Type} (f : SharedStorage → β → SharedStorage) (xs : List β) (s : Store) :
    xs.foldl (fun s x => { s with storage := f s.storage x }) s = { s with storage := xs.foldl f s.storage } := by
  induction xs generalizing s with
  | nil => rfl
  | cons x xs ih => exact ih _

theorem aloneBroadcast : alone (broadcast me packet at_) s =
    some ((NetworkHandle.broadcast me packet at_ s.storage).2,
      { s with storage := (NetworkHandle.broadcast me packet at_ s.storage).1 }) := by
  simp only [broadcast, Program.aloneBind, alonePut, Option.bind_some]
  rw [Program.aloneWalk, Program.visitedFold (fun _ it calls s => aloneBroadcastOn it calls)]
  · have calls := othersFold me (fun calls net => calls ++ [.outputStatistics net, .transmit net])
      [Call.broadcast] (recordSent packet at_ s.storage)
    have counted := othersFold me
      (fun s net => ({ s with storage := NetworkHandle.outputStatistics packet net s.storage } : Store))
      { s with storage := recordSent packet at_ s.storage } (recordSent packet at_ s.storage)
    rw [calls, counted, storageFold (fun s net => NetworkHandle.outputStatistics packet net s), List.foldl_append_eq_append]
    rfl
  · intro i it calls s d t _ ends
    rw [aloneBroadcastOn] at ends
    cases ends
    split <;> rfl

theorem aloneDeviceOf (mac : MacAddress) : alone (deviceOf host mac) s =
    some (s.storage.interfaces.keys.find? (fun net => mac == host.hwAddress net), s) := by
  refine (Program.aloneSearch (fun s : Store => s.storage.interfaces.entries) (fun it => mac == host.hwAddress it.1)
    (fun it => some it.1) none s).trans ?_
  rw [OrderedTable.keys, List.find?_map]
  have same : (fun net => mac == host.hwAddress net) ∘ Prod.fst =
      fun it : Interface × InterfaceEntry => mac == host.hwAddress it.1 := rfl
  rw [same]
  cases s.storage.interfaces.entries.find? (fun it => mac == host.hwAddress it.1) <;> rfl

theorem aloneUpdateMac (mac : MacAddress) : alone (updateMac me mac at_) s =
    some ((), { s with storage := NetworkHandle.updateMac me mac at_ s.storage }) := rfl

theorem aloneUnicast (dst : MacAddress) : alone (unicast host me dst at_ packet) s =
    some ((NetworkHandle.leave host me at_ packet (s.storage, NetworkHandle.unicastExit host me dst s.storage)).2,
      { s with storage :=
        (NetworkHandle.leave host me at_ packet (s.storage, NetworkHandle.unicastExit host me dst s.storage)).1 }) := by
  unfold unicast NetworkHandle.unicastExit
  split
  · rfl
  · simp only [Program.aloneBind, aloneDeviceOf, Option.bind_some]
    cases s.storage.interfaces.keys.find? (fun net => dst == host.hwAddress net) with
    | some net => exact aloneSend
    | none =>
      simp only [Program.aloneBind, aloneLook, Option.bind_some]
      cases s.storage.macTable.find? dst with
      | some known =>
        simp only
        split
        · rfl
        · exact aloneSend
      | none => exact aloneBroadcast

theorem aloneCallback {eth : Ethernet} (layer : packet.ethernet? = some eth) : alone (callback host me at_ packet) s =
    some ((NetworkHandle.receive host me at_ packet s.storage).calls,
      { s with storage := (NetworkHandle.receive host me at_ packet s.storage).storage }) := by
  simp only [callback, NetworkHandle.receive, NetworkHandle.select, layer, Program.aloneBind, aloneEntry, Option.bind_some]
  by_cases down : ((s.storage.touch me).interface me).up = false
  · simp only [if_pos down]
    rfl
  simp only [if_neg down, Program.aloneBind, aloneLook, Option.bind_some]
  by_cases again : NetworkHandle.duplicate packet at_ (s.storage.touch me) = true
  · simp only [if_pos again]
    rfl
  simp only [if_neg again, Program.aloneBind, aloneInput, Option.bind_some]
  by_cases own : eth.srcAddr = host.hwAddress me
  · simp only [if_pos own]
    rfl
  simp only [if_neg own]
  by_cases group : MacAddress.octet eth.dstAddr 0 % 2 ≠ 0
  · simp only [if_pos group]
    exact aloneBroadcast
  simp only [if_neg group]
  by_cases all : MacAddress.isBroadcast eth.dstAddr = true
  · simp only [if_pos all]
    exact aloneBroadcast
  simp only [if_neg all, Program.aloneBind, aloneUpdateMac, Option.bind_some]
  exact aloneUnicast eth.dstAddr

theorem touchTouched (storage : SharedStorage) : (storage.touch me).touch me = storage.touch me :=
  SharedStorage.touchRegistered (SharedStorage.setInterfaceRegisters _ _ _)

theorem receiveTouched (storage : SharedStorage) :
    NetworkHandle.receive host me at_ packet (storage.touch me) = NetworkHandle.receive host me at_ packet storage := by
  simp only [NetworkHandle.receive, NetworkHandle.select, touchTouched]

theorem receivedTouched (storage : SharedStorage) :
    (NetworkHandle.receive host me at_ packet storage).storage.touch me =
      (NetworkHandle.receive host me at_ packet storage).storage := by
  have there : (storage.touch me).Registered me := SharedStorage.setInterfaceRegisters _ _ _
  have kept := NetworkHandle.receiveInterfaces host at_ packet there
  rw [receiveTouched] at kept
  refine SharedStorage.touchRegistered ?_
  rw [SharedStorage.Registered, kept]
  exact there

theorem aloneReceive : alone (receive host me at_ packet) s =
    some (((NetworkHandle.receive host me at_ packet s.storage).calls,
        (NetworkHandle.receive host me at_ packet s.storage).running),
      { s with storage := (NetworkHandle.receive host me at_ packet s.storage).storage }) := by
  simp only [receive, Program.aloneBind]
  cases layer : packet.ethernet? with
  | none =>
    simp only [callback, layer, Program.alonePure, Option.bind_some, aloneEntry, NetworkHandle.receive,
      NetworkHandle.select, NetworkHandle.leave]
  | some eth =>
    simp only [aloneCallback layer, Option.bind_some, aloneEntry, receivedTouched, Program.alonePure]
    rfl

theorem aloneReset : alone reset s = some ((), { s with storage := s.storage.reset }) := rfl

theorem scanned (i : Nat) (es : List (Interface × InterfaceEntry)) :
    visited (fun _ => standing) i es none s = some (NetworkSwitch.scan es, s) := by
  induction es generalizing i with
  | nil => rfl
  | cons it es ih =>
    simp only [visited, standing, NetworkSwitch.scan]
    by_cases stops : it.2.control.running = false ∧ it.2.control.finished = false
    · simp only [if_pos stops, Program.alonePure]
    simp only [if_neg stops]
    by_cases runs : it.2.control.running = true ∧ it.2.control.finished = false
    · simp only [if_pos runs, Program.alonePure]
    simp only [if_neg runs, Program.alonePure]
    exact ih (i + 1)

theorem aloneState (served : Option RestThreadHandle) : alone (state served.isSome) s =
    some (NetworkSwitch.state ⟨s.storage, none, none, served, 0⟩, s) := by
  simp only [state, NetworkSwitch.state, Program.aloneBind, aloneLook, Option.bind_some]
  by_cases rest : s.storage.restThread.running = true
  · simp only [if_pos rest]
    rfl
  simp only [if_neg rest, Program.aloneBind]
  rw [Program.aloneWalk, scanned]
  · simp only [Option.bind_some]
    cases NetworkSwitch.scan s.storage.interfaces.entries with
    | some found => rfl
    | none =>
      simp only [Program.aloneBind, aloneLook, Option.bind_some]
      split <;> rfl
  · intro i it found s d t _ ends
    unfold standing at ends
    split at ends
    · cases ends
    · split at ends <;> cases ends
      rfl

theorem aloneClearStatsOf : alone (clearStatsOf net) s =
    some ((), { s with storage := NetworkSwitch.clearStatsOf net s.storage }) := by
  refine Program.aloneErase (fun s : Store => s.storage.statisticsTable) (fun t => t.entries)
    (fun s t => { s with storage := { s.storage with statisticsTable := t } })
    (by intros; rfl) (by intros; rfl) (by intros; rfl) (fun u left => OrderedTable.ext ?_)
  rw [left, Sweep.sweepTimeless]
  simp only [Bool.not_not]
  rfl

theorem aloneSweepMac (r : Readings) : alone (sweepMac r.time) s =
    some ((), { s with storage := NetworkSwitch.updateMac r s.storage }) :=
  Program.aloneErase (fun s : Store => s.storage.macTable) (fun t => t.entries)
    (fun s t => { s with storage := { s.storage with macTable := t } })
    (by intros; rfl) (by intros; rfl) (by intros; rfl) (fun _ left => OrderedTable.ext left)

theorem aloneSweepPackets (r : Readings) : alone (sweepPackets r.time) s =
    some ((), { s with storage := NetworkSwitch.updatePackets r s.storage }) :=
  Program.aloneErase (fun s : Store => s.storage.sentPackets) (fun t => t.packets)
    (fun s t => { s with storage := { s.storage with sentPackets := t } })
    (by intros; rfl) (by intros; rfl) (by intros; rfl) (fun _ left => PacketTable.ext left)

theorem aloneSweepSessions (r : Readings) : alone (sweepSessions r.time) s =
    some ((), { s with storage := NetworkSwitch.updateSessions r s.storage }) :=
  Program.aloneErase (fun s : Store => s.storage.sessions) id
    (fun s t => { s with storage := { s.storage with sessions := t } })
    (by intros; rfl) (by intros; rfl) (by intros; rfl) (fun _ left => left)

theorem aloneResetMac (r : Readings) : alone (resetMac r.time) s =
    some ((), { s with storage := NetworkSwitch.resetMac r s.storage }) := by
  rw [resetMac, Program.aloneWalk, Program.visitedEach (f := fun _ _ => ())
    (g := fun i s mac => { s with storage := renew (r.time i) mac s.storage }) (fun _ _ _ _ => rfl)]
  · have turns : ∀ (macs : List MacAddress) (n : Nat) (s : Store),
        Sweep.eachTurn (fun i s mac => { s with storage := renew (r.time i) mac s.storage }) n macs s =
          { s with storage := { s.storage with
            macTable := Sweep.eachTurn (fun i t mac =>
              t.update mac (fun old => NetworkSwitch.renewed (old.getD ⟨⟨0⟩, ⟨0, 0⟩⟩) (r.time i))) n macs s.storage.macTable } } := by
      intro macs
      induction macs with
      | nil => exact fun _ _ => rfl
      | cons mac macs ih => exact fun n s => ih (n + 1) { s with storage := renew (r.time n) mac s.storage }
    rw [turns, Sweep.touchKeys]
    rfl
  · intro i mac c s d t member ends
    cases ends
    exact OrderedTable.updateKeys _ (OrderedTable.containsIff.mpr ⟨mac, member, rfl⟩)

theorem aloneTimed {r : Readings} {sweep : (Nat → Int) → Body Unit} {f : Readings → SharedStorage → SharedStorage}
    (sweeps : ∀ (r : Readings) (s : Store), alone (sweep r.time) s = some ((), { s with storage := f r s.storage })) :
    alone (timed r sweep) s = some ((), ⟨f (r.after s.clock) s.storage, (r.after s.clock).last⟩) := by
  simp only [timed, Program.aloneBind, Program.aloneRead, Option.bind_some, sweeps, Program.aloneWrite]

end Alone

end Statements
end PsipSwitch
