import PsipSwitch.Lib.Machine
import PsipSwitch.NetworkHandle
import PsipSwitch.RestHandle

/-! The main thread's operations and the two machines of the program. `sections` is
the storage under its mutex: its steps are the locked sections of all threads, in
any order. `switching` adds the handles and the life of the threads they started. -/
namespace PsipSwitch
open Sweep (Readings sweep sweepSublist touchTable)

structure NetworkThreadHandle where
  interface : Interface
  alive : Bool
  deriving DecidableEq, Repr

structure RestThreadHandle where
  port : Int
  alive : Bool
  deriving DecidableEq, Repr

/- An orphan is a thread that is still there after its handle has been replaced. -/
structure NetworkSwitch where
  storage : SharedStorage
  interface1 : Option NetworkThreadHandle
  interface2 : Option NetworkThreadHandle
  restThread : Option RestThreadHandle
  orphans : Nat
  deriving DecidableEq

namespace NetworkSwitch

def clearMac (s : SharedStorage) : SharedStorage := { s with macTable := .empty }

def clearStats (s : SharedStorage) : SharedStorage := { s with statisticsTable := .empty }

def clearStatsOf (requiredInterface : Interface) (s : SharedStorage) : SharedStorage :=
  { s with statisticsTable := s.statisticsTable.filter (fun it => it.1.target != requiredInterface) }

def clearSessions (s : SharedStorage) : SharedStorage := { s with sessions := [] }

def renewed (entry : MacEntry) (now : Int) : MacEntry := { entry with expiration := entry.expiration.reset now }

def resetMac (r : Readings) (s : SharedStorage) : SharedStorage :=
  { s with macTable := touchTable renewed r.time s.macTable }

def applyMac (newTimeout : Int) (s : SharedStorage) : SharedStorage :=
  { s with deviceInfo := { s.deviceInfo with defaultMacTimeout := newTimeout } }

def setMacTimeout (newTimeout : Int) (s : SharedStorage) : SharedStorage :=
  applyMac (RestHandle.milliseconds newTimeout) s

def updateMac (r : Readings) (s : SharedStorage) : SharedStorage :=
  { s with
    macTable := s.macTable.shrink
      (sweep (fun it now => it.2.expiration.expired now) r.time 0 s.macTable.entries) (sweepSublist _ _ _ _) }

def updatePackets (r : Readings) (s : SharedStorage) : SharedStorage :=
  { s with
    sentPackets := s.sentPackets.shrink
      (sweep (fun it now => it.expiration.expired now) r.time 0 s.sentPackets.packets) (sweepSublist _ _ _ _) }

def updateSessions (r : Readings) (s : SharedStorage) : SharedStorage :=
  { s with sessions := sweep (fun it now => it.expiration.expired now) r.time 0 s.sessions }

inductive Maintenance where
  | clearMac
  | clearStats
  | clearStatsOf (requiredInterface : Interface)
  | clearSessions
  | resetMac (r : Readings)
  | applyMac (newTimeout : Int)
  | setMacTimeout (newTimeout : Int)
  | updateMac (r : Readings)
  | updatePackets (r : Readings)
  | updateSessions (r : Readings)

def maintain : Maintenance → SharedStorage → SharedStorage
  | .clearMac => clearMac
  | .clearStats => clearStats
  | .clearStatsOf requiredInterface => clearStatsOf requiredInterface
  | .clearSessions => clearSessions
  | .resetMac r => resetMac r
  | .applyMac newTimeout => applyMac newTimeout
  | .setMacTimeout newTimeout => setMacTimeout newTimeout
  | .updateMac r => updateMac r
  | .updatePackets r => updatePackets r
  | .updateSessions r => updateSessions r

/- The machine of locked sections. Those of the table models only look at the storage. -/

inductive Operation where
  | reset
  | start (net : Interface)
  | signalStop (net : Interface)
  | finish (net : Interface)
  | receive (me : Interface) (now : Int) (packet : Frame)
  | startRest
  | signalStopRest
  | finishRest
  | request (now : Int) (draws : Draws) (request : RestHandle.Request)
  | maintain (m : Maintenance)
  | look (now : Int)

def perform (host : Host) : Operation → SharedStorage → SharedStorage
  | .reset, s => s.reset
  | .start net, s => NetworkHandle.start net s
  | .signalStop net, s => NetworkHandle.signalStop net s
  | .finish net, s => NetworkHandle.finish net s
  | .receive me now packet, s => (NetworkHandle.receive host me now packet s).storage
  | .startRest, s => RestHandle.start s
  | .signalStopRest, s => RestHandle.signalStop s
  | .finishRest, s => RestHandle.finish s
  | .request now draws request, s => (RestHandle.respond host now draws request s).2
  | .maintain m, s => maintain m s
  | .look _, s => s

def admitted (s : SharedStorage) : Operation → Prop
  | .signalStop net | .finish net | .receive net _ _ => s.Registered net
  | _ => True

instance (s : SharedStorage) : (op : Operation) → Decidable (admitted s op)
  | .signalStop net | .finish net | .receive net _ _ => inferInstanceAs (Decidable (s.Registered net))
  | .reset | .start _ | .startRest | .signalStopRest | .finishRest | .request _ _ _ | .maintain _ | .look _ =>
      .isTrue trivial

def Maintenance.begins : Maintenance → Option Int
  | .resetMac r | .updateMac r | .updatePackets r | .updateSessions r => some r.first
  | _ => none

def Maintenance.ends : Maintenance → Option Int
  | .resetMac r | .updateMac r | .updatePackets r | .updateSessions r => some r.last
  | _ => none

def Operation.begins : Operation → Option Int
  | .receive _ now _ | .request now _ _ | .look now => some now
  | .maintain m => m.begins
  | _ => none

def Operation.ends : Operation → Option Int
  | .receive _ now _ | .request now _ _ | .look now => some now
  | .maintain m => m.ends
  | _ => none

/- The clock is the last reading of it, and no later one lies before it. -/
structure Store where
  storage : SharedStorage
  clock : Int
  deriving DecidableEq

def sections (host : Host) : Machine Store Operation where
  enabled s op := s.clock ≤ op.begins.getD s.clock ∧ admitted s.storage op
  step s op := ⟨perform host op s.storage, op.ends.getD s.clock⟩

theorem clockForward {host : Host} {s : Store} {op : Operation} (ready : (sections host).enabled s op) :
    s.clock ≤ ((sections host).step s op).clock := by
  have order := ready.1
  change s.clock ≤ op.ends.getD s.clock
  cases op with
  | maintain m =>
    cases m with
    | resetMac r => exact order.trans r.firstLeLast
    | updateMac r => exact order.trans r.firstLeLast
    | updatePackets r => exact order.trans r.firstLeLast
    | updateSessions r => exact order.trans r.firstLeLast
    | _ => exact order
  | _ => exact order

theorem clockRun {host : Host} {s t : Store} {ops : List Operation}
    (run : (sections host).Run s ops t) : s.clock ≤ t.clock := by
  induction run with
  | nil => exact le_refl _
  | cons ready rest ih => exact (clockForward ready).trans ih

/- From one startNetwork to the next. The first interface may receive frames while the
second one is still to be started. -/
def restarts : Operation → Prop
  | .reset => True
  | _ => False

def session (host : Host) : Machine Store Operation := (sections host).restrict (fun _ op => ¬ restarts op)

inductive SwitchState where
  | idle | runningNetwork | runningRest | stopping
  deriving DecidableEq, Repr

def scan : List (Interface × InterfaceEntry) → Option SwitchState
  | [] => none
  | it :: rest =>
      if it.2.control.running = false ∧ it.2.control.finished = false then some .stopping
      else if it.2.control.running = true ∧ it.2.control.finished = false then some .runningNetwork
      else scan rest

def state (s : NetworkSwitch) : SwitchState :=
  if s.storage.restThread.running = true then .runningRest
  else match scan s.storage.interfaces.entries with
    | some found => found
    | none =>
      if s.restThread.isSome ∧ s.storage.restThread.running = false ∧ s.storage.restThread.finished = false then
        .stopping
      else .idle

/- Destroying a handle waits until its thread has run its final section. -/

def joinNetwork (handle : Option NetworkThreadHandle) (s : SharedStorage) :
    Option NetworkThreadHandle × SharedStorage :=
  match handle with
  | some h => if h.alive then (some { h with alive := false }, NetworkHandle.finish h.interface s) else (some h, s)
  | none => (none, s)

def joinRest (handle : Option RestThreadHandle) (s : SharedStorage) : Option RestThreadHandle × SharedStorage :=
  match handle with
  | some h => if h.alive then (some { h with alive := false }, RestHandle.finish s) else (some h, s)
  | none => (none, s)

inductive StartFailure where
  | invalidInterface (name : Text)
  deriving DecidableEq, Repr

abbrev Main := Fallible StartFailure NetworkSwitch

def networkInterface (host : Host) (name : Text) : Main Interface :=
  Fallible.ofExcept (match host.byName name with
    | some net => .ok net
    | none => .error (.invalidInterface name))

def replaceFirst (net : Interface) (s : NetworkSwitch) : NetworkSwitch :=
  let joined := joinNetwork s.interface1 s.storage
  { s with
    interface1 := some ⟨net, false⟩
    storage := joined.2
    orphans := s.orphans + (joined.1.any (·.alive)).toNat }

def replaceSecond (net : Interface) (s : NetworkSwitch) : NetworkSwitch :=
  let joined := joinNetwork s.interface2 s.storage
  { s with
    interface2 := some ⟨net, false⟩
    storage := joined.2
    orphans := s.orphans + (joined.1.any (·.alive)).toNat }

def resetStorage (s : NetworkSwitch) : NetworkSwitch := { s with storage := s.storage.reset }

def startFirst (net : Interface) (s : NetworkSwitch) : NetworkSwitch :=
  { s with interface1 := some ⟨net, true⟩, storage := NetworkHandle.start net s.storage }

def startSecond (net : Interface) (s : NetworkSwitch) : NetworkSwitch :=
  { s with interface2 := some ⟨net, true⟩, storage := NetworkHandle.start net s.storage }

def startNetwork (host : Host) (name1 name2 : Text) : Main Unit := do
  let current ← get
  if current.state ≠ .idle then pure ()
  else
    let net1 ← networkInterface host name1
    modify (replaceFirst net1)
    let net2 ← networkInterface host name2
    modify (replaceSecond net2)
    modify resetStorage
    modify (startFirst net1)
    modify (startSecond net2)

def startRest (port : Int) (s : NetworkSwitch) : NetworkSwitch :=
  if s.state ≠ .runningNetwork then s
  else
    let joined := joinRest s.restThread s.storage
    { s with
      restThread := some ⟨port, true⟩
      storage := RestHandle.start joined.2
      orphans := s.orphans + (joined.1.any (·.alive)).toNat }

def stopHandle (handle : Option NetworkThreadHandle) (s : SharedStorage) : SharedStorage :=
  match handle with
  | some h => NetworkHandle.signalStop h.interface s
  | none => s

def stopNetwork (s : NetworkSwitch) : NetworkSwitch :=
  { s with storage := stopHandle s.interface2 (stopHandle s.interface1 s.storage) }

def stopRest (s : NetworkSwitch) : NetworkSwitch :=
  match s.restThread with
  | some _ => { s with storage := RestHandle.signalStop s.storage }
  | none => s

def interfaces (s : NetworkSwitch) : NetworkSwitch :=
  match s.interface1, s.interface2 with
  | some h1, some h2 => { s with storage := (s.storage.touch h1.interface).touch h2.interface }
  | _, _ => s

inductive Port where
  | first | second
  deriving DecidableEq, Repr

def handleAt (s : NetworkSwitch) : Port → Option NetworkThreadHandle
  | .first => s.interface1
  | .second => s.interface2

def bury (s : NetworkSwitch) : Port → NetworkSwitch
  | .first => { s with interface1 := s.interface1.map (fun h => { h with alive := false }) }
  | .second => { s with interface2 := s.interface2.map (fun h => { h with alive := false }) }

inductive Event where
  | startNetwork (name1 name2 : Text)
  | startRest (port : Int)
  | stopNetwork
  | stopRest
  | interfaces
  | maintain (m : Maintenance)
  | receive (at_ : Port) (now : Int) (packet : Frame)
  | request (now : Int) (draws : Draws) (request : RestHandle.Request)
  | exitNetwork (at_ : Port)
  | exitRest

def NetworkLive (s : NetworkSwitch) (p : Port) : Prop := ∃ h, s.handleAt p = some h ∧ h.alive = true

def RestLive (s : NetworkSwitch) : Prop := ∃ h, s.restThread = some h ∧ h.alive = true

/- stopNetwork dereferences both handles; the other steps belong to a live thread. -/
def possible (s : NetworkSwitch) : Event → Prop
  | .stopNetwork => s.interface1.isSome ∧ s.interface2.isSome
  | .receive p _ _ | .exitNetwork p => s.NetworkLive p
  | .request _ _ _ | .exitRest => s.RestLive
  | _ => True

def onInterface (s : NetworkSwitch) (p : Port) (f : Interface → SharedStorage → SharedStorage) : NetworkSwitch :=
  match s.handleAt p with
  | some h => { s with storage := f h.interface s.storage }
  | none => s

def react (host : Host) (s : NetworkSwitch) : Event → NetworkSwitch
  | .startNetwork name1 name2 => (Fallible.exec (startNetwork host name1 name2) s).2
  | .startRest port => s.startRest port
  | .stopNetwork => s.stopNetwork
  | .stopRest => s.stopRest
  | .interfaces => s.interfaces
  | .maintain m => { s with storage := maintain m s.storage }
  | .receive p now packet => s.onInterface p (fun me => perform host (.receive me now packet))
  | .request now draws request => { s with storage := perform host (.request now draws request) s.storage }
  | .exitNetwork p => (s.onInterface p NetworkHandle.finish).bury p
  | .exitRest =>
      { s with
        storage := RestHandle.finish s.storage
        restThread := s.restThread.map (fun h => { h with alive := false }) }

def Event.begins : Event → Option Int
  | .maintain m => m.begins
  | .receive _ now _ | .request now _ _ => some now
  | _ => none

def Event.ends : Event → Option Int
  | .maintain m => m.ends
  | .receive _ now _ | .request now _ _ => some now
  | _ => none

structure System where
  switch : NetworkSwitch
  clock : Int

def initial : NetworkSwitch := ⟨.initial, none, none, none, 0⟩

def Initial (s : System) : Prop := s.switch = initial

def switching (host : Host) : Machine System Event where
  enabled s e := s.clock ≤ e.begins.getD s.clock ∧ s.switch.possible e
  step s e := ⟨s.switch.react host e, e.ends.getD s.clock⟩

/- Starts are tried with the names of two different interfaces of the host. -/
def wellNamed (host : Host) : Event → Prop
  | .startNetwork name1 name2 =>
      ∃ net1 net2, host.byName name1 = some net1 ∧ host.byName name2 = some net2 ∧ net1 ≠ net2
  | _ => True

def operated (host : Host) : Machine System Event := (switching host).restrict (fun _ e => wellNamed host e)

def bench : Host where
  hwAddress net := BitVec.ofNat 48 net.id.toNat
  name net := text "eth" ++ text (toString net.id)
  byName name := if name = text "eth1" then some ⟨1⟩ else if name = text "eth2" then some ⟨2⟩ else none
  present _ _ := true

def benchFrame (src dst : MacAddress) : Frame := ⟨[.ethernetII src dst], 60, [1, 2, 3]⟩

def benchDraws : Draws := fun _ => 0

def benchToken : Text := List.replicate 32 '0'

def benchStore : Store := ⟨NetworkHandle.start ⟨2⟩ (NetworkHandle.start ⟨1⟩ .initial), 0⟩

end NetworkSwitch
end PsipSwitch
