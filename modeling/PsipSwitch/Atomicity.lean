import PsipSwitch.Lib.Mutex
import PsipSwitch.Refinement
import PsipSwitch.RestStatements
import PsipSwitch.ViewStatements

/-! Why a locked section may be taken as one operation. The threads go through their sections
statement by statement, as many threads as there may be, and the mutex is all that keeps them
apart; what comes of it is a run of whole sections. -/
namespace PsipSwitch
namespace Atomicity
open NetworkSwitch (Store Operation Maintenance SwitchState sections perform benchStore bench)
open MainWindow (InterfaceData interfaceData)
open NetworkHandle (Call)
open Program (alone)
open Statements (Body put)
open Mutex (Threads Turn Settles)
open TableModels (Variant ModelIndex)

/- A section and the moments of it, which are counted from the time it begins. -/
inductive Section where
  | operation (op : Operation)
  | state (served : Option RestThreadHandle)
  | interfaces (first second : Interface)
  | currentTimeout
  | statisticsRows (net : Interface)
  | macRows
  | sessionRows
  | statisticsCell (net : Interface) (index : ModelIndex)
  | macCell (delay : Int) (index : ModelIndex)
  | sessionCell (delay : Int) (index : ModelIndex)

def maintenanceAfter (clock : Int) : Maintenance → Maintenance
  | .resetMac r => .resetMac (r.after clock)
  | .updateMac r => .updateMac (r.after clock)
  | .updatePackets r => .updatePackets (r.after clock)
  | .updateSessions r => .updateSessions (r.after clock)
  | m => m

def after (clock : Int) : Operation → Operation
  | .receive me delay packet => .receive me (clock + delay) packet
  | .request delay draws request => .request (clock + delay) draws request
  | .maintain m => .maintain (maintenanceAfter clock m)
  | .look delay => .look (clock + delay)
  | op => op

inductive Answer where
  | nothing
  | reception (calls : List Call) (running : Bool)
  | reply (outcome : RestHandle.Outcome)
  | state (s : SwitchState)
  | interfaces (active : InterfaceData × InterfaceData)
  | timeout (shown : Text)
  | rows (count : Int32)
  | cell (value : Variant)

def maintain : Maintenance → Body Unit
  | .clearMac => put NetworkSwitch.clearMac
  | .clearStats => put NetworkSwitch.clearStats
  | .clearStatsOf requiredInterface => Statements.clearStatsOf requiredInterface
  | .clearSessions => put NetworkSwitch.clearSessions
  | .resetMac r => Statements.timed r Statements.resetMac
  | .applyMac newTimeout => put (NetworkSwitch.applyMac newTimeout)
  | .setMacTimeout newTimeout => put (NetworkSwitch.setMacTimeout newTimeout)
  | .updateMac r => Statements.timed r Statements.sweepMac
  | .updatePackets r => Statements.timed r Statements.sweepPackets
  | .updateSessions r => Statements.timed r Statements.sweepSessions

def silently (body : Body Unit) : Body Answer := do
  body
  return .nothing

def operation (host : Host) : Operation → Body Answer
  | .reset => silently Statements.reset
  | .start net => silently (Statements.start net)
  | .signalStop net => silently (put (NetworkHandle.signalStop net))
  | .finish net => silently (put (NetworkHandle.finish net))
  | .receive me delay packet => do
    let at_ ← Statements.now delay
    let received ← Statements.receive host me at_ packet
    return .reception received.1 received.2
  | .startRest => silently Statements.startRest
  | .signalStopRest => silently (put RestHandle.signalStop)
  | .finishRest => silently (put RestHandle.finish)
  | .request delay draws request => do
    let at_ ← Statements.now delay
    return .reply (← Statements.respond host at_ draws request)
  | .maintain m => silently (maintain m)
  | .look delay => silently (do let _ ← Statements.now delay)

def body (host : Host) : Section → Body Answer
  | .operation op => operation host op
  | .state served => do return .state (← Statements.state served.isSome)
  | .interfaces first second => do return .interfaces (← Statements.interfaces host first second)
  | .currentTimeout => do return .timeout (← Statements.currentTimeout)
  | .statisticsRows net => do return .rows (← Statements.statisticsRowCount net)
  | .macRows => do return .rows (← Statements.look TableModels.MacModel.rowCount)
  | .sessionRows => do return .rows (← Statements.look TableModels.SessionsModel.rowCount)
  | .statisticsCell net index => do return .cell (← Statements.statisticsCell net index)
  | .macCell delay index => do
    let at_ ← Statements.now delay
    return .cell (← Statements.macCell host at_ index)
  | .sessionCell delay index => do
    let at_ ← Statements.now delay
    return .cell (← Statements.sessionCell at_ index)

def allowed (host : Host) (s : Store) : Section → Prop
  | .operation op => (sections host).enabled s (after s.clock op)
  | .interfaces first second => s.storage.Registered first ∧ s.storage.Registered second
  | .macCell delay _ | .sessionCell delay _ => 0 ≤ delay
  | _ => True

def answer (host : Host) (s : Store) : Section → Answer
  | .operation op => match after s.clock op with
    | .receive me at_ packet =>
        .reception (NetworkHandle.receive host me at_ packet s.storage).calls
          (NetworkHandle.receive host me at_ packet s.storage).running
    | .request at_ draws request => .reply (RestHandle.respond host at_ draws request s.storage).1
    | _ => .nothing
  | .state served => .state (NetworkSwitch.state ⟨s.storage, none, none, served, 0⟩)
  | .interfaces first second => .interfaces (interfaceData host first s.storage, interfaceData host second s.storage)
  | .currentTimeout => .timeout (text (toString (s.storage.deviceInfo.defaultMacTimeout.tdiv 1000)))
  | .statisticsRows net => .rows (TableModels.StatisticsModel.rowCount net s.storage)
  | .macRows => .rows (TableModels.MacModel.rowCount s.storage)
  | .sessionRows => .rows (TableModels.SessionsModel.rowCount s.storage)
  | .statisticsCell net index => .cell (TableModels.StatisticsModel.scan net index 0 s.storage.statisticsTable.entries)
  | .macCell delay index =>
      .cell (TableModels.scan (TableModels.MacModel.cell host (s.clock + delay)) index 0 s.storage.macTable.entries)
  | .sessionCell delay index =>
      .cell (TableModels.scan (TableModels.SessionsModel.cell (s.clock + delay)) index 0 s.storage.sessions)

def taken (host : Host) (s : Store) : Section → Store
  | .operation op => (sections host).step s (after s.clock op)
  | .interfaces first second => { s with storage := (s.storage.touch first).touch second }
  | .macCell delay _ | .sessionCell delay _ => { s with clock := s.clock + delay }
  | _ => s

theorem aloneSilently {b : Body Unit} {s t : Store} (ends : alone b s = some ((), t)) :
    alone (silently b) s = some (.nothing, t) := by
  rw [silently, Program.aloneBind, ends]
  rfl

theorem aloneMaintain (m : Maintenance) (s : Store) : alone (maintain m) s =
    some ((), ⟨NetworkSwitch.maintain (maintenanceAfter s.clock m) s.storage,
      (maintenanceAfter s.clock m).ends.getD s.clock⟩) := by
  cases m with
  | clearMac => rfl
  | clearStats => rfl
  | clearStatsOf requiredInterface => exact Statements.aloneClearStatsOf
  | clearSessions => rfl
  | resetMac r => exact Statements.aloneTimed (fun r _ => Statements.aloneResetMac r)
  | applyMac newTimeout => rfl
  | setMacTimeout newTimeout => rfl
  | updateMac r => exact Statements.aloneTimed (fun r _ => Statements.aloneSweepMac r)
  | updatePackets r => exact Statements.aloneTimed (fun r _ => Statements.aloneSweepPackets r)
  | updateSessions r => exact Statements.aloneTimed (fun r _ => Statements.aloneSweepSessions r)

theorem aloneOperation (host : Host) (op : Operation) (s : Store) :
    alone (operation host op) s = some (answer host s (.operation op), taken host s (.operation op)) := by
  cases op with
  | reset => exact aloneSilently Statements.aloneReset
  | start net => exact aloneSilently Statements.aloneStart
  | signalStop net => exact aloneSilently (Statements.alonePut _ s)
  | finish net => exact aloneSilently (Statements.alonePut _ s)
  | receive me delay packet =>
    simp only [operation, Program.aloneBind, Statements.aloneNow, Option.bind_some, Statements.aloneReceive]
    rfl
  | startRest => rfl
  | signalStopRest => rfl
  | finishRest => rfl
  | request delay draws request =>
    simp only [operation, Program.aloneBind, Statements.aloneNow, Option.bind_some, Statements.aloneRespond]
    rfl
  | maintain m => exact aloneSilently (aloneMaintain m s)
  | look delay => rfl

theorem aloneBody (host : Host) (c : Section) (s : Store) :
    alone (body host c) s = some (answer host s c, taken host s c) := by
  cases c with
  | operation op => exact aloneOperation host op s
  | state served =>
    simp only [body, Program.aloneBind, Statements.aloneState, Option.bind_some]
    rfl
  | interfaces first second =>
    simp only [body, Program.aloneBind, Statements.aloneInterfaces, Option.bind_some]
    rfl
  | currentTimeout => rfl
  | statisticsRows net =>
    simp only [body, Program.aloneBind, Statements.aloneRowCount, Option.bind_some]
    rfl
  | macRows => rfl
  | sessionRows => rfl
  | statisticsCell net index =>
    simp only [body, Program.aloneBind, Statements.aloneStatisticsCell, Option.bind_some]
    rfl
  | macCell delay index =>
    simp only [body, Program.aloneBind, Statements.aloneNow, Statements.aloneMacCell, Option.bind_some]
    rfl
  | sessionCell delay index =>
    simp only [body, Program.aloneBind, Statements.aloneNow, Statements.aloneSessionCell, Option.bind_some]
    rfl

section Machines
variable {ι : Type} {host : Host}

def taking (host : Host) : Machine Store (ι × Section) where
  enabled s e := allowed host s e.2
  step s e := taken host s e.2

def answers (host : Host) (s : Store) (e : ι × Section) : List ((ι × Section) × Answer) := [(e, answer host s e.2)]

def operations (s : Store) (e : ι × Section) : List Operation := match e.2 with
  | .operation op => [after s.clock op]
  | .macCell delay _ | .sessionCell delay _ => [.look (s.clock + delay)]
  | _ => []

theorem wholeTaking : Mutex.whole (ι := ι) (allowed host) (body host) = taking host := by
  simp only [Mutex.whole, taking, aloneBody, Option.map_some, Option.getD_some]

theorem givesAnswers : Mutex.gives (ι := ι) (body host) = answers host := by
  funext s e
  simp only [Mutex.gives, answers, aloneBody, Option.map_some, Option.toList_some]

theorem takingSections {s u : Store} {es : List (ι × Section)} (run : (taking host).Run s es u) :
    (sections host).Run s (Machine.trace (taking host) operations s es) u := by
  induction run with
  | nil s => exact .nil s
  | @cons s e es u ready rest ih =>
    obtain ⟨i, c⟩ := e
    cases c with
    | operation op => exact .cons ready ih
    | interfaces first second =>
      have idle : (taking host).step s (i, .interfaces first second) = s := by
        obtain ⟨there, also⟩ := ready
        simp only [taking, taken, SharedStorage.touchRegistered there, SharedStorage.touchRegistered also]
      rw [idle] at ih
      simp only [Machine.trace, operations, List.nil_append, idle]
      exact ih
    | macCell delay index => exact .cons ⟨Int.le_add_of_nonneg_right ready, trivial⟩ ih
    | sessionCell delay index => exact .cons ⟨Int.le_add_of_nonneg_right ready, trivial⟩ ih
    | _ => exact ih

theorem bodiesWhole : Mutex.Whole (allowed host) (body host) := fun s c _ => ⟨_, aloneBody host c s⟩

variable [DecidableEq ι]

def threads (host : Host) : Machine (Threads ι Store Section Answer) (Turn ι Section) :=
  Mutex.locking (allowed host) (body host)

def benchFrameSection : Section := .operation (.receive ⟨1⟩ 0 (NetworkSwitch.benchFrame 9 7))

def benchWaiting : Threads Bool Store Section Answer :=
  (threads bench).step ((threads bench).step (.opened benchStore) (.ask true benchFrameSection)) (.ask false (.state none))

def benchInside : Threads Bool Store Section Answer :=
  (threads bench).step ((threads bench).step benchWaiting (.lock true)) (.own true)

end Machines

end Atomicity
end PsipSwitch
