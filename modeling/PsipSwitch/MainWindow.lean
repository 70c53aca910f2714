import PsipSwitch.Lib.Program
import PsipSwitch.NetworkSwitch

/-! The windows of the program. Their slots run on the main thread, one after the other, and
each of them is a program: every read of `state()` and every section of the mutex is an act
of its own, and the network threads and the REST thread go on between two of them. -/
namespace PsipSwitch
open NetworkSwitch (SwitchState Port System Event)
open Sweep (Readings)

structure ComboBox where
  items : List Text
  currentIndex : Int
  enabled : Bool
  deriving DecidableEq, Repr

namespace ComboBox

def clear (box : ComboBox) : ComboBox := { box with items := [], currentIndex := -1 }

/- The first item that comes into an empty box becomes the current one. -/
def addItems (list : List Text) (box : ComboBox) : ComboBox :=
  { box with
    items := box.items ++ list
    currentIndex := if box.items = [] ∧ list ≠ [] then 0 else box.currentIndex }

def setCurrentIndex (index : Int) (box : ComboBox) : ComboBox :=
  { box with currentIndex := if 0 ≤ index ∧ index < box.items.length then index else -1 }

end ComboBox

structure Button where
  caption : Text
  enabled : Bool
  deriving DecidableEq, Repr

structure SpinBox where
  value : Int
  enabled : Bool
  deriving DecidableEq, Repr

structure Ui where
  interface1 : ComboBox
  interface2 : ComboBox
  startStopButton : Button
  restStartStop : Button
  port : SpinBox
  status : Text
  interface1Name : Text
  interface2Name : Text
  interface1Status : Text
  interface2Status : Text
  deriving DecidableEq, Repr

def Ui.initial : Ui where
  interface1 := ⟨[], -1, true⟩
  interface2 := ⟨[], -1, true⟩
  startStopButton := ⟨text "Start", true⟩
  restStartStop := ⟨text "Start REST", false⟩
  port := ⟨8888, false⟩
  status := text "Status: "
  interface1Name := text "InterfaceName"
  interface2Name := text "InterfaceName"
  interface1Status := text "eno2, up"
  interface2Status := text "eno147, down"

structure InfoTable where
  timeoutValue : SpinBox
  acceptTimeout : Button
  currentTimeout : Text
  deriving DecidableEq, Repr

def InfoTable.initial : InfoTable := ⟨⟨1, true⟩, ⟨text "OK", true⟩, text "TextLabel"⟩

/- The main window with all it owns. A statistics model is the interface it shows. -/
structure MainWindow where
  system : System
  quitSignalCatched : Bool
  interfaces : List Interface
  ui : Ui
  info : InfoTable
  threadTimer : Bool
  firstModel : Option Interface
  secondModel : Option Interface

namespace MainWindow

def networkSwitch (w : MainWindow) : NetworkSwitch := w.system.switch

def storage (w : MainWindow) : SharedStorage := w.networkSwitch.storage

def initial (clock : Int) : MainWindow where
  system := ⟨NetworkSwitch.initial, clock⟩
  quitSignalCatched := false
  interfaces := []
  ui := .initial
  info := .initial
  threadTimer := false
  firstModel := none
  secondModel := none

def onSwitch (f : NetworkSwitch → NetworkSwitch) (w : MainWindow) : MainWindow :=
  { w with system := { w.system with switch := f w.networkSwitch } }

def onStorage (f : SharedStorage → SharedStorage) (w : MainWindow) : MainWindow :=
  w.onSwitch (fun s => { s with storage := f s.storage })

def onUi (f : Ui → Ui) (w : MainWindow) : MainWindow := { w with ui := f w.ui }

abbrev Slot := Program MainWindow

def state : Slot SwitchState := .read (fun w => w.networkSwitch.state)

def locked (f : SharedStorage → SharedStorage) : Slot Unit := .write (onStorage f)

def networkInterface (host : Host) (name : Text) : Slot Interface := match host.byName name with
  | some net => pure net
  | none => .fault

/- The new handle is there before the old one is destroyed, which waits for its thread. -/
def resetFirst (net : Interface) : Slot Unit :=
  .await (fun w => !(w.networkSwitch.interface1.any (·.alive)))
    (onSwitch (fun s => { s with
      interface1 := some ⟨net, false⟩
      orphans := s.orphans + (s.interface1.any (·.alive)).toNat }))

def resetSecond (net : Interface) : Slot Unit :=
  .await (fun w => !(w.networkSwitch.interface2.any (·.alive)))
    (onSwitch (fun s => { s with
      interface2 := some ⟨net, false⟩
      orphans := s.orphans + (s.interface2.any (·.alive)).toNat }))

/- A thread lives from the section that announces it. -/
def startNetwork (host : Host) (name1 name2 : Text) : Slot Unit := do
  if (← state) ≠ .idle then return
  let net1 ← networkInterface host name1
  resetFirst net1
  let net2 ← networkInterface host name2
  resetSecond net2
  locked SharedStorage.reset
  .write (onSwitch (NetworkSwitch.startFirst net1))
  .write (onSwitch (NetworkSwitch.startSecond net2))

def int16 (n : Int) : Int := (n + 32768) % 65536 - 32768

def resetRest (port : Int) : Slot Unit :=
  .await (fun w => !(w.networkSwitch.restThread.any (·.alive)))
    (onSwitch (fun s => { s with
      restThread := some ⟨port, false⟩
      orphans := s.orphans + (s.restThread.any (·.alive)).toNat }))

def startRest (port : Int) : Slot Unit := do
  if (← state) ≠ .runningNetwork then return
  resetRest (int16 port)
  .write (fun w => { w with quitSignalCatched := false })
  .write (onSwitch (fun s => { s with
    storage := RestHandle.start s.storage
    restThread := s.restThread.map (fun h => { h with alive := true }) }))

def stopNetwork : Slot Unit := do
  let h1 ← .deref (fun w => w.networkSwitch.interface1)
  locked (NetworkHandle.signalStop h1.interface)
  let h2 ← .deref (fun w => w.networkSwitch.interface2)
  locked (NetworkHandle.signalStop h2.interface)

def stopRest : Slot Unit := do
  if ← .read (fun w => w.networkSwitch.restThread.isSome) then
    .write (fun w => { w.onStorage RestHandle.signalStop with quitSignalCatched := true })

structure InterfaceData where
  name : Text
  identificator : Text
  id : Int
  up : Bool
  networkInterface : Interface
  deriving DecidableEq, Repr

def InterfaceData.blank : InterfaceData := ⟨[], [], 0, false, ⟨0⟩⟩

def interfaceData (host : Host) (net : Interface) (s : SharedStorage) : InterfaceData :=
  ⟨(s.interface net).name, host.name net, net.id.toInt32.toInt, (s.interface net).up, net⟩

def interfacesOf (host : Host) : Slot (InterfaceData × InterfaceData) := do
  match ← .read (fun w => (w.networkSwitch.interface1, w.networkSwitch.interface2)) with
  | (some h1, some h2) =>
      .exchange (onSwitch NetworkSwitch.interfaces)
        (fun w => (interfaceData host h1.interface w.storage, interfaceData host h2.interface w.storage))
  | _ => return (.blank, .blank)

def sweeping (sweep : Readings → SharedStorage → SharedStorage) (r : Readings) (w : MainWindow) : MainWindow :=
  { w.onStorage (sweep (r.after w.system.clock)) with system.clock := (r.after w.system.clock).last }

/- As far as `c_str()` is read. -/
def cStr (content : Text) : Text := content.takeWhile (· ≠ '\x00')

def fillBox (list : List Text) (box : ComboBox) : ComboBox :=
  ((box.clear).addItems list).setCurrentIndex box.currentIndex

def showInterfaces (host : Host) (w : MainWindow) : MainWindow :=
  let list := w.interfaces.map (fun net => cStr (host.name net))
  w.onUi (fun ui => { ui with interface1 := fillBox list ui.interface1, interface2 := fillBox list ui.interface2 })

structure Controls where
  boxes : Bool
  startStop : Button
  rest : Button
  port : Bool

def enable (c : Controls) (ui : Ui) : Ui :=
  { ui with
    interface1.enabled := c.boxes
    interface2.enabled := c.boxes
    startStopButton := c.startStop
    restStartStop := c.rest
    port.enabled := c.port }

def runningNetwork : Controls := ⟨false, ⟨text "Stop", true⟩, ⟨text "Start REST", true⟩, true⟩

def runningRest : Controls := ⟨false, ⟨text "Stop", true⟩, ⟨text "Stop REST", true⟩, true⟩

def idle : Controls := ⟨true, ⟨text "Start", true⟩, ⟨text "Start REST", false⟩, false⟩

def stopping : Controls := ⟨false, ⟨text "Stopping...", false⟩, ⟨text "Stopping REST...", false⟩, false⟩

def upDown (up : Bool) : Text := if up then text "up" else text "down"

def showActive (status : InterfaceData → InterfaceData → Text) (active : InterfaceData × InterfaceData) (ui : Ui) : Ui :=
  { ui with
    status := status active.1 active.2
    interface1Name := cStr active.1.name
    interface2Name := cStr active.2.name
    interface1Status := cStr active.1.identificator ++ text ", " ++ upDown active.1.up
    interface2Status := cStr active.2.identificator ++ text ", " ++ upDown active.2.up }

def statusRunning (first second : InterfaceData) : Text :=
  text "Status: Running on interfaces: " ++ cStr first.identificator ++ text " <-> " ++ cStr second.identificator

/- The number is written out, whatever port was chosen. -/
def statusRest (first second : InterfaceData) : Text := statusRunning first second ++ text "\nREST on port: 8888"

def statusStopping (first second : InterfaceData) : Text :=
  text "Status: Running on interfaces: " ++ cStr first.identificator ++ text " -> " ++ cStr second.identificator ++
  text " (finishing...)"

/- Each branch asks for the state again. -/
def refreshUi (host : Host) : Slot Unit := do
  .write (showInterfaces host)
  if (← state) = .runningNetwork then
    .write (onUi (enable runningNetwork))
    let active ← interfacesOf host
    .write (onUi (showActive statusRunning active))
  else if (← state) = .runningRest then
    .write (onUi (enable runningRest))
    let active ← interfacesOf host
    .write (onUi (showActive statusRest active))
  else if (← state) = .idle then
    .write (onUi (enable idle))
    .write (fun w => { w.onUi (fun ui => { ui with status := text "Status: Idle" }) with threadTimer := false })
  else if (← state) = .stopping then
    .write (onUi (enable stopping))
    let active ← interfacesOf host
    .write (onUi (fun ui => { ui with status := statusStopping active.1 active.2 }))

def infoRefreshUi : Slot Unit := do
  if (← state) = .idle then
    .write (fun w => { w with info.timeoutValue.enabled := false, info.acceptTimeout.enabled := false })
  else
    .write (fun w => { w with info.timeoutValue.enabled := true, info.acceptTimeout.enabled := true })
    .write (fun w => { w with
      info.currentTimeout := text (toString (w.storage.deviceInfo.defaultMacTimeout.tdiv 1000)) })

def sizeT (n : Int) : Nat := (n % 18446744073709551616).toNat

def startNetworkThread (host : Host) : Slot Unit := do
  let w ← .read id
  if w.ui.interface1.currentIndex = -1 ∨ w.ui.interface2.currentIndex = -1 then return
  let if1_index := sizeT w.ui.interface1.currentIndex
  let if2_index := sizeT w.ui.interface2.currentIndex
  if if1_index = if2_index then return
  match w.interfaces[if1_index]?, w.interfaces[if2_index]? with
  | some first, some second =>
      startNetwork host (host.name first) (host.name second)
      .write (fun w => { w with firstModel := some first })
      .write (fun w => { w with secondModel := some second })
      refreshUi host
      .write (fun w => { w with threadTimer := true })
  | _, _ => return

def startRestThread (host : Host) : Slot Unit := do
  startRest (← .read (fun w => w.ui.port.value))
  refreshUi host

def stopNetworkThread : Slot Unit := do
  stopNetwork
  stopRest

def onStartStopButtonClicked (host : Host) : Slot Unit := do
  if (← state) = .runningNetwork then stopNetworkThread
  else if (← state) = .runningRest then stopNetworkThread
  else if (← state) = .idle then startNetworkThread host

def onRestStartStopButtonClicked (host : Host) : Slot Unit := do
  if (← state) = .runningNetwork then startRestThread host
  else if (← state) = .runningRest then stopRest

def updateInterfaces (host : Host) (current : List Interface) (r : Readings) : Slot Unit := do
  if current ≠ (← .read (fun w => w.interfaces)) then
    .write (fun w => { w with interfaces := current })
    refreshUi host
  .write (sweeping NetworkSwitch.updateMac r)

def clearMacTable (host : Host) : Slot Unit := do
  locked NetworkSwitch.clearMac
  refreshUi host

def clearStatsTable (host : Host) : Slot Unit := do
  locked NetworkSwitch.clearStats
  refreshUi host

def clearFirstStatsTable (host : Host) : Slot Unit := do
  let active ← interfacesOf host
  locked (NetworkSwitch.clearStatsOf active.1.networkInterface)
  refreshUi host

def clearSecondStatsTable (host : Host) : Slot Unit := do
  let active ← interfacesOf host
  locked (NetworkSwitch.clearStatsOf active.2.networkInterface)
  refreshUi host

def resetMac (host : Host) (r : Readings) : Slot Unit := do
  .write (sweeping NetworkSwitch.resetMac r)
  refreshUi host

def onApplyTimeout : Slot Unit := do
  let value ← .read (fun w => w.info.timeoutValue.value)
  locked (NetworkSwitch.setMacTimeout value)

inductive Call where
  | startStop
  | restStartStop
  | resetMac (r : Readings)
  | clearMac
  | clearStats
  | clearFirst
  | clearSecond
  | updateInterfaces (current : List Interface) (r : Readings)
  | refresh
  | updateMac (r : Readings)
  | updatePackets (r : Readings)
  | updateSessions (r : Readings)
  | applyTimeout
  | macsClear
  | sessionsClear
  | chooseFirst (index : Int)
  | chooseSecond (index : Int)
  | choosePort (value : Int)
  | chooseTimeout (value : Int)

def slot (host : Host) : Call → Slot Unit
  | .startStop => onStartStopButtonClicked host
  | .restStartStop => onRestStartStopButtonClicked host
  | .resetMac r => resetMac host r
  | .clearMac => clearMacTable host
  | .clearStats => clearStatsTable host
  | .clearFirst => clearFirstStatsTable host
  | .clearSecond => clearSecondStatsTable host
  | .updateInterfaces current r => updateInterfaces host current r
  | .refresh => do
      refreshUi host
      infoRefreshUi
  | .updateMac r => .write (sweeping NetworkSwitch.updateMac r)
  | .updatePackets r => .write (sweeping NetworkSwitch.updatePackets r)
  | .updateSessions r => .write (sweeping NetworkSwitch.updateSessions r)
  | .applyTimeout => onApplyTimeout
  | .macsClear => locked NetworkSwitch.clearMac
  | .sessionsClear => locked NetworkSwitch.clearSessions
  | .chooseFirst index => .write (onUi (fun ui => { ui with interface1.currentIndex := index }))
  | .chooseSecond index => .write (onUi (fun ui => { ui with interface2.currentIndex := index }))
  | .choosePort value => .write (onUi (fun ui => { ui with port.value := value }))
  | .chooseTimeout value => .write (fun w => { w with info.timeoutValue.value := value })

/- `NetworkInterface::all()`: interfaces of the host, none of them twice. They stay on it, so
that they are found again by their names. -/
def Listed (host : Host) (current : List Interface) : Prop :=
  current.Nodup ∧ ∀ net ∈ current, host.byName (host.name net) = some net

def chosen (index : Int) (box : ComboBox) : Prop := box.enabled = true ∧ 0 ≤ index ∧ index < box.items.length

/- Widgets that are disabled send no signals, and spin boxes keep to their bounds. -/
def callable (host : Host) (w : MainWindow) : Call → Prop
  | .startStop => w.ui.startStopButton.enabled = true
  | .restStartStop => w.ui.restStartStop.enabled = true
  | .refresh => w.threadTimer = true
  | .updateInterfaces current r => Listed host current ∧ 0 ≤ r.first
  | .resetMac r | .updateMac r | .updatePackets r | .updateSessions r => 0 ≤ r.first
  | .applyTimeout => w.info.acceptTimeout.enabled = true
  | .chooseFirst index => chosen index w.ui.interface1
  | .chooseSecond index => chosen index w.ui.interface2
  | .choosePort value => w.ui.port.enabled = true ∧ 1 ≤ value ∧ value ≤ 65535
  | .chooseTimeout value => w.info.timeoutValue.enabled = true ∧ 1 ≤ value ∧ value ≤ 1200
  | .clearMac | .clearStats | .clearFirst | .clearSecond | .macsClear | .sessionsClear => True

def ofThread : Event → Prop
  | .receive _ _ _ | .request _ _ _ | .exitNetwork _ | .exitRest => True
  | _ => False

def threads (host : Host) : Machine MainWindow Event where
  enabled w e := ofThread e ∧ (NetworkSwitch.switching host).enabled w.system e
  step w e := { w with system := (NetworkSwitch.switching host).step w.system e }

def program (host : Host) : Machine (Program.Thread MainWindow) (Program.Turn Event Call) :=
  Program.among (threads host) (callable host) (slot host)

def Initial (t : Program.Thread MainWindow) : Prop := ∃ clock, t = ⟨initial clock, .done ()⟩

end MainWindow
end PsipSwitch
