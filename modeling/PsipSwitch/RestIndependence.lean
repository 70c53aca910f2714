import PsipSwitch.Lib.Observations
import PsipSwitch.NetworkSwitch
import PsipSwitch.RestSteps

/-! What the REST interface answers is no matter of the traffic. A run can be cleared of all
frames, of every thread that stops or ends, and of all that is done to the tables of
addresses, counters and sent packets, and each request is still answered the same. -/
namespace PsipSwitch
namespace RestIndependence
open NetworkSwitch NetworkHandle RestHandle SharedStorage
open Fallible (Tracks tracksPure tracksThrow tracksOfExcept tracksModify tracksBind tracksGet)

def uncontrolled (entry : InterfaceEntry) : InterfaceEntry := { entry with control := ⟨false, false⟩ }

def managed (s : SharedStorage) : SharedStorage :=
  { s with
    macTable := .empty
    statisticsTable := .empty
    sentPackets := .empty
    restThread := ⟨false, false⟩
    interfaces := s.interfaces.mapValues uncontrolled }

theorem managedSet {s : SharedStorage} {net : Interface} {f g : InterfaceEntry → InterfaceEntry}
    (same : ∀ entry, uncontrolled (f entry) = g (uncontrolled entry)) :
    managed (s.setInterface net f) = (managed s).setInterface net g := by
  have table : (s.interfaces.update net (fun old => f (old.getD .blank))).mapValues uncontrolled =
      (s.interfaces.mapValues uncontrolled).update net (fun old => g (old.getD .blank)) := by
    refine OrderedTable.mapValuesUpdate s.interfaces (fun old => ?_)
    cases old with
    | none => exact same .blank
    | some entry => exact same entry
  simp only [managed, setInterface, table]

theorem managedTwice (s : SharedStorage) : managed (managed s) = managed s := by
  have table : (s.interfaces.mapValues uncontrolled).mapValues uncontrolled = s.interfaces.mapValues uncontrolled := by
    refine OrderedTable.ext ?_
    simp only [OrderedTable.mapValues, List.map_map]
    rfl
  simp only [managed, table]

structure Open (f : SharedStorage → SharedStorage) (g : InterfaceEntry → InterfaceEntry) : Prop where
  sessions : ∀ s, (f s).sessions = s.sessions
  device : ∀ s, (f s).deviceInfo = s.deviceInfo
  interfaces : ∀ s, (f s).interfaces = s.interfaces.mapValues g
  name : ∀ entry, (g entry).name = entry.name
  up : ∀ entry, (g entry).up = entry.up
  setSessions : ∀ s list, { f s with sessions := list } = f { s with sessions := list }
  setDevice : ∀ s info, { f s with deviceInfo := info } = f { s with deviceInfo := info }
  setEntry : ∀ s net config, (f s).setInterface net (editEntry config) = f (s.setInterface net (editEntry config))

theorem managedOpen : Open managed uncontrolled where
  sessions _ := rfl
  device _ := rfl
  interfaces _ := rfl
  name _ := rfl
  up _ := rfl
  setSessions _ _ := rfl
  setDevice _ _ := rfl
  setEntry _ _ config := (managedSet (g := editEntry config) (fun _ => rfl)).symm

theorem tracksParameters {α : Type} {f : SharedStorage → SharedStorage} (params : Parsed α) : Tracks f (parameters params) :=
  tracksOfExcept _

section Handlers
variable {f : SharedStorage → SharedStorage} {g : InterfaceEntry → InterfaceEntry} (keeps : Open f g)
include keeps

theorem shownAlike (host : Host) (now : Int) (net : Interface) (entry : InterfaceEntry) :
    replyInterface host now net (g entry) = replyInterface host now net entry := by
  simp only [replyInterface, encodeInterface, keeps.name, keeps.up]

theorem editAlike (host : Host) (now : Int) (config : InterfaceConfig) (net : Interface) (entry : InterfaceEntry) :
    replyInterface host now net (editEntry config (g entry)) = replyInterface host now net (editEntry config entry) := by
  simp only [replyInterface, encodeInterface, editEntry, keeps.name, keeps.up]

theorem byIdAlike (id : UInt32) (s : SharedStorage) : byId id (f s) = (byId id s).map (fun it => (it.1, g it.2)) := by
  unfold byId
  rw [keeps.interfaces]
  exact List.find?_map

theorem tracksAuthenticated (authorization : Text) : Tracks f (authenticated authorization) := by
  refine tracksBind (tracksOfExcept _) (fun token => tracksGet (fun s => ?_) (fun s => ?_))
  · rw [keeps.sessions]
  · split
    · exact tracksPure _
    · exact tracksThrow _

theorem tracksLogin (now : Int) (draws : Draws) (params : Parsed (Text × Text)) :
    Tracks f (postLogin now draws params) := by
  refine tracksBind (tracksParameters params) (fun params => ?_)
  split
  · refine tracksBind (tracksModify (fun s => ?_)) (fun _ => tracksPure _)
    rw [pushSession, keeps.sessions]
    exact keeps.setSessions s _
  · exact tracksThrow _

theorem tracksAuth (authorization : Text) : Tracks f (getAuth authorization) := by
  refine tracksBind (tracksOfExcept _) (fun token => tracksGet (fun s => ?_) (fun s => ?_))
  · rw [keeps.sessions]
  · split <;> exact tracksPure _

theorem tracksLogout (authorization : Text) : Tracks f (postLogout authorization) := by
  refine tracksBind (tracksOfExcept _) (fun token => tracksGet (fun s => ?_) (fun s => ?_))
  · rw [keeps.sessions]
  · split
    · refine tracksBind (tracksModify (fun s => ?_)) (fun _ => tracksPure _)
      rw [dropSession, keeps.sessions]
      exact keeps.setSessions s _
    · exact tracksThrow _

theorem tracksInterfaces (host : Host) (now : Int) (authorization : Text) :
    Tracks f (getInterfaces host now authorization) := by
  refine tracksBind (tracksAuthenticated keeps authorization) (fun _ => tracksGet (fun s => ?_)
    (fun s => tracksBind (tracksOfExcept _) (fun _ => tracksPure _)))
  have rows : replyInterfaces host now (f s) = replyInterfaces host now s := by
    rw [replyInterfaces, keeps.interfaces, OrderedTable.mapValues, List.mapM_map]
    simp only [Function.comp_def, shownAlike keeps]
    rfl
  rw [rows]

theorem tracksInterface (host : Host) (now : Int) (authorization : Text) (id : Parsed UInt32) :
    Tracks f (getInterface host now authorization id) := by
  refine tracksBind (tracksAuthenticated keeps authorization) (fun _ => ?_)
  refine tracksBind (tracksParameters id) (fun id => tracksGet (fun s => ?_) (fun s => ?_))
  · rw [byIdAlike keeps]
    cases byId id s with
    | none => rfl
    | some it => simp only [Option.map_some, shownAlike keeps]
  · split
    · exact tracksOfExcept _
    · exact tracksThrow _

theorem tracksInterfaceEdit (host : Host) (now : Int) (authorization : Text) (id : Parsed UInt32)
    (config : Parsed InterfaceConfig) : Tracks f (putInterfaceEdit host now authorization id config) := by
  refine tracksBind (tracksAuthenticated keeps authorization) (fun _ => ?_)
  refine tracksBind (tracksParameters id) (fun id => ?_)
  refine tracksBind (tracksParameters config) (fun config => tracksGet (fun s => ?_) (fun s => ?_))
  · rw [byIdAlike keeps]
    cases byId id s with
    | none => rfl
    | some it => simp only [Option.map_some, editAlike keeps]
  · split
    · exact tracksBind (tracksModify (fun s => keeps.setEntry s _ config)) (fun _ => tracksOfExcept _)
    · exact tracksThrow _

theorem tracksDevice (authorization : Text) : Tracks f (getDevice authorization) := by
  refine tracksBind (tracksAuthenticated keeps authorization) (fun _ => tracksGet (fun s => ?_) (fun _ => tracksPure _))
  rw [keeps.device]

theorem tracksDeviceEdit (authorization : Text) (config : Parsed DeviceConfig) :
    Tracks f (putDeviceEdit authorization config) := by
  refine tracksBind (tracksAuthenticated keeps authorization) (fun _ => ?_)
  refine tracksBind (tracksParameters config) (fun config => ?_)
  refine tracksBind (tracksModify (fun s => ?_)) (fun _ => tracksGet (fun s => ?_) (fun _ => tracksPure _))
  · rw [RestHandle.editDevice, keeps.device]
    exact keeps.setDevice s _
  · rw [keeps.device]

theorem tracksHandle (host : Host) (now : Int) (draws : Draws) (request : Request) :
    Tracks f (handle host now draws request) := by
  cases request with
  | index => exact tracksPure _
  | login params => exact tracksLogin keeps now draws params
  | auth authorization => exact tracksAuth keeps authorization
  | logout authorization => exact tracksLogout keeps authorization
  | interfaces authorization => exact tracksInterfaces keeps host now authorization
  | interface authorization id => exact tracksInterface keeps host now authorization id
  | editInterface authorization id config => exact tracksInterfaceEdit keeps host now authorization id config
  | device authorization => exact tracksDevice keeps authorization
  | editDevice authorization config => exact tracksDeviceEdit keeps authorization config

theorem respondOpen (host : Host) (now : Int) (draws : Draws) (request : Request) (s : SharedStorage) :
    respond host now draws request (f s) = ((respond host now draws request s).1, f (respond host now draws request s).2) :=
  tracksHandle keeps host now draws request s

end Handlers

theorem respondManaged (host : Host) (now : Int) (draws : Draws) (request : Request) (s : SharedStorage) :
    respond host now draws request (managed s) =
      ((respond host now draws request s).1, managed (respond host now draws request s).2) :=
  respondOpen managedOpen host now draws request s

def managing : Operation → Bool
  | .reset | .start _ | .request _ _ _ => true
  | .maintain .clearSessions | .maintain (.updateSessions _) => true
  | .maintain (.applyMac _) | .maintain (.setMacTimeout _) => true
  | _ => false

def answers (host : Host) (s : Store) : Operation → List Outcome
  | .request now draws request => [(respond host now draws request s.storage).1]
  | _ => []

theorem interfacesIdle {s : SharedStorage} {net : Interface} {f g : InterfaceEntry → InterfaceEntry}
    (registered : s.Registered net) (same : ∀ entry, g (f entry) = g entry) :
    (s.setInterface net f).interfaces.mapValues g = s.interfaces.mapValues g := by
  have found : (s.interfaces.mapValues g).find? net = some (g (s.interface net)) := by
    rw [OrderedTable.findMapValues, registeredFind registered, Option.map_some]
  have moved : (s.setInterface net f).interfaces.mapValues g =
      (s.interfaces.mapValues g).update net (fun old => old.getD (g .blank)) := by
    refine OrderedTable.mapValuesUpdate s.interfaces (fun old => ?_)
    cases old with
    | none => exact same .blank
    | some entry => exact same entry
  rw [moved]
  exact OrderedTable.updateIdle found rfl

theorem managedIdle {s : SharedStorage} {net : Interface} {f : InterfaceEntry → InterfaceEntry}
    (registered : s.Registered net) (control : ∀ entry, uncontrolled (f entry) = uncontrolled entry) :
    managed (s.setInterface net f) = managed s := by
  have table := interfacesIdle (g := uncontrolled) registered control
  exact congrArg (fun table => { managed s with interfaces := table }) table

theorem trafficHidden {host : Host} {s : Store} {op : Operation} (ready : (sections host).enabled s op)
    (traffic : managing op = false) : managed (perform host op s.storage) = managed s.storage := by
  cases op with
  | signalStop net => exact managedIdle ready.2 (fun _ => rfl)
  | finish net => exact managedIdle ready.2 (fun _ => rfl)
  | receive me now packet =>
    obtain ⟨mac, stats, sent, same⟩ := receiveFrame host now packet ready.2
    rw [perform, same]
    rfl
  | maintain m => cases m <;> first | rfl | contradiction
  | startRest => rfl
  | signalStopRest => rfl
  | finishRest => rfl
  | look now => rfl
  | _ => contradiction

theorem performManaged (host : Host) {op : Operation} (visible : managing op = true) (s : SharedStorage) :
    managed (perform host op (managed s)) = managed (perform host op s) := by
  cases op with
  | reset => rfl
  | start net =>
    have opened (t : SharedStorage) : managed (NetworkHandle.start net t) =
        (managed t).setInterface net (fun _ => ⟨⟨false, false⟩, true, []⟩) := managedSet (fun _ => rfl)
    simp only [perform, opened, managedTwice]
  | request now draws request =>
    simp only [perform, respondManaged]
    exact managedTwice _
  | maintain m =>
    have commutes : maintain m (managed s) = managed (maintain m s) := by cases m <;> rfl
    simp only [perform, commutes]
    exact managedTwice _
  | _ => contradiction

structure Alike (f : SharedStorage → SharedStorage) (s t : Store) : Prop where
  storage : f s.storage = f t.storage
  clock : t.clock ≤ s.clock

theorem earlier {s t : Store} {op : Operation} (clock : t.clock ≤ s.clock) (order : s.clock ≤ op.begins.getD s.clock) :
    t.clock ≤ op.begins.getD t.clock ∧ op.ends.getD t.clock ≤ op.ends.getD s.clock := by
  constructor
  · cases begins : op.begins with
    | none => exact le_refl _
    | some now =>
      rw [begins] at order
      exact clock.trans order
  · cases op.ends with
    | none => exact clock
    | some now => exact le_refl _

theorem alikeAnswers {host : Host} {s t : Store} (alike : Alike managed s t) (op : Operation) :
    answers host t op = answers host s op := by
  cases op with
  | request now draws request =>
    have first := respondManaged host now draws request s.storage
    have second := respondManaged host now draws request t.storage
    rw [alike.storage] at first
    have same := congrArg Prod.fst (second.symm.trans first)
    exact congrArg (fun outcome => [outcome]) same
  | _ => rfl

theorem alikeHidden {host : Host} {s t : Store} {op : Operation} (ready : (sections host).enabled s op)
    (traffic : managing op = false) (alike : Alike managed s t) :
    answers host s op = [] ∧ Alike managed ((sections host).step s op) t := by
  refine ⟨?_, (trafficHidden ready traffic).trans alike.storage, alike.clock.trans (clockForward ready)⟩
  cases op with
  | request now draws request => contradiction
  | _ => rfl

theorem alikeKept {host : Host} {s t : Store} {op : Operation} (ready : (sections host).enabled s op)
    (visible : managing op = true) (alike : Alike managed s t) : (sections host).enabled t op ∧
      answers host t op = answers host s op ∧ Alike managed ((sections host).step s op) ((sections host).step t op) := by
  obtain ⟨order, clock⟩ := earlier alike.clock ready.1
  have named : admitted t.storage op := by
    cases op with
    | reset | start net | request now draws request | maintain m => trivial
    | _ => contradiction
  refine ⟨⟨order, named⟩, alikeAnswers alike op, ?_, clock⟩
  change managed (perform host op s.storage) = managed (perform host op t.storage)
  rw [← performManaged host visible s.storage, alike.storage, performManaged host visible]

/- Without the traffic it is a run all the same, and every client is told what it was told. -/
theorem answersUntouched {host : Host} {s u : Store} {ops : List Operation} (run : (sections host).Run s ops u) :
    ∃ v, (sections host).Run s (ops.filter managing) v ∧ managed v.storage = managed u.storage ∧
      Machine.trace (sections host) (answers host) s (ops.filter managing) =
        Machine.trace (sections host) (answers host) s ops := by
  have start : Alike managed s s := ⟨rfl, le_refl _⟩
  obtain ⟨v, shorter, alike, same⟩ := Machine.purge (fun _ _ _ ready traffic alike => alikeHidden ready traffic alike)
    (fun _ _ _ ready visible alike => alikeKept ready visible alike) run start
  exact ⟨v, shorter, alike.storage.symm, same⟩

def benchBusy : List Operation :=
  [.receive ⟨1⟩ 1 (benchFrame 9 7), .request 2 benchDraws (.login (.ok (text "root", text "root"))), .finish ⟨2⟩,
    .request 3 benchDraws (.interfaces (text "Bearer " ++ benchToken))]

theorem answersUntouchedBench : (benchBusy.filter managing).length = 2 ∧
    Machine.trace (sections bench) (answers bench) benchStore (benchBusy.filter managing) =
      Machine.trace (sections bench) (answers bench) benchStore benchBusy := by
  have run : ∃ u, (sections bench).Run benchStore benchBusy u := by
    refine ⟨_, .cons ⟨by decide, by decide⟩ (.cons ⟨by decide, trivial⟩ (.cons ⟨le_refl _, ?_⟩ (.cons ⟨by decide, trivial⟩
      (.nil _))))⟩
    decide
  obtain ⟨u, run⟩ := run
  obtain ⟨_, _, _, same⟩ := answersUntouched run
  exact ⟨by decide, same⟩

end RestIndependence
end PsipSwitch
