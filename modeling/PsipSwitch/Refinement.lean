import PsipSwitch.Lifecycle

/-! The machine with handles refines the machine of locked sections: every event is a
run of sections on the storage. What holds in every state that sections reach from
the initial storage therefore holds at every point of a run of the program. -/
namespace PsipSwitch
namespace Refinement
open NetworkSwitch SharedStorage Lifecycle

def view (s : System) : Store := ⟨s.switch.storage, s.clock⟩

def Follows (host : Host) (clock : Int) (s t : SharedStorage) : Prop :=
  ∃ ops, (sections host).Run ⟨s, clock⟩ ops ⟨t, clock⟩

theorem followsNone {host : Host} {clock : Int} (s : SharedStorage) : Follows host clock s s := ⟨[], .nil _⟩

theorem followsTrans {host : Host} {clock : Int} {s t u : SharedStorage} (first : Follows host clock s t)
    (second : Follows host clock t u) : Follows host clock s u := by
  obtain ⟨ops, run⟩ := first
  obtain ⟨more, rest⟩ := second
  exact ⟨ops ++ more, Machine.runAppend run rest⟩

theorem followsOne {host : Host} {clock : Int} {s : SharedStorage} (op : Operation) (ready : admitted s op)
    (begins : op.begins = none) (ends : op.ends = none) : Follows host clock s (perform host op s) := by
  have enabled : (sections host).enabled ⟨s, clock⟩ op := ⟨by rw [begins, Option.getD_none], ready⟩
  have run : (sections host).Run ⟨s, clock⟩ [op] ((sections host).step ⟨s, clock⟩ op) := .cons enabled (.nil _)
  have same : (sections host).step ⟨s, clock⟩ op = ⟨perform host op s, clock⟩ := by
    simp only [sections, ends, Option.getD_none]
  exact ⟨[op], same ▸ run⟩

theorem resetJoined (handle : Option NetworkThreadHandle) (s : SharedStorage) :
    (joinNetwork handle s).2.reset = s.reset := by
  unfold joinNetwork
  split
  · split <;> rfl
  · rfl

theorem startJoined (handle : Option RestThreadHandle) (s : SharedStorage) :
    RestHandle.start (joinRest handle s).2 = RestHandle.start s := by
  unfold joinRest
  split
  · split <;> rfl
  · rfl

theorem startNetworkFollows {host : Host} {clock : Int} {s : NetworkSwitch} {name1 name2 : Text}
    (named : wellNamed host (.startNetwork name1 name2)) :
    Follows host clock s.storage (s.react host (.startNetwork name1 name2)).storage := by
  simp only [react]
  by_cases idle : s.state = .idle
  · obtain ⟨net1, net2, named1, named2, _⟩ := named
    rw [startNetworkIdle idle named1 named2]
    have same : (startSecond net2 (startFirst net1 (resetStorage (replaceSecond net2 (replaceFirst net1 s))))).storage =
        NetworkHandle.start net2 (NetworkHandle.start net1 s.storage.reset) := by
      simp only [startSecond, startFirst, resetStorage, replaceSecond, replaceFirst, resetJoined]
    rw [same]
    refine followsTrans (followsOne .reset trivial rfl rfl) ?_
    exact followsTrans (followsOne (.start net1) trivial rfl rfl) (followsOne (.start net2) trivial rfl rfl)
  · rw [startNetworkBusy idle]
    exact followsNone _

theorem startRestFollows {host : Host} {clock : Int} {s : NetworkSwitch} (port : Int) :
    Follows host clock s.storage (s.startRest port).storage := by
  unfold NetworkSwitch.startRest
  split
  · exact followsNone _
  · simp only [startJoined]
    exact followsOne .startRest trivial rfl rfl

theorem stopHandleFollows {host : Host} {clock : Int} {s : SharedStorage} {handle : Option NetworkThreadHandle}
    (registered : ∀ h, handle = some h → s.Registered h.interface) :
    Follows host clock s (stopHandle handle s) := by
  unfold stopHandle
  split
  · exact followsOne (.signalStop _) (registered _ rfl) rfl rfl
  · exact followsNone _

theorem stopNetworkFollows {host : Host} {clock : Int} {s : NetworkSwitch} (alive : Alive s) :
    Follows host clock s.storage s.stopNetwork.storage := by
  have registered1 : ∀ h, s.interface1 = some h → s.storage.Registered h.interface :=
    fun h found => (portStarted (p := .first) alive found).1
  have registered2 : ∀ h, s.interface2 = some h → (stopHandle s.interface1 s.storage).Registered h.interface := by
    intro h found
    have before := (portStarted (p := .second) alive found).1
    unfold stopHandle
    split
    · exact setInterfaceRegistered _ before
    · exact before
  exact followsTrans (stopHandleFollows registered1) (stopHandleFollows registered2)

theorem stopRestFollows {host : Host} {clock : Int} {s : NetworkSwitch} :
    Follows host clock s.storage s.stopRest.storage := by
  unfold stopRest
  split
  · exact followsOne .signalStopRest trivial rfl rfl
  · exact followsNone _

theorem exitNetworkFollows {host : Host} {clock : Int} {s : NetworkSwitch} {p : Port} (alive : Alive s)
    (live : s.NetworkLive p) :
    Follows host clock s.storage (s.react host (.exitNetwork p)).storage := by
  obtain ⟨h, found, _⟩ := live
  have same : (s.react host (.exitNetwork p)).storage = NetworkHandle.finish h.interface s.storage := by
    simp only [react, onInterfaceAt _ found]
    cases p <;> rfl
  rw [same]
  exact followsOne (.finish h.interface) (portStarted alive found).1 rfl rfl

theorem eventFollows {host : Host} {s : System} {e : Event} (ready : (operated host).enabled s e)
    (alive : Alive s.switch) : ∃ ops, (sections host).Run (view s) ops (view ((operated host).step s e)) := by
  obtain ⟨⟨order, possible⟩, named⟩ := ready
  cases e with
  | startNetwork name1 name2 => exact startNetworkFollows named
  | startRest port => exact startRestFollows port
  | stopNetwork => exact stopNetworkFollows alive
  | stopRest => exact stopRestFollows
  | interfaces =>
    change Follows host s.clock s.switch.storage s.switch.interfaces.storage
    rw [interfacesAlive alive]
    exact followsNone _
  | maintain m => exact ⟨[.maintain m], .cons ⟨order, trivial⟩ (.nil _)⟩
  | receive p now packet =>
    obtain ⟨h, found, _⟩ := possible
    refine ⟨[.receive h.interface now packet], ?_⟩
    have run : (sections host).Run (view s) [.receive h.interface now packet]
        ((sections host).step (view s) (.receive h.interface now packet)) :=
      .cons ⟨order, (portStarted alive found).1⟩ (.nil _)
    have same : view ((operated host).step s (.receive p now packet)) =
        (sections host).step (view s) (.receive h.interface now packet) := by
      change view ⟨s.switch.onInterface p (fun me => perform host (.receive me now packet)), now⟩ = _
      rw [onInterfaceAt _ found]
      rfl
    rw [same]
    exact run
  | request now draws request => exact ⟨[.request now draws request], .cons ⟨order, trivial⟩ (.nil _)⟩
  | exitNetwork p => exact exitNetworkFollows alive possible
  | exitRest => exact followsOne .finishRest trivial rfl rfl

theorem runFollows {host : Host} {s t : System} {es : List Event} (run : (operated host).Run s es t)
    (alive : Alive s.switch) : ∃ ops, (sections host).Run (view s) ops (view t) := by
  refine Machine.simulation (P := fun s => Alive s.switch) ?_ ?_ run alive
  · intro s e ready alive
    exact reactAlive ready.1.2 ready.2 alive
  · intro s e ready alive
    exact eventFollows ready alive

def Fresh (s : Store) : Prop := s.storage = .initial

theorem reachableFollows {host : Host} {s : System} (reached : (operated host).Reachable Initial s) :
    (sections host).Reachable Fresh (view s) := by
  obtain ⟨first, es, start, run⟩ := reached
  have alive : Alive first.switch := by
    rw [start]
    exact initialAlive
  obtain ⟨ops, follows⟩ := runFollows run alive
  refine ⟨view first, ops, ?_, follows⟩
  rw [Fresh, view, start]
  rfl

end Refinement
end PsipSwitch
