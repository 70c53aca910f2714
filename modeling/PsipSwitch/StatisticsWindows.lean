import PsipSwitch.StatisticsRuns
import PsipSwitch.TableModels
import PsipSwitch.WindowRuns

/-! The two statistics windows. Every counter belongs to an interface of the session, and
the windows show these two: between them no counter is missing and none is shown twice. -/
namespace PsipSwitch
namespace Statistics
open NetworkHandle NetworkSwitch SharedStorage Forwarding

def Named (s : SharedStorage) : Prop := ∀ key ∈ s.statisticsTable.keys, s.Registered key.target

theorem namedKept {s t : SharedStorage} (table : t.statisticsTable = s.statisticsTable)
    (kept : ∀ net, s.Registered net → t.Registered net) (before : Named s) : Named t := by
  intro key member
  rw [table] at member
  exact kept _ (before key member)

theorem namedSet {s : SharedStorage} {net : Interface} (f : InterfaceEntry → InterfaceEntry) (before : Named s) :
    Named (s.setInterface net f) :=
  namedKept (s := s) rfl (fun _ registered => setInterfaceRegistered f registered) before

theorem countAllKeys {test : Protocol → Bool} {increment : StatisticEntry → StatisticEntry} {net : Interface}
    {ps : List Protocol} {t : StatisticsTable} {key : StatisticKey}
    (member : key ∈ (countAll test increment net ps t).keys) : key.target = net ∨ key ∈ t.keys := by
  induction ps generalizing t with
  | nil => exact .inr member
  | cons p rest ih =>
    rcases ih member with here | old
    · exact .inl here
    · simp only at old
      split at old
      · rcases OrderedTable.keysUpdate old with rfl | before
        · exact .inl rfl
        · exact .inr before
      · exact .inr old

theorem namedInput {packet : Frame} {net : Interface} {s : SharedStorage} (registered : s.Registered net)
    (before : Named s) : Named (inputStatistics packet net s) := by
  intro key member
  rcases countAllKeys member with here | old
  · rw [here]
    exact registered
  · exact before key old

theorem namedOutput {packet : Frame} {net : Interface} {s : SharedStorage} (registered : s.Registered net)
    (before : Named s) : Named (outputStatistics packet net s) := by
  intro key member
  rcases countAllKeys member with here | old
  · rw [here]
    exact registered
  · exact before key old

theorem namedOutputs {packet : Frame} {nets : List Interface} {s : SharedStorage}
    (registered : ∀ net ∈ nets, s.Registered net) (before : Named s) :
    Named (nets.foldl (fun s net => outputStatistics packet net s) s) := by
  induction nets generalizing s with
  | nil => exact before
  | cons net rest ih =>
    obtain ⟨here, others⟩ := List.forall_mem_cons.mp registered
    exact ih others (namedOutput here before)

theorem namedLeave {host : Host} {me : Interface} {now : Int} {packet : Frame} {s : SharedStorage} {exit : Exit}
    (registered : ∀ net ∈ targets me s exit, s.Registered net) (before : Named s) :
    Named (leave host me now packet (s, exit)).1 := by
  cases exit with
  | skip => exact before
  | send destination =>
    have counted : Named (outputStatistics packet destination s) :=
      namedOutput (registered destination List.mem_cons_self) before
    simp only [leave, send]
    split <;> exact counted
  | broadcast => exact namedOutputs (s := recordSent packet now s) registered before

theorem namedReceive {host : Host} {me : Interface} {now : Int} {packet : Frame} {s : SharedStorage}
    (registered : s.Registered me) (names : MacNames s) (before : Named s) :
    Named (receive host me now packet s).storage := by
  have selected := selectSpec host now packet registered
  simp only [receive]
  generalize select host me now packet s = result at selected
  cases selected with
  | refused no => exact before
  | own accepted layer source => exact namedInput registered before
  | group accepted layer source group =>
    have flooded : ∀ net ∈ targets me (inputStatistics packet me s) .broadcast, s.Registered net :=
      fun _ member => (memOthers.mp member).1
    exact namedLeave flooded (namedInput registered before)
  | @unicast eth accepted layer source single =>
    have learned : MacNames (NetworkHandle.updateMac me eth.srcAddr now (inputStatistics packet me s)) :=
      macNamesUpdate _ _ registered names rfl rfl
    exact namedLeave (chosenTargets (unicastExitSpec _ _ _ _) learned)
      (namedKept rfl (fun _ kept => kept) (namedInput registered before))

theorem maintainNamed (m : Maintenance) {s : SharedStorage} (before : Named s) : Named (maintain m s) := by
  have fewer : ∀ key ∈ (maintain m s).statisticsTable.keys, key ∈ s.statisticsTable.keys := by
    intro key member
    cases m with
    | clearStats => exact absurd member List.not_mem_nil
    | clearStatsOf net => exact (List.filter_sublist.map Prod.fst).subset member
    | _ => exact member
  intro key member
  rw [Registered, (Lifecycle.maintainControl m s).keys]
  exact before key (fewer key member)

theorem stepNamed {host : Host} {s : Store} {op : Operation} (ready : (sections host).enabled s op)
    (names : MacNames s.storage) (before : Named s.storage) : Named ((sections host).step s op).storage := by
  cases op with
  | reset => exact fun key member => absurd member List.not_mem_nil
  | start net => exact namedSet _ before
  | signalStop net => exact namedSet _ before
  | finish net => exact namedSet _ before
  | receive me now packet => exact namedReceive ready.2 names before
  | request now draws request =>
    exact RestHandle.respondKeeps (P := Named) host now draws request (fun _ => before) (fun _ _ _ => namedSet _ before)
      (fun _ => before)
  | maintain m => exact maintainNamed m before
  | _ => exact namedKept (s := s.storage) rfl (fun _ kept => kept) before

theorem reachableNamed {host : Host} {s : Store} (reached : (sections host).Reachable Refinement.Fresh s) :
    Named s.storage := by
  have both : MacNames s.storage ∧ Named s.storage := by
    refine Machine.reachableInvariant (P := fun s : Store => MacNames s.storage ∧ Named s.storage) ?_ ?_ reached
    · exact fun _ _ ready here => ⟨stepMacNames ready here.1, stepNamed ready here.1 here.2⟩
    · intro s start
      rw [Refinement.Fresh] at start
      rw [start]
      refine ⟨?_, fun _ member => absurd member List.not_mem_nil⟩
      intro mac entry found
      contradiction
  exact both.2

open TableModels

theorem entriesShared {s : SharedStorage} {net1 net2 : Interface} (different : net1 ≠ net2) (named : Named s)
    (table : ∀ net, s.Registered net → net = net1 ∨ net = net2) :
    (statisticsOf net1 s ++ statisticsOf net2 s).Perm s.statisticsTable.entries := by
  have others : statisticsOf net2 s = s.statisticsTable.entries.filter (fun it => !(it.1.target == net1)) := by
    refine List.filter_congr (fun it member => ?_)
    rcases table _ (named it.1 (List.mem_map_of_mem member)) with here | here
    · simp [here, different]
    · simp [here, Ne.symm different]
  rw [others]
  exact List.filter_append_perm (fun it => it.1.target == net1) s.statisticsTable.entries

/- Whenever the user gets to see them: nothing to show before the first start, and from then
on every counter in one window or the other. -/
theorem windowsShow {host : Host} {t : Program.Thread MainWindow}
    (reached : (MainWindow.program host).Reachable MainWindow.Initial t) (idle : t.program.Idle) :
    (t.shared.firstModel = none ∧ t.shared.secondModel = none ∧ t.shared.storage.statisticsTable.entries = []) ∨
    ∃ net1 net2, t.shared.firstModel = some net1 ∧ t.shared.secondModel = some net2 ∧ net1 ≠ net2 ∧
      (statisticsOf net1 t.shared.storage ++ statisticsOf net2 t.shared.storage).Perm
        t.shared.storage.statisticsTable.entries ∧
      (StatisticsModel.rowCount net1 t.shared.storage).toInt + (StatisticsModel.rowCount net2 t.shared.storage).toInt =
        t.shared.storage.statisticsTable.entries.length := by
  have settled := Program.dutifulIdle idle (MainWindow.reachableKept reached).1
  have named : Named t.shared.storage := reachableNamed (MainWindow.programFollows reached)
  have first := settled.core.first
  have second := settled.core.second
  rcases settled.core.alive.network with ⟨one, two, keys⟩ | ⟨h1, h2, started⟩
  · rw [one] at first
    rw [two] at second
    refine .inl ⟨first, second, ?_⟩
    by_contra some
    obtain ⟨it, member⟩ := List.exists_mem_of_ne_nil _ some
    have registered : it.1.target ∈ t.shared.storage.interfaces.keys := named it.1 (List.mem_map_of_mem member)
    have empty : t.shared.storage.interfaces.keys = [] := keys
    rw [empty] at registered
    contradiction
  · rw [started.first] at first
    rw [started.second] at second
    have shared := entriesShared started.different named (fun net => (started.table net).mp)
    refine .inr ⟨h1.interface, h2.interface, first, second, started.different, shared, ?_⟩
    rw [(statisticsShow h1.interface _).counted, (statisticsShow h2.interface _).counted, ← shared.length_eq,
      List.length_append, Nat.cast_add]

def benchShown : MainWindow :=
  (MainWindow.threads bench).step MainWindow.benchStarted (.receive .first 1 (benchFrame 9 7))

theorem windowsShowBench :
    (statisticsOf ⟨1⟩ benchShown.storage ++ statisticsOf ⟨2⟩ benchShown.storage).Perm
      benchShown.storage.statisticsTable.entries ∧
    benchShown.storage.statisticsTable.keys = [⟨.ethernetII, ⟨1⟩⟩, ⟨.ethernetII, ⟨2⟩⟩] := by
  have reached : (MainWindow.program bench).Reachable MainWindow.Initial ⟨benchShown, .done ()⟩ :=
    MainWindow.reachableOther MainWindow.benchStartedReached ⟨trivial, by decide, ⟨⟨1⟩, true⟩, rfl, rfl⟩
  rcases windowsShow reached trivial with ⟨none, _, _⟩ | ⟨net1, net2, first, second, _, shared, _⟩
  · contradiction
  · cases first
    cases second
    exact ⟨shared, by decide⟩

end Statistics
end PsipSwitch
