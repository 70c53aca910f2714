import PsipSwitch.Statistics

/-! Counters over whole runs. From one start to the next, and with no clear in between,
every counter is the number of events it stands for, exactly when the numbers of any
two interfaces are at least seven apart. -/
namespace PsipSwitch
namespace Statistics
open NetworkHandle NetworkSwitch SharedStorage Forwarding

theorem chosenTargets {host : Host} {me : Interface} {dst : MacAddress} {s : SharedStorage} {exit : Exit}
    (chosen : Chosen host me dst s exit) (names : MacNames s) : ∀ net ∈ targets me s exit, s.Registered net := by
  intro net member
  cases chosen with
  | own here => contradiction
  | device away found =>
    rw [List.mem_singleton.mp member]
    exact (deviceOnward away found).2
  | behind away foreign found back => contradiction
  | known away foreign found onward =>
    rw [List.mem_singleton.mp member]
    exact names dst _ found
  | unknown away foreign missing => exact (memOthers.mp member).1

theorem grownReceive (host : Host) {me : Interface} (now : Int) (packet : Frame) (key : StatisticKey)
    {s : SharedStorage} (registered : s.Registered me) :
    Grown key (if Accepts me now packet s then hits (inputTest packet) me key Protocol.all else 0)
      (outputsUnder packet key (receive host me now packet s).calls) s.statisticsTable
      (receive host me now packet s).storage.statisticsTable := by
  have selected := selectSpec host now packet registered
  simp only [receive]
  generalize select host me now packet s = result at selected
  have counted : Accepts me now packet s → ∀ t exit,
      t.statisticsTable = (inputStatistics packet me s).statisticsTable →
      Grown key (if Accepts me now packet s then hits (inputTest packet) me key Protocol.all else 0)
        (outputsUnder packet key (leave host me now packet (t, exit)).2) s.statisticsTable
        (leave host me now packet (t, exit)).1.statisticsTable := by
    intro accepted t exit same
    have input := grownInput packet me key s
    rw [← same] at input
    rw [if_pos accepted]
    have whole := grownTrans input (grownLeave host me now packet key t exit)
    rwa [Nat.add_zero, Nat.zero_add] at whole
  cases selected with
  | refused no =>
    have none : outputsUnder packet key (leave host me now packet (s, .skip)).2 = 0 := by
      simp [leave, outputsUnder, outputsOf]
    rw [if_neg no, none]
    exact grownSame _
  | own accepted layer source => exact counted accepted _ .skip rfl
  | group accepted layer source group => exact counted accepted _ .broadcast rfl
  | unicast accepted layer source single => exact counted accepted _ _ rfl

theorem countedRegistered {host : Host} {me net : Interface} {now : Int} {packet : Frame} {s : SharedStorage}
    (registered : s.Registered me) (names : MacNames s)
    (called : .outputStatistics net ∈ (receive host me now packet s).calls) : s.Registered net := by
  have onTarget : ∀ t exit, .outputStatistics net ∈ (leave host me now packet (t, exit)).2 → net ∈ targets me t exit := by
    intro t exit member
    have positive := List.count_pos_iff.mpr member
    rw [countTargets] at positive
    exact List.count_pos_iff.mp positive
  have selected := selectSpec host now packet registered
  simp only [receive] at called
  generalize select host me now packet s = result at selected called
  cases selected with
  | refused no => exact absurd called List.not_mem_nil
  | own accepted layer source => exact absurd called List.not_mem_nil
  | group accepted layer source group => exact (memOthers.mp (onTarget _ .broadcast called)).1
  | @unicast eth accepted layer source single =>
    have learned : MacNames (NetworkHandle.updateMac me eth.srcAddr now (inputStatistics packet me s)) :=
      macNamesUpdate _ _ registered names rfl rfl
    exact chosenTargets (unicastExitSpec _ _ _ _) learned net (onTarget _ _ called)

theorem receiveCounter {host : Host} {me : Interface} {now : Int} {packet : Frame} {s : SharedStorage}
    {key : StatisticKey} (registered : s.Registered me) (names : MacNames s)
    (apart : ∀ net, s.Registered net → Apart key net) :
    counter (receive host me now packet s).storage key =
      plus (counter s key)
        (if me = key.target ∧ Accepts me now packet s ∧ inputTest packet key.protocol = true then 1 else 0)
        (outputsOf packet key (receive host me now packet s).calls) := by
  have counted : counter (receive host me now packet s).storage key = _ :=
    (grownReceive host now packet key registered).counted
  rw [counted, outputsApart (fun net called => apart net (countedRegistered registered names called)),
    hitsApart (apart me registered)]
  by_cases accepted : Accepts me now packet s
  · simp only [accepted, if_true, true_and]
    rfl
  · simp only [accepted, if_false, false_and, and_false]
    rfl

def interrupts : Operation → Prop
  | .start _ | .maintain .clearStats | .maintain (.clearStatsOf _) => True
  | _ => False

def counting (host : Host) : Machine Store Operation := (session host).restrict (fun _ op => ¬ interrupts op)

def received (key : StatisticKey) (s : Store) : Operation → Nat
  | .receive me now packet =>
      if me = key.target ∧ Accepts me now packet s.storage ∧ inputTest packet key.protocol = true then 1 else 0
  | _ => 0

def passed (host : Host) (key : StatisticKey) (s : Store) : Operation → Nat
  | .receive me now packet => outputsOf packet key (receive host me now packet s.storage).calls
  | _ => 0

def inputs (host : Host) (key : StatisticKey) (s : Store) (ops : List Operation) : Nat :=
  (counting host).tally (received key) s ops

def outputs (host : Host) (key : StatisticKey) (s : Store) (ops : List Operation) : Nat :=
  (counting host).tally (passed host key) s ops

structure Counted (nets : List Interface) (s : SharedStorage) : Prop where
  table : ∀ net, s.Registered net ↔ net ∈ nets
  names : MacNames s

theorem stepKeys {host : Host} {s : Store} {op : Operation} (ready : (counting host).enabled s op) :
    ((counting host).step s op).storage.interfaces.keys = s.storage.interfaces.keys := by
  refine keysLast ready.1 ?_
  rintro net rfl
  exact ready.2 trivial

theorem stepCounted {host : Host} {nets : List Interface} {s : Store} {op : Operation}
    (ready : (counting host).enabled s op) (before : Counted nets s.storage) :
    Counted nets ((counting host).step s op).storage := by
  refine ⟨?_, stepMacNames ready.1.1 before.names⟩
  intro net
  rw [← before.table net, Registered, Registered, stepKeys ready]

theorem stepCounter {host : Host} {nets : List Interface} {s : Store} {op : Operation} {key : StatisticKey}
    (ready : (counting host).enabled s op) (before : Counted nets s.storage)
    (apart : ∀ net ∈ nets, Apart key net) :
    counter ((counting host).step s op).storage key =
      plus (counter s.storage key) (received key s op) (passed host key s op) := by
  cases op with
  | reset => exact absurd trivial ready.1.2
  | receive me now packet =>
    exact receiveCounter ready.1.1.2 before.names (fun net registered => apart net ((before.table net).mp registered))
  | request now draws request =>
    exact RestHandle.respondKeeps (P := fun t => counter t key = plus (counter s.storage key) 0 0) host now draws
      request (fun _ => (plusZero _).symm) (fun _ _ _ => (plusZero _).symm) (fun _ => (plusZero _).symm)
  | maintain m =>
    cases m with
    | clearStats => exact absurd trivial ready.2
    | clearStatsOf net => exact absurd trivial ready.2
    | _ => exact (plusZero _).symm
  | _ => exact (plusZero _).symm

theorem runCounter {host : Host} {nets : List Interface} {s t : Store} {ops : List Operation} {key : StatisticKey}
    (run : (counting host).Run s ops t) (before : Counted nets s.storage) (apart : ∀ net ∈ nets, Apart key net) :
    counter t.storage key = plus (counter s.storage key) (inputs host key s ops) (outputs host key s ops) := by
  induction run with
  | nil => exact (plusZero _).symm
  | cons ready rest ih =>
    rw [ih (stepCounted ready before), stepCounter ready before apart, plusPlus]
    simp only [inputs, outputs, Machine.tallyCons]

def opened (nets : List Interface) : SharedStorage := nets.foldl (fun s net => NetworkHandle.start net s) .initial

structure Opened (nets : List Interface) (s : SharedStorage) : Prop where
  table : ∀ net, s.Registered net ↔ net ∈ nets
  up : ∀ net ∈ nets, (s.interface net).up = true
  statistics : s.statisticsTable = .empty
  mac : s.macTable = .empty
  sent : s.sentPackets = .empty

theorem openedStart {nets : List Interface} {s : SharedStorage} {net : Interface} (before : Opened nets s) :
    Opened (net :: nets) (NetworkHandle.start net s) := by
  refine ⟨?_, ?_, before.statistics, before.mac, before.sent⟩
  · intro other
    rw [List.mem_cons, ← before.table other]
    constructor
    · exact registeredOfSet
    · rintro (rfl | registered)
      · exact setInterfaceRegisters _ _ _
      · exact setInterfaceRegistered _ registered
  · intro other member
    by_cases here : other = net
    · rw [here, NetworkHandle.start, setInterfaceSame]
    · have old : other ∈ nets := (List.mem_cons.mp member).resolve_left here
      simpa only [NetworkHandle.start, SharedStorage.interface, setInterfaceFindOther _ _ here] using before.up other old

theorem openedSpec (nets : List Interface) : Opened nets (opened nets) := by
  have started : ∀ (rest before : List Interface) (s : SharedStorage), Opened before s →
      Opened (rest.reverse ++ before) (rest.foldl (fun s net => NetworkHandle.start net s) s) := by
    intro rest
    induction rest with
    | nil => exact fun _ _ opened => opened
    | cons net rest ih =>
      intro before s opened
      have next := ih (net :: before) _ (openedStart opened)
      simpa using next
  have blank : Opened [] .initial :=
    ⟨fun _ => Iff.rfl, fun _ member => absurd member List.not_mem_nil, rfl, rfl, rfl⟩
  have all := started nets [] .initial blank
  refine ⟨?_, ?_, all.statistics, all.mac, all.sent⟩
  · intro net
    rw [opened, all.table net]
    simp
  · intro net member
    exact all.up net (by simpa using member)

def Separated (nets : List Interface) : Prop :=
  ∀ i ∈ nets, ∀ j ∈ nets, i ≠ j → 7 ≤ (i.id - j.id).toNat

instance (nets : List Interface) : Decidable (Separated nets) := by unfold Separated; infer_instance

theorem apartOfSeparated {nets : List Interface} {key : StatisticKey} {net : Interface} (separated : Separated nets)
    (target : key.target ∈ nets) (member : net ∈ nets) : Apart key net := by
  intro p same
  have sum := StatisticKey.valueIff.mp same
  by_cases here : net = key.target
  · simp only [here] at sum
    have number : p = key.protocol := Protocol.numberInjective (UInt32.add_right_inj key.target.id |>.mp sum)
    rw [here, number]
  · have forward := separated net member key.target target here
    have backward := separated key.target target net member (Ne.symm here)
    have small := p.numberSmall
    have small' := key.protocol.numberSmall
    have sum' := congrArg UInt32.toNat sum
    simp only [UInt32.toNat_add, UInt32.toNat_sub] at sum' forward backward
    have low := net.id.toNat_lt
    have low' := key.target.id.toNat_lt
    omega

def StatisticsExact (host : Host) (clock : Int) (nets : List Interface) : Prop :=
  ∀ ops s, (counting host).Run ⟨opened nets, clock⟩ ops s →
    (∀ key, key.target ∈ nets → inputs host key ⟨opened nets, clock⟩ ops < 2 ^ 31 ∧
      outputs host key ⟨opened nets, clock⟩ ops < 2 ^ 31) →
    ∀ key, key.target ∈ nets →
      (counter s.storage key).input.toInt = inputs host key ⟨opened nets, clock⟩ ops ∧
      (counter s.storage key).output.toInt = outputs host key ⟨opened nets, clock⟩ ops

theorem separatedExact {host : Host} {clock : Int} {nets : List Interface} (separated : Separated nets) :
    StatisticsExact host clock nets := by
  intro ops s run few key target
  have start := openedSpec nets
  have counted : Counted nets (opened nets) := by
    refine ⟨start.table, ?_⟩
    intro mac entry found
    rw [start.mac] at found
    contradiction
  have counts := runCounter run counted (fun net member => apartOfSeparated separated target member)
  have blank : counter (opened nets) key = ⟨0, 0⟩ := by
    simp only [counter, start.statistics]
    rfl
  simp only [blank, plus, Int32.zero_add] at counts
  obtain ⟨input, output⟩ := few key target
  rw [counts]
  exact ⟨Int32.toInt_ofNat_of_lt input, Int32.toInt_ofNat_of_lt output⟩

/- A frame with nothing but Ethernet, which seems to be sent by the receiver itself: it
is counted and goes nowhere. -/
def ownFrame (host : Host) (net : Interface) : Frame := ⟨[.ethernetII (host.hwAddress net) 0], 60, []⟩

theorem receiveOwn (host : Host) (now : Int) {net : Interface} {s : SharedStorage} (registered : s.Registered net)
    (up : (s.interface net).up = true) (sent : s.sentPackets = .empty) :
    (receive host net now (ownFrame host net) s).calls = [] ∧
    (receive host net now (ownFrame host net) s).storage =
      { s with statisticsTable := countOne incrementInput net .ethernetII s.statisticsTable } := by
  have accepted : Accepts net now (ownFrame host net) s := by
    refine ⟨rfl, up, ?_⟩
    rw [duplicate, sent]
    rfl
  have layer : (ownFrame host net).ethernet? = some ⟨host.hwAddress net, 0⟩ := rfl
  simp only [receive, selectOwn registered accepted layer rfl]
  exact ⟨rfl, rfl⟩

theorem countsOne {host : Host} {key : StatisticKey} {s : Store} {op : Operation} :
    inputs host key s [op] = received key s op ∧ outputs host key s [op] = passed host key s op := by
  simp only [inputs, outputs, Machine.tallyCons]
  exact ⟨rfl, rfl⟩

/- Two interfaces that are closer share a number: the first one's Ethernet counter is
the second one's counter of some other protocol. -/
theorem exactSeparated {host : Host} {clock : Int} {nets : List Interface}
    (counts : StatisticsExact host clock nets) : Separated nets := by
  intro i first j second different
  by_contra close
  obtain ⟨p, number⟩ := Protocol.ofNumber (not_le.mp close)
  have shared : StatisticKey.value ⟨p, j⟩ = StatisticKey.value ⟨.ethernetII, i⟩ := by
    refine StatisticKey.valueIff.mpr (UInt32.toNat_inj.mp ?_)
    have low := i.id.toNat_lt
    have low' := j.id.toNat_lt
    have zero : Protocol.ethernetII.number.toNat = 0 := rfl
    simp only [UInt32.toNat_sub] at number
    simp only [UInt32.toNat_add, number, zero]
    omega
  have start := openedSpec nets
  have registered := (start.table i).mpr first
  obtain ⟨calls, storage⟩ := receiveOwn host clock registered (start.up i first) start.sent
  have ready : (counting host).enabled ⟨opened nets, clock⟩ (.receive i clock (ownFrame host i)) :=
    ⟨⟨⟨le_refl _, registered⟩, id⟩, id⟩
  have few : ∀ key, key.target ∈ nets →
      inputs host key ⟨opened nets, clock⟩ [.receive i clock (ownFrame host i)] < 2 ^ 31 ∧
      outputs host key ⟨opened nets, clock⟩ [.receive i clock (ownFrame host i)] < 2 ^ 31 := by
    intro key _
    rw [countsOne.1, countsOne.2]
    refine ⟨?_, ?_⟩
    · simp only [received]
      split <;> omega
    · simp only [passed, calls, outputsOf, List.count_nil, ite_self]
      omega
  have answer := (counts _ _ (.cons ready (.nil _)) few ⟨p, j⟩ second).1
  have none : received ⟨p, j⟩ ⟨opened nets, clock⟩ (.receive i clock (ownFrame host i)) = 0 := by
    simp [received, different]
  have one : counter ((counting host).step ⟨opened nets, clock⟩ (.receive i clock (ownFrame host i))).storage ⟨p, j⟩ =
      ⟨1, 0⟩ := by
    change counter (receive host i clock (ownFrame host i) (opened nets)).storage ⟨p, j⟩ = _
    rw [storage]
    simp only [counter, read, countOne, start.statistics, OrderedTable.findUpdateSame _ _ shared]
    rfl
  rw [countsOne.1, none, one] at answer
  contradiction

theorem statisticsExact (host : Host) (clock : Int) (nets : List Interface) :
    StatisticsExact host clock nets ↔ Separated nets := ⟨exactSeparated, separatedExact⟩

theorem statisticsMixed : ¬ ∀ nets : List Interface, (nets.map Interface.id).Nodup → StatisticsExact bench 0 nets := by
  intro claim
  have counts := claim [⟨2⟩, ⟨3⟩] (by decide)
  have far : ¬ Separated [⟨2⟩, ⟨3⟩] := by decide
  exact far (exactSeparated counts)

end Statistics
end PsipSwitch
