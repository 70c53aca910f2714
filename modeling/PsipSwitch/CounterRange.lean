import Mathlib.Algebra.Order.BigOperators.Group.List
import Mathlib.Algebra.Order.Group.Nat
import PsipSwitch.StatisticsRuns

/-! How far the counters go. Every entry of the table of statistics, whatever pairs share
its number, stays where it is and goes up by the frames counted under its number, as long
as these are fewer than 2^31. At the next one it is the smallest number there is. -/
namespace PsipSwitch
namespace CounterRange
open NetworkHandle NetworkSwitch SharedStorage Forwarding Statistics

def receivedUnder (key : StatisticKey) (s : Store) (op : Operation) : Nat :=
  (Protocol.all.map (fun p => received (sharing key p) s op)).sum

def passedUnder (host : Host) (key : StatisticKey) (s : Store) (op : Operation) : Nat :=
  (Protocol.all.map (fun p => passed host (sharing key p) s op)).sum

def clears : Operation → Prop
  | .maintain .clearStats | .maintain (.clearStatsOf _) => True
  | _ => False

def uncleared (host : Host) : Machine Store Operation := (session host).restrict (fun _ op => ¬ clears op)

theorem stepGrown {host : Host} {s : Store} {op : Operation} (ready : (uncleared host).enabled s op)
    (key : StatisticKey) : Grown key (receivedUnder key s op) (passedUnder host key s op) s.storage.statisticsTable
      ((uncleared host).step s op).storage.statisticsTable := by
  cases op with
  | reset => exact absurd trivial ready.1.2
  | receive me now packet =>
    have grown := grownReceive host now packet key ready.1.1.2
    have inputs : (if Accepts me now packet s.storage then hits (inputTest packet) me key Protocol.all else 0) =
        receivedUnder key s (.receive me now packet) := by
      simp only [receivedUnder, received, hits]
      split
      · rename_i accepted
        simp only [accepted, true_and]
        rfl
      · rename_i no
        simp [no]
    exact inputs ▸ grown
  | request now draws request =>
    exact RestHandle.respondKeeps (P := fun t => Grown key 0 0 s.storage.statisticsTable t.statisticsTable) host now
      draws request (fun _ => grownSame _) (fun _ _ _ => grownSame _) (fun _ => grownSame _)
  | maintain m =>
    cases m with
    | clearStats => exact absurd trivial ready.2
    | clearStatsOf net => exact absurd trivial ready.2
    | _ => exact grownSame _
  | _ => exact grownSame _

theorem countedOnce (host : Host) (me : Interface) (now : Int) (packet : Frame) (s : SharedStorage) (net : Interface) :
    (receive host me now packet s).calls.count (.outputStatistics net) ≤ 1 := by
  rcases selected : select host me now packet s with ⟨t, exit⟩
  have calls : (receive host me now packet s).calls = (leave host me now packet (t, exit)).2 := by
    rw [receive, selected]
  have distinct : (targets me t exit).Nodup := by
    cases exit with
    | skip => exact .nil
    | send destination => exact List.nodup_singleton _
    | broadcast => exact t.interfaces.keysNodup.filter _
  rw [calls, countTargets]
  exact List.nodup_iff_count_le_one.mp distinct net

theorem stepFew {host : Host} {s : Store} {op : Operation} (ready : (uncleared host).enabled s op)
    (key : StatisticKey) : receivedUnder key s op ≤ 7 ∧ passedUnder host key s op ≤ 7 := by
  have seven {f : Protocol → Nat} (single : ∀ p, f p ≤ 1) : (Protocol.all.map f).sum ≤ 7 := by
    have bound := List.sum_le_card_nsmul (Protocol.all.map f) 1 (by
      intro n member
      obtain ⟨p, _, rfl⟩ := List.mem_map.mp member
      exact single p)
    exact bound
  refine ⟨seven (fun p => ?_), seven (fun p => ?_)⟩
  · cases op with
    | receive me now packet =>
      simp only [received]
      split <;> omega
    | _ => exact Nat.zero_le 1
  · cases op with
    | receive me now packet =>
      simp only [passed, outputsOf]
      split
      · exact countedOnce host me now packet s.storage _
      · omega
    | _ => exact Nat.zero_le 1

def NonNegative (s : SharedStorage) : Prop :=
  ∀ key entry, s.statisticsTable.find? key = some entry → 0 ≤ entry.input.toInt ∧ 0 ≤ entry.output.toInt

def Forwards (s t : SharedStorage) : Prop :=
  ∀ key entry, s.statisticsTable.find? key = some entry → ∃ later, t.statisticsTable.find? key = some later ∧
    entry.input.toInt ≤ later.input.toInt ∧ entry.output.toInt ≤ later.output.toInt

def NeverBack (host : Host) : Store → List Operation → Prop
  | s, [] => NonNegative s.storage
  | s, op :: ops => NonNegative s.storage ∧ Forwards s.storage ((uncleared host).step s op).storage ∧
      NeverBack host ((uncleared host).step s op) ops

def inputsUnder (host : Host) (key : StatisticKey) (s : Store) (ops : List Operation) : Nat :=
  (uncleared host).tally (receivedUnder key) s ops

def outputsOver (host : Host) (key : StatisticKey) (s : Store) (ops : List Operation) : Nat :=
  (uncleared host).tally (passedUnder host key) s ops

theorem neverBackFirst {host : Host} {s : Store} {ops : List Operation} (never : NeverBack host s ops) :
    NonNegative s.storage := by
  cases ops with
  | nil => exact never
  | cons op ops => exact never.1

theorem nonNegativeIff {s : SharedStorage} :
    NonNegative s ↔ ∀ key, 0 ≤ (counter s key).input.toInt ∧ 0 ≤ (counter s key).output.toInt := by
  constructor
  · intro entries key
    rw [counter, Statistics.read]
    cases found : s.statisticsTable.find? key with
    | none => exact ⟨le_refl _, le_refl _⟩
    | some entry => exact entries key entry found
  · intro counters key entry found
    have here := counters key
    rw [counter, Statistics.read, found] at here
    exact here

/- A counter counts up to 2^31 - 1, and the next few numbers are negative. -/
theorem addCases {n : Int32} {d : Nat} (low : 0 ≤ n.toInt) (few : d ≤ 7) :
    (n.toInt + d < 2 ^ 31 ∧ (n + Int32.ofNat d).toInt = n.toInt + d) ∨
    (2 ^ 31 ≤ n.toInt + d ∧ (n + Int32.ofNat d).toInt < 0) := by
  have high := n.toInt_lt
  have small : (Int32.ofNat d).toInt = d := Int32.toInt_ofNat_of_lt (by omega)
  rw [Int32.toInt_add, small, Int.bmod]
  split <;> omega

theorem addIff {n : Int32} {d : Nat} (low : 0 ≤ n.toInt) (few : d ≤ 7) :
    0 ≤ (n + Int32.ofNat d).toInt ↔ n.toInt + d < 2 ^ 31 := by
  rcases addCases low few with ⟨room, exact_⟩ | ⟨full, negative⟩
  · omega
  · omega

theorem addExact {n : Int32} {d : Nat} (low : 0 ≤ n.toInt) (few : d ≤ 7) (room : n.toInt + d < 2 ^ 31) :
    (n + Int32.ofNat d).toInt = n.toInt + d := by
  rcases addCases low few with ⟨_, exact_⟩ | ⟨full, _⟩
  · exact exact_
  · omega

def Room (host : Host) (s : Store) (op : Operation) (key : StatisticKey) : Prop :=
  (counter s.storage key).input.toInt + receivedUnder key s op < 2 ^ 31 ∧
  (counter s.storage key).output.toInt + passedUnder host key s op < 2 ^ 31

section Step
variable {host : Host} {s : Store} {op : Operation}

theorem stepUnder (ready : (uncleared host).enabled s op) (key : StatisticKey) :
    counter ((uncleared host).step s op).storage key =
      plus (counter s.storage key) (receivedUnder key s op) (passedUnder host key s op) := (stepGrown ready key).counted

theorem stepNonNegative (ready : (uncleared host).enabled s op) (start : NonNegative s.storage) :
    NonNegative ((uncleared host).step s op).storage ↔ ∀ key, Room host s op key := by
  rw [nonNegativeIff]
  refine forall_congr' (fun key => ?_)
  have low := nonNegativeIff.mp start key
  have few := stepFew ready key
  rw [stepUnder ready key, plus, addIff low.1 few.1, addIff low.2 few.2]
  rfl

theorem stepExact {key : StatisticKey} (ready : (uncleared host).enabled s op) (start : NonNegative s.storage)
    (room : Room host s op key) :
    (counter ((uncleared host).step s op).storage key).input.toInt =
      (counter s.storage key).input.toInt + receivedUnder key s op ∧
    (counter ((uncleared host).step s op).storage key).output.toInt =
      (counter s.storage key).output.toInt + passedUnder host key s op := by
  have low := nonNegativeIff.mp start key
  have few := stepFew ready key
  rw [stepUnder ready key]
  exact ⟨addExact low.1 few.1 room.1, addExact low.2 few.2 room.2⟩

theorem stepForwards (ready : (uncleared host).enabled s op) (start : NonNegative s.storage)
    (room : ∀ key, Room host s op key) : Forwards s.storage ((uncleared host).step s op).storage := by
  intro key entry found
  have present : s.storage.statisticsTable.contains key = true := by
    rw [OrderedTable.contains, found]
    rfl
  obtain ⟨later, still⟩ := Option.isSome_iff_exists.mp ((stepGrown ready key).stays present)
  have before : counter s.storage key = entry := by
    rw [counter, Statistics.read, found]
    rfl
  have after : counter ((uncleared host).step s op).storage key = later := by
    rw [counter, Statistics.read, still]
    rfl
  have rise := stepExact ready start (room key)
  rw [before, after] at rise
  exact ⟨later, still, by omega, by omega⟩

end Step

theorem tallies (host : Host) (key : StatisticKey) (s : Store) (op : Operation) (ops : List Operation) :
    inputsUnder host key s (op :: ops) =
      receivedUnder key s op + inputsUnder host key ((uncleared host).step s op) ops ∧
    outputsOver host key s (op :: ops) =
      passedUnder host key s op + outputsOver host key ((uncleared host).step s op) ops :=
  ⟨Machine.tallyCons _ _ _ _, Machine.tallyCons _ _ _ _⟩

/- From a state whose counters are not negative: how far they stand is to be added to what
the run counts. -/
theorem neverBackIff {host : Host} {s t : Store} {ops : List Operation} (run : (uncleared host).Run s ops t)
    (start : NonNegative s.storage) : NeverBack host s ops ↔ ∀ key,
      (counter s.storage key).input.toInt + inputsUnder host key s ops < 2 ^ 31 ∧
      (counter s.storage key).output.toInt + outputsOver host key s ops < 2 ^ 31 := by
  induction run with
  | nil s =>
    refine iff_of_true start (fun key => ?_)
    have none : inputsUnder host key s [] = 0 ∧ outputsOver host key s [] = 0 := ⟨rfl, rfl⟩
    have input := (counter s.storage key).input.toInt_lt
    have output := (counter s.storage key).output.toInt_lt
    omega
  | @cons s op ops t ready rest ih =>
    -- with room for the step, the bound on the run is the bound on the rest of it
    have shift (room : ∀ key, Room host s op key) (key : StatisticKey) :
        ((counter ((uncleared host).step s op).storage key).input.toInt +
            inputsUnder host key ((uncleared host).step s op) ops < 2 ^ 31 ∧
          (counter ((uncleared host).step s op).storage key).output.toInt +
            outputsOver host key ((uncleared host).step s op) ops < 2 ^ 31) ↔
        ((counter s.storage key).input.toInt + inputsUnder host key s (op :: ops) < 2 ^ 31 ∧
          (counter s.storage key).output.toInt + outputsOver host key s (op :: ops) < 2 ^ 31) := by
      have high := stepExact ready start (room key)
      have counts := tallies host key s op ops
      omega
    constructor
    · intro never
      have next := neverBackFirst never.2.2
      have room := (stepNonNegative ready start).mp next
      exact fun key => (shift room key).mp ((ih next).mp never.2.2 key)
    · intro bounded
      have room (key : StatisticKey) : Room host s op key := by
        have here := bounded key
        have counts := tallies host key s op ops
        exact ⟨by omega, by omega⟩
      have next := (stepNonNegative ready start).mpr room
      exact ⟨start, stepForwards ready start room, (ih next).mpr (fun key => (shift room key).mpr (bounded key))⟩

theorem countersForward {host : Host} {s t : Store} {ops : List Operation}
    (empty : s.storage.statisticsTable = .empty) (run : (uncleared host).Run s ops t) :
    NeverBack host s ops ↔ ∀ key, inputsUnder host key s ops < 2 ^ 31 ∧ outputsOver host key s ops < 2 ^ 31 := by
  have blank (key : StatisticKey) : counter s.storage key = ⟨0, 0⟩ := by
    rw [counter, Statistics.read, empty]
    rfl
  have start : NonNegative s.storage := by
    rw [nonNegativeIff]
    intro key
    rw [blank]
    exact ⟨le_refl _, le_refl _⟩
  have zero : (0 : Int32).toInt = 0 := rfl
  rw [neverBackIff run start]
  refine forall_congr' (fun key => ?_)
  rw [blank, zero]
  omega

/- A run of n steps counts 7 n frames under a number at most. -/
theorem runFew {host : Host} {s t : Store} {ops : List Operation} (run : (uncleared host).Run s ops t)
    (key : StatisticKey) : inputsUnder host key s ops ≤ 7 * ops.length ∧ outputsOver host key s ops ≤ 7 * ops.length := by
  induction run with
  | nil s => exact ⟨le_refl _, le_refl _⟩
  | @cons s op ops t ready rest ih =>
    have few := stepFew ready key
    have counts := tallies host key s op ops
    rw [List.length_cons]
    omega

theorem countersForwardBench : NeverBack bench benchStore [.receive ⟨1⟩ 0 (benchFrame 9 7)] := by
  have ready : (uncleared bench).enabled benchStore (.receive ⟨1⟩ 0 (benchFrame 9 7)) :=
    ⟨⟨⟨by decide, by decide⟩, id⟩, id⟩
  have run : (uncleared bench).Run benchStore [.receive ⟨1⟩ 0 (benchFrame 9 7)] _ := .cons ready (.nil _)
  refine (countersForward rfl run).mpr (fun key => ?_)
  have few := runFew run key
  have one : [Operation.receive ⟨1⟩ 0 (benchFrame 9 7)].length = 1 := rfl
  omega

/- A frame that is counted under a key is counted under its number. -/
theorem receivedKey (key : StatisticKey) (s : Store) (op : Operation) : received key s op ≤ receivedUnder key s op := by
  refine List.single_le_sum (fun _ _ => Nat.zero_le _) _ (List.mem_map.mpr ⟨key.protocol, Protocol.memAll _, ?_⟩)
  rw [sharingSelf]

/- One frame over and over: it is never sent on, hence never taken for a copy. -/
theorem ownRun (host : Host) (now : Int) {net : Interface} (n : Nat) {s : Store} (order : s.clock ≤ now)
    (registered : s.storage.Registered net) (up : (s.storage.interface net).up = true)
    (sent : s.storage.sentPackets = .empty) :
    (∃ t, (uncleared host).Run s (List.replicate n (.receive net now (ownFrame host net))) t) ∧
    n ≤ inputsUnder host ⟨.ethernetII, net⟩ s (List.replicate n (.receive net now (ownFrame host net))) := by
  induction n generalizing s with
  | zero => exact ⟨⟨s, .nil s⟩, Nat.zero_le _⟩
  | succ n ih =>
    have ready : (uncleared host).enabled s (.receive net now (ownFrame host net)) := ⟨⟨⟨order, registered⟩, id⟩, id⟩
    have accepted : Accepts net now (ownFrame host net) s.storage := by
      refine ⟨rfl, up, ?_⟩
      rw [duplicate, sent]
      rfl
    have counted : received ⟨.ethernetII, net⟩ s (.receive net now (ownFrame host net)) = 1 := by
      have layer : inputTest (ownFrame host net) .ethernetII = true := rfl
      simp only [received, accepted, layer, and_self, if_true]
    have one := receivedKey ⟨.ethernetII, net⟩ s (.receive net now (ownFrame host net))
    have storage : ((uncleared host).step s (.receive net now (ownFrame host net))).storage =
        { s.storage with
          statisticsTable := countOne incrementInput net .ethernetII s.storage.statisticsTable } :=
      (receiveOwn host now registered up sent).2
    have later := @ih ((uncleared host).step s (.receive net now (ownFrame host net))) (le_refl _)
      (by rw [storage]; exact registered) (by rw [storage]; exact up) (by rw [storage]; exact sent)
    obtain ⟨⟨t, run⟩, many⟩ := later
    rw [List.replicate_succ]
    refine ⟨⟨t, .cons ready run⟩, ?_⟩
    rw [(tallies host ⟨.ethernetII, net⟩ s (.receive net now (ownFrame host net)) _).1]
    omega

/- The frame that comes after 2^31 - 1 others. -/
theorem countersWrap : ¬ ∀ (host : Host) (s t : Store) (ops : List Operation), s.storage.statisticsTable = .empty →
    (uncleared host).Run s ops t → NeverBack host s ops := by
  intro claim
  obtain ⟨⟨t, run⟩, many⟩ := @ownRun bench 0 ⟨1⟩ 2147483648 benchStore (by decide) (by decide) (by decide) rfl
  have few := ((countersForward rfl run).mp (claim bench benchStore t _ rfl run) ⟨.ethernetII, ⟨1⟩⟩).1
  omega

end CounterRange
end PsipSwitch
