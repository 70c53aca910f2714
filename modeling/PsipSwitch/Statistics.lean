import Mathlib.Algebra.BigOperators.Group.List.Basic
import PsipSwitch.Forwarding

/-! Counters. The table of statistics is ordered by one number, the number of the
interface plus the number of the protocol. Here is what one reception adds to the
counters of a pair whose number no other pair of the session has. -/
namespace PsipSwitch
namespace Statistics
open NetworkHandle NetworkSwitch SharedStorage Forwarding

def read (t : StatisticsTable) (key : StatisticKey) : StatisticEntry := (t.find? key).getD ⟨0, 0⟩

def counter (s : SharedStorage) (key : StatisticKey) : StatisticEntry := read s.statisticsTable key

def Apart (key : StatisticKey) (net : Interface) : Prop :=
  ∀ p, StatisticKey.value ⟨p, net⟩ = StatisticKey.value key → StatisticKey.mk p net = key

def plus (entry : StatisticEntry) (inputs outputs : Nat) : StatisticEntry :=
  ⟨entry.input + Int32.ofNat inputs, entry.output + Int32.ofNat outputs⟩

@[simp] theorem plusZero (entry : StatisticEntry) : plus entry 0 0 = entry := by
  simp [plus]

theorem plusPlus (entry : StatisticEntry) (a b c d : Nat) :
    plus (plus entry a b) c d = plus entry (a + c) (b + d) := by
  simp only [plus, Int32.ofNat_add, Int32.add_assoc]

structure Grown (key : StatisticKey) (inputs outputs : Nat) (t u : StatisticsTable) : Prop where
  stays : t.contains key = true → u.contains key = true
  counted : read u key = plus (read t key) inputs outputs

theorem grownSame {key : StatisticKey} (t : StatisticsTable) : Grown key 0 0 t t := ⟨id, (plusZero _).symm⟩

theorem grownTrans {key : StatisticKey} {a b c d : Nat} {t u v : StatisticsTable} (first : Grown key a b t u)
    (second : Grown key c d u v) : Grown key (a + c) (b + d) t v := by
  refine ⟨fun present => second.stays (first.stays present), ?_⟩
  rw [second.counted, first.counted, plusPlus]

def sharing (key : StatisticKey) (p : Protocol) : StatisticKey := ⟨p, ⟨key.target.id + key.protocol.number - p.number⟩⟩

theorem sharingIff {key : StatisticKey} {p : Protocol} {net : Interface} :
    StatisticKey.value ⟨p, net⟩ = StatisticKey.value key ↔ net = (sharing key p).target := by
  rw [StatisticKey.valueIff, sharing]
  constructor
  · intro sum
    have number : net.id = key.target.id + key.protocol.number - p.number := by
      rw [← sum, UInt32.add_sub_cancel]
    exact congrArg Interface.mk number
  · rintro rfl
    exact UInt32.sub_add_cancel _ _

theorem sharingSelf (key : StatisticKey) : sharing key key.protocol = key := by
  simp only [sharing, UInt32.add_sub_cancel]

def hits (test : Protocol → Bool) (net : Interface) (key : StatisticKey) (ps : List Protocol) : Nat :=
  (ps.map (fun p => if net = (sharing key p).target ∧ test p = true then 1 else 0)).sum

theorem grownOne {increment : StatisticEntry → StatisticEntry} {a b : Nat} (adds : ∀ entry, increment entry = plus entry a b)
    (net : Interface) (p : Protocol) (key : StatisticKey) (t : StatisticsTable) :
    Grown key (a * (if net = (sharing key p).target then 1 else 0)) (b * (if net = (sharing key p).target then 1 else 0))
      t (countOne increment net p t) := by
  by_cases here : net = (sharing key p).target
  · have same := (sharingIff.mpr here).symm
    have found := t.findUpdateSame (fun old => increment (old.getD ⟨0, 0⟩)) same
    rw [if_pos here, Nat.mul_one, Nat.mul_one]
    refine ⟨fun _ => ?_, ?_⟩
    · rw [OrderedTable.contains, countOne, found]
      rfl
    · rw [read, countOne, found, Option.getD_some, adds, ← t.findSame same]
      rfl
  · have other : StatisticKey.value key ≠ StatisticKey.value ⟨p, net⟩ := fun same => here (sharingIff.mp same.symm)
    have found := t.findUpdateOther (fun old => increment (old.getD ⟨0, 0⟩)) other
    rw [if_neg here, Nat.mul_zero, Nat.mul_zero]
    refine ⟨fun present => ?_, ?_⟩
    · rw [OrderedTable.contains, countOne, found]
      exact present
    · rw [read, countOne, found, plusZero]
      rfl

theorem grownAll {increment : StatisticEntry → StatisticEntry} {a b : Nat} (adds : ∀ entry, increment entry = plus entry a b)
    (test : Protocol → Bool) (net : Interface) (key : StatisticKey) (ps : List Protocol) (t : StatisticsTable) :
    Grown key (a * hits test net key ps) (b * hits test net key ps) t (countAll test increment net ps t) := by
  induction ps generalizing t with
  | nil => exact grownSame t
  | cons p rest ih =>
    have first : countAll test increment net (p :: rest) t =
        countAll test increment net rest (if test p then countOne increment net p t else t) := rfl
    have total : hits test net key (p :: rest) =
        (if net = (sharing key p).target ∧ test p = true then 1 else 0) + hits test net key rest := rfl
    rw [first, total, Nat.mul_add, Nat.mul_add]
    cases counted : test p with
    | true =>
      simp only [if_true, and_true]
      exact grownTrans (grownOne adds net p key t) (ih _)
    | false =>
      simp only [Bool.false_eq_true, and_false, if_false, Nat.mul_zero]
      exact grownTrans (grownSame t) (ih _)

theorem grownInput (packet : Frame) (net : Interface) (key : StatisticKey) (s : SharedStorage) :
    Grown key (hits (inputTest packet) net key Protocol.all) 0 s.statisticsTable
      (inputStatistics packet net s).statisticsTable := by
  have adds : ∀ entry, incrementInput entry = plus entry 1 0 := by simp [incrementInput, plus]
  have grown := grownAll adds (inputTest packet) net key Protocol.all s.statisticsTable
  rw [Nat.one_mul, Nat.zero_mul] at grown
  exact grown

theorem grownOutput (packet : Frame) (net : Interface) (key : StatisticKey) (s : SharedStorage) :
    Grown key 0 (hits (outputTest packet) net key Protocol.all) s.statisticsTable
      (outputStatistics packet net s).statisticsTable := by
  have adds : ∀ entry, incrementOutput entry = plus entry 0 1 := by simp [incrementOutput, plus]
  have grown := grownAll adds (outputTest packet) net key Protocol.all s.statisticsTable
  rw [Nat.one_mul, Nat.zero_mul] at grown
  exact grown

theorem hitsApart {test : Protocol → Bool} {net : Interface} {key : StatisticKey} (apart : Apart key net) :
    hits test net key Protocol.all = if net = key.target ∧ test key.protocol = true then 1 else 0 := by
  have each (p : Protocol) : (net = (sharing key p).target ∧ test p = true) ↔
      p = key.protocol ∧ net = key.target ∧ test key.protocol = true := by
    constructor
    · rintro ⟨here, counted⟩
      have same := apart p (sharingIff.mpr here)
      subst same
      exact ⟨rfl, rfl, counted⟩
    · rintro ⟨rfl, here, counted⟩
      exact ⟨by rw [sharingSelf, here], counted⟩
  simp only [hits, each]
  by_cases counted : net = key.target ∧ test key.protocol = true
  · simp only [counted, and_self, and_true, if_true]
    cases key.protocol <;> rfl
  · simp only [counted, and_false, if_false]
    rfl

theorem inputCounter {packet : Frame} {net : Interface} {s : SharedStorage} {key : StatisticKey}
    (apart : Apart key net) : counter (inputStatistics packet net s) key =
      plus (counter s key) (if net = key.target ∧ inputTest packet key.protocol = true then 1 else 0) 0 := by
  rw [← hitsApart apart]
  exact (grownInput packet net key s).counted

theorem outputCounter {packet : Frame} {net : Interface} {s : SharedStorage} {key : StatisticKey}
    (apart : Apart key net) : counter (outputStatistics packet net s) key =
      plus (counter s key) 0 (if net = key.target ∧ outputTest packet key.protocol = true then 1 else 0) := by
  rw [← hitsApart apart]
  exact (grownOutput packet net key s).counted

def outputsOf (packet : Frame) (key : StatisticKey) (calls : List Call) : Nat :=
  if outputTest packet key.protocol then calls.count (.outputStatistics key.target) else 0

def outputsUnder (packet : Frame) (key : StatisticKey) (calls : List Call) : Nat :=
  (Protocol.all.map (fun p => outputsOf packet (sharing key p) calls)).sum

theorem outputsApart {packet : Frame} {key : StatisticKey} {calls : List Call}
    (apart : ∀ net, .outputStatistics net ∈ calls → Apart key net) :
    outputsUnder packet key calls = outputsOf packet key calls := by
  have each (p : Protocol) : outputsOf packet (sharing key p) calls =
      if p = key.protocol then outputsOf packet key calls else 0 := by
    by_cases here : p = key.protocol
    · rw [if_pos here, here, sharingSelf]
    · rw [if_neg here, outputsOf]
      split
      · refine List.count_eq_zero.mpr (fun called => here ?_)
        have same := apart _ called p (sharingIff.mpr rfl)
        rw [← same]
      · rfl
  simp only [outputsUnder, each]
  cases key.protocol <;> simp [Protocol.all]

def targets (me : Interface) (s : SharedStorage) : Exit → List Interface
  | .skip => []
  | .send destination => [destination]
  | .broadcast => others me s

theorem countTargets (host : Host) (me : Interface) (now : Int) (packet : Frame) (s : SharedStorage) (exit : Exit)
    (net : Interface) :
    (leave host me now packet (s, exit)).2.count (.outputStatistics net) = (targets me s exit).count net := by
  cases exit with
  | skip => rfl
  | send destination =>
    simp only [leave, send, targets]
    split <;> simp [List.count_cons]
  | broadcast =>
    have pass : ∀ nets : List Interface,
        (nets.flatMap (fun other => [Call.outputStatistics other, Call.transmit other])).count (.outputStatistics net) =
          nets.count net := by
      intro nets
      induction nets with
      | nil => rfl
      | cons head rest ih => simp [List.count_cons, ih]
    have same : others me (recordSent packet now s) = others me s := rfl
    simp only [leave, broadcast, targets, List.count_cons, same, pass]
    simp

theorem hitsSum (test : Protocol → Bool) (key : StatisticKey) (ps : List Protocol) (nets : List Interface) :
    (nets.map (fun net => hits test net key ps)).sum =
      (ps.map (fun p => if test p = true then nets.count (sharing key p).target else 0)).sum := by
  induction ps with
  | nil => simp [hits]
  | cons p rest ih =>
    have first : (nets.map (fun net => if net = (sharing key p).target ∧ test p = true then 1 else 0)).sum =
        if test p = true then nets.count (sharing key p).target else 0 := by
      clear ih
      induction nets with
      | nil => simp
      | cons net nets ih =>
        cases counted : test p with
        | true => simpa [counted, List.count_cons, Nat.add_comm] using ih
        | false => simp
    have split : nets.map (fun net => hits test net key (p :: rest)) = nets.map (fun net =>
        (if net = (sharing key p).target ∧ test p = true then 1 else 0) + hits test net key rest) := rfl
    rw [split, List.sum_map_add, first, ih]
    rfl

theorem grownOutputs (packet : Frame) (key : StatisticKey) (nets : List Interface) (s : SharedStorage) :
    Grown key 0 ((nets.map (fun net => hits (outputTest packet) net key Protocol.all)).sum) s.statisticsTable
      (nets.foldl (fun s net => outputStatistics packet net s) s).statisticsTable := by
  induction nets generalizing s with
  | nil => exact grownSame _
  | cons net rest ih => exact grownTrans (grownOutput packet net key s) (ih _)

theorem grownLeave (host : Host) (me : Interface) (now : Int) (packet : Frame) (key : StatisticKey) (s : SharedStorage)
    (exit : Exit) :
    Grown key 0 (outputsUnder packet key (leave host me now packet (s, exit)).2) s.statisticsTable
      (leave host me now packet (s, exit)).1.statisticsTable := by
  have total : outputsUnder packet key (leave host me now packet (s, exit)).2 =
      ((targets me s exit).map (fun net => hits (outputTest packet) net key Protocol.all)).sum := by
    simp only [outputsUnder, outputsOf, countTargets, hitsSum]
    rfl
  rw [total]
  cases exit with
  | skip => exact grownSame _
  | send destination =>
    have after : (leave host me now packet (s, .send destination)).1.statisticsTable =
        (outputStatistics packet destination s).statisticsTable := by
      simp only [leave, send]
      split <;> rfl
    rw [after]
    exact grownOutputs packet key [destination] s
  | broadcast => exact grownOutputs packet key (others me s) (recordSent packet now s)

end Statistics
end PsipSwitch
