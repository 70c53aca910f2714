import Mathlib.Algebra.BigOperators.Group.List.Basic
import PsipSwitch.StatisticsRuns
import PsipSwitch.Accounting

/-! Input and output tell the protocols of a frame apart by two copies of one
classifier. They agree on every frame but those whose TCP layer has a port 443 and no
port 80: HTTP on the way in, and not on the way out. -/
namespace PsipSwitch
namespace Statistics
open NetworkHandle NetworkSwitch SharedStorage Forwarding

def InputCounted (packet : Frame) (i : Interface) (s : SharedStorage) (p : Protocol) : Prop :=
  (counter (inputStatistics packet i s) ⟨p, i⟩).input = (counter s ⟨p, i⟩).input + 1

def OutputCounted (packet : Frame) (i : Interface) (s : SharedStorage) (p : Protocol) : Prop :=
  (counter (outputStatistics packet i s) ⟨p, i⟩).output = (counter s ⟨p, i⟩).output + 1

structure Alike (packet : Frame) (i : Interface) (s : SharedStorage) : Prop where
  protocols : ∀ p, InputCounted packet i s p ↔ OutputCounted packet i s p
  inputOnce : ∀ p, InputCounted packet i s p ∨
    (counter (inputStatistics packet i s) ⟨p, i⟩).input = (counter s ⟨p, i⟩).input
  outputOnce : ∀ p, OutputCounted packet i s p ∨
    (counter (outputStatistics packet i s) ⟨p, i⟩).output = (counter s ⟨p, i⟩).output
  outputKept : ∀ key, (counter (inputStatistics packet i s) key).output = (counter s key).output
  inputKept : ∀ key, (counter (outputStatistics packet i s) key).input = (counter s key).input

def PortsAgree (packet : Frame) : Prop :=
  ∀ tcp, packet.tcp? = some tcp → tcp.sport = 443 ∨ tcp.dport = 443 → tcp.sport = 80 ∨ tcp.dport = 80

theorem apartSelf (p : Protocol) (i : Interface) : Apart ⟨p, i⟩ i := by
  intro q same
  have sum := StatisticKey.valueIff.mp same
  have number : q = p := Protocol.numberInjective ((UInt32.add_right_inj i.id).mp sum)
  rw [number]

theorem readKept (half : StatisticEntry → Int32) (increment : StatisticEntry → StatisticEntry)
    (kept : ∀ entry, half (increment entry) = half entry) (test : Protocol → Bool) (net : Interface)
    (ps : List Protocol) (t : StatisticsTable) (key : StatisticKey) :
    half (read (countAll test increment net ps t) key) = half (read t key) := by
  induction ps generalizing t with
  | nil => rfl
  | cons p rest ih =>
    have first : countAll test increment net (p :: rest) t =
        countAll test increment net rest (if test p then countOne increment net p t else t) := rfl
    rw [first, ih]
    split
    · by_cases same : StatisticKey.value key = StatisticKey.value ⟨p, net⟩
      · simp only [read, countOne, OrderedTable.findUpdateSame _ _ same, Option.getD_some, kept]
        have found : ∀ k, StatisticKey.value k = StatisticKey.value key → t.find? k = t.find? key :=
          fun k equal => OrderedTable.findSame t equal
        rw [found _ same.symm]
      · simp only [read, countOne, OrderedTable.findUpdateOther _ _ same]
    · rfl

theorem portsIff {packet : Frame} : PortsAgree packet ↔ ∀ p, inputTest packet p = outputTest packet p := by
  have http : PortsAgree packet ↔ portTest inputPorts packet = portTest outputPorts packet := by
    simp only [PortsAgree, portTest]
    cases packet.tcp? with
    | none => simp
    | some tcp =>
      simp only [Option.some.injEq, forall_eq', inputPorts, outputPorts]
      rw [Bool.eq_iff_iff]
      simp only [Bool.or_eq_true, beq_iff_eq]
      tauto
  rw [http]
  constructor
  · intro agree p
    simp only [inputTest, outputTest, agree]
  · intro all
    exact all .http

theorem inputCountedIff {packet : Frame} {i : Interface} {s : SharedStorage} {p : Protocol} :
    InputCounted packet i s p ↔ inputTest packet p = true := by
  rw [InputCounted, inputCounter (apartSelf p i)]
  by_cases counted : inputTest packet p = true
  · simp [counted, plus]
  · simp [counted]

theorem outputCountedIff {packet : Frame} {i : Interface} {s : SharedStorage} {p : Protocol} :
    OutputCounted packet i s p ↔ outputTest packet p = true := by
  rw [OutputCounted, outputCounter (apartSelf p i)]
  by_cases counted : outputTest packet p = true
  · simp [counted, plus]
  · simp [counted]

theorem inputOnce (packet : Frame) (i : Interface) (s : SharedStorage) (p : Protocol) :
    InputCounted packet i s p ∨ (counter (inputStatistics packet i s) ⟨p, i⟩).input = (counter s ⟨p, i⟩).input := by
  by_cases counted : inputTest packet p = true
  · exact .inl (inputCountedIff.mpr counted)
  · refine .inr ?_
    rw [inputCounter (apartSelf p i)]
    simp [counted]

theorem outputOnce (packet : Frame) (i : Interface) (s : SharedStorage) (p : Protocol) :
    OutputCounted packet i s p ∨ (counter (outputStatistics packet i s) ⟨p, i⟩).output = (counter s ⟨p, i⟩).output := by
  by_cases counted : outputTest packet p = true
  · exact .inl (outputCountedIff.mpr counted)
  · refine .inr ?_
    rw [outputCounter (apartSelf p i)]
    simp [counted]

theorem alikeIff {packet : Frame} {i : Interface} {s : SharedStorage} : Alike packet i s ↔ PortsAgree packet := by
  rw [portsIff]
  constructor
  · intro alike p
    have protocols := alike.protocols p
    rw [inputCountedIff, outputCountedIff] at protocols
    exact Bool.eq_iff_iff.mpr protocols
  · intro same
    refine ⟨?_, inputOnce packet i s, outputOnce packet i s, ?_, ?_⟩
    · intro p
      rw [inputCountedIff, outputCountedIff, same p]
    · exact readKept StatisticEntry.output incrementInput (fun _ => rfl) _ _ _ _
    · exact readKept StatisticEntry.input incrementOutput (fun _ => rfl) _ _ _ _

def handed (calls : List Call) : List Interface := calls.filterMap fun
  | .outputStatistics net => some net
  | _ => none

theorem countHanded (calls : List Call) (net : Interface) :
    calls.count (.outputStatistics net) = (handed calls).count net := by
  induction calls with
  | nil => rfl
  | cons call rest ih =>
    cases call <;> simp [handed, List.count_cons] at ih ⊢ <;> omega

theorem sumCount {nets outs : List Interface} (once : nets.Nodup) (known : ∀ net ∈ outs, net ∈ nets) :
    (nets.map (fun net => outs.count net)).sum = outs.length := by
  induction outs with
  | nil => simp
  | cons out rest ih =>
    obtain ⟨here, tail⟩ := List.forall_mem_cons.mp known
    have single : ∀ xs : List Interface, (xs.map (fun net => if out = net then 1 else 0)).sum = xs.count out := by
      intro xs
      induction xs with
      | nil => rfl
      | cons x xs inner =>
        rw [List.map_cons, List.sum_cons, inner, List.count_cons, Nat.add_comm]
        simp only [beq_iff_eq, @eq_comm _ x out]
    simp only [List.count_cons, beq_iff_eq, List.sum_map_add, ih tail, single, List.length_cons,
      List.count_eq_one_of_mem once here]

def copies (host : Host) (p : Protocol) (s : Store) : Operation → Nat
  | .receive me now packet =>
      if Accepts me now packet s.storage ∧ inputTest packet p = true then
        (handed (receive host me now packet s.storage).calls).length
      else 0
  | _ => 0

theorem handedTargets (host : Host) (me : Interface) (now : Int) (packet : Frame) (s : SharedStorage) (exit : Exit) :
    handed (leave host me now packet (s, exit)).2 = targets me s exit := by
  cases exit with
  | skip => rfl
  | send destination =>
    simp only [leave, send]
    split <;> rfl
  | broadcast =>
    have pass : ∀ nets : List Interface,
        handed (nets.flatMap (fun net => [Call.outputStatistics net, Call.transmit net])) = nets := by
      intro nets
      induction nets with
      | nil => rfl
      | cons net rest ih =>
        simp only [handed, List.flatMap_cons, List.filterMap_append] at ih ⊢
        rw [ih]
        rfl
    exact pass (others me (recordSent packet now s))

theorem receiveHanded {host : Host} {me : Interface} {now : Int} {packet : Frame} {s : SharedStorage}
    (registered : s.Registered me) (names : MacNames s) :
    ∀ net ∈ handed (receive host me now packet s).calls, s.Registered net := by
  intro net member
  have positive := List.count_pos_iff.mpr member
  rw [← countHanded] at positive
  exact countedRegistered registered names (List.count_pos_iff.mp positive)

theorem passedSum {host : Host} {nets : List Interface} {p : Protocol} {s : Store} {op : Operation}
    (ready : (counting host).enabled s op) (once : nets.Nodup) (before : Counted nets s.storage)
    (agree : ∀ me now packet, op = .receive me now packet → PortsAgree packet) :
    (nets.map (fun net => passed host ⟨p, net⟩ s op)).sum = copies host p s op := by
  have nothing : (nets.map (fun _ => 0)).sum = 0 := by simp
  cases op with
  | receive me now packet =>
    have registered : s.storage.Registered me := ready.1.1.2
    have same := portsIff.mp (agree me now packet rfl) p
    have known : ∀ net ∈ handed (receive host me now packet s.storage).calls, net ∈ nets :=
      fun net member => (before.table net).mp (receiveHanded registered before.names net member)
    simp only [passed, copies, outputsOf, ← same]
    by_cases counted : inputTest packet p = true
    · simp only [counted, if_true, and_true, countHanded, sumCount once known]
      split
      · rfl
      · rename_i no
        rw [(refusedReceive registered no).1]
        rfl
    · simp only [counted, Bool.false_eq_true, if_false, and_false, nothing]
  | _ => exact nothing

def outputTotal (nets : List Interface) (p : Protocol) (s : SharedStorage) : Int32 :=
  (nets.map (fun net => (counter s ⟨p, net⟩).output)).sum

theorem outputTotalPlus {nets : List Interface} {p : Protocol} {s t : SharedStorage} {added : Interface → Nat}
    (each : ∀ net ∈ nets, (counter t ⟨p, net⟩).output = (counter s ⟨p, net⟩).output + Int32.ofNat (added net)) :
    outputTotal nets p t = outputTotal nets p s + Int32.ofNat (nets.map added).sum := by
  induction nets with
  | nil => rfl
  | cons net rest ih =>
    obtain ⟨here, tail⟩ := List.forall_mem_cons.mp each
    have rest := ih tail
    simp only [outputTotal] at rest
    simp only [outputTotal, List.map_cons, List.sum_cons, here, rest, Int32.ofNat_add]
    ac_rfl

def PortsAgreeAlong (host : Host) (s : Store) (ops : List Operation) : Prop :=
  ∀ u me now packet, (counting host).Moment s ops u (.receive me now packet) → PortsAgree packet

def DeliverableAlong (host : Host) (s : Store) (ops : List Operation) : Prop :=
  ∀ u me now packet, (counting host).Moment s ops u (.receive me now packet) →
    Accounting.Deliverable host me now packet u.storage

def carried (host : Host) (p : Protocol) (s : Store) : Operation → Nat
  | .receive me now packet =>
      if Accepts me now packet s.storage ∧ inputTest packet p = true then
        (transmitted (receive host me now packet s.storage).calls).length
      else 0
  | _ => 0

theorem deliveredHanded {host : Host} {me : Interface} {now : Int} {packet : Frame} {s : SharedStorage}
    (registered : s.Registered me) (deliverable : Accounting.Deliverable host me now packet s) :
    transmitted (receive host me now packet s).calls = handed (receive host me now packet s).calls := by
  have normal : ∀ net, (select host me now packet s).2 = .send net → jumboToWifi host packet net = false :=
    fun net leaves => deliverable net ((Accounting.directedIff registered).mp leaves)
  exact (Accounting.leaveAccounted me now _ normal).trans (handedTargets host me now packet _ _).symm

theorem runOutputTotal {host : Host} {nets : List Interface} {s t : Store} {ops : List Operation}
    (once : nets.Nodup) (separated : Separated nets) (run : (counting host).Run s ops t)
    (before : Counted nets s.storage) (agree : PortsAgreeAlong host s ops) (p : Protocol) :
    outputTotal nets p t.storage =
      outputTotal nets p s.storage + Int32.ofNat ((counting host).tally (copies host p) s ops) := by
  have moments : ∀ u op, (counting host).Moment s ops u op →
      (nets.map (fun net => passed host ⟨p, net⟩ u op)).sum = copies host p u op := by
    intro u op moment
    obtain ⟨_, _, _, head, ready, _⟩ := Machine.momentSplit run moment
    have there : Counted nets u.storage :=
      Machine.runInvariant (P := fun s => Counted nets s.storage) (fun _ _ ready => stepCounted ready) head before
    refine passedSum ready once there ?_
    rintro me now packet rfl
    exact agree u me now packet moment
  rw [← Machine.tallySame moments, ← Machine.tallySum]
  refine outputTotalPlus ?_
  intro net member
  rw [runCounter run before (fun other known => apartOfSeparated separated member known)]
  rfl

theorem countsAlike (host : Host) (nets : List Interface) :
    (∀ packet i s, Alike packet i s ↔ PortsAgree packet) ∧
    (nets.Nodup → Separated nets → ∀ s ops t, Counted nets s.storage → (counting host).Run s ops t →
      PortsAgreeAlong host s ops → ∀ p,
        outputTotal nets p t.storage =
          outputTotal nets p s.storage + Int32.ofNat ((counting host).tally (copies host p) s ops) ∧
        (DeliverableAlong host s ops →
          (counting host).tally (copies host p) s ops = (counting host).tally (carried host p) s ops)) := by
  refine ⟨fun _ _ _ => alikeIff, ?_⟩
  intro once separated s ops t before run agree p
  refine ⟨runOutputTotal once separated run before agree p, ?_⟩
  intro deliverable
  refine Machine.tallySame ?_
  intro u op moment
  cases op with
  | receive me now packet =>
    have registered : u.storage.Registered me := (Machine.momentEnabled run moment).1.1.2
    simp only [copies, carried, deliveredHanded registered (deliverable u me now packet moment)]
  | _ => rfl

def webFrame : Frame :=
  ⟨[.ethernetII 9 7, .ip, .tcp 50000 80], 60, [0, 0, 0, 0, 0, 7, 0, 0, 0, 0, 0, 9, 8, 0] ++ List.replicate 46 0⟩

def benchFar : Store := ⟨opened [⟨1⟩, ⟨8⟩], 0⟩

theorem benchFarCounted : Counted [⟨1⟩, ⟨8⟩] benchFar.storage := by
  have start := openedSpec [⟨1⟩, ⟨8⟩]
  refine ⟨start.table, ?_⟩
  intro mac entry found
  change (opened [⟨1⟩, ⟨8⟩]).macTable.find? mac = some entry at found
  rw [start.mac] at found
  contradiction

theorem countsAlikeBench :
    outputTotal [⟨1⟩, ⟨8⟩] .http ((counting bench).step benchFar (.receive ⟨1⟩ 5 webFrame)).storage =
      outputTotal [⟨1⟩, ⟨8⟩] .http benchFar.storage +
        Int32.ofNat ((counting bench).tally (copies bench .http) benchFar [.receive ⟨1⟩ 5 webFrame]) := by
  have ready : (counting bench).enabled benchFar (.receive ⟨1⟩ 5 webFrame) :=
    ⟨⟨⟨by decide, by decide⟩, id⟩, id⟩
  have agree : PortsAgreeAlong bench benchFar [.receive ⟨1⟩ 5 webFrame] := by
    rintro u me now packet (⟨rfl, same⟩ | later) tcp layer _
    · cases same
      cases Option.some.inj layer
      exact .inr rfl
    · exact later.elim
  exact ((countsAlike bench [⟨1⟩, ⟨8⟩]).2 (by decide) (by decide) _ _ _ benchFarCounted (.cons ready (.nil _))
    agree .http).1

/- A TCP segment to port 443 counts as HTTP on the way in only. -/
def secureFrame : Frame :=
  ⟨[.ethernetII 9 7, .ip, .tcp 50000 443], 60, [0, 0, 0, 0, 0, 7, 0, 0, 0, 0, 0, 9, 8, 0] ++ List.replicate 46 0⟩

theorem secureUncounted : ¬ ∀ packet i s, Alike packet i s := by
  intro claim
  have agree := alikeIff.mp (claim secureFrame ⟨1⟩ benchStore.storage)
  have ports := agree ⟨50000, 443⟩ rfl (.inr rfl)
  exact absurd ports (by decide)

end Statistics
end PsipSwitch
