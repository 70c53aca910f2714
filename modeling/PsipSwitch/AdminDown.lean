import PsipSwitch.Forwarding

/-! Interfaces that are switched off. The callback looks at the up flag of the
receiving interface only, so traffic keeps out of an interface that is down when the
exit that is taken happens not to lead there. -/
namespace PsipSwitch
namespace AdminDown
open NetworkHandle NetworkSwitch SharedStorage Forwarding

def DownSilent (host : Host) (me : Interface) (now : Int) (packet : Frame) (s : SharedStorage) : Prop :=
  ∀ net, s.Registered net → (s.interface net).up = false →
    (net = me → (receive host me now packet s).calls = []) ∧
    net ∉ transmitted (receive host me now packet s).calls

def OthersUp (me : Interface) (s : SharedStorage) : Prop :=
  ∀ net, s.Registered net → net ≠ me → (s.interface net).up = true

def Harmless (host : Host) (packet : Frame) (s : SharedStorage) (net : Interface) : Prop :=
  (s.interface net).up = true ∨ jumboToWifi host packet net = true

/- The exits in their order. The source has been learned on `me` by then, so a frame
to its own source stops there. -/
def AvoidedAt (host : Host) (me : Interface) (packet : Frame) (eth : Ethernet) (s : SharedStorage) : Prop :=
  if Group eth.dstAddr then OthersUp me s
  else if eth.dstAddr = host.hwAddress me then True
  else match s.interfaces.keys.find? (fun net => eth.dstAddr == host.hwAddress net) with
    | some net => Harmless host packet s net
    | none =>
      if eth.dstAddr = eth.srcAddr then True
      else match s.macTable.find? eth.dstAddr with
        | some entry => entry.interface = me ∨ Harmless host packet s entry.interface
        | none => OthersUp me s

def DownAvoided (host : Host) (me : Interface) (now : Int) (packet : Frame) (s : SharedStorage) : Prop :=
  ∀ eth, packet.ethernet? = some eth → Accepts me now packet s → eth.srcAddr ≠ host.hwAddress me →
    AvoidedAt host me packet eth s

theorem avoidedIff {host : Host} {me : Interface} {now : Int} {packet : Frame} {s : SharedStorage} {eth : Ethernet}
    (accepted : Accepts me now packet s) (layer : packet.ethernet? = some eth)
    (source : eth.srcAddr ≠ host.hwAddress me) :
    DownAvoided host me now packet s ↔ AvoidedAt host me packet eth s := by
  constructor
  · intro all
    exact all eth layer accepted source
  · intro avoided other same _ _
    cases Option.some.inj (layer.symm.trans same)
    exact avoided

theorem downRefused {host : Host} {me : Interface} {now : Int} {packet : Frame} {s : SharedStorage}
    (registered : s.Registered me) (down : (s.interface me).up = false) :
    (receive host me now packet s).calls = [] := by
  refine (refusedReceive registered ?_).1
  intro accepted
  exact absurd accepted.2.1 (by simp [down])

/- Ingress is honoured: only the way out is in question. -/
theorem downSilentIff {host : Host} {me : Interface} {now : Int} {packet : Frame} {s : SharedStorage}
    (registered : s.Registered me) (names : MacNames s) : DownSilent host me now packet s ↔
      ∀ net ∈ transmitted (receive host me now packet s).calls, (s.interface net).up = true := by
  have sound := receiveSound host now packet registered names
  constructor
  · intro silent net member
    by_contra down
    exact (silent net (sound.registered net member) (by simpa using down)).2 member
  · intro all net _ down
    refine ⟨?_, ?_⟩
    · rintro rfl
      exact downRefused registered down
    · intro member
      have up := all net member
      rw [down] at up
      contradiction

theorem othersUpIff {me : Interface} {s : SharedStorage} :
    (∀ net ∈ others me s, (s.interface net).up = true) ↔ OthersUp me s := by
  constructor
  · intro all net registered onward
    exact all net (memOthers.mpr ⟨registered, onward⟩)
  · intro all net member
    obtain ⟨registered, onward⟩ := memOthers.mp member
    exact all net registered onward

theorem harmlessIff {host : Host} {packet : Frame} {destination : Interface} {now : Int} {s t : SharedStorage} :
    (∀ net ∈ transmitted (send host packet destination now t).2, (s.interface net).up = true) ↔
      Harmless host packet s destination := by
  rw [transmittedSend, Harmless]
  split
  · rename_i jumbo
    simp [jumbo]
  · rename_i normal
    simp [normal]

theorem leaveAvoided {host : Host} {me : Interface} {now : Int} {packet : Frame} {eth : Ethernet}
    {s t : SharedStorage} (single : ¬ Group eth.dstAddr) (same : t.interfaces = s.interfaces)
    (learned : t.macTable.find? eth.dstAddr = if eth.dstAddr = eth.srcAddr then
      some ⟨me, ⟨now, s.deviceInfo.defaultMacTimeout⟩⟩ else s.macTable.find? eth.dstAddr) :
    (∀ net ∈ transmitted (leave host me now packet (t, unicastExit host me eth.dstAddr t)).2,
      (s.interface net).up = true) ↔ AvoidedAt host me packet eth s := by
  have silent : ∀ net ∈ transmitted [], (s.interface net).up = true := fun _ member => nomatch member
  rw [exitLearned same learned]
  simp only [AvoidedAt, if_neg single]
  split
  · rename_i stopped
    obtain ⟨itself, foreign⟩ := stopped
    simp only [foreign, if_pos itself, ite_self]
    exact iff_true_intro silent
  · rename_i onward
    have other : s.interfaces.keys.find? (fun net => eth.dstAddr == host.hwAddress net) = none →
        eth.dstAddr ≠ eth.srcAddr := fun foreign itself => onward ⟨itself, foreign⟩
    have chosen := unicastExitSpec host me eth.dstAddr s
    generalize unicastExit host me eth.dstAddr s = exit at chosen
    cases chosen with
    | own here =>
      rw [if_pos here]
      exact iff_true_intro silent
    | device away found =>
      rw [if_neg away, found]
      exact harmlessIff
    | behind away foreign found back =>
      simp only [if_neg away, foreign, if_neg (other foreign), found]
      exact ⟨fun _ => .inl back, fun _ => silent⟩
    | known away foreign found elsewhere =>
      simp only [if_neg away, foreign, if_neg (other foreign), found, elsewhere, false_or]
      exact harmlessIff
    | unknown away foreign missing =>
      have others : others me t = others me s := by simp only [NetworkHandle.others, same]
      simp only [if_neg away, foreign, if_neg (other foreign), missing, leave, transmittedBroadcast, others]
      exact othersUpIff

theorem downSilentExact {host : Host} {me : Interface} {now : Int} {packet : Frame} {s : SharedStorage}
    (registered : s.Registered me) (names : MacNames s) :
    DownSilent host me now packet s ↔ DownAvoided host me now packet s := by
  rw [downSilentIff registered names]
  have selected := selectSpec host now packet registered
  have silent : ∀ net ∈ transmitted [], (s.interface net).up = true := fun _ member => nomatch member
  simp only [receive]
  generalize select host me now packet s = result at selected
  cases selected with
  | refused no => exact ⟨fun _ _ _ accepted => absurd accepted no, fun _ => silent⟩
  | own accepted layer source =>
    refine ⟨?_, fun _ => silent⟩
    intro _ other same _ foreign
    cases Option.some.inj (layer.symm.trans same)
    exact absurd source foreign
  | group accepted layer source group =>
    rw [avoidedIff accepted layer source, AvoidedAt, if_pos group]
    simp only [leave, transmittedBroadcast]
    exact othersUpIff
  | unicast accepted layer source single =>
    rw [avoidedIff accepted layer source]
    exact leaveAvoided single rfl findLearned

theorem downCarriesNothing {host : Host} {s : System} {me : Interface} (now : Int) (packet : Frame)
    (reached : (operated host).Reachable Initial s) (registered : s.switch.storage.Registered me) :
    DownSilent host me now packet s.switch.storage ↔ DownAvoided host me now packet s.switch.storage :=
  downSilentExact registered (reachableMacNames reached)

def benchRest : System := (switching bench).step Lifecycle.benchStart (.startRest 80)

def benchLogged : System :=
  (switching bench).step benchRest (.request 0 benchDraws (.login (.ok (text "root", text "root"))))

def benchDown : System := (switching bench).step benchLogged (.request 0 benchDraws
  (.editInterface (text "Bearer " ++ benchToken) (.ok 2) (.ok ⟨none, some 0⟩)))

theorem benchDownReached : (operated bench).Reachable Initial benchDown := by
  have rest : (operated bench).enabled Lifecycle.benchStart (.startRest 80) := ⟨⟨le_refl _, trivial⟩, trivial⟩
  have login : (operated bench).enabled benchRest
      (.request 0 benchDraws (.login (.ok (text "root", text "root")))) :=
    ⟨⟨by decide, ⟨80, true⟩, by decide, rfl⟩, trivial⟩
  have edit : (operated bench).enabled benchLogged (.request 0 benchDraws
      (.editInterface (text "Bearer " ++ benchToken) (.ok 2) (.ok ⟨none, some 0⟩))) :=
    ⟨⟨by decide, ⟨80, true⟩, by decide, rfl⟩, trivial⟩
  have started := Machine.reachableStep Lifecycle.benchReached rest
  have logged := Machine.reachableStep (s := benchRest) started login
  exact Machine.reachableStep (s := benchLogged) logged edit

theorem downCarriesNothingBench : DownSilent bench ⟨1⟩ 5 (benchFrame 9 1) benchDown.switch.storage := by
  have registered : benchDown.switch.storage.Registered ⟨1⟩ := by decide
  refine (downCarriesNothing 5 (benchFrame 9 1) benchDownReached registered).mpr ?_
  intro eth layer _ _
  cases Option.some.inj layer
  rw [AvoidedAt, if_neg (by decide), if_pos (by decide)]
  trivial

theorem downTransmits : ¬ ∀ (s : System) (me : Interface) (now : Int) (packet : Frame),
    (operated bench).Reachable Initial s → s.switch.storage.Registered me →
    DownSilent bench me now packet s.switch.storage := by
  intro claim
  have registered : benchDown.switch.storage.Registered ⟨1⟩ := by decide
  have silent := claim benchDown ⟨1⟩ 5 (benchFrame 9 (BitVec.allOnes 48)) benchDownReached registered
  have down : (benchDown.switch.storage.interface ⟨2⟩).up = false := by decide
  have carried : ⟨2⟩ ∈ transmitted
      (receive bench ⟨1⟩ 5 (benchFrame 9 (BitVec.allOnes 48)) benchDown.switch.storage).calls := by decide
  exact (silent ⟨2⟩ (by decide) down).2 carried

end AdminDown
end PsipSwitch
