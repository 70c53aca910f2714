import PsipSwitch.Accounting

/-! The MAC table as the history of what was learned. Of every address only the last
reception that taught it counts, with the clears, resets and sweeps since. Lookups and
new default timeouts leave the entries as they are. -/
namespace PsipSwitch
namespace Learning
open NetworkHandle NetworkSwitch SharedStorage

def Learns (host : Host) (me : Interface) (now : Int) (packet : Frame) (s : SharedStorage) (mac : MacAddress) : Prop :=
  Accepts me now packet s ∧ match packet.ethernet? with
    | some eth => eth.srcAddr = mac ∧ eth.srcAddr ≠ host.hwAddress me ∧ ¬ Group eth.dstAddr
    | none => False

instance (host me now packet s mac) : Decidable (Learns host me now packet s mac) := by
  unfold Learns
  split <;> infer_instance

theorem learnsIff {host : Host} {me : Interface} {now : Int} {packet : Frame} {s : SharedStorage} {mac : MacAddress}
    {eth : Ethernet} (layer : packet.ethernet? = some eth) : Learns host me now packet s mac ↔
      Accepts me now packet s ∧ eth.srcAddr = mac ∧ eth.srcAddr ≠ host.hwAddress me ∧ ¬ Group eth.dstAddr := by
  simp only [Learns, layer]

theorem receiveEntry (host : Host) (now : Int) (packet : Frame) {me : Interface} {s : SharedStorage}
    (registered : s.Registered me) (mac : MacAddress) :
    (receive host me now packet s).storage.macTable.find? mac =
      if Learns host me now packet s mac then some ⟨me, ⟨now, s.deviceInfo.defaultMacTimeout⟩⟩
      else s.macTable.find? mac := by
  have selected := selectSpec host now packet registered
  have kept : ∀ t exit, (leave host me now packet (t, exit)).1.macTable = t.macTable := by
    intro t exit
    obtain ⟨_, _, same⟩ := leaveFrame host me now packet t exit
    rw [same]
  simp only [receive]
  generalize select host me now packet s = result at selected
  cases selected with
  | refused no =>
    have never : ¬ Learns host me now packet s mac := fun learns => no learns.1
    rw [kept, if_neg never]
  | own accepted layer source =>
    have never : ¬ Learns host me now packet s mac := fun learns => ((learnsIff layer).mp learns).2.2.1 source
    rw [kept, if_neg never]
    rfl
  | group accepted layer source group =>
    have never : ¬ Learns host me now packet s mac := fun learns => ((learnsIff layer).mp learns).2.2.2 group
    rw [kept, if_neg never]
    rfl
  | @unicast eth accepted layer source single =>
    rw [kept, Forwarding.findLearned]
    have learns : Learns host me now packet s mac ↔ mac = eth.srcAddr := by
      rw [learnsIff layer]
      exact ⟨fun h => h.2.1.symm, fun same => ⟨accepted, same.symm, source, single⟩⟩
    simp only [learns]

/- The last reception that taught it, when and with which default timeout, the last
resetMac since, and whether a sweep since has come too late for it. -/
structure Past where
  interface : Interface
  learned : Int
  duration : Int
  reset : Option Int
  overdue : Bool
  deriving DecidableEq, Repr

def Past.since (past : Past) : Int := max past.learned (past.reset.getD past.learned)

def Past.sweep (past : Past) (now : Int) : Past :=
  { past with overdue := past.overdue || decide (timePlus past.since past.duration < now) }

/- A sweep or a reset comes to the address at its place in the table. -/
def lookedAt (mac : MacAddress) (r : Sweep.Readings) (s : SharedStorage) : Int :=
  r.time (Sweep.place MacAddress.rank mac s.macTable.entries)

def note (host : Host) (mac : MacAddress) (s : Store) : Operation → Option Past → Option Past
  | .receive me now packet, past =>
      if Learns host me now packet s.storage mac then
        some ⟨me, now, s.storage.deviceInfo.defaultMacTimeout, none, false⟩
      else past
  | .maintain .clearMac, _ => none
  | .maintain (.resetMac r), past => past.map (fun it => { it with reset := some (lookedAt mac r s.storage) })
  | .maintain (.updateMac r), past => past.map (fun it => it.sweep (lookedAt mac r s.storage))
  | _, past => past

def history (host : Host) (mac : MacAddress) (s : Store) (ops : List Operation) : Option Past :=
  (session host).observe (note host mac) s ops none

def Past.entry (past : Past) : Option MacEntry :=
  if past.overdue then none else some ⟨past.interface, ⟨past.since, past.duration⟩⟩

structure Tells (mac : MacAddress) (s : Store) (past : Option Past) : Prop where
  entry : s.storage.macTable.find? mac = past.bind Past.entry
  learned : ∀ it, past = some it → it.learned ≤ s.clock
  reset : ∀ it now, past = some it → it.reset = some now → now ≤ s.clock

theorem tellsKept {mac : MacAddress} {s t : Store} {past : Option Past} (before : Tells mac s past)
    (forward : s.clock ≤ t.clock) (same : t.storage.macTable.find? mac = s.storage.macTable.find? mac) :
    Tells mac t past :=
  ⟨same.trans before.entry, fun it known => (before.learned it known).trans forward,
    fun it now known again => (before.reset it now known again).trans forward⟩

theorem resetEntry {past : Past} {now : Int} (order : past.learned ≤ now) :
    ({ past with reset := some now } : Past).entry =
      past.entry.map (fun entry => renewed entry now) := by
  have later : ({ past with reset := some now } : Past).since = now := by
    simp only [Past.since, Option.getD_some]
    omega
  simp only [Past.entry, later]
  split
  · rfl
  · rfl

theorem sweepEntry {past : Past} {now : Int} :
    (past.sweep now).entry = past.entry.filter (fun entry => !entry.expiration.expired now) := by
  have since : (past.sweep now).since = past.since := rfl
  simp only [Past.entry, since]
  by_cases overdue : past.overdue = true
  · simp [Past.sweep, overdue]
  · by_cases late : timePlus past.since past.duration < now
    · simp [Past.sweep, overdue, Timeout.expired, Option.filter, late]
    · simp [Past.sweep, overdue, Timeout.expired, Option.filter, late]

theorem maintainTells {host : Host} {mac : MacAddress} {s : Store} {m : Maintenance} {past : Option Past}
    (ready : (session host).enabled s (.maintain m)) (before : Tells mac s past) :
    Tells mac ((session host).step s (.maintain m)) (note host mac s (.maintain m) past) := by
  have forward := clockForward ready.1
  have order := ready.1.1
  cases m with
  | clearMac => exact ⟨rfl, fun _ known => by contradiction, fun _ _ known => by contradiction⟩
  | resetMac r =>
    have renews : (maintain (.resetMac r) s.storage).macTable.find? mac = _ :=
      Sweep.findTouch renewed r.time s.storage.macTable mac
    cases past with
    | none =>
      refine ⟨?_, fun _ known => by contradiction, fun _ _ known => by contradiction⟩
      have none := before.entry
      exact renews.trans (by rw [none]; rfl)
    | some it =>
      have past := before.learned it rfl
      have looked : s.clock ≤ lookedAt mac r s.storage := order.trans (r.ordered (Nat.zero_le _))
      refine ⟨?_, ?_, ?_⟩
      · have old := before.entry
        refine renews.trans ?_
        rw [old]
        exact (resetEntry (past.trans looked)).symm
      · intro other known
        cases Option.some.inj known
        exact past.trans forward
      · intro other again known reset
        cases Option.some.inj known
        cases Option.some.inj reset
        exact r.bounded _
  | updateMac r =>
    have swept : (maintain (.updateMac r) s.storage).macTable.find? mac = _ :=
      Sweep.findSweep s.storage.macTable (fun entry now => entry.expiration.expired now) r.time mac
    refine ⟨?_, ?_, ?_⟩
    · refine swept.trans ?_
      rw [before.entry]
      cases past with
      | none => rfl
      | some it => exact sweepEntry.symm
    · intro it known
      obtain ⟨old, there, rfl⟩ := Option.map_eq_some_iff.mp known
      exact (before.learned old there).trans forward
    · intro it now known again
      obtain ⟨old, there, rfl⟩ := Option.map_eq_some_iff.mp known
      exact (before.reset old now there again).trans forward
  | _ => exact tellsKept before forward rfl

theorem stepTells {host : Host} {mac : MacAddress} {s : Store} {op : Operation} {past : Option Past}
    (ready : (session host).enabled s op) (before : Tells mac s past) :
    Tells mac ((session host).step s op) (note host mac s op past) := by
  have forward := clockForward ready.1
  cases op with
  | reset => exact absurd trivial ready.2
  | receive me now packet =>
    have entry := receiveEntry host now packet ready.1.2 mac
    simp only [note]
    split
    · rename_i learns
      rw [if_pos learns] at entry
      refine ⟨entry.trans (by simp [Past.entry, Past.since]), ?_, ?_⟩
      · intro it known
        cases Option.some.inj known
        exact le_refl _
      · intro it again known reset
        cases Option.some.inj known
        contradiction
    · rename_i other
      rw [if_neg other] at entry
      exact tellsKept before forward entry
  | request now draws request =>
    refine tellsKept before forward ?_
    exact RestHandle.respondKeeps (P := fun t => t.macTable.find? mac = s.storage.macTable.find? mac) host now draws
      request (fun _ => rfl) (fun _ _ _ => rfl) (fun _ => rfl)
  | maintain m => exact maintainTells ready before
  | _ => exact tellsKept before forward rfl

/- The steps that may change the entry of an address. All others leave it alone: frames
that only look it up, new default timeouts, requests. -/
def Touches (host : Host) (mac : MacAddress) (s : Store) : Operation → Prop
  | .receive me now packet => Learns host me now packet s.storage mac
  | .maintain .clearMac | .maintain (.resetMac _) | .maintain (.updateMac _) => True
  | _ => False

theorem noteUntouched {host : Host} {mac : MacAddress} {s : Store} {op : Operation} {past : Option Past}
    (untouched : ¬ Touches host mac s op) : note host mac s op past = past := by
  cases op with
  | receive me now packet => exact if_neg untouched
  | maintain m =>
    cases m with
    | clearMac => exact absurd trivial untouched
    | resetMac now => exact absurd trivial untouched
    | updateMac r => exact absurd trivial untouched
    | _ => rfl
  | _ => rfl

theorem runTells {host : Host} {mac : MacAddress} {s t : Store} {ops : List Operation}
    (run : (session host).Run s ops t) (empty : s.storage.macTable = .empty) :
    Tells mac t (history host mac s ops) := by
  refine Machine.observeInvariant ?_ run ?_
  · intro s op past ready before
    exact stepTells ready before
  · refine ⟨?_, fun _ known => by contradiction, fun _ _ known => by contradiction⟩
    rw [empty]
    rfl

theorem tableIsHistory {host : Host} {mac : MacAddress} {s t : Store} {ops : List Operation}
    (run : (session host).Run s ops t) (empty : s.storage.macTable = .empty) :
    (t.storage.macTable.contains mac = true ↔ ∃ past, history host mac s ops = some past ∧ past.overdue = false) ∧
    (∀ past, history host mac s ops = some past → past.overdue = false →
      t.storage.macTable.find? mac = some ⟨past.interface, ⟨past.since, past.duration⟩⟩) ∧
    (∀ op, (session host).enabled t op → ¬ Touches host mac t op →
      ((session host).step t op).storage.macTable.find? mac = t.storage.macTable.find? mac) ∧
    (∀ entry : Timeout, entry.Fits → timePlus entry.start entry.duration = entry.start + entry.duration * 1000000) := by
  have tells : Tells mac t (history host mac s ops) := runTells run empty
  refine ⟨?_, ?_, ?_, fun entry fits => fits.timePlus⟩
  · rw [OrderedTable.contains, tells.entry]
    cases history host mac s ops with
    | none => simp
    | some past => cases overdue : past.overdue <;> simp [Past.entry, overdue]
  · intro past known fresh
    rw [tells.entry, known]
    simp [Past.entry, fresh]
  · intro op ready untouched
    have after := (stepTells ready tells).entry
    rw [noteUntouched untouched] at after
    rw [after, tells.entry]

def benchRenewed : List Operation :=
  [.receive ⟨1⟩ 5 (benchFrame 9 7), .maintain (.resetMac (.still 10)), .maintain (.updateMac (.still 30000000008))]

def benchSwept : Store := benchRenewed.foldl (session bench).step benchStore

theorem tableIsHistoryBench : benchSwept.storage.macTable.find? 9 = some ⟨⟨1⟩, ⟨10, 30000⟩⟩ := by
  have run : (session bench).Run benchStore benchRenewed benchSwept :=
    .cons ⟨⟨by decide, by decide⟩, id⟩ (.cons ⟨⟨by decide, trivial⟩, id⟩ (.cons ⟨⟨by decide, trivial⟩, id⟩ (.nil _)))
  have told : history bench 9 benchStore benchRenewed = some ⟨⟨1⟩, 5, 30000, some 10, false⟩ := by decide
  exact (tableIsHistory run rfl).2.1 _ told rfl

end Learning
end PsipSwitch
