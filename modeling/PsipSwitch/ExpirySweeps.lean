import PsipSwitch.Lib.EraseLoop
import PsipSwitch.NetworkSwitch

/-! The three sweeps of the main thread. Each is a loop that erases from the container it
walks over, and each leaves what had not expired when the loop came to it. -/
namespace PsipSwitch
namespace ExpirySweeps
open NetworkSwitch
open Sweep (Readings Swept)

theorem lastingTimeout {α : Type} (r : Readings) (expiration : α → Timeout) {x : α} {n m : Nat} (order : n ≤ m)
    (fresh : (expiration x).expired (r.time m) = false) : (expiration x).expired (r.time n) = false :=
  Timeout.expiredMono (r.ordered order) fresh

theorem sweepsExact (r : Readings) (s : SharedStorage) :
    (Swept (fun it now => it.2.expiration.expired now) r.time s.macTable.entries (updateMac r s).macTable.entries ∧
      updateMac r s = { s with macTable := (updateMac r s).macTable }) ∧
    (Swept (fun it now => it.expiration.expired now) r.time s.sentPackets.packets
        (updatePackets r s).sentPackets.packets ∧
      updatePackets r s = { s with sentPackets := (updatePackets r s).sentPackets }) ∧
    (Swept (fun it now => it.expiration.expired now) r.time s.sessions (updateSessions r s).sessions ∧
      updateSessions r s = { s with sessions := (updateSessions r s).sessions }) := by
  refine ⟨⟨?_, rfl⟩, ⟨?_, rfl⟩, ⟨?_, rfl⟩⟩
  · exact Sweep.sweptSweep (lastingTimeout r (fun it : MacAddress × MacEntry => it.2.expiration)) _
  · exact Sweep.sweptSweep (lastingTimeout r Packet.expiration) _
  · exact Sweep.sweptSweep (lastingTimeout r Session.expiration) _

end ExpirySweeps
end PsipSwitch
