import PsipSwitch.MainWindow
import PsipSwitch.Statements
import PsipSwitch.TableModels

/-! The sections in which the windows only look at the storage, statement by statement: the names
and states behind the labels, the timeout, and the rows of the three table models. A cell is
looked for from the first row on, with the mutex held for all of it. -/
namespace PsipSwitch
namespace Statements
open NetworkSwitch (Store)
open MainWindow (InterfaceData interfaceData)
open TableModels (Variant ModelIndex scan)
open Program (alone walk visited)

def interfaces (host : Host) (first second : Interface) : Body (InterfaceData × InterfaceData) := do
  let name1 ← entry first
  let up1 ← entry first
  let name2 ← entry second
  let up2 ← entry second
  return (⟨name1.name, host.name first, first.id.toInt32.toInt, up1.up, first⟩,
    ⟨name2.name, host.name second, second.id.toInt32.toInt, up2.up, second⟩)

def currentTimeout : Body Text := look (fun s => text (toString (s.deviceInfo.defaultMacTimeout.tdiv 1000)))

def statisticsRowCount (net : Interface) : Body Int32 :=
  walk (fun s => s.storage.statisticsTable.entries) (fun _ it count =>
    if it.1.target = net then pure (.yield (count + 1)) else pure (.yield count)) 0

def cellAt {α : Type} (entries : SharedStorage → List α) (shown : α → Bool) (cell : Int → α → Variant)
    (index : ModelIndex) : Body Variant := do
  let last ← walk (fun s => entries s.storage) (fun _ it c =>
    if shown it = false then pure (.yield c)
    else if c.1 ≠ index.row then pure (.yield (c.1 + 1, c.2))
    else pure (.done (c.1, cell index.column it))) ((0 : Int), none)
  return last.2

def statisticsCell (net : Interface) (index : ModelIndex) : Body Variant :=
  cellAt (fun s => s.statisticsTable.entries) (fun it => it.1.target == net) TableModels.StatisticsModel.cell index

def macCell (host : Host) (at_ : Int) (index : ModelIndex) : Body Variant :=
  cellAt (fun s => s.macTable.entries) (fun _ => true) (TableModels.MacModel.cell host at_) index

def sessionCell (at_ : Int) (index : ModelIndex) : Body Variant :=
  cellAt (fun s => s.sessions) (fun _ => true) (TableModels.SessionsModel.cell at_) index

section Alone
variable {host : Host} {first second net : Interface} {at_ : Int} {index : ModelIndex} {s : Store}

theorem aloneInterfaces : alone (interfaces host first second) s =
    some ((interfaceData host first s.storage, interfaceData host second s.storage),
      { s with storage := (s.storage.touch first).touch second }) := by
  simp only [interfaces, interfaceData, Program.aloneBind, aloneEntry, Option.bind_some, SharedStorage.touchInterface,
    SharedStorage.touchTwice]
  rfl

theorem aloneRowCount : alone (statisticsRowCount net) s =
    some (TableModels.StatisticsModel.rowCount net s.storage, s) := by
  rw [statisticsRowCount, Program.aloneWalk, Program.visitedFold
    (f := fun count it => if it.1.target = net then count + 1 else count) (g := fun s _ => s)]
  · rw [List.foldl_fixed]
    rfl
  · intro i it count s
    split <;> rfl
  · intro i it count s d t _ ends
    split at ends <;> cases ends <;> rfl

theorem aloneCellAt {α : Type} (entries : SharedStorage → List α) (shown : α → Bool) (cell : Int → α → Variant) :
    alone (cellAt entries shown cell index) s = some (scan cell index 0 ((entries s.storage).filter shown), s) := by
  have scans : ∀ (xs : List α) (i : Nat) (n : Int), ∃ row, visited (fun _ it c =>
      if shown it = false then pure (.yield c)
      else if c.1 ≠ index.row then pure (.yield (c.1 + 1, c.2))
      else pure (.done (c.1, cell index.column it))) i xs (n, none) s =
        some ((row, scan cell index n (xs.filter shown)), s) := by
    intro xs
    induction xs with
    | nil => exact fun i n => ⟨n, rfl⟩
    | cons it rest ih =>
      intro i n
      cases row : shown it with
      | false =>
        obtain ⟨last, found⟩ := ih (i + 1) n
        refine ⟨last, ?_⟩
        simp only [visited, row, if_true, List.filter_cons, Bool.false_eq_true, if_false]
        exact found
      | true =>
        simp only [visited, row, Bool.true_eq_false, if_false, List.filter_cons, if_true, scan]
        by_cases here : n = index.row
        · exact ⟨n, by simp only [here, ne_eq, not_true_eq_false, if_false]; rfl⟩
        · obtain ⟨last, found⟩ := ih (i + 1) (n + 1)
          refine ⟨last, ?_⟩
          simp only [ne_eq, here, not_false_eq_true, if_true]
          exact found
  obtain ⟨row, found⟩ := scans (entries s.storage) 0 0
  rw [cellAt, Program.aloneBind, Program.aloneWalk]
  · rw [found]
    rfl
  · intro i it c s d t _ ends
    split at ends
    · cases ends
      rfl
    · split at ends <;> cases ends
      rfl

theorem aloneStatisticsCell : alone (statisticsCell net index) s =
    some (TableModels.StatisticsModel.scan net index 0 s.storage.statisticsTable.entries, s) := by
  rw [statisticsCell, aloneCellAt, TableModels.scanOf]

theorem aloneMacCell : alone (macCell host at_ index) s =
    some (scan (TableModels.MacModel.cell host at_) index 0 s.storage.macTable.entries, s) := by
  rw [macCell, aloneCellAt, List.filter_true]

theorem aloneSessionCell : alone (sessionCell at_ index) s =
    some (scan (TableModels.SessionsModel.cell at_) index 0 s.storage.sessions, s) := by
  rw [sessionCell, aloneCellAt, List.filter_true]

end Alone

end Statements
end PsipSwitch
