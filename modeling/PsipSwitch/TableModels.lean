import PsipSwitch.Lib.EraseLoop
import PsipSwitch.NetworkSwitch

/-! The table models of the user interface: statistics of one interface, addresses and
sessions. Each counts its rows in one scan of the storage and finds a cell in another. -/
namespace PsipSwitch
namespace TableModels
open NetworkSwitch

abbrev Variant := Option Text

structure ModelIndex where
  row : Int
  column : Int
  deriving DecidableEq, Repr

def ModelIndex.isValid (index : ModelIndex) : Bool := decide (0 ≤ index.row) && decide (0 ≤ index.column)

def displayRole : Int := 0

def displayed (index : ModelIndex) (role : Int) (value : Variant) : Variant :=
  if !index.isValid then none else if role ≠ displayRole then none else value

def scan {α : Type} (cell : Int → α → Variant) (index : ModelIndex) : Int → List α → Variant
  | _, [] => none
  | currentRow, it :: rest =>
    if currentRow ≠ index.row then scan cell index (currentRow + 1) rest else cell index.column it

namespace StatisticsModel

def rowCount (currentInterface : Interface) (s : SharedStorage) : Int32 :=
  s.statisticsTable.entries.foldl (fun count it => if it.1.target = currentInterface then count + 1 else count) 0

def cell (column : Int) (it : StatisticKey × StatisticEntry) : Variant := match column with
  | 0 => some (protocolToString it.1.protocol)
  | 1 => some (text (toString it.2.input.toInt))
  | 2 => some (text (toString it.2.output.toInt))
  | _ => none

def scan (currentInterface : Interface) (index : ModelIndex) : Int → List (StatisticKey × StatisticEntry) → Variant
  | _, [] => none
  | currentStat, it :: rest =>
    if it.1.target ≠ currentInterface then scan currentInterface index currentStat rest
    else if currentStat ≠ index.row then scan currentInterface index (currentStat + 1) rest
    else cell index.column it

def data (currentInterface : Interface) (index : ModelIndex) (role : Int) (s : SharedStorage) : Variant :=
  displayed index role (scan currentInterface index 0 s.statisticsTable.entries)

end StatisticsModel

def seconds (expiration : Timeout) (now : Int) : Text :=
  text (toString ((expiration.timeLeft now).tdiv 1000)) ++ text " s"

namespace MacModel

def rowCount (s : SharedStorage) : Int32 := Int32.ofNat s.macTable.entries.length

def cell (host : Host) (now : Int) (column : Int) (it : MacAddress × MacEntry) : Variant := match column with
  | 0 => some it.1.toText
  | 1 => some (host.name it.2.interface)
  | 2 => some (seconds it.2.expiration now)
  | _ => none

def data (host : Host) (now : Int) (index : ModelIndex) (role : Int) (s : SharedStorage) : Variant :=
  displayed index role (scan (cell host now) index 0 s.macTable.entries)

end MacModel

namespace SessionsModel

def rowCount (s : SharedStorage) : Int32 := Int32.ofNat s.sessions.length

def cell (now : Int) (column : Int) (it : Session) : Variant := match column with
  | 0 => some it.token
  | 1 => some (seconds it.expiration now)
  | _ => none

def data (now : Int) (index : ModelIndex) (role : Int) (s : SharedStorage) : Variant :=
  displayed index role (scan (cell now) index 0 s.sessions)

end SessionsModel

/- What a view has to be: `count` rows, one for each entry and in their order, and values in
these rows only. -/
structure Shows {α : Type} (count : Int32) (data : ModelIndex → Variant) (entries : List α) (width : Nat)
    (row : α → List Text) : Prop where
  counted : count.toInt = entries.length
  wide : ∀ it, (row it).length = width
  inside : ∀ r c : Int, 0 ≤ c → c < width → ((∃ value, data ⟨r, c⟩ = some value) ↔ 0 ≤ r ∧ r < count.toInt)
  rows : ∀ (k : Nat) it, entries[k]? = some it → ∀ c : Nat, data ⟨k, c⟩ = (row it)[c]?

section Scan
variable {α : Type} {cell : Int → α → Variant}

theorem scanAt (c : Int) (n : Int) (k : Nat) (xs : List α) : scan cell ⟨n + k, c⟩ n xs = xs[k]?.bind (cell c) := by
  induction xs generalizing n k with
  | nil => rfl
  | cons it rest ih =>
    cases k with
    | zero =>
      have here : n = n + (0 : Nat) := (Int.add_zero n).symm
      simp only [scan, ne_eq, ← here, not_true_eq_false, if_false, List.getElem?_cons_zero, Option.bind_some]
    | succ k =>
      have later : n ≠ n + (k + 1 : Nat) := by omega
      have shifted : n + (k + 1 : Nat) = n + 1 + k := by omega
      simp only [scan, ne_eq, later, not_false_eq_true, if_true, List.getElem?_cons_succ]
      rw [shifted]
      exact ih (n + 1) k

theorem showsScan {row : α → List Text} {width : Nat} {count : Int32} {entries : List α}
    (counted : count.toInt = entries.length) (wide : ∀ it, (row it).length = width)
    (cells : ∀ it (c : Nat), cell c it = (row it)[c]?) :
    Shows count (fun index => displayed index displayRole (scan cell index 0 entries)) entries width row := by
  have valid {k c : Nat} : displayed ⟨k, c⟩ displayRole (scan cell ⟨k, c⟩ 0 entries) = entries[k]?.bind (cell c) := by
    have scanned := @scanAt α cell c 0 k entries
    rw [Int.zero_add] at scanned
    simp [displayed, ModelIndex.isValid, scanned]
  refine ⟨counted, wide, ?_, ?_⟩
  · intro r c left right
    obtain ⟨c, rfl⟩ := Int.eq_ofNat_of_zero_le left
    by_cases negative : r < 0
    · have none : ¬ 0 ≤ r := by omega
      simp [displayed, ModelIndex.isValid, none]
    · obtain ⟨k, rfl⟩ := Int.eq_ofNat_of_zero_le (not_lt.mp negative)
      rw [valid, counted]
      constructor
      · rintro ⟨value, found⟩
        obtain ⟨it, at_, _⟩ := Option.bind_eq_some_iff.mp found
        have bound := (List.getElem?_eq_some_iff.mp at_).1
        omega
      · rintro ⟨_, bound⟩
        have bound : k < entries.length := by omega
        have column : c < (row entries[k]).length := by
          rw [wide]
          omega
        refine ⟨(row entries[k])[c], ?_⟩
        rw [List.getElem?_eq_getElem bound, Option.bind_some, cells, List.getElem?_eq_getElem column]
  · intro k it found c
    rw [valid, found, Option.bind_some, cells]

end Scan

def statisticsOf (net : Interface) (s : SharedStorage) : List (StatisticKey × StatisticEntry) :=
  s.statisticsTable.entries.filter (fun it => it.1.target == net)

theorem scanOf (net : Interface) (index : ModelIndex) (n : Int) (xs : List (StatisticKey × StatisticEntry)) :
    StatisticsModel.scan net index n xs =
      scan StatisticsModel.cell index n (xs.filter (fun it => it.1.target == net)) := by
  induction xs generalizing n with
  | nil => rfl
  | cons it rest ih =>
    by_cases here : it.1.target = net
    · have test : (it.1.target == net) = true := by simpa using here
      simp only [StatisticsModel.scan, ne_eq, here, not_true_eq_false, if_false, List.filter_cons, BEq.rfl, if_true,
        scan, ih]
    · have test : (it.1.target == net) = false := by simpa using here
      simp only [StatisticsModel.scan, ne_eq, here, not_false_eq_true, if_true, List.filter_cons, test,
        Bool.false_eq_true, if_false, ih]

theorem countOf (net : Interface) (n : Int32) (xs : List (StatisticKey × StatisticEntry)) :
    xs.foldl (fun count it => if it.1.target = net then count + 1 else count) n =
      n + Int32.ofNat (xs.filter (fun it => it.1.target == net)).length := by
  induction xs generalizing n with
  | nil => exact (Int32.add_zero n).symm
  | cons it rest ih =>
    by_cases here : it.1.target = net
    · have one : Int32.ofNat ((rest.filter (fun it => it.1.target == net)).length + 1) =
          Int32.ofNat (rest.filter (fun it => it.1.target == net)).length + 1 := Int32.ofNat_add _ _
      simp only [List.foldl_cons, here, if_true, List.filter_cons, BEq.rfl, List.length_cons, ih, one]
      rw [Int32.add_assoc, Int32.add_comm 1]
    · have test : (it.1.target == net) = false := by simpa using here
      simp only [List.foldl_cons, here, if_false, List.filter_cons, test, Bool.false_eq_true, ih]

theorem statisticsFew (net : Interface) (s : SharedStorage) : (statisticsOf net s).length ≤ 7 := by
  have sorted : (statisticsOf net s).Pairwise (fun a b => StatisticKey.value a.1 < StatisticKey.value b.1) :=
    s.statisticsTable.ascending.sublist List.filter_sublist
  have distinct : ((statisticsOf net s).map (fun it => it.1.protocol)).Nodup := by
    refine List.pairwise_map.mpr (sorted.imp_of_mem ?_)
    intro a b left right less same
    have first : a.1.target = net := by simpa using (List.mem_filter.mp left).2
    have second : b.1.target = net := by simpa using (List.mem_filter.mp right).2
    have equal : StatisticKey.value a.1 = StatisticKey.value b.1 := by
      rw [StatisticKey.valueIff, first, second, same]
    exact absurd equal (ne_of_lt less)
  have all := (List.subperm_of_subset distinct (fun p _ => Protocol.memAll p)).length_le
  rw [List.length_map] at all
  exact all

def statisticRow (it : StatisticKey × StatisticEntry) : List Text :=
  [protocolToString it.1.protocol, text (toString it.2.input.toInt), text (toString it.2.output.toInt)]

def macRow (host : Host) (now : Int) (it : MacAddress × MacEntry) : List Text :=
  [it.1.toText, host.name it.2.interface, seconds it.2.expiration now]

def sessionRow (now : Int) (it : Session) : List Text := [it.token, seconds it.expiration now]

theorem statisticsShow (net : Interface) (s : SharedStorage) :
    Shows (StatisticsModel.rowCount net s) (fun index => StatisticsModel.data net index displayRole s)
      (statisticsOf net s) 3 statisticRow := by
  have counted : (StatisticsModel.rowCount net s).toInt = (statisticsOf net s).length := by
    have few := statisticsFew net s
    rw [StatisticsModel.rowCount, countOf, Int32.zero_add]
    exact Int32.toInt_ofNat_of_lt (by simp only [statisticsOf] at few; omega)
  have cells (it : StatisticKey × StatisticEntry) (c : Nat) : StatisticsModel.cell c it = (statisticRow it)[c]? := by
    match c with
    | 0 | 1 | 2 => rfl
    | _ + 3 => rfl
  have shows : Shows _ (fun index => displayed index displayRole (scan StatisticsModel.cell index 0 (statisticsOf net s)))
      (statisticsOf net s) 3 statisticRow := showsScan counted (fun _ => rfl) cells
  simp only [StatisticsModel.data, scanOf]
  exact shows

theorem macShows (host : Host) (now : Int) {s : SharedStorage} (few : s.macTable.entries.length < 2 ^ 31) :
    Shows (MacModel.rowCount s) (fun index => MacModel.data host now index displayRole s) s.macTable.entries 3
      (macRow host now) := by
  refine showsScan (Int32.toInt_ofNat_of_lt few) (fun _ => rfl) (fun it c => ?_)
  match c with
  | 0 | 1 | 2 => rfl
  | _ + 3 => rfl

theorem sessionsShow (now : Int) {s : SharedStorage} (few : s.sessions.length < 2 ^ 31) :
    Shows (SessionsModel.rowCount s) (fun index => SessionsModel.data now index displayRole s) s.sessions 2
      (sessionRow now) := by
  refine showsScan (Int32.toInt_ofNat_of_lt few) (fun _ => rfl) (fun it c => ?_)
  match c with
  | 0 | 1 => rfl
  | _ + 2 => rfl

theorem statisticsCleared (net other : Interface) (s : SharedStorage) :
    statisticsOf other (clearStatsOf net s) = if other = net then [] else statisticsOf other s := by
  have both : statisticsOf other (clearStatsOf net s) =
      s.statisticsTable.entries.filter (fun it => it.1.target == other && it.1.target != net) := List.filter_filter
  rw [both]
  split
  · rename_i here
    subst here
    refine List.filter_eq_nil_iff.mpr (fun it _ => ?_)
    simp
  · rename_i different
    refine List.filter_congr (fun it _ => ?_)
    by_cases target : it.1.target = other
    · simp [target, different]
    · simp [target]

/- The loop of clearStats, which erases as it goes, leaves the entries of the others. -/
theorem clearStatsLoop (net : Interface) (time : Nat → Int) (s : SharedStorage) :
    ∃ l, (Sweep.loop (fun it _ => it.1.target == net) time).Run (.begin s.statisticsTable.entries)
        (List.replicate s.statisticsTable.entries.length ()) l ∧
      ¬ (Sweep.loop (fun it _ => it.1.target == net) time).enabled l () ∧
      l.container = (clearStatsOf net s).statisticsTable.entries := by
  obtain ⟨l, run, ends, _, _, left⟩ := Sweep.loopWhole (fun it _ => it.1.target == net) time s.statisticsTable.entries
  rw [Sweep.sweepTimeless] at left
  exact ⟨l, run, ends, left⟩

def benchSession : Session := ⟨benchToken, ⟨0, 30000⟩⟩

/- As many sessions as there are numbers below 2^31 and one more: their number is no `int`. -/
def benchCrowd : SharedStorage :=
  { benchStore.storage with sessions := List.replicate 2147483648 benchSession }

end TableModels
end PsipSwitch
