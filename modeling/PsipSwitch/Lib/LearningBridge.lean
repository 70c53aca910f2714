import Mathlib.Data.Set.Basic
import Mathlib.Tactic.Ring
import PsipSwitch.Lib.Observations

/-! A learning bridge, as what it is for. It hears at which port a station is and sends what is
for that station there only, it sends everything else on to all its other ports, and what it
has sent on once it does not send on again for a while. Its tables are plain functions, and
where several ports have one address it may take any of them. -/
namespace LearningBridge
variable {Port Address Message Content : Type}

/- The ports' own addresses, what can be seen of a message, and the periods of the tables:
`due` is when something noted at one moment for a period is overdue. -/
structure Setting (Port Address Message Content : Type) where
  address : Port → Address
  Group : Address → Prop
  ends : Message → Option (Address × Address)
  content : Message → Content
  Fits : Port → Message → Prop
  due : Int → Int → Int
  ageing : Int
  holding : Int

structure Station (Port : Type) where
  port : Port
  since : Int
  period : Int

@[ext] structure Bridge (Port Address Content : Type) where
  ports : Port → Option Bool
  stations : Address → Option (Station Port)
  sent : Content → Option Int
  ageing : Int
  clock : Int

section Message
variable (c : Setting Port Address Message Content) (b : Bridge Port Address Content)

def InUse (p : Port) : Prop := b.ports p ≠ none

def Accepts (p : Port) (m : Message) : Prop :=
  c.ends m ≠ none ∧ b.ports p = some true ∧ b.sent (c.content m) = none

def Teaches (p : Port) (m : Message) (a : Address) : Prop :=
  Accepts c b p m ∧ ∃ dst, c.ends m = some (a, dst) ∧ a ≠ c.address p ∧ ¬ c.Group dst

open Classical in
noncomputable def hear (p : Port) (now : Int) (m : Message) : Bridge Port Address Content :=
  { b with stations := fun a => if Teaches c b p m a then some ⟨p, now, b.ageing⟩ else b.stations a }

def others (p : Port) : Set Port := {q | InUse b q ∧ q ≠ p}

def direct (q : Port) (m : Message) : Set Port := {r | r = q ∧ c.Fits r m}

inductive Way (p : Port) (m : Message) (dst : Address) : Option (Set Port) → Prop where
  | here (own : dst = c.address p) : Way p m dst none
  | device {q} (away : dst ≠ c.address p) (used : InUse b q) (own : dst = c.address q) :
      Way p m dst (some (direct c q m))
  | behind {station} (foreign : ∀ q, InUse b q → dst ≠ c.address q) (known : b.stations dst = some station)
      (back : station.port = p) : Way p m dst none
  | onward {station} (foreign : ∀ q, InUse b q → dst ≠ c.address q) (known : b.stations dst = some station)
      (onward : station.port ≠ p) : Way p m dst (some (direct c station.port m))
  | unknown (foreign : ∀ q, InUse b q → dst ≠ c.address q) (missing : b.stations dst = none) :
      Way p m dst (some (others b p))

inductive Treats (p : Port) (now : Int) (m : Message) : Option (Set Port) → Prop where
  | refused (no : ¬ Accepts c b p m) : Treats p now m none
  | own {src dst} (accepted : Accepts c b p m) (ends : c.ends m = some (src, dst)) (source : src = c.address p) :
      Treats p now m none
  | group {src dst} (accepted : Accepts c b p m) (ends : c.ends m = some (src, dst)) (source : src ≠ c.address p)
      (group : c.Group dst) : Treats p now m (some (others b p))
  | single {src dst exits} (accepted : Accepts c b p m) (ends : c.ends m = some (src, dst))
      (source : src ≠ c.address p) (single : ¬ c.Group dst) (way : Way c (hear c b p now m) p m dst exits) :
      Treats p now m exits

end Message

/- The machine. A sweep looks at each entry at a moment of its own. -/

inductive Action (Port Address Message Content : Type) where
  | clear
  | attach (p : Port)
  | enable (p : Port) (up : Bool)
  | age (period : Int)
  | message (p : Port) (now : Int) (m : Message) (exits : Option (Set Port))
  | forget
  | renew (looked : Address → Int) (done : Int)
  | expire (looked : Address → Int) (done : Int)
  | release (looked : Content → Int) (done : Int)
  | wait (now : Int)

def Looks {κ : Type} (clock : Int) (looked : κ → Int) (done : Int) : Prop :=
  clock ≤ done ∧ ∀ k, clock ≤ looked k ∧ looked k ≤ done

def allowed (c : Setting Port Address Message Content) (b : Bridge Port Address Content) :
    Action Port Address Message Content → Prop
  | .enable p _ => InUse b p
  | .message p now m exits => b.clock ≤ now ∧ InUse b p ∧ Treats c b p now m exits
  | .renew looked done | .expire looked done => Looks b.clock looked done
  | .release looked done => Looks b.clock looked done
  | .wait now => b.clock ≤ now
  | .clear | .attach _ | .age _ | .forget => True

def blank (c : Setting Port Address Message Content) (clock : Int) : Bridge Port Address Content :=
  ⟨fun _ => none, fun _ => none, fun _ => none, c.ageing, clock⟩

open Classical in
noncomputable def put (p : Port) (up : Bool) (b : Bridge Port Address Content) : Bridge Port Address Content :=
  { b with ports := fun q => if q = p then some up else b.ports q }

theorem putSelf {p : Port} {up : Bool} {b : Bridge Port Address Content} : (put p up b).ports p = some up := if_pos rfl

theorem putOther {p q : Port} {up : Bool} {b : Bridge Port Address Content} (other : q ≠ p) :
    (put p up b).ports q = b.ports q := if_neg other

theorem putIdle {p : Port} {up : Bool} {b : Bridge Port Address Content} (there : b.ports p = some up) :
    put p up b = b := by
  refine Bridge.ext (funext fun q => ?_) rfl rfl rfl rfl
  by_cases here : q = p
  · subst here
    exact putSelf.trans there.symm
  · exact putOther here

open Classical in
noncomputable def act (c : Setting Port Address Message Content) (b : Bridge Port Address Content) :
    Action Port Address Message Content → Bridge Port Address Content
  | .clear => blank c b.clock
  | .attach p => put p true b
  | .enable p up => put p up b
  | .age period => { b with ageing := period }
  | .message p now m exits =>
      { hear c b p now m with
        sent := fun x => if exits ≠ none ∧ x = c.content m then some now else b.sent x
        clock := now }
  | .forget => { b with stations := fun _ => none }
  | .renew looked done =>
      { b with
        stations := fun a => (b.stations a).map (fun station => { station with since := looked a })
        clock := done }
  | .expire looked done =>
      { b with
        stations := fun a => (b.stations a).filter (fun station => !decide (c.due station.since station.period < looked a))
        clock := done }
  | .release looked done =>
      { b with
        sent := fun x => (b.sent x).filter (fun since => !decide (c.due since c.holding < looked x))
        clock := done }
  | .wait now => { b with clock := now }

noncomputable def bridge (c : Setting Port Address Message Content) :
    Machine (Bridge Port Address Content) (Action Port Address Message Content) where
  enabled := allowed c
  step := act c

structure Passage (Port Message : Type) where
  port : Port
  time : Int
  message : Message
  exits : Set Port

inductive Notice (Port Address Message Content : Type) where
  | cleared
  | attached (p : Port)
  | enabled (p : Port) (up : Bool)
  | aged (period : Int)
  | passage (it : Passage Port Message)
  | forgotten
  | renewed (looked : Address → Int) (done : Int)
  | expired (looked : Address → Int) (done : Int)
  | released (looked : Content → Int) (done : Int)

def Notice.passage? : Notice Port Address Message Content → Option (Passage Port Message)
  | .passage it => some it
  | _ => none

def shows (_ : Bridge Port Address Content) :
    Action Port Address Message Content → List (Notice Port Address Message Content)
  | .clear => [.cleared]
  | .attach p => [.attached p]
  | .enable p up => [.enabled p up]
  | .age period => [.aged period]
  | .message p now m exits => [.passage ⟨p, now, m, exits.getD ∅⟩]
  | .forget => [.forgotten]
  | .renew looked done => [.renewed looked done]
  | .expire looked done => [.expired looked done]
  | .release looked done => [.released looked done]
  | .wait _ => []

/-! How often the same content goes round. Whatever comes in, and however often, what has been
sent on is not sent on again before it is overdue; only a restart forgets it earlier. -/
section Rarely
variable {c : Setting Port Address Message Content} {x : Content}

def Copy (c : Setting Port Address Message Content) (x : Content) : Notice Port Address Message Content → Prop
  | .passage it => c.content it.message = x ∧ it.exits.Nonempty
  | _ => False

def Notice.restart : Notice Port Address Message Content → Bool
  | .cleared => true
  | _ => false

open Classical in
noncomputable def copies (c : Setting Port Address Message Content) (x : Content)
    (notices : List (Notice Port Address Message Content)) : Nat := notices.countP (fun n => decide (Copy c x n))

def restarts (notices : List (Notice Port Address Message Content)) : Nat := notices.countP Notice.restart

theorem copiesAppend (first second : List (Notice Port Address Message Content)) :
    copies c x (first ++ second) = copies c x first + copies c x second := List.countP_append

theorem restartsAppend (first second : List (Notice Port Address Message Content)) :
    restarts (first ++ second) = restarts first + restarts second := List.countP_append

def level (hold : Int) (x : Content) (b : Bridge Port Address Content) : Int := (b.sent x).getD (b.clock - hold)

open Classical in
noncomputable def weight (c : Setting Port Address Message Content) (hold : Int) (x : Content)
    (n : Notice Port Address Message Content) : Int := (if Copy c x n then hold else 0) - (if n.restart then hold else 0)

open Classical in
theorem weightSum (hold : Int) (notices : List (Notice Port Address Message Content)) :
    (notices.map (weight c hold x)).sum = copies c x notices * hold - restarts notices * hold := by
  induction notices with
  | nil => simp [copies, restarts]
  | cons n rest ih =>
    have one : copies c x (n :: rest) = copies c x rest + if Copy c x n then 1 else 0 := by
      simp only [copies, List.countP_cons, decide_eq_true_eq]
    have other : restarts (n :: rest) = restarts rest + if n.restart then 1 else 0 := List.countP_cons
    rw [List.map_cons, List.sum_cons, ih, one, other, weight]
    push_cast
    split <;> split <;> ring

theorem weightFree {hold : Int} {n : Notice Port Address Message Content} (silent : ¬ Copy c x n)
    (goes : n.restart = false) : ([n].map (weight c hold x)).sum = 0 := by
  simp [weight, silent, goes]

def Noted (first : Int) (x : Content) (b : Bridge Port Address Content) : Prop :=
  first ≤ b.clock ∧ ∀ since, b.sent x = some since → first ≤ since ∧ since ≤ b.clock

theorem actForward {b : Bridge Port Address Content} {a : Action Port Address Message Content} (ready : allowed c b a) :
    b.clock ≤ (act c b a).clock := by
  cases a with
  | message p now m exits => exact ready.1
  | renew looked done => exact ready.1
  | expire looked done => exact ready.1
  | release looked done => exact ready.1
  | wait now => exact ready
  | _ => exact le_refl _

theorem runForward {b t : Bridge Port Address Content} {acts : List (Action Port Address Message Content)}
    (run : (bridge c).Run b acts t) : b.clock ≤ t.clock := by
  induction run with
  | nil => exact le_refl _
  | cons ready rest ih => exact (actForward ready).trans ih

theorem levelBound {b : Bridge Port Address Content} {hold first : Int} (positive : 0 ≤ hold) (noted : Noted first x b) :
    level hold x b ≤ b.clock := by
  unfold level
  cases found : b.sent x with
  | none => exact Int.sub_le_self _ positive
  | some since => exact (noted.2 since found).2

theorem levelKept {b t : Bridge Port Address Content} {hold first : Int} (same : t.sent x = b.sent x)
    (forward : b.clock ≤ t.clock) (noted : Noted first x b) : Noted first x t ∧ level hold x b ≤ level hold x t := by
  refine ⟨⟨noted.1.trans forward, fun since found => ?_⟩, ?_⟩
  · have before := noted.2 since (same.symm.trans found)
    exact ⟨before.1, before.2.trans forward⟩
  · unfold level
    rw [same]
    cases b.sent x with
    | none => exact Int.sub_le_sub_right forward hold
    | some since => exact le_refl _

theorem treatedFresh {b : Bridge Port Address Content} {p : Port} {now : Int} {m : Message} {exits : Set Port}
    (treats : Treats c b p now m (some exits)) : b.sent (c.content m) = none := by
  cases treats with
  | group accepted ends source group => exact accepted.2.2
  | single accepted ends source single way => exact accepted.2.2

def Pays (c : Setting Port Address Message Content) (hold first : Int) (x : Content) (b : Bridge Port Address Content)
    (a : Action Port Address Message Content) : Prop :=
  Noted first x (act c b a) ∧ level hold x b + ((shows b a).map (weight c hold x)).sum ≤ level hold x (act c b a)

theorem freePays {b : Bridge Port Address Content} {a : Action Port Address Message Content} {hold first : Int}
    (free : ((shows b a).map (weight c hold x)).sum = 0) (same : (act c b a).sent x = b.sent x)
    (forward : b.clock ≤ (act c b a).clock) (noted : Noted first x b) : Pays c hold first x b a := by
  unfold Pays
  rw [free, Int.add_zero]
  exact levelKept same forward noted

theorem clearPays {b : Bridge Port Address Content} {hold first : Int} (positive : 0 ≤ hold) (noted : Noted first x b) :
    Pays c hold first x b .clear := by
  have bound := levelBound positive noted
  have paid : ((shows b (.clear : Action Port Address Message Content)).map (weight c hold x)).sum = -hold := by
    simp [shows, weight, Copy, Notice.restart]
  have empty : level hold x (act c b .clear) = b.clock - hold := rfl
  unfold Pays
  rw [paid, empty]
  exact ⟨⟨noted.1, fun _ found => nomatch found⟩, by omega⟩

theorem messagePays {b : Bridge Port Address Content} {hold first : Int} {p : Port} {now : Int} {m : Message}
    {exits : Option (Set Port)} (positive : 0 ≤ hold) (order : b.clock ≤ now) (treats : Treats c b p now m exits)
    (noted : Noted first x b) : Pays c hold first x b (.message p now m exits) := by
  by_cases new : exits ≠ none ∧ x = c.content m
  · have noteNew : (act c b (.message p now m exits)).sent x = some now := if_pos new
    obtain ⟨gone, rfl⟩ := new
    obtain ⟨set, rfl⟩ := Option.ne_none_iff_exists'.mp gone
    have before : level hold (c.content m) b = b.clock - hold := by rw [level, treatedFresh treats, Option.getD_none]
    have after : level hold (c.content m) (act c b (.message p now m (some set))) = now := by
      rw [level, noteNew, Option.getD_some]
    have charge : ((shows b (.message p now m (some set))).map (weight c hold (c.content m))).sum ≤ hold := by
      simp only [shows, List.map_cons, List.map_nil, List.sum_singleton, weight, Notice.restart]
      split <;> simp [positive]
    unfold Pays
    rw [before, after]
    constructor
    · refine ⟨noted.1.trans order, fun since found => ?_⟩
      cases Option.some.inj (noteNew.symm.trans found)
      exact ⟨noted.1.trans order, le_refl _⟩
    · omega
  · have silent : ¬ Copy c x (.passage ⟨p, now, m, exits.getD ∅⟩) := by
      rintro ⟨content, some⟩
      refine new ⟨?_, content.symm⟩
      rintro rfl
      exact Set.not_nonempty_empty some
    exact freePays (weightFree silent rfl) (if_neg new) order noted

theorem releasePays {b : Bridge Port Address Content} {hold first : Int} {looked : Content → Int} {done : Int}
    (keeps : ∀ since, first ≤ since → since ≤ done → since + hold ≤ c.due since c.holding)
    (order : b.clock ≤ done) (looks : ∀ y, b.clock ≤ looked y ∧ looked y ≤ done) (noted : Noted first x b) :
    Pays c hold first x b (.release looked done) := by
  cases found : b.sent x with
  | none =>
    have gone : (act c b (.release looked done)).sent x = b.sent x := by
      simp only [act, found, Option.filter_none]
    exact freePays (weightFree id rfl) gone order noted
  | some since =>
    by_cases late : c.due since c.holding < looked x
    · have gone : (act c b (.release looked done)).sent x = none := by
        simp [act, found, Option.filter, late]
      have held := keeps since (noted.2 since found).1 ((noted.2 since found).2.trans order)
      have inside := (looks x).2
      have before : level hold x b = since := by rw [level, found, Option.getD_some]
      have after : level hold x (act c b (.release looked done)) = done - hold := by
        rw [level, gone, Option.getD_none]
        rfl
      have silent : ((shows b (.release looked done)).map (weight c hold x)).sum = 0 := weightFree id rfl
      unfold Pays
      rw [before, after, silent]
      exact ⟨⟨noted.1.trans order, fun _ again => nomatch gone.symm.trans again⟩, by omega⟩
    · have kept : (act c b (.release looked done)).sent x = b.sent x := by
        simp [act, found, Option.filter, late]
      exact freePays (weightFree id rfl) kept order noted

theorem actPays {b : Bridge Port Address Content} {a : Action Port Address Message Content} {hold first last : Int}
    (positive : 0 ≤ hold) (keeps : ∀ since, first ≤ since → since ≤ last → since + hold ≤ c.due since c.holding)
    (ready : allowed c b a) (soon : (act c b a).clock ≤ last) (noted : Noted first x b) : Pays c hold first x b a := by
  cases a with
  | clear => exact clearPays positive noted
  | message p now m exits => exact messagePays positive ready.1 ready.2.2 noted
  | release looked done =>
    have inside (since : Int) (low : first ≤ since) (high : since ≤ done) := keeps since low (high.trans soon)
    exact releasePays inside ready.1 ready.2 noted
  | attach p => exact freePays (weightFree id rfl) rfl (actForward ready) noted
  | enable p up => exact freePays (weightFree id rfl) rfl (actForward ready) noted
  | age period => exact freePays (weightFree id rfl) rfl (actForward ready) noted
  | forget => exact freePays (weightFree id rfl) rfl (actForward ready) noted
  | renew looked done => exact freePays (weightFree id rfl) rfl (actForward ready) noted
  | expire looked done => exact freePays (weightFree id rfl) rfl (actForward ready) noted
  | wait now => exact freePays rfl rfl (actForward ready) noted

theorem rarely {b t : Bridge Port Address Content} {acts : List (Action Port Address Message Content)} {hold : Int}
    (positive : 0 ≤ hold)
    (keeps : ∀ since, b.clock ≤ since → since ≤ t.clock → since + hold ≤ c.due since c.holding)
    (fresh : b.sent x = none) (run : (bridge c).Run b acts t) :
    copies c x ((bridge c).trace shows b acts) * hold ≤
      (1 + restarts ((bridge c).trace shows b acts)) * hold + (t.clock - b.clock) := by
  have start : Noted b.clock x b := ⟨le_refl _, fun _ found => nomatch fresh.symm.trans found⟩
  obtain ⟨ended, paid⟩ := Machine.amortised (P := Noted b.clock x) (level hold x)
    (fun u a us ready rest noted => actPays positive keeps ready (runForward rest) noted) run start
  have before : level hold x b = b.clock - hold := by rw [level, fresh, Option.getD_none]
  have after := levelBound positive ended
  rw [weightSum, before] at paid
  have spread : (1 + (restarts ((bridge c).trace shows b acts) : Int)) * hold =
      hold + restarts ((bridge c).trace shows b acts) * hold := by ring
  rw [spread]
  omega

end Rarely
end LearningBridge
