import Mathlib.Init

/-! Computations over a state that may fail. A failure does not roll the state
back, as a C++ exception does not: what was written before it stays written. -/
abbrev Fallible (ε σ : Type) := ExceptT ε (StateM σ)

namespace Fallible
variable {ε σ α β : Type}

def exec (m : Fallible ε σ α) (s : σ) : Except ε α × σ := m.run.run s

@[simp] theorem execGet (s : σ) : exec (get : Fallible ε σ σ) s = (.ok s, s) := rfl

@[simp] theorem execModify (f : σ → σ) (s : σ) :
    exec (modify f : Fallible ε σ PUnit) s = (.ok ⟨⟩, f s) := rfl

def ofExcept (result : Except ε α) : Fallible ε σ α := match result with
  | .ok a => pure a
  | .error e => throw e

@[simp] theorem execOfExcept (result : Except ε α) (s : σ) :
    exec (ofExcept result : Fallible ε σ α) s = (result, s) := by
  cases result <;> rfl

theorem execBind (m : Fallible ε σ α) (k : α → Fallible ε σ β) (s : σ) :
    exec (m >>= k) s = match exec m s with
      | (.ok a, t) => exec (k a) t
      | (.error e, t) => (.error e, t) := by
  change (ExceptT.bind m k).run.run s = _
  simp only [ExceptT.bind, ExceptT.run, ExceptT.mk, exec, StateT.run, bind, StateT.bind]
  rcases m s with ⟨result, t⟩
  cases result <;> rfl

theorem execBindOk {m : Fallible ε σ α} {k : α → Fallible ε σ β} {s t : σ} {a : α}
    (first : exec m s = (.ok a, t)) : exec (m >>= k) s = exec (k a) t := by
  rw [execBind, first]

theorem execBindError {m : Fallible ε σ α} {k : α → Fallible ε σ β} {s t : σ} {e : ε}
    (first : exec m s = (.error e, t)) : exec (m >>= k) s = (.error e, t) := by
  rw [execBind, first]

/-! What a computation may do to the state: nothing, or nothing when it fails. -/

def Silent (m : Fallible ε σ α) : Prop := ∀ s, (exec m s).2 = s

def Sure (m : Fallible ε σ α) : Prop := ∀ s, ∃ a t, exec m s = (.ok a, t)

def Atomic (m : Fallible ε σ α) : Prop := ∀ s e, (exec m s).1 = .error e → (exec m s).2 = s

theorem silentPure (a : α) : Silent (pure a : Fallible ε σ α) := fun _ => rfl

theorem silentThrow (e : ε) : Silent (throw e : Fallible ε σ α) := fun _ => rfl

theorem silentGet : Silent (get : Fallible ε σ σ) := fun _ => rfl

theorem silentOfExcept (result : Except ε α) : Silent (ofExcept result : Fallible ε σ α) := by
  intro s
  rw [execOfExcept]

theorem silentBind {m : Fallible ε σ α} {k : α → Fallible ε σ β} (first : Silent m)
    (next : ∀ a, Silent (k a)) : Silent (m >>= k) := by
  intro s
  have kept := first s
  rw [execBind]
  rcases h : exec m s with ⟨result, t⟩
  rw [h] at kept
  cases result with
  | ok a => exact (next a t).trans kept
  | error e => exact kept

theorem surePure (a : α) : Sure (pure a : Fallible ε σ α) := fun s => ⟨a, s, rfl⟩

theorem sureModify (f : σ → σ) : Sure (modify f : Fallible ε σ PUnit) := fun s => ⟨⟨⟩, f s, rfl⟩

theorem sureGet : Sure (get : Fallible ε σ σ) := fun s => ⟨s, s, rfl⟩

theorem sureBind {m : Fallible ε σ α} {k : α → Fallible ε σ β} (first : Sure m)
    (next : ∀ a, Sure (k a)) : Sure (m >>= k) := by
  intro s
  obtain ⟨a, t, ran⟩ := first s
  obtain ⟨b, u, rest⟩ := next a t
  exact ⟨b, u, (execBindOk ran).trans rest⟩

theorem atomicOfSilent {m : Fallible ε σ α} (silent : Silent m) : Atomic m := fun s _ _ => silent s

theorem atomicOfSure {m : Fallible ε σ α} (sure : Sure m) : Atomic m := by
  intro s e failed
  obtain ⟨a, t, ran⟩ := sure s
  rw [ran] at failed
  contradiction

theorem atomicBind {m : Fallible ε σ α} {k : α → Fallible ε σ β} (checks : Silent m)
    (next : ∀ a, Atomic (k a)) : Atomic (m >>= k) := by
  intro s e failed
  have kept := checks s
  rw [execBind] at failed ⊢
  rcases h : exec m s with ⟨result, t⟩
  rw [h] at kept failed
  cases result with
  | ok a => exact (next a t e failed).trans kept
  | error e => exact kept

def FailsOnly (P : ε → Prop) (m : Fallible ε σ α) : Prop := ∀ s e, (exec m s).1 = .error e → P e

theorem failsOnlyThrow {P : ε → Prop} {e : ε} (kind : P e) : FailsOnly P (throw e : Fallible ε σ α) := by
  intro s e' failed
  cases failed
  exact kind

theorem failsOnlyOfExcept {P : ε → Prop} {result : Except ε α} (kind : ∀ e, result = .error e → P e) :
    FailsOnly P (ofExcept result : Fallible ε σ α) := by
  intro s e failed
  rw [execOfExcept] at failed
  exact kind e failed

theorem failsOnlyOfSure {P : ε → Prop} {m : Fallible ε σ α} (sure : Sure m) : FailsOnly P m := by
  intro s e failed
  obtain ⟨a, t, ran⟩ := sure s
  rw [ran] at failed
  contradiction

theorem failsOnlyBind {P : ε → Prop} {m : Fallible ε σ α} {k : α → Fallible ε σ β} (first : FailsOnly P m)
    (next : ∀ a, FailsOnly P (k a)) : FailsOnly P (m >>= k) := by
  intro s e failed
  rw [execBind] at failed
  rcases h : exec m s with ⟨result, t⟩
  rw [h] at failed
  cases result with
  | ok a => exact next a t e failed
  | error e' =>
    cases failed
    exact first s e (by rw [h])

def Refused (m : Fallible ε σ α) (s : σ) (e : ε) : Prop := exec m s = (.error e, s)

theorem refusedBind {m : Fallible ε σ α} {k : α → Fallible ε σ β} {s : σ} {e : ε}
    (refused : Refused m s e) : Refused (m >>= k) s e := execBindError refused

def Tracks (f : σ → σ) (m : Fallible ε σ α) : Prop := ∀ s, exec m (f s) = ((exec m s).1, f (exec m s).2)

section Tracks
variable {f : σ → σ}

theorem tracksPure (a : α) : Tracks f (pure a : Fallible ε σ α) := fun _ => rfl

theorem tracksThrow (e : ε) : Tracks f (throw e : Fallible ε σ α) := fun _ => rfl

theorem tracksOfExcept (result : Except ε α) : Tracks f (ofExcept result : Fallible ε σ α) := by
  intro s
  rw [execOfExcept, execOfExcept]

theorem tracksModify {g : σ → σ} (comm : ∀ s, g (f s) = f (g s)) : Tracks f (modify g : Fallible ε σ PUnit) := by
  intro s
  rw [execModify, execModify, comm]

theorem tracksBind {m : Fallible ε σ α} {k : α → Fallible ε σ β} (first : Tracks f m) (next : ∀ a, Tracks f (k a)) :
    Tracks f (m >>= k) := by
  intro s
  have head := first s
  rw [execBind, execBind, head]
  rcases exec m s with ⟨result, t⟩
  cases result with
  | ok a => exact next a t
  | error e => rfl

theorem tracksGet {k : σ → Fallible ε σ α} (blind : ∀ s, k (f s) = k s) (next : ∀ s, Tracks f (k s)) :
    Tracks f (get >>= k) := by
  intro s
  rw [execBind, execBind, execGet, execGet]
  change exec (k (f s)) (f s) = _
  rw [blind]
  exact next s s

end Tracks
end Fallible
