import PsipSwitch.Lib.Machine

/-! Programs of one thread among others. A program is a tree of acts on shared state, each of
them atomic; between two acts the others may take any number of steps. `Holds` follows a
program act by act with that in mind, and has one rule for each way to write one. -/
inductive Program (σ α : Type) where
  | done (a : α)
  /- Undefined behaviour, or an exception that nobody catches. -/
  | fault
  | act (ready : σ → Bool) (next : σ → σ) (rest : σ → Program σ α)

namespace Program
variable {σ ε τ α β : Type}

def bind (p : Program σ α) (f : α → Program σ β) : Program σ β := match p with
  | done a => f a
  | fault => fault
  | act ready next rest => act ready next (fun s => (rest s).bind f)

instance : Monad (Program σ) where
  pure := done
  bind := bind

def read (f : σ → α) : Program σ α := act (fun _ => true) id (fun s => done (f s))

def write (f : σ → σ) : Program σ Unit := act (fun _ => true) f (fun _ => done ())

def exchange (f : σ → σ) (g : σ → α) : Program σ α := act (fun _ => true) f (fun s => done (g s))

def await (ready : σ → Bool) (f : σ → σ) : Program σ Unit := act ready f (fun _ => done ())

/- What a null pointer points to is undefined. -/
def deref (pointer : σ → Option α) : Program σ α :=
  act (fun _ => true) id (fun s => match pointer s with
    | some a => done a
    | none => fault)

def alone : Program σ α → σ → Option (α × σ)
  | done a, s => some (a, s)
  | fault, _ => none
  | act ready next rest, s => if ready s then alone (rest s) (next s) else none

theorem aloneBind (p : Program σ α) (f : α → Program σ β) (s : σ) :
    alone (p >>= f) s = (alone p s).bind (fun result => alone (f result.1) result.2) := by
  change alone (p.bind f) s = _
  induction p generalizing s with
  | done a => rfl
  | fault => rfl
  | act ready next rest ih =>
    simp only [bind, alone]
    split
    · exact ih s (next s)
    · rfl

@[simp] theorem alonePure (a : α) (s : σ) : alone (pure a : Program σ α) s = some (a, s) := rfl

@[simp] theorem aloneRead (f : σ → α) (s : σ) : alone (read f) s = some (f s, s) := rfl

@[simp] theorem aloneWrite (f : σ → σ) (s : σ) : alone (write f) s = some ((), f s) := rfl

@[simp] theorem aloneExchange (f : σ → σ) (g : σ → α) (s : σ) : alone (exchange f g) s = some (g s, f s) := rfl

theorem aloneAwait {ready : σ → Bool} {f : σ → σ} {s : σ} (now : ready s = true) :
    alone (await ready f) s = some ((), f s) := if_pos now

theorem aloneDeref {pointer : σ → Option α} {a : α} {s : σ} (found : pointer s = some a) :
    alone (deref pointer) s = some (a, s) := by
  simp only [deref, alone, found, if_true, id_eq]

structure Duty (σ : Type) where
  acts : σ → σ → Prop
  waits : σ → Prop

def Leads (others : Machine σ ε) (s t : σ) : Prop := ∃ es, others.Run s es t

def Stable (others : Machine σ ε) (P : σ → Prop) : Prop := ∀ s e, others.enabled s e → P s → P (others.step s e)

section Rules
variable {others : Machine σ ε} {duty : Duty σ}

theorem leadsSelf (s : σ) : Leads others s s := ⟨[], .nil s⟩

theorem leadsTrans {s t u : σ} (first : Leads others s t) (second : Leads others t u) : Leads others s u := by
  obtain ⟨es, run⟩ := first
  obtain ⟨more, rest⟩ := second
  exact ⟨es ++ more, Machine.runAppend run rest⟩

theorem leadsStep {s : σ} {e : ε} (ready : others.enabled s e) : Leads others s (others.step s e) :=
  ⟨[e], .cons ready (.nil _)⟩

theorem stableLeads {P : σ → Prop} (stable : Stable others P) {s t : σ} (leads : Leads others s t) (here : P s) :
    P t := by
  obtain ⟨es, run⟩ := leads
  exact Machine.runInvariant stable run here

theorem stableAnd {P Q : σ → Prop} (left : Stable others P) (right : Stable others Q) :
    Stable others (fun s => P s ∧ Q s) :=
  fun s e ready both => ⟨left s e ready both.1, right s e ready both.2⟩

theorem stableOr {P Q : σ → Prop} (left : Stable others P) (right : Stable others Q) :
    Stable others (fun s => P s ∨ Q s) := by
  intro s e ready either
  rcases either with here | here
  · exact .inl (left s e ready here)
  · exact .inr (right s e ready here)

theorem stableOf {p : Prop} : Stable others (fun _ => p) := fun _ _ _ here => here

theorem stableStill {P : σ → Prop} (still : ∀ s, P s → ∀ e, ¬ others.enabled s e) : Stable others P :=
  fun s e ready here => absurd ready (still s here e)

def Holds (others : Machine σ ε) (duty : Duty σ) : Program σ α → (α → σ → Prop) → σ → Prop
  | done a, post, s => post a s
  | fault, _, _ => False
  | act ready next rest, post, s => ∀ t, Leads others s t →
      (ready t = false → duty.waits t) ∧
      (ready t = true → duty.acts t (next t) ∧ Holds others duty (rest t) post (next t))

theorem holdsMono {p : Program σ α} {post more : α → σ → Prop} {s : σ} (weaker : ∀ a t, post a t → more a t)
    (holds : Holds others duty p post s) : Holds others duty p more s := by
  induction p generalizing s with
  | done a => exact weaker a s holds
  | fault => exact holds
  | act ready next rest ih =>
    intro t leads
    obtain ⟨waits, acts⟩ := holds t leads
    exact ⟨waits, fun now => ⟨(acts now).1, ih t (acts now).2⟩⟩

theorem holdsBind {p : Program σ α} {f : α → Program σ β} {post : β → σ → Prop} {s : σ} :
    Holds others duty (p >>= f) post s ↔ Holds others duty p (fun a => Holds others duty (f a) post) s := by
  change Holds others duty (p.bind f) post s ↔ _
  induction p generalizing s with
  | done a => exact Iff.rfl
  | fault => exact Iff.rfl
  | act ready next rest ih =>
    simp only [bind, Holds, ih]

theorem holdsLeads {p : Program σ α} {post : α → σ → Prop} (stable : ∀ a, Stable others (post a)) {s t : σ}
    (leads : Leads others s t) (holds : Holds others duty p post s) : Holds others duty p post t := by
  cases p with
  | done a => exact stableLeads (stable a) leads holds
  | fault => exact holds
  | act ready next rest => exact fun u later => holds u (leadsTrans leads later)

def Triple (others : Machine σ ε) (duty : Duty σ) (pre : σ → Prop) (p : Program σ α) (post : α → σ → Prop) : Prop :=
  ∀ s, pre s → Holds others duty p post s

theorem tripleMono {pre first : σ → Prop} {p : Program σ α} {post last : α → σ → Prop}
    (triple : Triple others duty first p last) (weaker : ∀ s, pre s → first s) (stronger : ∀ a s, last a s → post a s) :
    Triple others duty pre p post := fun s here => holdsMono stronger (triple s (weaker s here))

theorem tripleBind {pre : σ → Prop} {p : Program σ α} {Q : α → σ → Prop} {f : α → Program σ β}
    {post : β → σ → Prop} (first : Triple others duty pre p Q)
    (second : ∀ a, Triple others duty (Q a) (f a) post) : Triple others duty pre (p >>= f) post :=
  fun s here => holdsBind.mpr (holdsMono second (first s here))

theorem triplePure {pre : σ → Prop} {a : α} {post : α → σ → Prop} (holds : ∀ s, pre s → post a s) :
    Triple others duty pre (pure a) post := holds

theorem tripleIte {pre : σ → Prop} {c : Prop} [Decidable c] {p q : Program σ α} {post : α → σ → Prop}
    (yes : c → Triple others duty pre p post) (no : ¬ c → Triple others duty pre q post) :
    Triple others duty pre (if c then p else q) post := by
  split
  · rename_i holds
    exact yes holds
  · rename_i fails
    exact no fails

theorem tripleGiven {p : Program σ α} {c : Prop} {pre : σ → Prop} {post : α → σ → Prop}
    (triple : c → Triple others duty pre p post) : Triple others duty (fun s => c ∧ pre s) p post :=
  fun s here => triple here.1 s here.2

theorem tripleAct {pre : σ → Prop} {ready : σ → Bool} {next : σ → σ} {rest : σ → Program σ α} {post : α → σ → Prop}
    (stable : Stable others pre) (waits : ∀ s, pre s → ready s = false → duty.waits s)
    (acts : ∀ s, pre s → ready s = true → duty.acts s (next s) ∧ Holds others duty (rest s) post (next s)) :
    Triple others duty pre (act ready next rest) post := by
  intro s here t leads
  have there := stableLeads stable leads here
  exact ⟨waits t there, acts t there⟩

theorem tripleRead {pre : σ → Prop} {f : σ → α} {post : α → σ → Prop} (stable : Stable others pre)
    (acts : ∀ s, pre s → duty.acts s s) (holds : ∀ s, pre s → post (f s) s) :
    Triple others duty pre (read f) post :=
  tripleAct stable (fun _ _ late => nomatch late) (fun s here _ => ⟨acts s here, holds s here⟩)

theorem tripleExchange {pre : σ → Prop} {f : σ → σ} {g : σ → α} {post : α → σ → Prop} (stable : Stable others pre)
    (acts : ∀ s, pre s → duty.acts s (f s)) (holds : ∀ s, pre s → post (g s) (f s)) :
    Triple others duty pre (exchange f g) post :=
  tripleAct stable (fun _ _ late => nomatch late) (fun s here _ => ⟨acts s here, holds s here⟩)

theorem tripleWrite {pre : σ → Prop} {f : σ → σ} {post : Unit → σ → Prop} (stable : Stable others pre)
    (acts : ∀ s, pre s → duty.acts s (f s)) (holds : ∀ s, pre s → post () (f s)) :
    Triple others duty pre (write f) post :=
  tripleAct stable (fun _ _ late => nomatch late) (fun s here _ => ⟨acts s here, holds s here⟩)

theorem tripleAwait {pre : σ → Prop} {ready : σ → Bool} {f : σ → σ} {post : Unit → σ → Prop}
    (stable : Stable others pre) (waits : ∀ s, pre s → ready s = false → duty.waits s)
    (acts : ∀ s, pre s → ready s = true → duty.acts s (f s)) (holds : ∀ s, pre s → ready s = true → post () (f s)) :
    Triple others duty pre (await ready f) post :=
  tripleAct stable waits (fun s here now => ⟨acts s here now, holds s here now⟩)

theorem tripleDeref {pre : σ → Prop} {pointer : σ → Option α} {post : α → σ → Prop} (stable : Stable others pre)
    (acts : ∀ s, pre s → duty.acts s s) (holds : ∀ s, pre s → ∃ a, pointer s = some a ∧ post a s) :
    Triple others duty pre (deref pointer) post := by
  refine tripleAct stable (fun _ _ late => nomatch late) (fun s here _ => ⟨acts s here, ?_⟩)
  obtain ⟨a, found, after⟩ := holds s here
  simp only [found]
  exact after

end Rules

/-! A thread that runs one program at a call, among others that never stop. -/
section Threads

structure Thread (σ : Type) where
  shared : σ
  program : Program σ Unit

inductive Turn (ε τ : Type) where
  | own
  | other (e : ε)
  | call (c : τ)

def Ready (p : Program σ α) (s : σ) : Prop := match p with
  | act ready _ _ => ready s = true
  | _ => False

def Blocked (p : Program σ α) (s : σ) : Prop := match p with
  | act ready _ _ => ready s = false
  | _ => False

def Idle (p : Program σ α) : Prop := match p with
  | done _ => True
  | _ => False

def advance (t : Thread σ) : Thread σ := match t.program with
  | act _ next rest => ⟨next t.shared, rest t.shared⟩
  | _ => t

def among (others : Machine σ ε) (callable : σ → τ → Prop) (slot : τ → Program σ Unit) :
    Machine (Thread σ) (Turn ε τ) where
  enabled t turn := match turn with
    | .own => t.program.Ready t.shared
    | .other e => others.enabled t.shared e
    | .call c => t.program.Idle ∧ callable t.shared c
  step t turn := match turn with
    | .own => advance t
    | .other e => { t with shared := others.step t.shared e }
    | .call c => { t with program := slot c }

variable {others : Machine σ ε} {duty : Duty σ} {callable : σ → τ → Prop} {slot : τ → Program σ Unit}
  {settled : σ → Prop}

def Dutiful (others : Machine σ ε) (duty : Duty σ) (settled : σ → Prop) (t : Thread σ) : Prop :=
  Holds others duty t.program (fun _ => settled) t.shared

theorem dutifulIdle {t : Thread σ} (idle : t.program.Idle) (dutiful : Dutiful others duty settled t) :
    settled t.shared := by
  unfold Dutiful at dutiful
  cases program : t.program with
  | done a =>
    rw [program] at dutiful
    exact dutiful
  | fault => simp [program, Idle] at idle
  | act ready next rest => simp [program, Idle] at idle

theorem dutifulActs {t : Thread σ} (ready : t.program.Ready t.shared) (dutiful : Dutiful others duty settled t) :
    duty.acts t.shared (advance t).shared ∧ Dutiful others duty settled (advance t) := by
  unfold Dutiful at dutiful ⊢
  cases program : t.program with
  | done a => simp [program, Ready] at ready
  | fault => simp [program, Ready] at ready
  | act test next rest =>
    rw [program] at dutiful ready
    simp only [advance, program]
    exact (dutiful t.shared (leadsSelf _)).2 ready

theorem dutifulBlocked {t : Thread σ} (blocked : t.program.Blocked t.shared)
    (dutiful : Dutiful others duty settled t) : duty.waits t.shared := by
  unfold Dutiful at dutiful
  cases program : t.program with
  | done a => simp [program, Blocked] at blocked
  | fault => simp [program, Blocked] at blocked
  | act test next rest =>
    rw [program] at dutiful blocked
    exact (dutiful t.shared (leadsSelf _)).1 blocked

theorem dutifulSafe {t : Thread σ} (dutiful : Dutiful others duty settled t) : t.program ≠ .fault := by
  intro program
  unfold Dutiful at dutiful
  rw [program] at dutiful
  exact dutiful

theorem dutifulStep (stable : Stable others settled)
    (slots : ∀ c, Triple others duty (fun s => settled s ∧ callable s c) (slot c) (fun _ => settled))
    (t : Thread σ) (turn : Turn ε τ) (ready : (among others callable slot).enabled t turn)
    (dutiful : Dutiful others duty settled t) :
    Dutiful others duty settled ((among others callable slot).step t turn) := by
  cases turn with
  | own => exact (dutifulActs ready dutiful).2
  | other e => exact holdsLeads (fun _ => stable) (leadsStep ready) dutiful
  | call c => exact slots c t.shared ⟨dutifulIdle ready.1 dutiful, ready.2⟩

theorem dutifulUncalled (stable : Stable others settled) {s t : Thread σ} {turns : List (Turn ε τ)}
    (run : (among others callable slot).Run s turns t) (uncalled : ∀ c, Turn.call c ∉ turns)
    (dutiful : Dutiful others duty settled s) : Dutiful others duty settled t := by
  induction run with
  | nil => exact dutiful
  | @cons s turn turns t ready rest ih =>
    refine ih (fun c later => uncalled c (List.mem_cons_of_mem _ later)) ?_
    cases turn with
    | own => exact (dutifulActs ready dutiful).2
    | other e => exact holdsLeads (fun _ => stable) (leadsStep ready) dutiful
    | call c => exact absurd List.mem_cons_self (uncalled c)

theorem aloneRun {p : Program σ Unit} {s t : σ} (finished : alone p s = some ((), t)) :
    ∃ n, (among others callable slot).Run ⟨s, p⟩ (List.replicate n .own) ⟨t, .done ()⟩ := by
  induction p generalizing s with
  | done a =>
    cases finished
    exact ⟨0, .nil _⟩
  | fault => contradiction
  | act ready next rest ih =>
    simp only [alone] at finished
    split at finished
    · rename_i now
      obtain ⟨n, run⟩ := ih s finished
      exact ⟨n + 1, .cons now run⟩
    · contradiction

theorem dutifulFinish (stable : Stable others settled) (wakes : ε → Prop)
    (wake : ∀ s, duty.waits s → ∃ e, wakes e ∧ others.enabled s e ∧ ¬ duty.waits (others.step s e))
    {t : Thread σ} (dutiful : Dutiful others duty settled t) :
    ∃ turns u, (among others callable slot).Run t turns u ∧ u.program.Idle ∧
      ∀ turn ∈ turns, turn = .own ∨ ∃ e, wakes e ∧ turn = .other e := by
  obtain ⟨s, p⟩ := t
  induction p generalizing s with
  | done a => exact ⟨[], ⟨s, .done a⟩, .nil _, trivial, fun _ never => nomatch never⟩
  | fault => exact absurd rfl (dutifulSafe dutiful)
  | act ready next rest ih =>
    have acts : ∀ s, ready s = true → Dutiful others duty settled ⟨s, act ready next rest⟩ →
        ∃ turns u, (among others callable slot).Run ⟨s, act ready next rest⟩ turns u ∧ u.program.Idle ∧
          ∀ turn ∈ turns, turn = .own ∨ ∃ e, wakes e ∧ turn = .other e := by
      intro s now here
      obtain ⟨turns, u, run, idle, all⟩ := ih s (next s) (dutifulActs (t := ⟨s, act ready next rest⟩) now here).2
      exact ⟨.own :: turns, u, .cons now run, idle, List.forall_mem_cons.mpr ⟨.inl rfl, all⟩⟩
    by_cases now : ready s = true
    · exact acts s now dutiful
    · -- after the wait has ended the act is ready, or the wait would go on
      have blocked : ready s = false := by simpa using now
      obtain ⟨e, woken, possible, freed⟩ := wake s (dutifulBlocked (t := ⟨s, act ready next rest⟩) blocked dutiful)
      have later : Dutiful others duty settled ⟨others.step s e, act ready next rest⟩ :=
        holdsLeads (fun _ => stable) (leadsStep possible) dutiful
      have free : ready (others.step s e) = true := by
        by_contra still
        exact freed (dutifulBlocked (t := ⟨others.step s e, act ready next rest⟩) (by simpa [Blocked] using still) later)
      obtain ⟨turns, u, run, idle, all⟩ := acts _ free later
      refine ⟨.other e :: turns, u, .cons possible run, idle, ?_⟩
      exact List.forall_mem_cons.mpr ⟨.inr ⟨e, woken, rfl⟩, all⟩

end Threads
end Program
