import PsipSwitch.RestErrors

/-! PUT /interface/{id}/edit, beside GET /interface/{id}. An edit writes the name and the
state of the one interface, its reply is what a GET gives afterwards, and it does not
matter how often it is sent, nor what is done to other interfaces in the meantime. -/
namespace PsipSwitch
namespace InterfaceEdits
open RestHandle SharedStorage
open Fallible (exec)

def put (host : Host) (now : Int) (authorization : Text) (id : UInt32) (config : InterfaceConfig) (s : SharedStorage) :
    Outcome × SharedStorage := exec (putInterfaceEdit host now authorization (.ok id) (.ok config)) s

def view (host : Host) (now : Int) (authorization : Text) (id : UInt32) (s : SharedStorage) : Outcome × SharedStorage :=
  exec (getInterface host now authorization (.ok id)) s

structure Edited (net : Interface) (config : InterfaceConfig) (s t : SharedStorage) : Prop where
  elsewhere : t = { s with interfaces := t.interfaces }
  keys : t.interfaces.keys = s.interfaces.keys
  others : ∀ other, other ≠ net → t.interfaces.find? other = s.interfaces.find? other
  name : (t.interface net).name = config.name.getD (s.interface net).name
  up : (t.interface net).up = (config.up.map (fun up => decide (up ≠ 0))).getD (s.interface net).up
  control : (t.interface net).control = (s.interface net).control

section Answers
variable {host : Host} {now : Int} {authorization : Text} {id : UInt32} {s : SharedStorage}

theorem putRegistered (authorised : Authorised authorization s) (registered : s.Registered ⟨id⟩)
    (config : InterfaceConfig) : put host now authorization id config s =
      (replyInterface host now ⟨id⟩ (editEntry config (s.interface ⟨id⟩)), s.setInterface ⟨id⟩ (editEntry config)) := by
  rw [put, execInterfaceEdit, authorised]
  simp only [byIdKnown registered]

theorem putUnknown (authorised : Authorised authorization s) (unknown : ¬ s.Registered ⟨id⟩)
    (config : InterfaceConfig) : put host now authorization id config s = (.error noInterface, s) := by
  rw [put, execInterfaceEdit, authorised]
  simp only [byIdUnknown unknown]

theorem viewRegistered (authorised : Authorised authorization s) (registered : s.Registered ⟨id⟩) :
    view host now authorization id s = (replyInterface host now ⟨id⟩ (s.interface ⟨id⟩), s) := by
  rw [view, execInterface, authorised]
  simp only [byIdKnown registered]

end Answers

theorem editEdited {net : Interface} {s : SharedStorage} (config : InterfaceConfig) (registered : s.Registered net) :
    Edited net config s (s.setInterface net (editEntry config)) where
  elsewhere := rfl
  keys := setInterfaceKeys _ registered
  others other different := setInterfaceFindOther s _ different
  name := by rw [setInterfaceSame]; rfl
  up := by
    rw [setInterfaceSame, editEntry]
    cases config.up with
    | none => rfl
    | some up => exact Bool.eq_iff_iff.mpr (by simp)
  control := by rw [setInterfaceSame]; rfl

theorem editShown (config : InterfaceConfig) (entry : InterfaceEntry) : editEntry config entry = { entry with
    name := config.name.getD entry.name
    up := (config.up.map (fun up => decide (up ≠ 0))).getD entry.up } := by
  obtain ⟨name, up⟩ := config
  cases up with
  | none => rfl
  | some up =>
    have same : (up != 0) = decide (up ≠ 0) := Bool.eq_iff_iff.mpr (by simp)
    simp only [editEntry, same]
    rfl

theorem editTwice (config : InterfaceConfig) (entry : InterfaceEntry) :
    editEntry config (editEntry config entry) = editEntry config entry := by
  obtain ⟨name, up⟩ := config
  cases name <;> cases up <;> rfl

theorem editAgain {net : Interface} (s : SharedStorage) (config : InterfaceConfig) :
    (s.setInterface net (editEntry config)).setInterface net (editEntry config) = s.setInterface net (editEntry config) := by
  refine setInterfaceIdle (setInterfaceRegisters s net (editEntry config)) ?_
  rw [setInterfaceSame, editTwice]

theorem editsCommute (s : SharedStorage) {net other : Interface} (f g : InterfaceEntry → InterfaceEntry)
    (different : net ≠ other) :
    (s.setInterface net f).setInterface other g = (s.setInterface other g).setInterface net f := by
  have tables := s.interfaces.updateComm (fun old => f (old.getD .blank)) (fun old => g (old.getD .blank))
    (fun same => different (Interface.rankInjective same))
  simp only [setInterface, tables]

theorem putsCommute {host : Host} {now now' : Int} {authorization authorization' : Text} {id id' : UInt32} {s : SharedStorage}
    (config config' : InterfaceConfig) (authorised : Authorised authorization s)
    (authorised' : Authorised authorization' s) (different : id ≠ id') :
    (put host now' authorization' id' config' (put host now authorization id config s).2).1 =
      (put host now' authorization' id' config' s).1 ∧
    (put host now' authorization' id' config' (put host now authorization id config s).2).2 =
      (put host now authorization id config (put host now' authorization' id' config' s).2).2 := by
  have nets : (⟨id⟩ : Interface) ≠ ⟨id'⟩ := fun same => different (congrArg Interface.id same)
  by_cases known : s.Registered ⟨id⟩
  · have later : Authorised authorization' (s.setInterface ⟨id⟩ (editEntry config)) := authorised'
    rw [putRegistered authorised known]
    by_cases known' : s.Registered ⟨id'⟩
    · have later' : Authorised authorization (s.setInterface ⟨id'⟩ (editEntry config')) := authorised
      have entry : (s.setInterface ⟨id⟩ (editEntry config)).interface ⟨id'⟩ = s.interface ⟨id'⟩ := by
        simp only [SharedStorage.interface, setInterfaceFindOther s _ nets.symm]
      rw [putRegistered later (setInterfaceRegistered _ known'), putRegistered authorised' known',
        putRegistered later' (setInterfaceRegistered _ known), entry]
      exact ⟨rfl, editsCommute s _ _ nets⟩
    · have still : ¬ (s.setInterface ⟨id⟩ (editEntry config)).Registered ⟨id'⟩ :=
        fun later => known' ((setInterfaceRegisteredIff _ known).mp later)
      rw [putUnknown later still, putUnknown authorised' known', putRegistered authorised known]
      exact ⟨rfl, rfl⟩
  · rw [putUnknown authorised known]
    refine ⟨rfl, ?_⟩
    by_cases known' : s.Registered ⟨id'⟩
    · have later' : Authorised authorization (s.setInterface ⟨id'⟩ (editEntry config')) := authorised
      have still : ¬ (s.setInterface ⟨id'⟩ (editEntry config')).Registered ⟨id⟩ :=
        fun later => known ((setInterfaceRegisteredIff _ known').mp later)
      rw [putRegistered authorised' known', putUnknown later' still]
    · rw [putUnknown authorised' known', putUnknown authorised known]

theorem editsExact (host : Host) (now : Int) (authorization : Text) (id : UInt32) (config : InterfaceConfig)
    (s : SharedStorage) (authorised : Authorised authorization s) :
    (s.Registered ⟨id⟩ → ∃ outcome t, put host now authorization id config s = (outcome, t) ∧
      Edited ⟨id⟩ config s t ∧ view host now authorization id t = (outcome, t) ∧
      put host now authorization id config t = (outcome, t) ∧
      (∀ later, (put host later authorization id config t).2 = t) ∧
      (host.present now ⟨id⟩ = true → outcome = .ok (encodeInterface host ⟨id⟩ { s.interface ⟨id⟩ with
        name := config.name.getD (s.interface ⟨id⟩).name
        up := (config.up.map (fun up => decide (up ≠ 0))).getD (s.interface ⟨id⟩).up })) ∧
      (host.present now ⟨id⟩ = false → outcome = .error .invalidInterface)) ∧
    (¬ s.Registered ⟨id⟩ → put host now authorization id config s = (.error noInterface, s)) ∧
    (∀ now' authorization' id' config', Authorised authorization' s → id ≠ id' →
      (put host now' authorization' id' config' (put host now authorization id config s).2).1 =
        (put host now' authorization' id' config' s).1 ∧
      (put host now' authorization' id' config' (put host now authorization id config s).2).2 =
        (put host now authorization id config (put host now' authorization' id' config' s).2).2) := by
  refine ⟨fun known => ?_, fun unknown => putUnknown authorised unknown config, ?_⟩
  · have later : Authorised authorization (s.setInterface ⟨id⟩ (editEntry config)) := authorised
    have still := setInterfaceRegisters s ⟨id⟩ (editEntry config)
    have again (at_ : Int) : put host at_ authorization id config (s.setInterface ⟨id⟩ (editEntry config)) =
        (replyInterface host at_ ⟨id⟩ (editEntry config (s.interface ⟨id⟩)), s.setInterface ⟨id⟩ (editEntry config)) := by
      rw [putRegistered later still, editAgain, setInterfaceSame, editTwice]
    refine ⟨_, _, putRegistered authorised known config, editEdited config known, ?_, again now,
      fun at_ => congrArg Prod.snd (again at_), fun there => ?_, fun gone => ?_⟩
    · rw [viewRegistered later still, setInterfaceSame]
    · rw [replyInterface, if_pos there, editShown]
    · exact if_neg (by rw [gone]; exact Bool.false_ne_true)
  · exact fun now' authorization' id' config' authorised' different =>
      putsCommute config config' authorised authorised' different

theorem editsExactBench :
    (∃ t, put NetworkSwitch.bench 0 (text "Bearer abc") 1 ⟨some (text "lan"), none⟩ RestErrors.benchLogged =
        (.ok (encodeInterface NetworkSwitch.bench ⟨1⟩ ⟨⟨true, false⟩, true, text "lan"⟩), t) ∧
      Edited ⟨1⟩ ⟨some (text "lan"), none⟩ RestErrors.benchLogged t ∧
      view NetworkSwitch.bench 0 (text "Bearer abc") 1 t =
        (.ok (encodeInterface NetworkSwitch.bench ⟨1⟩ ⟨⟨true, false⟩, true, text "lan"⟩), t)) ∧
    put NetworkSwitch.bench 0 (text "Bearer abc") 7 ⟨some (text "lan"), none⟩ RestErrors.benchLogged =
      (.error noInterface, RestErrors.benchLogged) ∧
    (put NetworkSwitch.bench 0 (text "Bearer abc") 2 ⟨none, some 0⟩
        (put NetworkSwitch.bench 0 (text "Bearer abc") 1 ⟨some (text "lan"), none⟩ RestErrors.benchLogged).2).2 =
      (put NetworkSwitch.bench 0 (text "Bearer abc") 1 ⟨some (text "lan"), none⟩
        (put NetworkSwitch.bench 0 (text "Bearer abc") 2 ⟨none, some 0⟩ RestErrors.benchLogged).2).2 := by
  have logged : Authorised (text "Bearer abc") RestErrors.benchLogged := rfl
  have known : RestErrors.benchLogged.Registered ⟨1⟩ := by decide
  have unknown : ¬ RestErrors.benchLogged.Registered ⟨7⟩ := by decide
  have entry : RestErrors.benchLogged.interface ⟨1⟩ = ⟨⟨true, false⟩, true, []⟩ := by decide
  obtain ⟨outcome, t, answered, edited, visible, _, _, there, _⟩ :=
    (editsExact NetworkSwitch.bench 0 _ 1 ⟨some (text "lan"), none⟩ _ logged).1 known
  have shown := there rfl
  rw [entry] at shown
  subst shown
  refine ⟨⟨t, answered, edited, visible⟩, ?_, ?_⟩
  · exact (editsExact NetworkSwitch.bench 0 _ 7 ⟨some (text "lan"), none⟩ _ logged).2.1 unknown
  · exact ((editsExact NetworkSwitch.bench 0 _ 1 ⟨some (text "lan"), none⟩ _ logged).2.2 0 _ 2 ⟨none, some 0⟩ logged
      (by decide)).2

end InterfaceEdits
end PsipSwitch
