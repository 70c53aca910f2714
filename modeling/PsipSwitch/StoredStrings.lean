import PsipSwitch.Replies
import PsipSwitch.RestErrors

/-! The strings that clients store, over whole runs: the hostname of the device and the
names of the interfaces are what was stored last, and whether a reply gives them back
intact is a matter of these strings alone. -/
namespace PsipSwitch
namespace StoredStrings
open NetworkSwitch RestHandle SharedStorage Replies
open Json (Clean)
open Fallible (exec execBind)

structure Strings where
  hostname : Text
  name : Interface → Text

def Strings.rename (k : Strings) (net : Interface) (name : Text) : Strings :=
  { k with name := fun other => if other = net then name else k.name other }

def stringsOf (s : SharedStorage) : Strings := ⟨s.deviceInfo.hostname, fun net => (s.interface net).name⟩

/- An authorised PUT stores the string it carries, where it carries one and finds its
interface. A start takes the name away, and a reset everything. -/
def record (s : Store) : Operation → Strings → Strings
  | .reset, _ => ⟨Settings.defaultHostname, fun _ => []⟩
  | .start net, k => k.rename net []
  | .request _ _ (.editDevice authorization (.ok config)), k => match check authorization s.storage with
      | .ok _ => { k with hostname := config.hostname.getD k.hostname }
      | .error _ => k
  | .request _ _ (.editInterface authorization (.ok id) (.ok config)), k => match check authorization s.storage with
      | .ok _ => if (byId id s.storage).isSome then k.rename ⟨id⟩ (config.name.getD (k.name ⟨id⟩)) else k
      | .error _ => k
  | _, k => k

def stored (host : Host) (s : Store) (ops : List Operation) : Strings :=
  (sections host).observe record s ops (stringsOf s.storage)

theorem renamed (s : SharedStorage) (net : Interface) (f : InterfaceEntry → InterfaceEntry) :
    stringsOf (s.setInterface net f) = (stringsOf s).rename net (f (s.interface net)).name := by
  have names : (fun other => ((s.setInterface net f).interface other).name) =
      fun other => if other = net then (f (s.interface net)).name else (s.interface other).name := by
    funext other
    split
    · rename_i here
      rw [here, setInterfaceSame]
    · rename_i different
      rw [interface, setInterfaceFindOther s f different]
      rfl
  simp only [stringsOf, Strings.rename, names]
  rfl

theorem renameIdle (k : Strings) (net : Interface) : k.rename net (k.name net) = k := by
  have names : (fun other => if other = net then k.name net else k.name other) = k.name := by
    funext other
    split
    · rename_i here
      rw [here]
    · rfl
  simp only [Strings.rename, names]

theorem namesKept {s : SharedStorage} {net : Interface} {f : InterfaceEntry → InterfaceEntry}
    (kept : (f (s.interface net)).name = (s.interface net).name) : stringsOf (s.setInterface net f) = stringsOf s := by
  rw [renamed, kept]
  exact renameIdle (stringsOf s) net

theorem recordRequest (host : Host) (now : Int) (draws : Draws) (request : Request) (s : Store) :
    stringsOf (respond host now draws request s.storage).2 =
      record s (.request now draws request) (stringsOf s.storage) := by
  cases request with
  | editInterface authorization id config =>
    simp only [respond, handle, execInterfaceEdit]
    cases id with
    | error message => cases check authorization s.storage <;> rfl
    | ok id =>
      cases config with
      | error message => cases check authorization s.storage <;> rfl
      | ok config =>
        simp only [record]
        cases check authorization s.storage with
        | error failure => rfl
        | ok u =>
          cases found : byId id s.storage with
          | none =>
            simp only [found]
            rfl
          | some it =>
            obtain ⟨_, rfl, _⟩ := byIdRegistered found
            simp only [found]
            exact renamed s.storage it.1 (editEntry config)
  | editDevice authorization config =>
    simp only [respond, handle, execDeviceEdit]
    cases config with
    | error message => cases check authorization s.storage <;> rfl
    | ok config =>
      simp only [record]
      cases check authorization s.storage <;> rfl
  | _ => exact respondPlain (fun _ => rfl) host now draws id

theorem stepRecord {host : Host} {s : Store} {op : Operation} (ready : (sections host).enabled s op) :
    stringsOf ((sections host).step s op).storage = record s op (stringsOf s.storage) := by
  change stringsOf (perform host op s.storage) = _
  cases op with
  | reset => rfl
  | start net => exact renamed s.storage net _
  | signalStop net => exact namesKept rfl
  | finish net => exact namesKept rfl
  | receive me now packet =>
    obtain ⟨_, _, _, same⟩ := NetworkHandle.receiveFrame host now packet ready.2
    simp only [perform, same]
    rfl
  | request now draws request => exact recordRequest host now draws request s
  | maintain m => cases m <;> rfl
  | _ => rfl

theorem runStored {host : Host} {s t : Store} {ops : List Operation} (run : (sections host).Run s ops t) :
    stored host s ops = stringsOf t.storage := by
  refine Machine.observeInvariant (R := fun s k => k = stringsOf s.storage) ?_ run rfl
  rintro s op _ ready rfl
  exact (stepRecord ready).symm

def shown (k : Strings) (nets : List Interface) : Request → List Text
  | .device _ | .editDevice _ _ => [k.hostname]
  | .interface _ (.ok id) | .editInterface _ (.ok id) _ => [k.name ⟨id⟩]
  | .interfaces _ => nets.map k.name
  | _ => []

def Intact (k : Strings) (nets : List Interface) (request : Request) (body : Text) : Prop := match request with
  | .device _ | .editDevice _ _ => Json.Reads body (ShowsDevice k.hostname)
  | .interface _ (.ok id) | .editInterface _ (.ok id) _ => Json.Reads body (ShowsInterface (k.name ⟨id⟩))
  | .interfaces _ => Json.Reads body (ShowsInterfaces (nets.map k.name))
  | _ => True

theorem entryNames (s : SharedStorage) :
    s.interfaces.keys.map (stringsOf s).name = s.interfaces.entries.map (fun it => it.2.name) := by
  simp only [OrderedTable.keys, List.map_map]
  refine List.map_congr_left (fun it member => ?_)
  simp only [Function.comp_apply, stringsOf, SharedStorage.interface, OrderedTable.findOfEntry member rfl, Option.getD_some]

theorem replyAnswered {host : Host} {now : Int} {net : Interface} {entry : InterfaceEntry} {body : Text}
    (answered : replyInterface host now net entry = .ok body) : body = encodeInterface host net entry := by
  unfold replyInterface at answered
  split at answered
  · exact (Except.ok.inj answered).symm
  · contradiction

theorem interfacesReply {host : Host} {now : Int} {authorization body : Text} {s : SharedStorage}
    (answered : (exec (getInterfaces host now authorization) s).1 = .ok body) :
    body = listReply (s.interfaces.entries.map (fun it => encodeInterface host it.1 it.2)) := by
  have authorised := (authorisedOfAnswer answered).1
  rw [execInterfaces, authorised, repliesSpec] at answered
  by_cases there : s.interfaces.keys.all (host.present now) = true
  · rw [if_pos there] at answered
    exact (Except.ok.inj answered).symm
  · rw [if_neg there] at answered
    contradiction

theorem interfaceReply {host : Host} {now : Int} {authorization body : Text} {id : Parsed UInt32} {s : SharedStorage}
    (answered : (exec (getInterface host now authorization id) s).1 = .ok body) :
    ∃ known it, id = .ok known ∧ byId known s = some it ∧ body = encodeInterface host it.1 it.2 := by
  have reply := (authorisedOfAnswer answered).2
  cases id with
  | error message => contradiction
  | ok id =>
    simp only [execBind, execParametersOk, Fallible.execGet] at reply
    cases found : byId id s with
    | none =>
      rw [found] at reply
      contradiction
    | some it =>
      rw [found] at reply
      simp only [Fallible.execOfExcept] at reply
      exact ⟨id, it, rfl, found, replyAnswered reply⟩

theorem deviceReply {authorization body : Text} {s : SharedStorage}
    (answered : (exec (getDevice authorization) s).1 = .ok body) : body = encodeDevice s.deviceInfo :=
  (Except.ok.inj (authorisedOfAnswer answered).2).symm

theorem interfaceEditReply {host : Host} {now : Int} {authorization body : Text} {id : Parsed UInt32}
    {config : Parsed InterfaceConfig} {s : SharedStorage}
    (answered : (exec (putInterfaceEdit host now authorization id config) s).1 = .ok body) :
    ∃ known it edit, id = .ok known ∧ byId known s = some it ∧
      (exec (putInterfaceEdit host now authorization id config) s).2 = s.setInterface it.1 (editEntry edit) ∧
      body = encodeInterface host it.1 (editEntry edit it.2) := by
  have authorised := (authorisedOfAnswer answered).1
  rw [execInterfaceEdit, authorised] at answered
  rw [execInterfaceEdit, authorised]
  cases id with
  | error message => contradiction
  | ok id =>
    cases config with
    | error message => contradiction
    | ok config =>
      simp only at answered ⊢
      cases found : byId id s with
      | none =>
        rw [found] at answered
        contradiction
      | some it =>
        rw [found] at answered
        exact ⟨id, it, config, rfl, found, rfl, replyAnswered answered⟩

theorem deviceEditReply {authorization body : Text} {config : Parsed DeviceConfig} {s : SharedStorage}
    (answered : (exec (putDeviceEdit authorization config) s).1 = .ok body) :
    body = encodeDevice (exec (putDeviceEdit authorization config) s).2.deviceInfo := by
  have authorised := (authorisedOfAnswer answered).1
  rw [execDeviceEdit, authorised] at answered ⊢
  cases config with
  | error message => contradiction
  | ok config => exact (Except.ok.inj answered).symm

theorem answeredIntact {host : Host} {now : Int} {draws : Draws} {request : Request} {s : SharedStorage} {body : Text}
    (answered : (respond host now draws request s).1 = .ok body) :
    Intact (stringsOf (respond host now draws request s).2) s.interfaces.keys request body ↔
      ∀ x ∈ shown (stringsOf (respond host now draws request s).2) s.interfaces.keys request, Clean x := by
  have plain : True ↔ ∀ x ∈ ([] : List Text), Clean x := by simp
  cases request with
  | index => exact plain
  | login params => exact plain
  | auth authorization => exact plain
  | logout authorization => exact plain
  | interfaces authorization =>
    have silent : (respond host now draws (.interfaces authorization) s).2 = s := silentInterfaces host now authorization s
    rw [silent, interfacesReply answered]
    simp only [Intact, shown, entryNames, List.forall_mem_map]
    exact interfacesReads host s.interfaces.entries
  | interface authorization id =>
    have silent : (respond host now draws (.interface authorization id) s).2 = s :=
      silentInterface host now authorization id s
    obtain ⟨known, it, rfl, found, written⟩ := interfaceReply answered
    obtain ⟨_, rfl, entry⟩ := byIdRegistered found
    rw [silent, written, ← entry]
    simp only [Intact, shown, List.forall_mem_singleton]
    exact interfaceReads host it.1 (s.interface it.1)
  | editInterface authorization id config =>
    obtain ⟨known, it, edit, rfl, found, after, written⟩ := interfaceEditReply answered
    obtain ⟨_, rfl, entry⟩ := byIdRegistered found
    have kept : (respond host now draws (.editInterface authorization (.ok it.1.id) config) s).2 =
        s.setInterface it.1 (editEntry edit) := after
    rw [kept, written, ← entry]
    simp only [Intact, shown, List.forall_mem_singleton, stringsOf, setInterfaceSame]
    exact interfaceReads host it.1 (editEntry edit (s.interface it.1))
  | device authorization =>
    have silent : (respond host now draws (.device authorization) s).2 = s := silentDevice authorization s
    rw [silent, deviceReply answered]
    simp only [Intact, shown, List.forall_mem_singleton]
    exact deviceReads s.deviceInfo
  | editDevice authorization config =>
    rw [deviceEditReply answered]
    simp only [Intact, shown, List.forall_mem_singleton]
    exact deviceReads (respond host now draws (.editDevice authorization config) s).2.deviceInfo

def carried : Operation → List Text
  | .request _ _ (.editDevice _ (.ok config)) => config.hostname.toList
  | .request _ _ (.editInterface _ _ (.ok config)) => config.name.toList
  | _ => []

def tidy (host : Host) : Machine Store Operation := (sections host).restrict (fun _ op => ∀ x ∈ carried op, Clean x)

structure AllClean (k : Strings) : Prop where
  hostname : Clean k.hostname
  name : ∀ net, Clean (k.name net)

theorem renameClean {k : Strings} {name : Text} (clean : AllClean k) (net : Interface) (fresh : Clean name) :
    AllClean (k.rename net name) := by
  refine ⟨clean.hostname, fun other => ?_⟩
  simp only [Strings.rename]
  split
  · exact fresh
  · exact clean.name other

theorem chosenClean {old : Text} {fresh : Option Text} (before : Clean old) (all : ∀ x ∈ fresh.toList, Clean x) :
    Clean (fresh.getD old) := by
  cases fresh with
  | none => exact before
  | some x => exact all x List.mem_cons_self

theorem recordClean {s : Store} {op : Operation} {k : Strings} (clean : AllClean k) (all : ∀ x ∈ carried op, Clean x) :
    AllClean (record s op k) := by
  cases op with
  | reset =>
    have hostname : Clean Settings.defaultHostname := by decide
    have blank : Clean [] := rfl
    exact ⟨hostname, fun _ => blank⟩
  | start net => exact renameClean clean net rfl
  | request now draws request =>
    cases request with
    | editDevice authorization config =>
      cases config with
      | error message => exact clean
      | ok config =>
        simp only [record]
        split
        · exact ⟨chosenClean clean.hostname all, clean.name⟩
        · exact clean
    | editInterface authorization id config =>
      cases id with
      | error message => exact clean
      | ok id =>
        cases config with
        | error message => exact clean
        | ok config =>
          simp only [record]
          split
          · split
            · exact renameClean clean _ (chosenClean (clean.name _) all)
            · exact clean
          · exact clean
    | _ => exact clean
  | _ => exact clean

theorem shownClean {k : Strings} (clean : AllClean k) (nets : List Interface) (request : Request) :
    ∀ x ∈ shown k nets request, Clean x := by
  have named : ∀ net, ∀ x ∈ [k.name net], Clean x := by simpa using clean.name
  have device : ∀ x ∈ [k.hostname], Clean x := by simpa using clean.hostname
  have none : ∀ x ∈ ([] : List Text), Clean x := by simp
  cases request with
  | device authorization => exact device
  | editDevice authorization config => exact device
  | interfaces authorization => exact List.forall_mem_map.mpr (fun net _ => clean.name net)
  | interface authorization id =>
    cases id with
    | error message => exact none
    | ok id => exact named ⟨id⟩
  | editInterface authorization id config =>
    cases id with
    | error message => exact none
    | ok id => exact named ⟨id⟩
  | _ => exact none

theorem tidyIntact {host : Host} {s t : Store} {ops : List Operation} {now : Int} {draws : Draws}
    {request : Request} {body : Text} (clean : AllClean (stringsOf s.storage)) (run : (tidy host).Run s ops t)
    (ready : (tidy host).enabled t (.request now draws request))
    (answered : (respond host now draws request t.storage).1 = .ok body) :
    Intact (stored host s (ops ++ [.request now draws request])) t.storage.interfaces.keys request body := by
  have keep : ∀ s op, (tidy host).enabled s op → AllClean (stringsOf s.storage) →
      AllClean (stringsOf ((tidy host).step s op).storage) := by
    intro s op ready before
    change AllClean (stringsOf ((sections host).step s op).storage)
    rw [stepRecord ready.1]
    exact recordClean before ready.2
  have whole := Machine.runSnoc run ready
  have after : AllClean (stringsOf (respond host now draws request t.storage).2) :=
    Machine.runInvariant (P := fun s => AllClean (stringsOf s.storage)) keep whole clean
  rw [runStored (Machine.runUnrestrict whole)]
  exact (answeredIntact answered).mpr (shownClean after _ _)

theorem stringsIntact {host : Host} {s t : Store} {ops : List Operation} {now : Int} {draws : Draws}
    {request : Request} {body : Text} (run : (sections host).Run s ops t)
    (ready : (sections host).enabled t (.request now draws request))
    (answered : (respond host now draws request t.storage).1 = .ok body) :
    Intact (stored host s (ops ++ [.request now draws request])) t.storage.interfaces.keys request body ↔
      ∀ x ∈ shown (stored host s (ops ++ [.request now draws request])) t.storage.interfaces.keys request,
        Clean x := by
  rw [runStored (Machine.runSnoc run ready)]
  exact answeredIntact answered

def benchLog : Store := ⟨RestErrors.benchLogged, 0⟩

def benchRename (hostname : Text) : Request := .editDevice (text "Bearer abc") (.ok ⟨some hostname, none⟩)

theorem stringsIntactBench :
    Intact (stored bench benchLog [.request 0 benchDraws (benchRename (text "lab")),
        .request 0 benchDraws (.device (text "Bearer abc"))]) [⟨1⟩, ⟨2⟩] (.device (text "Bearer abc"))
      (encodeDevice ⟨text "lab", 30000⟩) := by
  have first : (sections bench).enabled benchLog (.request 0 benchDraws (benchRename (text "lab"))) :=
    ⟨le_refl _, trivial⟩
  have run : (sections bench).Run benchLog [.request 0 benchDraws (benchRename (text "lab"))] _ :=
    .cons first (.nil _)
  have second : (sections bench).enabled
      ((sections bench).step benchLog (.request 0 benchDraws (benchRename (text "lab"))))
      (.request 0 benchDraws (.device (text "Bearer abc"))) := ⟨le_refl _, trivial⟩
  have intact := @stringsIntact bench benchLog _ _ 0 benchDraws (.device (text "Bearer abc"))
    (encodeDevice ⟨text "lab", 30000⟩) run second rfl
  exact intact.mpr (by decide)

theorem quoteBreaks : ¬ ∀ (host : Host) (s t : Store) (ops : List Operation) (now : Int) (draws : Draws)
    (request : Request) (body : Text), (sections host).Run s ops t →
    (sections host).enabled t (.request now draws request) →
    (respond host now draws request t.storage).1 = .ok body →
    Intact (stored host s (ops ++ [.request now draws request])) t.storage.interfaces.keys request body := by
  intro claim
  have ready : (sections bench).enabled benchLog (.request 0 benchDraws (benchRename [Json.quote])) :=
    ⟨le_refl _, trivial⟩
  have reply := claim bench benchLog benchLog [] 0 benchDraws (benchRename [Json.quote])
    (encodeDevice ⟨[Json.quote], 30000⟩) (.nil _) ready rfl
  have broken : ¬ Clean [Json.quote] := by decide
  exact broken ((deviceReads ⟨[Json.quote], 30000⟩).mp reply)

end StoredStrings
end PsipSwitch
