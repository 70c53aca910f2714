import PsipSwitch.Learning
import PsipSwitch.RestErrors

/-! Timeouts on their way from a request into the MAC table: seconds, milliseconds,
nanoseconds, and the sum with a time of the clock. Nothing checks their range on the
way, and the conversions are exact for some values only. -/
namespace PsipSwitch
namespace MacTimeout
open NetworkHandle NetworkSwitch SharedStorage RestHandle Learning

def InRange (n : Int) : Prop := -9223372036854775808 ≤ n ∧ n < 9223372036854775808

structure Exact (n now : Int) : Prop where
  seconds : InRange (n * 1000)
  span : InRange (milliseconds n * 1000000)
  sum : InRange (now + nanoseconds (milliseconds n))

structure Meant (host : Host) (s : SharedStorage) (n now : Int) : Prop where
  reported : ∀ authorization clock draws, Authorised authorization s →
    (respond host clock draws (.device authorization) s).1 = .ok (encodeJsonObject (.ofList [
      (text "hostname", encodeJsonString s.deviceInfo.hostname), (text "timeout", encodeJsonLong n)]))
  lasts : ∀ me packet mac, s.Registered me → Learns host me now packet s mac →
    ∃ entry, (receive host me now packet s).storage.macTable.find? mac = some entry ∧
      ∀ u, now ≤ u → u < 1000000000000000000 → (entry.expiration.expired u = true ↔ now + n * 1000000000 < u)
  exact : Exact n now

def Representable (n now : Int) : Prop := -9223372036 ≤ n ∧ now + n * 1000000000 < 9223372036854775808

theorem exactIff {n now : Int} (past : 0 ≤ now) : Exact n now ↔ Representable n now := by
  constructor
  · intro exact
    have ms : milliseconds n = n * 1000 := int64Exact exact.seconds.1 exact.seconds.2
    have ns : nanoseconds (milliseconds n) = milliseconds n * 1000000 := int64Exact exact.span.1 exact.span.2
    have low := exact.span.1
    have high := exact.sum.2
    rw [ns] at high
    rw [ms] at low high
    unfold Representable
    omega
  · rintro ⟨low, high⟩
    have seconds : InRange (n * 1000) := by
      unfold InRange
      omega
    have ms : milliseconds n = n * 1000 := int64Exact seconds.1 seconds.2
    have span : InRange (milliseconds n * 1000000) := by
      rw [ms]
      unfold InRange
      omega
    have ns : nanoseconds (milliseconds n) = milliseconds n * 1000000 := int64Exact span.1 span.2
    refine ⟨seconds, span, ?_⟩
    rw [ns, ms]
    unfold InRange
    omega

theorem expiredExact {n now u : Int} (exact : Exact n now) :
    (Timeout.mk now (milliseconds n)).expired u = true ↔ now + n * 1000000000 < u := by
  have ms : milliseconds n = n * 1000 := int64Exact exact.seconds.1 exact.seconds.2
  have ns : nanoseconds (milliseconds n) = milliseconds n * 1000000 := int64Exact exact.span.1 exact.span.2
  have sum : timePlus now (milliseconds n) = now + milliseconds n * 1000000 := by
    rw [timePlus, ns]
    exact int64Exact (ns ▸ exact.sum.1) (ns ▸ exact.sum.2)
  simp only [Timeout.expired, decide_eq_true_eq]
  rw [sum, ms]
  omega

theorem meantIff {host : Host} {s : SharedStorage} {n now : Int} (past : 0 ≤ now)
    (set : s.deviceInfo.defaultMacTimeout = milliseconds n) : Meant host s n now ↔ Representable n now := by
  rw [← exactIff past]
  constructor
  · exact Meant.exact
  · intro exact
    have ms : milliseconds n = n * 1000 := int64Exact exact.seconds.1 exact.seconds.2
    refine ⟨?_, ?_, exact⟩
    · intro authorization clock draws authorised
      have seconds : (milliseconds n).tdiv 1000 = n := by
        rw [ms]
        exact Int.mul_tdiv_cancel n (by decide)
      simp only [respond, handle, execDevice authorised, encodeDevice, set, seconds]
    · intro me packet mac registered learns
      refine ⟨⟨me, ⟨now, milliseconds n⟩⟩, ?_, fun u _ _ => expiredExact exact⟩
      rw [receiveEntry host now packet registered, if_pos learns, set]

def Retimes (s : SharedStorage) : Operation → Prop
  | .maintain (.applyMac _) | .maintain (.setMacTimeout _) => True
  | .request _ _ request => ∃ config, edits request s config ∧ config.timeout ≠ none
  | _ => False

def timed (host : Host) : Machine Store Operation := (session host).restrict (fun s op => ¬ Retimes s.storage op)

theorem stepTimed {host : Host} {s : Store} {op : Operation} (ready : (timed host).enabled s op) :
    ((timed host).step s op).storage.deviceInfo.defaultMacTimeout = s.storage.deviceInfo.defaultMacTimeout := by
  cases op with
  | reset => exact absurd trivial ready.1.2
  | receive me now packet =>
    obtain ⟨_, _, _, same⟩ := receiveFrame host now packet ready.1.1.2
    change (receive host me now packet s.storage).storage.deviceInfo.defaultMacTimeout = _
    rw [same]
  | request now draws request =>
    change (respond host now draws request s.storage).2.deviceInfo.defaultMacTimeout = _
    by_cases edit : ∃ config, edits request s.storage config
    · obtain ⟨config, edit⟩ := edit
      have silent : config.timeout = none := by
        by_contra some_
        exact ready.2 ⟨config, edit, some_⟩
      rw [respondEdits edit]
      simp only [editDevice, silent]
    · rw [respondDevice host now draws (fun config edit' => edit ⟨config, edit'⟩)]
  | maintain m =>
    cases m with
    | applyMac newTimeout => exact absurd trivial ready.2
    | setMacTimeout newTimeout => exact absurd trivial ready.2
    | _ => rfl
  | _ => rfl

theorem timeoutMeant {host : Host} {s t : Store} {ops : List Operation} {clock now n : Int} {draws : Draws}
    {authorization : Text} {config : DeviceConfig} (authorised : Authorised authorization s.storage)
    (asked : config.timeout = some n)
    (run : (timed host).Run ((session host).step s (.request clock draws (.editDevice authorization (.ok config)))) ops t)
    (past : 0 ≤ now) : Meant host t.storage n now ↔ Representable n now := by
  refine meantIff past ?_
  have edit : edits (.editDevice authorization (.ok config)) s.storage config := ⟨authorization, rfl, authorised⟩
  have set : ((session host).step s (.request clock draws
      (.editDevice authorization (.ok config)))).storage.deviceInfo.defaultMacTimeout = milliseconds n := by
    change (respond host clock draws (.editDevice authorization (.ok config)) s.storage).2.deviceInfo.defaultMacTimeout = _
    rw [respondEdits edit]
    simp only [editDevice, asked]
  refine Machine.runInvariant (P := fun s => s.storage.deviceInfo.defaultMacTimeout = milliseconds n) ?_ run set
  intro s op ready before
  rw [stepTimed ready, before]

def benchOpen : Store := ⟨RestErrors.benchLogged, 0⟩

def benchTimed (n : Int) : Store := (session bench).step benchOpen
  (.request 0 benchDraws (.editDevice (text "Bearer abc") (.ok ⟨none, some n⟩)))

theorem benchAuthorised : Authorised (text "Bearer abc") benchOpen.storage := rfl

theorem timeoutMeantBench : Meant bench (benchTimed 600).storage 600 5 :=
  (timeoutMeant benchAuthorised rfl (.nil _) (by decide)).mpr ⟨by decide, by decide⟩

/- 9223372037 seconds: an entry learned at 0 has expired at 0. -/
theorem timeoutWraps : ¬ ∀ (host : Host) (s t : Store) (ops : List Operation) (clock now n : Int) (draws : Draws)
    (authorization : Text) (config : DeviceConfig), Authorised authorization s.storage → config.timeout = some n →
    InRange n → (timed host).Run ((session host).step s (.request clock draws (.editDevice authorization (.ok config))))
      ops t → 0 ≤ now → now < 1000000000000000000 → Meant host t.storage n now := by
  intro claim
  have meant := claim bench benchOpen (benchTimed 9223372037) [] 0 0 9223372037 benchDraws (text "Bearer abc")
    ⟨none, some 9223372037⟩ benchAuthorised rfl ⟨by decide, by decide⟩ (.nil _) (by decide) (by decide)
  have learns : Learns bench ⟨1⟩ 0 (benchFrame 9 7) (benchTimed 9223372037).storage 9 := by decide
  obtain ⟨entry, found, lasts⟩ := meant.lasts ⟨1⟩ (benchFrame 9 7) 9 (by decide) learns
  have short : (receive bench ⟨1⟩ 0 (benchFrame 9 7) (benchTimed 9223372037).storage).storage.macTable.find? 9 =
      some ⟨⟨1⟩, ⟨0, 9223372037000⟩⟩ := by decide
  cases Option.some.inj (short.symm.trans found)
  have late := (lasts 0 (by decide) (by decide)).mp (by decide)
  exact absurd late (by decide)

end MacTimeout
end PsipSwitch
