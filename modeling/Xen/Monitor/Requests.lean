import Xen.Monitor.Msr

/-!
# A monitor request as a whole (`monitor_verified.c`)

- `Bracketed` follows a log through `domain_pause` and `domain_unpause`: pauses are balanced, and writes happen while
  the domain is paused.
- `withStateOf` puts the state of the requested event back; `RequestOk` says that a request which fails changes nothing,
  that its log is bracketed, and that it only changes the state of its event.
- Every branch either refuses, or writes between a pause and an unpause (`requestOk_refused`, `requestOk_done`); the
  branches together are `archMonitorDomctlEvent_requestOk`.
-/

namespace Xen.Monitor

open Lib

/-! ## Pauses -/

/-- Is the domain paused after the event? -/
def pausedAfter (paused : Bool) : Event → Bool
  | .domainPause => true
  | .domainUnpause => false
  | _ => paused

/-- A pause comes while the domain runs; an unpause and every write come while it is paused. -/
def InPause (paused : Bool) : Event → Prop
  | .domainPause => paused = false
  | .domainUnpause | .write | .writeMask _ | .setBit .. => paused = true
  | .hvmUpdateGuestCr | .hvmSetIcebpInterception _ => True

/-- The pauses of the log are balanced, and every write lies between a pause and its unpause. -/
def Bracketed (log : List Event) : Prop :=
  Along InPause pausedAfter false log ∧ log.foldl pausedAfter false = false

/-- What is written or called between a pause and an unpause. -/
def Inner : Event → Prop
  | .domainPause | .domainUnpause => False
  | _ => True

theorem along_inner {inner : List Event} (h : ∀ e ∈ inner, Inner e) :
    Along InPause pausedAfter true inner ∧ inner.foldl pausedAfter true = true := by
  induction inner with
  | nil => exact ⟨trivial, rfl⟩
  | cons e inner ih =>
    obtain ⟨he, hinner⟩ := List.forall_mem_cons.mp h
    have hpaused : InPause true e ∧ pausedAfter true e = true := by
      cases e with
      | domainPause | domainUnpause => exact he.elim
      | write | writeMask | setBit => exact ⟨rfl, rfl⟩
      | hvmUpdateGuestCr | hvmSetIcebpInterception => exact ⟨trivial, rfl⟩
    rw [along_cons, List.foldl_cons, hpaused.2]
    exact ⟨⟨hpaused.1, (ih hinner).1⟩, (ih hinner).2⟩

/-- A pause, anything that is no pause, and an unpause. -/
theorem bracketed_inner (inner : List Event) (h : ∀ e ∈ inner, Inner e) :
    Bracketed (.domainPause :: (inner ++ [.domainUnpause])) := by
  obtain ⟨halong, hend⟩ := along_inner h
  unfold Bracketed
  rw [along_cons, List.foldl_cons, pausedAfter, along_append, List.foldl_append, hend]
  exact ⟨⟨rfl, halong, rfl, trivial⟩, rfl⟩

/-! ## The state of an event -/

/-- `d'`, with the state of the requested event as it is in `d`. -/
def withStateOf (mop : MonitorOp) (d d' : Domain) : Domain :=
  match mop.event with
  | 0 => { d' with monitor :=
    { d'.monitor with
      writeCtrlregMask := d.monitor.writeCtrlregMask
      writeCtrlregSync := d.monitor.writeCtrlregSync
      writeCtrlregOnchangeonly := d.monitor.writeCtrlregOnchangeonly
      writeCtrlregEnabled := d.monitor.writeCtrlregEnabled } }
  | 1 => { d' with bitmap := d.bitmap }
  | 2 => { d' with monitor := { d'.monitor with singlestepEnabled := d.monitor.singlestepEnabled } }
  | 3 => { d' with monitor := { d'.monitor with softwareBreakpointEnabled := d.monitor.softwareBreakpointEnabled } }
  | 5 => { d' with monitor :=
    { d'.monitor with
      debugExceptionEnabled := d.monitor.debugExceptionEnabled
      debugExceptionSync := d.monitor.debugExceptionSync } }
  | 6 => { d' with monitor := { d'.monitor with cpuidEnabled := d.monitor.cpuidEnabled } }
  | 9 => { d' with monitor := { d'.monitor with descriptorAccessEnabled := d.monitor.descriptorAccessEnabled } }
  | 11 => { d' with monitor := { d'.monitor with inguestPagefaultDisabled := d.monitor.inguestPagefaultDisabled } }
  | 12 => { d' with monitor := { d'.monitor with emulUnimplementedEnabled := d.monitor.emulUnimplementedEnabled } }
  | _ => d'

/-- **What every request owes**, whatever it returns. -/
structure RequestOk (env : Env) (mop : MonitorOp) (d : Domain) (r : Logged Event (Int × Domain)) : Prop where
  atomic : r.val.1 ≠ 0 → r.val.2 = d
  bracketed : Bracketed r.log
  state : withStateOf mop d r.val.2 = d
  mask : ∀ i, i ≠ mop.movToCrIndex → r.val.2.monitor.writeCtrlregMask i = d.monitor.writeCtrlregMask i
  bits : ∀ b nr, ¬BitOf env mop.movToMsr b nr → r.val.2.bit b nr = d.bit b nr
  bounds : r.Only fun e => ∀ i, e = .writeMask i → 0 ≤ i ∧ i < writeCtrlregMaskSize

section Branches

variable {env : Env} {mop : MonitorOp} {d d' : Domain} {requested : Bool}

theorem withStateOf_self (mop : MonitorOp) (d : Domain) : withStateOf mop d d = d := by
  unfold withStateOf
  split <;> rfl

/-- A request that is refused, possibly after a look at the paused domain. -/
theorem requestOk_refused (ret : Int) {log : List Event} (h : log = [] ∨ log = [.domainPause, .domainUnpause]) :
    RequestOk env mop d ⟨(ret, d), log⟩ := by
  refine ⟨fun _ => rfl, ?_, withStateOf_self mop d, fun _ _ => rfl, fun _ _ _ => rfl, ?_⟩
  · rcases h with rfl | rfl
    · exact ⟨trivial, rfl⟩
    · exact bracketed_inner [] fun _ h => absurd h List.not_mem_nil
  · intro e he i hi
    subst hi
    rcases h with rfl | rfl
    · cases he
    · simp at he

/-- A request that is carried out, with its writes between the pause and the unpause. -/
theorem requestOk_done (inner : List Event) (hinner : ∀ e ∈ inner, Inner e) (hstate : withStateOf mop d d' = d)
    (hmask : ∀ i, i ≠ mop.movToCrIndex → d'.monitor.writeCtrlregMask i = d.monitor.writeCtrlregMask i)
    (hbits : ∀ b nr, ¬BitOf env mop.movToMsr b nr → d'.bit b nr = d.bit b nr)
    (hbounds : ∀ i, Event.writeMask i ∈ inner → 0 ≤ i ∧ i < writeCtrlregMaskSize) :
    RequestOk env mop d ⟨(0, d'), .domainPause :: (inner ++ [.domainUnpause])⟩ := by
  refine ⟨fun h => absurd rfl h, bracketed_inner inner hinner, hstate, hmask, hbits, ?_⟩
  intro e he i hi
  subst hi
  simp only [List.mem_cons, List.mem_append, List.not_mem_nil, or_false, reduceCtorEq, false_or] at he
  exact hbounds i he

/-! ## The branches -/

/-- The test every branch begins with. -/
theorem requestOk_status {old : Bool} {rest : Logged Event (Int × Domain)} (h : RequestOk env mop d rest) :
    RequestOk env mop d (if !(old == requested) then pure (-eexist, d) else rest) := by
  split
  · exact requestOk_refused _ (Or.inl rfl)
  · exact h

/-- A flag is refused, or written between a pause and an unpause. -/
theorem toggle_requestOk {get : ArchMonitor → Int} {put : ArchMonitor → Int → ArchMonitor}
    (hput : ∀ v, withStateOf mop d { d with monitor := put d.monitor v } = d)
    (hmask : ∀ v, (put d.monitor v).writeCtrlregMask = d.monitor.writeCtrlregMask) :
    RequestOk env mop d (toggle get put d requested) := by
  apply requestOk_status
  refine requestOk_done [.write] (by simp [Inner]) (hput _) (fun i _ => ?_) (fun _ _ _ => rfl) (by simp)
  rw [hmask]

theorem descAccess_requestOk (hevent : mop.event = 9) : RequestOk env mop d (descAccess env d requested) := by
  apply requestOk_status
  cases env.setDescriptorAccessExiting with
  | false => exact requestOk_refused _ (Or.inl rfl)
  | true =>
    exact requestOk_done [.write] (by simp [Inner]) (by simp [withStateOf, hevent]) (fun _ _ => rfl)
      (fun _ _ _ => rfl) (by simp)

theorem debugException_requestOk (hevent : mop.event = 5) : RequestOk env mop d (debugException mop d requested) := by
  apply requestOk_status
  exact requestOk_done [.write, .write, .hvmSetIcebpInterception requested] (by simp [Inner])
    (by simp [withStateOf, hevent]) (fun _ _ => rfl) (fun _ _ _ => rfl) (by simp)

theorem writeCtrlreg_requestOk (hevent : mop.event = 0) (hindex : 0 ≤ mop.movToCrIndex) :
    RequestOk env mop d (writeCtrlreg env mop d requested) := by
  by_cases hinvalid : InvalidCtrlreg mop
  · rw [writeCtrlreg_invalid hinvalid]
    exact requestOk_refused _ (Or.inl rfl)
  by_cases hstatus : decide (d.monitor.writeCtrlregEnabled &&& ctrlregBitmask env mop ≠ 0) = requested
  · rw [writeCtrlreg_same hinvalid hstatus]
    have hstate : withStateOf mop d { d with monitor := putCtrlreg env mop requested d.monitor } = d := by
      simp [withStateOf, hevent, putCtrlreg]
    refine requestOk_done (ctrlregWrites mop) (fun e he => ?_) hstate (fun i hi => Function.update_of_ne hi ..)
      (fun _ _ _ => rfl) fun i hi => ?_
    · rw [mem_ctrlregWrites] at he
      rcases he with rfl | rfl | ⟨rfl, -⟩ <;> simp [Inner]
    · simp only [mem_ctrlregWrites, reduceCtorEq, Event.writeMask.injEq, false_or, false_and, or_false] at hi
      subst hi
      exact ⟨hindex, Int.not_le.mp fun hsize => hinvalid (Or.inl hsize)⟩
  · rw [writeCtrlreg_differs hinvalid hstatus]
    exact requestOk_refused _ (Or.inl rfl)

/-- A helper of the MSR event, called between the pause and the unpause, refuses or writes to the bitmap of the MSR. -/
theorem msrHelper_requestOk (hevent : mop.event = 1) {r : Logged Event (Int × Domain)}
    (h : (∃ ret, r = pure (ret, d)) ∨ ∃ b index, monitorBitmapForMsr mop.movToMsr = some (b, index) ∧
      (r = enabled env d (mop.movToMsrOnchangeonly ≠ 0) b index ∨ r = disabled d b index)) :
    RequestOk env mop d ⟨r.val, .domainPause :: (r.log ++ [.domainUnpause])⟩ := by
  rcases h with ⟨ret, rfl⟩ | ⟨b, index, hs, rfl | rfl⟩
  · exact requestOk_refused _ (Or.inr rfl)
  · exact requestOk_done _ (by simp [enabled, Inner]) (by simp [withStateOf, hevent, Domain.setBit])
      (fun _ _ => rfl) (fun _ _ => enabled_others hs) (by simp [enabled])
  · exact requestOk_done _ (by simp [disabled, Inner]) (by simp [withStateOf, hevent, Domain.setBit])
      (fun _ _ => rfl) (fun _ _ => disabled_others env hs) (by simp [disabled])

/-- The MSR event pauses first. -/
theorem movToMsr_requestOk (hevent : mop.event = 1) : RequestOk env mop d (movToMsr env mop d requested) := by
  by_cases hstatus : env.monitoredMsr d mop.movToMsr = requested
  · have hrun : movToMsr env mop d requested =
        let r := if requested then monitorEnableMsr env d mop.movToMsr (mop.movToMsrOnchangeonly ≠ 0)
          else monitorDisableMsr env (env.behindMsr d mop) d mop.movToMsr
        ⟨r.val, .domainPause :: (r.log ++ [.domainUnpause])⟩ := by
      ext1 <;> simp [movToMsr, hstatus]
    rw [hrun]
    apply msrHelper_requestOk hevent
    split
    · rcases monitorEnableMsr_ways env d mop.movToMsr (mop.movToMsrOnchangeonly ≠ 0) with
        ⟨-, hr⟩ | ⟨-, hr⟩ | ⟨b, index, hs, -, hr⟩
      · exact Or.inl ⟨_, hr⟩
      · exact Or.inl ⟨_, hr⟩
      · exact Or.inr ⟨b, index, hs, Or.inl hr⟩
    · rcases monitorDisableMsr_ways env (env.behindMsr d mop) d mop.movToMsr with
        ⟨-, hr⟩ | ⟨-, hr⟩ | ⟨b, index, hs, -, hr⟩
      · exact Or.inl ⟨_, hr⟩
      · exact Or.inl ⟨_, hr⟩
      · exact Or.inr ⟨b, index, select_readMsr hs, Or.inr hr⟩
  · have hrefused : movToMsr env mop d requested = ⟨(-eexist, d), [.domainPause, .domainUnpause]⟩ := by
      ext1 <;> simp [movToMsr, hstatus]
    rw [hrefused]
    exact requestOk_refused _ (Or.inr rfl)

end Branches

/-- **Monitor requests are atomic**, paused while they write, and keep to the state of their event. -/
theorem archMonitorDomctlEvent_requestOk (env : Env) (d : Domain) (mop : MonitorOp)
    (hindex : mop.event = 0 → 0 ≤ mop.movToCrIndex) : RequestOk env mop d (archMonitorDomctlEvent env d mop) := by
  unfold archMonitorDomctlEvent
  split
  case h_1 hevent => exact writeCtrlreg_requestOk hevent (hindex hevent)
  case h_2 hevent => exact movToMsr_requestOk hevent
  case h_3 hevent => exact toggle_requestOk (fun _ => by simp [withStateOf, hevent]) fun _ => rfl
  case h_4 hevent => exact toggle_requestOk (fun _ => by simp [withStateOf, hevent]) fun _ => rfl
  case h_5 hevent => exact debugException_requestOk hevent
  case h_6 hevent => exact toggle_requestOk (fun _ => by simp [withStateOf, hevent]) fun _ => rfl
  case h_7 hevent => exact descAccess_requestOk hevent
  case h_8 hevent => exact toggle_requestOk (fun _ => by simp [withStateOf, hevent]) fun _ => rfl
  case h_9 hevent => exact toggle_requestOk (fun _ => by simp [withStateOf, hevent]) fun _ => rfl
  case h_10 => exact requestOk_refused _ (Or.inl rfl)

/-- A request for CR4 with a mask. -/
def cr4Request : MonitorOp := ⟨opEnable, 0, 0, 0, 2, 1, 0, 0x20, 0, 0, 0⟩

theorem cr4Request_requestOk : RequestOk msrEnv cr4Request emptyBitmaps
    (archMonitorDomctlEvent msrEnv emptyBitmaps cr4Request) :=
  archMonitorDomctlEvent_requestOk msrEnv emptyBitmaps cr4Request fun _ => by decide

end Xen.Monitor
