import Smply.Dfu.Sane

namespace Smply.Dfu

open Context

variable {m : Machine}

def transfers (state : UpdateState) : Bool :=
  isEarly state || state == .inspectingImages || state == .planning || state == .uploading ||
    state == .awaitingReconnect || isTerminal state

/-- An update that only uploads waits for a reconnect to go on with an upload, and for nothing else. -/
structure Transferring (state : UpdateState) (c : Context) : Prop where
  among : transfers state = true
  going : state = .uploading ∨ state = .awaitingReconnect → c.uploadInProgress = true

theorem Transferring.elsewhere {state : UpdateState} {c : Context} (among : transfers state = true)
    (other : state ≠ .uploading ∧ state ≠ .awaitingReconnect) : Transferring state c := by
  refine ⟨among, fun here => ?_⟩
  rcases here with here | here
  · exact absurd here other.1
  · exact absurd here other.2

section
variable {plan : UpdatePlan} {c : Context} {result : Step × Context}

theorem CheckPreconditions.transferring {step : Step} {after : Context}
    (check : CheckPreconditions plan c (some step, after)) : Transferring step.next after := by
  cases check
  exact .elsewhere rfl (by simp)

theorem Staged.transferring (outcome : Staged plan c result) (only : uploadOnly plan = true) :
    Transferring result.1.next result.2 := by
  have partly : uploadOnly plan ≠ false := by simp [only]
  cases outcome with
  | uploaded => exact .elsewhere rfl (by simp)
  | refused whole | reset whole | judged whole => exact absurd whole partly

theorem NextTarget.transferring (outcome : NextTarget plan c result) (only : uploadOnly plan = true) :
    Transferring result.1.next result.2 := by
  cases outcome with
  | next => exact .elsewhere rfl (by simp)
  | staged _ _ outcome => exact outcome.transferring only

theorem PlanFromState.transferring (outcome : PlanFromState plan c result) (only : uploadOnly plan = true) :
    Transferring result.1.next result.2 := by
  have partly : uploadOnly plan ≠ false := by simp [only]
  cases outcome with
  | afterReset _ whole => exact absurd whole partly
  | loop _ result outcome =>
    cases outcome with
    | stopped => exact .elsewhere rfl (by simp [failAt, fail])
    | refused _ _ _ _ check => exact check.transferring
    | upload => exact ⟨rfl, fun _ => rfl⟩
    | mark _ _ _ whole => exact absurd whole partly
    | staged _ _ _ outcome => exact outcome.transferring only

end

section
variable {m : Machine} {event : Event} {result : Step × Context}

theorem Row.transferring (row : Row m event result) (only : uploadOnly m.plan = true)
    (here : Transferring m.state m.context) : Transferring result.1.next result.2 := by
  have never (state : UpdateState) (at_ : m.state = state) (other : transfers state = false) : False := by
    have among := here.among
    rw [at_, other] at among
    cases among
  have waits (at_ : isWait m.state) : False := by
    rcases at_ with at_ | at_
    · exact never _ at_ rfl
    · exact never _ at_ rfl
  have confirms (at_ : isConfirmRound m.state) : False := by
    rcases at_ with at_ | at_
    · exact never _ at_ rfl
    · exact never _ at_ rfl
  cases row with
  | settled | idle => exact here
  | planned _ _ outcome | uploadedOnly _ only outcome => exact outcome.transferring only
  | uploaded _ whole => simp [only] at whole
  | suspended at_ => exact ⟨rfl, fun _ => here.going (.inl at_)⟩
  | resumed _ busy => exact ⟨rfl, fun _ => busy⟩
  | reconnected at_ free =>
    have busy := here.going (.inr at_)
    rw [free] at busy
    cases busy
  | polled at_ | timedOut at_ | waitDropped at_ | waitRepeated at_ => exact (waits at_).elim
  | confirmDropped at_ | confirmReread at_ | confirmRefused at_ => exact (confirms at_).elim
  | missing at_ | unmarked at_ | toMark at_ | marked at_ | remark at_ | forced at_ | rebooting at_ | dropped at_
  | booted at_ | applyRead at_ | commitRead at_ | approved at_ | confirmedNext at_ | confirmedLast at_
  | confirmVerified at_ | unconfirmed at_ => exact (never _ at_ rfl).elim
  | _ => exact .elsewhere rfl (by simp [fail])

end

theorem apply_transferring (only : uploadOnly m.plan = true) (here : Transferring m.state m.context)
    (event : Event) : Transferring (m.apply event).2.state (m.apply event).2.context := by
  have decided : Transferring (m.decided event).1.next (m.decided event).2 :=
    decided_cases m event (·.transferring only here) fun _ _ _ => .elsewhere rfl (by simp [fail])
  refine ⟨?_, ?_⟩
  · rw [apply_state]
    exact decided.among
  · rw [apply_state, apply_uploadInProgress]
    exact decided.going

/-- An update that only uploads changes nothing about what the device boots, whatever the tables show. -/
theorem uploadOnly_leaves_boot_alone (targets : List Target) (plan : UpdatePlan) (events : List Event)
    (mode : plan.mode = .uploadOnly) : ∀ t ∈ machineLog targets plan events,
      (t.output.effect ≠ .markForTest ∧ t.output.effect ≠ .reset ∧ t.output.effect ≠ .forceReset ∧
        t.output.effect ≠ .confirm) ∧
      t.after.state ≠ .markingForTest ∧ t.after.state ≠ .resetting ∧ t.after.state ≠ .confirming := by
  have only : uploadOnly plan = true := by simp [uploadOnly, mode]
  refine Systems.every_transition Machine.apply (Machine.new targets plan)
    (fun m => m.plan = plan ∧ Transferring m.state m.context) _ ⟨rfl, .elsewhere rfl (by simp [Machine.new])⟩ ?_ ?_ events
  · rintro m event ⟨same, here⟩
    exact ⟨same, apply_transferring (same ▸ only) here event⟩
  rintro m event ⟨same, here⟩
  have among := (apply_transferring (same ▸ only) here event).among
  have fit := apply_fits m event
  have never (state : UpdateState) (other : transfers state = false) : (m.apply event).2.state ≠ state := by
    intro at_
    rw [at_, other] at among
    cases among
  refine ⟨⟨fun mark => ?_, fun reset => ?_, fun force => ?_, fun confirm => ?_⟩,
    never _ rfl, never _ rfl, never _ rfl⟩
  · exact never _ rfl (fits_markForTest (mark ▸ fit))
  · exact never _ rfl (fits_reset (.inl (reset ▸ fit)))
  · exact never _ rfl (fits_reset (.inr (force ▸ fit)))
  · exact never _ rfl (fits_confirm (confirm ▸ fit))

/-- The image is already marked for the next boot: nothing is left to upload, and the mark stays. -/
theorem uploadOnly_leaves_pending : (machineLog [{ image := 0, hash := shortHash 1 }] { mode := .uploadOnly }
        (opening [active 0 9 true, waiting 0 1 true] ++ [{ kind := .continue }])).getLast?.map (·.after.state) =
      some .completed ∧
    ∀ t ∈ machineLog [{ image := 0, hash := shortHash 1 }] { mode := .uploadOnly }
        (opening [active 0 9 true, waiting 0 1 true] ++ [{ kind := .continue }]),
      (t.output.effect ≠ .markForTest ∧ t.output.effect ≠ .reset ∧ t.output.effect ≠ .forceReset ∧
        t.output.effect ≠ .confirm) ∧
      t.after.state ≠ .markingForTest ∧ t.after.state ≠ .resetting ∧ t.after.state ≠ .confirming :=
  ⟨by decide +kernel, uploadOnly_leaves_boot_alone _ _ _ rfl⟩

def setsState (state : UpdateState) : Bool :=
  state == .markingForTest || state == .awaitingConfirmation || state == .confirming || state == .verifyingConfirmed

/-- Without a set-state command nothing is marked and no confirm is owed, a wait for the device included. -/
structure Unset (state : UpdateState) (c : Context) : Prop where
  among : setsState state = false
  quiet : state = .awaitingDeviceApply → c.swapScheduled = false

theorem Unset.elsewhere {state : UpdateState} {c : Context} (among : setsState state = false)
    (other : state ≠ .awaitingDeviceApply) : Unset state c := ⟨among, fun here => absurd here other⟩

section
variable {plan : UpdatePlan} {c : Context} {result : Step × Context}

theorem Judged.unset (judged : Judged c result) (shut : ¬ isWindow result.1.next)
    (quiet : result.1.next = .awaitingDeviceApply → result.2.swapScheduled = false) :
    Unset result.1.next result.2 := by
  refine ⟨?_, quiet⟩
  rcases judged.next with next | next | next | next | window
  · rw [next]
    rfl
  · rw [next]
    rfl
  · rw [next]
    rfl
  · rw [next]
    rfl
  · exact absurd window shut

theorem AwaitCommit.unset (outcome : AwaitCommit c false c.targets result) : Unset result.1.next result.2 := by
  refine outcome.judged.unset outcome.shut ?_
  cases outcome <;> simp [failAt, fail]

theorem AwaitDevice.unset (outcome : AwaitDevice plan c false c.targets result) (quiet : c.swapScheduled = false) :
    Unset result.1.next result.2 := by
  have awaited := outcome.awaited
  refine outcome.judged.unset (fun window => ?_) fun _ => awaited.swap.trans quiet
  have owed := awaited.owed window
  rw [quiet] at owed
  cases owed

theorem owesConfirm_withoutSetState (target : Target) (unsettable : withoutSetState c = true) :
    owesConfirm c target = false := by
  simp [owesConfirm, unsettable]

theorem InspectBoot.unset (outcome : InspectBoot plan c result) (unsettable : withoutSetState c = true) :
    Unset result.1.next result.2 := by
  cases outcome with
  | inactive | stopped => exact .elsewhere rfl (by simp [failAt, fail])
  | running _ _ _ outcome =>
    refine outcome.unset ?_
    show (c.targets.any fun target => owesConfirm c target.toTarget) = false
    exact List.any_eq_false.mpr fun target _ => by simp [owesConfirm_withoutSetState target.toTarget unsettable]

theorem Planned.unset (outcome : Planned plan c result) (unsettable : withoutSetState c = true) :
    Unset result.1.next result.2 := by
  have still {at_ : Context} (moves : Moves plan c at_) : withoutSetState at_ = true := by
    rw [withoutSetState, moves.mode]
    exact unsettable
  cases outcome with
  | stopped => exact .elsewhere rfl (by simp [fail])
  | mark moves _ _ settable =>
    rw [still moves] at settable
    cases settable
  | judged moves outcome => exact outcome.unset (still moves)
  | _ => exact .elsewhere rfl (by simp)

end

section
variable {event : Event} {result : Step × Context} (row : Row m event result)
include row

theorem Row.unset_kept (unsettable : withoutSetState m.context = true) (here : Unset m.state m.context) :
    Unset result.1.next result.2 := by
  have never (state : UpdateState) (at_ : m.state = state) (sets : setsState state = true) : False := by
    have among := here.among
    rw [at_, sets] at among
    cases among
  have confirms (at_ : isConfirmRound m.state) : False := by
    rcases at_ with at_ | at_
    · exact never _ at_ rfl
    · exact never _ at_ rfl
  cases row with
  | settled | idle | waitRepeated => exact here
  | polled => exact ⟨here.among, here.quiet⟩
  | planned _ _ outcome | uploadedOnly _ _ outcome | unmarked _ _ _ _ outcome => exact outcome.planned.unset unsettable
  | toMark _ _ _ settable => exact absurd (unsettable.symm.trans settable) (by simp)
  | booted _ _ _ outcome => exact outcome.unset unsettable
  | applyRead at_ _ _ outcome => exact outcome.unset (here.quiet at_)
  | commitRead _ _ _ outcome => exact outcome.unset
  | marked at_ | approved at_ | confirmedNext at_ | confirmedLast at_ | confirmVerified at_ | unconfirmed at_ =>
    exact (never _ at_ rfl).elim
  | confirmDropped at_ | confirmReread at_ | confirmRefused at_ => exact (confirms at_).elim
  | _ => exact .elsewhere rfl (by simp [fail])

theorem Row.early_unset (early : isEarly m.state = true) : Unset result.1.next result.2 := by
  have late (state : UpdateState) (at_ : m.state = state) (late : isEarly state = false) : False := by
    rw [at_, late] at early
    cases early
  have still : Unset m.state m.context := by
    cases at_ : m.state <;> first | exact (late _ at_ rfl).elim | exact .elsewhere rfl nofun
  cases row with
  | settled | idle => exact still
  | stopped | cancelled | started | parameters | bootloader | timedOut | waitDropped | confirmDropped
  | confirmReread | confirmRefused => exact .elsewhere rfl nofun
  | polled at_ | waitRepeated at_ => rcases at_ with at_ | at_ <;> exact (late _ at_ rfl).elim
  | _ => exact (late _ (by assumption) rfl).elim

end

theorem apply_unset (here : withoutSetState m.context = true → Unset m.state m.context) (event : Event)
    (unsettable : withoutSetState (m.apply event).2.context = true) :
    Unset (m.apply event).2.state (m.apply event).2.context := by
  have decided : Unset (m.decided event).1.next (m.decided event).2 := by
    have before (late : isEarly m.state = false) : withoutSetState m.context = true := by
      rw [withoutSetState, (apply_mode m event late).2] at unsettable
      exact unsettable
    refine decided_cases m event (fun row => ?_) fun _ _ _ => .elsewhere rfl (by rintro ⟨⟩)
    cases early : isEarly m.state
    · exact row.unset_kept (before early) (here (before early))
    · exact row.early_unset early
  refine ⟨?_, ?_⟩
  · rw [apply_state]
    exact decided.among
  · rw [apply_state, apply_swapScheduled]
    exact decided.quiet

/-- A device without a set-state command is never sent one, and the application is never asked about it. -/
theorem directXip_never_sets_state (targets : List Target) (plan : UpdatePlan) (events : List Event)
    (mode : (runMachine targets plan events).report.bootloaderMode = .directXip) :
    ∀ t ∈ machineLog targets plan events,
      t.output.effect ≠ .markForTest ∧ t.output.effect ≠ .confirm ∧ t.output.effect ≠ .requestConfirmation := by
  have unset := Systems.every_transition Machine.apply (Machine.new targets plan)
    (fun m => withoutSetState m.context = true → Unset m.state m.context)
    (fun t => fits t.after.state t.output.effect = true ∧
      (withoutSetState t.after.context = true → Unset t.after.state t.after.context))
    (fun _ => .elsewhere rfl nofun) (fun _ event here => apply_unset here event)
    (fun m event here => ⟨apply_fits m event, apply_unset here event⟩) events
  intro t member
  obtain ⟨fit, here⟩ := unset t member
  -- Such an effect leads into a state past the bootloader query, where the mode is the one the run ends with.
  have never (state : UpdateState) (late : isEarly state = false) (sets : setsState state = true) :
      t.after.state ≠ state := by
    intro at_
    have settled := run_mode targets plan events t member (by rw [at_, late])
    have among := (here (by simp [withoutSetState, settled, mode])).among
    rw [at_, sets] at among
    cases among
  refine ⟨fun mark => ?_, fun confirm => ?_, fun asks => ?_⟩
  · exact never _ rfl rfl (fits_markForTest (mark ▸ fit))
  · exact never _ rfl rfl (fits_confirm (confirm ▸ fit))
  · exact never _ rfl rfl (fits_requestConfirmation (asks ▸ fit))

def directXipRun : List Event :=
  [{ kind := .start }, { kind := .parametersUnavailable },
    { kind := .bootloaderRead, bootloader := { mode := .directXip } }, readBack [active 0 9 true, waiting 0 1 false],
    { kind := .continue }, { kind := .resetAccepted }, { kind := .disconnected }, { kind := .reconnected },
    readBack [active 0 1 false]]

theorem directXip_never_sets_state_staged :
    (runMachine [{ image := 0, hash := shortHash 1 }] { allowNoRevert := true } directXipRun).state = .completed ∧
      ∀ t ∈ machineLog [{ image := 0, hash := shortHash 1 }] { allowNoRevert := true } directXipRun,
        t.output.effect ≠ .markForTest ∧ t.output.effect ≠ .confirm ∧ t.output.effect ≠ .requestConfirmation :=
  ⟨by decide +kernel, directXip_never_sets_state _ _ _ (by decide +kernel)⟩

end Smply.Dfu
