import Smply.Dfu.Sane

namespace Smply.Dfu

open List Context

variable {c : Context}

def swaps (mode : McubootMode) : Bool :=
  mode == .unknown || mode == .swapUsingScratch || mode == .swapUsingMove || mode == .swapUsingOffset

theorem withoutSetState_of_swaps (mode : swaps c.report.bootloaderMode = true) : withoutSetState c = false := by
  unfold withoutSetState
  cases found : c.report.bootloaderMode <;> first | rfl | (rw [found] at mode; cases mode)

theorem modeRefusal_of_swaps (plan : UpdatePlan) (mode : swaps c.report.bootloaderMode = true) :
    modeRefusal plan c = none := by
  unfold modeRefusal
  dsimp only
  cases found : c.report.bootloaderMode <;> first | rfl | (rw [found] at mode; cases mode)

theorem checkPreconditions_passes (plan : UpdatePlan) (mode : swaps c.report.bootloaderMode = true)
    (newer : c.noDowngrade = false) : c.checkPreconditions plan = (none, { c with preconditionsChecked := true }) := by
  have allowed : modeRefusal plan { c with preconditionsChecked := true } = none := modeRefusal_of_swaps plan mode
  have kept : isDowngrade plan { c with preconditionsChecked := true } = false := by
    unfold isDowngrade
    rw [show ({ c with preconditionsChecked := true } : Context).noDowngrade = c.noDowngrade from rfl, newer]
    simp
  unfold checkPreconditions
  cases checked : c.preconditionsChecked
  · simp only [Bool.false_eq_true, ↓reduceIte, allowed, kept]
  · simp only [↓reduceIte]
    rw [← checked]

theorem decided_decide {m : Machine} (sane : Sane m) {event : Event}
    (complete : carriesTable event.kind = true → event.state.isSome = true) :
    m.decided event = m.context.decide m.state event m.plan := by
  have some_ : m.context.targets.isEmpty = false := by
    rw [isEmpty_eq_false_iff]
    exact sane.whole
  have inside : (!needsCurrent m.state || decide (m.context.current < m.context.targets.length)) = true := by
    cases needs : needsCurrent m.state
    · rfl
    · simp [sane.placed.inside (.inl needs)]
  have whole : (!carriesTable event.kind || event.state.isSome) = true := by
    cases carries : carriesTable event.kind
    · rfl
    · simp [complete carries]
  rw [decided_eq sane, Machine.guardedDecide]
  simp [some_, inside, whole]

section
variable {plan : UpdatePlan}

theorem awaitCommitLoop_applied (c : Context) (committing : Bool) (index : Nat) (targets : List Image)
    (applied : ∀ target ∈ targets, target.commit = .device →
      applyOf c target.toTarget = .committed ∨ applyOf c target.toTarget = .onTrial) :
    ∃ images, c.awaitCommitLoop committing index targets =
      (if committing || targets.any (fun target => target.commit == .device && applyOf c target.toTarget == .onTrial) then
        { next := .awaitingDeviceCommit, effect := .awaitApply } else { next := .completed, effect := .finish },
      c.withImages images) := by
  induction targets generalizing c committing index with
  | nil =>
    refine ⟨c.report.images, ?_⟩
    cases committing <;> rfl
  | cons target rest ih =>
    have later (images : List ImageReport) : ∀ target ∈ rest, target.commit = .device →
        applyOf (c.withImages images) target.toTarget = .committed ∨
          applyOf (c.withImages images) target.toTarget = .onTrial :=
      fun other member => applied other (mem_cons_of_mem _ member)
    by_cases device : target.commit = .device
    · rcases applied target mem_cons_self device with verdict | verdict
      · obtain ⟨images, loop⟩ := ih (c.modifyImage index fun image => { image with applied := true, committed := true })
          committing (index + 1) (later _)
        refine ⟨images, ?_⟩
        simp only [awaitCommitLoop, device, verdict, ne_eq, not_true_eq_false, ↓reduceIte, any_cons]
        exact loop
      · obtain ⟨images, loop⟩ := ih (c.modifyImage index fun image => { image with applied := true }) true (index + 1)
          (later _)
        refine ⟨images, ?_⟩
        simp only [awaitCommitLoop, device, verdict, ne_eq, not_true_eq_false, ↓reduceIte, any_cons]
        rw [loop]
        simp
        rfl
    · obtain ⟨images, loop⟩ := ih c committing (index + 1) (later c.report.images)
      refine ⟨images, ?_⟩
      simp only [awaitCommitLoop, device, ne_eq, not_false_eq_true, ↓reduceIte, any_cons]
      rw [loop]
      simp [device]

theorem awaitCommit_applied (c : Context) (applied : ∀ target ∈ c.targets, target.commit = .device →
      applyOf c target.toTarget = .committed ∨ applyOf c target.toTarget = .onTrial) :
    ∃ images, c.awaitCommit =
      (if c.targets.any (fun target => target.commit == .device && applyOf c target.toTarget == .onTrial) then
        { next := .awaitingDeviceCommit, effect := .awaitApply } else { next := .completed, effect := .finish },
      c.withImages images) := by
  obtain ⟨images, loop⟩ := awaitCommitLoop_applied c false 0 c.targets applied
  rw [Bool.false_or] at loop
  exact ⟨images, loop⟩

theorem awaitDeviceLoop_unfailed (c : Context) (applying : Bool) (index : Nat) (targets : List Image)
    (unfailed : ∀ target ∈ targets, target.commit = .device → applyOf c target.toTarget ≠ .failed) :
    ∃ images, c.awaitDeviceLoop plan applying index targets =
      if applying || targets.any (fun target => target.commit == .device && applyOf c target.toTarget == .applying) then
        ({ next := .awaitingDeviceApply, effect := .awaitApply }, c.withImages images)
      else if !c.swapScheduled then (c.withImages images).awaitCommit else (c.withImages images).confirmationFork plan := by
  induction targets generalizing c applying index with
  | nil =>
    refine ⟨c.report.images, ?_⟩
    cases applying <;> rfl
  | cons target rest ih =>
    have later (images : List ImageReport) : ∀ target ∈ rest, target.commit = .device →
        applyOf (c.withImages images) target.toTarget ≠ .failed :=
      fun other member => unfailed other (mem_cons_of_mem _ member)
    by_cases device : target.commit = .device
    · cases verdict : applyOf c target.toTarget with
      | failed => exact absurd verdict (unfailed target mem_cons_self device)
      | committed =>
        obtain ⟨images, loop⟩ := ih (c.modifyImage index fun image => { image with committed := true, applied := true })
          applying (index + 1) (later _)
        refine ⟨images, ?_⟩
        simp only [awaitDeviceLoop, device, verdict, ne_eq, not_true_eq_false, ↓reduceIte, any_cons]
        exact loop
      | onTrial =>
        obtain ⟨images, loop⟩ := ih (c.modifyImage index fun image => { image with applied := true }) applying (index + 1)
          (later _)
        refine ⟨images, ?_⟩
        simp only [awaitDeviceLoop, device, verdict, ne_eq, not_true_eq_false, ↓reduceIte, any_cons]
        exact loop
      | applying =>
        obtain ⟨images, loop⟩ := ih c true (index + 1) (later c.report.images)
        refine ⟨images, ?_⟩
        simp only [awaitDeviceLoop, device, verdict, ne_eq, not_true_eq_false, ↓reduceIte, any_cons]
        rw [loop]
        simp
    · obtain ⟨images, loop⟩ := ih c applying (index + 1) (later c.report.images)
      refine ⟨images, ?_⟩
      simp only [awaitDeviceLoop, device, ne_eq, not_false_eq_true, ↓reduceIte, any_cons]
      rw [loop]
      simp [device]

theorem awaitDevice_unfailed (c : Context)
    (unfailed : ∀ target ∈ c.targets, target.commit = .device → applyOf c target.toTarget ≠ .failed) :
    ∃ images, c.awaitDevice plan =
      if c.targets.any (fun target => target.commit == .device && applyOf c target.toTarget == .applying) then
        ({ next := .awaitingDeviceApply, effect := .awaitApply }, c.withImages images)
      else if !c.swapScheduled then (c.withImages images).awaitCommit else (c.withImages images).confirmationFork plan := by
  obtain ⟨images, loop⟩ := @awaitDeviceLoop_unfailed plan c false 0 c.targets unfailed
  rw [Bool.false_or] at loop
  exact ⟨images, loop⟩

theorem inspectBoot_running (c : Context) (running : EachClient c.targets (Running c)) :
    ∃ images, c.inspectBoot plan =
      (c.inspected images (c.targets.any fun target => owesConfirm c target.toTarget)).awaitDevice plan := by
  have active : (c.targets.any fun target => target.commit == .client && (activeOf c target.image).isNone) = false := by
    rw [any_eq_false]
    intro target member inactive
    simp only [Bool.and_eq_true, beq_iff_eq, Option.isNone_iff_eq_none] at inactive
    have runs := running target member inactive.1
    unfold Running at runs
    rw [inactive.2] at runs
    cases runs
  have found (pending : Bool) : (c.targets.any fun target => notRunning c pending target.toTarget) = false := by
    rw [any_eq_false]
    intro target member stopped
    simp only [notRunning, Bool.and_eq_true, beq_iff_eq, Bool.not_eq_true'] at stopped
    have runs := running target member stopped.1.1
    unfold Running at runs
    rw [runs] at stopped
    cases stopped.1.2
  refine ⟨c.judgedImages, ?_⟩
  rw [inspectBoot_eq plan c active, found, found]
  rfl

end

end Smply.Dfu
