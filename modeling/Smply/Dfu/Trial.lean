import Smply.Dfu.Window

namespace Smply.Dfu

open Context

variable {result : Step × Context} {plan : UpdatePlan} {c : Context}

def TrialShown (c : Context) : Prop := ∃ target ∈ c.targets, runningOnTrial c target.toTarget = true

def buildOnTrial (c : Context) (target : Image) : Bool :=
  !target.chosenKnown && target.builds.any fun builds =>
    runningOnTrial c { target.toTarget with hash := builds.1.hash } ||
      runningOnTrial c { target.toTarget with hash := builds.2.hash }

/-- The event completes staging on a table that shows a trial. The planner looks for one only before its first image. -/
def StagesOverTrial (m : Machine) (event : Event) : Prop :=
  (m.state = .markingForTest ∧ event.kind = .markedForTest ∧ m.context.targets.length ≤ m.context.current + 1 ∧
    TrialShown (m.context.withTable event)) ∨
  (m.state = .planning ∧ event.kind = .continue ∧ ∃ target ∈ m.context.targets,
    (m.context.current ≠ 0 ∧ runningOnTrial m.context target.toTarget = true) ∨
      buildOnTrial m.context target = true)

instance (c : Context) : Decidable (TrialShown c) :=
  inferInstanceAs (Decidable (∃ target ∈ c.targets, runningOnTrial c target.toTarget = true))

instance (m : Machine) (event : Event) : Decidable (StagesOverTrial m event) :=
  inferInstanceAs (Decidable ((_ ∧ _ ∧ _ ∧ _) ∨ (_ ∧ _ ∧ _)))

theorem runningOnTrial_device {first second : Context} (device : first.device = second.device) :
    runningOnTrial first = runningOnTrial second := by
  funext target
  simp only [runningOnTrial, activeOf, device]

theorem TrialShown.of_eq {first second : Context} (targets : first.targets = second.targets)
    (device : first.device = second.device) (shown : TrialShown first) : TrialShown second := by
  unfold TrialShown at shown ⊢
  rwa [← targets, ← runningOnTrial_device device]

theorem Moves.trial {before after : Context} (moves : Moves plan before after)
    (shown : TrialShown after) : ∃ target ∈ before.targets,
      runningOnTrial before target.toTarget = true ∨ buildOnTrial before target = true := by
  obtain ⟨image, member, trial⟩ := shown
  have device : after.device = before.device := by
    rw [moves.frame]
    rfl
  rw [runningOnTrial_device device] at trial
  obtain ⟨target, found, resolves⟩ := forall₂_mem moves.targets member
  refine ⟨target, found, ?_⟩
  rcases resolves with rfl | ⟨unknown, builds, chosen, build, has, which, rfl⟩
  · exact .inl trial
  right
  have shown := trial
  simp only [buildOnTrial, unknown, has, Option.any_some, Bool.not_false, Bool.true_and, Bool.or_eq_true]
  rcases which with rfl | rfl
  · exact .inl shown
  · exact .inr shown

theorem Judged.not_resetting (judged : Judged c result) : result.1.next ≠ .resetting := by
  rcases judged.next with next | next | next | next | next | next <;> simp [next]

theorem Planned.resetting (outcome : Planned plan c result) (next : result.1.next = .resetting) :
    uploadOnly plan = false ∧ Moves plan c result.2 := by
  cases outcome with
  | reset moves _ whole => exact ⟨whole, moves⟩
  | judged _ outcome => exact absurd next outcome.judged.not_resetting
  | _ => simp [fail] at next

theorem PlanFromState.resetting (outcome : PlanFromState plan c result) (next : result.1.next = .resetting)
    (shown : TrialShown result.2) :
    ∃ target ∈ c.targets,
      (c.current ≠ 0 ∧ runningOnTrial c target.toTarget = true) ∨ buildOnTrial c target = true := by
  cases outcome with
  | afterReset _ _ _ _ outcome => exact absurd next outcome.judged.not_resetting
  | loop guarded _ outcome =>
    obtain ⟨whole, moves⟩ := outcome.planned.resetting next
    obtain ⟨target, member, trial⟩ := moves.trial shown
    refine ⟨target, member, ?_⟩
    rcases trial with trial | trial
    · left
      refine ⟨fun first => ?_, trial⟩
      rcases guarded with only | later | quiet
      · exact absurd (only.symm.trans whole) (by simp)
      · exact later first
      · exact absurd ((quiet target member).symm.trans trial) (by simp)
    · exact .inr trial

theorem NextTarget.resetting (outcome : NextTarget plan c result) (next : result.1.next = .resetting)
    (shown : TrialShown result.2) :
    c.targets.length ≤ c.current + 1 ∧ TrialShown c := by
  cases outcome with
  | next => simp at next
  | staged last result outcome =>
    refine ⟨last, ?_⟩
    cases outcome with
    | uploaded => simp at next
    | refused _ _ _ _ check =>
      cases check
      simp at next
    | reset _ _ _ check =>
      rw [check.checked] at shown
      exact shown
    | judged _ _ _ outcome => exact absurd next outcome.judged.not_resetting

theorem Row.resetting {m : Machine} {event : Event} (row : Row m event result)
    (safe : ¬ StagesOverTrial m event) (settable : result.2.report.bootloaderMode ≠ .directXip)
    (before : m.state = .resetting → ¬ TrialShown m.context) (next : result.1.next = .resetting) :
    ¬ TrialShown result.2 := by
  intro shown
  cases row with
  | idle => exact before next shown
  | forced here => exact before here shown
  | settled halted =>
    have here : m.state = .resetting := next
    simp [here, isTerminal] at halted
  | polled here | waitRepeated here => rcases here with here | here <;> simp [here] at next
  | planned here kind outcome => exact safe (.inr ⟨here, kind, outcome.resetting next shown⟩)
  | uploadedOnly _ only outcome =>
    obtain ⟨whole, _⟩ := outcome.planned.resetting next
    exact absurd (only.symm.trans whole) (by simp)
  | unmarked _ _ _ unsettable outcome => exact settable (outcome.planned.mode.trans (beq_iff_eq.mp unsettable))
  | marked here kind _ outcome =>
    obtain ⟨last, trial⟩ := outcome.resetting next shown
    exact safe (.inl ⟨here, kind, last, trial⟩)
  | booted _ _ _ outcome | applyRead _ _ _ outcome | commitRead _ _ _ outcome | confirmVerified _ _ _ _ outcome =>
    exact outcome.judged.not_resetting next
  | _ => simp [fail] at next

theorem Planned.asksReset (outcome : Planned plan c result) (reset : resets result.1.effect = true) :
    result.1.next = .resetting := by
  cases outcome with
  | reset => rfl
  | judged _ outcome => simp [outcome.judged.quiet] at reset
  | _ => simp [resets, fail] at reset

theorem Row.asksReset {m : Machine} {event : Event} (row : Row m event result)
    (reset : resets result.1.effect = true) : result.1.next = .resetting := by
  cases row with
  | forced => rfl
  | planned _ _ outcome | uploadedOnly _ _ outcome | marked _ _ _ outcome | unmarked _ _ _ _ outcome =>
    exact outcome.planned.asksReset reset
  | booted _ _ _ outcome | applyRead _ _ _ outcome | commitRead _ _ _ outcome | confirmVerified _ _ _ _ outcome =>
    simp [outcome.judged.quiet] at reset
  | _ => simp [resets, fail] at reset

theorem apply_asksReset (m : Machine) (event : Event) (reset : resets (m.apply event).1.effect = true) :
    (m.apply event).2.state = .resetting := by
  rw [apply_effect] at reset
  rw [apply_state]
  revert reset
  exact decided_cases m event Row.asksReset (by simp [resets, fail])

def ResetsQuietly (m : Machine) : Prop :=
  m.state = .resetting → m.context.report.bootloaderMode ≠ .directXip → ¬ TrialShown m.context

theorem apply_resetsQuietly (m : Machine) (event : Event) (safe : ¬ StagesOverTrial m event)
    (before : ResetsQuietly m) : ResetsQuietly (m.apply event).2 := by
  intro next settable shown
  replace shown := shown.of_eq (apply_targets m event) (apply_device m event)
  rw [apply_state] at next
  rw [apply_bootloaderMode] at settable
  have late : m.state = .resetting → isEarly m.state = false := fun here => by rw [here]; rfl
  have decided := decided_outcome m event
  generalize m.decided event = result at decided next settable shown
  cases decided with
  | row _ row =>
    refine row.resetting safe settable (fun here => before here ?_) next shown
    rw [← (row.mode (late here)).2]
    exact settable
  | unnamed => simp [fail] at next

theorem reset_never_over_trial (targets : List Target) (plan : UpdatePlan) (events : List Event)
    (mode : (runMachine targets plan events).report.bootloaderMode ≠ .directXip)
    (safe : ∀ t ∈ machineLog targets plan events, ¬ StagesOverTrial t.before t.event) :
    ∀ t ∈ machineLog targets plan events,
      t.output.effect = .reset ∨ t.output.effect = .forceReset → ¬ TrialShown t.after.context := by
  have each := Systems.guarded_transitions Machine.apply (Machine.new targets plan) ResetsQuietly
    (fun t => ¬ StagesOverTrial t.before t.event)
    (fun t => resets t.output.effect = true → t.after.state = .resetting ∧ ResetsQuietly t.after)
    (by simp [ResetsQuietly, Machine.new]) (fun m event safe before => apply_resetsQuietly m event safe before)
    (fun m event safe before reset => ⟨apply_asksReset m event reset, apply_resetsQuietly m event safe before⟩)
    events safe
  intro t member effect
  obtain ⟨here, quiet⟩ := each t member (by simpa [resets] using effect)
  refine quiet here ?_
  rw [run_mode targets plan events t member (by rw [here]; rfl)]
  exact mode

def clientPair : List Target := [{ image := 0, hash := shortHash 1 }, { image := 1, hash := shortHash 2 }]

/-- The device restarts after the first mark: that image is on trial when the second mark is answered. -/
def restartedWhileStaging : List Event :=
  opening [active 0 9 true, waiting 0 1 false, active 1 8 true] ++
    [{ kind := .continue },
      { kind := .markedForTest, state := some { slots := [active 0 9 true, waiting 0 1 true, active 1 8 true] } },
      { kind := .continue }, { kind := .uploadFinished },
      readBack [active 0 9 true, waiting 0 1 true, active 1 8 true, waiting 1 2 false],
      { kind := .markedForTest
        state := some { slots := [active 0 1 false, waiting 0 9 false, active 1 8 true, waiting 1 2 true] } }]

theorem reset_over_trial : (runMachine clientPair {} restartedWhileStaging).report.bootloaderMode ≠ .directXip ∧
      ∃ t ∈ machineLog clientPair {} restartedWhileStaging,
        t.output.effect = .reset ∧ TrialShown t.after.context := by
  decide

theorem reset_never_over_trial_single_image :
    let events := opening [active 0 9 true, waiting 0 1 true] ++ [{ kind := .continue }]
    let targets := clientPair.take 1
    (∃ t ∈ machineLog targets {} events, t.output.effect = .reset) ∧
      ∀ t ∈ machineLog targets {} events,
        t.output.effect = .reset ∨ t.output.effect = .forceReset → ¬ TrialShown t.after.context :=
  ⟨by decide, reset_never_over_trial _ _ _ (by decide) (by decide)⟩

end Smply.Dfu
