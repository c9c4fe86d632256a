import Smply.Dfu.Window

namespace Smply.Dfu

open Machine

variable {result : Step × Context} {m : Machine} {plan : UpdatePlan} {c : Context} {past : List MachineStep}
  {event : Event}

def changesDevice (effect : Effect) : Bool :=
  effect == .startUpload || effect == .resumeUpload || effect == .markForTest || effect == .reset ||
    effect == .forceReset

def ChecksPass (plan : UpdatePlan) (c : Context) : Prop :=
  modeRefusal plan c = none ∧ isDowngrade plan c = false

def isStaging (state : UpdateState) : Bool :=
  state == .uploading || state == .verifyingUpload || state == .markingForTest || state == .resetting

def isBeyond (state : UpdateState) : Bool :=
  state == .awaitingReconnect || state == .verifyingBooted || state == .awaitingDeviceApply ||
    state == .awaitingDeviceCommit || state == .awaitingConfirmation || state == .confirming ||
    state == .verifyingConfirmed || isTerminal state

inductive CheckStep (plan : UpdatePlan) (c : Context) (result : Step × Context) : Prop where
  | kept (checked : result.2.preconditionsChecked = c.preconditionsChecked)
      (refusal : result.2.report.refusal = c.report.refusal)
  | passed (unchecked : c.preconditionsChecked = false) (checked : result.2.preconditionsChecked = true)
      (pass : ChecksPass plan result.2) (refusal : result.2.report.refusal = c.report.refusal)
  | refused (unchecked : c.preconditionsChecked = false) (checked : result.2.preconditionsChecked = true)
      (next : result.1.next = .failed) (effect : result.1.effect = .finish)
      (refusal : result.2.report.refusal ≠ none)

theorem ChecksPass.same {before after : Context} (pass : ChecksPass plan before)
    (images : SameImages before after) (mode : after.report.bootloaderMode = before.report.bootloaderMode)
    (device : after.device = before.device) (noDowngrade : after.noDowngrade = before.noDowngrade) :
    ChecksPass plan after := by
  have count : after.targets.length = before.targets.length := by simpa using congrArg List.length images
  have older : isOlder after = isOlder before := by
    funext target
    simp only [isOlder, activeOf, device]
  have each : (after.targets.any fun target => isOlder before target.toTarget) =
      before.targets.any fun target => isOlder before target.toTarget := by
    have mapped := congrArg (fun targets => targets.any fun target => isOlder before target.toTarget) images
    simpa [List.any_map, Function.comp_def, Image.untried] using mapped
  constructor
  · rw [← pass.1]
    simp only [modeRefusal, mode, count]
  · rw [← pass.2]
    simp only [isDowngrade, noDowngrade, older, each]

theorem CheckStep.mono (check : CheckStep plan c result) (checked : c.preconditionsChecked = true) :
    result.2.preconditionsChecked = true := by
  cases check with
  | kept same => exact same.trans checked
  | passed _ now | refused _ now => exact now

theorem Moves.checkStep {c after : Context} (moves : Moves plan c after) (step : Step) :
    CheckStep plan c (step, after) := by
  have refusal : after.report.refusal = c.report.refusal := by rw [moves.frame]; rfl
  rcases moves.checked with same | ⟨unchecked, now, pass⟩
  · exact .kept same refusal
  · exact .passed unchecked now pass refusal

theorem CheckStep.onward {first second : Step × Context}
    (check : CheckStep plan c first) (live : first.1.effect ≠ .finish)
    (checked : second.2.preconditionsChecked = first.2.preconditionsChecked)
    (refusal : second.2.report.refusal = first.2.report.refusal)
    (pass : ChecksPass plan first.2 → ChecksPass plan second.2) : CheckStep plan c second := by
  cases check with
  | kept same unrefused => exact .kept (checked.trans same) (refusal.trans unrefused)
  | passed unchecked now passes unrefused =>
    exact .passed unchecked (checked.trans now) (pass passes) (refusal.trans unrefused)
  | refused _ _ _ effect => exact absurd effect live

theorem Planned.checkStep (outcome : Planned plan c result) : CheckStep plan c result := by
  have quiet : ({ next := .planning } : Step).effect ≠ .finish := by simp
  cases outcome with
  | stopped moves | upload moves => exact (moves.checkStep { next := .planning }).onward quiet rfl rfl id
  | refused moves unchecked =>
    have before : c.preconditionsChecked = false := by
      rcases moves.checked with same | ⟨fresh, _⟩
      · exact same.symm.trans unchecked
      · exact fresh
    exact .refused before rfl rfl rfl (by simp)
  | mark moves | next moves | reset moves | uploaded moves => exact moves.checkStep _
  | judged moves outcome =>
    have judged := outcome.judged
    have frame := judged.frame
    refine (moves.checkStep { next := .planning }).onward quiet ?_ judged.refusal fun pass => ?_
    · rw [frame]
    · exact pass.same judged.images judged.bootloaderMode (by rw [frame]) (by rw [frame])

theorem Judged.beyond (judged : Judged c result) :
    isBeyond result.1.next = true ∧ isStaging result.1.next = false ∧ changesDevice result.1.effect = false := by
  have next : isBeyond result.1.next = true ∧ isStaging result.1.next = false := by
    rcases judged.next with next | next | next | next | next | next <;> rw [next] <;> exact ⟨rfl, rfl⟩
  refine ⟨next.1, next.2, ?_⟩
  rcases judged.effect with effect | effect | ⟨_, effect | effect⟩ <;> rw [effect] <;> rfl

theorem Planned.staging (outcome : Planned plan c result) :
    (isStaging result.1.next = true ∨ changesDevice result.1.effect = true →
      result.2.preconditionsChecked = true) ∧
    (result.2.uploadInProgress = true → c.uploadInProgress = true ∨ result.2.preconditionsChecked = true) := by
  have same {at_ : Context} (moves : Moves plan c at_) : at_.uploadInProgress = c.uploadInProgress := by
    rw [moves.frame]
    rfl
  cases outcome with
  | upload _ checked | mark _ checked | reset _ checked => exact ⟨fun _ => checked, fun _ => .inr checked⟩
  | refused => exact ⟨by simp [isStaging, changesDevice], fun _ => .inr rfl⟩
  | judged moves outcome =>
    have judged := outcome.judged
    refine ⟨fun here => ?_, fun busy => .inl ?_⟩
    · simp [judged.beyond] at here
    rw [← same moves]
    rw [judged.frame] at busy
    exact busy
  | stopped moves => exact ⟨by simp [isStaging, changesDevice, Context.fail], fun busy => .inl (same moves ▸ busy)⟩
  | next moves | uploaded moves => exact ⟨by simp [isStaging, changesDevice], fun busy => .inl (same moves ▸ busy)⟩

theorem CheckStep.start {c start : Context} (check : CheckStep plan start result)
    (checked : start.preconditionsChecked = c.preconditionsChecked)
    (refusal : start.report.refusal = c.report.refusal) : CheckStep plan c result := by
  cases check with
  | kept same unrefused => exact .kept (same.trans checked) (unrefused.trans refusal)
  | passed unchecked now pass unrefused => exact .passed (checked ▸ unchecked) now pass (unrefused.trans refusal)
  | refused unchecked now next effect refusal => exact .refused (checked ▸ unchecked) now next effect refusal

theorem Judged.checkStep (judged : Judged c result) : CheckStep plan c result :=
  .kept (by rw [judged.frame]) judged.refusal

theorem recordMode_refusal (mode : McubootMode) (plan : UpdatePlan) (report : UpdateReport) :
    (recordMode mode plan report).refusal = report.refusal := by
  unfold recordMode
  split
  · rfl
  split
  · split <;> rfl
  · rfl

section
variable (row : Row m event result)
include row

theorem Row.checkStep : CheckStep m.plan m.context result := by
  cases row with
  | planned _ _ outcome => exact outcome.planned.checkStep
  | uploadedOnly _ _ outcome | marked _ _ _ outcome | unmarked _ _ _ _ outcome =>
    exact outcome.planned.checkStep.start rfl rfl
  | booted _ _ _ outcome | applyRead _ _ _ outcome | commitRead _ _ _ outcome | confirmVerified _ _ _ _ outcome =>
    exact outcome.judged.checkStep.start rfl rfl
  | bootloader _ mode => exact .kept rfl (recordMode_refusal mode m.plan m.context.report)
  | _ => exact .kept rfl rfl

theorem Row.staging (before : isStaging m.state = true ∨ m.context.uploadInProgress = true →
      m.context.preconditionsChecked = true) :
    (isStaging result.1.next = true ∨ changesDevice result.1.effect = true →
      result.2.preconditionsChecked = true) ∧
    (result.2.uploadInProgress = true → result.2.preconditionsChecked = true) := by
  have carried := row.checkStep.mono
  have planned {c : Context} (outcome : Planned m.plan c result)
      (busy : c.uploadInProgress = true → m.context.uploadInProgress = true) :
      (isStaging result.1.next = true ∨ changesDevice result.1.effect = true →
        result.2.preconditionsChecked = true) ∧
      (result.2.uploadInProgress = true → result.2.preconditionsChecked = true) := by
    refine ⟨outcome.staging.1, fun uploading => ?_⟩
    rcases outcome.staging.2 uploading with uploading | checked
    · exact carried (before (.inr (busy uploading)))
    · exact checked
  have judged {c : Context} (outcome : Judged c result)
      (busy : c.uploadInProgress = true → m.context.uploadInProgress = true) :
      (isStaging result.1.next = true ∨ changesDevice result.1.effect = true →
        result.2.preconditionsChecked = true) ∧
      (result.2.uploadInProgress = true → result.2.preconditionsChecked = true) := by
    refine ⟨fun here => by simp [outcome.beyond] at here, fun uploading => ?_⟩
    rw [outcome.frame] at uploading
    exact carried (before (.inr (busy uploading)))
  cases row with
  | settled | idle | polled here | waitRepeated here =>
    exact ⟨fun here => before (.inl (by simpa [changesDevice] using here)), fun busy => before (.inr busy)⟩
  | planned _ _ outcome | marked _ _ _ outcome => exact planned outcome.planned id
  | uploadedOnly _ _ outcome => exact planned outcome.planned fun busy => by simp [Context.withImages] at busy
  | uploaded here => exact ⟨fun _ => before (.inl (by rw [here]; rfl)), fun _ => before (.inl (by rw [here]; rfl))⟩
  | unmarked here _ _ _ outcome =>
    have checked := before (.inl (by rw [here]; rfl))
    exact planned outcome.planned id
  | toMark here | forced here =>
    have checked := before (.inl (by rw [here]; rfl))
    exact ⟨fun _ => checked, fun _ => checked⟩
  | resumed _ busy => exact ⟨fun _ => before (.inr busy), fun _ => before (.inr busy)⟩
  | booted _ _ _ outcome | applyRead _ _ _ outcome | commitRead _ _ _ outcome | confirmVerified _ _ _ _ outcome =>
    exact judged outcome.judged id
  | _ => exact ⟨by simp [isStaging, changesDevice, Context.fail], fun busy => before (.inr busy)⟩

theorem Row.beyond (here : isBeyond m.state = true) :
    (isBeyond result.1.next = true ∨ m.context.uploadInProgress = true) ∧
      result.2.report.refusal = m.context.report.refusal := by
  have early (state : UpdateState) (at_ : m.state = state) (early : isBeyond state = false) : False := by
    rw [at_, early] at here
    exact absurd here (by simp)
  cases row with
  | settled | idle | polled | waitRepeated => exact ⟨.inl here, rfl⟩
  | resumed _ busy => exact ⟨.inr busy, rfl⟩
  | booted _ _ _ outcome | applyRead _ _ _ outcome | commitRead _ _ _ outcome | confirmVerified _ _ _ _ outcome =>
    exact ⟨.inl outcome.judged.beyond.1, outcome.judged.refusal⟩
  | planned at_ | uploadedOnly at_ | unmarked at_ | toMark at_ | marked at_ | started at_ | parameters at_
  | bootloader at_ | inspected at_ | uploaded at_ | remark at_ | forced at_ | rebooting at_ =>
    exact (early _ at_ rfl).elim
  | _ => exact ⟨.inl rfl, rfl⟩

end

theorem decided_checkStep (m : Machine) (event : Event) : CheckStep m.plan m.context (m.decided event) :=
  decided_cases m event Row.checkStep fun row named _ =>
    row.checkStep.onward (fun finish => by simp [finish, namesCurrent] at named) rfl rfl id

theorem decided_staging (m : Machine) (event : Event)
    (before : isStaging m.state = true ∨ m.context.uploadInProgress = true →
      m.context.preconditionsChecked = true) :
    (isStaging (m.decided event).1.next = true ∨ changesDevice (m.decided event).1.effect = true →
      (m.decided event).2.preconditionsChecked = true) ∧
    ((m.decided event).2.uploadInProgress = true → (m.decided event).2.preconditionsChecked = true) :=
  decided_cases m event (·.staging before) fun row _ _ =>
    ⟨by simp [isStaging, changesDevice, Context.fail], (row.staging before).2⟩

theorem decided_beyond (m : Machine) (event : Event) (here : isBeyond m.state = true) :
    (isBeyond (m.decided event).1.next = true ∨ m.context.uploadInProgress = true) ∧
      (m.decided event).2.report.refusal = m.context.report.refusal :=
  decided_cases m event (·.beyond here) fun row _ _ => ⟨.inl rfl, (row.beyond here).2⟩

def PassedAt (t : MachineStep) : Prop :=
  t.before.context.preconditionsChecked = false ∧ t.after.context.preconditionsChecked = true ∧
    ChecksPass t.after.plan t.after.context

structure Checked (past : List MachineStep) (m : Machine) : Prop where
  staging : isStaging m.state = true ∨ m.context.uploadInProgress = true → m.context.preconditionsChecked = true
  passed : m.context.preconditionsChecked = true → m.context.report.refusal = none → ∃ t ∈ past, PassedAt t
  refused : m.context.report.refusal ≠ none → isTerminal m.state = true
  changed : ∀ t ∈ past, changesDevice t.output.effect = true →
    m.context.preconditionsChecked = true ∧ m.context.report.refusal = none
  confirmed : ∀ t ∈ past, t.output.effect = .confirm →
    (m.context.preconditionsChecked = true ∨ isBeyond m.state = true) ∧ m.context.report.refusal = none

theorem CheckStep.clear (check : CheckStep plan c result) (clear : c.report.refusal = none)
    (open_ : result.1.effect ≠ .finish ∨ c.preconditionsChecked = true) : result.2.report.refusal = none := by
  cases check with
  | kept _ refusal | passed _ _ _ refusal => exact refusal.trans clear
  | refused unchecked _ _ effect =>
    rcases open_ with live | checked
    · exact absurd effect live
    · exact absurd (checked.symm.trans unchecked) (by simp)

theorem Checked.clear (before : Checked past m)
    (live : isTerminal m.state = false) : m.context.report.refusal = none := by
  by_contra refusal
  exact absurd (live.symm.trans (before.refused refusal)) (by simp)

theorem apply_checksPass (pass : ChecksPass m.plan (m.decided event).2) :
    ChecksPass (m.apply event).2.plan (m.apply event).2.context :=
  pass.same (by rw [SameImages, apply_targets]) (apply_bootloaderMode m event) (apply_device m event)
    (apply_noDowngrade m event)

theorem isWindow.beyond {state : UpdateState} (window : isWindow state) : isBeyond state = true := by
  rcases window with here | here <;> rw [here] <;> rfl

section
variable (before : Checked past m) (event : Event)
include before

theorem Checked.passed_step
    (checked : (m.decided event).2.preconditionsChecked = true) (clear : (m.decided event).2.report.refusal = none) :
    ∃ t ∈ past ++ [Systems.transition Machine.apply m event], PassedAt t := by
  cases decided_checkStep m event with
  | kept same refusal =>
    obtain ⟨t, member, passed⟩ := before.passed (same ▸ checked) (refusal ▸ clear)
    exact ⟨t, List.mem_append_left _ member, passed⟩
  | passed unchecked now pass =>
    refine ⟨_, List.mem_append_right _ (List.mem_singleton_self _), unchecked, ?_, apply_checksPass pass⟩
    exact (apply_preconditionsChecked m event).trans now
  | refused _ _ _ _ refusal => exact absurd clear refusal

theorem Checked.refused_step
    (refusal : (m.decided event).2.report.refusal ≠ none) : isTerminal (m.decided event).1.next = true := by
  rcases decided_ends m event with ⟨halted, same⟩ | ⟨live, ends⟩
  · rw [same]
    exact halted
  refine ends.mp ?_
  by_contra open_
  exact refusal ((decided_checkStep m event).clear (before.clear live) (.inl open_))

theorem Checked.clear_step (active : (m.decided event).1.effect ≠ .finish ∧ (m.decided event).1.effect ≠ .none) :
    (m.decided event).2.report.refusal = none := by
  rcases decided_ends m event with ⟨_, same⟩ | ⟨live, _⟩
  · simp [same] at active
  · exact (decided_checkStep m event).clear (before.clear live) (.inl active.1)

theorem Checked.changed_step :
    ∀ t ∈ past ++ [Systems.transition Machine.apply m event], changesDevice t.output.effect = true →
      (m.decided event).2.preconditionsChecked = true ∧ (m.decided event).2.report.refusal = none := by
  intro t member changes
  have check := decided_checkStep m event
  rcases List.mem_append.mp member with member | member
  · obtain ⟨checked, clear⟩ := before.changed t member changes
    exact ⟨check.mono checked, check.clear clear (.inr checked)⟩
  rw [List.mem_singleton.mp member, Systems.transition, apply_effect] at changes
  refine ⟨(decided_staging m event before.staging).1 (.inr changes), before.clear_step event ?_⟩
  constructor <;> intro effect <;> simp [effect, changesDevice] at changes

theorem Checked.confirmed_step :
    ∀ t ∈ past ++ [Systems.transition Machine.apply m event], t.output.effect = .confirm →
      ((m.decided event).2.preconditionsChecked = true ∨ isBeyond (m.decided event).1.next = true) ∧
        (m.decided event).2.report.refusal = none := by
  intro t member confirm
  have check := decided_checkStep m event
  rcases List.mem_append.mp member with member | member
  · obtain ⟨reached, clear⟩ := before.confirmed t member confirm
    rcases reached with checked | beyond
    · exact ⟨.inl (check.mono checked), check.clear clear (.inr checked)⟩
    obtain ⟨next, same⟩ := decided_beyond m event beyond
    refine ⟨?_, same.trans clear⟩
    rcases next with next | busy
    · exact .inr next
    · exact .inl (check.mono (before.staging (.inr busy)))
  · rw [List.mem_singleton.mp member, Systems.transition] at confirm
    have window := apply_confirms m event confirm
    rw [apply_state] at window
    rw [apply_effect] at confirm
    exact ⟨.inr window.beyond, before.clear_step event (by simp [confirm])⟩

end

theorem run_checked (targets : List Target) (plan : UpdatePlan) (events : List Event) :
    Checked (machineLog targets plan events) (runMachine targets plan events) := by
  apply Systems.history_invariant apply (new targets plan) Checked
  · exact ⟨by simp [new, isStaging], by simp [new], by simp [new], by simp, by simp⟩
  intro past m event before
  have staging := decided_staging m event before.staging
  refine ⟨fun here => ?_, fun checked clear => ?_, fun refusal => ?_, ?_, ?_⟩
  · rw [apply_state, apply_uploadInProgress] at here
    rw [apply_preconditionsChecked]
    exact here.elim (fun here => staging.1 (.inl here)) staging.2
  · rw [apply_preconditionsChecked] at checked
    rw [apply_refusal] at clear
    exact before.passed_step event checked clear
  · rw [apply_refusal] at refusal
    rw [apply_state]
    exact before.refused_step event refusal
  · rw [apply_preconditionsChecked, apply_refusal]
    exact before.changed_step event
  · rw [apply_preconditionsChecked, apply_state, apply_refusal]
    exact before.confirmed_step event

/-- Nothing changes the device before the checks have passed, and a refused update changed nothing. -/
theorem checks_guard_device (targets : List Target) (plan : UpdatePlan) (events : List Event) :
    (∀ past t later, machineLog targets plan events = past ++ t :: later →
      changesDevice t.output.effect = true → ∃ check ∈ past ++ [t], PassedAt check) ∧
    ((runMachine targets plan events).report.refusal ≠ none →
      ∀ t ∈ machineLog targets plan events,
        changesDevice t.output.effect = false ∧ t.output.effect ≠ .confirm) := by
  constructor
  · intro past t later split changes
    obtain ⟨before, event, rest, _, whole, here, _⟩ := Systems.log_split apply (new targets plan) events split
    have checked := run_checked targets plan (before ++ [event])
    rw [machineLog, Systems.log_concat, whole, ← here] at checked
    have reached := checked.changed t (by simp) changes
    exact checked.passed reached.1 reached.2
  · intro refusal t member
    have checked := run_checked targets plan events
    constructor
    · by_contra changes
      exact refusal (checked.changed t member (by simpa using changes)).2
    · intro confirm
      exact refusal (checked.confirmed t member confirm).2

end Smply.Dfu
