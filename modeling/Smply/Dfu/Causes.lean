import Smply.Dfu.Leads
import Smply.Dfu.Targets

namespace Smply.Dfu

open Context

variable {result : Step × Context} {c : Context} {error : Error}

inductive Blames (P : Error → Prop) (before : Context) (result : Step × Context) : Prop
  | kept (same : result.2.report.cause = before.report.cause) (open_ : result.1.next ≠ .failed)
  | failed (error : Error) (is : P error) (cause : result.2.report.cause = some error)
      (next : result.1.next = .failed)

variable {P : Error → Prop} {plan : UpdatePlan}

theorem fail_blames (before c : Context) (is : P error) : Blames P before (c.fail error) :=
  .failed error is rfl rfl

theorem failAt_blames (before c : Context) (code : ErrorCode) (site : String) (is : P (Error.at code site)) :
    Blames P before (c.failAt code site) := fail_blames before c is

theorem Blames.from {first second : Context} (blames : Blames P second result)
    (same : second.report.cause = first.report.cause) : Blames P first result := by
  cases blames with
  | kept kept open_ => exact .kept (kept.trans same) open_
  | failed error is cause next => exact .failed error is cause next

def Ruled (P : Error → Prop) : Prop := ∀ code site, code ≠ ErrorCode.internal → P (Error.at code site)

section
variable (ruled : Ruled P)
include ruled

theorem AwaitCommit.blames {committing : Bool} {targets : List Image}
    (outcome : AwaitCommit c committing targets result) : Blames P c result := by
  cases outcome with
  | failed => exact failAt_blames _ _ _ _ (ruled _ _ (by decide))
  | waiting | completed => exact .kept rfl (by simp)

omit ruled in
theorem confirmationFork_blames (c : Context) : Blames P c (c.confirmationFork plan) := by
  unfold confirmationFork
  dsimp only
  split
  · exact .kept rfl (by simp)
  · exact .kept rfl (by simp)

theorem AwaitDevice.blames {applying : Bool} {targets : List Image}
    (outcome : AwaitDevice plan c applying targets result) : Blames P c result := by
  cases outcome with
  | failed => exact failAt_blames _ _ _ _ (ruled _ _ (by decide))
  | waiting => exact .kept rfl (by simp)
  | commit _ _ _ _ _ outcome => exact (outcome.blames ruled).from rfl
  | fork => exact (confirmationFork_blames _).from rfl

theorem InspectBoot.blames (outcome : InspectBoot plan c result) : Blames P c result := by
  cases outcome with
  | inactive | stopped => exact failAt_blames _ _ _ _ (ruled _ _ (by decide))
  | running _ _ _ outcome => exact (outcome.blames ruled).from rfl

omit ruled in
theorem recordMode_cause (reported : McubootMode) (report : UpdateReport) :
    (recordMode reported plan report).cause = report.cause := by
  unfold recordMode
  split
  · rfl
  split
  · split <;> rfl
  · rfl

omit ruled in
theorem Written.cause {before after : Context} (written : Written before after) :
    after.report.cause = before.report.cause := by
  induction written with
  | refl => rfl
  | tail _ last ih =>
    refine Eq.trans ?_ ih
    cases last with
    | aside _ report => rw [report]
    | mode => exact recordMode_cause _ _
    | notes | trial | build | owed => rfl

theorem Leads.blames (leads : Leads P plan c result) : Blames P c result := by
  cases leads with
  | goes _ _ written open_ => exact .kept written.cause open_
  | fails at_ _ _ is => exact fail_blames c at_ is
  | refuses => exact failAt_blames _ _ _ _ (ruled _ _ (by decide))
  | boot at_ written => exact ((inspectBoot_outcome plan at_).blames ruled).from written.cause
  | device at_ written => exact ((awaitDevice_outcome plan at_).blames ruled).from written.cause
  | commit at_ written => exact ((awaitCommit_outcome at_).blames ruled).from written.cause

end

/-- The machine has no decision to make: an invariant of its own is broken, or the event does not belong here. -/
inductive Strange (m : Machine) (event : Event) : Prop
  | imageless (none_ : m.context.targets = [])
  | beyond (needs : needsCurrent m.state = true) (past : m.context.targets.length ≤ m.context.current)
  | tableless (carries : carriesTable event.kind = true) (none_ : event.state = none)
  | misplaced (here : legal m.state event.kind = false)
  | unnamed (names : namesCurrent (m.guardedDecide event).1.effect = true)
      (past : (m.guardedDecide event).2.targets.length ≤ (m.guardedDecide event).2.current)

section
variable (ruled : Ruled P) (m : Machine) (event : Event) (live : isTerminal m.state = false) (handed : P event.error)
  (strange : Strange m event → ∀ error, P error)
include ruled m event live handed strange

theorem guardedDecide_blames : Blames P m.context (m.guardedDecide event) := by
  unfold Machine.guardedDecide
  dsimp only
  split
  · refine (decide_leads (fun code site other _ => ruled code site other) m.context m.state event ?_ handed
      fun here _ => strange (.misplaced here) _).blames ruled
    intro failed
    rw [failed] at live
    cases live
  · rename_i unfit
    refine failAt_blames _ _ _ _ (strange ?_ _)
    rw [live, Bool.false_or, Bool.and_eq_true, not_and_or] at unfit
    rcases unfit with inconsistent | incomplete
    · by_cases none_ : m.context.targets = []
      · exact .imageless none_
      have both : needsCurrent m.state = true ∧ m.context.targets.length ≤ m.context.current := by
        simpa [none_] using inconsistent
      exact .beyond both.1 both.2
    · have both : carriesTable event.kind = true ∧ event.state = none := by simpa using incomplete
      exact .tableless both.1 both.2

theorem decided_blames : Blames P m.context (m.decided event) := by
  have blames := guardedDecide_blames ruled m event live handed strange
  unfold Machine.decided
  dsimp only
  split
  · rename_i beyond
    have both : namesCurrent (m.guardedDecide event).1.effect = true ∧
        (m.guardedDecide event).2.targets.length ≤ (m.guardedDecide event).2.current := by simpa using beyond
    exact failAt_blames _ _ _ _ (strange (.unnamed both.1 both.2) _)
  · exact blames

end

section
variable (m : Machine) (event : Event)
include m event

theorem apply_report : (m.apply event).2.report = (m.decided event).2.summarise.finishReport (m.decided event).1 := by
  unfold Machine.apply Machine.report
  dsimp only
  obtain ⟨grace, poll, deadline, phase, kept⟩ := keepTime_eq
    ((m.decided event).2.summarise.parameterise (m.decided event).1).2
    ((m.decided event).2.summarise.parameterise (m.decided event).1).1 event.now m.plan
  rw [kept]
  rfl

@[simp] theorem apply_cause :
    (m.apply event).2.report.cause = (m.decided event).2.report.cause := by
  obtain ⟨_, _, _, _, same⟩ := summarise_eq (m.decided event).2.report
  rw [apply_report]
  unfold finishReport
  split <;> simp only [summarise, same]

theorem apply_finalState (finish : (m.decided event).1.effect = .finish) :
    (m.apply event).2.report.finalState = (m.decided event).1.next := by
  rw [apply_report]
  unfold finishReport
  simp only [finish]

theorem apply_finalState_kept (goesOn : (m.decided event).1.effect ≠ .finish) :
    (m.apply event).2.report.finalState = (m.decided event).2.report.finalState := by
  obtain ⟨_, _, _, _, same⟩ := summarise_eq (m.decided event).2.report
  rw [apply_report]
  unfold finishReport
  split
  · rename_i finish
    exact absurd finish goesOn
  · simp only [summarise, same]

end

def Blameless (m : Machine) : Prop := isTerminal m.state = false → m.report.cause = none

theorem new_blameless (targets : List Target) (plan : UpdatePlan) : Blameless (.new targets plan) := fun _ => rfl

theorem apply_blameless {m : Machine} (blameless : Blameless m) (event : Event) : Blameless (m.apply event).2 := by
  intro open_
  rw [apply_state] at open_
  rw [apply_cause]
  rcases decided_ends m event with ⟨halted, same⟩ | ⟨live, _⟩
  · rw [same] at open_
    rw [halted] at open_
    cases open_
  have blames := @decided_blames (fun _ => True) (fun _ _ _ => trivial) m event live trivial (fun _ _ => trivial)
  cases blames with
  | kept same => exact same.trans (blameless live)
  | failed _ _ _ next =>
    rw [next] at open_
    cases open_

structure CleanlyCancelled (m : Machine) : Prop where
  state : m.state = .cancelled
  final : m.report.finalState = .cancelled
  cause : m.report.cause = none

theorem decided_cancel {m : Machine} {event : Event} (live : isTerminal m.state = false) (asked : event.kind = .cancel)
    (whole : m.context.targets ≠ [])
    (inside : needsCurrent m.state = true → m.context.current < m.context.targets.length) :
    m.decided event = ({ next := .cancelled, effect := .finish },
      { m.context with report := { m.context.report with revertPending := m.context.swapScheduled } }) := by
  have decision : m.context.decide m.state event m.plan = ({ next := .cancelled, effect := .finish },
      { m.context with report := { m.context.report with revertPending := m.context.swapScheduled } }) := by
    simp [Context.decide, asked, live]
  have within : needsCurrent m.state = false ∨ m.context.current < m.context.targets.length := by
    cases needs : needsCurrent m.state
    · exact .inl rfl
    · exact .inr (inside needs)
  have guarded : m.guardedDecide event = m.context.decide m.state event m.plan := by
    simp [Machine.guardedDecide, asked, carriesTable, whole, within]
  unfold Machine.decided
  rw [guarded, decision]
  rfl

end Smply.Dfu
