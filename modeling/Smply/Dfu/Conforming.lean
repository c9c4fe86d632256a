import Smply.Dfu.Sane

namespace Smply.Dfu

variable {event : Event} {m : Machine} {d : Driver} {result : Step × Context}

def isRequest (effect : Effect) : Bool :=
  effect == .continue || effect == .queryParameters || effect == .queryBootloader || effect == .readState ||
    effect == .startUpload || effect == .resumeUpload || effect == .markForTest || effect == .reset ||
    effect == .forceReset || effect == .confirm

def answers (effect : Effect) (event : Event) : Bool :=
  match effect, event.kind with
  | .continue, .continue => true
  | .queryParameters, .parametersRead | .queryParameters, .parametersUnavailable => true
  | .queryBootloader, .bootloaderRead | .queryBootloader, .failed => true
  | .readState, .stateRead => event.state.isSome
  | .readState, .failed => true
  | .startUpload, .uploadFinished | .startUpload, .uploadSuspended | .startUpload, .failed => true
  | .resumeUpload, .uploadFinished | .resumeUpload, .uploadSuspended | .resumeUpload, .failed => true
  | .markForTest, .markedForTest => event.state.isSome
  | .markForTest, .failed => true
  | .reset, .resetAccepted | .reset, .failed | .forceReset, .resetAccepted | .forceReset, .failed => true
  | .confirm, .confirmed => event.state.isSome
  | .confirm, .failed => true
  | _, _ => false

structure Driver where
  machine : Machine
  pending : List Effect := []
  begun : Bool := false

def Driver.allows (d : Driver) (event : Event) : Bool :=
  event.error.code != .internal &&
    match event.kind with
    | .start => !d.begun
    | .tick | .cancel => true
    | .disconnected => d.machine.state == .awaitingDisconnect
    | .confirmApproved => d.machine.state == .awaitingConfirmation
    | .reconnected | .reconnectFailed => d.machine.state == .awaitingReconnect
    | _ => d.pending.any (answers · event)

def requested (effect : Effect) : List Effect := if isRequest effect then [effect] else []

def Driver.feed (d : Driver) (event : Event) : Step × Driver :=
  let (step, machine) := d.machine.apply event
  (step, { machine := machine
           pending := d.pending.eraseP (answers · event) ++ requested step.effect
           begun := d.begun || event.kind == .start })

def Driver.new (targets : List Target) (plan : UpdatePlan) : Driver := { machine := .new targets plan }

def conforms (targets : List Target) (plan : UpdatePlan) (events : List Event) : Prop :=
  ∀ t ∈ Systems.log Driver.feed (Driver.new targets plan) events, t.before.allows t.event = true

instance (targets : List Target) (plan : UpdatePlan) (events : List Event) :
    Decidable (conforms targets plan events) := by
  unfold conforms
  infer_instance

section
variable {state : UpdateState} {effect : Effect} (fit : fits state effect = true)
include fit

theorem answers_legal (answer : answers effect event = true) :
    legal state event.kind = true ∧ (carriesTable event.kind = true → event.state ≠ none) := by
  unfold answers at answer
  split at answer <;> rename_i kind <;> first
    | exact absurd answer Bool.false_ne_true
    | (rw [kind]
       cases state <;> first
        | exact absurd fit (by decide)
        | exact ⟨rfl, fun carries => absurd carries (by decide)⟩
        | exact ⟨rfl, fun _ => Option.isSome_iff_ne_none.mp answer⟩)

theorem fits_request (request : isRequest effect = true) :
    isTerminal state = false ∧ state ≠ .idle ∧ state ≠ .awaitingDisconnect ∧
      state ≠ .awaitingReconnect ∧ state ≠ .awaitingConfirmation := by
  cases state <;> first
    | exact ⟨rfl, by decide, by decide, by decide, by decide⟩
    | (cases effect <;> first | exact absurd fit (by decide) | exact absurd request (by decide))

end

theorem Judged.applyPoll {c : Context} (judged : Judged c result) : result.2.applyPoll = c.applyPoll := by
  rw [judged.frame]

theorem Moves.applyPoll {plan : UpdatePlan} {before after : Context} (moves : Moves plan before after) :
    after.applyPoll = before.applyPoll := by
  rw [moves.frame]
  rfl

theorem Planned.applyPoll {plan : UpdatePlan} {c : Context} (outcome : Planned plan c result) :
    result.2.applyPoll = c.applyPoll := by
  cases outcome with
  | refused moves | stopped moves | upload moves | mark moves | next moves | reset moves | uploaded moves =>
    exact moves.applyPoll
  | judged moves outcome => exact outcome.judged.applyPoll.trans moves.applyPoll

theorem Row.applyPoll (row : Row m event result) :
    result.2.applyPoll = m.context.applyPoll ∨ result.2.applyPoll = none := by
  cases row with
  | polled | timedOut => exact .inr rfl
  | planned _ _ outcome | uploadedOnly _ _ outcome | marked _ _ _ outcome | unmarked _ _ _ _ outcome =>
    exact .inl outcome.planned.applyPoll
  | booted _ _ _ outcome | applyRead _ _ _ outcome | commitRead _ _ _ outcome | confirmVerified _ _ _ _ outcome =>
    exact .inl outcome.judged.applyPoll
  | _ => exact .inl rfl

theorem apply_applyPoll (m : Machine) (event : Event) (armed : (m.apply event).2.context.applyPoll ≠ none) :
    (m.decided event).1.effect = .awaitApply ∨
      (m.apply event).2.context.applyPoll = (m.decided event).2.applyPoll := by
  unfold Machine.apply at armed ⊢
  dsimp only at armed ⊢
  unfold Context.keepTime at armed ⊢
  simp only [Context.parameterise, parameterise_effect, parameterise_next] at armed ⊢
  cases effect : (m.decided event).1.effect with
  | awaitApply => exact .inl rfl
  | finish => simp [effect] at armed
  | _ =>
    right
    simp only
    split <;> rfl

theorem decided_applyPoll (m : Machine) (event : Event) :
    (m.decided event).2.applyPoll = m.context.applyPoll ∨ (m.decided event).2.applyPoll = none :=
  decided_cases m event Row.applyPoll fun row _ _ => row.applyPoll

theorem decided_idle (sane : Sane m) (here : m.state = .idle) (other : event.kind ≠ .start) :
    (m.decided event).1.next = .idle ∨ isTerminal (m.decided event).1.next = true := by
  have decision : (m.context.decide m.state event m.plan).1.next = .idle ∨
      isTerminal (m.context.decide m.state event m.plan).1.next = true := by
    rw [here]
    unfold Context.decide
    cases kind : event.kind with
    | start => exact absurd kind other
    | tick => simp [Context.tick]
    | _ => exact .inr rfl
  rw [decided_eq sane]
  unfold Machine.guardedDecide
  dsimp only
  split
  · exact decision
  · exact .inr rfl

theorem decided_tick_eq (sane : Sane m) (tick : event.kind = .tick) :
    m.decided event = m.context.tick m.state event.now := by
  have inside : needsCurrent m.state = false ∨ m.context.current < m.context.targets.length := by
    cases needs : needsCurrent m.state
    · exact .inl rfl
    · exact .inr (sane.placed.inside (.inl needs))
  rw [decided_eq sane]
  simp [Machine.guardedDecide, tick, carriesTable, sane.whole, inside, Context.decide]

theorem decided_tick (sane : Sane m) (tick : event.kind = .tick) :
    (m.state = .awaitingDisconnect) ∨ m.decided event = ({ next := m.state, effect := .none }, m.context) ∨
      (isWait m.state ∧ m.context.applyPoll ≠ none ∧ (m.decided event).2.applyPoll = none) := by
  rw [decided_tick_eq sane tick]
  unfold Context.tick
  split
  · rename_i here
    exact .inl here.1
  dsimp only
  split
  · exact .inr (.inl rfl)
  rename_i due
  rw [not_or, not_not, not_not] at due
  refine .inr (.inr ⟨due.1, ?_, ?_⟩)
  · intro none_
    simp [none_] at due
  · split <;> rfl

structure Agreed (d : Driver) : Prop where
  sane : Sane d.machine
  cause : ∀ error, d.machine.report.cause = some error → error.code ≠ .internal
  idle : d.begun = false → d.machine.state = .idle ∨ isTerminal d.machine.state = true
  asked : isTerminal d.machine.state = false → d.pending = [] ∨
    ∃ effect, d.pending = [effect] ∧ isRequest effect = true ∧ fits d.machine.state effect = true
  armed : isTerminal d.machine.state = false → d.machine.context.applyPoll ≠ none →
    isWait d.machine.state ∧ d.pending = []

inductive Allowed (d : Driver) (event : Event) : Prop
  | cancel (kind : event.kind = .cancel)
  | tick (kind : event.kind = .tick)
  | due (here : legal d.machine.state event.kind = true)
      (complete : carriesTable event.kind = true → event.state ≠ none)
      (left : d.pending.eraseP (answers · event) = []) (unarmed : d.machine.context.applyPoll = none)

section
variable (agreed : Agreed d) (live : isTerminal d.machine.state = false)
include agreed live

theorem Agreed.allowed (allows : d.allows event = true) : Allowed d event := by
  -- A state that waits for somebody else has no request out and no poll armed.
  have waits (state : UpdateState) (here : d.machine.state = state)
      (other : state = .idle ∨ state = .awaitingDisconnect ∨ state = .awaitingReconnect ∨ state = .awaitingConfirmation)
      (right : legal state event.kind = true) (plain : carriesTable event.kind = false) : Allowed d event := by
    have none_ : d.pending = [] := by
      rcases agreed.asked live with none_ | ⟨effect, _, request, fit⟩
      · exact none_
      have elsewhere := fits_request fit request
      rw [here] at elsewhere
      simp [elsewhere] at other
    refine .due (here ▸ right) (by simp [plain]) (by simp [none_]) ?_
    by_contra armed
    rcases (agreed.armed live armed).1 with at_ | at_ <;> rw [here] at at_ <;> simp [at_] at other
  have answered (some_ : d.pending.any (answers · event) = true) : Allowed d event := by
    rcases agreed.asked live with none_ | ⟨effect, one, request, fit⟩
    · simp [none_] at some_
    have answer : answers effect event = true := by simpa [one] using some_
    obtain ⟨right, complete⟩ := answers_legal fit answer
    refine .due right complete (by simp [one, answer]) ?_
    by_contra armed
    have none_ := (agreed.armed live armed).2
    simp [one] at none_
  simp only [Driver.allows, Bool.and_eq_true] at allows
  cases kind : event.kind with
  | cancel => exact .cancel kind
  | tick => exact .tick kind
  | start =>
    have fresh : d.begun = false := by simpa [kind] using allows.2
    rcases agreed.idle fresh with here | halted
    · exact waits _ here (by simp) (by rw [kind]; rfl) (by rw [kind]; rfl)
    · rw [live] at halted
      cases halted
  | disconnected =>
    have here : d.machine.state = .awaitingDisconnect := by simpa [kind] using allows.2
    exact waits _ here (by simp) (by rw [kind]; rfl) (by rw [kind]; rfl)
  | confirmApproved =>
    have here : d.machine.state = .awaitingConfirmation := by simpa [kind] using allows.2
    exact waits _ here (by simp) (by rw [kind]; rfl) (by rw [kind]; rfl)
  | reconnected | reconnectFailed =>
    have here : d.machine.state = .awaitingReconnect := by simpa [kind] using allows.2
    exact waits _ here (by simp) (by rw [kind]; rfl) (by rw [kind]; rfl)
  | _ =>
    rw [kind] at allows
    exact answered allows.2

theorem Agreed.blameless (ours : event.error.code ≠ .internal) (ordinary : ¬ Strange d.machine event) :
    ∀ error, (d.machine.apply event).2.report.cause = some error → error.code ≠ .internal := by
  intro error failed
  rw [apply_cause] at failed
  have blames := decided_blames (P := fun error => error.code ≠ .internal) (fun _ _ other => other) d.machine event live
    ours fun strange => absurd strange ordinary
  cases blames with
  | kept same => exact agreed.cause error (same.symm.trans failed)
  | failed blamed is cause =>
    obtain rfl : blamed = error := Option.some.inj (cause.symm.trans failed)
    exact is

end

theorem requested_asked (event : Event) :
    requested (m.apply event).1.effect = [] ∨ ∃ effect, requested (m.apply event).1.effect = [effect] ∧
      isRequest effect = true ∧ fits (m.apply event).2.state effect = true := by
  unfold requested
  split
  · rename_i request
    refine .inr ⟨_, rfl, request, ?_⟩
    rw [apply_effect, apply_state]
    exact decided_fits m event
  · exact .inl rfl

theorem Agreed.onward (agreed : Agreed d)
    (cause : ∀ error, (d.machine.apply event).2.report.cause = some error → error.code ≠ .internal)
    (idle : d.begun = false → event.kind ≠ .start →
      (d.machine.apply event).2.state = .idle ∨ isTerminal (d.machine.apply event).2.state = true)
    (left : d.pending.eraseP (answers · event) = []) (unarmed : (d.machine.decided event).2.applyPoll = none) :
    Agreed (d.feed event).2 := by
  have pending : (d.feed event).2.pending = requested (d.machine.apply event).1.effect := by
    simp only [Driver.feed, left, List.nil_append]
  refine ⟨apply_sane agreed.sane event, cause, fun fresh => ?_, fun _ => ?_, fun _ armed => ?_⟩
  · have both : d.begun = false ∧ event.kind ≠ .start := by simpa [Driver.feed] using fresh
    exact idle both.1 both.2
  · rw [pending]
    exact requested_asked event
  · have fit := apply_fits d.machine event
    rcases apply_applyPoll d.machine event armed with wait | kept
    · rw [pending, apply_effect, wait]
      rw [apply_effect, wait] at fit
      exact ⟨fits_awaitApply fit, rfl⟩
    · exact absurd (kept.trans unarmed) armed

theorem Agreed.step (agreed : Agreed d) (allows : d.allows event = true) : Agreed (d.feed event).2 := by
  cases live : isTerminal d.machine.state with
  | true =>
    have same := decided_halted live event
    have halted : isTerminal (d.machine.apply event).2.state = true := by
      rw [apply_state, same]
      exact live
    refine ⟨apply_sane agreed.sane event, fun error failed => ?_, fun _ => .inr halted, fun open_ => ?_, fun open_ => ?_⟩
    · rw [Driver.feed, apply_cause, same] at failed
      exact agreed.cause error failed
    · exact absurd (halted.symm.trans open_) (by simp)
    · exact absurd (halted.symm.trans open_) (by simp)
  | false =>
    have ours : event.error.code ≠ .internal := by
      simp only [Driver.allows, Bool.and_eq_true, bne_iff_ne] at allows
      exact allows.1
    have idle (fresh : d.begun = false) (other : event.kind ≠ .start) :
        (d.machine.apply event).2.state = .idle ∨ isTerminal (d.machine.apply event).2.state = true := by
      rcases agreed.idle fresh with here | halted
      · rw [apply_state]
        exact decided_idle agreed.sane here other
      · rw [live] at halted
        cases halted
    cases agreed.allowed live allows with
    | cancel kind =>
      have ordinary : ¬ Strange d.machine event :=
        agreed.sane.ordinary (by simp [kind, legal]) (by simp [kind, carriesTable])
      have decision := decided_cancel live kind agreed.sane.whole fun needs => agreed.sane.placed.inside (.inl needs)
      have halted : isTerminal (d.machine.apply event).2.state = true := by
        rw [apply_state, decision]
        rfl
      refine ⟨apply_sane agreed.sane event, agreed.blameless live ours ordinary, fun _ => .inr halted, fun open_ => ?_,
        fun open_ => ?_⟩
      · exact absurd (halted.symm.trans open_) (by simp)
      · exact absurd (halted.symm.trans open_) (by simp)
    | tick kind =>
      have cause := agreed.blameless live ours
        (agreed.sane.ordinary (by simp [kind, legal]) (by simp [kind, carriesTable]))
      have kept : d.pending.eraseP (answers · event) = d.pending := by
        refine List.eraseP_of_forall_not fun effect _ => ?_
        simp [answers, kind]
      rcases decided_tick agreed.sane kind with here | same | ⟨wait, armed, unarmed⟩
      · have none_ : d.pending = [] := by
          rcases agreed.asked live with none_ | ⟨effect, _, request, fit⟩
          · exact none_
          · exact absurd here (fits_request fit request).2.2.1
        have unarmed : d.machine.context.applyPoll = none := by
          by_contra armed
          rcases (agreed.armed live armed).1 with at_ | at_ <;> rw [here] at at_ <;> cases at_
        refine agreed.onward cause idle (kept.trans none_) ?_
        rcases decided_applyPoll d.machine event with same | none_
        · exact same.trans unarmed
        · exact none_
      · have state : (d.machine.apply event).2.state = d.machine.state := by rw [apply_state, same]
        have pending : (d.feed event).2.pending = d.pending := by simp [Driver.feed, kept, same, requested, isRequest]
        refine ⟨apply_sane agreed.sane event, cause, fun fresh => ?_, fun open_ => ?_, fun open_ armed => ?_⟩
        · exact idle (by simpa [Driver.feed, kind] using fresh) (by simp [kind])
        · rw [pending, show (d.feed event).2.machine.state = d.machine.state from state]
          exact agreed.asked live
        · rw [pending, show (d.feed event).2.machine.state = d.machine.state from state]
          refine agreed.armed live fun unarmed => ?_
          rcases apply_applyPoll d.machine event armed with wait | kept
          · simp [same] at wait
          · rw [same] at kept
            exact armed (kept.trans unarmed)
      · exact agreed.onward cause idle (kept.trans (agreed.armed live armed).2) unarmed
    | due here complete left unarmed =>
      refine agreed.onward (agreed.blameless live ours (agreed.sane.ordinary here complete)) idle left ?_
      rcases decided_applyPoll d.machine event with same | none_
      · exact same.trans unarmed
      · exact none_

theorem new_agreed {targets : List Target} (plan : UpdatePlan) (some_ : targets ≠ []) : Agreed (.new targets plan) :=
  ⟨new_sane plan some_, nofun, fun _ => .inl rfl, fun _ => .inl rfl, fun _ armed => absurd rfl armed⟩

theorem machineLog_driven (targets : List Target) (plan : UpdatePlan) (events : List Event) :
    machineLog targets plan events = (Systems.log Driver.feed (.new targets plan) events).map fun t =>
      ⟨t.before.machine, t.event, t.output, t.after.machine⟩ :=
  Systems.log_inside Machine.apply Driver.feed Driver.machine (fun _ _ => rfl) (.new targets plan) events

/-- Driven by the rules, the machine never fails internally, and has a current target wherever it works on one. -/
theorem conforming_never_internal (targets : List Target) (plan : UpdatePlan) (events : List Event)
    (some_ : targets ≠ []) (driven : conforms targets plan events) : ∀ t ∈ machineLog targets plan events,
      (∀ error, t.after.report.cause = some error → error.code ≠ .internal) ∧
      (needsCurrent t.after.state = true ∨ namesCurrent t.output.effect = true →
        t.after.context.current < t.after.context.targets.length) := by
  have agreed := Systems.guarded_transitions Driver.feed (Driver.new targets plan) Agreed
    (fun t => t.before.allows t.event = true)
    (fun t => Agreed t.after ∧ (namesCurrent t.output.effect = true →
      t.after.machine.context.current < t.after.machine.context.targets.length))
    (new_agreed plan some_) (fun _ _ allows agreed => agreed.step allows)
    (by
      intro d event allows agreed
      refine ⟨agreed.step allows, fun names => ?_⟩
      have names : namesCurrent (d.machine.decided event).1.effect = true := by
        rw [← apply_effect]
        exact names
      show (d.machine.apply event).2.context.current < (d.machine.apply event).2.context.targets.length
      rw [apply_current, apply_targets]
      rw [decided_eq agreed.sane] at names ⊢
      exact guardedDecide_named agreed.sane names)
    events driven
  intro t member
  rw [machineLog_driven] at member
  obtain ⟨u, found, rfl⟩ := List.mem_map.mp member
  obtain ⟨after, names⟩ := agreed u found
  refine ⟨after.cause, fun used => ?_⟩
  rcases used with needs | named
  · exact after.sane.placed.inside (.inl needs)
  · exact names named

def drivenRun : List Event :=
  [{ kind := .start }, { kind := .parametersRead, bufSize := 512 },
    { kind := .bootloaderRead, bootloader := { mode := .swapUsingMove } }, readBack [active 0 9 true, active 1 8 true],
    { kind := .continue }, { kind := .uploadSuspended }, { kind := .reconnected }, { kind := .uploadFinished },
    readBack [active 0 9 true, waiting 0 1 false, active 1 8 true],
    { kind := .markedForTest, state := some { slots := [active 0 9 true, waiting 0 1 true, active 1 8 true] } },
    { kind := .continue }, { kind := .uploadFinished },
    readBack [active 0 9 true, waiting 0 1 true, active 1 8 true, waiting 1 2 false],
    { kind := .markedForTest
      state := some { slots := [active 0 9 true, waiting 0 1 true, active 1 8 true, waiting 1 2 true] } },
    { kind := .resetAccepted }, { kind := .disconnected }, { kind := .reconnected },
    readBack [active 0 1 false, active 1 8 true, waiting 1 2 true], { kind := .tick, now := 5000 },
    readBack [active 0 1 false, active 1 2 false], { kind := .confirmApproved },
    { kind := .confirmed, state := some { slots := [active 0 1 true, active 1 2 false] } },
    readBack [active 0 1 true, active 1 2 true]]

theorem conforming_never_internal_driven : (runMachine package {} drivenRun).state = .completed ∧
      ∀ t ∈ machineLog package {} drivenRun,
        (∀ error, t.after.report.cause = some error → error.code ≠ .internal) ∧
        (needsCurrent t.after.state = true ∨ namesCurrent t.output.effect = true →
          t.after.context.current < t.after.context.targets.length) :=
  ⟨by decide +kernel, conforming_never_internal _ _ _ (by decide) (by decide +kernel)⟩

end Smply.Dfu
