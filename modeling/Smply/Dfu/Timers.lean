import Smply.Dfu.Conforming
import Smply.Dfu.Pace

namespace Smply.Dfu

open Context Machine Systems

variable {event : Event} {d : Driver} {state : UpdateState} {c : Context} {plan : UpdatePlan} {m : Machine}

section
variable (c : Context) (step : Step) (now : TimePoint) (plan : UpdatePlan)

theorem keepTime_graceDeadline : (c.keepTime step now plan).graceDeadline =
    if step.effect = .awaitDisconnect then some (now + plan.disconnectGrace)
    else if step.next = .awaitingDisconnect then c.graceDeadline else none := by
  unfold keepTime
  by_cases next : step.next = .awaitingDisconnect <;> by_cases phase : c.applyPhase = some step.next <;>
    cases effect : step.effect <;> simp_all

theorem keepTime_applyPoll : (c.keepTime step now plan).applyPoll =
    if step.effect = .awaitApply then some (now + plan.applyPollInterval)
    else if step.effect = .finish then none else c.applyPoll := by
  unfold keepTime
  by_cases next : step.next = .awaitingDisconnect <;> cases effect : step.effect <;> simp_all

theorem keepTime_timeout :
    ((c.keepTime step now plan).applyPhase, (c.keepTime step now plan).applyDeadline) =
      if step.effect = .awaitApply ∧ c.applyPhase ≠ some step.next then
        (some step.next, some (now + plan.applyTimeout))
      else if step.effect = .finish then (none, none) else (c.applyPhase, c.applyDeadline) := by
  unfold keepTime
  by_cases next : step.next = .awaitingDisconnect <;> by_cases phase : c.applyPhase = some step.next <;>
    cases effect : step.effect <;> simp_all

end

section
variable (m : Machine) (event : Event)

theorem decided_deadlines : (m.decided event).2.graceDeadline = m.context.graceDeadline ∧
    (m.decided event).2.applyPhase = m.context.applyPhase ∧
    (m.decided event).2.applyDeadline = m.context.applyDeadline := by
  cases decided_clock m event with
  | kept effect same | polled here tick effect same | forced here effect same =>
    have grace := congrArg graceDeadline same
    have phase := congrArg applyPhase same
    have deadline := congrArg applyDeadline same
    exact ⟨grace, phase, deadline⟩

theorem apply_graceDeadline : (m.apply event).2.context.graceDeadline =
    if (m.decided event).1.effect = .awaitDisconnect then some (event.now + m.plan.disconnectGrace)
    else if (m.decided event).1.next = .awaitingDisconnect then m.context.graceDeadline else none := by
  rw [← (decided_deadlines m event).1]
  unfold apply
  simp only [keepTime_graceDeadline, parameterise, parameterise_effect, parameterise_next]
  rfl

theorem apply_timeout : ((m.apply event).2.context.applyPhase, (m.apply event).2.context.applyDeadline) =
    if (m.decided event).1.effect = .awaitApply ∧ m.context.applyPhase ≠ some (m.decided event).1.next then
      (some (m.decided event).1.next, some (event.now + m.plan.applyTimeout))
    else if (m.decided event).1.effect = .finish then (none, none)
    else (m.context.applyPhase, m.context.applyDeadline) := by
  rw [← (decided_deadlines m event).2.1, ← (decided_deadlines m event).2.2]
  unfold apply
  simp only [keepTime_timeout, parameterise, parameterise_effect, parameterise_next]
  rfl

theorem apply_poll : (m.apply event).2.context.applyPoll =
    if (m.decided event).1.effect = .awaitApply then some (event.now + m.plan.applyPollInterval)
    else if (m.decided event).1.effect = .finish then none else (m.decided event).2.applyPoll := by
  unfold apply
  simp only [keepTime_applyPoll, parameterise, parameterise_effect]
  rfl

inductive Timeout (m : Machine) (event : Event) : Prop
  | kept (phase : (m.apply event).2.context.applyPhase = m.context.applyPhase)
      (deadline : (m.apply event).2.context.applyDeadline = m.context.applyDeadline)
      (goes : (m.decided event).1.effect ≠ .finish)
      (again : (m.decided event).1.effect = .awaitApply → m.context.applyPhase = some (m.decided event).1.next)
  | cleared (finish : (m.decided event).1.effect = .finish) (phase : (m.apply event).2.context.applyPhase = none)
      (deadline : (m.apply event).2.context.applyDeadline = none)
  | armed (waits : (m.decided event).1.effect = .awaitApply)
      (other : m.context.applyPhase ≠ some (m.decided event).1.next)
      (phase : (m.apply event).2.context.applyPhase = some (m.decided event).1.next)
      (deadline : (m.apply event).2.context.applyDeadline = some (event.now + m.plan.applyTimeout))

theorem apply_timeout_outcome : Timeout m event := by
  have both := apply_timeout m event
  split at both
  · rename_i arms
    exact .armed arms.1 arms.2 (congrArg Prod.fst both) (congrArg Prod.snd both)
  rename_i kept
  split at both
  · rename_i finish
    exact .cleared finish (congrArg Prod.fst both) (congrArg Prod.snd both)
  rename_i goes
  refine .kept (congrArg Prod.fst both) (congrArg Prod.snd both) goes fun waits => ?_
  by_contra other
  exact kept ⟨waits, other⟩

end

section
variable {m : Machine} {event : Event} {result : Step × Context}

theorem Judged.waits (judged : Judged c result) (wait : isWait result.1.next) : result.1.effect = .awaitApply := by
  have live : isTerminal result.1.next = false := by rcases wait with here | here <;> rw [here] <;> rfl
  rcases judged.effect with finish | waits | ⟨window, _⟩
  · rw [judged.ends.mp finish] at live
    cases live
  · exact waits
  · rcases window with here | here <;> rcases wait with other | other <;> rw [here] at other <;> cases other

theorem Planned.waits (outcome : Planned plan c result) (wait : isWait result.1.next) :
    result.1.effect = .awaitApply := by
  cases outcome with
  | judged _ outcome => exact outcome.judged.waits wait
  | _ => simp [isWait, fail] at wait

theorem Row.waits (row : Row m event result) (wait : isWait result.1.next) :
    result.1.effect = .awaitApply ∨ result.1.next = m.state := by
  cases row with
  | settled | idle | polled => exact .inr rfl
  | waitRepeated => exact .inl rfl
  | planned _ _ outcome | uploadedOnly _ _ outcome | marked _ _ _ outcome | unmarked _ _ _ _ outcome =>
    exact .inl (outcome.planned.waits wait)
  | booted _ _ _ outcome | applyRead _ _ _ outcome | commitRead _ _ _ outcome | confirmVerified _ _ _ _ outcome =>
    exact .inl (outcome.judged.waits wait)
  | _ => simp [isWait, fail] at wait

def reboots (state : UpdateState) : Prop := state = .resetting ∨ state = .awaitingDisconnect

theorem Judged.not_reboots (judged : Judged c result) : ¬ reboots result.1.next := by
  intro reboot
  rcases judged.next with next | next | next | next | next | next <;> simp [reboots, next] at reboot

theorem Row.reboots (row : Row m event result) (reboot : reboots result.1.next) :
    m.stage < 3 ∨ Dfu.reboots m.state := by
  have staging {state : UpdateState} (here : m.state = state) (low : stage state m.context.uploadInProgress < 3) :
      m.stage < 3 ∨ Dfu.reboots m.state := by
    rw [Machine.stage, here]
    exact .inl low
  cases row with
  | settled | idle | polled | waitRepeated => exact .inr reboot
  | forced here | rebooting here => exact .inr (.inl here)
  | planned here | uploadedOnly here | unmarked here | toMark here | marked here => exact staging here (by simp [stage])
  | booted _ _ _ outcome | applyRead _ _ _ outcome | commitRead _ _ _ outcome | confirmVerified _ _ _ _ outcome =>
    exact absurd reboot outcome.judged.not_reboots
  | _ => simp [Dfu.reboots, fail] at reboot

theorem decided_waits (wait : isWait (m.decided event).1.next) :
    (m.decided event).1.effect = .awaitApply ∨ (m.decided event).1.next = m.state := by
  revert wait
  exact decided_cases m event Row.waits (by simp [isWait, fail])

theorem decided_reboots (reboot : reboots (m.decided event).1.next) : m.stage < 3 ∨ reboots m.state := by
  revert reboot
  exact decided_cases m event Row.reboots (by simp [reboots, fail])

end

structure Punctual (m : Machine) : Prop where
  fit : Fit m
  grace : m.context.graceDeadline ≠ none → m.state = .awaitingDisconnect
  phase : isWait m.state → m.context.applyPhase = some m.state
  late : m.context.applyDeadline ≠ none → m.stage = 3 ∧ ¬ reboots m.state

theorem fits_awaitDisconnect (fit : fits state .awaitDisconnect = true) : state = .awaitingDisconnect := by
  cases state <;> first | rfl | cases fit

theorem Punctual.step (punctual : Punctual m) (event : Event) : Punctual (m.apply event).2 := by
  have fit := punctual.fit
  have paces := decided_paces fit event
  have outcome := apply_timeout_outcome m event
  refine ⟨fit.apply event, fun armed => ?_, fun wait => ?_, fun armed => ?_⟩
  · rw [apply_state]
    rw [apply_graceDeadline] at armed
    split at armed
    · rename_i waits
      have fits := decided_fits m event
      rw [waits] at fits
      exact fits_awaitDisconnect fits
    · split at armed
      · assumption
      · exact absurd rfl armed
  · rw [apply_state] at wait ⊢
    cases outcome with
    | kept phase _ _ again =>
      rw [phase]
      rcases decided_waits wait with waits | same
      · exact again waits
      · rw [same] at wait ⊢
        exact punctual.phase wait
    | cleared finish =>
      have fits := decided_fits m event
      rw [finish] at fits
      rcases wait with here | here <;> rw [here] at fits <;> cases fits
    | armed _ _ phase => exact phase
  · rw [apply_stage, apply_state]
    cases outcome with
    | kept _ deadline =>
      rw [deadline] at armed
      obtain ⟨past, calm⟩ := punctual.late armed
      refine ⟨paces.beyond past, fun reboot => ?_⟩
      rcases decided_reboots reboot with low | before
      · omega
      · exact calm before
    | cleared _ _ deadline => exact absurd deadline armed
    | armed waits =>
      have fits := decided_fits m event
      rw [waits] at fits
      rcases fits_awaitApply fits with here | here <;> rw [here] <;> exact ⟨rfl, by simp [reboots]⟩

section
variable (targets : List Target) (plan : UpdatePlan)

theorem run_punctual (events : List Event) :
    Punctual (runMachine targets plan events) := by
  have start : Punctual (new targets plan) :=
    ⟨run_fit targets plan [], by simp [new], by simp [isWait, new], by simp [new]⟩
  exact state_invariant apply _ Punctual start (fun _ event before => before.step event) events

def Summed (report : UpdateReport) : Prop := report.summarise = report

theorem summarise_summed (report : UpdateReport) : Summed report.summarise := by
  unfold Summed
  cases images : report.images <;> simp [UpdateReport.summarise, images]

theorem finishReport_summed (c : Context) (step : Step) (summed : Summed c.report) : Summed (c.finishReport step) := by
  unfold finishReport
  split
  · unfold Summed UpdateReport.summarise at *
    cases images : c.report.images with
    | nil => rfl
    | cons =>
      simp only [images] at summed ⊢
      rw [← summed]
  · exact summed

theorem apply_summed (m : Machine) (event : Event) : Summed (m.apply event).2.context.report := by
  have summed : Summed (m.apply event).2.report := by
    rw [apply_report]
    exact finishReport_summed _ _ (summarise_summed (m.decided event).2.report)
  exact summed

theorem new_summed : Summed (Machine.new targets plan).context.report := by
  cases targets with
  | nil => rfl
  | cons =>
    have sent : ∀ targets : List Target, List.foldl (fun sum image => sum + image.bytesTransferred) 0
        (targets.map fun target =>
          ({ image := target.image, commit := target.commit, targetHash := target.hash } : ImageReport)) = 0 := by
      intro targets
      induction targets <;> simp_all
    simp [Summed, UpdateReport.summarise, new, sent]

theorem run_summed (events : List Event) :
    Summed (runMachine targets plan events).context.report :=
  state_invariant apply _ (fun m => Summed m.context.report) (new_summed targets plan)
    (fun m event _ => apply_summed m event) events

end

theorem apply_unchanged (punctual : Punctual m) (summed : Summed m.context.report)
    (same : m.decided event = ({ next := m.state, effect := .none }, m.context)) :
    m.apply event = ({ next := m.state, effect := .none }, m) := by
  have grace : m.context.keepTime { next := m.state, effect := .none } event.now m.plan = m.context := by
    unfold keepTime
    by_cases here : m.state = .awaitingDisconnect
    · simp [here]
    have unarmed : m.context.graceDeadline = none := by
      by_contra armed
      exact here (punctual.grace armed)
    simp only [ne_eq, here, not_false_eq_true, ↓reduceIte]
    rw [← unarmed]
  have report : m.context.summarise = m.context := by
    unfold summarise
    rw [summed]
  unfold apply
  simp only [same, report, parameterise, Step.parameterise, finishReport, grace]

section

def replies (effect : Effect) (kind : EventKind) : Bool :=
  answers effect { kind := kind, state := some { slots := [] } }

/-- A request is answered once, and only while it is out. What answers no request may come at any time. -/
def Driver.heeds (d : Driver) (event : Event) : Bool :=
  match event.kind with
  | .start | .tick | .cancel | .disconnected | .confirmApproved | .reconnected | .reconnectFailed => true
  | kind => d.pending.any (replies · kind)

def answersInTurn (targets : List Target) (plan : UpdatePlan) (events : List Event) : Prop :=
  ∀ t ∈ Systems.log Driver.feed (Driver.new targets plan) events, t.before.heeds t.event = true

instance (targets : List Target) (plan : UpdatePlan) (events : List Event) :
    Decidable (answersInTurn targets plan events) := by
  unfold answersInTurn
  infer_instance

structure Timed (d : Driver) : Prop where
  punctual : Punctual d.machine
  asked : isTerminal d.machine.state = false → d.pending = [] ∨
    ∃ effect, d.pending = [effect] ∧ isRequest effect = true ∧ fits d.machine.state effect = true
  polled : d.machine.context.applyPoll ≠ none → isWait d.machine.state ∧ d.pending = []

inductive Heeded (d : Driver) (event : Event) : Prop
  | ends (finish : (d.machine.decided event).1.effect = .finish)
  | tick (sane : Sane d.machine) (kind : event.kind = .tick)
  | due (left : d.pending.eraseP (answers · event) = []) (unarmed : d.machine.context.applyPoll = none)

theorem decide_misplaced (c : Context) (misplaced : legal state event.kind = false) :
    c.decide state event plan = c.illegal := by
  unfold Context.decide
  split
  · rename_i kind
    rw [kind] at misplaced
    cases state <;> cases misplaced
  · rename_i kind
    rw [kind] at misplaced
    cases state <;> cases misplaced
  · split <;> rename_i kind <;> first
      | rfl
      | (rw [kind] at misplaced
         cases misplaced)
      | (simp [legal] at misplaced)

section
variable {m : Machine} {event : Event}

theorem misplaced_ends (sane : Sane m) (misplaced : legal m.state event.kind = false) :
    (m.decided event).1.effect = .finish := by
  rw [decided_eq sane]
  unfold guardedDecide
  dsimp only
  split
  · rw [decide_misplaced _ misplaced]
    rfl
  · rfl

theorem tableless_ends (sane : Sane m) (live : isTerminal m.state = false) (carries : carriesTable event.kind = true)
    (none_ : event.state = none) : (m.decided event).1.effect = .finish := by
  rw [decided_eq sane]
  simp [guardedDecide, live, carries, none_, failAt, fail]

theorem legal_unasked {kind : EventKind} (live : isTerminal state = false)
    (right : legal state kind = true) (unasked : kind = .start ∨ kind = .disconnected ∨ kind = .confirmApproved ∨
      kind = .reconnected ∨ kind = .reconnectFailed) :
    state = .idle ∨ state = .awaitingDisconnect ∨ state = .awaitingReconnect ∨ state = .awaitingConfirmation := by
  rcases unasked with rfl | rfl | rfl | rfl | rfl <;> cases state <;> first
    | exact absurd right (by decide)
    | exact absurd live (by decide)
    | simp

theorem replies_answers {effect : Effect} (replied : replies effect event.kind = true)
    (complete : carriesTable event.kind = true → event.state.isSome = true) : answers effect event = true := by
  unfold replies answers at replied
  unfold answers
  split at replied <;> simp_all [carriesTable]

end

section
variable (timed : Timed d)
include timed

theorem Timed.heeded (live : isTerminal d.machine.state = false) (heeds : d.heeds event = true) : Heeded d event := by
  rcases timed.punctual.fit with sane | barren
  · have unasked (none_ : event.kind = .start ∨ event.kind = .disconnected ∨ event.kind = .confirmApproved ∨
        event.kind = .reconnected ∨ event.kind = .reconnectFailed) : Heeded d event := by
      cases right : legal d.machine.state event.kind with
      | false => exact .ends (misplaced_ends sane right)
      | true =>
        have here := legal_unasked live right none_
        have empty : d.pending = [] := by
          rcases timed.asked live with empty | ⟨effect, _, request, fit⟩
          · exact empty
          · have elsewhere := fits_request fit request
            simp [elsewhere] at here
        refine .due (by rw [empty]; rfl) ?_
        by_contra armed
        rcases (timed.polled armed).1 with at_ | at_ <;> simp [at_] at here
    have answered (some_ : d.pending.any (replies · event.kind) = true) : Heeded d event := by
      rcases timed.asked live with empty | ⟨effect, one, request, fit⟩
      · simp [empty] at some_
      by_cases missing : carriesTable event.kind = true ∧ event.state = none
      · exact .ends (tableless_ends sane live missing.1 missing.2)
      have replied : replies effect event.kind = true := by simpa [one] using some_
      have answer : answers effect event = true := by
        refine replies_answers replied fun carries => Option.isSome_iff_ne_none.mpr fun none_ => ?_
        exact missing ⟨carries, none_⟩
      refine .due (by simp [one, answer]) ?_
      by_contra armed
      have empty := (timed.polled armed).2
      simp [one] at empty
    unfold Driver.heeds at heeds
    split at heeds
    · exact unasked (by simp [*])
    · exact .tick sane ‹_›
    · rename_i kind
      refine .ends ?_
      rw [decided_cancel live kind sane.whole fun needs => sane.placed.inside (.inl needs)]
    · exact unasked (by simp [*])
    · exact unasked (by simp [*])
    · exact unasked (by simp [*])
    · exact unasked (by simp [*])
    · exact answered heeds
  · rcases barren.decided event with ⟨_, halted⟩ | same
    · rw [live] at halted
      cases halted
    · exact .ends (by rw [same]; rfl)

theorem Timed.onward (left : d.pending.eraseP (answers · event) = [])
    (unarmed : (d.machine.decided event).2.applyPoll = none) : Timed (d.feed event).2 := by
  have pending : (d.feed event).2.pending = requested (d.machine.apply event).1.effect := by
    simp only [Driver.feed, left, List.nil_append]
  refine ⟨timed.punctual.step event, fun _ => ?_, fun armed => ?_⟩
  · rw [pending]
    exact requested_asked event
  change (d.machine.apply event).2.context.applyPoll ≠ none at armed
  rw [apply_poll] at armed
  split at armed
  · rename_i wait
    have fit := apply_fits d.machine event
    rw [apply_effect, wait] at fit
    rw [pending, apply_effect, wait]
    exact ⟨fits_awaitApply fit, rfl⟩
  · split at armed
    · exact absurd rfl armed
    · exact absurd unarmed armed

theorem Timed.over_ (halted : isTerminal (d.machine.apply event).2.state = true)
    (unarmed : (d.machine.apply event).2.context.applyPoll = none) : Timed (d.feed event).2 := by
  refine ⟨timed.punctual.step event, fun live => ?_, fun armed => absurd unarmed armed⟩
  exact absurd (halted.symm.trans live) (by simp)

theorem Timed.rests (live : isTerminal d.machine.state = false)
    (kept : d.pending.eraseP (answers · event) = d.pending)
    (same : d.machine.decided event = ({ next := d.machine.state, effect := .none }, d.machine.context)) :
    Timed (d.feed event).2 := by
  have state : (d.feed event).2.machine.state = d.machine.state := (apply_state _ _).trans (by rw [same])
  have pending : (d.feed event).2.pending = d.pending := by simp [Driver.feed, kept, same, requested, isRequest]
  have poll : (d.feed event).2.machine.context.applyPoll = d.machine.context.applyPoll :=
    (apply_poll _ _).trans (by simp [same])
  refine ⟨timed.punctual.step event, fun _ => ?_, fun armed => ?_⟩
  · rw [state, pending]
    exact timed.asked live
  rw [poll] at armed
  rw [state, pending]
  exact timed.polled armed

theorem Timed.step (heeds : d.heeds event = true) : Timed (d.feed event).2 := by
  cases live : isTerminal d.machine.state with
  | true =>
    have same := decided_halted live event
    have unarmed : d.machine.context.applyPoll = none := by
      by_contra armed
      rcases (timed.polled armed).1 with here | here <;> rw [here] at live <;> cases live
    refine timed.over_ ?_ ?_
    · rw [apply_state, same]
      exact live
    · rw [apply_poll, same]
      exact unarmed
  | false =>
    cases timed.heeded live heeds with
    | ends finish =>
      refine timed.over_ ?_ ?_
      · rw [apply_state]
        rcases decided_ends d.machine event with ⟨halted, _⟩ | ⟨_, ends⟩
        · rw [live] at halted
          cases halted
        · exact ends.mp finish
      · rw [apply_poll, finish]
        rfl
    | tick sane kind =>
      have kept : d.pending.eraseP (answers · event) = d.pending := by
        refine List.eraseP_of_forall_not fun effect _ => ?_
        simp [answers, kind]
      rcases decided_tick sane kind with here | same | ⟨wait, armed, unarmed⟩
      · have empty : d.pending = [] := by
          rcases timed.asked live with empty | ⟨effect, _, request, fit⟩
          · exact empty
          · exact absurd here (fits_request fit request).2.2.1
        refine timed.onward (kept.trans empty) ?_
        rcases decided_applyPoll d.machine event with same | none_
        · rw [same]
          by_contra armed
          rcases (timed.polled armed).1 with at_ | at_ <;> rw [here] at at_ <;> cases at_
        · exact none_
      · exact timed.rests live kept same
      · exact timed.onward (kept.trans (timed.polled armed).2) unarmed
    | due left unarmed =>
      refine timed.onward left ?_
      rcases decided_applyPoll d.machine event with same | none_
      · exact same.trans unarmed
      · exact none_

end

theorem new_timed (targets : List Target) (plan : UpdatePlan) : Timed (.new targets plan) :=
  ⟨run_punctual targets plan [], fun _ => .inl rfl, fun armed => absurd rfl armed⟩

end

section
variable {m : Machine} {event : Event}

theorem nextDeadline_grace {deadline : TimePoint} (grace : m.context.graceDeadline = some deadline) :
    m.nextDeadline = some deadline := by
  simp [nextDeadline, grace]

theorem nextDeadline_poll (grace : m.context.graceDeadline = none) : m.nextDeadline = m.context.applyPoll := by
  simp [nextDeadline, grace]

theorem decided_tick_early (punctual : Punctual m) (sane : Sane m) (tick : event.kind = .tick)
    (early : ∀ deadline, m.nextDeadline = some deadline → event.now < deadline) :
    m.decided event = ({ next := m.state, effect := .none }, m.context) := by
  have unripe {deadline : Option TimePoint} (next : ∀ time, deadline = some time → m.nextDeadline = some time) :
      ¬ deadline.any (· ≤ event.now) = true := by
    cases deadline with
    | none => simp
    | some time =>
      have later := early time (next time rfl)
      simpa using later
  rw [decided_tick_eq sane tick]
  unfold Context.tick
  rw [if_neg fun due => unripe (fun _ => nextDeadline_grace) due.2]
  refine if_pos ?_
  by_cases wait : isWait m.state
  · have unarmed : m.context.graceDeadline = none := by
      by_contra armed
      have here := punctual.grace armed
      rcases wait with other | other <;> rw [here] at other <;> cases other
    exact .inr (unripe fun _ poll => (nextDeadline_poll unarmed).trans poll)
  · exact .inl wait

theorem decided_tick_late (sane : Sane m) (tick : event.kind = .tick) (wait : isWait m.state) {poll limit : TimePoint}
    (armed : m.context.applyPoll = some poll) (due : poll ≤ event.now) (timeout : m.context.applyDeadline = some limit)
    (over_ : limit ≤ event.now) :
    ∃ site, m.decided event = { m.context with applyPoll := none }.failAt .timeout site := by
  rw [decided_tick_eq sane tick]
  unfold Context.tick
  rw [if_neg (by rcases wait with here | here <;> simp [here])]
  dsimp only
  have ripe : ¬ (¬ isWait m.state ∨ ¬ m.context.applyPoll.any (· ≤ event.now) = true) := by
    rw [not_or, not_not, not_not]
    exact ⟨wait, by simpa [armed] using due⟩
  have passed : m.context.applyDeadline.any (· ≤ event.now) = true := by simpa [timeout] using over_
  exact ⟨_, (if_neg ripe).trans (if_pos passed)⟩

end

inductive KeepsTimeout (t : MachineStep) : Prop
  | same (phase : t.after.context.applyPhase = t.before.context.applyPhase)
      (deadline : t.after.context.applyDeadline = t.before.context.applyDeadline)
  | cleared (finish : t.output.effect = .finish) (phase : t.after.context.applyPhase = none)
      (deadline : t.after.context.applyDeadline = none)
  | armed (wait : isWait t.after.state) (entered : t.before.state ≠ t.after.state)
      (other : t.before.context.applyPhase ≠ some t.after.state)
      (phase : t.after.context.applyPhase = some t.after.state)
      (deadline : t.after.context.applyDeadline = some (t.event.now + t.before.plan.applyTimeout))

theorem Punctual.keepsTimeout (punctual : Punctual m) (event : Event) :
    KeepsTimeout (Systems.transition Machine.apply m event) := by
  cases apply_timeout_outcome m event with
  | kept phase deadline => exact .same phase deadline
  | cleared finish phase deadline => exact .cleared ((apply_effect m event).trans finish) phase deadline
  | armed waits other phase deadline =>
    have fits := decided_fits m event
    rw [waits] at fits
    have wait := fits_awaitApply fits
    have state := apply_state m event
    rw [← state] at wait other phase
    refine .armed wait (fun same => other ?_) other phase deadline
    change m.state = (m.apply event).2.state at same
    rw [← same] at wait ⊢
    exact punctual.phase wait

def staysWith (wait : UpdateState) (t : MachineStep) : Prop :=
  t.output.effect ≠ .finish ∧ (t.output.effect = .awaitApply → t.after.state = wait)

theorem timeout_stays {targets : List Target} {events : List Event} {past later : List MachineStep}
    {t : MachineStep} (split : machineLog targets plan events = past ++ t :: later) {wait : UpdateState}
    (armed : t.after.context.applyPhase = some wait) (stays : ∀ u ∈ later, staysWith wait u) :
    ∀ u ∈ later, u.after.context.applyPhase = some wait ∧
      u.after.context.applyDeadline = t.after.context.applyDeadline := by
  obtain ⟨earlier, event, rest, _, _, _, rest_eq⟩ := log_split apply _ events split
  have keeps (m : Machine) (event : Event) (guard : staysWith wait (transition apply m event))
      (before : m.context.applyPhase = some wait ∧ m.context.applyDeadline = t.after.context.applyDeadline) :
      (m.apply event).2.context.applyPhase = some wait ∧
        (m.apply event).2.context.applyDeadline = t.after.context.applyDeadline := by
    cases apply_timeout_outcome m event with
    | kept phase deadline => exact ⟨phase.trans before.1, deadline.trans before.2⟩
    | cleared finish => exact absurd ((apply_effect m event).trans finish) guard.1
    | armed waits other =>
      have here := guard.2 ((apply_effect m event).trans waits)
      have same := (apply_state m event).symm.trans here
      rw [same] at other
      exact absurd before.1 other
  rw [rest_eq] at stays ⊢
  exact guarded_transitions apply t.after
    (fun m => m.context.applyPhase = some wait ∧ m.context.applyDeadline = t.after.context.applyDeadline)
    (staysWith wait) _ ⟨armed, rfl⟩ keeps keeps rest stays

structure KeepsTime (t : MachineStep) : Prop where
  grace : t.after.context.graceDeadline ≠ none → t.after.state = .awaitingDisconnect
  poll : t.after.context.applyPoll ≠ none → isWait t.after.state
  one : t.after.context.graceDeadline = none ∨ t.after.context.applyPoll = none
  early : t.event.kind = .tick → ∀ deadline, t.before.nextDeadline = some deadline → t.event.now < deadline →
    t.after = t.before ∧ t.output.effect = .none
  idle : t.event.kind = .tick → t.before.nextDeadline = none → t.before.context.targets ≠ [] →
    t.after = t.before ∧ t.output.effect = .none
  timeout : KeepsTimeout t
  late : t.event.kind = .tick → ∀ deadline, t.before.nextDeadline = some deadline → deadline ≤ t.event.now →
    ∀ limit, t.before.context.applyDeadline = some limit → limit ≤ t.event.now →
    t.after.state = .failed ∧ ∃ error, t.after.report.cause = some error ∧ error.code = .timeout

theorem wait_not_disconnect (wait : isWait state) : state ≠ .awaitingDisconnect := by
  rcases wait with here | here <;> simp [here]

theorem Timed.sane (timed : Timed d) {deadline : TimePoint}
    (next : d.machine.nextDeadline = some deadline) : Sane d.machine := by
  rcases timed.punctual.fit with sane | barren
  · exact sane
  have elsewhere {state : UpdateState} (here : d.machine.state = state)
      (other : state = .awaitingDisconnect ∨ isWait state) : False := by
    rcases barren.over_ with idle | halted
    · rw [here] at idle
      rcases other with at_ | at_ | at_ <;> rw [idle] at at_ <;> cases at_
    · rw [here] at halted
      rcases other with at_ | at_ | at_ <;> rw [at_] at halted <;> cases halted
  by_cases grace : d.machine.context.graceDeadline = none
  · rw [nextDeadline_poll grace] at next
    exact (elsewhere rfl (.inr (timed.polled (by simp [next])).1)).elim
  · exact (elsewhere rfl (.inl (timed.punctual.grace grace))).elim

theorem Timed.keepsTime (timed : Timed d) (summed : Summed d.machine.context.report)
    (heeds : d.heeds event = true) : KeepsTime (Systems.transition Machine.apply d.machine event) := by
  have after := timed.step heeds
  have unchanged (sane : Sane d.machine) (tick : event.kind = .tick)
      (early : ∀ deadline, d.machine.nextDeadline = some deadline → event.now < deadline) :
      (d.machine.apply event).2 = d.machine ∧ (d.machine.apply event).1.effect = .none := by
    rw [apply_unchanged timed.punctual summed (decided_tick_early timed.punctual sane tick early)]
    exact ⟨rfl, rfl⟩
  refine ⟨after.punctual.grace, fun armed => (after.polled armed).1, ?_, ?_, ?_, timed.punctual.keepsTimeout event, ?_⟩
  · by_contra both
    rw [not_or] at both
    exact wait_not_disconnect (after.polled both.2).1 (after.punctual.grace both.1)
  · intro tick deadline next early
    refine unchanged (timed.sane next) tick fun other is => ?_
    obtain rfl : deadline = other := Option.some.inj (next.symm.trans is)
    exact early
  · intro tick none_ whole
    have sane : Sane d.machine := by
      rcases timed.punctual.fit with sane | barren
      · exact sane
      · exact absurd barren.none_ whole
    refine unchanged sane tick fun deadline is => ?_
    exact absurd (none_.symm.trans is) (by simp)
  · intro tick deadline next due limit armed over_
    have sane := timed.sane next
    have unarmed : d.machine.context.graceDeadline = none := by
      by_contra grace
      exact (timed.punctual.late (by simp [show d.machine.context.applyDeadline = some limit from armed])).2
        (.inr (timed.punctual.grace grace))
    have poll := (nextDeadline_poll unarmed).symm.trans next
    obtain ⟨site, failed⟩ := decided_tick_late sane tick (timed.polled (by simp [poll])).1 poll due armed over_
    have next := congrArg (fun result => result.1.next) failed
    have cause := congrArg (fun result => result.2.report.cause) failed
    exact ⟨(apply_state _ _).trans next, Error.at .timeout site, (apply_cause _ _).trans cause, rfl⟩

/-- A machine has one timer at most, a tick before it changes nothing, and a wait's timeout stays until another wait is
entered. -/
theorem timers_keep_time (targets : List Target) (plan : UpdatePlan) (events : List Event)
    (driven : answersInTurn targets plan events) : (∀ t ∈ machineLog targets plan events, KeepsTime t) ∧
      ∀ past t later wait, machineLog targets plan events = past ++ t :: later →
        t.after.context.applyPhase = some wait → (∀ u ∈ later, staysWith wait u) →
        ∀ u ∈ later, u.after.context.applyDeadline = t.after.context.applyDeadline := by
  refine ⟨?_, fun past t later wait split armed stays u member => (timeout_stays split armed stays u member).2⟩
  have all := guarded_transitions Driver.feed (Driver.new targets plan)
    (fun d => Timed d ∧ Summed d.machine.context.report) (fun t => t.before.heeds t.event = true)
    (fun t => KeepsTime ⟨t.before.machine, t.event, t.output, t.after.machine⟩)
    ⟨new_timed targets plan, new_summed targets plan⟩
    (fun d event heeds inv => ⟨inv.1.step heeds, apply_summed d.machine event⟩)
    (fun d event heeds inv => inv.1.keepsTime inv.2 heeds) events driven
  intro t member
  rw [machineLog_driven] at member
  obtain ⟨u, found, rfl⟩ := List.mem_map.mp member
  exact all u found

/-- A device that does not apply the second image: polled too early, then in time with the answer lost, then too late. -/
def unappliedRun : List Event :=
  drivenRun.take 18 ++ [{ kind := .tick, now := 1000 }, { kind := .tick, now := 5000 },
    { kind := .failed, now := 6000, error := { code := .timeout } }, { kind := .tick, now := 400000 }]

theorem timers_keep_time_unapplied : answersInTurn package {} unappliedRun ∧
      (runMachine package {} (unappliedRun.take 21)).context.applyDeadline = some 300000 ∧
      (runMachine package {} unappliedRun).state = .failed ∧ ∀ t ∈ machineLog package {} unappliedRun, KeepsTime t := by
  have driven : answersInTurn package {} unappliedRun := by decide +kernel
  exact ⟨driven, by decide +kernel, by decide +kernel, (timers_keep_time package {} unappliedRun driven).1⟩

end Smply.Dfu
