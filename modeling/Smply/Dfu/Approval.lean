import Smply.Dfu.Sane

namespace Smply.Dfu

open List Context Machine Systems

variable {m : Machine} {event : Event}

structure Forks (plan : UpdatePlan) (c : Context) (result : Step × Context) : Prop where
  approved : result.2.confirmApproved = c.confirmApproved
  asks : result.1.effect = .requestConfirmation → c.confirmApproved = false ∧ result.1.next = .awaitingConfirmation
  asked : result.1.next = .awaitingConfirmation → result.1.effect = .requestConfirmation
  confirms : result.1.effect = .confirm → c.confirmApproved = true ∨ plan.mode = .confirmImmediately
  confirming : isConfirmRound result.1.next → result.1.effect = .confirm

section
variable {plan : UpdatePlan} {c : Context} {result : Step × Context}

theorem Forks.elsewhere (approved : result.2.confirmApproved = c.confirmApproved)
    (effect : result.1.effect ≠ .requestConfirmation ∧ result.1.effect ≠ .confirm)
    (next : result.1.next ≠ .awaitingConfirmation ∧ ¬ isConfirmRound result.1.next) : Forks plan c result where
  approved := approved
  asks asks := absurd asks effect.1
  asked asked := absurd asked next.1
  confirms confirm := absurd confirm effect.2
  confirming round := absurd round next.2

theorem Forks.from {first second : Context} (forks : Forks plan second result)
    (same : second.confirmApproved = first.confirmApproved) : Forks plan first result where
  approved := forks.approved.trans same
  asks asks := ⟨same ▸ (forks.asks asks).1, (forks.asks asks).2⟩
  asked := forks.asked
  confirms confirm := same ▸ forks.confirms confirm
  confirming := forks.confirming

theorem fail_forks (error : Error) {at_ : Context} (same : at_.confirmApproved = c.confirmApproved) :
    Forks plan c (at_.fail error) :=
  .elsewhere same (by simp [fail]) (by simp [fail, isConfirmRound])

theorem confirmationFork_forks (plan : UpdatePlan) (c : Context) : Forks plan c (c.confirmationFork plan) := by
  unfold confirmationFork
  dsimp only
  by_cases fork : (plan.mode == .confirmImmediately || c.confirmApproved) = true
  · rw [if_pos fork]
    refine ⟨rfl, by simp, by simp, fun _ => ?_, fun _ => rfl⟩
    rcases Bool.or_eq_true_iff.mp fork with immediately | approved
    · exact .inr (by simpa using immediately)
    · exact .inl approved
  · rw [if_neg fork]
    refine ⟨rfl, fun _ => ⟨?_, rfl⟩, fun _ => rfl, by simp, by simp [isConfirmRound]⟩
    simp only [Bool.or_eq_true, not_or] at fork
    simpa using fork.2

theorem AwaitCommit.forks {committing : Bool} {targets : List Image}
    (outcome : AwaitCommit c committing targets result) : Forks plan c result := by
  cases outcome with
  | failed => exact fail_forks _ rfl
  | waiting | completed => exact .elsewhere rfl (by simp) (by simp [isConfirmRound])

theorem AwaitDevice.forks {applying : Bool} {targets : List Image}
    (outcome : AwaitDevice plan c applying targets result) : Forks plan c result := by
  cases outcome with
  | failed => exact fail_forks _ rfl
  | waiting => exact .elsewhere rfl (by simp) (by simp [isConfirmRound])
  | commit _ _ _ _ _ outcome => exact outcome.forks.from rfl
  | fork => exact (confirmationFork_forks plan _).from rfl

theorem InspectBoot.forks (outcome : InspectBoot plan c result) : Forks plan c result := by
  cases outcome with
  | inactive | stopped => exact fail_forks _ rfl
  | running _ _ _ outcome => exact outcome.forks.from rfl

theorem Moves.confirmApproved {after : Context} (moves : Moves plan c after) :
    after.confirmApproved = c.confirmApproved := by
  rw [moves.frame]
  rfl

theorem Planned.forks (outcome : Planned plan c result) : Forks plan c result := by
  cases outcome with
  | stopped moves error => exact fail_forks error moves.confirmApproved
  | refused moves | upload moves | next moves | reset moves | uploaded moves | mark moves =>
    exact .elsewhere moves.confirmApproved (by simp) (by simp [isConfirmRound])
  | judged moves outcome => exact outcome.forks.from moves.confirmApproved

end

def Approves (m : Machine) (event : Event) (next : UpdateState) : Prop :=
  m.state = .awaitingConfirmation ∧ event.kind = .confirmApproved ∧ next = .confirming

inductive Consents (m : Machine) (event : Event) (result : Step × Context) : Prop
  | approved (approves : Approves m event result.1.next) (given : result.2.confirmApproved = true)
      (effect : result.1.effect = .confirm)
  | round (here : isConfirmRound m.state) (kept : result.2.confirmApproved = m.context.confirmApproved)
      (silent : result.1.effect ≠ .requestConfirmation) (next : result.1.next ≠ .awaitingConfirmation)
  | idle (kept : result.2.confirmApproved = m.context.confirmApproved) (quiet : result.1.effect = .none)
      (same : result.1.next = m.state)
  | over_ (halted : isTerminal result.1.next = true) (effect : result.1.effect = .finish)
      (kept : m.context.confirmApproved = true → result.2.confirmApproved = true)
  | forks (forks : Forks m.plan m.context result) (elsewhere : m.state ≠ .awaitingConfirmation ∨
      isTerminal result.1.next = true)

theorem Row.consents {result : Step × Context} (row : Row m event result)
    (approval : m.state = .awaitingConfirmation → event.kind = .confirmApproved ∨ result.1.next ≠ .confirming) :
    Consents m event result := by
  have plain {after : Context} {step : Step} (kept : after.confirmApproved = m.context.confirmApproved)
      (effect : step.effect ≠ .requestConfirmation ∧ step.effect ≠ .confirm)
      (next : step.next ≠ .awaitingConfirmation ∧ ¬ isConfirmRound step.next)
      (elsewhere : m.state ≠ .awaitingConfirmation ∨ isTerminal step.next = true) : Consents m event (step, after) :=
    .forks (.elsewhere kept effect next) elsewhere
  have failed {after : Context} (error : Error) (kept : after.confirmApproved = m.context.confirmApproved) :
      Consents m event (after.fail error) := .forks (fail_forks error kept) (.inr rfl)
  cases row with
  | settled | idle => exact .idle rfl rfl rfl
  | stopped _ error | timedOut _ _ error | missing _ _ _ error | confirmRefused _ _ error | unconfirmed _ _ _ error =>
    exact failed error rfl
  | cancelled => exact plain rfl (by simp) (by simp [isConfirmRound]) (.inr rfl)
  | polled here | waitRepeated here =>
    rcases here with here | here
    · exact plain rfl (by simp) (by simp [here, isConfirmRound]) (.inl (by simp [here]))
    · exact plain rfl (by simp) (by simp [here, isConfirmRound]) (.inl (by simp [here]))
  | planned here _ outcome => exact .forks outcome.planned.forks (.inl (by simp [here]))
  | uploadedOnly here _ outcome | marked here _ _ outcome | unmarked here _ _ _ outcome =>
    exact .forks (outcome.planned.forks.from rfl) (.inl (by simp [here]))
  | booted here _ _ outcome | applyRead here _ _ outcome | commitRead here _ _ outcome
  | confirmVerified here _ _ _ outcome => exact .forks (outcome.forks.from rfl) (.inl (by simp [here]))
  | waitDropped here =>
    refine plain rfl (by simp) (by simp [isConfirmRound]) (.inl ?_)
    rcases here with here | here <;> simp [here]
  | approved here =>
    rcases approval here with kind | other
    · exact .approved ⟨here, kind, rfl⟩ rfl rfl
    · exact absurd rfl other
  | confirmedNext here | confirmedLast here => exact .round (.inl here) rfl (by simp) (by simp)
  | confirmDropped here | confirmReread here => exact .round here rfl (by simp) (by simp)
  | _ => exact plain rfl (by simp) (by simp [isConfirmRound]) (.inl (by simp [*]))

theorem guardedDecide_unapproved (here : m.state = .awaitingConfirmation)
    (other : event.kind ≠ .confirmApproved) : (m.guardedDecide event).1.next ≠ .confirming := by
  have decision : (m.context.decide m.state event m.plan).1.next ≠ .confirming := by
    rw [here]
    unfold Context.decide
    cases kind : event.kind with
    | confirmApproved => exact absurd kind other
    | cancel => simp [isTerminal]
    | tick => simp [tick]
    | _ => simp [illegal, failAt, fail]
  unfold guardedDecide
  dsimp only
  split
  · exact decision
  · simp [failAt, fail]

theorem decided_consents (m : Machine) (event : Event) : Consents m event (m.decided event) := by
  have row := guardedDecide_row m event
  have consents : Consents m event (m.guardedDecide event) := by
    refine row.consents fun here => ?_
    by_cases kind : event.kind = .confirmApproved
    · exact .inl kind
    · exact .inr (guardedDecide_unapproved here kind)
  unfold decided
  dsimp only
  split
  · refine .over_ rfl rfl fun given => ?_
    show (m.guardedDecide event).2.confirmApproved = true
    cases consents with
    | approved _ now => exact now
    | round _ kept | idle kept => exact kept.trans given
    | over_ _ _ kept => exact kept given
    | forks forks => exact forks.approved.trans given
  · exact consents

@[simp] theorem apply_confirmApproved (m : Machine) (event : Event) :
    (m.apply event).2.context.confirmApproved = (m.decided event).2.confirmApproved := by
  obtain ⟨_, _, _, _, _, _, same⟩ := apply_eq m event
  rw [same]

def approving (t : MachineStep) : Prop := Approves t.before t.event t.after.state

def asking (t : MachineStep) : Bool := t.output.effect == .requestConfirmation

/-- What the machine remembers of the application's approval, along a run that has to ask for it. -/
structure Remembers (past : List MachineStep) (m : Machine) : Prop where
  mode : m.plan.mode = .testThenConfirm
  approved : m.context.confirmApproved = true → isTerminal m.state = false → ∃ u ∈ past, approving u
  round : isConfirmRound m.state → m.context.confirmApproved = true
  once : past.countP asking ≤ 1
  asked : past.countP asking ≠ 0 →
    m.state = .awaitingConfirmation ∨ m.context.confirmApproved = true ∨ isTerminal m.state = true
  confirmed : ∀ before t after, past = before ++ t :: after → t.output.effect = .confirm →
    ∃ u ∈ before ++ [t], approving u

theorem Remembers.concat {past : List MachineStep} (remembers : Remembers past m) (event : Event)
    (approved : (m.decided event).2.confirmApproved = true → isTerminal (m.decided event).1.next = false →
      ∃ u ∈ past ++ [Systems.transition Machine.apply m event], approving u)
    (round : isConfirmRound (m.decided event).1.next → (m.decided event).2.confirmApproved = true)
    (silent : (m.decided event).1.effect = .requestConfirmation → past.countP asking = 0 ∧
      (m.decided event).1.next = .awaitingConfirmation)
    (asked : past.countP asking ≠ 0 → (m.decided event).1.next = .awaitingConfirmation ∨
      (m.decided event).2.confirmApproved = true ∨ isTerminal (m.decided event).1.next = true)
    (confirmed : (m.decided event).1.effect = .confirm →
      ∃ u ∈ past ++ [Systems.transition Machine.apply m event], approving u) :
    Remembers (past ++ [Systems.transition Machine.apply m event]) (m.apply event).2 := by
  have asks : asking (transition apply m event) = true ↔ (m.decided event).1.effect = .requestConfirmation := by
    simp [asking, transition]
  refine ⟨remembers.mode, ?_, ?_, ?_, ?_, ?_⟩
  · rw [apply_confirmApproved, apply_state]
    exact approved
  · rw [apply_confirmApproved, apply_state]
    exact round
  · rw [countP_append, countP_singleton]
    have once := remembers.once
    split
    · rename_i now
      have none_ := (silent (asks.mp now)).1
      omega
    · omega
  · rw [countP_append, countP_singleton, apply_confirmApproved, apply_state]
    intro some_
    by_cases now : asking (transition apply m event) = true
    · exact .inl (silent (asks.mp now)).2
    · rw [if_neg now, Nat.add_zero] at some_
      exact asked some_
  · intro before t after split confirm
    rcases eq_nil_or_concat after with rfl | ⟨front, last, rfl⟩
    · obtain ⟨rfl, same⟩ := append_inj' split rfl
      obtain rfl : transition apply m event = t := (List.cons.inj same).1
      exact confirmed (by simpa [transition] using confirm)
    rw [concat_eq_append, ← cons_append, ← append_assoc] at split
    obtain ⟨same, _⟩ := append_inj' split rfl
    exact remembers.confirmed before t front same confirm

theorem Remembers.step {past : List MachineStep} (remembers : Remembers past m) (event : Event) :
    Remembers (past ++ [Systems.transition Machine.apply m event]) (m.apply event).2 := by
  have earlier (given : ∃ u ∈ past, approving u) : ∃ u ∈ past ++ [transition apply m event], approving u := by
    obtain ⟨u, member, approves⟩ := given
    exact ⟨u, mem_append_left _ member, approves⟩
  rcases decided_ends m event with ⟨halted, same⟩ | ⟨live, _⟩
  · refine remembers.concat event ?_ ?_ ?_ ?_ ?_
    · rw [same, halted]
      exact fun _ => nofun
    · rw [same]
      exact remembers.round
    · simp [same]
    · rw [same]
      exact fun _ => .inr (.inr halted)
    · simp [same]
  · cases decided_consents m event with
    | approved approves given effect =>
      have now : ∃ u ∈ past ++ [transition apply m event], approving u :=
        ⟨_, mem_append_right _ (mem_singleton_self _), by
          rw [approving, transition, apply_state]
          exact approves⟩
      exact remembers.concat event (fun _ _ => now) (fun _ => given) (by simp [effect]) (fun _ => .inr (.inl given))
        (fun _ => now)
    | round here kept silent =>
      have given := remembers.round here
      have before := earlier (remembers.approved given live)
      exact remembers.concat event (fun _ _ => before) (fun _ => kept.trans given) (fun asks => absurd asks silent)
        (fun _ => .inr (.inl (kept.trans given))) (fun _ => before)
    | idle kept quiet same =>
      refine remembers.concat event (fun given _ => ?_) (fun round => ?_) (by simp [quiet]) (fun asked => ?_)
        (by simp [quiet])
      · exact earlier (remembers.approved (kept ▸ given) live)
      · rw [kept]
        exact remembers.round (same ▸ round)
      · rw [kept, same]
        exact remembers.asked asked
    | over_ halted effect =>
      refine remembers.concat event ?_ (fun round => ?_) (by simp [effect]) (fun _ => .inr (.inr halted))
        (by simp [effect])
      · rw [halted]
        exact fun _ => nofun
      · rcases round with round | round <;> rw [round] at halted <;> cases halted
    | forks forks elsewhere =>
      have given (confirm : (m.decided event).1.effect = .confirm) : m.context.confirmApproved = true := by
        rcases forks.confirms confirm with given | immediately
        · exact given
        · rw [remembers.mode] at immediately
          cases immediately
      refine remembers.concat event (fun approved _ => ?_) (fun round => ?_) (fun asks => ?_) (fun asked => ?_)
        (fun confirm => earlier (remembers.approved (given confirm) live))
      · exact earlier (remembers.approved (forks.approved ▸ approved) live)
      · rw [forks.approved]
        exact given (forks.confirming round)
      · obtain ⟨unapproved, next⟩ := forks.asks asks
        refine ⟨?_, next⟩
        by_contra some_
        rcases remembers.asked some_ with here | approved | halted
        · rcases elsewhere with other | over_
          · exact other here
          · rw [next] at over_
            cases over_
        · rw [unapproved] at approved
          cases approved
        · rw [live] at halted
          cases halted
      · rcases remembers.asked asked with here | approved | halted
        · rcases elsewhere with other | over_
          · exact absurd here other
          · exact .inr (.inr over_)
        · exact .inr (.inl (forks.approved.trans approved))
        · rw [live] at halted
          cases halted

theorem run_remembers (targets : List Target) (plan : UpdatePlan) (mode : plan.mode = .testThenConfirm)
    (events : List Event) : Remembers (machineLog targets plan events) (runMachine targets plan events) := by
  refine history_invariant apply (new targets plan) Remembers ?_
    (fun past m event remembers => remembers.step event) events
  refine ⟨mode, ?_, ?_, Nat.zero_le _, ?_, ?_⟩
  · simp [new]
  · simp [new, isConfirmRound]
  · simp
  · intro before t after split
    simp at split

structure Approved (m : Machine) : Prop where
  sane : Sane m
  given : m.context.confirmApproved = true
  elsewhere : m.state ≠ .awaitingConfirmation

theorem Approved.step (approved : Approved m) (event : Event) :
    Approved (m.apply event).2 ∧ (m.apply event).1.effect ≠ .requestConfirmation ∧
      ∀ c : Context, m.guardedDecide event = c.confirmationFork m.plan → (m.apply event).1.effect = .confirm := by
  have given := approved.given
  have step : (m.decided event).2.confirmApproved = true ∧ (m.decided event).1.next ≠ .awaitingConfirmation ∧
      (m.decided event).1.effect ≠ .requestConfirmation := by
    cases decided_consents m event with
    | approved approves => exact absurd approves.1 approved.elsewhere
    | round _ kept silent next => exact ⟨kept.trans given, next, silent⟩
    | idle kept quiet same => exact ⟨kept.trans given, same ▸ approved.elsewhere, by simp [quiet]⟩
    | over_ halted effect kept =>
      refine ⟨kept given, fun next => ?_, by simp [effect]⟩
      rw [next] at halted
      cases halted
    | forks forks =>
      have silent : (m.decided event).1.effect ≠ .requestConfirmation := by
        intro asks
        rw [(forks.asks asks).1] at given
        cases given
      exact ⟨forks.approved.trans given, fun next => silent (forks.asked next), silent⟩
  refine ⟨⟨apply_sane approved.sane event, ?_, ?_⟩, ?_, fun c fork => ?_⟩
  · rw [apply_confirmApproved]
    exact step.1
  · rw [apply_state]
    exact step.2.1
  · rw [apply_effect]
    exact step.2.2
  · have forks := confirmationFork_forks m.plan c
    rw [← fork, ← decided_eq approved.sane] at forks
    rw [apply_effect, decided_eq approved.sane, fork]
    have kept := forks.approved.symm.trans step.1
    simp [confirmationFork, kept]

theorem approving_some {targets : List Target} {plan : UpdatePlan} {events : List Event} {u : MachineStep}
    (member : u ∈ machineLog targets plan events) (approves : approving u) : targets ≠ [] := by
  rintro rfl
  have empty : u.before.context.targets = [] ∧ (u.before.apply u.event).2 = u.after := by
    refine every_transition apply (new [] plan) (fun m => m.context.targets = [])
      (fun u => u.before.context.targets = [] ∧ (u.before.apply u.event).2 = u.after) rfl ?_ ?_ events u member
    · intro m event none_
      have same := (apply_evolves m event).length_eq
      rw [none_] at same
      exact length_eq_zero_iff.mp same.symm
    · intro m event none_
      exact ⟨none_, rfl⟩
  obtain ⟨here, _, next⟩ := approves
  rw [← empty.2, apply_state] at next
  have failed : u.before.guardedDecide u.event = u.before.context.failAt .internal noImage := by
    simp [guardedDecide, empty.1, here, isTerminal]
  unfold decided at next
  rw [failed] at next
  simp [namesCurrent, failAt, fail] at next

theorem apply_approves (approves : Approves m event (m.apply event).2.state) :
    (m.apply event).2.context.confirmApproved = true := by
  obtain ⟨here, kind, next⟩ := approves
  rw [apply_state] at next
  rw [apply_confirmApproved]
  cases decided_consents m event with
  | approved _ given => exact given
  | round round => rcases round with round | round <;> rw [here] at round <;> cases round
  | idle _ _ same =>
    rw [next, here] at same
    cases same
  | over_ halted =>
    rw [next] at halted
    cases halted
  | forks _ elsewhere =>
    rcases elsewhere with other | halted
    · exact absurd here other
    · rw [next] at halted
      cases halted

/-- A run that has to ask confirms nothing unapproved, asks once at most, and then confirms at every return to the fork.
-/
theorem confirms_once_approved (targets : List Target) (plan : UpdatePlan) (events : List Event)
    (mode : plan.mode = .testThenConfirm) :
    (∀ past t later, machineLog targets plan events = past ++ t :: later → t.output.effect = .confirm →
      ∃ u ∈ past ++ [t], approving u) ∧
    (machineLog targets plan events).countP asking ≤ 1 ∧
    ∀ past u later, machineLog targets plan events = past ++ u :: later → approving u → ∀ t ∈ later,
      asking t = false ∧ ∀ c : Context, t.before.guardedDecide t.event = c.confirmationFork plan →
        t.output.effect = .confirm := by
  have remembers := run_remembers targets plan mode events
  refine ⟨remembers.confirmed, remembers.once, fun past u later split approves => ?_⟩
  have member : u ∈ machineLog targets plan events := by
    rw [split]
    simp
  have some_ := approving_some member approves
  obtain ⟨earlier, event, rest, _, _, is, rest_eq⟩ := log_split apply (new targets plan) events split
  have approved : Approved u.after ∧ u.after.plan = plan := by
    rw [is] at approves ⊢
    refine ⟨⟨apply_sane (run_sane plan some_ earlier) event, apply_approves approves, fun waiting => ?_⟩,
      run_plan targets plan earlier⟩
    cases waiting.symm.trans approves.2.2
  rw [rest_eq]
  refine every_transition apply u.after (fun m => Approved m ∧ m.plan = plan) _ approved ?_ ?_ rest
  · rintro m event ⟨approved, same⟩
    exact ⟨(approved.step event).1, same⟩
  rintro m event ⟨approved, same⟩
  obtain ⟨_, silent, confirms⟩ := approved.step event
  refine ⟨?_, fun c fork => confirms c (same ▸ fork)⟩
  simpa [asking, transition] using silent

def confirmLost : List Event :=
  opening [active 0 1 false] ++ [{ kind := .continue }, { kind := .confirmApproved },
    { kind := .failed, error := { code := .timeout } }, readBack [active 0 1 false]]

theorem confirms_once_approved_lost :
    (machineLog [{ image := 0, hash := shortHash 1 }] {} confirmLost).countP asking ≤ 1 ∧
      (machineLog [{ image := 0, hash := shortHash 1 }] {} confirmLost).countP (·.output.effect == .confirm) = 2 :=
  ⟨(confirms_once_approved _ _ _ rfl).2.1, by decide +kernel⟩

end Smply.Dfu
