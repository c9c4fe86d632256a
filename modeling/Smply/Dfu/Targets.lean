import Smply.Dfu.Rows

namespace Smply.Dfu

open Context Machine

variable {result : Step × Context} {plan : UpdatePlan} {c : Context} {m : Machine} {before after : Context}
  {event : Event}

def Evolves (before after : Image) : Prop := ∃ resolved, Resolves before resolved ∧ after.untried = resolved.untried

def Realises (given : Target) (image : Image) : Prop :=
  image.image = given.image ∧ image.commit = given.commit ∧ image.builds = given.builds ∧
    (image.chosenKnown = false → image.toTarget = given) ∧
    (given.builds = none → image.toTarget = given) ∧
    ∀ builds, given.builds = some builds →
      image.hash = given.hash ∨ image.hash = builds.1.hash ∨ image.hash = builds.2.hash

theorem Resolves.evolves {before after : Image} (resolves : Resolves before after) : Evolves before after :=
  ⟨after, resolves, rfl⟩

theorem SameImages.forall₂ (same : SameImages before after) :
    List.Forall₂ (fun first second => Image.untried second = Image.untried first) before.targets after.targets := by
  have mapped : List.Forall₂ (· = ·) (before.targets.map Image.untried) (after.targets.map Image.untried) := by
    rw [same, List.forall₂_eq_eq_eq]
  rw [List.forall₂_map_left_iff, List.forall₂_map_right_iff] at mapped
  exact mapped.imp fun _ _ => Eq.symm

theorem SameImages.evolves (same : SameImages before after) : List.Forall₂ Evolves before.targets after.targets :=
  same.forall₂.imp fun first _ copied => ⟨first, Resolves.refl first, copied⟩

theorem Planned.evolves (outcome : Planned plan c result) : List.Forall₂ Evolves c.targets result.2.targets := by
  cases outcome with
  | stopped moves | upload moves | mark moves | next moves | reset moves | uploaded moves | refused moves =>
    exact moves.targets.imp fun _ _ => Resolves.evolves
  | judged moves outcome =>
    exact forall₂_comp moves.targets outcome.judged.images.forall₂
      fun _ resolved _ resolves copied => ⟨resolved, resolves, copied⟩

theorem Row.evolves (row : Row m event result) : List.Forall₂ Evolves m.context.targets result.2.targets := by
  have same : List.Forall₂ Evolves m.context.targets m.context.targets :=
    List.forall₂_same.mpr fun target _ => (Resolves.refl target).evolves
  cases row with
  | planned _ _ outcome | uploadedOnly _ _ outcome | marked _ _ _ outcome | unmarked _ _ _ _ outcome =>
    exact outcome.planned.evolves
  | booted _ _ _ outcome | commitRead _ _ _ outcome | confirmVerified _ _ _ _ outcome | applyRead _ _ _ outcome =>
    exact outcome.judged.images.evolves
  | confirmedNext | confirmedLast => exact (setInTrial_sameImages (m.context.withTable event) _ false).evolves
  | _ => exact same

theorem apply_evolves (m : Machine) (event : Event) :
    List.Forall₂ Evolves m.context.targets (m.apply event).2.context.targets := by
  rw [apply_targets]
  exact decided_cases m event Row.evolves fun row _ _ => row.evolves

theorem Realises.evolve {given : Target} {before after : Image} (real : Realises given before)
    (evolves : Evolves before after) : Realises given after := by
  obtain ⟨resolved, resolves, copied⟩ := evolves
  have target_eq : after.untried.toTarget = resolved.untried.toTarget := by rw [copied]
  have known_eq : after.untried.chosenKnown = resolved.untried.chosenKnown := by rw [copied]
  change after.toTarget = resolved.toTarget at target_eq
  change after.chosenKnown = resolved.chosenKnown at known_eq
  unfold Realises at real ⊢
  rw [target_eq, known_eq]
  rcases resolves with rfl | ⟨unknown, builds, chosen, build, has, which, rfl⟩
  · exact real
  obtain ⟨image, commit, kept, fresh, fixed, _⟩ := real
  have given_builds := kept.symm.trans has
  refine ⟨image, commit, kept, fun contra => absurd contra (by simp [Image.choose]), ?_, ?_⟩
  · intro none
    exact absurd (given_builds.symm.trans none) (by simp)
  intro others same
  obtain rfl : builds = others := Option.some.inj (given_builds.symm.trans same)
  right
  rcases which with rfl | rfl
  · exact .inl rfl
  · exact .inr rfl

theorem run_targets (targets : List Target) (plan : UpdatePlan) (events : List Event) :
    List.Forall₂ Realises targets (runMachine targets plan events).context.targets := by
  apply Systems.state_invariant apply (new targets plan)
    fun m => List.Forall₂ Realises targets m.context.targets
  · rw [new, List.forall₂_map_right_iff, List.forall₂_same]
    intro target _
    exact ⟨rfl, rfl, rfl, fun _ => rfl, fun _ => rfl, fun _ _ => .inl rfl⟩
  · intro m event real
    exact forall₂_comp real (apply_evolves m event) fun _ _ _ => Realises.evolve

theorem Planned.ends (outcome : Planned plan c result) :
    result.1.effect = .finish ↔ isTerminal result.1.next = true := by
  cases outcome with
  | judged _ outcome => exact outcome.judged.ends
  | _ => simp [isTerminal, fail]

theorem Row.ends (row : Row m event result) :
    (isTerminal m.state = true ∧ result = ({ next := m.state, effect := .none }, m.context)) ∨
      (isTerminal m.state = false ∧ (result.1.effect = .finish ↔ isTerminal result.1.next = true)) := by
  have waits (here : isWait m.state) : isTerminal m.state = false := by
    rcases here with here | here <;> rw [here] <;> rfl
  have confirms (here : isConfirmRound m.state) : isTerminal m.state = false := by
    rcases here with here | here <;> rw [here] <;> rfl
  cases row with
  | settled halted => exact .inl ⟨halted, rfl⟩
  | stopped live => exact .inr ⟨live, by simp [fail, isTerminal]⟩
  | cancelled live => exact .inr ⟨live, by simp [isTerminal]⟩
  | idle live => exact .inr ⟨live, by simp [live]⟩
  | polled here | waitRepeated here => exact .inr ⟨waits here, by simp [waits here]⟩
  | timedOut here => exact .inr ⟨waits here, by simp [fail, isTerminal]⟩
  | planned here _ outcome | uploadedOnly here _ outcome | marked here _ _ outcome | unmarked here _ _ _ outcome =>
    exact .inr ⟨by rw [here]; rfl, outcome.planned.ends⟩
  | booted here _ _ outcome | applyRead here _ _ outcome | commitRead here _ _ outcome
  | confirmVerified here _ _ _ outcome => exact .inr ⟨by rw [here]; rfl, outcome.judged.ends⟩
  | waitDropped here => exact .inr ⟨waits here, by simp [isTerminal]⟩
  | confirmDropped here | confirmReread here => exact .inr ⟨confirms here, by simp [isTerminal]⟩
  | confirmRefused here => exact .inr ⟨confirms here, by simp [fail, isTerminal]⟩
  | _ => exact .inr ⟨by simp [*, isTerminal], by simp [fail, isTerminal]⟩

theorem decided_ends (m : Machine) (event : Event) :
    (isTerminal m.state = true ∧ m.decided event = ({ next := m.state, effect := .none }, m.context)) ∨
      (isTerminal m.state = false ∧
        ((m.decided event).1.effect = .finish ↔ isTerminal (m.decided event).1.next = true)) := by
  refine decided_cases m event Row.ends fun row named _ => ?_
  rcases row.ends with ⟨_, same⟩ | ⟨live, _⟩
  · simp [same, namesCurrent] at named
  · exact .inr ⟨live, by simp [fail, isTerminal]⟩

theorem decided_halted (halted : isTerminal m.state = true) (event : Event) :
    m.decided event = ({ next := m.state, effect := .none }, m.context) := by
  rcases decided_ends m event with ⟨_, same⟩ | ⟨live, _⟩
  · exact same
  · rw [halted] at live
    cases live

theorem run_finalDeviceState (targets : List Target) (plan : UpdatePlan) (events : List Event)
    (halted : isTerminal (runMachine targets plan events).state = true) :
    (runMachine targets plan events).report.finalDeviceState = (runMachine targets plan events).context.device := by
  revert halted
  apply Systems.state_invariant Machine.apply (Machine.new targets plan)
    fun m => isTerminal m.state = true → m.report.finalDeviceState = m.context.device
  · simp [new, isTerminal]
  intro m event before halted
  rw [apply_state] at halted
  rw [Machine.report, apply_device]
  rcases decided_ends m event with ⟨done, same⟩ | ⟨_, ends⟩
  · rw [apply_finalDeviceState_kept m event (by simp [same]), same]
    exact before done
  · exact apply_finalDeviceState m event (ends.mpr halted)

theorem Moves.mode (moves : Moves plan before after) :
    after.report.bootloaderMode = before.report.bootloaderMode := by
  rw [moves.frame]
  rfl

theorem Planned.mode (outcome : Planned plan c result) : result.2.report.bootloaderMode = c.report.bootloaderMode := by
  cases outcome with
  | refused moves | stopped moves | upload moves | mark moves | next moves | reset moves | uploaded moves =>
    exact moves.mode
  | judged moves outcome => exact outcome.judged.bootloaderMode.trans moves.mode

def isEarly (state : UpdateState) : Bool :=
  state == .idle || state == .queryingParameters || state == .queryingBootloader

theorem Judged.late (judged : Judged c result) : isEarly result.1.next = false := by
  rcases judged.next with next | next | next | next | next | next <;> rw [next] <;> rfl

theorem Planned.late (outcome : Planned plan c result) : isEarly result.1.next = false := by
  cases outcome with
  | judged _ outcome => exact outcome.judged.late
  | _ => rfl

theorem Row.mode (row : Row m event result) (late : isEarly m.state = false) :
    isEarly result.1.next = false ∧ result.2.report.bootloaderMode = m.context.report.bootloaderMode := by
  have early (state : UpdateState) (at_ : m.state = state) (early : isEarly state = true) : False := by
    rw [at_, early] at late
    exact absurd late (by simp)
  cases row with
  | started here | parameters here | bootloader here => exact (early _ here rfl).elim
  | settled | idle | polled | waitRepeated => exact ⟨late, rfl⟩
  | planned _ _ outcome | uploadedOnly _ _ outcome | marked _ _ _ outcome | unmarked _ _ _ _ outcome =>
    exact ⟨outcome.planned.late, outcome.planned.mode⟩
  | booted _ _ _ outcome | applyRead _ _ _ outcome | commitRead _ _ _ outcome | confirmVerified _ _ _ _ outcome =>
    exact ⟨outcome.judged.late, outcome.judged.bootloaderMode⟩
  | _ => exact ⟨rfl, rfl⟩

theorem apply_mode (m : Machine) (event : Event) (late : isEarly m.state = false) :
    isEarly (m.apply event).2.state = false ∧
      (m.apply event).2.context.report.bootloaderMode = m.context.report.bootloaderMode := by
  rw [apply_state, apply_bootloaderMode]
  exact decided_cases m event (·.mode late) fun row _ _ => ⟨rfl, (row.mode late).2⟩

section
variable (targets : List Target) (plan : UpdatePlan) (events : List Event)

theorem run_mode :
    ∀ t ∈ machineLog targets plan events, isEarly t.after.state = false →
      t.after.context.report.bootloaderMode = (runMachine targets plan events).report.bootloaderMode := by
  have kept := Systems.history_invariant apply (new targets plan)
    (fun past m => ∀ t ∈ past, isEarly t.after.state = false → isEarly m.state = false ∧
      t.after.context.report.bootloaderMode = m.report.bootloaderMode) (by simp)
    (by
      intro past m event before t member late
      rcases List.mem_append.mp member with member | member
      · obtain ⟨still, same⟩ := before t member late
        obtain ⟨next, mode⟩ := apply_mode m event still
        exact ⟨next, same.trans mode.symm⟩
      · rw [List.mem_singleton.mp member] at late ⊢
        exact ⟨late, rfl⟩)
    events
  exact fun t member late => (kept t member late).2

theorem run_plan :
    (runMachine targets plan events).plan = plan :=
  Systems.state_invariant apply (new targets plan) (fun m => m.plan = plan) rfl
    (fun _ _ same => same) events

theorem run_target {index : Nat} {given : Target} (found : targets[index]? = some given) :
    ∃ image, (runMachine targets plan events).context.targets[index]? = some image ∧ Realises given image := by
  obtain ⟨same, real⟩ := List.forall₂_iff_get.mp (run_targets targets plan events)
  obtain ⟨bound, rfl⟩ := List.getElem?_eq_some_iff.mp found
  exact ⟨_, List.getElem?_eq_getElem (same ▸ bound), real index bound (same ▸ bound)⟩

end

end Smply.Dfu
