import Smply.Dfu.Pace
import Smply.Dfu.Revert

namespace Smply.Dfu

open Context Machine Systems

variable {m : Machine} {event : Event}

def refusesMark (t : MachineStep) : Bool :=
  t.before.state == .markingForTest && t.event.kind == .failed && recoverable t.event.error

def HoldsRecovered (t : MachineStep) : Prop :=
  t.before.state = .planning → t.event.kind = .continue → t.before.context.markRetried = true →
    t.before.context.current + 1 < t.before.context.targets.length →
    ∀ target ∈ t.before.context.targets[t.before.context.current]?,
      passesOver t.before.plan t.before.context target.toTarget = false

instance : DecidablePred HoldsRecovered := fun _ => inferInstanceAs (Decidable (_ → _ → _ → _ → ∀ target ∈ _, _ = _))

section
variable {plan : UpdatePlan} {c : Context} {target : Image}

theorem planTurn_takes (here : c.targets[c.current]? = some target) (known : target.Known)
    (stays : passesOver plan c target.toTarget = false) : ∃ step after, c.planTurn plan = (some step, after) := by
  have chosen : c.chooseBuild = (none, c) := by
    rcases known with single | settled
    · simp [chooseBuild, here, single]
    · cases builds : target.builds <;> simp [chooseBuild, here, builds, settled]
  have starts : ∃ step after, c.startUpload plan = (some step, after) := by
    unfold startUpload
    split <;> exact ⟨_, _, rfl⟩
  unfold passesOver at stays
  unfold planTurn
  simp only [chosen, here]
  cases held : slotHolding c target.toTarget with
  | none => exact starts
  | some holder =>
    simp only [held, Bool.or_eq_false_iff, Bool.and_eq_false_iff, beq_eq_false_iff_ne] at stays
    obtain ⟨⟨idle, unmarked⟩, whole⟩ := stays
    dsimp only
    rw [if_neg idle, unmarked, if_neg Bool.false_ne_true]
    split
    · rename_i skips
      have staged : uploadOnly plan = false := by simpa [skips] using whole
      rw [staged, if_neg Bool.false_ne_true]
      split <;> exact ⟨_, _, rfl⟩
    · exact starts

theorem planFromState_holds (stays : c.current + 1 < c.targets.length → ∀ target, c.targets[c.current]? = some target →
    target.Known ∧ passesOver plan c target.toTarget = false) : Turned c (c.planFromState plan) := by
  unfold planFromState
  dsimp only
  split
  · exact .onward (inspectBoot_outcome plan _).judged.past
  by_cases inside : c.current < c.targets.length
  · obtain ⟨left, rest⟩ := Nat.exists_eq_succ_of_ne_zero (Nat.sub_ne_zero_of_lt inside)
    rw [rest]
    unfold planLoop
    split
    · rename_i done
      exact planTurn_turned done
    rename_i after passed
    by_cases more : c.current + 1 < c.targets.length
    · have here := List.getElem?_eq_getElem inside
      obtain ⟨known, held⟩ := stays more _ here
      obtain ⟨step, taken, turn⟩ := planTurn_takes here known held
      rw [turn] at passed
      cases passed
    · obtain rfl : left = 0 := by omega
      exact .onward (staged_outcome plan _).past
  · have none_ : c.targets.length - c.current = 0 := by omega
    rw [none_]
    exact .onward (staged_outcome plan c).past

end

theorem Image.Known.evolve {before after : Image} (known : before.Known) (evolves : Evolves before after) :
    after.Known := by
  obtain ⟨resolved, resolves, same⟩ := evolves
  have builds : after.untried.builds = resolved.untried.builds := by rw [same]
  have chosen : after.untried.chosenKnown = resolved.untried.chosenKnown := by rw [same]
  change after.builds = resolved.builds at builds
  change after.chosenKnown = resolved.chosenKnown at chosen
  unfold Image.Known at *
  rw [builds, chosen]
  rcases resolves with rfl | ⟨_, _, _, _, _, _, rfl⟩
  · exact known
  · exact .inr rfl

theorem CurrentKnown.evolve {before after : Context} (known : CurrentKnown before)
    (evolves : List.Forall₂ Evolves before.targets after.targets) (current : after.current = before.current) :
    CurrentKnown after := by
  intro target here
  rw [current] at here
  obtain ⟨bound, rfl⟩ := List.getElem?_eq_some_iff.mp here
  have inside := evolves.length_eq ▸ bound
  have first := known _ (List.getElem?_eq_getElem inside)
  exact first.evolve (evolves.get inside bound)

structure Recovered (past : List MachineStep) (m : Machine) : Prop where
  marking : m.stage = 2 → CurrentKnown m.context
  spent : m.context.markRetried = true → m.stage < 3 → CurrentKnown m.context ∧
    ∃ u ∈ past, refusesMark u = true ∧ u.before.context.current = m.context.current

theorem decided_marks (uploaded : UploadKnown m.state m.context)
    (effect : (m.decided event).1.effect = .markForTest) : CurrentKnown (m.decided event).2 := by
  revert effect
  exact decided_cases m event (fun row effect => (row.marks uploaded effect).known) fun _ _ _ => by rintro ⟨⟩

theorem Fit.sane (fit : Fit m) (begun : m.state ≠ .idle) (live : isTerminal m.state = false) : Sane m := by
  rcases fit with sane | barren
  · exact sane
  rcases barren.over_ with idle | halted
  · exact absurd idle begun
  · rw [live] at halted
    cases halted

theorem planned_current (fit : Fit m)
    (asked : m.state = .planning ∧ event.kind = .continue) (known : CurrentKnown m.context)
    (retried : m.context.markRetried = true) (holds : HoldsRecovered (Systems.transition Machine.apply m event))
    (staged : (m.decided event).1.effect = .startUpload ∨ (m.decided event).1.effect = .markForTest) :
    (m.decided event).2.current = m.context.current := by
  have turned : Turned m.context (m.decided event) := by
    have sane := fit.sane (by simp [asked.1]) (by rw [asked.1]; rfl)
    rw [decided_eq sane, guardedDecide_plan sane.whole asked.1 asked.2]
    exact planFromState_holds fun more target here => ⟨known target here, holds asked.1 asked.2 retried more target here⟩
  cases turned with
  | upload _ _ current | mark _ _ current => exact current
  | onward onward =>
    cases onward with
    | next _ effect => simp [effect] at staged
    | past _ effect => exact absurd staged (by simp [effect])

theorem Recovered.step {past : List MachineStep} (recovered : Recovered past m)
    (fit : Fit m) (uploaded : UploadKnown m.state m.context)
    (holds : HoldsRecovered (Systems.transition Machine.apply m event)) :
    Recovered (past ++ [Systems.transition Machine.apply m event]) (m.apply event).2 := by
  have evolves := apply_evolves m event
  have paces := decided_paces fit event
  refine ⟨fun marking => ?_, fun retried open_ => ?_⟩
  · rw [apply_stage] at marking
    cases paces with
    | stays same current =>
      exact (recovered.marking (same.symm.trans marking)).evolve evolves ((apply_current m event).trans current)
    | mark _ _ _ _ effect => simpa [CurrentKnown] using decided_marks uploaded effect
    | upload | again | next | past => omega
  · rw [apply_stage] at open_
    rw [apply_markRetried] at retried
    -- The recovery was spent before this step, and the step keeps the current target.
    have kept (before : m.context.markRetried = true) (low : m.stage < 3)
        (current : (m.decided event).2.current = m.context.current) : CurrentKnown (m.apply event).2.context ∧
          ∃ u ∈ past ++ [transition apply m event],
            refusesMark u = true ∧ u.before.context.current = (m.apply event).2.context.current := by
      obtain ⟨known, u, member, refuses, at_⟩ := recovered.spent before low
      rw [apply_current, current]
      exact ⟨known.evolve evolves ((apply_current m event).trans current), u, List.mem_append_left _ member, refuses, at_⟩
    cases paces with
    | stays same current flag => exact kept (flag.symm.trans retried) (same ▸ open_) current
    | upload asked _ _ flag effect =>
      have before := flag.symm.trans retried
      have low : m.stage < 3 := by
        rw [stage_planning asked.1]
        omega
      exact kept before low (planned_current fit asked (recovered.spent before low).1 before holds (.inl effect))
    | mark asked _ _ flag effect =>
      have before := flag.symm.trans retried
      rcases asked with asked | ⟨here, current⟩
      · have low : m.stage < 3 := by
          rw [stage_planning asked.1]
          omega
        exact kept before low (planned_current fit asked (recovered.spent before low).1 before holds (.inr effect))
      · exact kept before (by omega) current
    | again here refused recovers _ _ current =>
      have same := (apply_current m event).trans current
      refine ⟨(recovered.marking here).evolve evolves same, _, List.mem_append_right _ (List.mem_singleton_self _), ?_, same.symm⟩
      simp [refusesMark, transition, refused.1, refused.2, recovers]
    | next _ _ _ _ flag =>
      rw [flag] at retried
      cases retried
    | past => omega

theorem Recovered.first {past : List MachineStep} (recovered : Recovered past m)
    (fit : Fit m) (refuses : refusesMark (Systems.transition Machine.apply m event) = true)
    (first : ∀ u ∈ past, refusesMark u = true → u.before.context.current ≠ m.context.current) :
    (m.apply event).2.state = .inspectingImages ∧ (m.apply event).1.effect = .readState := by
  obtain ⟨⟨here, kind⟩, recovers⟩ : (m.state = .markingForTest ∧ event.kind = .failed) ∧
      recoverable event.error = true := by
    simpa [refusesMark, transition] using refuses
  have sane := fit.sane (by simp [here]) (by rw [here]; rfl)
  have fresh : m.context.markRetried = false := by
    by_contra spent
    obtain ⟨_, u, member, refused, same⟩ := recovered.spent (by simpa using spent) (by simp [Machine.stage, here, stage])
    exact first u member refused same
  have decision : m.decided event =
      ({ next := .inspectingImages, effect := .readState }, { m.context with markRetried := true }) := by
    rw [decided_eq sane, guardedDecide_refused sane here kind]
    exact if_pos (Bool.and_eq_true_iff.mpr ⟨recovers, by rw [fresh]; rfl⟩)
  rw [apply_state, apply_effect, decision]
  exact ⟨rfl, rfl⟩

theorem run_recovered (targets : List Target) (plan : UpdatePlan) (events : List Event)
    (holds : ∀ t ∈ machineLog targets plan events, HoldsRecovered t) :
    Recovered (machineLog targets plan events) (runMachine targets plan events) := by
  refine history_invariant_with apply (new targets plan)
    (fun _ m => Fit m ∧ UploadKnown m.state m.context) (fun past m => (∀ t ∈ past, HoldsRecovered t) → Recovered past m)
    (fun events => ⟨run_fit targets plan events, run_uploadKnown targets plan events⟩) ?_ ?_ events holds
  · intro _
    exact ⟨by simp [Machine.new, Machine.stage, stage], by simp [Machine.new]⟩
  intro past m event known before holds
  refine (before fun t member => holds t (List.mem_append_left _ member)).step known.1 known.2 ?_
  exact holds _ (List.mem_append_right _ (List.mem_singleton_self _))

/-- Each target has a recovery of its own: the first recoverable refusal of its mark leads to another read. -/
theorem first_refusal_recovers (targets : List Target) (plan : UpdatePlan) (events : List Event)
    (holds : ∀ t ∈ machineLog targets plan events, HoldsRecovered t) :
    ∀ past t later, machineLog targets plan events = past ++ t :: later → refusesMark t = true →
      (∀ u ∈ past, refusesMark u = true → u.before.context.current ≠ t.before.context.current) →
      t.after.state = .inspectingImages ∧ t.output.effect = .readState := by
  intro past t later split refuses first
  obtain ⟨earlier, event, rest, whole, logged, rfl, _⟩ := log_split apply _ events split
  have fit := run_fit targets plan earlier
  have recovered := run_recovered targets plan earlier fun u member => by
    refine holds u ?_
    rw [split, ← logged]
    exact List.mem_append_left _ member
  exact recovered.first fit refuses fun u member => first u (logged ▸ member)

def twoImages : List Target := [{ image := 0, hash := shortHash 1 }, { image := 1, hash := shortHash 2 }]

def alreadyPending : Event :=
  { kind := .failed, error := { code := .protocolError, mgmt := some ⟨Group.image, ImageError.imageAlreadyPending, true⟩ } }

/-- The answer to the first image's mark is lost, and the mark asked for again when the device has it already. -/
def markAskedAgain : List Event :=
  [{ kind := .start }, { kind := .parametersUnavailable },
    { kind := .bootloaderRead, bootloader := { mode := .swapUsingMove } },
    readBack [active 0 9 true, waiting 0 1 false, active 1 9 true, waiting 1 2 false], { kind := .continue },
    alreadyPending, readBack [active 0 9 true, waiting 0 1 true, active 1 9 true, waiting 1 2 false], { kind := .continue }]

/-- The planning loop passes over the image it has recovered and takes its spent recovery along to the next one. -/
theorem second_image_not_recovered : ∃ (targets : List Target) (plan : UpdatePlan) (events : List Event)
    (past : List MachineStep) (t : MachineStep) (later : List MachineStep),
    machineLog targets plan events = past ++ t :: later ∧ refusesMark t = true ∧
      (∀ u ∈ past, refusesMark u = true → u.before.context.current ≠ t.before.context.current) ∧
      t.after.state = .failed ∧ t.output.effect = .finish := by
  refine ⟨twoImages, {}, markAskedAgain ++ [alreadyPending], machineLog twoImages {} markAskedAgain,
    transition apply (runMachine twoImages {} markAskedAgain) alreadyPending, [],
    log_concat apply _ markAskedAgain alreadyPending, ?_, ?_, ?_, ?_⟩
  · decide +kernel
  · decide +kernel
  · decide +kernel
  · decide +kernel

/-- The first image is marked after its recovery, and the second one is refused once too. -/
def bothRefused : List Event :=
  markAskedAgain.take 6 ++
    [readBack [active 0 9 true, waiting 0 1 false, active 1 9 true, waiting 1 2 false], { kind := .continue },
      { readBack [active 0 9 true, waiting 0 1 true, active 1 9 true, waiting 1 2 false] with kind := .markedForTest },
      { kind := .continue }]

theorem first_refusal_recovers_twice :
    (∀ t ∈ machineLog twoImages {} (bothRefused ++ [alreadyPending]), HoldsRecovered t) ∧
      (machineLog twoImages {} (bothRefused ++ [alreadyPending])).countP refusesMark = 2 ∧
      (runMachine twoImages {} (bothRefused ++ [alreadyPending])).state = .inspectingImages := by
  have holds : ∀ t ∈ machineLog twoImages {} (bothRefused ++ [alreadyPending]), HoldsRecovered t := by decide +kernel
  refine ⟨holds, by decide +kernel, ?_⟩
  have recovers := first_refusal_recovers twoImages {} (bothRefused ++ [alreadyPending]) holds
    (machineLog twoImages {} bothRefused)
    (transition apply (runMachine twoImages {} bothRefused) alreadyPending) []
    (log_concat apply _ bothRefused alreadyPending) (by decide +kernel) (by decide +kernel)
  rw [runMachine, run_concat]
  exact recovers.1

end Smply.Dfu
