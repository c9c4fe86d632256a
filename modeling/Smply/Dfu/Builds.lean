import Smply.Dfu.Sane

namespace Smply.Dfu

open List Context

variable {m : Machine} {event : Event} {targets : List Target}

def directXipMode (mode : McubootMode) : Bool := mode == .directXip || mode == .directXipWithRevert

def passesOver (plan : UpdatePlan) (c : Context) (target : Target) : Bool :=
  match slotHolding c target with
  | some holder =>
    some holder == activeOf c target.image || holder.pending || (plan.skipIfAlreadyPresent && uploadOnly plan)
  | none => false

/-- Planning comes to the first target with builds before it has anything to do. -/
def comesToBuilds (m : Machine) : Bool :=
  (uploadOnly m.plan || m.context.targets.all fun target => !runningOnTrial m.context target.toTarget) &&
    (m.context.targets.takeWhile (·.builds.isNone)).all fun target => passesOver m.plan m.context target.toTarget

def altersDevice (effect : Effect) : Bool :=
  effect == .startUpload || effect == .markForTest || effect == .reset || effect == .forceReset || effect == .confirm

def buildsRefused : Error := Error.at .invalidArgument "dfu: one file per slot needs a direct-XIP device"

section
variable {plan : UpdatePlan} {c : Context} {target : Image}

theorem planTurn_passes (here : c.targets[c.current]? = some target) (single : target.builds = none)
    (passes : passesOver plan c target.toTarget = true) :
    ∃ images swap, c.planTurn plan = (none, { c.withImages images with swapScheduled := swap }) := by
  have chosen : c.chooseBuild = (none, c) := by simp [chooseBuild, here, single]
  unfold passesOver at passes
  unfold planTurn
  simp only [chosen, here]
  cases held : slotHolding c target.toTarget with
  | none => simp [held] at passes
  | some holder =>
    simp only [held, Bool.or_eq_true, beq_iff_eq, Bool.and_eq_true] at passes
    dsimp only
    let skipped := c.report.images.modify c.current fun image => { image with uploadSkipped := true }
    by_cases running : some holder = activeOf c target.image
    · rw [if_pos running]
      exact ⟨skipped, c.swapScheduled, rfl⟩
    rw [if_neg running]
    by_cases pending : holder.pending = true
    · rw [if_pos pending]
      exact ⟨_, _, rfl⟩
    obtain ⟨skips, only⟩ : plan.skipIfAlreadyPresent = true ∧ uploadOnly plan = true := by
      rcases passes with (same | marked) | both
      · exact absurd same running
      · exact absurd marked pending
      · exact both
    rw [if_neg pending, if_pos skips, if_pos only]
    exact ⟨skipped, c.swapScheduled, rfl⟩

theorem planTurn_refuses (here : c.targets[c.current]? = some target) (builds : target.builds ≠ none)
    (fresh : target.chosenKnown = false) (mode : directXipMode c.report.bootloaderMode = false) :
    c.planTurn plan = (some { next := .failed, effect := .finish }, (c.fail buildsRefused).2) := by
  obtain ⟨pair, given⟩ := Option.ne_none_iff_exists'.mp builds
  have other : c.report.bootloaderMode ≠ .directXip ∧ c.report.bootloaderMode ≠ .directXipWithRevert := by
    simpa [directXipMode] using mode
  have chosen : c.chooseBuild = (some { next := .failed, effect := .finish }, (c.fail buildsRefused).2) := by
    unfold chooseBuild
    simp [here, given, fresh, other, failAt, fail, buildsRefused]
  unfold planTurn
  simp only [chosen]

theorem planLoop_refuses (left : Nat) (passed rest : List Image)
    (ahead : c.targets.drop c.current = passed ++ target :: rest)
    (single : ∀ image ∈ passed, image.builds = none ∧ passesOver plan c image.toTarget = true)
    (builds : target.builds ≠ none) (fresh : target.chosenKnown = false)
    (mode : directXipMode c.report.bootloaderMode = false) (enough : passed.length < left) :
    ∃ at_ : Context, Context.planLoop plan left c = at_.fail buildsRefused := by
  induction passed generalizing c left with
  | nil =>
    obtain ⟨left, rfl⟩ := Nat.exists_eq_succ_of_ne_zero (Nat.ne_zero_of_lt enough)
    have here : c.targets[c.current]? = some target := by
      rw [← Nat.add_zero c.current, ← getElem?_drop, ahead]
      rfl
    refine ⟨c, ?_⟩
    unfold planLoop
    rw [planTurn_refuses here builds fresh mode]
    rfl
  | cons image passed ih =>
    obtain ⟨left, rfl⟩ := Nat.exists_eq_succ_of_ne_zero (Nat.ne_zero_of_lt enough)
    have here : c.targets[c.current]? = some image := by
      rw [← Nat.add_zero c.current, ← getElem?_drop, ahead]
      rfl
    obtain ⟨none_, passes⟩ := single image mem_cons_self
    obtain ⟨images, swap, turn⟩ := planTurn_passes here none_ passes
    unfold planLoop
    rw [turn]
    refine ih left ?_ (fun other member => single other (mem_cons_of_mem _ member)) mode
      (Nat.lt_of_succ_lt_succ enough)
    show c.targets.drop (c.current + 1) = passed ++ target :: rest
    rw [← drop_drop, ahead]
    rfl

end

/-- Where an update with builds stands before anything is done: still asking, at its first target. -/
structure Untouched (targets : List Target) (m : Machine) : Prop where
  among : isEarly m.state = true ∨ m.state = .inspectingImages ∨ m.state = .planning
  current : m.context.current = 0
  targets : m.context.targets = targets.map fun target => { toTarget := target }

theorem guardedDecide_plan (whole : m.context.targets ≠ []) (here : m.state = .planning)
    (kind : event.kind = .continue) : m.guardedDecide event = m.context.planFromState m.plan := by
  have decision : m.context.decide m.state event m.plan = m.context.planFromState m.plan := by
    simp only [Context.decide, kind, here]
  rw [← decision]
  simp [Machine.guardedDecide, kind, carriesTable, whole, here, needsCurrent]

theorem Untouched.refuses (untouched : Untouched targets m)
    (given : ∃ target ∈ targets, target.builds ≠ none) (mode : directXipMode m.report.bootloaderMode = false)
    (here : m.state = .planning) (kind : event.kind = .continue) (comes : comesToBuilds m = true) :
    ∃ at_ : Context, m.guardedDecide event = at_.fail buildsRefused := by
  obtain ⟨picked, member, builds⟩ := given
  have whole : m.context.targets ≠ [] := by
    rw [untouched.targets]
    exact ne_nil_of_mem (mem_map_of_mem member)
  rw [guardedDecide_plan whole here kind]
  simp only [comesToBuilds, Bool.and_eq_true, Bool.or_eq_true] at comes
  have straight : (m.context.current == 0 && (m.context.targets.any fun target =>
      runningOnTrial m.context target.toTarget) && !uploadOnly m.plan) = false := by
    rcases comes.1 with only | tried
    · simp [only]
    have none_ : (m.context.targets.any fun target => runningOnTrial m.context target.toTarget) = false := by
      simpa [any_eq_false] using tried
    simp [none_]
  unfold planFromState
  dsimp only
  rw [if_neg (by simp [straight])]
  -- The list splits at its first target with builds.
  have split := takeWhile_append_dropWhile (p := fun image : Image => image.builds.isNone) (l := m.context.targets)
  cases found : m.context.targets.dropWhile (·.builds.isNone) with
  | nil =>
    have all := dropWhile_eq_nil_iff.mp found
    have first := all { toTarget := picked } (untouched.targets ▸ mem_map_of_mem member)
    exact absurd (Option.isNone_iff_eq_none.mp first) builds
  | cons target rest =>
    have head := @List.head_dropWhile_not _ (fun image : Image => image.builds.isNone) m.context.targets
      (by simp [found])
    simp only [found, head_cons, Option.isNone_eq_false_iff] at head
    rw [found] at split
    have fresh : target.chosenKnown = false := by
      have inside : target ∈ m.context.targets := by
        rw [← split]
        simp
      rw [untouched.targets] at inside
      obtain ⟨_, _, rfl⟩ := mem_map.mp inside
      rfl
    refine planLoop_refuses _ _ rest (by rw [untouched.current, drop_zero, split]) ?_ (Option.isSome_iff_ne_none.mp head) fresh
      mode ?_
    · intro image inside
      refine ⟨?_, all_eq_true.mp comes.2 image inside⟩
      simpa using mem_takeWhile_imp inside
    rw [untouched.current, Nat.sub_zero]
    nth_rewrite 2 [← split]
    simp

theorem Row.untouched {result : Step × Context} (row : Row m event result) (untouched : Untouched targets m)
    (planless : ¬ (m.state = .planning ∧ event.kind = .continue)) :
    altersDevice result.1.effect = false ∧ (isTerminal result.1.next = true ∨
      (isEarly result.1.next = true ∨ result.1.next = .inspectingImages ∨ result.1.next = .planning) ∧
        result.2.current = 0 ∧ result.2.targets = m.context.targets) := by
  have never (state : UpdateState) (at_ : m.state = state) (late : isEarly state = false)
      (other : state ≠ .inspectingImages ∧ state ≠ .planning) : False := by
    rcases untouched.among with early | here | here
    · rw [at_, late] at early
      cases early
    · exact other.1 (at_.symm.trans here)
    · exact other.2 (at_.symm.trans here)
  have waits (at_ : isWait m.state) : False := by
    rcases at_ with at_ | at_
    · exact never _ at_ rfl (by simp)
    · exact never _ at_ rfl (by simp)
  have confirms (at_ : isConfirmRound m.state) : False := by
    rcases at_ with at_ | at_
    · exact never _ at_ rfl (by simp)
    · exact never _ at_ rfl (by simp)
  have first := untouched.current
  cases row with
  | settled halted => exact ⟨rfl, .inl halted⟩
  | stopped | cancelled => exact ⟨rfl, .inl rfl⟩
  | idle => exact ⟨rfl, .inr ⟨untouched.among, first, rfl⟩⟩
  | started | parameters => exact ⟨rfl, .inr ⟨.inl rfl, first, rfl⟩⟩
  | bootloader => exact ⟨rfl, .inr ⟨.inr (.inl rfl), first, rfl⟩⟩
  | inspected => exact ⟨rfl, .inr ⟨.inr (.inr rfl), first, rfl⟩⟩
  | planned at_ kind => exact absurd ⟨at_, kind⟩ planless
  | polled at_ | timedOut at_ | waitDropped at_ | waitRepeated at_ => exact (waits at_).elim
  | confirmDropped at_ | confirmReread at_ | confirmRefused at_ => exact (confirms at_).elim
  | _ => exact (never _ (by assumption) rfl (by simp)).elim

def meetsBuilds (t : MachineStep) : Prop :=
  (t.before.state = .planning → t.event.kind = .continue → comesToBuilds t.before = true) ∧
    (isEarly t.after.state = false → directXipMode t.after.report.bootloaderMode = false)

def refusesBuilds (t : MachineStep) : Prop :=
  altersDevice t.output.effect = false ∧ (t.before.state = .planning → t.event.kind = .continue →
    t.after.state = .failed ∧ t.after.report.cause = some buildsRefused)

theorem Untouched.step (untouched : Untouched targets m) (sane : Sane m)
    (given : ∃ target ∈ targets, target.builds ≠ none) (event : Event)
    (meets : meetsBuilds (Systems.transition Machine.apply m event)) :
    refusesBuilds (Systems.transition Machine.apply m event) ∧
      (isTerminal (m.apply event).2.state = true ∨ Untouched targets (m.apply event).2) := by
  by_cases planned : m.state = .planning ∧ event.kind = .continue
  · obtain ⟨here, kind⟩ := planned
    obtain ⟨next, same⟩ := apply_mode m event (by rw [here]; rfl)
    have mode : directXipMode m.report.bootloaderMode = false := by
      rw [Machine.report, ← same]
      exact meets.2 next
    obtain ⟨at_, refused⟩ := untouched.refuses given mode here kind (meets.1 here kind)
    rw [← decided_eq sane] at refused
    have failed : (m.apply event).2.state = .failed := by
      rw [apply_state, refused]
      rfl
    refine ⟨⟨?_, fun _ _ => ⟨failed, ?_⟩⟩, .inl (by rw [failed]; rfl)⟩
    · show altersDevice (m.apply event).1.effect = false
      rw [apply_effect, refused]
      rfl
    show (m.apply event).2.report.cause = some buildsRefused
    rw [apply_cause, refused]
    rfl
  · have row := guardedDecide_row m event
    rw [← decided_eq sane] at row
    obtain ⟨quiet, next⟩ := row.untouched untouched planned
    refine ⟨⟨?_, fun here kind => absurd ⟨here, kind⟩ planned⟩, ?_⟩
    · show altersDevice (m.apply event).1.effect = false
      rw [apply_effect]
      exact quiet
    rcases next with halted | ⟨among, current, kept⟩
    · exact .inl (by rw [apply_state]; exact halted)
    refine .inr ⟨?_, ?_, ?_⟩
    · rw [apply_state]
      exact among
    · rw [apply_current]
      exact current
    · rw [apply_targets, kept]
      exact untouched.targets

/-- Builds are refused by a device that is not direct-XIP before it is changed, if planning passes over every target
before them. -/
theorem builds_refused_before_change (targets : List Target) (plan : UpdatePlan) (events : List Event)
    (given : ∃ target ∈ targets, target.builds ≠ none)
    (mode : directXipMode (runMachine targets plan events).report.bootloaderMode = false)
    (comes : ∀ t ∈ machineLog targets plan events, t.before.state = .planning → t.event.kind = .continue →
      comesToBuilds t.before = true) : ∀ t ∈ machineLog targets plan events, altersDevice t.output.effect = false ∧
      (t.before.state = .planning → t.event.kind = .continue →
        t.after.state = .failed ∧ t.after.report.cause = some buildsRefused) := by
  obtain ⟨target, member, _⟩ := id given
  have start : Untouched targets (Machine.new targets plan) := ⟨.inl rfl, rfl, rfl⟩
  refine Systems.guarded_transitions Machine.apply (Machine.new targets plan)
    (fun m => Sane m ∧ (isTerminal m.state = true ∨ Untouched targets m)) meetsBuilds refusesBuilds
    ⟨new_sane plan (ne_nil_of_mem member), .inr start⟩ ?_ ?_ events ?_
  · rintro m event meets ⟨sane, halted | untouched⟩
    · refine ⟨apply_sane sane event, .inl ?_⟩
      rw [apply_state, decided_halted halted]
      exact halted
    · exact ⟨apply_sane sane event, (untouched.step sane given event meets).2⟩
  · rintro m event meets ⟨sane, halted | untouched⟩
    · refine ⟨?_, fun here => ?_⟩
      · show altersDevice (m.apply event).1.effect = false
        rw [apply_effect, decided_halted halted]
        rfl
      have here : m.state = .planning := here
      rw [here] at halted
      cases halted
    · exact (untouched.step sane given event meets).1
  · intro t found
    refine ⟨comes t found, fun late => ?_⟩
    rw [Machine.report, run_mode targets plan events t found late]
    exact mode

def plainThenBuilds : List Target :=
  [{ image := 0, hash := shortHash 1 }, { image := 1, builds := some (⟨shortHash 2, {}⟩, ⟨shortHash 3, {}⟩) }]

def swapDevice : List Event :=
  [{ kind := .start }, { kind := .parametersUnavailable },
    { kind := .bootloaderRead, bootloader := { mode := .swapUsingMove } }, readBack [active 0 9 true, active 1 9 true],
    { kind := .continue }]

theorem plain_image_sent_before_builds_refused : (∃ target ∈ plainThenBuilds, target.builds ≠ none) ∧
      directXipMode (runMachine plainThenBuilds {} swapDevice).report.bootloaderMode = false ∧
      ∃ t ∈ machineLog plainThenBuilds {} swapDevice, t.output.effect = .startUpload :=
  ⟨by decide, by decide +kernel, by decide +kernel⟩

theorem builds_refused_first_in_list : (runMachine plainThenBuilds.reverse {} swapDevice).state = .failed ∧
      ∀ t ∈ machineLog plainThenBuilds.reverse {} swapDevice, altersDevice t.output.effect = false ∧
        (t.before.state = .planning → t.event.kind = .continue →
          t.after.state = .failed ∧ t.after.report.cause = some buildsRefused) :=
  ⟨by decide +kernel, builds_refused_before_change _ _ _ (by decide) (by decide +kernel) (by decide +kernel)⟩

end Smply.Dfu
