import Smply.Systems.Tally
import Smply.Dfu.Builds

namespace Smply.Dfu

open List Context Machine Systems

variable {after c : Context} {plan : UpdatePlan} {m : Machine} {result : Step × Context} {event : Event}

/-- How far the current target has come: not asked for, being sent, being marked; 3 once nothing is staged any more. -/
def stage (state : UpdateState) (uploading : Bool) : Nat :=
  match state with
  | .idle | .queryingParameters | .queryingBootloader | .inspectingImages | .planning => 0
  | .uploading | .verifyingUpload => 1
  | .markingForTest => 2
  | .awaitingReconnect => if uploading then 1 else 3
  | _ => 3

def Machine.stage (m : Machine) : Nat := Dfu.stage m.state m.context.uploadInProgress

inductive Onward (c : Context) (result : Step × Context) : Prop
  | next (next : result.1.next = .planning) (effect : result.1.effect = .continue)
      (onward : result.2.current = c.current + 1) (inside : result.2.current < result.2.targets.length)
      (retried : result.2.markRetried = false)
  | past (over_ : ∀ uploading, stage result.1.next uploading = 3)
      (effect : result.1.effect ≠ .startUpload ∧ result.1.effect ≠ .markForTest ∧ result.1.effect ≠ .continue)

inductive Turned (c : Context) (result : Step × Context) : Prop
  | upload (next : result.1.next = .uploading) (effect : result.1.effect = .startUpload)
      (current : result.2.current = c.current) (retried : result.2.markRetried = c.markRetried)
  | mark (next : result.1.next = .markingForTest) (effect : result.1.effect = .markForTest)
      (current : result.2.current = c.current) (retried : result.2.markRetried = c.markRetried)
  | onward (onward : Onward c result)

section
variable {plan : UpdatePlan} {c : Context} {result : Step × Context}

theorem Judged.over_ {start : Context} (judged : Judged start result) :
    (∀ uploading, stage result.1.next uploading = 3) ∧ result.1.effect ≠ .startUpload ∧
      result.1.effect ≠ .markForTest ∧ result.1.effect ≠ .continue ∧ result.1.effect ≠ .reset := by
  refine ⟨fun uploading => ?_, ?_⟩
  · rcases judged.next with next | next | next | next | next | next <;> rw [next] <;> rfl
  · rcases judged.effect with effect | effect | ⟨_, effect | effect⟩ <;> simp [effect]

theorem Judged.past {start : Context} (judged : Judged start result) : Onward c result := by
  obtain ⟨over_, upload, mark, continue_, _⟩ := judged.over_
  exact .past over_ ⟨upload, mark, continue_⟩

theorem Staged.past {start : Context} (outcome : Staged plan start result) : Onward c result := by
  cases outcome with
  | uploaded | reset => exact .past (fun _ => rfl) (by simp)
  | refused _ _ _ _ check =>
    cases check
    exact .past (fun _ => rfl) (by simp)
  | judged _ _ _ outcome => exact outcome.judged.past

theorem NextTarget.onward (outcome : NextTarget plan c result) : Onward c result := by
  cases outcome with
  | next more => exact .next rfl rfl rfl more rfl
  | staged _ _ outcome => exact outcome.past

theorem MarkOrSkip.turned (outcome : MarkOrSkip plan c result) : Turned c result := by
  cases outcome with
  | mark => exact .mark rfl rfl rfl rfl
  | skipped _ _ outcome =>
    refine .onward ?_
    cases outcome.onward with
    | next next effect onward inside retried => exact .next next effect onward inside retried
    | past over_ effect => exact .past over_ effect

theorem refused_past {step : Step} (refused : c.checkPreconditions plan = (some step, after))
    {start : Context} : Turned start (step, after) := by
  have check := checkPreconditions_outcome plan c
  rw [refused] at check
  cases check
  exact .onward (.past (fun _ => rfl) (by simp))

theorem startUpload_turned {step : Step} (done : c.startUpload plan = (some step, after)) :
    Turned c (step, after) := by
  unfold startUpload at done
  split at done
  · rename_i refused
    cases done
    exact refused_past refused
  rename_i passed
  cases done
  rw [checkPreconditions_passed passed]
  exact .upload rfl rfl rfl rfl

theorem chooseBuild_kept (chosen : c.chooseBuild = (none, after)) :
    after.current = c.current ∧ after.markRetried = c.markRetried := by
  unfold chooseBuild at chosen
  split at chosen
  · cases chosen
    exact ⟨rfl, rfl⟩
  split at chosen
  · cases chosen
    exact ⟨rfl, rfl⟩
  split at chosen
  · cases chosen
    exact ⟨rfl, rfl⟩
  split at chosen
  · cases chosen
  · cases chosen
    exact ⟨rfl, rfl⟩

theorem Turned.start {start : Context} (turned : Turned start result) (current : start.current = c.current)
    (retried : start.markRetried = c.markRetried) : Turned c result := by
  cases turned with
  | upload next effect same kept => exact .upload next effect (same.trans current) (kept.trans retried)
  | mark next effect same kept => exact .mark next effect (same.trans current) (kept.trans retried)
  | onward onward =>
    cases onward with
    | next next effect onward inside fresh => exact .onward (.next next effect (current ▸ onward) inside fresh)
    | past over_ effect => exact .onward (.past over_ effect)

theorem planTurn_turned {step : Step} (done : c.planTurn plan = (some step, after)) : Turned c (step, after) := by
  have choice := chooseBuild_outcome c
  unfold planTurn at done
  split at done
  · rename_i stopped
    cases done
    rw [stopped] at choice
    cases choice with
    | failed _ _ stop =>
      rw [stop]
      exact .onward (.past (fun _ => rfl) (by simp [failAt, fail]))
  · rename_i chosen
    obtain ⟨current, retried⟩ := chooseBuild_kept chosen
    split at done
    · cases done
    dsimp only at done
    split at done
    · split at done
      · cases done
      split at done
      · cases done
      split at done
      · split at done
        · cases done
        split at done
        · rename_i refused
          cases done
          exact refused_past refused
        rename_i passed
        cases done
        refine (markOrSkip_outcome plan _).turned.start ?_ ?_
        · rw [checkPreconditions_passed passed]
          exact current
        · rw [checkPreconditions_passed passed]
          exact retried
      · exact (startUpload_turned done).start current retried
    · exact (startUpload_turned done).start current retried

theorem planTurn_kept (passed : c.planTurn plan = (none, after)) :
    after.current = c.current ∧ after.markRetried = c.markRetried := by
  unfold planTurn at passed
  split at passed
  · cases passed
  rename_i chosen
  have kept := chooseBuild_kept chosen
  split at passed
  · cases passed
    exact kept
  dsimp only at passed
  split at passed
  · split at passed
    · cases passed
      exact kept
    split at passed
    · cases passed
      exact kept
    split at passed
    · split at passed
      · cases passed
        exact kept
      · split at passed <;> cases passed
    · unfold startUpload at passed
      split at passed <;> cases passed
  · unfold startUpload at passed
    split at passed <;> cases passed

theorem planLoop_turned (left : Nat) (c : Context) : ∃ at_ : Context, c.current ≤ at_.current ∧
    at_.markRetried = c.markRetried ∧ Turned at_ (Context.planLoop plan left c) := by
  induction left generalizing c with
  | zero => exact ⟨c, Nat.le_refl _, rfl, .onward (staged_outcome plan c).past⟩
  | succ left ih =>
    unfold planLoop
    split
    · rename_i done
      exact ⟨c, Nat.le_refl _, rfl, planTurn_turned done⟩
    rename_i after passed
    obtain ⟨current, retried⟩ := planTurn_kept passed
    obtain ⟨at_, onward, kept, turned⟩ := ih { after with current := after.current + 1 }
    refine ⟨at_, ?_, kept.trans retried, turned⟩
    simp only at onward
    omega

theorem planFromState_turned (plan : UpdatePlan) (c : Context) : ∃ at_ : Context, c.current ≤ at_.current ∧
    at_.markRetried = c.markRetried ∧ Turned at_ (c.planFromState plan) := by
  unfold planFromState
  dsimp only
  split
  · exact ⟨c, Nat.le_refl _, rfl, .onward (inspectBoot_outcome plan _).judged.past⟩
  · exact planLoop_turned _ c

end

def recoverable (error : Error) : Bool :=
  imageError error == some ImageError.imageAlreadyPending || smpError error == some SmpError.badState

inductive Paces (m : Machine) (event : Event) (result : Step × Context) : Prop
  | stays (same : stage result.1.next result.2.uploadInProgress = m.stage)
      (current : result.2.current = m.context.current) (retried : result.2.markRetried = m.context.markRetried)
      (effect : result.1.effect ≠ .startUpload ∧ result.1.effect ≠ .markForTest ∧ result.1.effect ≠ .reset)
      (read : result.1.effect = .continue → event.kind ≠ .continue)
  | upload (asked : m.state = .planning ∧ event.kind = .continue)
      (after : stage result.1.next result.2.uploadInProgress = 1) (onward : m.context.current ≤ result.2.current)
      (retried : result.2.markRetried = m.context.markRetried) (effect : result.1.effect = .startUpload)
  | mark (asked : m.state = .planning ∧ event.kind = .continue ∨ m.stage = 1 ∧ result.2.current = m.context.current)
      (after : stage result.1.next result.2.uploadInProgress = 2)
      (onward : m.context.current ≤ result.2.current) (retried : result.2.markRetried = m.context.markRetried)
      (effect : result.1.effect = .markForTest)
  | again (here : m.stage = 2) (refused : m.state = .markingForTest ∧ event.kind = .failed)
      (recovers : recoverable event.error = true) (fresh : m.context.markRetried = false)
      (after : stage result.1.next result.2.uploadInProgress = 0) (current : result.2.current = m.context.current)
      (retried : result.2.markRetried = true) (effect : result.1.effect = .readState)
  | next (here : m.stage < 3) (after : stage result.1.next result.2.uploadInProgress = 0)
      (onward : m.context.current < result.2.current) (inside : result.2.current < result.2.targets.length)
      (retried : result.2.markRetried = false) (effect : result.1.effect = .continue)
  | past (after : stage result.1.next result.2.uploadInProgress = 3)
      (effect : result.1.effect ≠ .startUpload ∧ result.1.effect ≠ .markForTest ∧ result.1.effect ≠ .continue)
      (reset : result.1.effect = .reset → m.stage < 3)

section
variable {m : Machine} {event : Event} {result : Step × Context}

theorem stage_planning (here : m.state = .planning) : m.stage = 0 := by
  rw [Machine.stage, here]
  rfl

theorem Onward.paces (onward : Onward c result) (here : m.stage < 3)
    (current : m.context.current ≤ c.current) : Paces m event result := by
  cases onward with
  | next next effect _ inside retried => exact .next here (by rw [next]; rfl) (by omega) inside retried effect
  | past over_ effect => exact .past (over_ _) effect fun _ => here

theorem Turned.paces (turned : Turned c result) (here : m.state = .planning)
    (asked : event.kind = .continue) (current : m.context.current ≤ c.current)
    (retried : c.markRetried = m.context.markRetried) : Paces m event result := by
  have first := stage_planning here
  cases turned with
  | upload next effect _ kept =>
    exact .upload ⟨here, asked⟩ (by rw [next]; rfl) (by omega) (kept.trans retried) effect
  | mark next effect _ kept =>
    exact .mark (.inl ⟨here, asked⟩) (by rw [next]; rfl) (by omega) (kept.trans retried) effect
  | onward onward => exact onward.paces (by omega) current

theorem Judged.paces (judged : Judged c result) : Paces m event result := by
  obtain ⟨over_, upload, mark, continue_, never⟩ := judged.over_
  exact .past (over_ _) ⟨upload, mark, continue_⟩ fun reset => absurd reset never

theorem Row.paces (row : Row m event result) (sane : Sane m)
    (unplanned : ¬ (m.state = .planning ∧ event.kind = .continue))
    (unrefused : ¬ (m.state = .markingForTest ∧ event.kind = .failed)) : Paces m event result := by
  have at_ {state : UpdateState} (here : m.state = state) : m.stage = stage state m.context.uploadInProgress := by
    rw [Machine.stage, here]
  have free {state : UpdateState} (here : m.state = state) (live : isTerminal state = false)
      (other : state ≠ .uploading ∧ state ≠ .awaitingReconnect) : m.context.uploadInProgress = false := by
    by_contra busy
    rcases sane.placed.going (by simpa using busy) with halted | ⟨at_ | at_, _⟩
    · rw [here, live] at halted
      cases halted
    · exact other.1 (here.symm.trans at_)
    · exact other.2 (here.symm.trans at_)
  cases row with
  | settled | idle | polled | waitRepeated => exact .stays rfl rfl rfl (by simp) (by simp)
  | started here | parameters here | bootloader here | uploaded here =>
    exact .stays (by rw [at_ here]; rfl) rfl rfl (by simp) (by simp)
  | inspected here kind => exact .stays (by rw [at_ here]; rfl) rfl rfl (by simp) (by simp [kind])
  | planned here kind => exact absurd ⟨here, kind⟩ unplanned
  | remark here kind => exact absurd ⟨here, kind⟩ unrefused
  | uploadedOnly here _ outcome | marked here _ _ outcome | unmarked here _ _ _ outcome =>
    exact outcome.onward.paces (by simp [at_ here, stage]) (Nat.le_refl _)
  | suspended here =>
    cases busy : m.context.uploadInProgress with
    | true => exact .stays (by simp [at_ here, busy, stage]) rfl rfl (by simp) (by simp)
    | false => exact .past (by simp [busy, stage]) (by simp) (by simp)
  | resumed here busy => exact .stays (by simp [at_ here, busy, stage]) rfl rfl (by simp) (by simp)
  | toMark here => exact .mark (.inr ⟨by rw [at_ here]; rfl, rfl⟩) rfl (Nat.le_refl _) rfl rfl
  | dropped here => exact .past (by simp [stage, free here rfl (by simp)]) (by simp) (by simp)
  | reconnected => exact .past rfl (by simp) (by simp)
  | waitDropped here | confirmDropped here =>
    refine .past ?_ (by simp) (by simp)
    rcases here with here | here <;> simp [stage, free here rfl (by simp)]
  | booted _ _ _ outcome | applyRead _ _ _ outcome | commitRead _ _ _ outcome | confirmVerified _ _ _ _ outcome =>
    exact outcome.judged.paces
  | _ => exact .past rfl (by simp [fail]) (by simp [fail])

theorem guardedDecide_refused (sane : Sane m) (here : m.state = .markingForTest) (kind : event.kind = .failed) :
    m.guardedDecide event = m.context.markRefused event.error := by
  have inside := sane.placed.inside (.inl (by rw [here]; rfl))
  simp [guardedDecide, here, kind, carriesTable, sane.whole, inside, Context.decide]

theorem Sane.paces (sane : Sane m) (event : Event) : Paces m event (m.decided event) := by
  rw [decided_eq sane]
  by_cases planned : m.state = .planning ∧ event.kind = .continue
  · obtain ⟨here, kind⟩ := planned
    rw [guardedDecide_plan sane.whole here kind]
    obtain ⟨at_, onward, retried, turned⟩ := planFromState_turned m.plan m.context
    exact turned.paces here kind onward retried
  · by_cases refused : m.state = .markingForTest ∧ event.kind = .failed
    · obtain ⟨here, kind⟩ := refused
      rw [guardedDecide_refused sane here kind]
      unfold markRefused
      dsimp only
      split
      · rename_i both
        obtain ⟨recovers, fresh⟩ := Bool.and_eq_true_iff.mp both
        exact .again (by rw [Machine.stage, here]; rfl) ⟨here, kind⟩ recovers (by simpa using fresh) rfl rfl rfl rfl
      · exact .past rfl (by simp [fail]) (by simp [fail])
    · exact (guardedDecide_row m event).paces sane planned refused

structure Barren (m : Machine) : Prop where
  none_ : m.context.targets = []
  over_ : m.state = .idle ∨ isTerminal m.state = true

theorem Barren.decided (barren : Barren m) (event : Event) :
    m.decided event = ({ next := m.state, effect := .none }, m.context) ∧ isTerminal m.state = true ∨
      m.decided event = m.context.failAt .internal noImage := by
  rcases barren.over_ with here | halted
  · right
    simp [Machine.decided, Machine.guardedDecide, here, barren.none_, isTerminal, failAt, fail, namesCurrent]
  · exact .inl ⟨decided_halted halted event, halted⟩

theorem Barren.apply (barren : Barren m) (event : Event) : Barren (m.apply event).2 := by
  constructor
  · rw [apply_targets]
    rcases barren.decided event with ⟨same, _⟩ | same <;> rw [same] <;> exact barren.none_
  rw [apply_state]
  rcases barren.decided event with ⟨same, halted⟩ | same
  · rw [same]
    exact .inr halted
  · rw [same]
    exact .inr rfl

def Fit (m : Machine) : Prop := Sane m ∨ Barren m

theorem Fit.apply (fit : Fit m) (event : Event) : Fit (m.apply event).2 := by
  rcases fit with sane | barren
  · exact .inl (apply_sane sane event)
  · exact .inr (barren.apply event)

theorem run_fit (targets : List Target) (plan : UpdatePlan) (events : List Event) :
    Fit (runMachine targets plan events) := by
  refine state_invariant apply (new targets plan) Fit ?_
    (fun _ event fit => fit.apply event) events
  by_cases none_ : targets = []
  · exact .inr ⟨by simp [new, none_], .inl rfl⟩
  · exact .inl (new_sane plan none_)

theorem decided_paces (fit : Fit m) (event : Event) : Paces m event (m.decided event) := by
  rcases fit with sane | barren
  · exact sane.paces event
  rcases barren.decided event with ⟨same, _⟩ | same
  · rw [same]
    exact .stays rfl rfl rfl (by simp) (by simp)
  · rw [same]
    exact .past rfl (by simp [failAt, fail]) (by simp [failAt, fail])

@[simp] theorem apply_markRetried (m : Machine) (event : Event) :
    (m.apply event).2.context.markRetried = (m.decided event).2.markRetried := by
  obtain ⟨_, _, _, _, _, _, same⟩ := apply_eq m event
  rw [same]

@[simp] theorem apply_resetForced (m : Machine) (event : Event) :
    (m.apply event).2.context.resetForced = (m.decided event).2.resetForced := by
  obtain ⟨_, _, _, _, _, _, same⟩ := apply_eq m event
  rw [same]

theorem apply_stage (m : Machine) (event : Event) :
    (m.apply event).2.stage = stage (m.decided event).1.next (m.decided event).2.uploadInProgress := by
  rw [Machine.stage, apply_state, apply_uploadInProgress]

theorem stage_le (state : UpdateState) (uploading : Bool) : stage state uploading ≤ 3 := by
  cases state <;> cases uploading <;> decide

end

def allowed (least stage : Nat) (retried : Bool) (current index : Nat) : Nat :=
  if 3 ≤ stage ∨ index < current then 2
  else if index = current then (if least ≤ stage then 1 else 0) + (if retried then 1 else 0)
  else 0

section
variable {least count current index after stage later : Nat} {retried : Bool}

theorem allowed_le_two : allowed least stage retried current index ≤ 2 := by
  unfold allowed
  grind

section
variable (within : count ≤ allowed least stage retried current index)
include within

theorem allowed_given (before : stage < least)
    (reached : least ≤ later) (open_ : stage < 3) (onward : current ≤ after) :
    count + (if after = index then 1 else 0) ≤ allowed least later retried after index := by
  unfold allowed at *
  grind

theorem allowed_onward (open_ : stage < 3)
    (further : stage ≤ later) (onward : current ≤ after) : count ≤ allowed least later retried after index := by
  unfold allowed at *
  grind

omit within in
theorem allowed_again (within : count ≤ allowed least 2 false current index) :
    count ≤ allowed least 0 true current index := by
  unfold allowed at *
  grind

theorem allowed_next (open_ : stage < 3) (onward : current < after) : count ≤ allowed least 0 false after index := by
  unfold allowed at *
  grind

end

end

def gives (effect : Effect) (index : Nat) (t : MachineStep) : Bool :=
  t.output.effect == effect && t.after.context.current == index

structure Spent (past : List MachineStep) (m : Machine) : Prop where
  uploads : ∀ index, past.countP (gives .startUpload index) ≤
    allowed 1 m.stage m.context.markRetried m.context.current index
  marks : ∀ index, past.countP (gives .markForTest index) ≤
    allowed 2 m.stage m.context.markRetried m.context.current index
  resets : past.countP (fun t => t.output.effect == .reset) ≤ m.stage / 3

theorem gives_count (past : List MachineStep) (m : Machine) (event : Event) (effect : Effect) (index : Nat) :
    (past ++ [Systems.transition Machine.apply m event]).countP (gives effect index) =
      past.countP (gives effect index) +
        if (m.decided event).1.effect = effect then if (m.decided event).2.current = index then 1 else 0 else 0 := by
  rw [countP_append, countP_singleton]
  simp only [gives, transition, apply_effect, apply_current, Bool.and_eq_true, beq_iff_eq]
  split <;> split <;> simp_all

theorem Paces.allows (paces : Paces m event result) {effect : Effect} {least : Nat}
    (which : effect = .startUpload ∧ least = 1 ∨ effect = .markForTest ∧ least = 2) {count index : Nat}
    (within : count ≤ allowed least m.stage m.context.markRetried m.context.current index) :
    count + (if result.1.effect = effect then if result.2.current = index then 1 else 0 else 0) ≤
      allowed least (stage result.1.next result.2.uploadInProgress) result.2.markRetried result.2.current index := by
  have others {given : Effect} (is : result.1.effect = given) (other : given ≠ .startUpload ∧ given ≠ .markForTest) :
      result.1.effect ≠ effect := by
    rintro rfl
    rcases which with ⟨same, -⟩ | ⟨same, -⟩
    · exact other.1 (is.symm.trans same)
    · exact other.2 (is.symm.trans same)
  cases paces with
  | stays same current retried effect =>
    rw [if_neg (others rfl ⟨effect.1, effect.2.1⟩), same, current, retried]
    exact within
  | upload asked after onward retried effect =>
    have low := stage_planning asked.1
    rw [effect, after, retried]
    rcases which with ⟨rfl, rfl⟩ | ⟨rfl, rfl⟩
    · exact allowed_given within (by omega) (by omega) (by omega) onward
    · exact allowed_onward within (by omega) (by omega) onward
  | mark asked after onward retried effect =>
    have low := asked.imp_left fun here => stage_planning here.1
    rw [effect, after, retried]
    rcases which with ⟨rfl, rfl⟩ | ⟨rfl, rfl⟩
    · exact allowed_onward within (by omega) (by omega) onward
    · exact allowed_given within (by omega) (by omega) (by omega) onward
  | again here _ _ fresh after current retried effect =>
    rw [here, fresh] at within
    rw [if_neg (others effect (by simp)), after, current, retried]
    exact allowed_again within
  | next here after onward _ retried effect =>
    rw [if_neg (others effect (by simp)), after, retried]
    exact allowed_next within here onward
  | past after effect =>
    rw [if_neg (others rfl ⟨effect.1, effect.2.1⟩), after]
    exact Nat.le_trans within allowed_le_two

theorem Spent.step {past : List MachineStep} (spent : Spent past m) (fit : Fit m) (event : Event) :
    Spent (past ++ [Systems.transition Machine.apply m event]) (m.apply event).2 := by
  have paces := decided_paces fit event
  refine ⟨fun index => ?_, fun index => ?_, ?_⟩
  · rw [gives_count, apply_stage, apply_markRetried, apply_current]
    exact paces.allows (.inl ⟨rfl, rfl⟩) (spent.uploads index)
  · rw [gives_count, apply_stage, apply_markRetried, apply_current]
    exact paces.allows (.inr ⟨rfl, rfl⟩) (spent.marks index)
  · have resets := spent.resets
    have low : m.stage ≤ 3 := stage_le _ _
    have counted : (past ++ [transition apply m event]).countP (fun t => t.output.effect == .reset) =
        past.countP (fun t => t.output.effect == .reset) + if (m.decided event).1.effect = .reset then 1 else 0 := by
      simp [countP_append, countP_singleton, transition]
    rw [counted, apply_stage]
    cases paces with
    | stays same _ _ effect =>
      rw [if_neg effect.2.2, same]
      exact resets
    | upload asked after _ _ effect =>
      have low := stage_planning asked.1
      rw [if_neg (by simp [effect]), after]
      omega
    | mark asked after _ _ effect =>
      have low := asked.imp_left fun here => stage_planning here.1
      rw [if_neg (by simp [effect]), after]
      omega
    | again _ _ _ _ after _ _ effect | next _ after _ _ _ effect =>
      rw [if_neg (by simp [effect]), after]
      omega
    | past after _ reset =>
      rw [after]
      split
      · have open_ := reset (by assumption)
        omega
      · omega

theorem run_spent (targets : List Target) (plan : UpdatePlan) (events : List Event) :
    Spent (machineLog targets plan events) (runMachine targets plan events) := by
  refine history_invariant_with apply (new targets plan) (fun _ m => Fit m) Spent
    (run_fit targets plan) ?_ (fun _ _ event fit spent => spent.step fit event) events
  exact ⟨fun _ => Nat.zero_le _, fun _ => Nat.zero_le _, Nat.zero_le _⟩

def Context.clock (c : Context) : Context :=
  { resetForced := c.resetForced, graceDeadline := c.graceDeadline, applyPoll := c.applyPoll,
    applyDeadline := c.applyDeadline, applyPhase := c.applyPhase }

theorem Judged.clock (judged : Judged c result) : result.1.effect ≠ .forceReset ∧ result.2.clock = c.clock := by
  constructor
  · rcases judged.effect with effect | effect | ⟨_, effect | effect⟩ <;> simp [effect]
  · rw [judged.frame]
    rfl

theorem Moves.clock {before : Context} (moves : Moves plan before after) : after.clock = before.clock := by
  rw [moves.frame]
  rfl

theorem Planned.clock (outcome : Planned plan c result) :
    result.1.effect ≠ .forceReset ∧ result.2.clock = c.clock := by
  cases outcome with
  | refused moves | upload moves | mark moves | next moves | reset moves | uploaded moves =>
    exact ⟨by simp, moves.clock⟩
  | judged moves outcome => exact ⟨outcome.judged.clock.1, outcome.judged.clock.2.trans moves.clock⟩
  | stopped moves => exact ⟨by simp [fail], moves.clock⟩

inductive Clocked (m : Machine) (event : Event) (result : Step × Context) : Prop
  | kept (effect : result.1.effect ≠ .forceReset) (same : result.2.clock = m.context.clock)
  | polled (here : isWait m.state) (tick : event.kind = .tick) (effect : result.1.effect ≠ .forceReset)
      (same : result.2.clock = { m.context.clock with applyPoll := none })
  | forced (here : m.state = .resetting) (effect : result.1.effect = .forceReset)
      (same : result.2.clock = { m.context.clock with resetForced := true })

theorem Row.clock (row : Row m event result) : Clocked m event result := by
  have kept {result : Step × Context} (done : result.1.effect ≠ .forceReset ∧ result.2.clock = m.context.clock) :
      Clocked m event result := .kept done.1 done.2
  cases row with
  | polled here tick => exact .polled here tick (by simp) rfl
  | timedOut here tick => exact .polled here tick (by simp [fail]) rfl
  | forced here => exact .forced here rfl rfl
  | planned _ _ outcome | uploadedOnly _ _ outcome | marked _ _ _ outcome | unmarked _ _ _ _ outcome =>
    exact kept outcome.planned.clock
  | booted _ _ _ outcome | applyRead _ _ _ outcome | commitRead _ _ _ outcome | confirmVerified _ _ _ _ outcome =>
    exact kept outcome.judged.clock
  | _ => exact .kept (by simp [fail]) rfl

theorem decided_clock (m : Machine) (event : Event) : Clocked m event (m.decided event) := by
  refine decided_cases m event Row.clock fun row named _ => ?_
  cases row.clock with
  | kept _ same => exact .kept (by simp [fail]) same
  | polled here tick _ same => exact .polled here tick (by simp [fail]) same
  | forced _ effect =>
    rw [effect] at named
    cases named

theorem guardedDecide_fresh (here : m.state = .resetting)
    (given : (m.guardedDecide event).1.effect = .forceReset) : m.context.resetForced = false := by
  have refused (error : Error) (given : (m.context.resetRefused error).1.effect = .forceReset) :
      m.context.resetForced = false := by
    unfold resetRefused at given
    split at given
    · rename_i busy
      rw [Bool.and_eq_true] at busy
      simpa using busy.2
    · split at given <;> cases given
  unfold guardedDecide at given
  dsimp only at given
  split at given
  · rw [here] at given
    unfold Context.decide at given
    cases kind : event.kind <;>
      simp [kind, isTerminal, tick, illegal, failAt, fail] at given
    exact refused _ given
  · cases given

theorem decided_resetForced (m : Machine) (event : Event) :
    (m.decided event).1.effect ≠ .forceReset ∧ (m.decided event).2.resetForced = m.context.resetForced ∨
      (m.decided event).1.effect = .forceReset ∧ m.context.resetForced = false ∧
        (m.decided event).2.resetForced = true := by
  cases decided_clock m event with
  | kept effect same | polled here tick effect same =>
    have flag := congrArg resetForced same
    exact .inl ⟨effect, flag⟩
  | forced here effect same =>
    have flag := congrArg resetForced same
    have guarded : (m.guardedDecide event).1.effect = .forceReset := by
      unfold decided at effect
      dsimp only at effect
      split at effect
      · cases effect
      · exact effect
    exact .inr ⟨effect, guardedDecide_fresh here guarded, flag⟩

theorem run_forced (targets : List Target) (plan : UpdatePlan) (events : List Event) :
    (machineLog targets plan events).countP (fun t => t.output.effect == .forceReset) ≤
      if (runMachine targets plan events).context.resetForced then 1 else 0 := by
  refine history_invariant apply (new targets plan)
    (fun past m => past.countP (fun t => t.output.effect == .forceReset) ≤ if m.context.resetForced then 1 else 0)
    (Nat.zero_le _) ?_ events
  intro past m event before
  rw [countP_append, countP_singleton, apply_resetForced]
  simp only [transition, apply_effect, beq_iff_eq]
  rcases decided_resetForced m event with ⟨other, same⟩ | ⟨given, fresh, forced⟩
  · rw [if_neg other, same]
    exact before
  simp only [fresh, Bool.false_eq_true, ↓reduceIte] at before
  simp only [given, forced, ↓reduceIte]
  omega

theorem Paces.beyond (paces : Paces m event result)
    (past : m.stage = 3) : stage result.1.next result.2.uploadInProgress = 3 := by
  cases paces with
  | stays same => exact same.trans past
  | upload asked =>
    have low := stage_planning asked.1
    omega
  | mark asked =>
    have low := asked.imp_left fun here => stage_planning here.1
    omega
  | again | next => omega
  | past after => exact after

theorem Paces.resets (paces : Paces m event result)
    (reset : result.1.effect = .reset) : stage result.1.next result.2.uploadInProgress = 3 := by
  cases paces with
  | stays _ _ _ effect => exact absurd reset effect.2.2
  | upload asked after onward retried effect | mark asked after onward retried effect
  | again _ _ _ _ _ _ _ effect | next _ _ _ _ _ effect => simp [effect] at reset
  | past after => exact after

theorem reset_closes {targets : List Target} {events : List Event} {past later : List MachineStep}
    {t : MachineStep} (split : machineLog targets plan events = past ++ t :: later) (reset : t.output.effect = .reset) :
    ∀ u ∈ later, u.after.stage = 3 := by
  obtain ⟨earlier, event, rest, _, _, is, rest_eq⟩ := log_split apply _ events split
  have start : Fit t.after ∧ t.after.stage = 3 := by
    subst is
    have fit := run_fit targets plan earlier
    have given := (apply_effect _ _).symm.trans reset
    exact ⟨fit.apply event, (apply_stage _ event).trans ((decided_paces fit event).resets given)⟩
  have keeps (m : Machine) (event : Event) (at_ : Fit m ∧ m.stage = 3) :
      Fit (m.apply event).2 ∧ (m.apply event).2.stage = 3 :=
    ⟨at_.1.apply event, (apply_stage m event).trans ((decided_paces at_.1 event).beyond at_.2)⟩
  rw [rest_eq]
  exact every_transition apply t.after (fun m => Fit m ∧ m.stage = 3) (fun u => u.after.stage = 3)
    start keeps (fun m event at_ => (keeps m event at_).2) rest

theorem Paces.answers (paces : Paces m event result)
    (asked : event.kind = .continue) (answer : result.1.effect = .continue) :
    m.context.current < result.2.current ∧ result.2.current < result.2.targets.length := by
  cases paces with
  | stays _ _ _ _ read => exact absurd asked (read answer)
  | upload asked after onward retried effect | mark asked after onward retried effect
  | again _ _ _ _ _ _ _ effect => simp [effect] at answer
  | next _ _ onward inside => exact ⟨onward, inside⟩
  | past _ effect => exact absurd answer effect.2.2

def Unanswered (t : MachineStep) : Prop := t.event.kind = .continue ∧ t.output.effect = .continue

theorem unanswered_onward (fit : Fit m) (block : List Event) (some_ : block ≠ [])
    (all : ∀ t ∈ Systems.log Machine.apply m block, Unanswered t) :
    m.context.current + block.length < m.context.targets.length := by
  induction block generalizing m with
  | nil => exact absurd rfl some_
  | cons event rest ih =>
    obtain ⟨asked, answer⟩ := all _ (mem_cons_self ..)
    have answered := (apply_effect m event).symm.trans answer
    obtain ⟨onward, inside⟩ := (decided_paces fit event).answers asked answered
    have same := (apply_evolves m event).length_eq
    rw [← apply_current] at onward inside
    rw [← apply_targets, ← same] at inside
    by_cases last : rest = []
    · subst last
      rw [length_singleton]
      omega
    have later := ih (fit.apply event) last fun t member => all t (mem_cons_of_mem _ member)
    rw [← same] at later
    rw [length_cons]
    omega

section
variable (targets : List Target) (plan : UpdatePlan)

theorem run_length (events : List Event) :
    (runMachine targets plan events).context.targets.length = targets.length := by
  refine state_invariant apply (new targets plan)
    (fun m => m.context.targets.length = targets.length) (by simp [new]) (fun m event before => ?_) events
  exact (apply_evolves m event).length_eq.symm.trans before

theorem unanswered_le (earlier block : List Event)
    (all : ∀ t ∈ Systems.log Machine.apply (runMachine targets plan earlier) block, Unanswered t) :
    block.length ≤ targets.length := by
  by_cases none_ : block = []
  · simp [none_]
  have bound := unanswered_onward (run_fit targets plan earlier) block none_ all
  rw [run_length] at bound
  omega

/-- The updater's loop: a step without an answer is followed by a `Continue`. None: not within so many rounds. -/
def dispatch : Nat → Machine → Event → Option (Step × Machine)
  | 0, _, _ => none
  | rounds + 1, m, event =>
    let (step, after) := m.apply event
    if step.effect ≠ .continue then some (step, after)
    else dispatch rounds after { kind := .continue, now := event.now }

theorem dispatch_goes_on {rounds : Nat} (open_ : dispatch (rounds + 1) m event = none) :
    (m.apply event).1.effect = .continue ∧
      dispatch rounds (m.apply event).2 { kind := .continue, now := event.now } = none := by
  simp only [dispatch] at open_
  split at open_
  · cases open_
  · rename_i again
    exact ⟨not_not.mp again, open_⟩

theorem dispatch_unanswered {rounds : Nat} {now : TimePoint}
    (open_ : dispatch rounds m { kind := .continue, now := now } = none) :
    ∀ t ∈ Systems.log Machine.apply m (List.replicate rounds { kind := .continue, now := now }), Unanswered t := by
  induction rounds generalizing m with
  | zero => simp [log]
  | succ _ ih =>
    obtain ⟨again, rest⟩ := dispatch_goes_on open_
    intro t member
    rcases mem_cons.mp member with rfl | later
    · exact ⟨rfl, again⟩
    · exact ih rest t later

theorem dispatch_ends (events : List Event) (event : Event) :
    dispatch (targets.length + 2) (runMachine targets plan events) event ≠ none := by
  intro open_
  obtain ⟨_, rest⟩ := dispatch_goes_on open_
  have after : ((runMachine targets plan events).apply event).2 = runMachine targets plan (events ++ [event]) :=
    (run_concat apply _ events event).symm
  rw [after] at rest
  have bound := unanswered_le targets plan (events ++ [event]) _ (dispatch_unanswered rest)
  rw [length_replicate] at bound
  omega

/-- An update gives each command a bounded number of times, and the updater's loop ends. -/
theorem run_commands_bounded (events : List Event) :
    (machineLog targets plan events).countP (fun t => t.output.effect == .reset) ≤ 1 ∧
      (machineLog targets plan events).countP (fun t => t.output.effect == .forceReset) ≤ 1 ∧
      (∀ index, (machineLog targets plan events).countP (gives .startUpload index) ≤ 2 ∧
        (machineLog targets plan events).countP (gives .markForTest index) ≤ 2) ∧
      (∀ past t later, machineLog targets plan events = past ++ t :: later → t.output.effect = .reset →
        ∀ u ∈ later, u.after.state ≠ .planning) ∧
      (∀ earlier block later, events = earlier ++ block ++ later →
        (∀ t ∈ Systems.log Machine.apply (runMachine targets plan earlier) block,
          t.event.kind = .continue ∧ t.output.effect = .continue) → block.length ≤ targets.length) ∧
      ∀ event, dispatch (targets.length + 2) (runMachine targets plan events) event ≠ none := by
  have spent := run_spent targets plan events
  refine ⟨?_, ?_, fun index => ⟨?_, ?_⟩, ?_, ?_, dispatch_ends targets plan events⟩
  · have low : (runMachine targets plan events).stage ≤ 3 := stage_le _ _
    have resets := spent.resets
    omega
  · have forced := run_forced targets plan events
    split at forced <;> omega
  · exact Nat.le_trans (spent.uploads index) allowed_le_two
  · exact Nat.le_trans (spent.marks index) allowed_le_two
  · intro past t later split reset u member planning
    have closed := reset_closes split reset u member
    rw [Machine.stage, planning] at closed
    cases closed
  · intro earlier block later _ all
    exact unanswered_le targets plan earlier block all

end

end Smply.Dfu
