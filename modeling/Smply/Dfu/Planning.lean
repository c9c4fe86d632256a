import Smply.Dfu.Judging

namespace Smply.Dfu

open Context

abbrev Context.refusedBy (c : Context) (refusal : Refusal) : Context :=
  { c with
    preconditionsChecked := true
    report := { c.report with
      refusal := some refusal
      revertPending := c.swapScheduled
      cause := some (Error.at .updateRefused (refusalText refusal)) } }

inductive CheckPreconditions (plan : UpdatePlan) (c : Context) : Option Step × Context → Prop where
  | already (checked : c.preconditionsChecked = true) : CheckPreconditions plan c (none, c)
  | passed (unchecked : c.preconditionsChecked = false) (mode : modeRefusal plan c = none)
      (newer : isDowngrade plan c = false) :
      CheckPreconditions plan c (none, { c with preconditionsChecked := true })
  | refused (unchecked : c.preconditionsChecked = false) (refusal : Refusal) :
      CheckPreconditions plan c (some { next := .failed, effect := .finish }, c.refusedBy refusal)

inductive Staged (plan : UpdatePlan) (c : Context) : Step × Context → Prop where
  | uploaded (only : uploadOnly plan = true) :
      Staged plan c ({ next := .completed, effect := .finish }, c)
  | refused (whole : uploadOnly plan = false) (owed : c.swapScheduled = true) (step : Step) (after : Context)
      (check : CheckPreconditions plan c (some step, after)) : Staged plan c (step, after)
  | reset (whole : uploadOnly plan = false) (owed : c.swapScheduled = true) (after : Context)
      (check : CheckPreconditions plan c (none, after)) :
      Staged plan c ({ next := .resetting, effect := .reset }, after)
  | judged (whole : uploadOnly plan = false) (quiet : c.swapScheduled = false) (result : Step × Context)
      (outcome : InspectBoot plan c result) : Staged plan c result

inductive NextTarget (plan : UpdatePlan) (c : Context) : Step × Context → Prop where
  | next (more : c.current + 1 < c.targets.length) :
      NextTarget plan c ({ next := .planning, effect := .continue },
        { c with current := c.current + 1, markRetried := false })
  | staged (last : c.targets.length ≤ c.current + 1) (result : Step × Context)
      (outcome : Staged plan { c with current := c.current + 1, markRetried := false } result) :
      NextTarget plan c result

inductive MarkOrSkip (plan : UpdatePlan) (c : Context) : Step × Context → Prop where
  | skipped (unsettable : withoutSetState c = true) (result : Step × Context)
      (outcome : NextTarget plan { c with swapScheduled := true } result) : MarkOrSkip plan c result
  | mark (settable : withoutSetState c = false) :
      MarkOrSkip plan c ({ next := .markingForTest, effect := .markForTest }, c)

def Image.choose (target : Image) (chosen : Nat) (build : Build) : Image :=
  { target with chosen := chosen, chosenKnown := true, hash := build.hash, version := build.version }

def Resolves (before after : Image) : Prop :=
  after = before ∨ before.chosenKnown = false ∧ ∃ builds chosen build, before.builds = some builds ∧
    (build = builds.1 ∨ build = builds.2) ∧ after = before.choose chosen build

def Image.Known (target : Image) : Prop := target.builds = none ∨ target.chosenKnown = true

def CurrentKnown (c : Context) : Prop := ∀ target, c.targets[c.current]? = some target → target.Known

structure Skipped (before after : Context) : Prop where
  frame : after = { before.withTargets after.targets after.report.images with
    current := after.current, swapScheduled := after.swapScheduled }
  targets : List.Forall₂ Resolves before.targets after.targets
  swap : before.swapScheduled = true → after.swapScheduled = true

inductive PlanLoop (plan : UpdatePlan) (c : Context) : Step × Context → Prop where
  | stopped (at_ : Context) (skipped : Skipped c at_) :
      PlanLoop plan c (at_.failAt .invalidArgument "dfu: one file per slot needs a direct-XIP device")
  | refused (at_ : Context) (skipped : Skipped c at_) (step : Step) (after : Context)
      (check : CheckPreconditions plan at_ (some step, after)) : PlanLoop plan c (step, after)
  | upload (at_ : Context) (skipped : Skipped c at_) (known : CurrentKnown at_) (after : Context)
      (check : CheckPreconditions plan at_ (none, after)) :
      PlanLoop plan c ({ next := .uploading, effect := .startUpload }, { after with uploadInProgress := true })
  | mark (at_ : Context) (skipped : Skipped c at_) (known : CurrentKnown at_)
      (whole : uploadOnly plan = false) (after : Context)
      (check : CheckPreconditions plan at_ (none, after)) (images : List ImageReport)
      (result : Step × Context) (outcome : MarkOrSkip plan (after.withImages images) result) :
      PlanLoop plan c result
  | staged (at_ : Context) (skipped : Skipped c at_) (result : Step × Context)
      (outcome : Staged plan at_ result) : PlanLoop plan c result

inductive ChooseBuild (c : Context) : Option Step × Context → Prop where
  | resolved (after : Context) (skipped : Skipped c after) (known : CurrentKnown after) :
      ChooseBuild c (none, after)
  | failed (step : Step) (after : Context) (stop : (step, after) =
        c.failAt .invalidArgument "dfu: one file per slot needs a direct-XIP device") :
      ChooseBuild c (some step, after)

inductive PlanTurn (plan : UpdatePlan) (c : Context) : Option Step × Context → Prop where
  | next (after : Context) (skipped : Skipped c after) : PlanTurn plan c (none, after)
  | done (step : Step) (after : Context) (outcome : PlanLoop plan c (step, after)) :
      PlanTurn plan c (some step, after)

inductive PlanFromState (plan : UpdatePlan) (c : Context) : Step × Context → Prop where
  | afterReset (first : c.current = 0) (whole : uploadOnly plan = false) (images : List ImageReport)
      (result : Step × Context) (outcome : InspectBoot plan (c.withImages images) result) :
      PlanFromState plan c result
  | loop (guarded : uploadOnly plan = true ∨ c.current ≠ 0 ∨
        ∀ target ∈ c.targets, runningOnTrial c target.toTarget = false)
      (result : Step × Context) (outcome : PlanLoop plan c result) : PlanFromState plan c result

variable (plan : UpdatePlan) (c : Context)

theorem checkPreconditions_outcome : CheckPreconditions plan c (c.checkPreconditions plan) := by
  unfold checkPreconditions
  cases checked : c.preconditionsChecked
  · simp only [Bool.false_eq_true, ↓reduceIte]
    cases mode : modeRefusal plan { c with preconditionsChecked := true } with
    | some refusal => exact .refused checked refusal
    | none =>
      cases newer : isDowngrade plan { c with preconditionsChecked := true }
      · exact .passed checked mode newer
      · exact .refused checked .downgrade
  · simp only [↓reduceIte]
    exact .already checked

theorem staged_outcome : Staged plan c (c.staged plan) := by
  unfold staged
  cases whole : uploadOnly plan
  · cases swap : c.swapScheduled
    · exact .judged whole swap _ (inspectBoot_outcome plan c)
    have check := checkPreconditions_outcome plan c
    simp only [Bool.false_eq_true, ↓reduceIte]
    split
    · rename_i refused after found
      exact .refused whole swap refused after (found ▸ check)
    · rename_i after found
      exact .reset whole swap after (found ▸ check)
  · exact .uploaded whole

theorem nextTarget_outcome : NextTarget plan c (c.nextTarget plan) := by
  by_cases more : c.current + 1 < c.targets.length
  · simp only [nextTarget, more, ↓reduceIte]
    exact .next more
  · simp only [nextTarget, more, ↓reduceIte]
    exact .staged (Nat.le_of_not_lt more) _ (staged_outcome plan _)

theorem markOrSkip_outcome : MarkOrSkip plan c (c.markOrSkip plan) := by
  unfold markOrSkip
  cases unsettable : withoutSetState c
  · exact .mark unsettable
  · exact .skipped unsettable _ (nextTarget_outcome plan _)

theorem Resolves.refl (target : Image) : Resolves target target := .inl rfl

theorem Resolves.trans {first second third : Image} (left : Resolves first second)
    (right : Resolves second third) : Resolves first third := by
  rcases left with rfl | chosen
  · exact right
  rcases right with rfl | ⟨unknown, _⟩
  · exact .inr chosen
  · obtain ⟨_, _, _, _, _, _, rfl⟩ := chosen
    exact absurd unknown (by simp [Image.choose])

theorem forall₂_comp {α β γ : Type} {R : α → β → Prop} {S : β → γ → Prop} {T : α → γ → Prop}
    {first : List α} {second : List β} {third : List γ} (left : List.Forall₂ R first second)
    (right : List.Forall₂ S second third) (comp : ∀ a b c, R a b → S b c → T a c) : List.Forall₂ T first third := by
  induction left generalizing third with
  | nil =>
    cases right
    exact .nil
  | cons head _ ih =>
    cases right with
    | cons head' tail' => exact .cons (comp _ _ _ head head') (ih tail')

theorem forall₂_mem {α β : Type} {R : α → β → Prop} {first : List α} {second : List β}
    (related : List.Forall₂ R first second) {b : β} (member : b ∈ second) : ∃ a ∈ first, R a b := by
  induction related with
  | nil => simp at member
  | cons head _ ih =>
    rcases List.mem_cons.mp member with rfl | member
    · exact ⟨_, List.mem_cons_self, head⟩
    · obtain ⟨a, found, here⟩ := ih member
      exact ⟨a, List.mem_cons_of_mem _ found, here⟩

theorem forall₂_modify {α : Type} {R : α → α → Prop} (refl : ∀ a, R a a) (entries : List α)
    (index : Nat) (f : α → α) (entry : α) (here : entries[index]? = some entry) (related : R entry (f entry)) :
    List.Forall₂ R entries (entries.modify index f) := by
  induction entries generalizing index with
  | nil => simp
  | cons first _ ih =>
    cases index with
    | zero =>
      obtain rfl : first = entry := by simpa using here
      exact .cons related (List.forall₂_same.mpr fun _ _ => refl _)
    | succ index => exact .cons (refl first) (ih index (by simpa using here))

theorem Skipped.refl : Skipped c c :=
  ⟨rfl, List.forall₂_same.mpr fun target _ => Resolves.refl target, id⟩

theorem Skipped.trans {first second third : Context} (left : Skipped first second)
    (right : Skipped second third) : Skipped first third := by
  refine ⟨?_, forall₂_comp left.targets right.targets fun _ _ _ => Resolves.trans,
    fun swap => right.swap (left.swap swap)⟩
  rw [right.frame, left.frame]
  rfl

theorem PlanLoop.before {plan : UpdatePlan} {first second : Context} {result : Step × Context}
    (outcome : PlanLoop plan second result) (passed : Skipped first second) : PlanLoop plan first result := by
  cases outcome with
  | stopped at_ skipped => exact .stopped at_ (passed.trans skipped)
  | refused at_ skipped step after check => exact .refused at_ (passed.trans skipped) step after check
  | upload at_ skipped known after check => exact .upload at_ (passed.trans skipped) known after check
  | mark at_ skipped known whole after check images result outcome =>
    exact .mark at_ (passed.trans skipped) known whole after check images result outcome
  | staged at_ skipped result outcome => exact .staged at_ (passed.trans skipped) result outcome

theorem Skipped.write (images : List ImageReport) (current : Nat) (swap : Bool)
    (kept : c.swapScheduled = true → swap = true) :
    Skipped c { c.withImages images with current := current, swapScheduled := swap } :=
  ⟨rfl, List.forall₂_same.mpr fun target _ => Resolves.refl target, kept⟩

theorem currentKnown_of_eq {c : Context} {target : Image} (found : c.targets[c.current]? = some target)
    (known : target.Known) : CurrentKnown c := by
  intro other same
  obtain rfl : target = other := Option.some.inj (found.symm.trans same)
  exact known

theorem chooseBuild_outcome : ChooseBuild c c.chooseBuild := by
  unfold chooseBuild
  cases found : c.targets[c.current]? with
  | none => exact .resolved c (Skipped.refl c) fun target same => by simp [found] at same
  | some target =>
    cases given : target.builds with
    | none =>
      simp only [given]
      exact .resolved c (Skipped.refl c) (currentKnown_of_eq found (.inl given))
    | some builds =>
      cases known : target.chosenKnown
      · simp only [given, known, Bool.false_eq_true, ↓reduceIte]
        split
        · exact .failed _ _ rfl
        refine .resolved _ ⟨rfl, ?_, id⟩ ?_
        · apply forall₂_modify Resolves.refl c.targets c.current _ target found
          refine .inr ⟨known, builds, _, _, given, ?_, rfl⟩
          split
          · exact .inl rfl
          · exact .inr rfl
        · intro other same
          obtain ⟨_, _, rfl⟩ : ∃ first, c.targets[c.current]? = some first ∧ _ = other := by
            simpa [modifyImage, List.getElem?_modify] using same
          exact .inr rfl
      · simp only [given, known, ↓reduceIte]
        exact .resolved c (Skipped.refl c) (currentKnown_of_eq found (.inr known))

theorem startUpload_outcome (plan : UpdatePlan) (before c : Context) (skipped : Skipped before c)
    (known : CurrentKnown c) : PlanTurn plan before (c.startUpload plan) := by
  unfold startUpload
  have check := checkPreconditions_outcome plan c
  split
  · rename_i refused after found
    exact .done _ _ (.refused c skipped refused after (found ▸ check))
  · rename_i after found
    exact .done _ _ (.upload c skipped known after (found ▸ check))

theorem planTurn_outcome : PlanTurn plan c (c.planTurn plan) := by
  unfold planTurn
  have choice := chooseBuild_outcome c
  split
  · rename_i step after chosen
    rw [chosen] at choice
    cases choice with
    | failed _ _ stop =>
      have outcome : PlanLoop plan c (step, after) := stop ▸ .stopped c (Skipped.refl c)
      exact .done _ _ outcome
  · rename_i resolved chosen
    rw [chosen] at choice
    cases choice with
    | resolved _ skipped known =>
      have noted (f : ImageReport → ImageReport) : Skipped c (resolved.modifyImage resolved.current f) :=
        skipped.trans (Skipped.write resolved (resolved.report.images.modify resolved.current f) resolved.current
          resolved.swapScheduled id)
      split
      · exact .next resolved skipped
      rename_i target found
      dsimp only
      split
      · rename_i holder held
        split
        · exact .next _ (noted _)
        split
        · exact .next _ ((noted _).trans (Skipped.write _ _ _ _ fun swap => by simp [modifyImage] at swap ⊢; simp [swap]))
        split
        · split
          · exact .next _ (noted _)
          rename_i whole
          have whole : uploadOnly plan = false := by simpa using whole
          have check := checkPreconditions_outcome plan
            (resolved.modifyImage resolved.current fun image => { image with uploadSkipped := true })
          generalize checkPreconditions plan (resolved.modifyImage resolved.current
            fun image => { image with uploadSkipped := true }) = checked at check ⊢
          obtain ⟨refused | step, after⟩ := checked
          · exact .done _ _ (.mark _ (noted _) known whole after check _ _ (markOrSkip_outcome plan _))
          · exact .done _ _ (.refused _ (noted _) step after check)
        · exact startUpload_outcome plan c resolved skipped known
      · exact startUpload_outcome plan c resolved skipped known

theorem planLoop_outcome (plan : UpdatePlan) (left : Nat) (c : Context) : PlanLoop plan c (c.planLoop plan left) := by
  induction left generalizing c with
  | zero => exact .staged c (Skipped.refl c) _ (staged_outcome plan c)
  | succ left ih =>
    have turn := planTurn_outcome plan c
    unfold planLoop
    split
    · rename_i step after taken
      rw [taken] at turn
      cases turn with
      | done _ _ outcome => exact outcome
    · rename_i after taken
      rw [taken] at turn
      cases turn with
      | next _ skipped =>
        exact (ih { after with current := after.current + 1 }).before
          (skipped.trans (Skipped.write after after.report.images (after.current + 1) after.swapScheduled id))

theorem planFromState_outcome : PlanFromState plan c (c.planFromState plan) := by
  unfold planFromState
  dsimp only
  split
  · rename_i after
    simp only [Bool.and_eq_true, beq_iff_eq, Bool.not_eq_true'] at after
    exact .afterReset after.1.1 after.2 _ _ (inspectBoot_outcome plan _)
  rename_i after
  refine .loop ?_ _ (planLoop_outcome plan _ c)
  by_cases only : uploadOnly plan = true
  · exact .inl only
  by_cases first : c.current = 0
  · right; right
    intro target member
    by_contra trial
    apply after
    simp only [Bool.and_eq_true, beq_iff_eq, Bool.not_eq_true', List.any_eq_true]
    exact ⟨⟨first, target, member, by simpa using trial⟩, by simpa using only⟩
  · exact .inr (.inl first)

end Smply.Dfu
