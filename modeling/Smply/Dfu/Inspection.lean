import Smply.Dfu.Verdicts

namespace Smply.Dfu

open Context Option

def slotsOf (state : ImageState) (image : UInt32) : List ImageSlot := state.slots.filter fun slot => slot.image == image

theorem activeSlot_slotsOf (state : ImageState) (image : UInt32) :
    state.activeSlot image = (slotsOf state image).find? (·.active) := by
  unfold ImageState.activeSlot slotsOf
  rw [List.find?_filter]
  congr 1
  funext slot
  rw [Bool.eq_iff_iff]
  simp

theorem pending_slotsOf (state : ImageState) (image : UInt32) :
    (state.slots.any fun slot => slot.image == image && slot.pending) = (slotsOf state image).any (·.pending) := by
  unfold slotsOf
  rw [List.any_filter]

section
variable {β : Type} {p : ImageReport → β}

theorem map_modify_same {α : Type} (q : α → β) (entries : List α) (index : Nat) (f : α → α)
    (same : ∀ entry, q (f entry) = q entry) : (entries.modify index f).map q = entries.map q := by
  apply List.ext_getElem?
  intro place
  simp only [List.getElem?_map, List.getElem?_modify]
  split
  · cases entries[place]? with
    | none => rfl
    | some entry => exact congrArg some (same entry)
  · simp

section
variable (blind : ∀ image applied committed, p { image with applied := applied, committed := committed } = p image)
include blind

theorem awaitCommitLoop_images (c : Context) (committing : Bool) (index : Nat) (targets : List Image) :
    (c.awaitCommitLoop committing index targets).2.report.images.map p = c.report.images.map p := by
  induction targets generalizing c committing index with
  | nil =>
    unfold awaitCommitLoop
    split
    · rfl
    · rfl
  | cons target rest ih =>
    unfold awaitCommitLoop
    split
    · exact ih c committing (index + 1)
    split
    · exact (ih _ committing (index + 1)).trans (map_modify_same p _ _ _ fun image => blind image true true)
    · exact (ih _ true (index + 1)).trans (map_modify_same p _ _ _ fun image => blind image true image.committed)
    · exact map_modify_same p _ _ _ fun image => blind image false image.committed
    · exact map_modify_same p _ _ _ fun image => blind image false image.committed

theorem awaitDeviceLoop_images (plan : UpdatePlan) (c : Context) (applying : Bool) (index : Nat)
    (targets : List Image) :
    (c.awaitDeviceLoop plan applying index targets).2.report.images.map p = c.report.images.map p := by
  induction targets generalizing c applying index with
  | nil =>
    unfold awaitDeviceLoop
    split
    · rfl
    split
    · exact awaitCommitLoop_images blind c false 0 c.targets
    unfold confirmationFork
    dsimp only
    split
    · rfl
    · rfl
  | cons target rest ih =>
    unfold awaitDeviceLoop
    split
    · exact ih c applying (index + 1)
    split
    · exact (ih _ applying (index + 1)).trans (map_modify_same p _ _ _ fun image => blind image true true)
    · exact (ih _ applying (index + 1)).trans (map_modify_same p _ _ _ fun image => blind image true image.committed)
    · exact ih c true (index + 1)
    · rfl

end

end

section
variable {plan : UpdatePlan} {c : Context}

def ClientsActive (c : Context) : Prop := EachClient c.targets fun target => (activeOf c target.image).isSome = true

instance : Decidable (ClientsActive c) :=
  inferInstanceAs (Decidable (EachClient c.targets fun target => (activeOf c target.image).isSome = true))

theorem ClientsActive.any (active : ClientsActive c) :
    (c.targets.any fun target => target.commit == .client && (activeOf c target.image).isNone) = false := by
  rw [List.any_eq_false]
  intro target member inactive
  simp only [Bool.and_eq_true, beq_iff_eq, isNone_iff_eq_none] at inactive
  have some_ : (activeOf c target.image).isSome = true := active target member inactive.1
  rw [inactive.2] at some_
  cases some_

theorem notRunning_any (pending : Bool)
    (found : c.targets.any (fun target => notRunning c pending target.toTarget) = true) :
    ¬ EachClient c.targets (Running c) := by
  intro running
  obtain ⟨target, member, stopped⟩ := List.any_eq_true.mp found
  simp only [notRunning, Bool.and_eq_true, beq_iff_eq, Bool.not_eq_true'] at stopped
  have runs := running target member stopped.1.1
  unfold Running at runs
  rw [runs] at stopped
  cases stopped.1.2

theorem inspectBoot_leaves (active : ClientsActive c) :
    (c.inspectBoot plan).2.report.images.map (·.rolledBack) = c.judgedImages.map (·.rolledBack) ∧
      (c.inspectBoot plan).2.targets = c.targets.map (judge c) := by
  rw [inspectBoot_eq plan c active.any]
  dsimp only
  split
  · exact ⟨rfl, rfl⟩
  split
  · exact ⟨rfl, rfl⟩
  · exact ⟨awaitDeviceLoop_images (fun _ _ _ => rfl) plan _ false 0 _, (awaitDevice_outcome plan _).awaited.targets⟩

theorem judgedImages_get (c : Context) (index : Nat) :
    (c.judgedImages[index]?).map (·.rolledBack) = (c.report.images[index]?).map fun image =>
      image.rolledBack || (c.targets[index]?).any fun target => notRunning c false target.toTarget := by
  unfold judgedImages
  rw [writeBeside_get, map_map]
  congr 1
  funext image
  simp only [Function.comp_apply, Nat.zero_le, Nat.sub_zero, true_and]
  split
  · rename_i found
    rw [found, Bool.or_true]
    rfl
  rename_i found
  rw [Bool.not_eq_true] at found
  rw [found, Bool.or_false]

theorem verdict_slotsOf {device table : ImageState} (seen : c.device = some device) (target : Target)
    (agree : slotsOf device target.image = slotsOf table target.image) :
    notRunning { c with device := some table } false target = notRunning c false target ∧
      owesConfirm { c with device := some table } target = owesConfirm c target := by
  have active : activeOf { c with device := some table } target.image = activeOf c target.image := by
    unfold activeOf
    rw [seen, bind_some, bind_some, activeSlot_slotsOf, activeSlot_slotsOf, agree]
  have pending : anythingPending { c with device := some table } target.image = anythingPending c target.image := by
    unfold anythingPending
    rw [seen]
    dsimp only
    rw [pending_slotsOf, pending_slotsOf, agree]
  unfold notRunning owesConfirm
  rw [active, pending]
  exact ⟨rfl, rfl⟩

/-- Each verdict rests on the image's own slots, and the update waits for the device exactly when every `Client` image
runs. -/
theorem inspectBoot_verdicts (plan : UpdatePlan) (c : Context) (device : ImageState) (seen : c.device = some device)
    (active : ClientsActive c) :
    (∀ index : Nat, ((c.inspectBoot plan).2.report.images[index]?).map (·.rolledBack) =
      (c.report.images[index]?).map fun image => image.rolledBack || (c.targets[index]?).any fun target =>
        target.commit == .client && !holds (activeOf c target.image) target.toTarget &&
          !anythingPending c target.image) ∧
    (∀ table : ImageState, ClientsActive { c with device := some table } →
      ∀ (index : Nat) target, c.targets[index]? = some target → slotsOf device target.image = slotsOf table target.image →
        (((({ c with device := some table } : Context).inspectBoot plan).2.report.images[index]?).map (·.rolledBack) =
          ((c.inspectBoot plan).2.report.images[index]?).map (·.rolledBack)) ∧
        ((({ c with device := some table } : Context).inspectBoot plan).2.targets[index]?).map (·.inTrial) =
          ((c.inspectBoot plan).2.targets[index]?).map (·.inTrial)) ∧
    (EachClient c.targets (Running c) → c.inspectBoot plan =
      (c.inspected c.judgedImages (c.targets.any fun target => owesConfirm c target.toTarget)).awaitDevice plan) ∧
    (¬ EachClient c.targets (Running c) → ∃ site swap, (site = "dfu: device reverted to the old image" ∨
      site = "dfu: device did not boot the new image") ∧
      c.inspectBoot plan = (c.inspected c.judgedImages swap).failAt .updateFailed site) := by
  have rolled (c : Context) (active : ClientsActive c) (index : Nat) :
      ((c.inspectBoot plan).2.report.images[index]?).map (·.rolledBack) =
        (c.report.images[index]?).map fun image => image.rolledBack ||
          (c.targets[index]?).any fun target => notRunning c false target.toTarget := by
    rw [← List.getElem?_map, (inspectBoot_leaves active).1, List.getElem?_map, judgedImages_get]
  have owed (c : Context) (active : ClientsActive c) (index : Nat) :
      ((c.inspectBoot plan).2.targets[index]?).map (·.inTrial) =
        (c.targets[index]?).map fun target => owesConfirm c target.toTarget := by
    rw [(inspectBoot_leaves active).2, List.getElem?_map, map_map]
    rfl
  refine ⟨fun index => ?_, fun table other index target found agree => ?_, fun running => ?_, fun stopped => ?_⟩
  · rw [rolled c active]
    unfold notRunning
    simp only [beq_false]
  · obtain ⟨lost, trial⟩ := verdict_slotsOf seen target.toTarget agree
    rw [rolled _ other, rolled c active, owed _ other, owed c active]
    simp only [found, any_some, map_some, lost, trial, and_self]
  · have runs (pending : Bool) : c.targets.any (fun target => notRunning c pending target.toTarget) = false := by
      rw [Bool.eq_false_iff]
      exact fun found => notRunning_any pending found running
    rw [inspectBoot_eq plan c active.any, runs, runs]
    rfl
  · rw [inspectBoot_eq plan c active.any]
    dsimp only
    split
    · exact ⟨_, _, .inl rfl, rfl⟩
    rename_i kept
    split
    · exact ⟨_, _, .inr rfl, rfl⟩
    · rename_i booted
      exact absurd (not_reverted_clients (Bool.not_eq_true _ ▸ kept) (Bool.not_eq_true _ ▸ booted)) stopped

end

def mixedTable : ImageState := { slots := [active 0 9 true, waiting 0 1 false, active 1 2 false] }

def mixedBoot : Context :=
  { targets := [{ image := 0, hash := shortHash 1 }, { image := 1, hash := shortHash 2 }]
    device := some mixedTable
    report := { images := [{ image := 0 }, { image := 1 }] } }

theorem inspectBoot_verdicts_mixed : ClientsActive mixedBoot ∧
      ((mixedBoot.inspectBoot {}).2.report.images[0]?).map (·.rolledBack) = some true ∧
      ((mixedBoot.inspectBoot {}).2.report.images[1]?).map (·.rolledBack) = some false ∧
      ∃ site swap, (site = "dfu: device reverted to the old image" ∨ site = "dfu: device did not boot the new image") ∧
        mixedBoot.inspectBoot {} = (mixedBoot.inspected mixedBoot.judgedImages swap).failAt .updateFailed site := by
  have active : ClientsActive mixedBoot := by decide
  obtain ⟨rolled, -, -, fails⟩ := inspectBoot_verdicts {} mixedBoot mixedTable rfl active
  exact ⟨active, (rolled 0).trans (by decide), (rolled 1).trans (by decide), fails (by decide)⟩

end Smply.Dfu
