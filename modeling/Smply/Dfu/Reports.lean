import Smply.Dfu.Timers

namespace Smply.Dfu

open Context

variable {before after : Context} {m : Machine} {error : Error}

structure Describes (target : Image) (entry : ImageReport) : Prop where
  number : entry.image = target.image
  commit : entry.commit = target.commit
  hash : entry.targetHash = target.hash

def Matched (c : Context) : Prop := List.Forall₂ Describes c.targets c.report.images

def Sourced (report : UpdateReport) : Prop := report.bootloaderMode = .unknown ↔ report.modeSource = .assumed

structure Keeps (before after : Context) : Prop where
  matched : Matched before → Matched after
  sourced : Sourced before.report → Sourced after.report
  cause : after.report.cause = before.report.cause
  refusal : after.report.refusal = before.report.refusal

inductive Tells (before : Context) (result : Step × Context) : Prop
  | goes (keeps : Keeps before result.2) (open_ : result.1.next ≠ .failed)
  | fails (after : Context) (keeps : Keeps before after) (error : Error) (plain : error.code ≠ .updateRefused)
      (is : result = after.fail error)
  | refuses (after : Context) (keeps : Keeps before after) (refusal : Refusal) (site : String)
      (is : result = { after with report := { after.report with refusal := some refusal } }.failAt .updateRefused site)

theorem Keeps.refl (c : Context) : Keeps c c := ⟨id, id, rfl, rfl⟩

theorem Keeps.trans {first second third : Context} (one : Keeps first second) (two : Keeps second third) :
    Keeps first third :=
  ⟨fun matched => two.matched (one.matched matched), fun sourced => two.sourced (one.sourced sourced),
    two.cause.trans one.cause, two.refusal.trans one.refusal⟩

theorem Keeps.of_eq (targets : after.targets = before.targets)
    (report : after.report = before.report) : Keeps before after := by
  refine ⟨fun matched => ?_, fun sourced => ?_, by rw [report], by rw [report]⟩
  · unfold Matched
    rw [targets, report]
    exact matched
  · rw [report]
    exact sourced

theorem Tells.from {first second : Context} {result : Step × Context} (tells : Tells second result)
    (keeps : Keeps first second) : Tells first result := by
  cases tells with
  | goes kept open_ => exact .goes (keeps.trans kept) open_
  | fails after kept error plain is => exact .fails after (keeps.trans kept) error plain is
  | refuses after kept refusal site is => exact .refuses after (keeps.trans kept) refusal site is

theorem fail_tells (c : Context) (plain : error.code ≠ .updateRefused) : Tells c (c.fail error) :=
  .fails c (.refl c) error plain rfl

theorem failAt_tells (c : Context) {code : ErrorCode} (site : String) (plain : code ≠ .updateRefused) :
    Tells c (c.failAt code site) := fail_tells c plain

theorem forall₂_modify_both {α β : Type} {R : α → β → Prop} {first : List α} {second : List β}
    (all : List.Forall₂ R first second)
    (index : Nat) {f : α → α} {g : β → β} (keeps : ∀ x y, R x y → R (f x) (g y)) :
    List.Forall₂ R (first.modify index f) (second.modify index g) := by
  induction all generalizing index with
  | nil =>
    cases index <;> exact .nil
  | cons head tail ih =>
    cases index with
    | zero => exact .cons (keeps _ _ head) tail
    | succ index => exact .cons head (ih index)

section
variable (c : Context) (plan : UpdatePlan)

theorem modifyImage_keeps (index : Nat) {f : ImageReport → ImageReport}
    (same : ∀ entry, (f entry).image = entry.image ∧ (f entry).commit = entry.commit ∧
      (f entry).targetHash = entry.targetHash) : Keeps c (c.modifyImage index f) := by
  refine ⟨fun matched => ?_, id, rfl, rfl⟩
  have all := forall₂_modify_both matched index (f := id) (g := f) fun image entry describes => by
    obtain ⟨number, commit, hash⟩ := same entry
    exact ⟨number.trans describes.number, commit.trans describes.commit, hash.trans describes.hash⟩
  rw [List.modify_id] at all
  exact all

theorem setInTrial_keeps (index : Nat) (value : Bool) : Keeps c (c.setInTrial index value) := by
  refine ⟨fun matched => ?_, id, rfl, rfl⟩
  have all := forall₂_modify_both matched index (f := fun target => { target with inTrial := value }) (g := id)
    fun image entry describes => ⟨describes.number, describes.commit, describes.hash⟩
  rw [List.modify_id] at all
  exact all

theorem awaitCommitLoop_tells (committing : Bool) (index : Nat) (targets : List Image) :
    Tells c (c.awaitCommitLoop committing index targets) := by
  induction targets generalizing c committing index with
  | nil =>
    unfold awaitCommitLoop
    split
    · exact .goes (.refl c) (by simp)
    · exact .goes (.refl c) (by simp)
  | cons _ _ ih =>
    unfold awaitCommitLoop
    split
    · exact ih c committing (index + 1)
    split
    · exact (ih _ committing (index + 1)).from (modifyImage_keeps c index fun _ => ⟨rfl, rfl, rfl⟩)
    · exact (ih _ true (index + 1)).from (modifyImage_keeps c index fun _ => ⟨rfl, rfl, rfl⟩)
    · exact (failAt_tells _ _ (by decide)).from (modifyImage_keeps c index fun _ => ⟨rfl, rfl, rfl⟩)
    · exact (failAt_tells _ _ (by decide)).from (modifyImage_keeps c index fun _ => ⟨rfl, rfl, rfl⟩)

theorem awaitDeviceLoop_tells (applying : Bool) (index : Nat) (targets : List Image) :
    Tells c (c.awaitDeviceLoop plan applying index targets) := by
  induction targets generalizing c applying index with
  | nil =>
    unfold awaitDeviceLoop
    split
    · exact .goes (.refl c) (by simp)
    split
    · exact awaitCommitLoop_tells c false 0 c.targets
    unfold confirmationFork
    dsimp only
    split
    · exact .goes (.of_eq rfl rfl) (by simp)
    · exact .goes (.of_eq rfl rfl) (by simp)
  | cons _ _ ih =>
    unfold awaitDeviceLoop
    split
    · exact ih c applying (index + 1)
    split
    · exact (ih _ applying (index + 1)).from (modifyImage_keeps c index fun _ => ⟨rfl, rfl, rfl⟩)
    · exact (ih _ applying (index + 1)).from (modifyImage_keeps c index fun _ => ⟨rfl, rfl, rfl⟩)
    · exact ih c true (index + 1)
    · exact failAt_tells c _ (by decide)

theorem bootLoop_keeps (reverted notBooted : Bool) (index : Nat) (targets : List Image) :
    Keeps c (c.bootLoop reverted notBooted index targets).1 := by
  induction targets generalizing c reverted notBooted index with
  | nil => exact .refl c
  | cons _ _ ih =>
    have first := setInTrial_keeps c index false
    unfold bootLoop
    dsimp only
    split
    · exact first.trans (ih _ reverted notBooted (index + 1))
    split
    · split
      · exact first.trans (ih _ reverted true (index + 1))
      · refine (first.trans ?_).trans (ih _ true notBooted (index + 1))
        exact modifyImage_keeps _ index fun _ => ⟨rfl, rfl, rfl⟩
    · exact (first.trans (setInTrial_keeps _ index _)).trans (ih _ reverted notBooted (index + 1))

theorem inspectBoot_tells : Tells c (c.inspectBoot plan) := by
  unfold inspectBoot
  split
  · exact failAt_tells c _ (by decide)
  dsimp only
  have keeps := bootLoop_keeps c false false 0 c.targets
  generalize c.bootLoop false false 0 c.targets = looped at keeps
  obtain ⟨after, reverted, notBooted⟩ := looped
  dsimp only
  split
  · exact (failAt_tells _ _ (by decide)).from (keeps.trans (.of_eq rfl rfl))
  split
  · exact (failAt_tells _ _ (by decide)).from (keeps.trans (.of_eq rfl rfl))
  · exact (awaitDeviceLoop_tells _ plan false 0 _).from (keeps.trans (.of_eq rfl rfl))

theorem recordMode_sourced (mode : McubootMode) (report : UpdateReport) : Sourced (recordMode mode plan report) := by
  unfold recordMode
  split
  · simp_all [Sourced]
  split
  · split <;> simp_all [Sourced]
  · simp [Sourced]

theorem recordMode_keeps (mode : McubootMode) (noDowngrade : Bool) :
    Keeps c { c with report := recordMode mode plan c.report, noDowngrade := noDowngrade } := by
  refine ⟨fun matched => ?_, fun _ => recordMode_sourced plan mode c.report, recordMode_cause _ _, ?_⟩
  · have same : (recordMode mode plan c.report).images = c.report.images := by
      unfold recordMode
      split <;> first | rfl | (split <;> first | rfl | (split <;> rfl))
    unfold Matched
    rw [same]
    exact matched
  · unfold recordMode
    split <;> first | rfl | (split <;> first | rfl | (split <;> rfl))

theorem Writes.keeps (writes : Writes before after) : Keeps before after := by
  cases writes with
  | aside targets report => exact .of_eq targets report
  | notes _ same =>
    refine ⟨fun matched => ?_, id, rfl, rfl⟩
    exact forall₂_comp matched same fun _ _ _ describes note =>
      ⟨note.number.trans describes.number, note.commit.trans describes.commit, note.hash.trans describes.hash⟩
  | trial index value => exact setInTrial_keeps before index value
  | build =>
    -- The one place where a target's hash changes: its entry is given the same one.
    refine ⟨fun matched => ?_, id, rfl, rfl⟩
    exact forall₂_modify_both matched before.current fun _ _ describes => ⟨describes.number, describes.commit, rfl⟩
  | mode mode plan noDowngrade => exact recordMode_keeps before plan mode noDowngrade
  | owed => exact ⟨id, id, rfl, rfl⟩

theorem Written.keeps (written : Written before after) : Keeps before after := by
  induction written with
  | refl => exact .refl before
  | tail _ last ih => exact ih.trans last.keeps

variable {c plan} in
theorem Leads.tells {result : Step × Context} (leads : Leads (·.code ≠ .updateRefused) plan c result) :
    Tells c result := by
  cases leads with
  | goes _ _ written open_ => exact .goes written.keeps open_
  | fails at_ written error plain => exact .fails at_ written.keeps error plain rfl
  | refuses at_ written refusal => exact .refuses at_ written.keeps refusal _ rfl
  | boot at_ written => exact (inspectBoot_tells at_ plan).from written.keeps
  | device at_ written => exact (awaitDeviceLoop_tells at_ plan false 0 _).from written.keeps
  | commit at_ written => exact (awaitCommitLoop_tells at_ false 0 _).from written.keeps

end

theorem decided_tells {event : Event} (sane : Sane m) (live : m.state ≠ .failed)
    (plain : event.error.code ≠ .updateRefused) : Tells m.context (m.decided event) := by
  rw [decided_eq sane]
  unfold Machine.guardedDecide
  dsimp only
  split
  · exact (decide_leads (fun _ _ _ other => other) m.context m.state event live plain
      fun _ _ => show ErrorCode.internal ≠ .updateRefused from nofun).tells
  · exact failAt_tells m.context _ (by decide)

theorem finishReport_images (c : Context) (step : Step) : (c.summarise.finishReport step).images = c.report.images ∧
    (c.summarise.finishReport step).modeSource = c.report.modeSource := by
  obtain ⟨_, _, _, _, same⟩ := summarise_eq c.report
  unfold finishReport
  split <;> simp only [summarise, same, and_self]

structure Truthful (m : Machine) : Prop where
  cause : m.report.cause ≠ none ↔ m.state = .failed
  refusal : m.report.refusal ≠ none ↔ ∃ error, m.report.cause = some error ∧ error.code = .updateRefused
  sourced : Sourced m.report
  matched : Matched m.context

theorem Truthful.quiet (truthful : Truthful m) (live : m.state ≠ .failed) :
    m.report.cause = none ∧ m.report.refusal = none := by
  have cause : m.report.cause = none := by
    by_contra set_
    exact live (truthful.cause.mp set_)
  refine ⟨cause, ?_⟩
  by_contra set_
  obtain ⟨error, blamed, _⟩ := truthful.refusal.mp set_
  rw [cause] at blamed
  cases blamed

theorem Truthful.step {event : Event} (truthful : Truthful m) (sane : Sane m)
    (plain : event.error.code ≠ .updateRefused) : Truthful (m.apply event).2 := by
  obtain ⟨images, source⟩ := finishReport_images (m.decided event).2 (m.decided event).1
  rw [← apply_report] at images source
  have mode : (m.apply event).2.report.bootloaderMode = (m.decided event).2.report.bootloaderMode :=
    apply_bootloaderMode m event
  have refusal : (m.apply event).2.report.refusal = (m.decided event).2.report.refusal := apply_refusal m event
  -- What is left to show is about the decision alone.
  suffices decided : ((m.decided event).2.report.cause ≠ none ↔ (m.decided event).1.next = .failed) ∧
      ((m.decided event).2.report.refusal ≠ none ↔
        ∃ error, (m.decided event).2.report.cause = some error ∧ error.code = .updateRefused) ∧
      Sourced (m.decided event).2.report ∧ Matched (m.decided event).2 by
    refine ⟨?_, ?_, ?_, ?_⟩
    · rw [apply_cause, apply_state]
      exact decided.1
    · rw [refusal, apply_cause]
      exact decided.2.1
    · unfold Sourced
      rw [mode, source]
      exact decided.2.2.1
    · unfold Matched
      rw [apply_targets]
      change (m.apply event).2.context.report.images = _ at images
      rw [images]
      exact decided.2.2.2
  by_cases failed : m.state = .failed
  · rw [decided_halted (by rw [failed]; rfl) event]
    exact ⟨truthful.cause, truthful.refusal, truthful.sourced, truthful.matched⟩
  obtain ⟨blameless, unrefused⟩ := truthful.quiet failed
  cases decided_tells sane failed plain with
  | goes keeps open_ =>
    have cause := keeps.cause.trans blameless
    have refusal := keeps.refusal.trans unrefused
    exact ⟨by simp [cause, open_], by simp [cause, refusal], keeps.sourced truthful.sourced,
      keeps.matched truthful.matched⟩
  | fails after keeps _ plain is =>
    rw [is]
    have refusal := keeps.refusal.trans unrefused
    exact ⟨by simp [fail], by simp [refusal, fail, plain], keeps.sourced truthful.sourced,
      keeps.matched truthful.matched⟩
  | refuses _ keeps _ _ is =>
    rw [is]
    exact ⟨by simp [failAt, fail], by simp [failAt, fail, Error.at],
      keeps.sourced truthful.sourced, keeps.matched truthful.matched⟩

theorem new_truthful (targets : List Target) (plan : UpdatePlan) : Truthful (.new targets plan) := by
  refine ⟨by simp [Machine.new, Machine.report], by simp [Machine.new, Machine.report],
    by simp [Sourced, Machine.new, Machine.report], ?_⟩
  refine List.forall₂_map_left_iff.mpr (List.forall₂_map_right_iff.mpr (List.forall₂_same.mpr fun target _ => ?_))
  exact ⟨rfl, rfl, rfl⟩

structure Sums (report : UpdateReport) : Prop where
  bytesTransferred : report.bytesTransferred = (report.images.map (·.bytesTransferred)).sum
  uploadSkipped : report.uploadSkipped = report.images.all (·.uploadSkipped)
  rolledBack : report.rolledBack = report.images.any (·.rolledBack)
  uploadSlot : ∃ first, report.images.head? = some first ∧ report.uploadSlot = first.uploadSlot

theorem Summed.sums {report : UpdateReport} (summed : Summed report) (some_ : report.images ≠ []) : Sums report := by
  unfold Summed UpdateReport.summarise at summed
  obtain ⟨first, rest, images⟩ := List.exists_cons_of_ne_nil some_
  rw [images] at summed
  simp only at summed
  refine ⟨?_, ?_, ?_, first, by rw [images]; rfl, ?_⟩
  · rw [← summed, List.sum_eq_foldl, List.foldl_map]
  · rw [← summed]
  · rw [← summed]
  · rw [← summed]

structure Accounts (targets : List Target) (m : Machine) : Prop where
  cause : m.report.cause ≠ none ↔ m.state = .failed
  refusal : m.report.refusal ≠ none ↔ ∃ error, m.report.cause = some error ∧ error.code = .updateRefused
  mode : m.report.bootloaderMode = .unknown ↔ m.report.modeSource = .assumed
  images : List.Forall₂ (fun target entry => entry.image = target.image ∧ entry.commit = target.commit)
    targets m.report.images
  hashes : List.Forall₂ (fun image entry => entry.targetHash = image.hash) m.context.targets m.report.images
  sums : Sums m.report

theorem run_truthful {targets : List Target} (plan : UpdatePlan) {events : List Event} (some_ : targets ≠ [])
    (plain : ∀ event ∈ events, event.error.code ≠ .updateRefused) : Truthful (runMachine targets plan events) := by
  induction events using List.reverseRecOn with
  | nil => exact new_truthful targets plan
  | append_singleton events event ih =>
    have before := ih fun other member => plain other (List.mem_append_left _ member)
    rw [runMachine, Systems.run_concat]
    exact before.step (run_sane plan some_ events) (plain event (by simp))

theorem Truthful.accounts {targets : List Target} (truthful : Truthful m) (some_ : targets ≠ [])
    (real : List.Forall₂ Realises targets m.context.targets) (summed : Summed m.report) : Accounts targets m := by
  have images := forall₂_comp real truthful.matched (T := fun target (entry : ImageReport) =>
    entry.image = target.image ∧ entry.commit = target.commit)
    fun target image entry realises describes =>
      ⟨describes.number.trans realises.1, describes.commit.trans realises.2.1⟩
  refine ⟨truthful.cause, truthful.refusal, truthful.sourced, images,
    truthful.matched.imp fun _ _ describes => describes.hash, summed.sums fun none_ => some_ ?_⟩
  have same := images.length_eq
  change m.context.report.images = [] at none_
  rw [none_] at same
  exact List.length_eq_zero_iff.mp same

theorem halted_stays (punctual : Punctual m) (summed : Summed m.context.report)
    (halted : isTerminal m.state = true) (later : List Event) :
    Systems.run Machine.apply m later = m ∧ ∀ t ∈ Systems.log Machine.apply m later, t.output.effect = .none := by
  have still (event : Event) : m.apply event = ({ next := m.state, effect := .none }, m) :=
    apply_unchanged punctual summed (decided_halted halted event)
  induction later with
  | nil => exact ⟨rfl, by simp [Systems.log]⟩
  | cons event rest ih =>
    constructor
    · change Systems.run Machine.apply (m.apply event).2 rest = m
      rw [still event]
      exact ih.1
    intro t member
    rcases List.mem_cons.mp member with rfl | member
    · exact congrArg (fun result => result.1.effect) (still event)
    · rw [still event] at member
      exact ih.2 t member

/-- At every step of an update the report is consistent, and once the update is over nothing changes any more. -/
theorem report_accounts (targets : List Target) (plan : UpdatePlan) (events : List Event) (some_ : targets ≠ [])
    (plain : ∀ event ∈ events, event.error.code ≠ .updateRefused) :
    ∀ past later, events = past ++ later → Accounts targets (runMachine targets plan past) ∧
      (isTerminal (runMachine targets plan past).state = true →
        runMachine targets plan events = runMachine targets plan past ∧
        ∀ t ∈ Systems.log Machine.apply (runMachine targets plan past) later, t.output.effect = .none) := by
  rintro past later rfl
  have summed := run_summed targets plan past
  refine ⟨?_, fun halted => ?_⟩
  · have truthful := run_truthful plan some_ fun event member => plain event (List.mem_append_left later member)
    exact truthful.accounts some_ (run_targets targets plan past) summed
  · rw [runMachine, Systems.run_append]
    exact halted_stays (run_punctual targets plan past) summed halted later

theorem report_accounts_unapplied :
    (runMachine package {} unappliedRun).state = .failed ∧ (runMachine package {} unappliedRun).report.cause ≠ none ∧
      runMachine package {} (unappliedRun ++ [{ kind := .cancel }]) = runMachine package {} unappliedRun := by
  obtain ⟨accounts, stays⟩ := report_accounts package {} (unappliedRun ++ [{ kind := .cancel }]) (by decide)
    (by decide +kernel) unappliedRun [{ kind := .cancel }] rfl
  have failed : (runMachine package {} unappliedRun).state = .failed := by decide +kernel
  exact ⟨failed, accounts.cause.mpr failed, (stays (by rw [failed]; rfl)).1⟩

end Smply.Dfu
