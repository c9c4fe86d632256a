import Smply.Dfu.Phases

namespace Smply.Dfu

open Boot BootModel List Scenario World Status

variable {place : Nat} {update : Update} {c : Context}

section
variable {s : Scenario} {w : World} {choice : Choice} {status : Nat → Status} {content : Nat → Bytes}

theorem turn_parameters (stands : s.Stands w status content) (plans : s.Plans status 0 w.machine.context)
    (waits : ∀ update ∈ s.updates, status update.place = .waiting) (on : w.On .queryingParameters .queryParameters) :
    ∃ left < 5 * s.updates.length + 2 * s.total status + 30, s.Within left (s.turn w choice) := by
  cases size : choice.bufSize with
  | none =>
    have answer : s.answer w choice = some ({ kind := .parametersUnavailable }, s.device.after status content) := by
      unfold answer
      rw [on.effect, ← stands.device]
      simp only [size]
    have decision : w.machine.decided { kind := .parametersUnavailable, now := choice.now } =
        ({ next := .queryingBootloader, effect := .queryBootloader }, w.machine.context) :=
      stands.decided nofun (by rw [on.state]; rfl)
    rw [turn_eq answer]
    exact ⟨_, by omega, status, content, stands.feed _ stands.tracks,
      .bootloader (Plans.feed decision plans) waits (feed_on decision)⟩
  | some size_ =>
    have answer : s.answer w choice =
        some ({ kind := .parametersRead, bufSize := size_ }, s.device.after status content) := by
      unfold answer
      rw [on.effect, ← stands.device]
      simp only [size]
    have decision : w.machine.decided { kind := .parametersRead, bufSize := size_, now := choice.now } =
        ({ next := .queryingBootloader, effect := .queryBootloader }, { w.machine.context with bufSize := size_ }) :=
      stands.decided nofun (by rw [on.state]; rfl)
    rw [turn_eq answer]
    exact ⟨_, by omega, status, content, stands.feed _ stands.tracks,
      .bootloader (Plans.feed decision { plans with }) waits (feed_on decision)⟩

theorem recordMode_swaps {plan : UpdatePlan} {reported : McubootMode} (report : UpdateReport)
    (swapping : swaps reported = true)
    (fallback : reported = .unknown → ∀ mode ∈ plan.fallbackMode, swaps mode = true) :
    swaps (recordMode reported plan report).bootloaderMode = true := by
  unfold recordMode
  split
  · exact swapping
  rename_i unknown
  split
  · rename_i mode given
    split
    · exact fallback (not_not.mp unknown) mode given
    · rfl
  · rfl

section
variable (valid : s.Valid) (stands : s.Stands w status content) (plans : s.Plans status 0 w.machine.context)
  (waits : ∀ update ∈ s.updates, status update.place = .waiting)
include valid stands plans waits

theorem turn_bootloader (on : w.On .queryingBootloader .queryBootloader) :
    ∃ left < 5 * s.updates.length + 2 * s.total status + 29, s.Within left (s.turn w choice) := by
  cases given : s.bootloader with
  | none =>
    have answer : s.answer w choice =
        some ({ kind := .failed, error := { code := .protocolError } }, s.device.after status content) := by
      unfold answer
      rw [on.effect, ← stands.device]
      simp only [given]
    have decision : w.machine.decided { kind := .failed, error := { code := .protocolError }, now := choice.now } =
        ({ next := .inspectingImages, effect := .readState },
          { w.machine.context with report := recordMode .unknown s.plan w.machine.context.report }) :=
      stands.decided nofun (by rw [on.state]; rfl)
    rw [turn_eq answer]
    exact ⟨_, by omega, status, content, stands.feed _ stands.tracks,
      .inspecting (Plans.feed decision
        { plans with mode := recordMode_swaps w.machine.context.report rfl fun _ => valid.fallback (by simp [given]) }) waits
        (feed_on decision)⟩
  | some info =>
    obtain ⟨swapping, newer⟩ := valid.reports info given
    have fallback (unknown : info.mode = .unknown) := valid.fallback fun other same => by
      rw [Option.some.inj (same.symm.trans given), unknown]
    have answer : s.answer w choice =
        some ({ kind := .bootloaderRead, bootloader := info }, s.device.after status content) := by
      unfold answer
      rw [on.effect, ← stands.device]
      simp only [given]
    have decision : w.machine.decided { kind := .bootloaderRead, bootloader := info, now := choice.now } =
        ({ next := .inspectingImages, effect := .readState },
          { w.machine.context with
            report := recordMode info.mode s.plan w.machine.context.report
            noDowngrade := info.noDowngrade }) :=
      stands.decided nofun (by rw [on.state]; rfl)
    rw [turn_eq answer]
    exact ⟨_, by omega, status, content, stands.feed _ stands.tracks,
      .inspecting (Plans.feed decision
        { plans with mode := recordMode_swaps w.machine.context.report swapping fallback, newer := newer }) waits
        (feed_on decision)⟩

theorem turn_inspecting (on : w.On .inspectingImages .readState) :
    ∃ left < 5 * s.updates.length + 2 * s.total status + 28, s.Within left (s.turn w choice) := by
  have less := s.total_read status
  have inside := length_pos_iff.mpr valid.some_
  rw [turn_eq (stands.answer_read on.effect)]
  generalize table : tableOf (s.device.after (s.device.read status) content).listing = told
  have decision : w.machine.decided { kind := .stateRead, state := some told, now := choice.now } =
      ({ next := .planning, effect := .continue }, { w.machine.context with device := some told }) :=
    stands.decided (fun _ => rfl) (by rw [on.state]; rfl)
  exact ⟨_, by omega, _, content, stands.feed _ stands.tracks.read,
    .planning (Plans.feed decision { plans.read with }) inside
      (fun update found => (read_eq_iff _ (.inl rfl)).mpr (waits update (mem_of_getElem? found)))
      (Told.feed decision (by rw [Told, table])) (feed_on decision)⟩

end

theorem after_loaded {base : BootModel} {image : Nat} {origin : ImagePair} (here : base.images[image]? = some origin)
    (waiting : status image = .waiting) :
    base.after (Function.update status image .loaded) (Function.update content image origin.secondary) =
      base.after status content := by
  refine after_eq _ fun other => ?_
  show (base.after (Function.update status image .loaded) (Function.update content image origin.secondary)).images[other]? = _
  rw [images_after]
  by_cases same : other = image
  · subst same
    rw [here, Function.update_self, Function.update_self, waiting]
    rfl
  · rw [Function.update_of_ne same, Function.update_of_ne same]

theorem Scenario.total_move {next : Status}
    (same : next.left (s.device.howOf update.place) ≤ (status update.place).left (s.device.howOf update.place)) :
    s.total (Function.update status update.place next) ≤ s.total status :=
  total_le fun other _ => by
    by_cases here : other.place = update.place
    · rw [here, Function.update_self]
      exact same
    · rw [Function.update_of_ne here]

section
variable {place : Nat} {update : Update} {c : Context}

theorem Scenario.Valid.apart (valid : s.Valid) (found : s.updates[place]? = some update) {index : Nat} {other : Update}
    (elsewhere : index ≠ place) (here : s.updates[index]? = some other) : other.place ≠ update.place := by
  intro same
  obtain rfl := valid.same_place (mem_of_getElem? here) (mem_of_getElem? found) same
  have one := List.getElem?_eq_some_iff.mp here
  have two := List.getElem?_eq_some_iff.mp found
  have nodup := Nodup.of_map _ valid.images
  exact elsewhere (nodup.getElem_inj_iff.mp (one.2.trans two.2.symm))

section
variable (plans : s.Plans status place c) (valid : s.Valid) (found : s.updates[place]? = some update)
include plans valid found

theorem Scenario.Plans.loads (waits : status update.place = .waiting) :
    s.Plans (Function.update status update.place .loaded) place c := by
  refine ⟨plans.toFixed, plans.current, fun index below other here => ?_, fun index above other here => ?_, ?_⟩
  · rw [Function.update_of_ne (valid.apart found (Nat.ne_of_lt below) here)]
    exact plans.before index below other here
  · rw [Function.update_of_ne (valid.apart found (Nat.ne_of_gt above) here)]
    exact plans.beyond index above other here
  · rw [plans.swap]
    constructor
    · rintro ⟨other, listed, marked⟩
      refine ⟨other, listed, ?_⟩
      rw [Function.update_of_ne]
      · exact marked
      intro same
      rw [same, waits] at marked
      cases marked
    · rintro ⟨other, listed, marked⟩
      refine ⟨other, listed, ?_⟩
      rw [Function.update_of_ne] at marked
      · exact marked
      intro same
      rw [same, Function.update_self] at marked
      cases marked

theorem Scenario.Plans.marks (event : Event) : s.Plans (Function.update status update.place .marked) (place + 1)
      { c.withTable event with swapScheduled := true, current := c.current + 1, markRetried := false } := by
  refine ⟨⟨plans.targets, plans.mode, plans.newer⟩, congrArg (· + 1) plans.current, fun index below other here => ?_,
    fun index above other here => ?_, ⟨fun _ => ⟨update, mem_of_getElem? found, Function.update_self ..⟩, fun _ => rfl⟩⟩
  · by_cases same : index = place
    · subst same
      obtain rfl := Option.some.inj (found.symm.trans here)
      exact .inr (Function.update_self ..)
    · rw [Function.update_of_ne (valid.apart found same here)]
      exact plans.before index (by omega) other here
  · rw [Function.update_of_ne (valid.apart found (by omega) here)]
    exact plans.beyond index (by omega) other here

end

end

theorem Scenario.Ready.live (ready : s.Ready status) (none_ : ∀ update ∈ s.updates, status update.place ≠ .marked) :
    s.Live status := by
  have each (update : Update) (member : update ∈ s.updates) : status update.place = .waiting ∧ s.Kept update := by
    rcases ready update member with kept | marked
    · exact kept
    · exact absurd marked (none_ update member)
  refine ⟨fun update member _ => (each update member).2, fun update member => ?_, fun update member _ settles => ?_⟩
  · rw [(each update member).1]
    simp
  · rw [(each update member).1] at settles
    cases settles

theorem Scenario.Stages.within {event : Event} {result : Step × Context}
    {before : Nat → Status} {held : Nat → Bytes} (stages : s.Stages status content place result)
    (decision : w.machine.decided event = result) (valid : s.Valid) (stands : s.Stands w before held)
    (tracks : s.Tracks status content) : ∃ left < 5 * (s.updates.length - place) + 2 * s.total status + 27,
      s.Within left (w.feed event (s.device.after status content)) := by
  have on := @World.feed_on w event (s.device.after status content) result decision
  cases stages with
  | @upload place_ update c later found waits stopped plans =>
    obtain ⟨target, here, same⟩ := plans.target found
    rw [← plans.current] at here
    obtain ⟨number, image⟩ := @apply_upload w.machine event target (by rw [decision]) (by rw [decision]; exact here)
    rw [decision] at number
    refine ⟨_, ?_, status, content, stands.feed _ tracks, .uploading (Plans.feed decision plans) found waits
      stopped on (number.trans plans.current) (image.trans (congrArg Target.image same))⟩
    omega
  | @mark place_ update c later found waits stopped holder plans =>
    have member := mem_of_getElem? found
    have present := (valid.each update member).present
    obtain ⟨target, here, same⟩ := plans.target found
    rw [← plans.current] at here
    have hash := @apply_hash w.machine event target (by rw [decision]; exact .inl rfl) (by rw [decision]; exact here)
    have delivered : s.Delivered update (s.origin update).secondary := ⟨holder, stopped, .inr rfl⟩
    have less : s.total (Function.update status update.place .loaded) ≤ s.total status :=
      total_move (by rw [waits]; exact Nat.le_refl _)
    rw [← @after_loaded status content s.device update.place (s.origin update) present waits]
    refine ⟨_, ?_, _, _, stands.feed _ (tracks.move valid member delivered rfl),
      .marking (Plans.feed decision (plans.loads valid found waits)) found (Function.update_self ..)
        (feed_on decision) (hash.trans (congrArg Target.hash same))⟩
    omega
  | reset ready fixed =>
    exact ⟨_, by omega, status, content, stands.feed _ tracks, .resetting (fixed.feed decision) ready on⟩
  | judged ready fixed told none_ =>
    have live := ready.live none_
    obtain ⟨left, bound, within⟩ := (inspectBoot_judges valid live tracks fixed told).within decision stands
      tracks live
    exact ⟨left, by omega, within⟩

section
variable (valid : s.Valid) (stands : s.Stands w status content) (plans : s.Plans status place w.machine.context)
include valid stands plans

theorem turn_planning (inside : place < s.updates.length)
    (waits : ∀ update, s.updates[place]? = some update → status update.place = .waiting)
    (told : s.Told status content w.machine.context) (on : w.On .planning .continue) :
    ∃ left < 5 * (s.updates.length - place) + 2 * s.total status + 27, s.Within left (s.turn w choice) := by
  have answer : s.answer w choice = some ({ kind := .continue }, s.device.after status content) := by
    unfold answer
    rw [on.effect, ← stands.device]
  have decision : w.machine.decided { kind := .continue, now := choice.now } = w.machine.context.planFromState s.plan :=
    stands.decided nofun (by rw [on.state]; rfl)
  rw [turn_eq answer]
  exact (planFromState_stages valid told plans inside waits).within decision valid stands stands.tracks

section
variable (found : s.updates[place]? = some update)
include found

theorem turn_uploading (waits : status update.place = .waiting) (stopped : carries
    (s.origin update).primary update.target.hash = false)
    (on : w.On .uploading .startUpload) (target : w.last.target = place) (image : w.last.image = update.target.image) :
    ∃ left < 5 * (s.updates.length - place) + 2 * s.total status + 26, s.Within left (s.turn w choice) := by
  have member := mem_of_getElem? found
  have present := (valid.each update member).present
  have answer : s.answer w choice =
      some ({ kind := .uploadFinished, transferred := choice.transferred, alreadyPresent := choice.alreadyPresent },
        s.device.after (Function.update status update.place .loaded) (Function.update content update.place update.file)) := by
    have received := @receive_after s.device status content update.place (s.origin update) valid.behaviour present waits
      update.file
    unfold answer
    rw [on.effect, stands.device, target, image, found, Option.bind_some]
    exact received ▸ rfl
  obtain ⟨images, decision⟩ : ∃ images, w.machine.decided
      { kind := .uploadFinished, transferred := choice.transferred, alreadyPresent := choice.alreadyPresent
        now := choice.now } = ({ next := .verifyingUpload, effect := .readState },
          { w.machine.context.withImages images with uploadInProgress := false }) := by
    refine ⟨w.machine.context.report.images.modify w.machine.context.current fun image =>
      { image with
        bytesTransferred := choice.transferred
        uploadSkipped := image.uploadSkipped || choice.alreadyPresent }, stands.decided nofun ?_⟩
    rw [on.state]
    exact if_neg (by rw [valid.stages]; exact Bool.false_ne_true)
  have delivered : s.Delivered update update.file := ⟨(valid.each update member).reported, stopped, .inl rfl⟩
  have less : s.total (Function.update status update.place .loaded) ≤ s.total status :=
    total_move (by rw [waits]; exact Nat.le_refl _)
  rw [turn_eq answer]
  exact ⟨_, by omega, _, _, stands.feed _ (stands.tracks.move valid member delivered rfl),
    .verifyingUpload (Plans.feed decision { plans.loads valid found waits with }) found (Function.update_self ..)
      (feed_on decision)⟩

theorem turn_verifyingUpload (loaded : status update.place = .loaded) (on : w.On .verifyingUpload .readState) :
    ∃ left < 5 * (s.updates.length - place) + 2 * s.total status + 25, s.Within left (s.turn w choice) := by
  have less := s.total_read status
  have still : s.device.read status update.place = .loaded := (read_eq_iff _ (.inr (.inl rfl))).mpr loaded
  obtain ⟨target, here, same⟩ := plans.target found
  rw [← plans.current] at here
  rw [turn_eq (stands.answer_read on.effect)]
  generalize table : tableOf (s.device.after (s.device.read status) content).listing = told
  have listed : s.Told (s.device.read status) content (w.machine.context.withTable { kind := .stateRead, state := some told }) := by
    rw [Told, table]
    rfl
  obtain ⟨images, verified⟩ := uploadVerified_marks s.plan valid stands.tracks.read (plans.read.withTable _) listed
    found still
  have decision : w.machine.decided { kind := .stateRead, state := some told, now := choice.now } =
      ({ next := .markingForTest, effect := .markForTest },
        (w.machine.context.withTable { kind := .stateRead, state := some told }).withImages images) :=
    stands.decided (fun _ => rfl) (by rw [on.state]; exact verified)
  have hash := @apply_hash w.machine { kind := .stateRead, state := some told, now := choice.now } target
    (by rw [decision]; exact .inl rfl) (by rw [decision]; exact here)
  exact ⟨_, by omega, _, content, stands.feed _ stands.tracks.read,
    .marking (Plans.feed decision { plans.read with }) found still (feed_on decision)
      (hash.trans (congrArg Target.hash same))⟩

theorem turn_marking (loaded : status update.place = .loaded) (on : w.On .markingForTest .markForTest)
    (hash : w.last.hash = update.target.hash) :
    ∃ left < 5 * (s.updates.length - place) + 2 * s.total status + 24, s.Within left (s.turn w choice) := by
  have member := List.mem_of_getElem? found
  have inside := (List.getElem?_eq_some_iff.mp found).1
  have present := (valid.each update member).present
  have idle := valid.idle _ (mem_of_getElem? present)
  have delivered := stands.tracks.delivered update member (by rw [loaded]; simp)
  have marked := setState_mark valid.behaviour present idle loaded (stands.tracks.alone valid member) delivered.stopped
    delivered.carried
  have tracks : s.Tracks (Function.update status update.place .marked)
      (Function.update content update.place (content update.place)) := stands.tracks.move valid member delivered rfl
  rw [Function.update_eq_self] at tracks
  have less : s.total (Function.update status update.place .marked) ≤ s.total status :=
    total_move (by rw [loaded]; exact Nat.le_refl _)
  have answer : s.answer w choice = some
      ({ kind := .markedForTest
         state := some (tableOf (s.device.after (Function.update status update.place .marked) content).listing) },
        s.device.after (Function.update status update.place .marked) content) := by
    unfold answer
    rw [on.effect]
    simp only [World.setState, stands.device, hash, marked, ↓reduceIte]
  rw [turn_eq answer]
  generalize table : tableOf (s.device.after (Function.update status update.place .marked) content).listing = told
  have next := plans.marks valid found { kind := .markedForTest, state := some told }
  have listed : s.Told (Function.update status update.place .marked) content
      { w.machine.context.withTable { kind := .markedForTest, state := some told } with
        swapScheduled := true, current := w.machine.context.current + 1, markRetried := false } := by
    rw [Told, table]
    rfl
  have decision : w.machine.decided { kind := .markedForTest, state := some told, now := choice.now } =
      ({ w.machine.context.withTable { kind := .markedForTest, state := some told } with
        swapScheduled := true } : Context).nextTarget s.plan :=
    stands.decided (fun _ => rfl) (by rw [on.state]; rfl)
  unfold Context.nextTarget at decision
  by_cases more : place + 1 < s.updates.length
  · rw [if_pos (by rw [← next.current, ← next.length] at more; exact more)] at decision
    exact ⟨_, by omega, _, content, stands.feed _ tracks,
      .planning (next.feed decision) more
        (fun other here => by
          rw [Function.update_of_ne (valid.apart found (by omega) here)]
          exact plans.beyond _ (by omega) other here)
        (listed.feed decision) (feed_on decision)⟩
  · rw [if_neg (by rw [← next.current, ← next.length] at more; exact more)] at decision
    have last : place + 1 = s.updates.length := by omega
    rw [last] at next
    obtain ⟨left, bound, within⟩ := (next.staged valid listed s.updates.length).within decision valid stands tracks
    exact ⟨left, by omega, within⟩

end

end

theorem turn_resetting (valid : s.Valid) (stands : s.Stands w status content) (fixed : s.Fixed w.machine.context)
    (ready : s.Ready status) (on : w.On .resetting .reset) :
    ∃ left < 2 * s.total status + 23, s.Within left (s.turn w choice) := by
  have answer : s.answer w choice = some ({ kind := .resetAccepted },
      s.device.after (fun image => (status image).boot (s.device.howOf image)) content) := by
    unfold answer
    rw [on.effect, stands.device, ← reboot_after stands.tracks.steady valid.behaviour valid.downgrades]
  have decision : w.machine.decided { kind := .resetAccepted, now := choice.now } =
      ({ next := .awaitingDisconnect, effect := .awaitDisconnect }, w.machine.context) :=
    stands.decided nofun (by rw [on.state]; rfl)
  have less : s.total (fun image => (status image).boot (s.device.howOf image)) ≤ s.total status :=
    total_le fun update member => by
      refine left_boot _ ?_
      rcases ready update member with ⟨waiting, _⟩ | marked
      · exact .inl waiting
      · exact .inr marked
  rw [turn_eq answer]
  refine ⟨_, by omega, _, content, stands.feed _ stands.tracks.boot, .disconnecting (fixed.feed decision) ready.boot
    (feed_on decision) ?_⟩
  show (w.machine.apply _).2.context.graceDeadline ≠ none
  rw [apply_graceDeadline, decision, if_pos rfl]
  simp

section
variable (stands : s.Stands w status content) (fixed : s.Fixed w.machine.context) (live : s.Live status)
include stands fixed live

theorem turn_disconnecting (on : w.On .awaitingDisconnect .awaitDisconnect)
    (grace : w.machine.context.graceDeadline ≠ none)
    (timely : w.Timely choice) : ∃ left < 2 * s.total status + 22, s.Within left (s.turn w choice) := by
  have answer : s.answer w choice =
      some ({ kind := if choice.disconnects then .disconnected else .tick }, s.device.after status content) := by
    unfold answer
    rw [on.effect, ← stands.device]
  have decision : w.machine.decided { kind := if choice.disconnects then .disconnected else .tick, now := choice.now } =
      ({ next := .awaitingReconnect, effect := .requestReconnect }, w.machine.context) := by
    cases drops : choice.disconnects with
    | true => exact stands.decided nofun (by rw [on.state]; rfl)
    | false =>
      obtain ⟨deadline, armed⟩ := Option.ne_none_iff_exists'.mp grace
      have due := timely.due (.inr ⟨on.effect, drops⟩)
      rw [nextDeadline_grace armed] at due
      refine stands.decided nofun ?_
      rw [on.state]
      exact if_pos ⟨rfl, by rw [armed]; exact due⟩
  have over_ : w.machine.context.uploadInProgress = false := by
    by_contra going
    rw [Bool.not_eq_false] at going
    have where_ := stands.sane.placed.going going
    rw [on.state] at where_
    simp [isTerminal] at where_
  rw [turn_eq answer]
  refine ⟨_, by omega, status, content, stands.feed _ stands.tracks, .reconnecting (fixed.feed decision) live ?_
    (feed_on decision)⟩
  show (w.machine.apply _).2.context.uploadInProgress = false
  rw [apply_uploadInProgress, decision]
  exact over_

theorem turn_reconnecting (idle : w.machine.context.uploadInProgress = false)
    (on : w.On .awaitingReconnect .requestReconnect) :
    ∃ left < 2 * s.total status + 21, s.Within left (s.turn w choice) := by
  have answer : s.answer w choice = some ({ kind := .reconnected }, s.device.after status content) := by
    unfold answer
    rw [on.effect, ← stands.device]
  have decision : w.machine.decided { kind := .reconnected, now := choice.now } =
      ({ next := .verifyingBooted, effect := .readState }, w.machine.context) := by
    refine stands.decided nofun ?_
    rw [on.state]
    exact if_neg (by rw [idle]; exact Bool.false_ne_true)
  rw [turn_eq answer]
  exact ⟨_, by omega, status, content, stands.feed _ stands.tracks,
    .booting (fixed.feed decision) live (feed_on decision)⟩

end

theorem turn_booting (valid : s.Valid) (stands : s.Stands w status content) (fixed : s.Fixed w.machine.context)
    (live : s.Live status) (on : w.On .verifyingBooted .readState) :
    ∃ left < 2 * s.total status + 20, s.Within left (s.turn w choice) := by
  have less := s.total_read status
  rw [turn_eq (stands.answer_read on.effect)]
  generalize table : tableOf (s.device.after (s.device.read status) content).listing = told
  have decision : w.machine.decided { kind := .stateRead, state := some told, now := choice.now } =
      (w.machine.context.withTable { kind := .stateRead, state := some told }).inspectBoot s.plan :=
    stands.decided (fun _ => rfl) (by rw [on.state]; rfl)
  have booted := live.read stands.tracks valid
  obtain ⟨left, bound, within⟩ := (inspectBoot_judges valid booted stands.tracks.read
    (c := w.machine.context.withTable { kind := .stateRead, state := some told }) { fixed with }
    (by rw [Told, table]; rfl)).within decision stands stands.tracks.read booted
  exact ⟨left, by omega, within⟩

theorem tick_polls (stands : s.Stands w status content) {state : UpdateState} (wait : isWait state)
    (on : w.On state .awaitApply) (grace : w.machine.context.graceDeadline = none) (timely : w.Timely choice) :
    w.machine.decided { kind := .tick, now := choice.now } =
      ({ next := state, effect := .readState }, { w.machine.context with applyPoll := none }) := by
  have due := timely.due (.inl on.effect)
  rw [nextDeadline_poll grace] at due
  have early := timely.early on.effect
  refine stands.decided nofun ?_
  rw [on.state]
  show w.machine.context.tick state choice.now = _
  unfold Context.tick
  rw [if_neg fun ends => wait_not_disconnect wait ends.1]
  dsimp only
  rw [if_neg (by rintro (other | unripe); exacts [other wait, unripe due]), if_neg (by rw [early]; exact Bool.false_ne_true)]

theorem turn_applying (stands : s.Stands w status content) (notes : s.Notes status w.machine.context)
    (live : s.Live status)
    (busy : s.Applying status) (on : w.On .awaitingDeviceApply .awaitApply)
    (grace : w.machine.context.graceDeadline = none) (timely : w.Timely choice) :
    ∃ left < 2 * s.total status + 11, s.Within left (s.turn w choice) := by
  have answer : s.answer w choice = some ({ kind := .tick }, s.device.after status content) := by
    unfold answer
    rw [on.effect, ← stands.device]
  have decision := tick_polls stands (.inl rfl) on grace timely
  rw [turn_eq answer]
  exact ⟨_, by omega, status, content, stands.feed _ stands.tracks,
    .applyingRead (Notes.feed decision { notes with }) live busy (feed_on decision)⟩

theorem turn_applyingRead (valid : s.Valid) (stands : s.Stands w status content)
    (notes : s.Notes status w.machine.context) (live : s.Live status) (busy : s.Applying status)
    (on : w.On .awaitingDeviceApply .readState) :
    ∃ left < 2 * s.total status + 10, s.Within left (s.turn w choice) := by
  obtain ⟨update, member, applying⟩ := busy
  have working : (status update.place).background = true := by
    obtain ⟨unloaded, unmarked⟩ := live.booted update member
    cases found : status update.place with
    | loaded => exact absurd found unloaded
    | marked => exact absurd found unmarked
    | applying => rfl
    | waiting | trial | installed | committing =>
      rw [found] at applying
      cases applying
  have less := stands.tracks.read_lt member working
  rw [turn_eq (stands.answer_read on.effect)]
  generalize table : tableOf (s.device.after (s.device.read status) content).listing = told
  have decision : w.machine.decided { kind := .stateRead, state := some told, now := choice.now } =
      (w.machine.context.withTable { kind := .stateRead, state := some told }).awaitDevice s.plan :=
    stands.decided (fun _ => rfl) (by rw [on.state]; rfl)
  have booted := live.read stands.tracks valid
  obtain ⟨left, bound, within⟩ := (awaitDevice_judges valid booted stands.tracks.read
    (c := w.machine.context.withTable { kind := .stateRead, state := some told }) { notes.read valid stands.tracks with }
    (by rw [Told, table]; rfl)).within decision stands stands.tracks.read booted
  exact ⟨left, by omega, within⟩

theorem turn_window (stands : s.Stands w status content) (tries : s.Tries status w.machine.context)
    (live : s.Live status)
    (on : w.On .awaitingConfirmation .requestConfirmation) :
    ∃ left < 2 * s.total status + 8, s.Within left (s.turn w choice) := by
  have answer : s.answer w choice = some ({ kind := .confirmApproved }, s.device.after status content) := by
    unfold answer
    rw [on.effect, ← stands.device]
  have decision : w.machine.decided { kind := .confirmApproved, now := choice.now } =
      ({ next := .confirming, effect := .confirm }, { w.machine.context with confirmApproved := true }) :=
    stands.decided nofun (by rw [on.state]; rfl)
  obtain ⟨update, member, zero, current⟩ := tries.first
  obtain ⟨target, here, same⟩ := Option.map_eq_some_iff.mp current
  have hash := @apply_hash w.machine { kind := .confirmApproved, now := choice.now } target
    (by rw [decision]; exact .inr rfl) (by rw [decision]; exact here)
  rw [turn_eq answer]
  refine ⟨_, by omega, status, content, stands.feed _ stands.tracks, .confirming
    ⟨Notes.feed decision { tries.notes with }, tries.trial, tries.calm, update, member, zero, ?_⟩ live
    (feed_on decision) ⟨update, member, zero, hash.trans (congrArg Target.hash same)⟩⟩
  rw [feed_current decision]
  exact current

theorem confirmAccepted_last (valid : s.Valid) (notes : s.Notes status c)
    (first : ∃ update ∈ s.updates, update.place = 0 ∧ (c.targets[c.current]?).map (·.toTarget) = some update.target) :
    ∃ targets current, targets.map Image.toTarget = c.targets.map Image.toTarget ∧
      c.confirmAccepted = ({ next := .verifyingConfirmed, effect := .readState },
        { c with targets := targets, current := current, swapScheduled := false }) := by
  obtain ⟨update, member, zero, here⟩ := first
  have only (index : Nat) (target : Image) (there : c.targets[index]? = some target) (owed : target.inTrial = true) :
      index = c.current := by
    obtain ⟨other, listed, place, same⟩ := notes.noted valid (mem_of_getElem? there) owed
    obtain rfl := valid.same_place listed member (place.trans zero.symm)
    have nodup : (c.targets.map Image.toTarget).Nodup := by
      rw [notes.targets]
      exact Nodup.of_map (fun target : Target => target.image.toNat) (by rw [map_map]; exact valid.images)
    have one : (c.targets.map Image.toTarget)[index]? = some other.target := by
      rw [getElem?_map, there, Option.map_some, same]
    have two : (c.targets.map Image.toTarget)[c.current]? = some other.target := by
      rw [getElem?_map]
      exact here
    obtain ⟨bound, is⟩ := List.getElem?_eq_some_iff.mp one
    obtain ⟨inside, was⟩ := List.getElem?_eq_some_iff.mp two
    exact nodup.getElem_inj_iff.mp (is.trans was.symm)
  have none_ : nextInTrial (c.setInTrial c.current false) c.current = (c.setInTrial c.current false).targets.length := by
    unfold nextInTrial
    have search : (((c.setInTrial c.current false).targets.drop c.current).findIdx? (·.inTrial)) = none := by
      rw [findIdx?_eq_none_iff]
      intro target listed
      by_contra owed
      rw [Bool.not_eq_false] at owed
      obtain ⟨index, there⟩ := mem_iff_getElem?.mp (mem_of_mem_drop listed)
      simp only [Context.setInTrial, getElem?_modify] at there
      obtain ⟨before, was, is⟩ := Option.map_eq_some_iff.mp there
      split at is
      · subst is
        cases owed
      rename_i apart
      subst is
      exact apart (only index before was owed).symm
    rw [search]
  refine ⟨(c.setInTrial c.current false).targets, (c.setInTrial c.current false).targets.length, ?_, ?_⟩
  · apply ext_getElem?
    intro index
    simp only [Context.setInTrial, getElem?_map, getElem?_modify]
    by_cases here : c.current = index
    · simp only [here, ↓reduceIte]
      cases c.targets[index]? <;> rfl
    · simp only [here, ↓reduceIte]
      cases c.targets[index]? <;> rfl
  · unfold Context.confirmAccepted
    simp only [show (c.setInTrial c.current false).current = c.current from rfl, none_, lt_self_iff_false, ↓reduceIte]
    rfl

theorem Scenario.Tries.applied (tries : s.Tries status c) : s.Applied (s.device.confirmed status) := by
  refine ⟨by rw [confirmed_first]; simp, fun update member => ?_⟩
  by_cases zero : update.place = 0
  · rw [zero, confirmed_first]
    simp [verdictOf]
  rw [confirmed_other zero]
  have calm := tries.calm update member
  cases found : status update.place with
  | loaded | marked | applying =>
    rw [found] at calm
    exact absurd rfl calm
  | waiting | installed | committing => simp [commit, verdictOf]
  | trial => cases s.device.howOf update.place <;> simp [commit, verdictOf]

theorem Scenario.total_confirmed (s : Scenario) (status : Nat → Status) :
    s.total (s.device.confirmed status) ≤ s.total status :=
  total_le fun update _ => by
    by_cases zero : update.place = 0
    · rw [zero, confirmed_first]
      cases s.device.howOf 0 <;> exact Nat.zero_le _
    · rw [confirmed_other zero]
      exact left_commit _ _

theorem turn_confirming (valid : s.Valid) (stands : s.Stands w status content)
    (tries : s.Tries status w.machine.context) (live : s.Live status) (on : w.On .confirming .confirm)
    (hash : ∃ update ∈ s.updates, update.place = 0 ∧ w.last.hash = update.target.hash) :
    ∃ left < 2 * s.total status + 7, s.Within left (s.turn w choice) := by
  have less := s.total_confirmed status
  obtain ⟨update, member, zero, named⟩ := hash
  have delivered := stands.tracks.delivered update member (by rw [zero, tries.trial]; simp)
  rw [zero] at delivered
  have confirmed := setState_confirm valid.behaviour stands.tracks.steady tries.trial delivered.carried
  have answer : s.answer w choice = some
      ({ kind := .confirmed, state := some (tableOf (s.device.after (s.device.confirmed status) content).listing) },
        s.device.after (s.device.confirmed status) content) := by
    unfold answer
    rw [on.effect]
    simp only [World.setState, stands.device, named, confirmed, ↓reduceIte]
  rw [turn_eq answer]
  generalize table : tableOf (s.device.after (s.device.confirmed status) content).listing = told
  obtain ⟨targets, current, same, accepted⟩ := confirmAccepted_last valid
    (c := w.machine.context.withTable { kind := .confirmed, state := some told }) { tries.notes with } tries.first
  have decision : w.machine.decided { kind := .confirmed, state := some told, now := choice.now } =
      ({ next := .verifyingConfirmed, effect := .readState },
        { w.machine.context.withTable { kind := .confirmed, state := some told } with
          targets := targets, current := current, swapScheduled := false }) :=
    stands.decided (fun _ => rfl) (by rw [on.state]; exact accepted)
  exact ⟨_, by omega, _, content, stands.feed _ (stands.tracks.confirmed tries.trial),
    .verifyingConfirmed (Fixed.feed decision ⟨same.trans tries.notes.targets, tries.notes.mode, tries.notes.newer⟩)
      live.confirmed tries.applied (feed_on decision)⟩

theorem Scenario.Applied.read (applied : s.Applied status) (valid : s.Valid) (tracks : s.Tracks status content) :
    s.Applied (s.device.read status) := by
  refine ⟨by rw [tracks.read_first valid]; exact applied.quiet, fun update member => ?_⟩
  have calm := applied.calm update member
  unfold BootModel.read
  cases found : status update.place with
  | loaded | marked | applying =>
    rw [found] at calm
    exact absurd rfl calm
  | waiting | installed => split <;> simp [advance, commit, verdictOf]
  | committing left => cases left <;> split <;> simp [advance, commit, verdictOf]
  | trial => split <;> cases s.device.howOf update.place <;> simp [advance, commit, verdictOf]

theorem allConfirmed_told (valid : s.Valid) (live : s.Live status) (tracks : s.Tracks status content)
    (fixed : s.Fixed c) (told : s.Told status content c) (quiet : status 0 ≠ .trial) : allConfirmed c = true := by
  unfold allConfirmed
  rw [all_eq_true]
  intro target listed
  dsimp only
  obtain ⟨update, member, same⟩ := fixed.mem listed
  by_cases client : update.target.commit = .client
  · have runs : holds (activeOf c update.target.image) update.target = true := by
      rw [live.running tracks told valid member, bne_iff_ne]
      exact live.client tracks valid member client
    have confirmed : isConfirmed (activeOf c update.target.image) = true := by
      have first := tracks.first valid
      rw [told.confirmed valid member runs, (valid.client member).mp client]
      cases found : status 0 with
      | trial => exact absurd found quiet
      | waiting | loaded | marked | installed => rfl
      | applying left | committing left =>
        rw [found] at first
        cases first
    rw [same] at runs confirmed
    have both : (holds (activeOf c target.image) target.toTarget && isConfirmed (activeOf c target.image)) = true := by
      rw [Bool.and_eq_true]
      exact ⟨runs, confirmed⟩
    rw [both, Bool.or_true]
  · rw [same] at client
    have device := bne_iff_ne.mpr client
    rw [device, Bool.true_or]

theorem turn_verifyingConfirmed (valid : s.Valid) (stands : s.Stands w status content)
    (fixed : s.Fixed w.machine.context) (live : s.Live status) (applied : s.Applied status)
    (on : w.On .verifyingConfirmed .readState) :
    ∃ left < 2 * s.total status + 6, s.Within left (s.turn w choice) := by
  have less := s.total_read status
  rw [turn_eq (stands.answer_read on.effect)]
  generalize table : tableOf (s.device.after (s.device.read status) content).listing = told
  have booted := live.read stands.tracks valid
  have still := applied.read valid stands.tracks
  have kept : s.Fixed (w.machine.context.withTable { kind := .stateRead, state := some told }) := { fixed with }
  have listed : s.Told (s.device.read status) content
      (w.machine.context.withTable { kind := .stateRead, state := some told }) := by
    rw [Told, table]
    rfl
  have decision : w.machine.decided { kind := .stateRead, state := some told, now := choice.now } =
      (w.machine.context.withTable { kind := .stateRead, state := some told }).awaitCommit := by
    refine stands.decided (fun _ => rfl) ?_
    rw [on.state]
    exact if_pos (allConfirmed_told valid booted stands.tracks.read kept listed still.quiet)
  obtain ⟨left, bound, within⟩ := (awaitCommit_commits valid booted stands.tracks.read kept listed still.calm).within
    decision stands stands.tracks.read booted still
  exact ⟨left, by omega, within⟩

theorem turn_committing (stands : s.Stands w status content) (fixed : s.Fixed w.machine.context) (live : s.Live status)
    (applied : s.Applied status) (busy : s.Committing status) (on : w.On .awaitingDeviceCommit .awaitApply)
    (grace : w.machine.context.graceDeadline = none) (timely : w.Timely choice) :
    ∃ left < 2 * s.total status + 3, s.Within left (s.turn w choice) := by
  have answer : s.answer w choice = some ({ kind := .tick }, s.device.after status content) := by
    unfold answer
    rw [on.effect, ← stands.device]
  have decision := tick_polls stands (.inr rfl) on grace timely
  rw [turn_eq answer]
  exact ⟨_, by omega, status, content, stands.feed _ stands.tracks,
    .committingRead (Fixed.feed decision { fixed with }) live applied busy (feed_on decision)⟩

theorem turn_committingRead (valid : s.Valid) (stands : s.Stands w status content) (fixed : s.Fixed w.machine.context)
    (live : s.Live status) (applied : s.Applied status) (busy : s.Committing status)
    (on : w.On .awaitingDeviceCommit .readState) :
    ∃ left < 2 * s.total status + 2, s.Within left (s.turn w choice) := by
  obtain ⟨update, member, own, trial⟩ := busy
  have less : s.total (s.device.read status) < s.total status := by
    cases found : status update.place with
    | trial => exact stands.tracks.read_lt_trial valid applied.quiet member own found
    | committing => exact stands.tracks.read_lt member (by rw [found]; rfl)
    | waiting | loaded | marked | installed | applying =>
      rw [found] at trial
      cases trial
  rw [turn_eq (stands.answer_read on.effect)]
  generalize table : tableOf (s.device.after (s.device.read status) content).listing = told
  have booted := live.read stands.tracks valid
  have still := applied.read valid stands.tracks
  have decision : w.machine.decided { kind := .stateRead, state := some told, now := choice.now } =
      (w.machine.context.withTable { kind := .stateRead, state := some told }).awaitCommit :=
    stands.decided (fun _ => rfl) (by rw [on.state]; rfl)
  obtain ⟨left, bound, within⟩ := (awaitCommit_commits valid booted stands.tracks.read
    (c := w.machine.context.withTable { kind := .stateRead, state := some told }) { fixed with }
    (by rw [Told, table]; rfl) still.calm).within decision stands stands.tracks.read booted still
  exact ⟨left, by omega, within⟩

end

section
variable {s : Scenario} {w : World} {status : Nat → Status} {content : Nat → Bytes}

theorem Scenario.At.stops {budget : Nat} (stage : s.At w status content budget) :
    (w.machine.state = .completed → s.Live status ∧ s.Applied status ∧
      (∀ update ∈ s.updates, update.target.commit = .device → verdictOf (status update.place) = .committed) ∧
      w.last.effect = .finish) ∧
    (w.machine.state = .awaitingConfirmation → s.Live status ∧ s.Tries status w.machine.context) := by
  cases stage with
  | completed live applied all on =>
    exact ⟨fun _ => ⟨live, applied, all, on.effect⟩, fun asks => absurd (on.state.symm.trans asks) (by simp)⟩
  | window tries live on => exact ⟨fun done => absurd (on.state.symm.trans done) (by simp), fun _ => ⟨live, tries⟩⟩
  | parameters _ _ on | bootloader _ _ on | inspecting _ _ on | planning _ _ _ _ on | uploading _ _ _ _ on _ _
  | verifyingUpload _ _ _ on | marking _ _ _ on _ | resetting _ _ on | disconnecting _ _ on _ | reconnecting _ _ _ on
  | booting _ _ on | applying _ _ _ on _ | applyingRead _ _ _ on | confirming _ _ on _ | verifyingConfirmed _ _ _ on
  | committing _ _ _ _ on _ | committingRead _ _ _ _ on =>
    exact ⟨fun done => absurd (on.state.symm.trans done) (by simp), fun asks => absurd (on.state.symm.trans asks) (by simp)⟩

theorem turn_spends (valid : s.Valid) :
    Systems.Spends s.turn World.Timely s.Within fun w => w.machine.state = .completed where
  rests := by
    intro budget w choice within done
    obtain ⟨status, content, stands, stage⟩ := within
    obtain ⟨-, -, -, finished⟩ := stage.stops.1 done
    unfold turn answer
    rw [finished]
  spends := by
    intro budget w choice within unfinished timely
    obtain ⟨status, content, stands, stage⟩ := within
    cases stage with
    | parameters plans waits on => exact turn_parameters stands plans waits on
    | bootloader plans waits on => exact turn_bootloader valid stands plans waits on
    | inspecting plans waits on => exact turn_inspecting valid stands plans waits on
    | planning plans inside waits told on => exact turn_planning valid stands plans inside waits told on
    | uploading plans found waits stopped on target image =>
      exact turn_uploading valid stands plans found waits stopped on target image
    | verifyingUpload plans found loaded on => exact turn_verifyingUpload valid stands plans found loaded on
    | marking plans found loaded on hash => exact turn_marking valid stands plans found loaded on hash
    | resetting fixed ready on => exact turn_resetting valid stands fixed ready on
    | disconnecting fixed live on grace => exact turn_disconnecting stands fixed live on grace timely
    | reconnecting fixed live idle on => exact turn_reconnecting stands fixed live idle on
    | booting fixed live on => exact turn_booting valid stands fixed live on
    | applying notes live busy on grace => exact turn_applying stands notes live busy on grace timely
    | applyingRead notes live busy on => exact turn_applyingRead valid stands notes live busy on
    | window tries live on => exact turn_window stands tries live on
    | confirming tries live on hash => exact turn_confirming valid stands tries live on hash
    | verifyingConfirmed fixed live applied on => exact turn_verifyingConfirmed valid stands fixed live applied on
    | committing fixed live applied busy on grace => exact turn_committing stands fixed live applied busy on grace timely
    | committingRead fixed live applied busy on => exact turn_committingRead valid stands fixed live applied busy on
    | completed _ _ _ on => exact absurd on.state unfinished

theorem after_waiting (base : BootModel) (content : Nat → Bytes) : base.after (fun _ => .waiting) content = base := by
  refine (after_eq rfl fun image => ?_).symm
  cases base.images[image]? <;> rfl

def Scenario.fresh (s : Scenario) : World :=
  { machine := .new (s.updates.map (·.target)) s.plan, last := { next := .idle }, device := s.device }

theorem start_within (valid : s.Valid) (now : TimePoint) :
    s.Within (5 * s.updates.length + 2 * s.total (fun _ => .waiting) + 30) (s.start now) := by
  have same := (after_waiting s.device fun _ => []).symm
  have stands : s.Stands s.fresh (fun _ => .waiting) fun _ => [] :=
    ⟨rfl, new_sane s.plan (by simp [valid.some_]), same,
      ⟨valid.idle, fun image => ⟨fun moved => absurd rfl moved, by rintro ⟨⟩⟩⟩, fun _ _ => rfl, fun _ _ moved => absurd rfl moved⟩
  have plans : s.Plans (fun _ => .waiting) 0 s.fresh.machine.context := by
    refine ⟨⟨?_, rfl, rfl⟩, rfl, fun index below => absurd below (Nat.not_lt_zero _), fun _ _ _ _ => rfl, by rintro ⟨⟩, ?_⟩
    · simp [fresh, Machine.new]
    · rintro ⟨update, member, marked⟩
      cases marked
  have decision : s.fresh.machine.decided { kind := .start, now := now } =
      ({ next := .queryingParameters, effect := .queryParameters }, s.fresh.machine.context) :=
    stands.decided (by rintro ⟨⟩) rfl
  have fed := stands.feed { kind := .start, now := now } stands.tracks
  rw [← same] at fed
  have world : s.start now = s.fresh.feed { kind := .start, now := now } s.device := rfl
  rw [world]
  exact ⟨_, _, fed, .parameters (plans.feed decision) (fun _ _ => rfl) (feed_on decision)⟩

end

/-- Every target is in slot 0 of its image, nothing is scheduled, and no other image has been touched. -/
structure Scenario.Installed (s : Scenario) (device : BootModel) : Prop where
  targets : ∀ update ∈ s.updates, ∃ pair, device.images[update.place]? = some pair ∧
    carries pair.primary update.target.hash = true ∧
    (pair.primary = update.file ∨ pair.primary = (s.origin update).primary ∨ pair.primary = (s.origin update).secondary)
  idle : ∀ pair ∈ device.images, pair.Idle
  others : ∀ image, (∀ update ∈ s.updates, update.place ≠ image) → device.images[image]? = s.device.images[image]?

structure Scenario.Restored (s : Scenario) (device : BootModel) : Prop where
  contents : device.images.map (·.primary) = s.device.images.map (·.primary)
  idle : ∀ pair ∈ device.images, pair.Idle

section
variable {s : Scenario} {w : World} {status : Nat → Status} {content : Nat → Bytes}

theorem Scenario.Tracks.idle (tracks : s.Tracks status content)
    (still : ∀ image, status image = .waiting ∨ status image = .loaded ∨ status image = .installed) {pair : ImagePair}
    (member : pair ∈ (s.device.after status content).images) : pair.Idle := by
  obtain ⟨image, found⟩ := mem_iff_getElem?.mp member
  rw [images_after] at found
  obtain ⟨origin, here, rfl⟩ := Option.map_eq_some_iff.mp found
  obtain ⟨swap, applying, committing⟩ := tracks.steady.idle origin (mem_of_getElem? here)
  rcases still image with is | is | is <;> rw [is] <;> exact ⟨swap, applying, committing⟩

section
variable (valid : s.Valid) (tracks : s.Tracks status content) (live : s.Live status)
include valid tracks live

theorem installed_after (applied : s.Applied status)
    (done : ∀ update ∈ s.updates, update.target.commit = .device → verdictOf (status update.place) = .committed) :
    s.Installed (s.device.after status content) := by
  have over_ (update : Update) (member : update ∈ s.updates) :
      status update.place = .waiting ∨ status update.place = .installed := by
    by_cases zero : update.place = 0
    · have first := tracks.first valid
      have quiet := applied.quiet
      obtain ⟨unloaded, unmarked⟩ := live.booted update member
      rw [zero] at unloaded unmarked ⊢
      cases found : status 0 with
      | waiting => exact .inl rfl
      | installed => exact .inr rfl
      | loaded => exact absurd found unloaded
      | marked => exact absurd found unmarked
      | trial => exact absurd found quiet
      | applying left | committing left =>
        rw [found] at first
        cases first
    · have committed := done update member ((valid.each update member).own zero).1
      cases found : status update.place with
      | waiting => exact .inl rfl
      | installed => exact .inr rfl
      | loaded | marked | trial | applying left | committing left =>
        rw [found] at committed
        cases committed
  have calm (image : Nat) : status image = .waiting ∨ status image = .loaded ∨ status image = .installed := by
    by_cases waiting : status image = .waiting
    · exact .inl waiting
    obtain ⟨update, member, rfl⟩ := tracks.touched waiting
    rcases over_ update member with here | here
    · exact .inl here
    · exact .inr (.inr here)
  refine ⟨fun update member => ?_, fun pair member => tracks.idle calm member, fun image free => ?_⟩
  · refine ⟨_, s.present status content valid member, ?_, ?_⟩
    · rw [live.carries tracks member, bne_iff_ne]
      exact applied.calm update member
    rcases over_ update member with here | here
    · rw [here]
      exact .inr (.inl rfl)
    have delivered := tracks.delivered update member (by rw [here]; simp)
    rw [here]
    rcases delivered.source with file | secondary
    · exact .inl file
    · exact .inr (.inr secondary)
  · rw [images_after, tracks.untouched image free]
    cases s.device.images[image]? <;> rfl

theorem restored_after (tries : s.Tries status c) : s.Restored (s.device.after status content).reboot := by
  have stage (image : Nat) : status image = .waiting ∨ status image = .trial := by
    by_cases waiting : status image = .waiting
    · exact .inl waiting
    obtain ⟨update, member, rfl⟩ := tracks.touched waiting
    have applied := tries.calm update member
    have settled : (status update.place).settles = false ∨ update.place = 0 := by
      by_cases zero : update.place = 0
      · exact .inr zero
      refine .inl ?_
      by_contra settles
      exact live.held update member zero (by simpa using settles) tries.trial
    rcases settled with unsettled | zero
    · cases found : status update.place with
      | waiting => exact absurd found waiting
      | trial => exact .inr rfl
      | loaded | marked | applying =>
        rw [found] at applied
        exact absurd rfl applied
      | committing | installed =>
        rw [found] at unsettled
        cases unsettled
    · rw [zero]
      exact .inr tries.trial
  have booted (image : Nat) : (status image).boot (s.device.howOf image) = .waiting ∨
      (status image).boot (s.device.howOf image) = .loaded := by
    rcases stage image with here | here <;> rw [here]
    · exact .inl rfl
    · exact .inr rfl
  rw [reboot_after tracks.steady valid.behaviour valid.downgrades]
  refine ⟨?_, fun pair member => tracks.boot.idle (fun image => ?_) member⟩
  · apply ext_getElem?
    intro image
    rw [getElem?_map, images_after, getElem?_map, Option.map_map]
    cases s.device.images[image]? with
    | none => rfl
    | some => rcases booted image with here | here <;> simp [here, pair]
  · rcases booted image with here | here
    · exact .inl here
    · exact .inr (.inl here)

end

/-- A fault-free update in time installs every target, and one cancelled before its approval is undone by a reboot. -/
theorem update_installs (s : Scenario) (valid : s.Valid) (now : TimePoint) (choices : Nat → Choice) :
    ((∀ time, (s.run now choices time).Timely (choices time)) → ∃ last, ∀ time ≥ last,
      (s.run now choices time).machine.state = .completed ∧ s.Installed (s.run now choices time).device) ∧
    ∀ time, (∀ earlier < time, (s.run now choices earlier).Timely (choices earlier)) →
      (s.run now choices time).machine.state = .awaitingConfirmation → ∀ event : Event, event.kind = .cancel →
        ((s.run now choices time).machine.apply event).2.state = .cancelled ∧
          s.Restored (s.run now choices time).device.reboot := by
  have spends := turn_spends valid
  have start := start_within valid now
  constructor
  · intro timely
    obtain ⟨last, -, settles⟩ := spends.settles start timely
    refine ⟨last, fun time after => ⟨settles time after, ?_⟩⟩
    obtain ⟨left, status, content, stands, stage⟩ := spends.within start time fun earlier _ => timely earlier
    obtain ⟨live, applied, done, -⟩ := stage.stops.1 (settles time after)
    have device : (s.run now choices time).device = _ := stands.device
    rw [device]
    exact installed_after valid stands.tracks live applied done
  · intro time timely asks event cancel
    obtain ⟨left, status, content, stands, stage⟩ := spends.within start time timely
    obtain ⟨live, tries⟩ := stage.stops.2 asks
    have device : (s.run now choices time).device = _ := stands.device
    have sane : Sane (s.run now choices time).machine := stands.sane
    refine ⟨?_, ?_⟩
    · rw [apply_state, decided_cancel (by rw [asks]; rfl) cancel sane.whole fun needs => sane.placed.inside (.inl needs)]
    · rw [device]
      exact restored_after valid stands.tracks live tries

end

section

def sampleImage (hash : UInt8) : Bytes :=
  [0x3D, 0xB8, 0xF3, 0x96, 0, 0, 0, 0, 32, 0, 0, 0, 0, 0, 0, 0, 0, 0, 0, 0, 1, 0, 0, 0, 0, 0, 0, 0, 0, 0, 0, 0,
    0x07, 0x69, 9, 0, 0x10, 0, 1, 0, hash]

theorem short_hash (hash : UInt8) : [hash].length ≤ Limits.maxImageHashLength := by simp [Limits.maxImageHashLength]

def sampleUpdate (image : UInt32) (commit : CommitBy) (hash : UInt8) : Update :=
  { target := { image := image, commit := commit, hash := ⟨[hash], short_hash hash⟩ }, file := sampleImage hash }

def sampleScenario : Scenario where
  plan := {}
  updates := [sampleUpdate 0 .client 2, sampleUpdate 1 .device 4]
  device :=
    { config := { imageCount := 2 }
      images :=
        [{ primary := sampleImage 1 }, { primary := sampleImage 3, device := some { applyReads := 1, commitReads := 1 } }]
      some_ := by decide
      few := by decide
      xipActive := ⟨0, Nat.zero_lt_two⟩ }
  bootloader := none

def sampleChoices (time : Nat) : Choice := { now := 2000 * time }

theorem sample_valid : sampleScenario.Valid where
  behaviour := rfl
  downgrades := rfl
  idle := by
    intro pair member
    simp only [sampleScenario, mem_cons, not_mem_nil, or_false] at member
    rcases member with rfl | rfl <;> exact ⟨rfl, rfl, rfl⟩
  reports := nofun
  fallback _ := nofun
  whole := by decide
  some_ := by decide
  images := by decide
  hashes := by decide
  each := by
    intro update member
    simp only [sampleScenario, mem_cons, not_mem_nil, or_false] at member
    rcases member with rfl | rfl
    · refine ⟨rfl, rfl, rfl, by decide +kernel, fun other pair apart here => ?_, fun _ => ⟨rfl, rfl⟩,
        fun later => absurd rfl later, nofun⟩
      match other, here with
      | 0, here => exact absurd rfl apart
      | 1, here =>
        obtain rfl := Option.some.inj here
        decide +kernel
    · refine ⟨rfl, rfl, rfl, by decide +kernel, fun other pair apart here => ?_, fun zero => absurd zero (by decide),
        fun _ => ⟨rfl, nofun⟩, ?_⟩
      · match other, here with
        | 1, here => exact absurd rfl apart
        | 0, here =>
          obtain rfl := Option.some.inj here
          decide +kernel
      · rintro how ⟨⟩
        exact ⟨rfl, rfl⟩

theorem sample_rests (later : Nat) :
    sampleScenario.run 0 sampleChoices (22 + later) = sampleScenario.run 0 sampleChoices 22 := by
  induction later with
  | zero => rfl
  | succ later ih =>
    have finished : (sampleScenario.run 0 sampleChoices 22).last.effect = .finish := by decide +kernel
    show sampleScenario.turn (sampleScenario.run 0 sampleChoices (22 + later)) _ = _
    rw [ih, turn, answer, finished]

theorem sample_timely (time : Nat) : (sampleScenario.run 0 sampleChoices time).Timely (sampleChoices time) := by
  by_cases early : time < 22
  · have checked : ∀ time < 22,
        ((sampleScenario.run 0 sampleChoices time).last.effect = .awaitApply ∨
          ((sampleScenario.run 0 sampleChoices time).last.effect = .awaitDisconnect ∧
            (sampleChoices time).disconnects = false) →
          (sampleScenario.run 0 sampleChoices time).machine.nextDeadline.any (· ≤ (sampleChoices time).now) = true) ∧
        ((sampleScenario.run 0 sampleChoices time).last.effect = .awaitApply →
          (sampleScenario.run 0 sampleChoices time).machine.context.applyDeadline.any (· ≤ (sampleChoices time).now) =
            false) := by decide +kernel
    exact ⟨(checked time early).1, (checked time early).2⟩
  · obtain ⟨later, rfl⟩ := Nat.exists_eq_add_of_le (Nat.le_of_not_lt early)
    have finished : (sampleScenario.run 0 sampleChoices 22).last.effect = .finish := by decide +kernel
    rw [sample_rests]
    constructor <;> rw [finished] <;> nofun

theorem update_installs_both : (∃ last, ∀ time ≥ last,
      (sampleScenario.run 0 sampleChoices time).machine.state = .completed ∧
        sampleScenario.Installed (sampleScenario.run 0 sampleChoices time).device) ∧
    ((sampleScenario.run 0 sampleChoices 17).machine.apply { kind := .cancel }).2.state = .cancelled ∧
      sampleScenario.Restored (sampleScenario.run 0 sampleChoices 17).device.reboot :=
  ⟨(update_installs sampleScenario sample_valid 0 sampleChoices).1 sample_timely,
    (update_installs sampleScenario sample_valid 0 sampleChoices).2 17 (fun earlier _ => sample_timely earlier)
      (by decide +kernel) _ rfl⟩

end

end Smply.Dfu
