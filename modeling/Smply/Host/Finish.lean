import Smply.Host.Cancel
import Smply.Host.Updates

namespace Smply.Host

open Systems List Code
open Dfu (isTerminal)
open Smp (SmpClientConfig)
open Cbor (documentCodec)

variable {driver : UploadDriver} {update : Nat} {codec : Codec}

def Task.isClear : Task → Bool
  | .clear => true
  | _ => false

def clearing (host : Host) : Bool := host.tasks.any Task.isClear

/-- No update is started before the one before it is cleared up, and none ends while its upload goes on. -/
def orderly (before : Host) : Event → Bool
  | .call (.start ..) _ => !before.clearing
  | .call .. => true
  | .proceed _ =>
    match before.tasks with
    | .carry _ step :: _ => step.effect != .finish || !before.busy
    | _ => true

def carrying (tasks : List Task) : Nat := tasks.countP fun task => weigh carries (.task task)

theorem carrying_append (first second : List Task) : carrying (first ++ second) = carrying first + carrying second :=
  countP_append

theorem count_carries (host : Host) : host.count carries = carrying host.tasks :=
  host.count_stack (fun _ => rfl) (fun _ => rfl)

theorem count_clears (host : Host) : host.count clears = host.tasks.countP Task.isClear := by
  rw [host.count_stack (fun _ => rfl) (fun _ => rfl)]
  refine countP_congr fun task _ => ?_
  cases task <;> simp [weigh, clears, Task.isClear, neutral]

theorem clearing_count {host : Host} (quiet : host.clearing = false) : host.count clears = 0 := by
  rw [count_clears, countP_eq_zero]
  intro task member clear
  have some_ : host.clearing = true := any_eq_true.mpr ⟨task, member, clear⟩
  rw [quiet] at some_
  cases some_

theorem carrying_onStack (codes : List Code) :
    carrying (codes.filterMap Code.onStack) = codes.countP (weigh carries) := by
  induction codes with
  | nil => rfl
  | cons code _ ih =>
    cases code with
    | task =>
      simp only [carrying, filterMap_cons, onStack, countP_cons] at ih ⊢
      rw [ih]
    | _ => simpa [filterMap_cons, onStack, weigh, carries] using ih

theorem clears_onStack {codes : List Code} (kept : codes.countP (weigh clears) = 0) :
    Task.clear ∉ codes.filterMap Code.onStack := by
  intro member
  obtain ⟨code, inside, same⟩ := mem_filterMap.mp member
  cases code with
  | task =>
    cases same
    exact countP_eq_zero.mp kept _ inside (by simp [weigh, clears, neutral])
  | _ => cases same

section
variable {before after : Host} {event : Event} {output : Output} {spent made : List Code}

theorem Moves.above (moves : Moves before after spent made) (books : before.booked) {above below : List Task}
    (tasks : before.tasks = above ++ .clear :: below) (free : carrying above = 0)
    (kept : spent.countP (weigh clears) = 0) : spent.countP (weigh carries) = 0 ∧
      (made.countP (weigh carries) = 0 → ∃ above, after.tasks = above ++ .clear :: below ∧ carrying above = 0) := by
  obtain ⟨pushed, rest, under, over_⟩ := moves.stack
  have count := moves.count books carries
  rw [count_carries, count_carries, over_, under, carrying_append, carrying_append, carrying_onStack] at count
  rw [under] at tasks
  rcases append_eq_append_iff.mp tasks with ⟨more, split, rest_eq⟩ | ⟨more, split, clear_eq⟩
  · have unspent : spent.countP (weigh carries) = 0 := by
      rw [split, carrying_append, carrying_onStack] at free
      omega
    refine ⟨unspent, fun uncarried => ⟨pushed ++ more, by rw [over_, rest_eq, append_assoc], ?_⟩⟩
    rw [split, carrying_append] at free
    rw [carrying_append]
    omega
  · cases more with
    | nil =>
      rw [append_nil] at split
      have unspent : spent.countP (weigh carries) = 0 := by rw [← carrying_onStack, split]; exact free
      refine ⟨unspent, fun uncarried => ⟨pushed, by rw [over_, clear_eq]; rfl, by omega⟩⟩
    | cons =>
      obtain ⟨rfl, _⟩ := List.cons.inj clear_eq
      exact absurd (by rw [split]; simp) (clears_onStack kept)

theorem Ends.next {base : ImageManagement} {origin : Option Origin}
    {outcome : Result UploadResult} {result : Output × Host}
    (ends : Ends before base driver origin outcome spent result) :
    ∃ next, result.2.image.upload = some next ∧ next.onProgress = driver.onProgress := by
  cases ends with
  | inactive _ _ _ image => exact ⟨driver, by rw [image], rfl⟩
  | unheard active _ _ _ image | queued active _ _ _ _ image | told active _ _ _ _ image =>
    exact ⟨{ driver with active := false, onDone := none }, by rw [image], rfl⟩

theorem Advanced.next {base : ImageManagement} {origin : Option Origin} {step : Upload.Step}
    {result : Output × Host} (advanced : Advanced before base driver origin step spent result) :
    ∃ next, result.2.image.upload = some next ∧ next.onProgress = driver.onProgress := by
  cases advanced with
  | @sent request handle _ _ _ _ image =>
    exact ⟨{ driver with state := Upload.recordSent driver.state request, request := handle }, by rw [image], rfl⟩
  | ended _ _ ends => exact ends.next
  | reported _ _ _ _ image =>
    exact ⟨{ driver with reportedOff := driver.state.confirmedOff }, by rw [image], rfl⟩

theorem unbusy_same {before after : Host} (calm : before.busy = false) (image : after.image = before.image) :
    after.busy = false := by
  rw [busy, image]
  exact calm

theorem unbusy_next {next : UploadDriver} (stands : after.image.upload = some next)
    (other : next.onProgress.any Owner.isUpdater = false) : after.busy = false := by
  simp [busy, stands, other]

theorem busy_active (calm : before.busy = false) (stands : before.image.upload = some driver)
    (active : driver.active = true) : driver.onProgress.any Owner.isUpdater = false := by
  simpa [busy, stands, active] using calm

theorem given_application (callback : Bool) : (given callback).any Owner.isUpdater = false := by
  cases callback <;> rfl

theorem Row.unbusy (row : Row codec before event output after) (books : before.booked) (driven : before.Driven)
    (calm : before.busy = false) (other : ∀ update step rest, before.tasks = .carry update step :: rest →
      step.effect ≠ .startUpload ∧ step.effect ≠ .resumeUpload) : after.busy = false := by
  have top {task : Task} {after : Host} {made : List Code} (moves : Moves before after [.task task] made) :
      ∃ rest, before.tasks = task :: rest := by
    obtain ⟨_, rest, under, _⟩ := moves.stack
    exact ⟨rest, under⟩
  cases row with
  | paused found active _ _ _ image =>
    have mine := busy_active calm (uploadDriver_stands found).1 active
    exact unbusy_next (congrArg ImageManagement.upload image) mine
  | handled found active _ advanced =>
    obtain ⟨next, stands, same⟩ := advanced.next
    have mine := busy_active calm (uploadDriver_stands found).1 active
    exact unbusy_next stands (by rw [same]; exact mine)
  | advanced found advanced =>
    obtain ⟨made, moves⟩ := advanced.moves
    have active := driven.turn books found moves (by simp [weigh, drives, neutral])
    obtain ⟨next, stands, same⟩ := advanced.next
    have mine := busy_active calm (uploadDriver_stands found).1 active
    exact unbusy_next stands (by rw [same]; exact mine)
  | concluded found ends =>
    obtain ⟨made, moves⟩ := ends.moves
    have active := driven.turn books found moves (by simp [weigh, drives, neutral])
    obtain ⟨next, stands, same⟩ := ends.next
    have mine := busy_active calm (uploadDriver_stands found).1 active
    exact unbusy_next stands (by rw [same]; exact mine)
  | @uploaded _ update step _ _ effect uploads =>
    obtain ⟨made, moves⟩ := uploads.moves
    obtain ⟨rest, tasks⟩ := top moves
    exact absurd effect (other update step rest tasks).1
  | @resumed _ update step _ _ effect resumes =>
    obtain ⟨made, moves⟩ := resumes.moves
    obtain ⟨rest, tasks⟩ := top moves
    exact absurd effect (other update step rest tasks).2
  | cancelled _ _ _ image =>
    rcases image with image | ⟨driver, found, active, image⟩
    · exact unbusy_same calm image
    · have mine := busy_active calm (uploadOf_stands found) active
      exact unbusy_next (congrArg ImageManagement.upload image) mine
  | @uploadAsked _ _ onProgress _ _ _ _ uploads =>
    cases uploads with
    | refused _ _ image => exact unbusy_same calm image
    | begun _ _ _ progress _ _ _ advanced =>
      obtain ⟨next, stands, same⟩ := advanced.next
      exact unbusy_next stands (by rw [same, progress]; exact given_application onProgress)
  | resumeAsked owned resumes =>
    cases resumes with
    | refused _ _ image => exact unbusy_same calm image
    | @begun old _ _ found _ advanced =>
      obtain ⟨next, stands, same⟩ := advanced.next
      refine unbusy_next stands ?_
      rw [Host.owned, found] at owned
      rw [same]
      cases asked : old.onProgress with
      | none => rfl
      | some owner =>
        simp only [asked] at owned
        cases owner with
        | application => rfl
        | updater => cases owned
  | cancelAsked _ found active _ _ image =>
    have mine := busy_active calm (uploadOf_stands found) active
    exact unbusy_next (congrArg ImageManagement.upload image) mine
  | _ => exact unbusy_same calm (by assumption)

inductive Phase (host : Host) : Prop
  | live (running : host.updater.running = true) (listening : host.updater.onEvent = some host.updates)
      (uncleared : host.count clears = 0)
  | closing (stopped : host.updater.running = false) (listening : host.updater.onEvent = some host.updates)
      (above below : List Task) (tasks : host.tasks = above ++ .clear :: below) (free : carrying above = 0)
      (once : host.count clears = 1) (calm : host.busy = false)
  | idle (stopped : host.updater.running = false) (silent : host.updater.onEvent = none)
      (uncleared : host.count clears = 0)

inductive Passes (before : Host) (output : Output) (after : Host) : Prop
  | live (was : before.updater.running = true) (is : after.updater.running = true)
      (updates : after.updates = before.updates) (sources : after.updater.sources = before.updater.sources)
      (remarks : ∀ listener update said, output = .emitted listener update said →
        listener = before.updates ∧ said.final = false)
  | ended (was : before.updater.running = true) (is : after.updater.running = false)
      (updates : after.updates = before.updates) (update : Nat) (result : Result Dfu.UpdateReport)
      (tells : output = .emitted before.updates update (.finished result))
  | quiet (was : before.updater.running = false) (is : after.updater.running = false)
      (updates : after.updates = before.updates)
      (silent : ∀ listener update said, output ≠ .emitted listener update said)
  | began (was : before.updater.running = false) (is : after.updater.running = true)
      (updates : after.updates = before.updates + 1)
      (silent : ∀ listener update said, output ≠ .emitted listener update said)

theorem Tells.heard {said : UpdateEvent → Prop} (tells : Tells before update said output) :
    ∀ listener update event, output = .emitted listener update event →
      before.updater.onEvent = some listener ∧ said event := by
  rcases tells with rfl | ⟨listener, event, given, is, rfl⟩
  · exact fun _ _ _ => nofun
  intro other number event' same
  cases same
  exact ⟨given, is⟩

theorem Moves.uncleared (moves : Moves before after spent made) (books : before.booked)
    (kept : spent.countP (weigh clears) = 0) (new : made.countP (weigh clears) = 0) :
    after.count clears = before.count clears := by
  have count := moves.count books clears
  omega

theorem Turns.kept {task : Task} {given : Dfu.Event} (turns : Turns before task update given) :
    weigh clears (.task task) = false := by
  cases turns <;> rfl

theorem Phase.live_step (running : before.updater.running = true)
    (listening : before.updater.onEvent = some before.updates) (uncleared : before.count clears = 0)
    (beat : Beat before event output after) (books : before.booked)
    (calm : ∀ env update step rest, event = .proceed env → before.tasks = .carry update step :: rest →
      step.effect = .finish → after.busy = false) : after.Phase ∧ Passes before output after := by
  cases beat with
  | steady moves steady _ _ quiet remarks =>
    refine ⟨.live (by rw [steady.running]; exact running) (by rw [steady.onEvent, steady.updates]; exact listening)
      (by rw [moves.uncleared books quiet.1 quiet.2]; exact uncleared),
      .live running (by rw [steady.running]; exact running) steady.updates steady.sources ?_⟩
    intro listener update said emitted
    obtain ⟨given, short, _⟩ := remarks listener update said emitted
    exact ⟨Option.some.inj (given.symm.trans listening), short⟩
  | @turned _ _ given _ turns _ moves updater updates tells =>
    have same := moves.uncleared books (by simp [turns.kept]) (by simp [weigh, clears])
    refine ⟨.live (by rw [updater]; exact running) (by rw [updater, updates]; exact listening)
      (by rw [same]; exact uncleared),
      .live running (by rw [updater]; exact running) updates (by rw [updater]) ?_⟩
    intro listener number said emitted
    obtain ⟨given, previous, next, rfl⟩ := tells.heard listener number said emitted
    exact ⟨Option.some.inj (given.symm.trans listening), rfl⟩
  | @finished env update step goes effect moves updater updates tells =>
    obtain ⟨pushed, rest, under, over_⟩ := moves.stack
    have stood : before.tasks = .carry update step :: rest := under
    have once := moves.count books clears
    have fewer := moves.count books carries
    have stopped : after.updater.running = false := by rw [updater]
    simp only [countP_singleton, uncleared, show weigh clears (.task (.carry update step)) = false from rfl,
      show weigh clears (.task .clear) = true from rfl, show weigh carries (.task (.carry update step)) = true from rfl,
      show weigh carries (.task .clear) = false from rfl, ↓reduceIte, Bool.false_eq_true] at once fewer
    -- Below `finish` nothing is cleared up, so what was pushed holds the one `clear` and no function of an update.
    have below : rest.countP Task.isClear = 0 := by
      rw [count_clears, stood, countP_cons] at uncleared
      omega
    have within : .clear ∈ pushed := by
      rw [count_clears, over_, countP_append, below] at once
      obtain ⟨task, member, clear⟩ := countP_pos_iff.mp (show 0 < pushed.countP Task.isClear by omega)
      cases task <;> first | exact member | cases clear
    obtain ⟨above, under_, rfl⟩ := mem_iff_append.mp within
    have free : carrying above = 0 := by
      rw [count_carries, count_carries, over_, stood, carrying_append, carrying_append,
        show Task.carry update step :: rest = [.carry update step] ++ rest from rfl, carrying_append] at fewer
      have one : carrying [.carry update step] = 1 := rfl
      omega
    refine ⟨.closing stopped (by rw [updater, updates]; exact listening) above (under_ ++ rest)
      (by rw [over_, append_assoc]; rfl) free (by omega) (calm env update step rest goes stood effect),
      .ended running stopped updates update before.updater.outcome ?_⟩
    rw [tells, listening]
  | cleared moves =>
    have present := moves.present books clears
    rw [uncleared] at present
    simp [weigh, clears, neutral] at present
  | started _ _ idle =>
    rw [running] at idle
    cases idle

theorem Phase.closing_step (stopped : before.updater.running = false)
    (listening : before.updater.onEvent = some before.updates) {above below : List Task}
    (tasks : before.tasks = above ++ .clear :: below) (free : carrying above = 0) (once : before.count clears = 1)
    (quiet : before.busy = false) (beat : Beat before event output after) (books : before.booked)
    (starts : ∀ targets plan env, event = .call (.start targets plan true) env → before.clearing = false)
    (calm : after.busy = false) : after.Phase ∧ Passes before output after := by
  have carried {task : Task} {made : List Code} (moves : Moves before after [.task task] made)
      (kept : weigh clears (.task task) = false) (carry : weigh carries (.task task) = true) : False := by
    have unspent := (moves.above books tasks free (by simp [kept])).1
    simp [carry] at unspent
  cases beat with
  | steady moves steady uncarried _ uncleared remarks =>
    obtain ⟨unspent, kept⟩ := moves.above books tasks free uncleared.1
    obtain ⟨above', tasks', free'⟩ := kept uncarried
    refine ⟨.closing (by rw [steady.running]; exact stopped) (by rw [steady.onEvent, steady.updates]; exact listening)
      above' below tasks' free' (by rw [moves.uncleared books uncleared.1 uncleared.2]; exact once) calm,
      .quiet stopped (by rw [steady.running]; exact stopped) steady.updates ?_⟩
    intro listener update said emitted
    rcases (remarks listener update said emitted).2.2 with carries | active
    · omega
    · rw [quiet] at active
      cases active
  | turned turns _ moves =>
    cases turns with
    | dispatch _ _ _ running =>
      rw [stopped] at running
      cases running
    | «continue» => exact (carried moves rfl rfl).elim
  | finished _ _ moves => exact (carried moves rfl rfl).elim
  | cleared moves updater updates silent =>
    have none_ := moves.count books clears
    simp [weigh, clears, neutral] at none_
    refine ⟨.idle (by rw [updater]; exact stopped) (by rw [updater]) (by omega),
      .quiet stopped (by rw [updater]; exact stopped) updates ?_⟩
    rw [silent]
    simp
  | @started targets plan env _ called =>
    have none_ := clearing_count (starts targets plan env called)
    omega

theorem Phase.idle_step (stopped : before.updater.running = false) (silent : before.updater.onEvent = none)
    (uncleared : before.count clears = 0) (beat : Beat before event output after) (books : before.booked)
    (updating : before.Updating) : after.Phase ∧ Passes before output after := by
  cases beat with
  | steady moves steady _ _ quiet remarks =>
    refine ⟨.idle (by rw [steady.running]; exact stopped) (by rw [steady.onEvent]; exact silent)
      (by rw [moves.uncleared books quiet.1 quiet.2]; exact uncleared),
      .quiet stopped (by rw [steady.running]; exact stopped) steady.updates ?_⟩
    intro listener update said emitted
    have given := (remarks listener update said emitted).1
    rw [silent] at given
    cases given
  | @turned _ _ given _ turns _ moves updater updates tells =>
    have same := moves.uncleared books (by simp [turns.kept]) (by simp [weigh, clears])
    refine ⟨.idle (by rw [updater]; exact stopped) (by rw [updater]; exact silent) (by rw [same]; exact uncleared),
      .quiet stopped (by rw [updater]; exact stopped) updates ?_⟩
    intro listener number said emitted
    have given := (tells.heard listener number said emitted).1
    rw [silent] at given
    cases given
  | finished _ effect moves =>
    have present := moves.present books finishes
    rw [updating.finishing, stopped] at present
    simp [weigh, finishes, effect, neutral] at present
  | cleared moves =>
    have present := moves.present books clears
    rw [uncleared] at present
    simp [weigh, clears, neutral] at present
  | started _ _ _ moves updater updates accepted =>
    have none_ := moves.count books clears
    simp [weigh, clears] at none_
    refine ⟨.live (by rw [updater]) (by rw [updater, updates]) (by omega), .began stopped (by rw [updater]) updates ?_⟩
    rw [accepted]
    simp

theorem Phase.step (phase : before.Phase) (row : Row codec before event output after) (books : before.booked)
    (driven : before.Driven) (updating : before.Updating) (tidy : before.orderly event = true) :
    after.Phase ∧ Passes before output after := by
  have beat := row.beat books driven
  cases phase with
  | live running listening uncleared =>
    refine Phase.live_step running listening uncleared beat books ?_
    rintro env update step rest rfl tasks effect
    refine row.unbusy books driven ?_ ?_
    · simpa [orderly, tasks, effect] using tidy
    intro update' step' rest' same
    rw [tasks] at same
    cases same
    simp [effect]
  | closing stopped listening above _ tasks free once quiet =>
    refine Phase.closing_step stopped listening tasks free once quiet beat books ?_ ?_
    · rintro targets plan env rfl
      simpa [orderly] using tidy
    refine row.unbusy books driven quiet ?_
    intro update step rest same
    rw [tasks] at same
    cases above with
    | nil => cases same
    | cons =>
      cases same
      simp [carrying, weigh, carries, neutral] at free
  | idle stopped silent uncleared => exact Phase.idle_step stopped silent uncleared beat books updating

end

def hears (listener : Nat) (output : Output) : Option UpdateEvent :=
  match output with
  | .emitted other _ event => if other = listener then some event else none
  | _ => none

def heard (listener : Nat) (history : List (Transition Host Event Output)) : List UpdateEvent :=
  history.filterMap fun t => hears listener t.output

theorem heard_concat (listener : Nat) (past : List (Transition Host Event Output)) (t : Transition Host Event Output) :
    heard listener (past ++ [t]) = heard listener past ++ (hears listener t.output).toList := by
  rw [heard, filterMap_append]
  cases said : hears listener t.output <;> simp [heard, said]

theorem hears_none {listener : Nat} {output : Output}
    (other : ∀ number update event, output = .emitted number update event → number ≠ listener) :
    hears listener output = none := by
  unfold hears
  split
  · rename_i number update event
    rw [if_neg (other number update event rfl)]
  · rfl

theorem hears_some {listener : Nat} {output : Output} {event : UpdateEvent}
    (some_ : hears listener output = some event) :
    ∃ update, output = .emitted listener update event := by
  unfold hears at some_
  split at some_
  · rename_i other update said
    by_cases same : other = listener
    · rw [if_pos same] at some_
      cases some_
      exact ⟨update, by rw [same]⟩
    · rw [if_neg same] at some_
      cases some_
  · cases some_

/-- An update has its files while it runs, and its callback hears of its end once and of nothing after it. -/
structure Served (update : Nat) (files : List (Source × Option Source)) (later : List (Transition Host Event Output))
    (host : Host) : Prop where
  available : ∀ u ∈ later, u.before.updates = update → u.before.updater.running = true →
    u.before.updater.sources = files
  told : (host.updates = update ∧ host.updater.running = true ∧ host.updater.sources = files ∧
      ∀ event ∈ heard update later, event.final = false) ∨
    (update ≤ host.updates ∧ (host.updates = update → host.updater.running = false) ∧
      ∃ before result, heard update later = before ++ [.finished result] ∧ ∀ event ∈ before, event.final = false)

theorem Served.step {files : List (Source × Option Source)}
    {later : List (Transition Host Event Output)} {host : Host} (served : Served update files later host)
    (event : Event)
    (passes : Passes host (host.step codec event).1 (host.step codec event).2) :
    Served update files (later ++ [transition (Host.step codec) host event]) (host.step codec event).2 := by
  have available : ∀ u ∈ later ++ [transition (Host.step codec) host event],
      u.before.updates = update → u.before.updater.running = true → u.before.updater.sources = files := by
    intro u member same running
    rcases mem_append.mp member with member | member
    · exact served.available u member same running
    obtain rfl := mem_singleton.mp member
    rcases served.told with ⟨_, _, files, _⟩ | ⟨_, over_, _⟩
    · exact files
    rw [transition] at same running
    rw [over_ same] at running
    cases running
  refine ⟨available, ?_⟩
  rw [heard_concat]
  rcases served.told with ⟨same, running, sources, short⟩ | ⟨bound, over_, init, result, last, short⟩
  · cases passes with
    | live _ is updates kept remarks =>
      refine .inl ⟨updates.trans same, is, kept.trans sources, fun said member => ?_⟩
      rcases mem_append.mp member with member | member
      · exact short said member
      · obtain ⟨number, emitted⟩ := hears_some (Option.mem_toList.mp member)
        exact (remarks _ number said emitted).2
    | ended _ is _ _ result tells =>
      refine .inr ⟨by omega, fun _ => is, heard update later, result, ?_, short⟩
      rw [transition, tells, hears, if_pos same]
      rfl
    | quiet was | began was => rw [running] at was; cases was
  · have unheard : hears update (transition (Host.step codec) host event).output = none ∧
        update ≤ (host.step codec event).2.updates ∧
        ((host.step codec event).2.updates = update → (host.step codec event).2.updater.running = false) := by
      have other (was : host.updater.running = true) : host.updates ≠ update := by
        intro same
        rw [over_ same] at was
        cases was
      cases passes with
      | live was _ updates _ remarks =>
        refine ⟨hears_none fun number _ said emitted => ?_, by omega, fun same => absurd (updates ▸ same) (other was)⟩
        rw [(remarks number _ said emitted).1]
        exact other was
      | ended was is _ number _ tells =>
        refine ⟨hears_none fun number _ said emitted => ?_, by omega, fun _ => is⟩
        have both := tells.symm.trans emitted
        cases both
        exact other was
      | quiet _ is _ silent =>
        exact ⟨hears_none fun number _ said emitted => absurd emitted (silent _ _ _), by omega, fun _ => is⟩
      | began _ _ _ silent =>
        exact ⟨hears_none fun number _ said emitted => absurd emitted (silent _ _ _), by omega, fun _ => by omega⟩
    refine .inr ⟨unheard.2.1, unheard.2.2, init, result, ?_, short⟩
    rw [unheard.1, last]
    simp

section
variable (codec : Codec) (transport : Nat) (config : SmpClientConfig) (events : List Event)

theorem new_phase : (new transport config).Phase := .idle rfl rfl (new_count transport config clears)

theorem reached_phase (tidy : ∀ t ∈ history codec transport config events, t.before.orderly t.event = true) :
    (reached codec transport config events).Phase := by
  have guarded := history_invariant_with (step codec) (new transport config) (fun _ host => host.Grounded)
    (fun past host => (∀ t ∈ past, t.before.orderly t.event = true) → host.Phase)
    (reached_grounded codec transport config) (fun _ => new_phase transport config)
    (by
      intro past host event grounded phase tidy
      have before := phase fun t member => tidy t (mem_append_left _ member)
      have now := tidy (transition (step codec) host event) (by simp)
      exact (before.step (grounded.row event) grounded.books grounded.driven grounded.updating now).1)
    events
  exact guarded tidy

theorem accepted_start {before after : Host} {targets : List ImageTarget} {plan : Plan} {onEvent : Bool} {env : Env}
    (row : Row codec before (.call (.start targets plan onEvent) env) .accepted after) :
    after.updates = before.updates + 1 ∧ after.updater.running = true ∧
      after.updater.sources = targets.map ImageTarget.files := by
  cases row with
  | idle _ _ _ inert => cases inert
  | posted posts => cases posts
  | started _ _ reads _ updater updates =>
    refine ⟨updates, by rw [updater], ?_⟩
    rw [updater]
    exact readTargets_files reads

/-- Each accepted `start()` is served to its end, if none comes before the last is cleared up and no update ends before
its upload. -/
theorem start_served_to_end (past later : List (Transition Host Event Output)) (t : Transition Host Event Output)
    (targets : List ImageTarget) (plan : Plan) (onEvent : Bool) (env : Env)
    (tidy : ∀ u ∈ history codec transport config events, u.before.orderly u.event = true)
    (split : history codec transport config events = past ++ t :: later)
    (called : t.event = .call (.start targets plan onEvent) env) (accepted : t.output = .accepted) :
    Served t.after.updates (targets.map ImageTarget.files) later (reached codec transport config events) ∧
      ((reached codec transport config events).tasks = [] → (reached codec transport config events).updater.running →
        isTerminal (reached codec transport config events).updater.state = false) := by
  obtain ⟨earlier, event, rest, whole, first, is, rest_eq⟩ :=
    log_split (step codec) (new transport config) events split
  have grounded := reached_grounded codec transport config earlier
  have inside {u : Transition Host Event Output} (member : u ∈ past ++ t :: later) : u.before.orderly u.event = true :=
    tidy u (split ▸ member)
  have phase : (reached codec transport config earlier).Phase := by
    refine reached_phase codec transport config earlier fun u member => inside (mem_append_left _ ?_)
    rw [← first]
    exact member
  have tidyNow : t.before.orderly t.event = true := inside (by simp)
  have row := @Grounded.row codec _ grounded event
  have begun : t.after.updates = t.before.updates + 1 ∧ t.after.updater.running = true ∧
      t.after.updater.sources = targets.map ImageTarget.files := by
    rw [is] at called accepted ⊢
    dsimp only [transition] at called accepted ⊢
    rw [show run (step codec) (new transport config) earlier = reached codec transport config earlier from rfl] at accepted ⊢
    rw [called] at row accepted ⊢
    rw [accepted] at row
    exact accepted_start codec row
  have final : reached codec transport config events = run (step codec) t.after rest := by
    rw [reached, whole, run_append, is]
    rfl
  have served : (∀ u ∈ later, u.before.orderly u.event = true) → (run (step codec) t.after rest).Grounded ∧
      (run (step codec) t.after rest).Phase ∧
      Served t.after.updates (targets.map ImageTarget.files) later (run (step codec) t.after rest) := by
    rw [rest_eq]
    refine history_invariant (step codec) t.after (fun later host => (∀ u ∈ later, u.before.orderly u.event = true) →
      host.Grounded ∧ host.Phase ∧ Served t.after.updates (targets.map ImageTarget.files) later host) ?_ ?_ rest
    · intro _
      refine ⟨?_, ?_, by simp, .inl ⟨rfl, begun.2.1, begun.2.2, by simp [heard]⟩⟩
      · rw [is]
        exact grounded.step event
      · rw [is] at tidyNow ⊢
        exact (phase.step row grounded.books grounded.driven grounded.updating tidyNow).1
    · intro later host event before tidy
      obtain ⟨grounded, phase, served⟩ := before fun u member => tidy u (mem_append_left _ member)
      have now := tidy (transition (step codec) host event) (by simp)
      have next := phase.step (@Grounded.row codec _ grounded event) grounded.books grounded.driven grounded.updating now
      exact ⟨grounded.step event, next.1, served.step event next.2⟩
  obtain ⟨last, _, served⟩ := served fun u member => inside (by simp [member])
  rw [final]
  refine ⟨served, fun empty running => ?_⟩
  by_contra over_
  have waits := last.updating.finishing
  rw [running, Bool.true_and, if_pos (by simpa using over_), count_stack _ (fun _ => rfl) (fun _ => rfl), empty] at waits
  cases waits

end

def oneFile : Env := { size := fun _ => 64, file := fun _ => .ok ⟨⟨[1], by decide⟩, {}⟩ }

def startOne : Event := .call (.start [{ source := some 0 }] {} true) oneFile

def goesOn (steps : Nat) : List Event := List.replicate steps (.proceed oneFile)

/-- An update is cancelled; the handler of its end starts another one, and cancels that too. -/
def startInHandler : List Event :=
  [startOne, .call .cancel oneFile, .call (.client (.poll 0)) oneFile] ++ goesOn 12 ++
    [startOne, .call .cancel oneFile] ++ goesOn 20

/-- `finish` clears away what a `start()` made from its own handler has installed. -/
theorem start_in_handler_unserved : ∃ past later t,
    history documentCodec 0 {} startInHandler = past ++ t :: later ∧ t.event = startOne ∧ t.output = .accepted ∧
      heard t.after.updates later = [] ∧
      (∃ u ∈ later, u.before.updates = t.after.updates ∧ u.before.updater.running = true ∧
        u.before.updater.sources = []) ∧
      (reached documentCodec 0 {} startInHandler).updates = t.after.updates ∧
      (reached documentCodec 0 {} startInHandler).updater.running = false := by
  refine ⟨[_, _, _, _, _, _, _, _, _, _, _, _, _, _, _], _, _, rfl, rfl, rfl, ?_, ?_, ?_, ?_⟩
  · refine length_eq_zero_iff.mp ?_
    decide +kernel
  · refine ⟨_, mem_cons_of_mem _ (mem_cons_of_mem _ (mem_cons_of_mem _ (mem_cons_self ..))), ?_, ?_, ?_⟩
    · decide +kernel
    · decide +kernel
    · decide +kernel
  · decide +kernel
  · decide +kernel

def cancelledUpdate : List Event :=
  [startOne, .call .cancel oneFile, .call (.client (.poll 0)) oneFile] ++ goesOn 20

theorem start_served_to_end_cancelled : ∃ later t,
    history documentCodec 0 {} cancelledUpdate = t :: later ∧ t.output = .accepted ∧
      Served t.after.updates [(0, none)] later (reached documentCodec 0 {} cancelledUpdate) ∧
      (reached documentCodec 0 {} cancelledUpdate).updater.running = false := by
  refine ⟨_, _, rfl, rfl, ?_, ?_⟩
  · exact (start_served_to_end documentCodec 0 {} cancelledUpdate [] _ _ [{ source := some 0 }] {} true oneFile
      (by decide +kernel) rfl rfl rfl).1
  · decide +kernel

end Smply.Host
