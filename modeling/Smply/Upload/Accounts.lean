import Smply.Upload.Delivery
import Smply.Upload.Requests

namespace Smply.Upload

open Systems List

theorem filterMap_sublist {α β : Type} {first second : α → Option β} {list : List α}
    (weaker : ∀ a ∈ list, ∀ b, first a = some b → second a = some b) :
    (list.filterMap first).Sublist (list.filterMap second) := by
  induction list with
  | nil => exact .slnil
  | cons a rest ih =>
    have tail := ih fun a member => weaker a (mem_cons_of_mem _ member)
    cases chosen : first a with
    | none =>
      rw [filterMap_cons_none chosen]
      cases other : second a with
      | none =>
        rw [filterMap_cons_none other]
        exact tail
      | some b =>
        rw [filterMap_cons_some other]
        exact .cons _ tail
    | some b =>
      rw [filterMap_cons_some chosen, filterMap_cons_some (weaker a (mem_cons_self ..) b chosen)]
      exact .cons_cons _ tail

section
variable {Hash : Type} {config : UploadConfig Hash} {listens : Bool} {events : List DriverEvent}

section
variable {driver : Driver Hash} {event : DriverEvent} {result : DriverOutput × Driver Hash}
  (turn : driver.Turn event result)
include turn

theorem Driver.Turn.sent {request : UploadRequest} (sent : result.1.sent = some request) :
    result.1.step = some (.sendChunk request) := by
  cases turn with
  | sends started other is decides told =>
    obtain rfl := Option.some.inj sent
    exact congrArg some is
  | _ => cases sent

theorem Driver.Turn.completed {upload : UploadResult} (done : result.1.outcome = some (.ok upload)) :
    result.1.step = some (.complete upload.match_ upload.alreadyPresent) := by
  cases turn with
  | stops started outcome decides told completes => exact congrArg some (completes upload (Option.some.inj done))
  | _ => cases done

end

theorem unmoved_sends (chunk : 0 < config.chunkSize) (longer : config.chunkSize < config.imageSize)
    {past later : List (DriverStep Hash)} {t : DriverStep Hash}
    (split : driverLog config listens events = past ++ t :: later) (unmoved : ¬ Moved config (past ++ [t]))
    {request : UploadRequest} (sent : t.output.sent = some request) :
    request.off = 0 ∧ request.length < config.imageSize := by
  obtain ⟨same, -, turn, decides⟩ := run_decided config listens events split
  obtain ⟨state, decided⟩ := decides _ (turn.sent sent)
  have fits := (decided.sends request rfl).2.2
  rw [same] at fits
  have fits := fits (Nat.lt_trans chunk longer) chunk
  refine ⟨?_, Nat.lt_of_le_of_lt fits.chunk longer⟩
  by_contra nonzero
  have other : request.firstPacket = false := by
    rw [← Bool.not_eq_true, fits.first]
    exact nonzero
  obtain ⟨u, told, off⟩ := List.mem_filterMap.mp (mem_of_getLast? (fits.follows other))
  have some_ := fits.some_
  have inside := fits.inside
  exact unmoved ⟨u, told, _, off, by omega, by omega⟩

end

section
variable {Hash : Type} (config : UploadConfig Hash) (listens : Bool) (events : List DriverEvent)

/-- An upload is reported as present exactly when its first packet was answered with the whole image and no part was
confirmed before. -/
theorem already_present_exactly {past later : List (DriverStep Hash)} {t : DriverStep Hash}
    (split : driverLog config listens events = past ++ t :: later) {result : UploadResult}
    (done : t.output.outcome = some (.ok result)) : (result.alreadyPresent = true ↔ t.event.answers = true ∧
      (∃ request, lastSent past = some request ∧ request.firstPacket = true) ∧
      ∀ u ∈ past, ∀ off, reported u = some off → ¬ (0 < off ∧ off < config.imageSize)) ∧
    (0 < config.chunkSize → config.chunkSize < config.imageSize → result.alreadyPresent = true →
      ∀ u ∈ past, ∀ request, u.output.sent = some request → request.off = 0 ∧ request.length < config.imageSize) := by
  obtain ⟨same, -, turn, decides⟩ := run_decided config listens events split
  obtain ⟨state, decided⟩ := decides _ (turn.completed done)
  have skip := decided.completes _ _ rfl
  rw [same] at skip
  constructor
  · refine skip.trans (and_congr_right fun _ => and_congr_right fun _ => ?_)
    exact ⟨fun unmoved u member off told inside => unmoved ⟨u, member, off, told, inside⟩,
      fun none_ ⟨u, member, off, told, inside⟩ => none_ u member off told inside⟩
  · intro chunk longer present u member request sent
    obtain ⟨first, second, rfl⟩ := append_of_mem member
    rw [append_assoc, cons_append] at split
    refine unmoved_sends chunk longer split (fun moved => (skip.mp present).2.2 ?_) sent
    obtain ⟨v, there, inside⟩ := moved
    rw [append_cons]
    exact ⟨v, mem_append_left _ there, inside⟩

end

theorem already_present_short : (driverLog shortImage true [.start none, answered 48]).map (·.output.outcome) =
        [none, some (.ok { transferred := 48, alreadyPresent := true, match_ := none })] ∧
      ∀ u ∈ driverLog shortImage true [.start none], ∀ request, u.output.sent = some request →
        request.off = 0 ∧ request.length < 48 := by
  have exactly := @already_present_exactly Unit shortImage true [.start none, answered 48]
    (driverLog shortImage true [.start none]) []
    (transition Driver.step (runDriver shortImage true [.start none]) (answered 48)) rfl
    { transferred := 48, alreadyPresent := true, match_ := none } (by decide)
  exact ⟨by decide, exactly.2 (by decide) (by decide) rfl⟩

def tinyImage : UploadConfig Bytes := { imageSize := 3, chunkSize := 32, sha := some [1, 2, 3] }

/-- A device that holds nothing is sent the image in one packet, and answers it. -/
def tinyUpload : Net Bytes :=
  run (Net.step [1, 2, 3] tinyImage id) (Net.start { image := [], session := none })
    [.start none, Net.served, .deliver 0 none]

/-- The device has stored what it was sent, and the upload reports a skip. -/
theorem already_present_of_sent : tinyUpload.server.image = [1, 2, 3] ∧
      tinyUpload.outcome = some (.ok { transferred := 3, alreadyPresent := true, match_ := some true }) ∧
      (driverLog tinyImage true [.start none, answered 3]).map (·.output.sent) =
        [some { off := 0, length := 3, firstPacket := true }, none] ∧
      (driverLog tinyImage true [.start none, answered 3]).map (·.output.outcome) =
        [none, some (.ok { transferred := 3, alreadyPresent := true, match_ := none })] := by
  decide

section
variable {Hash : Type} (config : UploadConfig Hash) (listens : Bool) (events : List DriverEvent)

theorem progress_reported {t : DriverStep Hash} (member : t ∈ driverLog config listens events) {off : Nat}
    (progress : t.output.progress = some off) : reported t = some off := by
  obtain ⟨past, later, split⟩ := append_of_mem member
  obtain ⟨-, kept, turn, -⟩ := run_decided config listens events split
  obtain ⟨before, event, output, after⟩ := t
  dsimp only at turn
  cases turn with
  | unheard waiting still => cases progress
  | sends started request is decides told => exact (kept.told rfl (kept.decided decides _ rfl _) told).2 off progress
  | stops started outcome decides told done =>
    exact (kept.told rfl (kept.decided decides _ rfl _) told).2 off progress

/-- The progress told is what the server confirmed last, and decreases only where that does. -/
theorem progress_follows_server : (∀ past t later, driverLog config listens events = past ++ t :: later →
      ∀ off, t.output.progress = some off → lastOffset (past ++ [t]) = some off) ∧
    (((driverLog config listens events).filterMap reported).Pairwise (· ≤ ·) →
      ((driverLog config listens events).filterMap (·.output.progress)).Pairwise (· ≤ ·)) := by
  constructor
  · intro past t later split off progress
    have told := progress_reported config listens events (t := t) (by rw [split]; simp) progress
    rw [lastOffset_concat, told, Option.some_or]
  intro steady
  refine steady.sublist (filterMap_sublist fun t member off progress => ?_)
  exact progress_reported config listens events member progress

end

theorem progress_follows_server_short :
    (driverLog shortImage true [.start none, answered 32, answered 48]).filterMap (·.output.progress) = [32, 48] ∧
      ((driverLog shortImage true [.start none, answered 32, answered 48]).filterMap (·.output.progress)).Pairwise
        (· ≤ ·) :=
  ⟨by decide, (progress_follows_server shortImage true [.start none, answered 32, answered 48]).2 (by decide)⟩

/-- The server falls back to an earlier offset, and so does the progress. -/
theorem progress_moves_back :
    (driverLog shortImage true [.start none, answered 32, answered 16]).filterMap (·.output.progress) = [32, 16] := by
  decide

end Smply.Upload
