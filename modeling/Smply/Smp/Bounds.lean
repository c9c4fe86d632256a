import Smply.Systems.Run
import Smply.Smp.Assembler

namespace Smply.Smp.MessageAssembler

open Systems

inductive Use where
  | feed (input : Bytes)
  | reset

def use (assembler : MessageAssembler) : Use → Result Unit × MessageAssembler
  | .feed input => ((assembler.feed input).result, (assembler.feed input).after)
  | .reset => (.ok (), assembler.reset)

/-- Less than a header, or less than one whole message that passes both limits. -/
def StrictPart (limits : AssemblerLimits) (held : Bytes) : Prop :=
  held.length < headerSize ∨ ∃ rest header, rest ≠ [] ∧ decodeHeader (held ++ rest) = .ok header ∧
    header.length ≤ limits.maxPayload ∧ header.totalSize ≤ limits.maxBuffer ∧ (held ++ rest).length = header.totalSize

section
variable {limits : AssemblerLimits}

theorem messageSize_passes {header : Header} {total : Nat} (size : messageSize limits header = .ok total) :
    header.length ≤ limits.maxPayload ∧ header.totalSize ≤ limits.maxBuffer ∧ total = header.totalSize := by
  unfold messageSize at size
  split at size
  · cases size
  rename_i payload
  split at size
  · cases size
  · rename_i buffer
    exact ⟨UInt16.not_lt.mp payload, by omega, (Except.ok.inj size).symm⟩

theorem strictPart_of_unfinished {held : Bytes} (found : front limits held = .unfinished) :
    StrictPart limits held := by
  unfold front at found
  split at found
  · rename_i short
    exact .inl short
  rename_i long
  split at found
  · cases found
  rename_i header decoded
  split at found
  · cases found
  rename_i total size
  split at found
  · rename_i short
    obtain ⟨payload, buffer, rfl⟩ := messageSize_passes size
    right
    refine ⟨List.replicate (header.totalSize - held.length) 0, header, ?_, ?_, payload, buffer, ?_⟩
    · intro empty
      have none_ := congrArg List.length empty
      simp only [List.length_replicate, List.length_nil] at none_
      omega
    · rw [decodeHeader_append (by omega), decoded]
    · rw [List.length_append, List.length_replicate]
      omega
  · cases found

end

theorem topUp_peak (assembler : MessageAssembler) (input : Bytes) (size : Nat) :
    (assembler.topUp input size).1.peakBuffered ≤ max assembler.peakBuffered size := by
  unfold topUp
  split
  · simp only [stash, List.length_append, List.length_take]
    omega
  · exact Nat.le_max_left _ _

def Seen (assembler : MessageAssembler) : Prop := assembler.buffer.length ≤ assembler.peakBuffered

theorem stash_seen (assembler : MessageAssembler) (bytes : Bytes) : (assembler.stash bytes).Seen :=
  Nat.le_max_right _ _

theorem topUp_seen {assembler : MessageAssembler} (seen : assembler.Seen) (input : Bytes) (size : Nat) :
    (assembler.topUp input size).1.Seen := by
  unfold topUp
  split
  · exact stash_seen assembler _
  · exact seen

theorem emptied_seen {assembler : MessageAssembler} (empty : assembler.buffer = []) : assembler.Seen := by
  rw [Seen, empty]
  exact Nat.zero_le _

def Turn.assembler : Turn → MessageAssembler
  | .returned _ after => after
  | .delivered _ _ after _ => after

section
variable {assembler : MessageAssembler} {input : Bytes}

theorem fastPath_peak (empty : assembler.buffer = []) (roomy : headerSize ≤ assembler.limits.maxBuffer) :
    (assembler.fastPath input).assembler.peakBuffered ≤ max assembler.peakBuffered assembler.limits.maxBuffer := by
  have stashed (fits : input.length ≤ assembler.limits.maxBuffer) :
      (assembler.stash input).peakBuffered ≤ max assembler.peakBuffered assembler.limits.maxBuffer := by
    simp only [stash, empty, List.nil_append]
    omega
  unfold fastPath
  split
  · rename_i short
    exact stashed (by omega)
  split
  · exact Nat.le_max_left _ _
  split
  · exact Nat.le_max_left _ _
  rename_i total size
  obtain ⟨_, buffer, rfl⟩ := messageSize_passes size
  split
  · rename_i short
    exact stashed (by omega)
  · exact Nat.le_max_left _ _

theorem slowPath_peak (roomy : headerSize ≤ assembler.limits.maxBuffer) :
    (assembler.slowPath input).assembler.peakBuffered ≤ max assembler.peakBuffered assembler.limits.maxBuffer := by
  have first := topUp_peak assembler input headerSize
  have limits := topUp_limits assembler input headerSize
  unfold slowPath
  generalize assembler.topUp input headerSize = topped at *
  obtain ⟨topped, left⟩ := topped
  simp only at first limits ⊢
  split
  · show topped.peakBuffered ≤ _
    omega
  split
  · show topped.peakBuffered ≤ _
    omega
  rename_i header decoded
  split
  · show topped.peakBuffered ≤ _
    omega
  rename_i total size
  rw [limits] at size
  obtain ⟨_, buffer, rfl⟩ := messageSize_passes size
  have second := topUp_peak topped left header.totalSize
  generalize topped.topUp left header.totalSize = last at *
  obtain ⟨last, rest⟩ := last
  simp only at second ⊢
  split
  · show last.peakBuffered ≤ _
    omega
  · show last.peakBuffered ≤ _
    omega

theorem fastPath_seen (empty : assembler.buffer = []) : (assembler.fastPath input).assembler.Seen := by
  unfold fastPath
  split
  · exact stash_seen assembler input
  split
  · exact emptied_seen rfl
  split
  · exact emptied_seen rfl
  split
  · exact stash_seen assembler input
  · exact emptied_seen empty

theorem slowPath_seen (seen : assembler.Seen) : (assembler.slowPath input).assembler.Seen := by
  have first := topUp_seen seen input headerSize
  unfold slowPath
  generalize assembler.topUp input headerSize = topped at *
  obtain ⟨topped, left⟩ := topped
  simp only at first ⊢
  split
  · exact first
  split
  · exact emptied_seen rfl
  split
  · exact emptied_seen rfl
  rename_i total size
  have second := topUp_seen first left total
  generalize topped.topUp left total = last at *
  obtain ⟨last, rest⟩ := last
  simp only at second ⊢
  split
  · exact second
  · exact emptied_seen rfl

theorem turn_peak (roomy : headerSize ≤ assembler.limits.maxBuffer) :
    (assembler.turn input).assembler.peakBuffered ≤ max assembler.peakBuffered assembler.limits.maxBuffer := by
  unfold turn
  split
  · rename_i empty
    exact fastPath_peak (List.isEmpty_iff.mp empty) roomy
  · exact slowPath_peak roomy

theorem turn_seen (seen : assembler.Seen) : (assembler.turn input).assembler.Seen := by
  unfold turn
  split
  · rename_i empty
    exact fastPath_seen (List.isEmpty_iff.mp empty)
  · exact slowPath_seen seen

end

structure Bounded (limits : AssemblerLimits) (assembler : MessageAssembler) : Prop where
  same : assembler.limits = limits
  unfinished : front limits assembler.buffer = .unfinished
  peak : assembler.peakBuffered ≤ limits.maxBuffer
  seen : assembler.Seen

variable {limits : AssemblerLimits}

theorem Bounded.turn {assembler : MessageAssembler} (bounded : Bounded limits assembler)
    (roomy : headerSize ≤ limits.maxBuffer) (input : Bytes) : Bounded limits (assembler.turn input).assembler := by
  have turned := turn_turned assembler input
  have peak := @turn_peak assembler input (by rw [bounded.same]; exact roomy)
  have seen := @turn_seen assembler input bounded.seen
  have within := bounded.peak
  rw [bounded.same] at peak
  generalize assembler.turn input = now at *
  cases turned with
  | unfinished after same feeding found held =>
    rw [bounded.same] at found
    exact ⟨same.trans bounded.same, held ▸ found, Nat.le_trans peak (by omega), seen⟩
  | broken error after same feeding found held
  | message header payload rest next after same feeding found less whole held =>
    refine ⟨same.trans bounded.same, ?_, Nat.le_trans peak (by omega), seen⟩
    show front limits after.buffer = _
    rw [held]
    rfl

theorem feedLoop_bounded {assembler : MessageAssembler} (bounded : Bounded limits assembler)
    (roomy : headerSize ≤ limits.maxBuffer) (input : Bytes) : Bounded limits (assembler.feedLoop input).after ∧
      ∀ error, (assembler.feedLoop input).result = .error error → (assembler.feedLoop input).after.buffer = [] := by
  have turned := turn_turned assembler input
  have step := bounded.turn roomy input
  rw [feedLoop]
  split
  · rename_i result after now
    rw [now] at turned step
    refine ⟨step, ?_⟩
    rintro error rfl
    cases turned with
    | broken _ _ _ _ _ held => exact held
  · rename_i header payload after rest now
    have shorter := turn_shorter now
    rw [now] at step
    exact feedLoop_bounded step roomy rest
termination_by assembler.buffer.length + input.length

theorem Bounded.use {assembler : MessageAssembler} (bounded : Bounded limits assembler)
    (roomy : headerSize ≤ limits.maxBuffer) (given : Use) : Bounded limits (assembler.use given).2 := by
  cases given with
  | reset => exact ⟨bounded.same, rfl, bounded.peak, emptied_seen rfl⟩
  | feed input =>
    simp only [MessageAssembler.use, feed]
    split
    · exact bounded
    have fed := (@feedLoop_bounded limits { assembler with feeding := true }
      ⟨bounded.same, bounded.unfinished, bounded.peak, bounded.seen⟩ roomy input).1
    exact ⟨fed.same, fed.unfinished, fed.peak, fed.seen⟩

/-- However the input is cut, no more is ever held than the limit, and between calls only the strict start of one
message. -/
theorem assembler_bounded (limits : AssemblerLimits) (roomy : headerSize ≤ limits.maxBuffer) (uses : List Use) :
    ∀ t ∈ log use { limits := limits } uses,
      t.after.buffer.length ≤ t.after.peakBuffered ∧ t.after.peakBuffered ≤ limits.maxBuffer ∧
        StrictPart limits t.after.buffer ∧ ∀ error, t.output = .error error → t.after.buffer = [] := by
  have fresh : Bounded limits { limits := limits } := ⟨rfl, rfl, Nat.zero_le _, emptied_seen rfl⟩
  have idle : ({ limits := limits } : MessageAssembler).feeding = false := rfl
  refine every_transition use { limits := limits }
    (fun assembler => Bounded limits assembler ∧ assembler.feeding = false) _ ⟨fresh, idle⟩ ?_ ?_ uses
  · rintro assembler given ⟨bounded, idle⟩
    refine ⟨bounded.use roomy given, ?_⟩
    cases given with
    | reset => exact idle
    | feed => simp only [use, feed, idle, Bool.false_eq_true, if_false]
  · rintro assembler given ⟨bounded, idle⟩
    have after := bounded.use roomy given
    refine ⟨after.seen, after.peak, strictPart_of_unfinished after.unfinished, ?_⟩
    cases given with
    | reset => rintro _ ⟨⟩
    | feed input =>
      simp only [transition, use, feed, idle, Bool.false_eq_true, if_false]
      exact (@feedLoop_bounded limits { assembler with feeding := true }
        ⟨bounded.same, bounded.unfinished, bounded.peak, bounded.seen⟩ roomy input).2

theorem assembler_bounded_header_only : headerSize ≤ ({ maxBuffer := 8 } : AssemblerLimits).maxBuffer ∧
      ∀ t ∈ log use { limits := { maxBuffer := 8 } } [.feed garbledTail],
        t.after.peakBuffered ≤ 8 ∧ ∀ error, t.output = .error error → t.after.buffer = [] := by
  refine ⟨Nat.le_refl _, fun t member => ?_⟩
  obtain ⟨_, peak, _, cleared⟩ := assembler_bounded { maxBuffer := 8 } (Nat.le_refl _) [.feed garbledTail] t member
  exact ⟨peak, cleared⟩

end Smply.Smp.MessageAssembler
