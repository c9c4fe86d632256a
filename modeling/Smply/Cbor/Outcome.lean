import Smply.Cbor.Codec

namespace Smply.Cbor

open Systems Reader

/-- An item of a CBOR document. A map gives one item to a label at most. -/
inductive Value where
  | unsigned (value : UInt64)
  | negative (below : UInt64)
  | text (text : Bytes)
  | map (fields : String → Option Value)
  | other

abbrev Fields := String → Option Value

namespace Value

def asUInt64 : Option Value → Answer UInt64
  | none => .labelNotFound
  | some (.unsigned value) => .value value
  | some _ => .error

def asInt64 : Option Value → Answer Int
  | none => .labelNotFound
  | some (.unsigned value) => if value.toNat < 2 ^ 63 then .value value.toNat else .error
  | some (.negative below) => if below.toNat < 2 ^ 63 then .value (-1 - below.toNat) else .error
  | some _ => .error

def asText : Option Value → Answer Bytes
  | none => .labelNotFound
  | some (.text bytes) => .value bytes
  | some _ => .error

end Value

def lookUp {α : Type} (kind : Option Value → Answer α) (key : String) (context : List Fields) : Answer α × List Fields :=
  (kind (context.head?.bind (· key)), context)

/-- QCBOR on payloads that are maps: a cursor is the maps it is inside of, innermost first. Walks are left out. -/
def maps (decode : Bytes → Fields) : Qcbor (List Fields) where
  init payload := [decode payload]
  enterMap context := (true, context)
  enterMapFromMap key context :=
    match context.head?.bind (· key) with
    | some (.map inner) => (true, inner :: context)
    | _ => (false, context)
  exitMap context := (true, context.tail)
  getUInt64 := lookUp Value.asUInt64
  getInt64 := lookUp Value.asInt64
  getBool _ context := (.error, context)
  getTextString := lookUp Value.asText
  getByteString _ context := (.error, context)
  enterArray _ context := (.error, context)
  exitArray context := context
  peekNext _ := .error
  getNext context := (none, context)
  getNextConsume context := (false, context)
  rewind context := context
  tell _ := 0
  left _ := 0
  consume_left := nofun

namespace Answer
variable {α : Type}

def found : Answer α → Option α
  | .value found => some found
  | _ => none

def fits : Answer α → Bool
  | .error => false
  | _ => true

end Answer

namespace Fields

def scopedFits (fields : Fields) : Bool :=
  match fields "err" with
  | some (.map err) => (Value.asUInt64 (err "group")).fits && (Value.asUInt64 (err "rc")).fits
  | _ => true

def scopedError (fields : Fields) : Option MgmtError :=
  match fields "err" with
  | some (.map err) =>
    match (Value.asUInt64 (err "rc")).found with
    | none => none
    | some rc =>
      if rc = 0 then none
      else
        let group := (Value.asUInt64 (err "group")).found.getD 0
        some { group := group.toUInt16, rc := rc.toUInt16, groupScoped := true }
  | _ => none

def flatError (fields : Fields) : Option MgmtError :=
  match (Value.asInt64 (fields "rc")).found with
  | none => none
  | some rc => if rc = 0 then none else some { rc := UInt16.ofInt rc }

def fits (fields : Fields) : Bool :=
  fields.scopedFits && (fields.scopedError.isSome || (Value.asInt64 (fields "rc")).fits) &&
    (Value.asText (fields "rsn")).fits

def outcome (fields : Fields) : Smp.MgmtOutcome where
  error := fields.scopedError.or fields.flatError
  reason := ((Value.asText (fields "rsn")).found.getD []).take Limits.maxReasonLength

end Fields

def Gives {α : Type} (clean : Bool) (value : α) (result : Result α) : Prop :=
  if clean then result = .ok value else result.isOk = false

/-- The maps a reader is inside of, and whether it is not poisoned. -/
structure Inside (maps : List Fields) (clean : Bool) (reader : Reader (List Fields)) : Prop where
  context : reader.context = maps
  error : reader.error.isNone = clean
  depth : reader.depth = maps.length
  nesting : reader.maxNesting = Limits.maxCborNesting

section
variable {α : Type} {decode : Bytes → Fields} {fields inner : Fields} {outer context : List Fields} {clean : Bool}

theorem getter_inside (kind : Option Value → Answer α) (key : String) (short : key.utf8ByteSize ≤ maxKeyLength) :
    Ensures (Inside (fields :: outer) clean) (getter (lookUp kind) key) fun result reader =>
      result = (if clean then (kind (fields key)).found else none) ∧
        Inside (fields :: outer) (clean && (kind (fields key)).fits) reader := by
  rintro ⟨_, input, error, _, _, met⟩ ⟨rfl, rfl, rfl, rfl⟩
  cases error with
  | some error => exact ⟨rfl, rfl, rfl, rfl, rfl⟩
  | none =>
    simp only [getter, StateT.run, bind, StateT.bind, get, getThe, MonadStateOf.get, StateT.get, pure, Option.isSome_none,
      Bool.false_eq_true, ↓reduceIte, if_neg (Nat.not_lt.mpr short), lookUp, call, set, StateT.set, StateT.pure,
      List.head?_cons, Option.bind_some]
    cases kind (fields key) with
    | value | labelNotFound | error => exact ⟨rfl, rfl, rfl, rfl, rfl⟩

theorem leaveMap_inside :
    Ensures (Inside (inner :: outer) clean) (leaveMap (maps decode)) fun _ => Inside outer clean := by
  rintro ⟨_, input, error, _, _, met⟩ ⟨rfl, rfl, rfl, rfl⟩
  exact ⟨rfl, rfl, rfl, rfl⟩

theorem enterMapKey_inside (key : String) (short : key.utf8ByteSize ≤ maxKeyLength)
    (shallow : outer.length + 1 < Limits.maxCborNesting) :
    Ensures (Inside (fields :: outer) true) (enterMapKey (maps decode) key) fun result reader =>
      match fields key with
      | some (.map inner) => result = .ok () ∧ Inside (inner :: fields :: outer) true reader
      | _ => result.isOk = false ∧ Inside (fields :: outer) true reader := by
  rintro ⟨_, input, error, _, _, met⟩ ⟨rfl, unpoisoned, rfl, rfl⟩
  cases error with
  | some => cases unpoisoned
  | none =>
    unfold enterMapKey guarded
    simp only [call, StateT.run, bind, StateT.bind, get, getThe, MonadStateOf.get, StateT.get, pure, StateT.pure,
      set, StateT.set, List.length_cons, if_neg (Nat.not_le.mpr shallow), if_neg (Nat.not_lt.mpr short), maps,
      List.head?_cons, Option.bind_some]
    rcases fields key with _ | (_ | _ | _ | _ | _)
    all_goals exact ⟨rfl, rfl, rfl, rfl, rfl⟩

theorem checked_gives (value : α) :
    Ensures (Inside context clean) (checked (.ok value)) fun result _ => Gives clean value result := by
  rintro ⟨_, input, error, _, _, met⟩ ⟨-, rfl, -, -⟩
  cases error with
  | none | some => exact rfl

theorem readGroupScoped_gives :
    Ensures (Inside [fields] true) (readGroupScoped (maps decode)) fun result reader =>
      (fields.scopedFits = true → result = fields.scopedError) ∧ Inside [fields] fields.scopedFits reader := by
  refine (enterMapKey_inside "err" (by decide) (by decide)).bind fun entry => ?_
  unfold Fields.scopedFits Fields.scopedError
  split
  · rename_i err _
    refine .given fun isOk => ?_
    subst isOk
    refine (getter_inside Value.asUInt64 "group" (by decide)).bind fun group => .given fun isGroup => ?_
    refine (getter_inside Value.asUInt64 "rc" (by decide)).bind fun rc => .given fun isRc => ?_
    refine leaveMap_inside.bind fun _ => ?_
    intro reader inside
    have isFound (both : ((Value.asUInt64 (err "group")).fits && (Value.asUInt64 (err "rc")).fits) = true) :
        rc = (Value.asUInt64 (err "rc")).found := by
      rw [Bool.and_eq_true] at both
      rw [isRc, both.1]
      rfl
    subst isGroup
    cases rc with
    | none => exact ⟨fun both => by rw [← isFound both]; rfl, inside⟩
    | some rc =>
      refine ⟨fun both => ?_, ?_⟩
      · rw [← isFound both]
        dsimp only
        split <;> rfl
      · dsimp only
        split <;> exact inside
  · refine .given fun refused => ?_
    cases entry with
    | ok => cases refused
    | error => exact .pure_ fun _ inside => ⟨fun _ => rfl, inside⟩

theorem withReason_gives (error : Option MgmtError) :
    Ensures (Inside [fields] clean) (decodeOutcome.withReason (maps decode) error) fun result _ =>
      Gives (clean && (Value.asText (fields "rsn")).fits) { fields.outcome with error := error } result := by
  refine (getter_inside Value.asText "rsn" (by decide)).bind fun reason => .given fun is => ?_
  cases clean with
  | true =>
    subst is
    exact checked_gives _
  | false => exact checked_gives _

theorem decodeOutcome_gives :
    Ensures (Inside [fields] true) (decodeOutcome (maps decode))
      fun result _ => Gives fields.fits fields.outcome result := by
  refine (readGroupScoped_gives).bind fun scoped_ => .given fun is => ?_
  unfold Fields.fits Fields.outcome
  cases scoped_ with
  | some error =>
    have gives := @withReason_gives decode fields fields.scopedFits (some error)
    cases fits : fields.scopedFits with
    | false =>
      rw [fits] at gives
      exact gives
    | true =>
      rw [fits] at gives
      rw [← is fits]
      exact gives
  | none =>
    refine (getter_inside Value.asInt64 "rc" (by decide)).bind fun rc => .given fun isRc => ?_
    have gives (error : Option MgmtError) :=
      @withReason_gives decode fields (fields.scopedFits && (Value.asInt64 (fields "rc")).fits) error
    cases fits : fields.scopedFits with
    | false =>
      rw [fits] at gives
      cases rc with
      | none | some => exact gives _
    | true =>
      rw [fits] at gives isRc
      rw [← is fits, Fields.flatError, ← show rc = (Value.asInt64 (fields "rc")).found from isRc]
      cases rc with
      | none | some => exact gives _

theorem extractMgmtError_gives (decode : Bytes → Fields) (payload : Bytes) :
    Gives (decode payload).fits (decode payload).outcome (extractMgmtError (maps decode) payload) :=
  @decodeOutcome_gives decode (decode payload)
    { new (maps decode) payload Limits.maxCborNesting with depth := 1, met := [.found] } ⟨rfl, rfl, rfl, rfl⟩

theorem Gives.ok_iff {value other : α} {result : Result α} (gives : Gives clean value result) :
    result = .ok other ↔ clean = true ∧ other = value := by
  cases clean with
  | true =>
    rw [show result = .ok value from gives]
    exact ⟨fun same => ⟨rfl, (Except.ok.inj same).symm⟩, fun same => same.2 ▸ rfl⟩
  | false =>
    refine ⟨fun same => ?_, nofun⟩
    rw [same] at gives
    cases gives

end

namespace Value

theorem asUInt64_fits (field : Option Value) :
    (asUInt64 field).fits = true ↔ field = none ∨ ∃ value, field = some (.unsigned value) := by
  rcases field with _ | (_ | _ | _ | _ | _) <;> simp [asUInt64, Answer.fits]

theorem asText_fits (field : Option Value) :
    (asText field).fits = true ↔ field = none ∨ ∃ text, field = some (.text text) := by
  rcases field with _ | (_ | _ | _ | _ | _) <;> simp [asText, Answer.fits]

end Value

namespace Fields
variable {fields : Fields}

theorem scoped_silent : fields.scopedFits = true ∧ fields.scopedError = none ↔
    ∀ err, fields "err" = some (.map err) → (err "rc" = none ∨ err "rc" = some (.unsigned 0)) ∧
      (err "group" = none ∨ ∃ group, err "group" = some (.unsigned group)) := by
  unfold scopedFits scopedError
  split
  · rename_i err is
    rw [Bool.and_eq_true, Value.asUInt64_fits]
    simp only [is, Option.some.injEq, Value.map.injEq, forall_eq']
    rcases err "rc" with _ | (value | _ | _ | _ | _) <;> simp [Value.asUInt64, Answer.fits, Answer.found, and_comm]
  · rename_i other
    exact ⟨fun _ err is => (other err is).elim, fun _ => ⟨rfl, rfl⟩⟩

theorem flat_silent : (Value.asInt64 (fields "rc")).fits = true ∧ fields.flatError = none ↔
    fields "rc" = none ∨ fields "rc" = some (.unsigned 0) := by
  unfold flatError
  rcases fields "rc" with _ | (value | below | _ | _ | _)
  case some.unsigned =>
    by_cases small : value.toNat < 2 ^ 63
    · rw [show Value.asInt64 (some (.unsigned value)) = .value value.toNat from if_pos small]
      simp [Answer.fits, Answer.found, ← UInt64.toNat_inj]
    · have nonzero : value ≠ 0 := by
        rintro rfl
        exact small (by decide)
      rw [show Value.asInt64 (some (.unsigned value)) = .error from if_neg small]
      simp [Answer.fits, nonzero]
  case some.negative =>
    have nonzero : (-1 - below.toNat : Int) ≠ 0 := by omega
    by_cases small : below.toNat < 2 ^ 63
    · rw [show Value.asInt64 (some (.negative below)) = .value (-1 - below.toNat) from if_pos small]
      simp [Answer.found, nonzero]
    · rw [show Value.asInt64 (some (.negative below)) = .error from if_neg small]
      simp [Answer.fits]
  all_goals simp [Value.asInt64, Answer.fits, Answer.found]

theorem scopedError_none (zero : ∀ err rc, fields "err" = some (.map err) → err "rc" = some (.unsigned rc) → rc = 0) :
    fields.scopedError = none := by
  unfold scopedError
  split
  · rename_i err isErr
    rcases isRc : err "rc" with _ | (rc | _ | _ | _ | _)
    case some.unsigned =>
      rw [zero err rc isErr isRc]
      rfl
    all_goals rfl
  · rfl

theorem flatError_some {error : MgmtError} (told : fields.flatError = some error) :
    ∃ rc, Value.asInt64 (fields "rc") = .value rc ∧ rc ≠ 0 ∧ error = { rc := UInt16.ofInt rc } := by
  unfold flatError at told
  cases answer : Value.asInt64 (fields "rc") with
  | labelNotFound | error => simp [answer, Answer.found] at told
  | value rc =>
    by_cases zero : rc = 0
    · simp [answer, Answer.found, zero] at told
    · simp only [answer, Answer.found, zero, if_false, Option.some.injEq] at told
      exact ⟨rc, rfl, zero, told.symm⟩

theorem scopedError_some {err : Fields} {rc : UInt64} {error : MgmtError} (isErr : fields "err" = some (.map err))
    (isRc : err "rc" = some (.unsigned rc)) (nonzero : rc ≠ 0) (fits : fields.scopedFits = true)
    (told : fields.outcome.error = some error) :
    ∃ group : UInt64, (err "group" = none ∧ group = 0 ∨ err "group" = some (.unsigned group)) ∧
      error = { group := group.toUInt16, rc := rc.toUInt16, groupScoped := true } := by
  simp only [scopedFits, isErr, Bool.and_eq_true, Value.asUInt64_fits] at fits
  simp only [outcome, scopedError, isErr, isRc, Value.asUInt64, Answer.found, nonzero, if_false, Option.some_or,
    Option.some.injEq] at told
  rcases fits.1 with isGroup | ⟨group, isGroup⟩
  · exact ⟨0, .inl ⟨isGroup, rfl⟩, by rw [← told, isGroup]; rfl⟩
  · exact ⟨group, .inr isGroup, by rw [← told, isGroup]; rfl⟩

end Fields

/-- A response has no error if neither `err` nor `rc` tells of one and the fields looked up have their types; `err`
comes first. -/
theorem extractMgmtError_exact (decode : Bytes → Fields) (payload : Bytes) :
    let fields := decode payload
    ((∃ reason, extractMgmtError (maps decode) payload = .ok ⟨none, reason⟩) ↔
      (∀ err, fields "err" = some (.map err) → (err "rc" = none ∨ err "rc" = some (.unsigned 0)) ∧
        (err "group" = none ∨ ∃ group, err "group" = some (.unsigned group))) ∧
      (fields "rc" = none ∨ fields "rc" = some (.unsigned 0)) ∧
      (fields "rsn" = none ∨ ∃ reason, fields "rsn" = some (.text reason))) ∧
    ∀ outcome, extractMgmtError (maps decode) payload = .ok outcome → outcome.reason.length ≤ Limits.maxReasonLength ∧
      ∀ error, outcome.error = some error →
        (∀ err rc, fields "err" = some (.map err) → err "rc" = some (.unsigned rc) → rc ≠ 0 →
          ∃ group : UInt64, (err "group" = none ∧ group = 0 ∨ err "group" = some (.unsigned group)) ∧
            error = { group := group.toUInt16, rc := rc.toUInt16, groupScoped := true }) ∧
        ((∀ err rc, fields "err" = some (.map err) → err "rc" = some (.unsigned rc) → rc = 0) →
          ∃ rc, Value.asInt64 (fields "rc") = .value rc ∧ rc ≠ 0 ∧ error = { rc := UInt16.ofInt rc }) := by
  intro fields
  have gives : Gives fields.fits fields.outcome _ := extractMgmtError_gives decode payload
  refine ⟨?_, fun outcome success => ?_⟩
  · simp only [gives.ok_iff]
    rw [← Fields.scoped_silent, ← Fields.flat_silent, ← Value.asText_fits]
    unfold Fields.fits Fields.outcome
    simp only [Bool.and_eq_true, Smp.MgmtOutcome.mk.injEq]
    cases fields.scopedError with
    | some => simp
    | none =>
      simp only [Option.isSome_none, Bool.false_or, Option.none_or]
      constructor
      · rintro ⟨reason, ⟨⟨scoped_, flat⟩, text⟩, silent, -⟩
        exact ⟨⟨scoped_, trivial⟩, ⟨flat, silent.symm⟩, text⟩
      · rintro ⟨⟨scoped_, -⟩, ⟨flat, silent⟩, text⟩
        exact ⟨_, ⟨⟨scoped_, flat⟩, text⟩, silent.symm, rfl⟩
  · obtain ⟨fits, rfl⟩ := gives.ok_iff.mp success
    simp only [Fields.fits, Bool.and_eq_true] at fits
    refine ⟨List.length_take_le .., fun error told => ⟨fun err rc isErr isRc nonzero => ?_, fun zero => ?_⟩⟩
    · exact Fields.scopedError_some isErr isRc nonzero fits.1.1 told
    · simp only [Fields.outcome, Fields.scopedError_none zero, Option.none_or] at told
      exact Fields.flatError_some told

end Smply.Cbor
