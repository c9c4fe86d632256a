import Mathlib

namespace Smply

abbrev Bytes := List UInt8

/-- Both count the same clock tick; the source never compares across units. -/
abbrev TimePoint := Int
abbrev Duration := Int

/-- Open on the wire: any 16-bit value is legal and round-trips. -/
abbrev Group := UInt16

def Group.os : Group := 0
def Group.image : Group := 1
def Group.perUser : Group := 64

def isUserDefined (group : Group) : Bool := Group.perUser ≤ group

inductive ErrorCode where
  | ok
  | invalidArgument
  | invalidState
  | malformedMessage
  | unsupportedSmpVersion
  | messageTooLarge
  | cborEncode
  | cborDecode
  | protocolError
  | unexpectedResponse
  | timeout
  | cancelled
  | transportError
  | transportBusy
  | disconnected
  | imageMismatch
  | updateFailed
  | updateRefused
  | internal
  deriving DecidableEq, Repr

structure MgmtError where
  group : Group := Group.os
  rc : UInt16 := 0
  groupScoped : Bool := false
  deriving DecidableEq, Repr

/-- `where_` is the call-site tag. The OS diagnostic, which adapters set, is left out. -/
structure Error where
  code : ErrorCode := .ok
  mgmt : Option MgmtError := none
  reason : Bytes := []
  where_ : Option String := none
  deriving DecidableEq, Repr

def Error.at (code : ErrorCode) (site : String) : Error := { code := code, where_ := some site }

abbrev Result := Except Error

/-- Not the error that stands for a defect of the library. -/
def Error.Plain (error : Error) : Prop := error.code ≠ .internal

def PlainResult {α : Type} (result : Result α) : Prop := ∀ error, result = .error error → error.Plain

theorem plain_ok {α : Type} (value : α) : PlainResult (.ok value) := fun _ => nofun

theorem plain_error {α : Type} {error : Error} (plain : error.Plain) : PlainResult (.error error : Result α) := by
  intro other same
  cases same
  exact plain

theorem PlainResult.bind {α β : Type} {result : Result α} {next : α → Result β} (plain : PlainResult result)
    (rest : ∀ value, PlainResult (next value)) : PlainResult (result.bind next) := by
  cases result with
  | error error => exact plain_error (plain error rfl)
  | ok value => exact rest value

theorem PlainResult.map {α β : Type} {result : Result α} (function : α → β) (plain : PlainResult result) :
    PlainResult (result.map function) := by
  cases result with
  | error error => exact plain_error (plain error rfl)
  | ok => exact plain_ok _

/-- `mcumgr_err_t`, kept numeric because later releases add codes. -/
abbrev SmpError := UInt16

def SmpError.noMemory : SmpError := 2
def SmpError.badState : SmpError := 6
def SmpError.busy : SmpError := 10

abbrev ImageError := UInt16

def ImageError.imageAlreadyPending : ImageError := 28

def smpError (error : Error) : Option SmpError :=
  match error.mgmt with
  | none => none
  | some mgmt => if mgmt.groupScoped then none else some mgmt.rc

def imageError (error : Error) : Option ImageError :=
  match error.mgmt with
  | none => none
  | some mgmt => if !mgmt.groupScoped || mgmt.group != Group.image then none else some mgmt.rc

end Smply
