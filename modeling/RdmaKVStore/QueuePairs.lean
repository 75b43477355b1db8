import Mathlib.Data.List.Basic

/-!
# States of queue pairs

A queue pair is created in RESET and taken through INIT and RTR (ready to
receive) to RTS (ready to send), one call of `ibv_modify_qp` for each state.
The call names the attributes that it sets; the transport says which ones a
transition needs.
-/

namespace RdmaKVStore

/-- `enum ibv_qp_type` -/
inductive QpType
  | rc
  | uc
  | ud
  deriving DecidableEq

/-- The states of `enum ibv_qp_state` that lead to a usable queue pair. -/
inductive QpState
  | reset
  | init
  | rtr
  | rts
  deriving DecidableEq

/-- The bits of an attribute mask but for `IBV_QP_STATE`. -/
inductive QpField
  | pkeyIndex
  | port
  | qkey
  | accessFlags
  | av
  | pathMtu
  | destQpn
  | rqPsn
  | sqPsn
  | maxDestRdAtomic
  | minRnrTimer
  | maxQpRdAtomic
  | retryCnt
  | rnrRetry
  | timeout
  deriving DecidableEq

/-- The attributes that a transition needs; `none` if the states do not follow
each other. -/
def QpType.required (type : QpType) : QpState → QpState →
    Option (List QpField)
  | .reset, .init => some (match type with
      | .rc | .uc => [.pkeyIndex, .port, .accessFlags]
      | .ud => [.pkeyIndex, .port, .qkey])
  | .init, .rtr => some (match type with
      | .rc => [.av, .pathMtu, .destQpn, .rqPsn, .maxDestRdAtomic,
          .minRnrTimer]
      | .uc => [.av, .pathMtu, .destQpn, .rqPsn]
      | .ud => [])
  | .rtr, .rts => some (match type with
      | .rc => [.sqPsn, .maxQpRdAtomic, .retryCnt, .rnrRetry, .timeout]
      | .uc | .ud => [.sqPsn])
  | _, _ => none

/-- The attributes that say where a queue pair sends to and with which packet
numbers either direction starts. -/
structure QpValues where
  dlid : UInt16
  destQpn : UInt32
  rqPsn : UInt32
  sqPsn : UInt32
  deriving DecidableEq

/-- A structure cleared by `memset` or left out of an initializer. -/
def QpValues.zero : QpValues where
  dlid := 0
  destQpn := 0
  rqPsn := 0
  sqPsn := 0

structure QueuePair where
  type : QpType
  state : QpState
  values : QpValues
  deriving DecidableEq

namespace QueuePair

/-- `ibv_create_qp` -/
def create (type : QpType) : QueuePair where
  type := type
  state := .reset
  values := .zero

variable (qp : QueuePair)

/-- `ibv_modify_qp` as the device understands it: the attributes in the mask
are set; `none` if the transition is not possible or lacks an attribute. -/
def modify (target : QpState) (values : QpValues) (mask : List QpField) :
    Option QueuePair :=
  match qp.type.required qp.state target with
  | none => none
  | some required =>
      if required ⊆ mask then
        some { qp with
          state := target
          values :=
            { dlid := if .av ∈ mask then values.dlid else qp.values.dlid
              destQpn :=
                if .destQpn ∈ mask then values.destQpn else qp.values.destQpn
              rqPsn := if .rqPsn ∈ mask then values.rqPsn else qp.values.rqPsn
              sqPsn :=
                if .sqPsn ∈ mask then values.sqPsn else qp.values.sqPsn } }
      else none

def Receives : Prop :=
  qp.state = .rtr ∨ qp.state = .rts

instance : Decidable qp.Receives :=
  inferInstanceAs (Decidable (_ ∨ _))

end QueuePair

end RdmaKVStore
