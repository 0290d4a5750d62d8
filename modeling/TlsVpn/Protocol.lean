import TlsVpn.Words

/-!
The protocol-v3 control records of protocol.rs that FEC depends on: the typed
control kinds, FEC_MODE and its two state machines. The receiver keeps a fence
window packed into one atomic word; here its two halves are two fields, as every
access reads or writes both at once.
-/

namespace TlsVpn.Protocol

open Words

def protocolVersion : Int := 3

def controlKindFecParity : UInt8 := 0x01

def controlKindFecMode : UInt8 := 0x02

def fecModeSuspend : UInt8 := 1

def fecModeResume : UInt8 := 2

def fecModeWireLen : Nat := 16

/-- `{:02x}`. -/
def hexByte (byte : UInt8) : String :=
  String.ofList [Nat.digitChar (byte.toNat / 16), Nat.digitChar (byte.toNat % 16)]

def controlKind (payload : List UInt8) : Except String UInt8 :=
  match payload with
  | [] => .error "empty payload is KEEPALIVE, not a typed control"
  | kind :: _ =>
    if kind = controlKindFecParity ∨ kind = controlKindFecMode then .ok kind
    else .error ("unsupported protocol-v3 control kind 0x" ++ hexByte kind)

structure FecModeControl where
  generation : Nat
  op : UInt8
  boundary : Nat
  deriving DecidableEq

def FecModeControl.encode (control : FecModeControl) : List UInt8 :=
  [controlKindFecMode, control.op, 0, 0] ++ be64 control.generation ++ be32 control.boundary

def FecModeControl.parse (payload : List UInt8) : Except String FecModeControl :=
  if payload.length ≠ fecModeWireLen then
    .error ("FEC_MODE length " ++ toString payload.length ++ " != " ++ toString fecModeWireLen)
  else if payload.getD 0 0 ≠ controlKindFecMode then
    .error ("not FEC_MODE control kind 0x" ++ hexByte (payload.getD 0 0))
  else if payload.getD 2 0 ≠ 0 ∨ payload.getD 3 0 ≠ 0 then
    .error "FEC_MODE flags must be zero in protocol v3"
  else
    let op := payload.getD 1 0
    if op ≠ fecModeSuspend ∧ op ≠ fecModeResume then
      .error ("invalid FEC_MODE op " ++ toString op.toNat)
    else
      let generation := readBe64 (payload.drop 4)
      let boundary := readBe32 (payload.drop 12)
      if generation = 0 ∨ boundary = 0 then
        .error "FEC_MODE generation and boundary must be non-zero"
      else .ok ⟨generation, op, boundary⟩

def clampGroup (k : Nat) : Nat := max 2 (min k 64)

def fecGroupStart (seq k : Nat) : Nat :=
  if seq = 0 then 0 else seq - (seq - 1) % clampGroup k

def fecNextGroupStart (seq k : Nat) : Nat :=
  if seq = 0 then 0 else
    let offset := (seq - 1) % clampGroup k
    if offset = 0 then seq else
      let next := seq + (clampGroup k - offset)
      if next ≤ u32Max then next else 0

section Receiver

structure FecRxFenceState where
  generation : Nat
  windowFrom : Nat
  windowUntil : Nat
  deriving DecidableEq

def FecRxFenceState.default : FecRxFenceState := ⟨0, 0, 0⟩

/-- `apply`; `none` is a refused control, which leaves the state as it was. -/
def FecRxFenceState.apply (fence : FecRxFenceState) (control : FecModeControl) :
    Option FecRxFenceState :=
  if control.generation = 0 ∨ control.boundary = 0 ∨
      (control.op ≠ fecModeSuspend ∧ control.op ≠ fecModeResume) then none
  else if control.generation ≤ fence.generation then none
  else if control.op = fecModeSuspend then some ⟨control.generation, control.boundary, 0⟩
  else if fence.windowFrom = 0 ∨ control.boundary ≤ fence.windowFrom then
    some ⟨control.generation, 0, 0⟩
  else some ⟨control.generation, fence.windowFrom, control.boundary⟩

/-- `apply_actor`, which repeats `apply` for the owner of the state: it reads the
window before it looks at the generation. -/
def FecRxFenceState.applyActor (fence : FecRxFenceState) (control : FecModeControl) :
    Option FecRxFenceState :=
  if control.generation = 0 ∨ control.boundary = 0 ∨
      (control.op ≠ fecModeSuspend ∧ control.op ≠ fecModeResume) then none
  else
    let windowFrom := fence.windowFrom
    if control.generation ≤ fence.generation then none
    else if control.op = fecModeSuspend then some ⟨control.generation, control.boundary, 0⟩
    else if windowFrom = 0 ∨ control.boundary ≤ windowFrom then some ⟨control.generation, 0, 0⟩
    else some ⟨control.generation, windowFrom, control.boundary⟩

theorem FecRxFenceState.applyActor_eq (fence : FecRxFenceState) (control : FecModeControl) :
    fence.applyActor control = fence.apply control := rfl

def FecRxFenceState.bypassData (fence : FecRxFenceState) (seq : Nat) : Bool :=
  seq ≠ 0 && fence.windowFrom ≠ 0 && fence.windowFrom ≤ seq &&
    (fence.windowUntil = 0 || seq < fence.windowUntil)

end Receiver

section Sender

structure FecTxModeState where
  seenMultipath : Bool
  suspended : Bool
  generation : Nat
  current : Option FecModeControl
  deriving DecidableEq

def FecTxModeState.default : FecTxModeState := ⟨false, false, 0, none⟩

def nextGeneration (generation : Nat) : Nat := max (saturatingAdd generation 1) 1

def FecTxModeState.observe (mode : FecTxModeState) (paths seq k : Nat) :
    FecTxModeState × Option FecModeControl :=
  if paths ≥ 2 then
    if !mode.seenMultipath then ({ mode with seenMultipath := true }, none)
    else if mode.suspended then
      let boundary := fecNextGroupStart seq k
      if boundary = 0 then (mode, none) else
        let control := ⟨nextGeneration mode.generation, fecModeResume, boundary⟩
        ({ mode with
          generation := nextGeneration mode.generation
          suspended := false
          current := some control }, some control)
    else (mode, none)
  else if paths = 1 ∧ mode.seenMultipath ∧ !mode.suspended then
    let control := ⟨nextGeneration mode.generation, fecModeSuspend, fecGroupStart seq k⟩
    ({ mode with
      generation := nextGeneration mode.generation
      suspended := true
      current := some control }, some control)
  else (mode, none)

end Sender

end TlsVpn.Protocol
