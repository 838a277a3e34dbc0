import Windshare.Content.Fragment
import Windshare.Library.FiniteMap

/-!
# The block assembler

The model of `contentflow/assembler.go` and `contentflow/assembly_capacity.go`. Reading the
clock and the answer of the budget accounts, which other assemblers share, are arguments of
the call. The reservations that a record holds in those accounts are left out.
-/

namespace Windshare.Content

open Windshare.Library Windshare.Session

structure AssemblyKey where
  operation : Identity
  record : Identity
deriving DecidableEq

structure AssemblyState where
  count : UInt32
  total : UInt32
  buffer : Bytes
  received : List Bool
  receivedCount : UInt32
  progressDeadline : Time
deriving DecidableEq

/-- The assembly that `assemblyLocked` admits. -/
def AssemblyState.new (fragment : Fragment) (now : Time) : AssemblyState where
  count := fragment.count
  total := fragment.totalLength
  buffer := List.replicate fragment.totalLength.toNat 0
  received := List.replicate fragment.count.toNat false
  receivedCount := 0
  progressDeadline := now + fragmentInactivityTimeout

/-- The writes of `acceptAuthenticated` to the assembly of a new fragment. -/
def AssemblyState.receive (state : AssemblyState) (fragment : Fragment) (now : Time) :
    AssemblyState :=
  let offset := fragment.index.toNat * maxFragmentPayloadBytes
  { state with
    buffer := state.buffer.take offset ++ fragment.payload ++
      state.buffer.drop (offset + fragment.payload.length)
    received := state.received.set fragment.index.toNat true
    receivedCount := state.receivedCount + 1
    progressDeadline := now + fragmentInactivityTimeout }

structure Assembler where
  closed : Bool
  records : FiniteMap AssemblyKey AssemblyState
  operationBytes : FiniteMap Identity UInt64
  recordTombstones : FiniteMap AssemblyKey Time
  operationTombs : FiniteMap Identity Time

/-- `AssemblyStatus` with what the result carries. -/
inductive AssemblyStatus where
  | fragmentAccepted (receivedBytes : Nat)
  | fragmentDuplicate
  | recordComplete (object : Bytes) (receivedBytes : Nat)
  | fragmentTombstoned
deriving DecidableEq

structure AssemblyResult where
  key : AssemblyKey
  status : AssemblyStatus
deriving DecidableEq

/-- What the budget accounts answer when they refuse. -/
inductive ReserveError where
  | budget
  | closed
deriving DecidableEq, Repr

def ReserveError.fragmentError : ReserveError → FragmentError
  | .budget => .reassemblyBudget
  | .closed => .reassemblyClosed

def newAssembler : Assembler := ⟨false, .empty, .empty, .empty, .empty⟩

namespace Assembler

variable (a : Assembler)

/-! ### Release and termination -/

/-- The byte count of an operation, zero without an entry. -/
def bytesOf (operationID : Identity) : UInt64 := (a.operationBytes.get? operationID).getD 0

def releaseRecord (key : AssemblyKey) : Assembler :=
  match a.records.get? key with
  | none => a
  | some state =>
    { a with
      records := a.records.erase key
      operationBytes :=
        if a.bytesOf key.operation - state.total.toUInt64 = 0 then
          a.operationBytes.erase key.operation
        else
          a.operationBytes.insert key.operation (a.bytesOf key.operation - state.total.toUInt64) }

/-- The loops that release records, over a listing of them. -/
def releaseWhere (p : AssemblyKey → Bool) (listing : List (AssemblyKey × AssemblyState)) :
    Assembler :=
  listing.foldl (fun a (key, _) => if p key then a.releaseRecord key else a) a

def terminateOperation (operationID : Identity) (now : Time) :
    Assembler × Except FragmentError Unit :=
  let a := a.releaseWhere (fun key => key.operation = operationID) a.records.entries
  if a.operationTombs.get? operationID = none ∧
      a.recordTombstones.size + a.operationTombs.size ≥ maxFragmentTombstones then
    (a, .error .reassemblyBudget)
  else
    ({ a with operationTombs := a.operationTombs.insert operationID (now + fragmentTombstone) },
      .ok ())

/-- `pruneLocked`. -/
def prune (now : Time) : Assembler :=
  { a with
    recordTombstones := a.recordTombstones.filter fun _ expiry => now < expiry
    operationTombs := a.operationTombs.filter fun _ expiry => now < expiry }

/-! ### Fragments -/

/-- `assemblyLocked`. `hasCapacity` says whether the caller brought a reservation, and
`reserve` what the accounts answer otherwise. -/
def assembly (key : AssemblyKey) (fragment : Fragment) (hasCapacity : Bool)
    (reserve : Except ReserveError Unit) (now : Time) :
    Assembler × Except FragmentError AssemblyState :=
  match a.records.get? key with
  | some state =>
    if state.count ≠ fragment.count ∨ state.total ≠ fragment.totalLength then
      ((a.terminateOperation fragment.operationID now).1, .error .conflict)
    else (a, .ok state)
  | none =>
    if a.records.size + a.recordTombstones.size + a.operationTombs.size ≥
        maxFragmentTombstones then (a, .error .reassemblyBudget)
    else if fragment.totalLength.toUInt64 >
        maxOperationReassemblyBytes - a.bytesOf fragment.operationID then
      ((a.terminateOperation fragment.operationID now).1, .error .reassemblyBudget)
    else
      match hasCapacity, reserve with
      | false, .error e => (a, .error e.fragmentError)
      | _, _ =>
        ({ a with
          records := a.records.insert key (.new fragment now)
          operationBytes := a.operationBytes.insert fragment.operationID
            (a.bytesOf fragment.operationID + fragment.totalLength.toUInt64) },
          .ok (.new fragment now))

/-- `acceptAuthenticated` once the assembly of the fragment is there. -/
def place (sha256 : Bytes → Bytes) (key : AssemblyKey) (fragment : Fragment)
    (state : AssemblyState) (now : Time) : Assembler × Except FragmentError AssemblyResult :=
  let offset := fragment.index.toNat * maxFragmentPayloadBytes
  if offset + fragment.payload.length > state.buffer.length then
    ((a.terminateOperation fragment.operationID now).1, .error .conflict)
  else if state.received[fragment.index.toNat]?.getD false then
    if (state.buffer.drop offset).take fragment.payload.length ≠ fragment.payload then
      ((a.terminateOperation fragment.operationID now).1, .error .conflict)
    else (a, .ok ⟨key, .fragmentDuplicate⟩)
  else
    let state := state.receive fragment now
    let a := { a with records := a.records.insert key state }
    if state.receivedCount ≠ state.count then
      (a, .ok ⟨key, .fragmentAccepted fragment.payload.length⟩)
    else if recordDigestMatches sha256 fragment.recordID state.buffer = false then
      ((a.terminateOperation fragment.operationID now).1, .error .recordDigest)
    else
      let a := a.releaseRecord key
      ({ a with recordTombstones := a.recordTombstones.insert key (now + fragmentTombstone) },
        .ok ⟨key, .recordComplete state.buffer fragment.payload.length⟩)

/-- A live assembly of the operation made no progress in time. -/
def timedOut (operationID : Identity) (now : Time) : Bool :=
  a.records.entries.any fun (key, state) =>
    key.operation = operationID ∧ ¬ now < state.progressDeadline

/-- `acceptAuthenticated` after its checks of the capacity. -/
def acceptFragment (sha256 : Bytes → Bytes) (fragment : Fragment) (hasCapacity : Bool)
    (reserve : Except ReserveError Unit) (now : Time) :
    Assembler × Except FragmentError AssemblyResult :=
  let a := a.prune now
  if a.timedOut fragment.operationID now then
    ((a.terminateOperation fragment.operationID now).1, .error .inactivity)
  else
    let key : AssemblyKey := ⟨fragment.operationID, fragment.recordID⟩
    if a.operationTombs.get? fragment.operationID ≠ none then (a, .ok ⟨key, .fragmentTombstoned⟩)
    else if a.recordTombstones.get? key ≠ none then (a, .ok ⟨key, .fragmentTombstoned⟩)
    else
      match a.assembly key fragment hasCapacity reserve now with
      | (a, .error e) => (a, .error e)
      | (a, .ok state) => a.place sha256 key fragment state now

def acceptAuthenticated (sha256 : Bytes → Bytes) (plaintext : Bytes)
    (reserve : Except ReserveError Unit) (now : Time) :
    Assembler × Except FragmentError AssemblyResult :=
  match decodeAuthenticatedFragment plaintext with
  | .error e => (a, .error e)
  | .ok fragment =>
    if a.closed then (a, .error .assemblerClosed)
    else a.acceptFragment sha256 fragment false reserve now

/-! ### Operations -/

def cancelOperation (operationID : Identity) (now : Time) : Assembler × Except FragmentError Unit :=
  if operationID.isZero then (a, .error .malformed)
  else if a.closed then (a, .error .assemblerClosed)
  else (a.prune now).terminateOperation operationID now

def completeOperation (operationID : Identity) (now : Time) :
    Assembler × Except FragmentError Unit := a.cancelOperation operationID now

/-- `SweepTimeouts`, with the operations that timed out in the order the map lists them. -/
def sweepTimeouts (timedOut : List Identity) (now : Time) : Assembler × List Identity :=
  let a := a.prune now
  if a.closed then (a, [])
  else
    (timedOut.foldl (fun a operationID => (a.terminateOperation operationID now).1) a,
      timedOut.mergeSort fun left right => left.bytes ≤ right.bytes)

def close : Assembler :=
  if a.closed then a
  else
    { a.releaseWhere (fun _ => true) a.records.entries with
      closed := true
      recordTombstones := .empty
      operationTombs := .empty
      operationBytes := .empty }

end Assembler

/-! ### Capacity -/

/-- `AssemblyCapacity`; its operation is zero until a fragment claims it. -/
structure AssemblyCapacity where
  bytes : UInt64
  operation : Identity
  record : Identity
  released : Bool
deriving DecidableEq

namespace AssemblyCapacity

/-- The checks of `acceptAuthenticated` on the capacity it is given. -/
def claim (capacity : AssemblyCapacity) (fragment : Fragment) :
    Except FragmentError AssemblyCapacity :=
  if capacity.released then .error .assemblerClosed
  else if fragment.totalLength.toUInt64 > capacity.bytes then .error .reassemblyBudget
  else if capacity.operation.isZero then
    .ok { capacity with operation := fragment.operationID, record := fragment.recordID }
  else if capacity.operation ≠ fragment.operationID ∨ capacity.record ≠ fragment.recordID then
    .error .conflict
  else .ok capacity

def acceptAuthenticated (capacity : AssemblyCapacity) (a : Assembler) (sha256 : Bytes → Bytes)
    (plaintext : Bytes) (now : Time) :
    AssemblyCapacity × Assembler × Except FragmentError AssemblyResult :=
  match decodeAuthenticatedFragment plaintext with
  | .error e => (capacity, a, .error e)
  | .ok fragment =>
    if a.closed then (capacity, a, .error .assemblerClosed)
    else
      match capacity.claim fragment with
      | .error e => (capacity, a, .error e)
      | .ok capacity => (capacity, a.acceptFragment sha256 fragment true (.ok ()) now)

def release (capacity : AssemblyCapacity) (a : Assembler) (now : Time) :
    AssemblyCapacity × Assembler :=
  if capacity.released then (capacity, a)
  else
    ({ capacity with released := true },
      if capacity.operation.isZero = false ∧ a.closed = false then
        (a.terminateOperation capacity.operation now).1
      else a)

end AssemblyCapacity

end Windshare.Content
