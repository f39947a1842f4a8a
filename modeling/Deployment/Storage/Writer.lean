import Deployment.Storage.FileTree

/-! # Writing a file piece by piece

A writer collects small pieces in a buffer and hands them over together. What is handed over is
written in the background, so that a fault is met with the next piece or when the file is closed.

* **`Writer`** — a file that is being written.
* **`Writer.open`**, **`Writer.append`**, **`Writer.close`** — its life. -/

namespace Deployment

/-- A file that is being written. -/
structure Writer where
  sink : Sink
  /-- How many bytes were handed over. -/
  offset : Nat := 0
  /-- What was not handed over yet. -/
  buffer : List UInt8 := []
  /-- The fault of what was handed over last. -/
  fault : Option StorageFault := none
  deriving DecidableEq, Repr

namespace Writer

/-- How many bytes the buffer takes. -/
def capacity : Nat := 8192

/-- How many bytes are handed over at once at most. -/
def maxPiece : Nat := 2097152

/-- Open a file to be written from its start. -/
def «open» (path : String) : Files Writer := do return { sink := ← Files.create path }

/-- Fail with the fault of what was handed over last. -/
def check (w : Writer) : Files Unit :=
  match w.fault with
  | some f => throw f
  | none => pure ()

/-- Hand bytes over to be written. -/
def handOver (w : Writer) (bytes : List UInt8) : Files Writer := do
  w.check
  fun t => match Files.writeAt w.sink w.offset bytes t with
    | .ok () t' => .ok { w with offset := w.offset + bytes.length } t'
    | .error f t' => .ok { w with fault := some f } t'

/-- Hand over what is in the buffer. -/
def flush (w : Writer) : Files Writer :=
  if w.buffer.isEmpty then pure w
  else do
    let w ← w.handOver w.buffer
    return { w with buffer := [] }

/-- Take bytes that the buffer has room for, or that come while it is empty. -/
def take (w : Writer) (bytes : List UInt8) : Files Writer :=
  if _h : bytes.length < capacity then pure { w with buffer := w.buffer ++ bytes }
  else do
    let w ← w.handOver (bytes.take maxPiece)
    w.take (bytes.drop maxPiece)
termination_by bytes.length
decreasing_by simp [capacity, maxPiece] at *; omega

/-- Append bytes. -/
def append (w : Writer) (bytes : List UInt8) : Files Writer := do
  let w ← if capacity < w.buffer.length + bytes.length then w.flush else pure w
  w.take bytes

/-- Write what is left, and meet the last fault. -/
def close (w : Writer) : Files Unit := do
  let w ← w.flush
  w.check

end Writer

end Deployment
