import Deployment.Json.Number
import Deployment.Json.Quoted

/-! # Passing over values

The value of a field that no one asks for is passed over. It may be nested to any depth, so the
lists and objects that are open are kept on a stack.

* **`Reader.passValue`** — pass over one value. -/

namespace Deployment.Json

/-- What is open around a value that is passed over. -/
inductive Frame where
  | list
  | object
  deriving DecidableEq

namespace Reader

mutual

/-- Pass over a value inside the frames that are open, innermost first, and all that follows it up
to the end of the outermost frame. Every step passes over a byte, which bounds `fuel`. -/
def passInside : Nat → List Frame → Reader Unit
  | 0, _ => failHere .eofInValue
  | fuel + 1, frames => do
    match ← peekToken with
    | none => failNext .eofInValue
    | some b =>
      if b = 0x6E then do skip; passWord [0x75, 0x6C, 0x6C]; passAfter fuel true frames
      else if b = 0x74 then do skip; passWord [0x72, 0x75, 0x65]; passAfter fuel true frames
      else if b = 0x66 then do
        skip; passWord [0x61, 0x6C, 0x73, 0x65]; passAfter fuel true frames
      else if b = 0x2D || isDigit b then do passNumber; passAfter fuel true frames
      else if b = 0x22 then do skip; passQuoted; passAfter fuel true frames
      else if b = 0x5B then do skip; passAfter fuel false (.list :: frames)
      else if b = 0x7B then do skip; passAfter fuel false (.object :: frames)
      else failNext .expectedValue

/-- Pass over what follows a value (`comma`) or an opening bracket. -/
def passAfter : Nat → Bool → List Frame → Reader Unit
  | _, _, [] => pure ()
  | 0, _, _ :: _ => failHere .eofInValue
  | fuel + 1, comma, frame :: frames => do
    match ← peekToken with
    | none => failNext (if frame = .list then .eofInList else .eofInObject)
    | some b =>
      if b = 0x2C && comma then do skip; passMember fuel frame frames
      else if (b = 0x5D && frame = .list) || (b = 0x7D && frame = .object) then do
        skip; passAfter fuel true frames
      else if comma then
        failNext (if frame = .list then .expectedListCommaOrEnd else .expectedObjectCommaOrEnd)
      else passMember fuel frame frames

/-- Pass over an item of a list, or a key and its value. -/
def passMember : Nat → Frame → List Frame → Reader Unit
  | 0, _, _ => failHere .eofInValue
  | fuel + 1, .list, frames => passInside fuel (.list :: frames)
  | fuel + 1, .object, frames => do
    match ← peekToken with
    | none => failNext .eofInObject
    | some b =>
      if b ≠ 0x22 then failNext .keyMustBeString
      else
        skip
        passQuoted
        match ← peekToken with
        | none => failNext .eofInObject
        | some b =>
          if b ≠ 0x3A then failNext .expectedColon
          else do skip; passInside fuel (.object :: frames)

end

/-- Pass over one value. -/
def passValue : Reader Unit := do passInside (3 * (← remaining) + 3) []

end Reader

end Deployment.Json
