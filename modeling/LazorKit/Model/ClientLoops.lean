import LazorKit.Model.Webauthn

/-! # The client data scanner, loop by loop

`extractTopLevelStringField` is written with recursive functions whose fuel is the length of the text, and it
reads the text through lookups that cannot fail. Here the scanner is a machine with one point for each of its
`while` loops, the loop's variables as arguments, and one step for each round. Indexing and slicing the text
panic out of range, as in the source, and nothing bounds the number of steps.
-/

namespace LazorKit

open Solana

/-- The head of a loop, with the variables that are live there. -/
inductive LoopHead where
  | leading (i : ℕ)
  | fields (depth cursor : ℕ)
  | key (depth keyStart keyEnd : ℕ)
  | beforeColon (depth keyStart keyEnd cursor : ℕ)
  | afterColon (depth keyStart keyEnd cursor : ℕ)
  | value (valueStart valueEnd : ℕ)
  | stringValue (depth cursor : ℕ)
  | otherValue (depth nest cursor : ℕ)
  | innerString (depth nest cursor : ℕ)

/-- What one round leads to. -/
inductive LoopStep where
  | continue (head : LoopHead)
  | return (result : Except ProgramError Bytes)
  | panic

namespace ClientLoops

variable (json fieldName : Bytes)

/-- `json[index]`. -/
def index (index : ℕ) (next : UInt8 → LoopStep) : LoopStep :=
  match json[index]? with
  | some byte => next byte
  | none => .panic

/-- `&json[start..stop]`. -/
def slice (start stop : ℕ) (next : Bytes → LoopStep) : LoopStep :=
  if start ≤ stop ∧ stop ≤ json.length then next (json.slice start (stop - start)) else .panic

def invalid : LoopStep := .return (.error ↑AuthError.invalidMessage)

/-- Behind the white space in front of the object. -/
def enter (i : ℕ) : LoopStep :=
  if json.length ≤ i then invalid
  else index json i fun byte => if byte ≠ 123 then invalid else .continue (.fields 0 i)

/-- Behind the white space in front of the colon. -/
def colon (depth keyStart keyEnd cursor : ℕ) : LoopStep :=
  if json.length ≤ cursor then invalid
  else index json cursor fun byte =>
    if byte ≠ 58 then invalid else .continue (.afterColon depth keyStart keyEnd (cursor + 1))

/-- Behind the white space after the colon: the key is compared, and the value's first byte decides. -/
def dispatch (depth keyStart keyEnd cursor : ℕ) : LoopStep :=
  if json.length ≤ cursor then invalid
  else slice json keyStart keyEnd fun key =>
    if key = fieldName then
      index json cursor fun byte => if byte ≠ 34 then invalid else .continue (.value (cursor + 1) (cursor + 1))
    else index json cursor fun byte =>
      if byte = 34 then .continue (.stringValue depth (cursor + 1)) else .continue (.otherValue depth 0 cursor)

/-- One round. -/
def step : LoopHead → LoopStep
  | .leading i =>
    if i < json.length then index json i fun byte =>
      if isAsciiWhitespace byte then .continue (.leading (i + 1)) else enter json i
    else enter json i
  | .fields depth cursor =>
    if cursor < json.length then index json cursor fun byte =>
      if byte = 123 then .continue (.fields (depth + 1) (cursor + 1))
      else if byte = 125 then
        if depth = 0 then invalid else .continue (.fields (depth - 1) (cursor + 1))
      else if depth = 1 ∧ byte = 34 then .continue (.key depth (cursor + 1) (cursor + 1))
      else .continue (.fields depth (cursor + 1))
    else invalid
  | .key depth keyStart keyEnd =>
    if keyEnd < json.length then index json keyEnd fun byte =>
      if byte = 34 then .continue (.beforeColon depth keyStart keyEnd (keyEnd + 1))
      else if byte = 92 then invalid
      else .continue (.key depth keyStart (keyEnd + 1))
    else invalid
  | .beforeColon depth keyStart keyEnd cursor =>
    if cursor < json.length then index json cursor fun byte =>
      if isAsciiWhitespace byte then .continue (.beforeColon depth keyStart keyEnd (cursor + 1))
      else colon json depth keyStart keyEnd cursor
    else colon json depth keyStart keyEnd cursor
  | .afterColon depth keyStart keyEnd cursor =>
    if cursor < json.length then index json cursor fun byte =>
      if isAsciiWhitespace byte then .continue (.afterColon depth keyStart keyEnd (cursor + 1))
      else dispatch json fieldName depth keyStart keyEnd cursor
    else dispatch json fieldName depth keyStart keyEnd cursor
  | .value valueStart valueEnd =>
    if valueEnd < json.length then index json valueEnd fun byte =>
      if byte = 34 then slice json valueStart valueEnd fun value => .return (.ok value)
      else if byte = 92 then invalid
      else .continue (.value valueStart (valueEnd + 1))
    else invalid
  | .stringValue depth cursor =>
    if cursor < json.length then index json cursor fun byte =>
      if byte = 34 then .continue (.fields depth (cursor + 1))
      else if byte = 92 then invalid
      else .continue (.stringValue depth (cursor + 1))
    else .continue (.fields depth cursor)
  | .otherValue depth nest cursor =>
    if cursor < json.length then index json cursor fun byte =>
      if byte = 34 then .continue (.innerString depth nest (cursor + 1))
      else if byte = 123 ∨ byte = 91 then .continue (.otherValue depth (nest + 1) (cursor + 1))
      else if byte = 125 ∨ byte = 93 then
        if nest = 0 then .continue (.fields depth cursor) else .continue (.otherValue depth (nest - 1) (cursor + 1))
      else if byte = 44 ∧ nest = 0 then .continue (.fields depth cursor)
      else .continue (.otherValue depth nest (cursor + 1))
    else .continue (.fields depth cursor)
  | .innerString depth nest cursor =>
    if cursor < json.length then index json cursor fun byte =>
      if byte = 34 then .continue (.otherValue depth nest (cursor + 1))
      else if byte = 92 then invalid
      else .continue (.innerString depth nest (cursor + 1))
    else .continue (.otherValue depth nest cursor)

/-- The loops end, without a panic, and return this. -/
inductive Yields : LoopHead → Except ProgramError Bytes → Prop where
  | return {head : LoopHead} {result : Except ProgramError Bytes} (done : step json fieldName head = .return result) :
      Yields head result
  | continue {head next : LoopHead} {result : Except ProgramError Bytes}
      (round : step json fieldName head = .continue next) (rest : Yields next result) : Yields head result

end ClientLoops

end LazorKit
