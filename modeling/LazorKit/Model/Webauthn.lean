import LazorKit.Model.Error

/-! # WebAuthn parsing

The pieces of a passkey assertion the program reads: the authenticator data's fixed prefix, and two
string members of the client data JSON, found by a scanner that tracks depth and refuses escapes.
The expected challenge is compared as unpadded base64url text.
-/

namespace LazorKit

open Solana

/-- `A–Z a–z 0–9 - _`. -/
def base64urlAlphabet : Bytes :=
  [65, 66, 67, 68, 69, 70, 71, 72, 73, 74, 75, 76, 77, 78, 79, 80, 81, 82, 83, 84, 85, 86, 87, 88, 89,
    90, 97, 98, 99, 100, 101, 102, 103, 104, 105, 106, 107, 108, 109, 110, 111, 112, 113, 114, 115,
    116, 117, 118, 119, 120, 121, 122, 48, 49, 50, 51, 52, 53, 54, 55, 56, 57, 45, 95]

/-- The alphabet letter of the six bits of a 24-bit group that start at `shift`. -/
def base64urlLetter (group shift : ℕ) : UInt8 := base64urlAlphabet.getD (group >>> shift &&& 0x3f) 0

/-- Base64url without padding, three bytes to four letters. -/
def base64urlEncodeNoPad : Bytes → Bytes
  | [] => []
  | [a] =>
    let group := a.toNat <<< 16
    [base64urlLetter group 18, base64urlLetter group 12]
  | [a, b] =>
    let group := a.toNat <<< 16 ||| b.toNat <<< 8
    [base64urlLetter group 18, base64urlLetter group 12, base64urlLetter group 6]
  | a :: b :: c :: rest =>
    let group := a.toNat <<< 16 ||| b.toNat <<< 8 ||| c.toNat
    base64urlLetter group 18 :: base64urlLetter group 12 :: base64urlLetter group 6 ::
      base64urlLetter group 0 :: base64urlEncodeNoPad rest

/-- Equality by accumulating the differences, so that the time does not depend on where they are. -/
def ctEq (a b : Bytes) : Bool :=
  if a.length ≠ b.length then false
  else (List.zipWith (· ^^^ ·) a b).foldl (· ||| ·) 0 == 0

/-- `rpIdHash(32) flags(1) counter(4)`. -/
def authDataMinLen : ℕ := 37

/-- Authenticator data long enough for its fixed prefix. -/
structure AuthDataParser where
  data : Bytes
  length_data : authDataMinLen ≤ data.length

namespace AuthDataParser

def new (data : Bytes) : Except ProgramError AuthDataParser :=
  if fits : authDataMinLen ≤ data.length then .ok ⟨data, fits⟩
  else .error ↑AuthError.invalidAuthorityPayload

def rpIdHash (parser : AuthDataParser) : Bytes := parser.data.slice 0 32
def isUserPresent (parser : AuthDataParser) : Bool := parser.data.byte 32 &&& 0x01 ≠ 0

end AuthDataParser

/-- `u8::is_ascii_whitespace`. -/
def isAsciiWhitespace (b : UInt8) : Bool := b = 32 ∨ b = 9 ∨ b = 10 ∨ b = 12 ∨ b = 13

/-- `json[index]`, which panics out of range. -/
def indexByte (json : Bytes) (index : ℕ) : Except ProgramError UInt8 :=
  Except.ofOption (.runtime .programPanicked) json[index]?

/-- The first position from `cursor` on that is not whitespace. -/
def skipWhitespace (json : Bytes) : ℕ → ℕ → ℕ
  | 0, cursor => cursor
  | fuel + 1, cursor =>
    match json[cursor]? with
    | some b => if isAsciiWhitespace b then skipWhitespace json fuel (cursor + 1) else cursor
    | none => cursor

/-- The closing quote of the string body that starts at `cursor`, or the end of the text when it
has none. An escape is refused. -/
def scanString (json : Bytes) : ℕ → ℕ → Except ProgramError ℕ
  | 0, cursor => .ok cursor
  | fuel + 1, cursor =>
    match json[cursor]? with
    | none => .ok cursor
    | some b =>
      if b = 34 then .ok cursor
      else if b = 92 then .error ↑AuthError.invalidMessage
      else scanString json fuel (cursor + 1)

/-- Past the string body that starts at `cursor` and its closing quote, if there is one. -/
def skipString (json : Bytes) (cursor : ℕ) : Except ProgramError ℕ := do
  let close ← scanString json json.length cursor
  .ok (if close < json.length then close + 1 else close)

/-- To the comma or bracket that ends a value which is not a string. `nest` counts the brackets
open inside it, and strings are consumed whole. -/
def skipValue (json : Bytes) : ℕ → ℕ → ℕ → Except ProgramError ℕ
  | 0, _, cursor => .ok cursor
  | fuel + 1, nest, cursor =>
    match json[cursor]? with
    | none => .ok cursor
    | some b =>
      if b = 34 then do
        let cursor ← skipString json (cursor + 1)
        skipValue json fuel nest cursor
      else if b = 123 ∨ b = 91 then skipValue json fuel (nest + 1) (cursor + 1)
      else if b = 125 ∨ b = 93 then
        if nest = 0 then .ok cursor else skipValue json fuel (nest - 1) (cursor + 1)
      else if b = 44 ∧ nest = 0 then .ok cursor
      else skipValue json fuel nest (cursor + 1)

/-- The walk over the members of the object, `depth` braces deep. A key is only read at depth one.
Every round moves the cursor on, so the text's length is enough fuel. -/
def walkFields (json fieldName : Bytes) : ℕ → ℕ → ℕ → Except ProgramError Bytes
  | 0, _, _ => .error ↑AuthError.invalidMessage
  | fuel + 1, depth, cursor =>
    match json[cursor]? with
    | none => .error ↑AuthError.invalidMessage
    | some byte =>
      if byte = 123 then walkFields json fieldName fuel (depth + 1) (cursor + 1)
      else if byte = 125 then
        if depth = 0 then .error ↑AuthError.invalidMessage
        else walkFields json fieldName fuel (depth - 1) (cursor + 1)
      else if depth = 1 ∧ byte = 34 then do
        let keyStart := cursor + 1
        let keyEnd ← scanString json json.length keyStart
        Except.ensure (keyEnd < json.length) ↑AuthError.invalidMessage
        let colon := skipWhitespace json json.length (keyEnd + 1)
        Except.ensure (json[colon]? = some 58) ↑AuthError.invalidMessage
        let value := skipWhitespace json json.length (colon + 1)
        Except.ensure (value < json.length) ↑AuthError.invalidMessage
        let first ← indexByte json value
        if json.slice keyStart (keyEnd - keyStart) = fieldName then do
          Except.ensure (first = 34) ↑AuthError.invalidMessage
          let valueEnd ← scanString json json.length (value + 1)
          Except.ensure (valueEnd < json.length) ↑AuthError.invalidMessage
          .ok (json.slice (value + 1) (valueEnd - (value + 1)))
        else if first = 34 then do
          let cursor ← skipString json (value + 1)
          walkFields json fieldName fuel depth cursor
        else do
          let cursor ← skipValue json json.length 0 value
          walkFields json fieldName fuel depth cursor
      else walkFields json fieldName fuel depth (cursor + 1)

/-- The raw text of the first top-level member of the given name, which must be a string. -/
def extractTopLevelStringField (json fieldName : Bytes) : Except ProgramError Bytes := do
  let start := skipWhitespace json json.length 0
  Except.ensure (json[start]? = some 123) ↑AuthError.invalidMessage
  walkFields json fieldName json.length 0 start

/-- `type`. -/
def typeField : Bytes := [116, 121, 112, 101]

/-- `challenge`. -/
def challengeField : Bytes := [99, 104, 97, 108, 108, 101, 110, 103, 101]

/-- `webauthn.get`. -/
def webauthnGet : Bytes := [119, 101, 98, 97, 117, 116, 104, 110, 46, 103, 101, 116]

end LazorKit
