import LazorKit.Model.ClientLoops
import LazorKit.Proofs.ClientScanner

/-! # The loops of the client data scanner end

On every byte string the scanner's loops come to an end, read no byte out of range, and return what the
recursive functions compute. Each loop is followed from its first round to its last; what comes behind it is
an argument, as the continuation of a bind.
-/

namespace LazorKit

open Solana

namespace ClientLoops

variable {json fieldName : Bytes} {cursor : ℕ} {b : UInt8}

private theorem index_at {next : UInt8 → LoopStep} (at_ : json[cursor]? = some b) :
    index json cursor next = next b := by
  rw [index, at_]

private theorem guarded {next : UInt8 → LoopStep} {other : LoopStep} (at_ : json[cursor]? = some b) :
    (if cursor < json.length then index json cursor next else other) = next b := by
  rw [if_pos (List.getElem?_eq_some_iff.mp at_).1, index_at at_]

private theorem guarded_done {next : UInt8 → LoopStep} {other : LoopStep} (done : json[cursor]? = none) :
    (if cursor < json.length then index json cursor next else other) = other :=
  if_neg (List.getElem?_eq_none_iff.mp done).not_gt

private theorem slice_of {start stop : ℕ} {next : Bytes → LoopStep} (order : start ≤ stop)
    (inside : stop ≤ json.length) :
    slice json start stop next = next (json.slice start (stop - start)) := if_pos ⟨order, inside⟩

section Whitespace

private theorem yields_whitespace {head : ℕ → LoopHead} (space : ∀ place byte, json[place]? = some byte →
      isAsciiWhitespace byte = true → step json fieldName (head place) = .continue (head (place + 1)))
    {fuel : ℕ} {result : Except ProgramError Bytes}
    (behind : Yields json fieldName (head (skipWhitespace json fuel cursor)) result) :
    Yields json fieldName (head cursor) result := by
  induction fuel generalizing cursor with
  | zero => exact behind
  | succ fuel ih =>
    rw [skipWhitespace] at behind
    split at behind
    · next byte at_ =>
      split at behind
      · next ws => exact .continue (space cursor byte at_ ws) (ih behind)
      · exact behind
    · exact behind

/-- The loop stops at the end or at a byte that is not white space. -/
theorem skipWhitespace_stop (at_ : json[skipWhitespace json json.length cursor]? = some b) :
    isAsciiWhitespace b = false := by
  suffices general : ∀ fuel cursor, json.length ≤ cursor + fuel →
      json[skipWhitespace json fuel cursor]? = some b → isAsciiWhitespace b = false from
    general json.length cursor (Nat.le_add_left ..) at_
  intro fuel
  induction fuel with
  | zero =>
    intro cursor enough at_
    rw [skipWhitespace, List.getElem?_eq_none_iff.mpr (show json.length ≤ cursor from enough)] at at_
    cases at_
  | succ fuel ih =>
    intro cursor enough at_
    rw [skipWhitespace] at at_
    split at at_
    · next byte here =>
      split at at_
      · exact ih (cursor + 1) (by omega) at_
      · next other =>
        cases here.symm.trans at_
        exact Bool.eq_false_of_not_eq_true other
    · next done =>
      rw [done] at at_
      cases at_

end Whitespace

/-- The loop stops at the end or at a quote. -/
theorem scanString_stop {close : ℕ} (scanned : scanString json json.length cursor = .ok close) :
    json[close]? = none ∨ json[close]? = some 34 := by
  suffices general : ∀ fuel cursor, json.length ≤ cursor + fuel → scanString json fuel cursor = .ok close →
      json[close]? = none ∨ json[close]? = some 34 from general json.length cursor (Nat.le_add_left ..) scanned
  intro fuel
  induction fuel with
  | zero =>
    intro cursor enough scanned
    cases scanned
    exact .inl (List.getElem?_eq_none_iff.mpr enough)
  | succ fuel ih =>
    intro cursor enough scanned
    rw [scanString] at scanned
    split at scanned
    · next done =>
      cases scanned
      exact .inl done
    · next byte at_ =>
      split at scanned
      · next quote =>
        cases scanned
        exact .inr (quote ▸ at_)
      · split at scanned
        · cases scanned
        · exact ih (cursor + 1) (by omega) scanned

section Strings

variable {head : ℕ → LoopHead}
  (plain : ∀ place byte, json[place]? = some byte → byte ≠ 34 → byte ≠ 92 →
    step json fieldName (head place) = .continue (head (place + 1)))
  (escape : ∀ place, json[place]? = some 92 → step json fieldName (head place) = invalid)

include plain escape

private theorem yields_scanString {fuel : ℕ} {next : ℕ → Except ProgramError Bytes}
    (behind : ∀ close, scanString json fuel cursor = .ok close → Yields json fieldName (head close) (next close)) :
    Yields json fieldName (head cursor) (scanString json fuel cursor >>= next) := by
  induction fuel generalizing cursor with
  | zero => exact behind cursor rfl
  | succ fuel ih =>
    cases at_ : json[cursor]? with
    | none =>
      have stop : scanString json (fuel + 1) cursor = .ok cursor := by rw [scanString, at_]
      rw [stop]
      exact behind cursor stop
    | some byte =>
      rw [scanString, at_] at behind ⊢
      dsimp only at behind ⊢
      split
      · next quote =>
        simp only [quote, if_true] at behind
        exact behind cursor rfl
      · next quote =>
        split
        · next escaped =>
          subst escaped
          exact .return (escape cursor at_)
        · next other =>
          simp only [quote, other, if_false] at behind
          exact .continue (plain cursor byte at_ quote other) (ih behind)

/-- The closing quote is consumed if there is one. -/
theorem yields_skipString {after : ℕ → LoopHead}
    (quote : ∀ place, json[place]? = some 34 → step json fieldName (head place) = .continue (after (place + 1)))
    (ended : ∀ place, json[place]? = none → step json fieldName (head place) = .continue (after place))
    {next : ℕ → Except ProgramError Bytes}
    (behind : ∀ close, skipString json cursor = .ok close → Yields json fieldName (after close) (next close)) :
    Yields json fieldName (head cursor) (skipString json cursor >>= next) := by
  have whole : (skipString json cursor >>= next) =
      (scanString json json.length cursor >>= fun close =>
        next (if close < json.length then close + 1 else close)) := by
    rw [skipString]
    cases scanString json json.length cursor <;> rfl
  rw [whole]
  apply yields_scanString plain escape
  intro close scanned
  have skipped : skipString json cursor = .ok (if close < json.length then close + 1 else close) := by
    rw [skipString, scanned]
    rfl
  rcases scanString_stop scanned with done | at_
  · have past : ¬close < json.length := (List.getElem?_eq_none_iff.mp done).not_gt
    rw [if_neg past] at skipped ⊢
    exact .continue (ended close done) (behind close skipped)
  · have inside : close < json.length := (List.getElem?_eq_some_iff.mp at_).1
    rw [if_pos inside] at skipped ⊢
    exact .continue (quote close at_) (behind (close + 1) skipped)

end Strings

/-- A string inside another value. -/
theorem yields_innerString {depth nest : ℕ} {next : ℕ → Except ProgramError Bytes}
    (behind : ∀ close, skipString json cursor = .ok close →
      Yields json fieldName (.otherValue depth nest close) (next close)) :
    Yields json fieldName (.innerString depth nest cursor) (skipString json cursor >>= next) := by
  have plain : ∀ place byte, json[place]? = some byte → byte ≠ 34 → byte ≠ 92 →
      step json fieldName (.innerString depth nest place) = .continue (.innerString depth nest (place + 1)) := by
    intro place byte at_ quote escape
    rw [step, guarded at_, if_neg quote, if_neg escape]
  have quote : ∀ place, json[place]? = some 34 →
      step json fieldName (.innerString depth nest place) = .continue (.otherValue depth nest (place + 1)) := by
    intro place at_
    rw [step, guarded at_, if_pos rfl]
  refine yields_skipString plain (fun place at_ => ?_) quote (fun place done => ?_) behind
  · exact guarded at_
  · exact guarded_done done

/-- The value of another member. -/
theorem yields_stringValue {depth : ℕ} {next : ℕ → Except ProgramError Bytes}
    (behind : ∀ close, skipString json cursor = .ok close → Yields json fieldName (.fields depth close) (next close)) :
    Yields json fieldName (.stringValue depth cursor) (skipString json cursor >>= next) := by
  have plain : ∀ place byte, json[place]? = some byte → byte ≠ 34 → byte ≠ 92 →
      step json fieldName (.stringValue depth place) = .continue (.stringValue depth (place + 1)) := by
    intro place byte at_ quote escape
    rw [step, guarded at_, if_neg quote, if_neg escape]
  have quote : ∀ place, json[place]? = some 34 →
      step json fieldName (.stringValue depth place) = .continue (.fields depth (place + 1)) := by
    intro place at_
    rw [step, guarded at_, if_pos rfl]
  refine yields_skipString plain (fun place at_ => ?_) quote (fun place done => ?_) behind
  · exact guarded at_
  · exact guarded_done done

/-- The value of the wanted member. -/
theorem yields_value {valueStart : ℕ} (order : valueStart ≤ cursor) :
    Yields json fieldName (.value valueStart cursor) (do
      let valueEnd ← scanString json json.length cursor
      Except.ensure (valueEnd < json.length) ↑AuthError.invalidMessage
      .ok (json.slice valueStart (valueEnd - valueStart))) := by
  have plain : ∀ place byte, json[place]? = some byte → byte ≠ 34 → byte ≠ 92 →
      step json fieldName (.value valueStart place) = .continue (.value valueStart (place + 1)) := by
    intro place byte at_ quote escape
    rw [step, guarded at_, if_neg quote, if_neg escape]
  refine yields_scanString plain (fun place at_ => guarded at_) fun close scanned => ?_
  rcases scanString_stop scanned with done | at_
  · have past : ¬close < json.length := (List.getElem?_eq_none_iff.mp done).not_gt
    rw [Except.ensure, if_neg past]
    exact .return (guarded_done done)
  · have inside : close < json.length := (List.getElem?_eq_some_iff.mp at_).1
    rw [Except.ensure_of inside]
    refine .return ?_
    rw [step, guarded at_, if_pos rfl, slice_of (order.trans (le_scanString scanned)) inside.le]
    rfl

private theorem yields_skipValue {depth fuel nest : ℕ} (enough : json.length ≤ cursor + fuel)
    {next : ℕ → Except ProgramError Bytes}
    (behind : ∀ stop, skipValue json fuel nest cursor = .ok stop →
      Yields json fieldName (.fields depth stop) (next stop)) :
    Yields json fieldName (.otherValue depth nest cursor) (skipValue json fuel nest cursor >>= next) := by
  induction fuel generalizing nest cursor with
  | zero =>
    have done : json[cursor]? = none := List.getElem?_eq_none_iff.mpr enough
    exact .continue (guarded_done done) (behind cursor rfl)
  | succ fuel ih =>
    cases at_ : json[cursor]? with
    | none =>
      have stop : skipValue json (fuel + 1) nest cursor = .ok cursor := by rw [skipValue, at_]
      rw [stop]
      exact .continue (guarded_done at_) (behind cursor stop)
    | some byte =>
      have round : step json fieldName (.otherValue depth nest cursor) = _ := guarded at_
      rw [skipValue, at_] at behind ⊢
      dsimp only at round behind ⊢
      have later {place nest : ℕ} (moved : cursor < place)
          (own : ∀ stop, skipValue json fuel nest place = .ok stop →
            Yields json fieldName (.fields depth stop) (next stop)) :
          Yields json fieldName (.otherValue depth nest place) (skipValue json fuel nest place >>= next) :=
        ih (by omega) own
      split
      · next quote =>
        rw [if_pos quote] at round behind
        refine .continue round ?_
        rw [bind_assoc]
        apply yields_innerString
        intro close skipped
        refine later (le_skipString skipped) fun stop rest => behind stop ?_
        rw [skipped]
        exact rest
      · next quote =>
        rw [if_neg quote] at round behind
        split
        · next opens =>
          rw [if_pos opens] at round behind
          exact .continue round (later (Nat.lt_succ_self cursor) behind)
        · next opens =>
          rw [if_neg opens] at round behind
          split
          · next closes =>
            rw [if_pos closes] at round behind
            split
            · next outside =>
              rw [if_pos outside] at round behind
              exact .continue round (behind cursor rfl)
            · next inside =>
              rw [if_neg inside] at round behind
              exact .continue round (later (Nat.lt_succ_self cursor) behind)
          · next closes =>
            rw [if_neg closes] at round behind
            split
            · next comma =>
              rw [if_pos comma] at round behind
              exact .continue round (behind cursor rfl)
            · next comma =>
              rw [if_neg comma] at round behind
              exact .continue round (later (Nat.lt_succ_self cursor) behind)

/-- From the first byte of a value on, with the key's bounds in hand. -/
theorem yields_dispatch {depth keyStart keyEnd : ℕ} {next : ℕ → Except ProgramError Bytes} (order : keyStart ≤ keyEnd)
    (inside : keyEnd ≤ json.length) (other : ∀ byte, json[cursor]? = some byte → isAsciiWhitespace byte = false)
    (string : ∀ close, skipString json (cursor + 1) = .ok close →
      Yields json fieldName (.fields depth close) (next close))
    (value : ∀ stop, skipValue json json.length 0 cursor = .ok stop →
      Yields json fieldName (.fields depth stop) (next stop)) :
    Yields json fieldName (.afterColon depth keyStart keyEnd cursor) (do
      Except.ensure (cursor < json.length) ↑AuthError.invalidMessage
      let first ← indexByte json cursor
      if json.slice keyStart (keyEnd - keyStart) = fieldName then do
        Except.ensure (first = 34) ↑AuthError.invalidMessage
        let valueEnd ← scanString json json.length (cursor + 1)
        Except.ensure (valueEnd < json.length) ↑AuthError.invalidMessage
        .ok (json.slice (cursor + 1) (valueEnd - (cursor + 1)))
      else if first = 34 then skipString json (cursor + 1) >>= next
      else skipValue json json.length 0 cursor >>= next) := by
  cases at_ : json[cursor]? with
  | none =>
    have past := List.getElem?_eq_none_iff.mp at_
    rw [Except.ensure, if_neg past.not_gt]
    refine .return ?_
    rw [step, guarded_done at_, dispatch, if_pos past]
    rfl
  | some first =>
    have low : cursor < json.length := (List.getElem?_eq_some_iff.mp at_).1
    have round : step json fieldName (.afterColon depth keyStart keyEnd cursor) =
        if json.slice keyStart (keyEnd - keyStart) = fieldName then
          if first ≠ 34 then invalid else .continue (.value (cursor + 1) (cursor + 1))
        else if first = 34 then .continue (.stringValue depth (cursor + 1))
        else .continue (.otherValue depth 0 cursor) := by
      rw [step, guarded at_, other first at_, if_neg Bool.false_ne_true, dispatch, if_neg low.not_ge,
        slice_of order inside, index_at at_, index_at at_]
    rw [Except.ensure_of low, Except.ok_bind, indexByte, at_]
    change Yields json fieldName _ (if json.slice keyStart (keyEnd - keyStart) = fieldName then _ else _)
    split
    · next named =>
      rw [if_pos named] at round
      by_cases quote : first = 34
      · rw [if_neg (not_not.mpr quote)] at round
        rw [Except.ensure_of quote]
        exact .continue round (yields_value (Nat.le_refl _))
      · rw [if_pos quote] at round
        rw [Except.ensure, if_neg quote]
        exact .return round
    · next named =>
      rw [if_neg named] at round
      split
      · next quote =>
        rw [if_pos quote] at round
        exact .continue round (yields_stringValue string)
      · next quote =>
        rw [if_neg quote] at round
        exact .continue round (yields_skipValue (Nat.le_add_left ..) value)

/-- From a key's first byte on. -/
theorem yields_key {depth keyStart : ℕ} {next : ℕ → Except ProgramError Bytes}
    (behind : ∀ stop, keyStart < stop → Yields json fieldName (.fields depth stop) (next stop)) :
    Yields json fieldName (.key depth keyStart keyStart) (do
      let keyEnd ← scanString json json.length keyStart
      Except.ensure (keyEnd < json.length) ↑AuthError.invalidMessage
      let colon := skipWhitespace json json.length (keyEnd + 1)
      Except.ensure (json[colon]? = some 58) ↑AuthError.invalidMessage
      let value := skipWhitespace json json.length (colon + 1)
      Except.ensure (value < json.length) ↑AuthError.invalidMessage
      let first ← indexByte json value
      if json.slice keyStart (keyEnd - keyStart) = fieldName then do
        Except.ensure (first = 34) ↑AuthError.invalidMessage
        let valueEnd ← scanString json json.length (value + 1)
        Except.ensure (valueEnd < json.length) ↑AuthError.invalidMessage
        .ok (json.slice (value + 1) (valueEnd - (value + 1)))
      else if first = 34 then skipString json (value + 1) >>= next
      else skipValue json json.length 0 value >>= next) := by
  have plain : ∀ place byte, json[place]? = some byte → byte ≠ 34 → byte ≠ 92 →
      step json fieldName (.key depth keyStart place) = .continue (.key depth keyStart (place + 1)) := by
    intro place byte at_ quote escape
    rw [step, guarded at_, if_neg quote, if_neg escape]
  refine yields_scanString plain (fun place at_ => guarded at_) fun keyEnd scanned => ?_
  have order := le_scanString scanned
  rcases scanString_stop scanned with done | quote
  · have past : ¬keyEnd < json.length := (List.getElem?_eq_none_iff.mp done).not_gt
    rw [Except.ensure, if_neg past]
    exact .return (guarded_done done)
  · have inside : keyEnd < json.length := (List.getElem?_eq_some_iff.mp quote).1
    have round : step json fieldName (.key depth keyStart keyEnd) =
        .continue (.beforeColon depth keyStart keyEnd (keyEnd + 1)) := by rw [step, guarded quote, if_pos rfl]
    have space : ∀ place byte, json[place]? = some byte → isAsciiWhitespace byte = true →
        step json fieldName (.beforeColon depth keyStart keyEnd place) =
          .continue (.beforeColon depth keyStart keyEnd (place + 1)) := by
      intro place byte at_ ws
      rw [step, guarded at_, if_pos ws]
    rw [Except.ensure_of inside, Except.ok_bind]
    refine .continue round (yields_whitespace space (show Yields json fieldName (.beforeColon depth keyStart keyEnd
      (skipWhitespace json json.length (keyEnd + 1))) _ from ?_))
    have moved : keyEnd + 1 ≤ skipWhitespace json json.length (keyEnd + 1) := le_skipWhitespace
    have stop {byte : UInt8} (at_ : json[skipWhitespace json json.length (keyEnd + 1)]? = some byte) :=
      skipWhitespace_stop at_
    generalize skipWhitespace json json.length (keyEnd + 1) = colon at moved stop ⊢
    dsimp only
    cases at_ : json[colon]? with
    | none =>
      have past := List.getElem?_eq_none_iff.mp at_
      rw [Except.ensure, if_neg nofun]
      refine .return ?_
      rw [step, guarded_done at_, ClientLoops.colon, if_pos past]
      rfl
    | some byte =>
      have low : colon < json.length := (List.getElem?_eq_some_iff.mp at_).1
      have here : step json fieldName (.beforeColon depth keyStart keyEnd colon) =
          if byte ≠ 58 then invalid else .continue (.afterColon depth keyStart keyEnd (colon + 1)) := by
        rw [step, guarded at_, stop at_, if_neg Bool.false_ne_true, ClientLoops.colon, if_neg low.not_ge, index_at at_]
      by_cases colon58 : byte = 58
      · rw [if_neg (not_not.mpr colon58)] at here
        rw [Except.ensure_of (congrArg some colon58), Except.ok_bind]
        have space' : ∀ place byte, json[place]? = some byte → isAsciiWhitespace byte = true →
            step json fieldName (.afterColon depth keyStart keyEnd place) =
              .continue (.afterColon depth keyStart keyEnd (place + 1)) := by
          intro place byte at_ ws
          rw [step, guarded at_, if_pos ws]
        refine .continue here (yields_whitespace space' (show Yields json fieldName (.afterColon depth keyStart keyEnd
          (skipWhitespace json json.length (colon + 1))) _ from ?_))
        have further : colon + 1 ≤ skipWhitespace json json.length (colon + 1) := le_skipWhitespace
        refine yields_dispatch order inside.le (fun _ => skipWhitespace_stop) (fun close skipped => behind close ?_)
          fun stop skipped => behind stop ?_
        · have past := le_skipString skipped
          omega
        · have past := le_skipValue skipped
          omega
      · rw [if_pos colon58] at here
        rw [Except.ensure, if_neg fun same => colon58 (Option.some.inj same)]
        exact .return here

private theorem yields_fields {fuel depth : ℕ} (enough : json.length ≤ cursor + fuel) :
    Yields json fieldName (.fields depth cursor) (walkFields json fieldName fuel depth cursor) := by
  induction fuel generalizing depth cursor with
  | zero => exact .return (guarded_done (List.getElem?_eq_none_iff.mpr enough))
  | succ fuel ih =>
    cases at_ : json[cursor]? with
    | none =>
      rw [walkFields, at_]
      exact .return (guarded_done at_)
    | some byte =>
      have round : step json fieldName (.fields depth cursor) = _ := guarded at_
      have next {depth : ℕ} : Yields json fieldName (.fields depth (cursor + 1))
        (walkFields json fieldName fuel depth (cursor + 1)) := ih (by omega)
      rw [walkFields, at_]
      dsimp only at round ⊢
      split
      · next opens =>
        rw [if_pos opens] at round
        exact .continue round next
      · next opens =>
        rw [if_neg opens] at round
        split
        · next closes =>
          rw [if_pos closes] at round
          split
          · next outside =>
            rw [if_pos outside] at round
            exact .return round
          · next inside =>
            rw [if_neg inside] at round
            exact .continue round next
        · next closes =>
          rw [if_neg closes] at round
          split
          · next key =>
            rw [if_pos key] at round
            exact .continue round (yields_key fun stop moved => ih (by omega))
          · next key =>
            rw [if_neg key] at round
            exact .continue round next

/-- The loops end on every text, and return what the recursive functions do. -/
theorem yields_extract (json fieldName : Bytes) :
    Yields json fieldName (.leading 0) (extractTopLevelStringField json fieldName) := by
  have space : ∀ place byte, json[place]? = some byte → isAsciiWhitespace byte = true →
      step json fieldName (.leading place) = .continue (.leading (place + 1)) := by
    intro place byte at_ ws
    rw [step, guarded at_, if_pos ws]
  refine yields_whitespace space (show Yields json fieldName (.leading (skipWhitespace json json.length 0)) _ from ?_)
  rw [extractTopLevelStringField]
  have stop {byte : UInt8} (at_ : json[skipWhitespace json json.length 0]? = some byte) := skipWhitespace_stop at_
  generalize skipWhitespace json json.length 0 = start at stop ⊢
  cases at_ : json[start]? with
  | none =>
    have past := List.getElem?_eq_none_iff.mp at_
    rw [Except.ensure, if_neg nofun]
    refine .return ?_
    rw [step, guarded_done at_, enter, if_pos past]
    rfl
  | some byte =>
    have low : start < json.length := (List.getElem?_eq_some_iff.mp at_).1
    have here : step json fieldName (.leading start) = if byte ≠ 123 then invalid else .continue (.fields 0 start) := by
      rw [step, guarded at_, stop at_, if_neg Bool.false_ne_true, enter, if_neg low.not_ge, index_at at_]
    by_cases brace : byte = 123
    · rw [if_neg (not_not.mpr brace)] at here
      rw [Except.ensure_of (congrArg some brace)]
      exact .continue here (yields_fields (Nat.le_add_left ..))
    · rw [if_pos brace] at here
      rw [Except.ensure, if_neg fun same => brace (Option.some.inj same)]
      exact .return here

end ClientLoops

end LazorKit
