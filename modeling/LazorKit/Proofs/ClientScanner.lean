import LazorKit.Model.Webauthn
import LazorKit.ToMathlib.ExceptBind
import LazorKit.ToMathlib.JsonText

/-! # The client data scanner

The loops of the scanner over a text that is written by the JSON grammar. Each loop is given the text's length
as fuel, more than it can use, so it satisfies the equations of the loop without fuel. What a loop passes over
is stated in terms of what is left of the text behind the cursor.
-/

namespace LazorKit

open Solana

section Fuel

variable {json : Bytes}

private theorem skipWhitespace_fuel {fuel fuel' cursor : ℕ} (enough : json.length ≤ cursor + fuel)
    (enough' : json.length ≤ cursor + fuel') : skipWhitespace json fuel cursor = skipWhitespace json fuel' cursor := by
  induction fuel generalizing fuel' cursor with
  | zero =>
    have done : json[cursor]? = none := List.getElem?_eq_none_iff.mpr enough
    cases fuel' with
    | zero => rfl
    | succ fuel' => rw [skipWhitespace, skipWhitespace, done]
  | succ fuel ih =>
    cases fuel' with
    | zero =>
      have done : json[cursor]? = none := List.getElem?_eq_none_iff.mpr enough'
      rw [skipWhitespace, skipWhitespace, done]
    | succ fuel' =>
      have next : skipWhitespace json fuel (cursor + 1) = skipWhitespace json fuel' (cursor + 1) :=
        ih (by omega) (by omega)
      rw [skipWhitespace, skipWhitespace, next]

private theorem scanString_fuel {fuel fuel' cursor : ℕ} (enough : json.length ≤ cursor + fuel)
    (enough' : json.length ≤ cursor + fuel') : scanString json fuel cursor = scanString json fuel' cursor := by
  induction fuel generalizing fuel' cursor with
  | zero =>
    have done : json[cursor]? = none := List.getElem?_eq_none_iff.mpr enough
    cases fuel' with
    | zero => rfl
    | succ fuel' => rw [scanString, scanString, done]
  | succ fuel ih =>
    cases fuel' with
    | zero =>
      have done : json[cursor]? = none := List.getElem?_eq_none_iff.mpr enough'
      rw [scanString, scanString, done]
    | succ fuel' =>
      have next : scanString json fuel (cursor + 1) = scanString json fuel' (cursor + 1) := ih (by omega) (by omega)
      rw [scanString, scanString, next]

theorem le_scanString {fuel cursor close : ℕ} (success : scanString json fuel cursor = .ok close) : cursor ≤ close := by
  induction fuel generalizing cursor with
  | zero => exact (Except.ok.inj success).le
  | succ fuel ih =>
    rw [scanString] at success
    split at success
    · exact (Except.ok.inj success).le
    · split at success
      · exact (Except.ok.inj success).le
      · split at success
        · cases success
        · exact Nat.le_of_succ_le (ih success)

theorem le_skipString {cursor next : ℕ} (success : skipString json cursor = .ok next) : cursor ≤ next := by
  simp only [skipString, Except.bind_eq_ok, Except.ok.injEq] at success
  obtain ⟨close, scanned, rfl⟩ := success
  have moved := le_scanString scanned
  split <;> omega

theorem le_skipWhitespace {fuel cursor : ℕ} : cursor ≤ skipWhitespace json fuel cursor := by
  induction fuel generalizing cursor with
  | zero => exact Nat.le_refl _
  | succ fuel ih =>
    rw [skipWhitespace]
    split
    · split
      · exact Nat.le_of_succ_le ih
      · exact Nat.le_refl _
    · exact Nat.le_refl _

private theorem skipValue_fuel {fuel fuel' nest cursor : ℕ} (enough : json.length ≤ cursor + fuel)
    (enough' : json.length ≤ cursor + fuel') : skipValue json fuel nest cursor = skipValue json fuel' nest cursor := by
  induction fuel generalizing fuel' nest cursor with
  | zero =>
    have done : json[cursor]? = none := List.getElem?_eq_none_iff.mpr enough
    cases fuel' with
    | zero => rfl
    | succ fuel' => rw [skipValue, skipValue, done]
  | succ fuel ih =>
    cases fuel' with
    | zero =>
      have done : json[cursor]? = none := List.getElem?_eq_none_iff.mpr enough'
      rw [skipValue, skipValue, done]
    | succ fuel' =>
      have next (nest : ℕ) : skipValue json fuel nest (cursor + 1) = skipValue json fuel' nest (cursor + 1) :=
        ih (by omega) (by omega)
      have behind : (skipString json (cursor + 1) >>= skipValue json fuel nest) =
          (skipString json (cursor + 1) >>= skipValue json fuel' nest) := by
        cases skipped : skipString json (cursor + 1) with
        | error error => rfl
        | ok close =>
          have moved := le_skipString skipped
          exact ih (by omega) (by omega)
      simp only [skipValue, next, behind]

theorem le_skipValue {fuel nest cursor next : ℕ} (success : skipValue json fuel nest cursor = .ok next) :
    cursor ≤ next := by
  induction fuel generalizing nest cursor with
  | zero => exact (Except.ok.inj success).le
  | succ fuel ih =>
    rw [skipValue] at success
    split at success
    · exact (Except.ok.inj success).le
    · split at success
      · obtain ⟨close, skipped, rest⟩ := Except.bind_eq_ok.mp success
        exact Nat.le_of_succ_le ((le_skipString skipped).trans (ih rest))
      · split at success
        · exact Nat.le_of_succ_le (ih success)
        · split at success
          · split at success
            · exact (Except.ok.inj success).le
            · exact Nat.le_of_succ_le (ih success)
          · split at success
            · exact (Except.ok.inj success).le
            · exact Nat.le_of_succ_le (ih success)

theorem walkFields_fuel {fieldName : Bytes} {fuel fuel' depth cursor : ℕ} (enough : json.length ≤ cursor + fuel)
    (enough' : json.length ≤ cursor + fuel') :
    walkFields json fieldName fuel depth cursor = walkFields json fieldName fuel' depth cursor := by
  induction fuel generalizing fuel' depth cursor with
  | zero =>
    have done : json[cursor]? = none := List.getElem?_eq_none_iff.mpr enough
    cases fuel' with
    | zero => rfl
    | succ fuel' => rw [walkFields, walkFields, done]
  | succ fuel ih =>
    cases fuel' with
    | zero =>
      have done : json[cursor]? = none := List.getElem?_eq_none_iff.mpr enough'
      rw [walkFields, walkFields, done]
    | succ fuel' =>
      have later {next : ℕ} (moved : cursor < next) (depth : ℕ) :
          walkFields json fieldName fuel depth next = walkFields json fieldName fuel' depth next :=
        ih (by omega) (by omega)
      simp only [walkFields, later (Nat.lt_succ_self cursor)]
      cases json[cursor]? with
      | none => rfl
      | some byte =>
        dsimp only
        split
        · rfl
        · split
          · rfl
          · split
            · refine Except.bind_congr fun keyEnd scanned => Except.bind_congr fun _ _ => Except.bind_congr fun _ _ =>
                Except.bind_congr fun _ _ => Except.bind_congr fun first _ => ?_
              have close := le_scanString scanned
              have colon : keyEnd + 1 ≤ skipWhitespace json json.length (keyEnd + 1) := le_skipWhitespace
              have value : skipWhitespace json json.length (keyEnd + 1) + 1 ≤
                skipWhitespace json json.length (skipWhitespace json json.length (keyEnd + 1) + 1) := le_skipWhitespace
              split
              · rfl
              · split
                · apply Except.bind_congr
                  intro next skipped
                  have moved := le_skipString skipped
                  exact later (by omega) depth
                · apply Except.bind_congr
                  intro next skipped
                  have moved := le_skipValue skipped
                  exact later (by omega) depth
            · rfl

end Fuel

section Byte

variable {json : Bytes} {cursor : ℕ} {b : UInt8}

private theorem skipWhitespace_at (at_ : json[cursor]? = some b) : skipWhitespace json json.length cursor =
    if isAsciiWhitespace b then skipWhitespace json json.length (cursor + 1) else cursor := by
  have more : skipWhitespace json json.length cursor = skipWhitespace json (json.length + 1) cursor :=
    skipWhitespace_fuel (by omega) (by omega)
  rw [more, skipWhitespace, at_]

private theorem scanString_at (at_ : json[cursor]? = some b) : scanString json json.length cursor =
    if b = 34 then .ok cursor else if b = 92 then .error ↑AuthError.invalidMessage
    else scanString json json.length (cursor + 1) := by
  have more : scanString json json.length cursor = scanString json (json.length + 1) cursor :=
    scanString_fuel (by omega) (by omega)
  rw [more, scanString, at_]

theorem skipValue_at {nest : ℕ} (at_ : json[cursor]? = some b) : skipValue json json.length nest cursor =
    if b = 34 then skipString json (cursor + 1) >>= skipValue json json.length nest
    else if b = 123 ∨ b = 91 then skipValue json json.length (nest + 1) (cursor + 1)
    else if b = 125 ∨ b = 93 then
      if nest = 0 then .ok cursor else skipValue json json.length (nest - 1) (cursor + 1)
    else if b = 44 ∧ nest = 0 then .ok cursor
    else skipValue json json.length nest (cursor + 1) := by
  have more : skipValue json json.length nest cursor = skipValue json (json.length + 1) nest cursor :=
    skipValue_fuel (by omega) (by omega)
  rw [more, skipValue, at_]

theorem walkFields_at {fieldName : Bytes} {depth : ℕ} (at_ : json[cursor]? = some b)
    (inside : ¬(depth = 1 ∧ b = 34)) : walkFields json fieldName json.length depth cursor =
    if b = 123 then walkFields json fieldName json.length (depth + 1) (cursor + 1)
    else if b = 125 then
      if depth = 0 then .error ↑AuthError.invalidMessage
      else walkFields json fieldName json.length (depth - 1) (cursor + 1)
    else walkFields json fieldName json.length depth (cursor + 1) := by
  have more : walkFields json fieldName json.length depth cursor =
      walkFields json fieldName (json.length + 1) depth cursor :=
    walkFields_fuel (by omega) (by omega)
  rw [more, walkFields, at_]
  simp only [if_neg inside]

theorem walkFields_done {fieldName : Bytes} {depth : ℕ} (done : json[cursor]? = none) :
    walkFields json fieldName json.length depth cursor = .error ↑AuthError.invalidMessage := by
  have more : walkFields json fieldName json.length depth cursor =
      walkFields json fieldName (json.length + 1) depth cursor :=
    walkFields_fuel (by omega) (by omega)
  rw [more, walkFields, done]

end Byte

section Left

variable {json : Bytes} {cursor : ℕ} {b : UInt8} {text rest : Bytes}

theorem at_of_drop (here : json.drop cursor = b :: rest) : json[cursor]? = some b := by
  have first : (json.drop cursor)[0]? = json[cursor + 0]? := List.getElem?_drop
  rw [here, Nat.add_zero] at first
  exact first.symm

theorem drop_of_append (here : json.drop cursor = text ++ rest) : json.drop (cursor + text.length) = rest := by
  rw [← List.drop_drop, here, List.drop_left]

theorem drop_succ (here : json.drop cursor = b :: rest) : json.drop (cursor + 1) = rest :=
  drop_of_append (show json.drop cursor = [b] ++ rest from here)

/-- Over white space to a byte that is none. -/
theorem skipWhitespace_ws (ws : JsonText.Ws text) (other : isAsciiWhitespace b = false)
    (here : json.drop cursor = text ++ b :: rest) : skipWhitespace json json.length cursor = cursor + text.length := by
  induction text generalizing cursor with
  | nil => rw [skipWhitespace_at (at_of_drop here), other, if_neg Bool.false_ne_true, List.length_nil, Nat.add_zero]
  | cons first text ih =>
    have space : isAsciiWhitespace first = true := by
      have one := of_decide_eq_true (ws first (List.mem_cons_self ..))
      exact decide_eq_true (by tauto)
    rw [skipWhitespace_at (at_of_drop here), if_pos space,
      ih (fun b member => ws b (List.mem_cons_of_mem _ member)) (drop_succ here), List.length_cons]
    omega

/-- To the closing quote, over bytes that are neither quotes nor escapes. -/
theorem scanString_run (quote : 34 ∉ text) (escape : 92 ∉ text) (here : json.drop cursor = text ++ rest) :
    scanString json json.length cursor = scanString json json.length (cursor + text.length) := by
  induction text generalizing cursor with
  | nil => rfl
  | cons first text ih =>
    rw [List.mem_cons, not_or] at quote escape
    rw [scanString_at (at_of_drop here), if_neg (Ne.symm quote.1), if_neg (Ne.symm escape.1),
      ih quote.2 escape.2 (drop_succ here), List.length_cons, Nat.add_right_comm, Nat.add_assoc]

/-- A string token is scanned to its end, unless it has an escape. -/
theorem scanString_chars {raw : Bytes} (chars : JsonText.Chars raw) (here : json.drop cursor = raw ++ 34 :: rest) :
    scanString json json.length cursor =
      if 92 ∈ raw then .error ↑AuthError.invalidMessage else .ok (cursor + raw.length) := by
  split
  · next escaped =>
    obtain ⟨front, back, rfl, quote, escape⟩ := chars.first_escape escaped
    rw [List.append_assoc] at here
    rw [scanString_run quote escape here, scanString_at (at_of_drop (drop_of_append here)),
      if_neg (by decide), if_pos rfl]
  · next clean =>
    rw [scanString_run (chars.quote_not_mem clean) clean here, scanString_at (at_of_drop (drop_of_append here)),
      if_pos rfl]

theorem lt_length_of_drop (here : json.drop cursor = b :: rest) : cursor < json.length :=
  (List.getElem?_eq_some_iff.mp (at_of_drop here)).1

theorem skipString_chars {raw : Bytes} (chars : JsonText.Chars raw) (here : json.drop cursor = raw ++ 34 :: rest) :
    skipString json cursor =
      if 92 ∈ raw then .error ↑AuthError.invalidMessage else .ok (cursor + raw.length + 1) := by
  rw [skipString, scanString_chars chars here]
  split
  · rfl
  · exact congrArg Except.ok (if_pos (lt_length_of_drop (drop_of_append here)))

end Left

/-- No string token has an escape. -/
def Unescaped (strings : List Bytes) : Prop := ∀ raw ∈ strings, 92 ∉ raw

instance (strings : List Bytes) : Decidable (Unescaped strings) :=
  inferInstanceAs (Decidable (∀ raw ∈ strings, 92 ∉ raw))

private theorem unescaped_append {strings strings' : List Bytes} :
    Unescaped (strings ++ strings') ↔ Unescaped strings ∧ Unescaped strings' := List.forall_mem_append

/-- The value loop passes over the text and is as deep behind it as in front of it; it fails if a string token of
the text has an escape. -/
def Skips (json : Bytes) (nest : ℕ) (text : Bytes) (strings : List Bytes) : Prop :=
  ∀ cursor rest, json.drop cursor = text ++ rest → skipValue json json.length nest cursor =
    if Unescaped strings then skipValue json json.length nest (cursor + text.length)
    else .error ↑AuthError.invalidMessage

namespace Skips

variable {json : Bytes} {nest : ℕ} {text text' : Bytes} {strings strings' : List Bytes}

theorem nil : Skips json nest [] [] := fun _ _ _ => (if_pos nofun).symm

theorem append (first : Skips json nest text strings) (second : Skips json nest text' strings') :
    Skips json nest (text ++ text') (strings ++ strings') := by
  intro cursor rest here
  rw [List.append_assoc] at here
  rw [first cursor _ here, second _ rest (drop_of_append here), List.length_append, Nat.add_assoc]
  by_cases clean : Unescaped strings
  · simp only [unescaped_append, clean, true_and, if_true]
  · simp only [unescaped_append, clean, false_and, if_false]

/-- A byte that is no quote and no bracket, and no comma on the outside. -/
theorem byte {b : UInt8} (plain : b ∉ [34, 123, 91, 125, 93]) (comma : b = 44 → nest ≠ 0) : Skips json nest [b] [] := by
  intro cursor rest here
  simp only [List.mem_cons, List.not_mem_nil, or_false, not_or] at plain
  obtain ⟨quote, brace, bracket, brace', bracket'⟩ := plain
  rw [skipValue_at (at_of_drop here), if_neg quote, if_neg (by tauto), if_neg (by tauto), if_neg (by tauto),
    if_pos nofun]
  rfl

theorem run (plain : ∀ b ∈ text, b ∉ [34, 123, 91, 125, 93] ∧ b ≠ 44) : Skips json nest text [] := by
  induction text with
  | nil => exact nil
  | cons b text ih =>
    rw [List.forall_mem_cons] at plain
    exact (byte plain.1.1 fun comma => absurd comma plain.1.2).append (ih plain.2)

theorem ws (ws : JsonText.Ws text) : Skips json nest text [] := by
  apply run
  intro b member
  rcases of_decide_eq_true (ws b member) with rfl | rfl | rfl | rfl <;> decide

theorem scalar (scalar : JsonText.Scalar text) : Skips json nest text [] := by
  apply run
  intro b member
  obtain ⟨behind, other⟩ := of_decide_eq_true (scalar.plain.2 b member)
  simp only [List.mem_cons, List.not_mem_nil, or_false, not_or] at other ⊢
  refine ⟨⟨?_, ?_⟩, ?_⟩
  · rintro rfl
    exact absurd behind (by decide)
  all_goals tauto

theorem string {raw : Bytes} (chars : JsonText.Chars raw) : Skips json nest (JsonText.quoted raw) [raw] := by
  intro cursor rest here
  rw [JsonText.quoted, List.cons_append, List.cons_append, List.append_assoc] at here
  rw [skipValue_at (at_of_drop here), if_pos rfl, skipString_chars chars (drop_succ here)]
  by_cases escaped : 92 ∈ raw
  · rw [if_pos escaped, if_neg (by simp [Unescaped, escaped])]
    rfl
  · rw [if_neg escaped, if_pos (by simp [Unescaped, escaped]), JsonText.quoted]
    apply congrArg (skipValue json json.length nest)
    simp only [List.cons_append, List.length_cons, List.length_append, List.length_nil]
    omega

/-- Inside brackets, one deeper. -/
theorem enclosed {opening closing : UInt8} (opens : opening = 123 ∨ opening = 91)
    (closes : closing = 125 ∨ closing = 93)
    (inside : Skips json (nest + 1) text strings) : Skips json nest (opening :: text ++ [closing]) strings := by
  intro cursor rest here
  rw [List.cons_append, List.cons_append, List.append_assoc] at here
  have behind := drop_of_append (drop_succ here)
  have quote : closing ≠ 34 ∧ ¬(closing = 123 ∨ closing = 91) := by rcases closes with rfl | rfl <;> decide
  have quote' : opening ≠ 34 := by rcases opens with rfl | rfl <;> decide
  rw [skipValue_at (at_of_drop here), if_neg quote', if_pos opens, inside _ _ (drop_succ here),
    skipValue_at (at_of_drop behind), if_neg quote.1, if_neg quote.2, if_pos closes, if_neg (Nat.succ_ne_zero nest),
    Nat.add_sub_cancel]
  simp only [List.cons_append, List.length_cons, List.length_append, List.length_nil]
  congr 2
  omega

/-- Parts with commas between them, inside some bracket. -/
theorem joined {pad : Bytes} {parts : List (Bytes × List Bytes)} (inside : nest ≠ 0) (pads : JsonText.Ws pad)
    (each : ∀ part ∈ parts, Skips json nest part.1 part.2) :
    Skips json nest (JsonText.joined pad (parts.map Prod.fst)) (parts.flatMap Prod.snd) := by
  have behind : ∀ part ∈ parts, Skips json nest (44 :: part.1) part.2 := fun part member =>
    (byte (by decide) fun _ => inside).append (each part member)
  have others (rest : List (Bytes × List Bytes)) (sub : ∀ part ∈ rest, Skips json nest (44 :: part.1) part.2) :
      Skips json nest ((rest.map Prod.fst).flatMap (44 :: ·)) (rest.flatMap Prod.snd) := by
    induction rest with
    | nil => exact nil
    | cons part rest ih =>
      rw [List.forall_mem_cons] at sub
      exact sub.1.append (ih sub.2)
  cases parts with
  | nil => exact ws pads
  | cons part rest =>
    rw [List.forall_mem_cons] at each behind
    exact each.1.append (others rest behind.2)

theorem element {element : JsonText.Element} (spaced : JsonText.Ws element.before ∧ JsonText.Ws element.after)
    (value : Skips json nest element.value element.strings) : Skips json nest element.text element.strings := by
  have whole := ((ws spaced.1).append value).append (ws spaced.2)
  rwa [List.append_nil, List.nil_append] at whole

theorem member {member : JsonText.Member} (spaced : member.Spaced)
    (value : Skips json nest member.value member.strings) :
    Skips json nest member.text (member.key :: member.strings) := by
  have colon : Skips json nest (58 :: member.afterColon) [] :=
    (byte (by decide) fun comma => absurd comma (by decide)).append (ws spaced.afterColon)
  have whole := (((((ws spaced.before).append (string spaced.key)).append (ws spaced.beforeColon)).append colon).append
    value).append (ws spaced.after)
  simpa [JsonText.Member.text] using whole

/-- Every value of the grammar, however deep it is nested. -/
theorem value (value : JsonText.Value text strings) (nest : ℕ) : Skips json nest text strings := by
  induction value generalizing nest with
  | scalar scalar => exact .scalar scalar
  | string chars => exact .string chars
  | @array pad elements pads spaced each ih =>
    have parts : ∀ part ∈ elements.map fun element => (element.text, element.strings),
        Skips json (nest + 1) part.1 part.2 := by
      intro part listed
      obtain ⟨element, own, rfl⟩ := List.mem_map.mp listed
      exact .element (spaced element own) (ih element own _)
    have whole := enclosed (.inr rfl) (.inr rfl) (joined (Nat.succ_ne_zero nest) pads parts)
    rwa [List.map_map, List.flatMap_map] at whole
  | @object pad members pads spaced each ih =>
    have parts : ∀ part ∈ members.map fun member => (member.text, member.key :: member.strings),
        Skips json (nest + 1) part.1 part.2 := by
      intro part listed
      obtain ⟨member, own, rfl⟩ := List.mem_map.mp listed
      exact .member (spaced member own) (ih member own _)
    have whole := enclosed (.inl rfl) (.inl rfl) (joined (Nat.succ_ne_zero nest) pads parts)
    rwa [List.map_map, List.flatMap_map] at whole

end Skips

end LazorKit
