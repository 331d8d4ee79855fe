import LazorKit.Proofs.ClientLoops

/-! # What the client data scanner extracts

Over a JSON object the scanner is a lookup in the list of its members, in order: it stops at the first member
of the wanted name and fails at the first string token with an escape. Nothing else of the text reaches the
result. On any byte string at all its loops end and stay inside the text.
-/

namespace LazorKit

open Solana

/-- The raw text of a member's value, if it is a string. -/
def stringValue (member : JsonText.Member) : Option Bytes :=
  match member.value with
  | 34 :: rest => some rest.dropLast
  | _ => none

/-- The first member of the given name, among members whose string tokens have no escape. -/
def lookupField (fieldName : Bytes) : List JsonText.Member → Except ProgramError Bytes
  | [] => .error ↑AuthError.invalidMessage
  | member :: rest =>
    if 92 ∈ member.key then .error ↑AuthError.invalidMessage
    else if member.key = fieldName then
      match stringValue member with
      | some raw => if 92 ∈ raw then .error ↑AuthError.invalidMessage else .ok raw
      | none => .error ↑AuthError.invalidMessage
    else if Unescaped member.strings then lookupField fieldName rest
    else .error ↑AuthError.invalidMessage

private theorem stringValue_quoted {member : JsonText.Member} {raw : Bytes}
    (value : member.value = JsonText.quoted raw) :
    stringValue member = some raw := by
  rw [stringValue, value, JsonText.quoted]
  simp

private theorem stringValue_other {member : JsonText.Member} {b : UInt8} {rest : Bytes}
    (value : member.value = b :: rest) (other : b ≠ 34) : stringValue member = none := by
  rw [stringValue, value]
  split
  · next first => exact absurd (List.cons.inj first).1 other
  · rfl

section Walk

variable {json fieldName : Bytes} {cursor : ℕ}

/-- Over bytes that mean nothing to the walk. -/
theorem walkFields_run {depth : ℕ} {text rest : Bytes} (plain : ∀ b ∈ text, b ∉ [34, 123, 125])
    (here : json.drop cursor = text ++ rest) :
    walkFields json fieldName json.length depth cursor =
      walkFields json fieldName json.length depth (cursor + text.length) := by
  induction text generalizing cursor with
  | nil => rfl
  | cons b text ih =>
    rw [List.forall_mem_cons] at plain
    have other := plain.1
    simp only [List.mem_cons, List.not_mem_nil, or_false, not_or] at other
    rw [walkFields_at (at_of_drop here) (by tauto), if_neg other.2.1, if_neg other.2.2, ih plain.2 (drop_succ here),
      List.length_cons, Nat.add_right_comm, Nat.add_assoc]

private theorem walkFields_ws {depth : ℕ} {text rest : Bytes} (ws : JsonText.Ws text)
    (here : json.drop cursor = text ++ rest) :
    walkFields json fieldName json.length depth cursor =
      walkFields json fieldName json.length depth (cursor + text.length) := by
  refine walkFields_run (fun b member => ?_) here
  rcases of_decide_eq_true (ws b member) with rfl | rfl | rfl | rfl <;> decide

/-- Behind the object there is only white space. -/
theorem walkFields_end {trail : Bytes} (ws : JsonText.Ws trail) (here : json.drop cursor = 125 :: trail) :
    walkFields json fieldName json.length 1 cursor = .error ↑AuthError.invalidMessage := by
  rw [walkFields_at (at_of_drop here) (by decide), if_neg (by decide), if_pos rfl, if_neg (by decide)]
  have behind : json.drop (cursor + 1) = trail ++ [] := by rw [List.append_nil, drop_succ here]
  rw [walkFields_ws ws behind]
  refine walkFields_done (List.getElem?_eq_none_iff.mpr ?_)
  exact List.drop_eq_nil_iff.mp (drop_of_append behind)

private theorem isAsciiWhitespace_of_le {b : UInt8} (low : 34 ≤ b) : isAsciiWhitespace b = false := by
  apply decide_eq_false
  rintro (rfl | rfl | rfl | rfl | rfl) <;> revert low <;> decide

/-- At depth one a quote starts a key, and the value stands behind its colon. -/
theorem walkFields_key {key beforeColon afterColon tail : Bytes} {b : UInt8} {place : ℕ} (chars : JsonText.Chars key)
    (ws : JsonText.Ws beforeColon) (ws' : JsonText.Ws afterColon) (low : 34 ≤ b)
    (here : json.drop cursor = 34 :: (key ++ 34 :: (beforeColon ++ 58 :: (afterColon ++ b :: tail))))
    (there : place = cursor + 1 + key.length + 1 + beforeColon.length + 1 + afterColon.length) :
    json.drop place = b :: tail ∧ walkFields json fieldName json.length 1 cursor =
      if 92 ∈ key then .error ↑AuthError.invalidMessage
      else if key = fieldName then do
        Except.ensure (b = 34) ↑AuthError.invalidMessage
        let valueEnd ← scanString json json.length (place + 1)
        Except.ensure (valueEnd < json.length) ↑AuthError.invalidMessage
        .ok (json.slice (place + 1) (valueEnd - (place + 1)))
      else if b = 34 then skipString json (place + 1) >>= walkFields json fieldName json.length 1
      else skipValue json json.length 0 place >>= walkFields json fieldName json.length 1 := by
  have closing := drop_of_append (drop_succ here)
  have colon := drop_of_append (drop_succ closing)
  have value := drop_of_append (drop_succ colon)
  have beforeColonEnd := skipWhitespace_ws ws (by decide) (drop_succ closing)
  have afterColonEnd := skipWhitespace_ws ws' (isAsciiWhitespace_of_le low) (drop_succ colon)
  rw [← there] at value afterColonEnd
  refine ⟨value, ?_⟩
  have more : walkFields json fieldName json.length 1 cursor = walkFields json fieldName (json.length + 1) 1 cursor :=
    walkFields_fuel (by omega) (by omega)
  have keyText : json.slice (cursor + 1) (cursor + 1 + key.length - (cursor + 1)) = key := by
    rw [Bytes.slice, drop_succ here, Nat.add_sub_cancel_left, List.take_left]
  rw [more, walkFields, at_of_drop here]
  simp only [show ((34 : UInt8) = 123) = False by decide, show ((34 : UInt8) = 125) = False by decide, if_false,
    and_self, if_true, scanString_chars chars (drop_succ here)]
  split
  · rfl
  · simp only [Except.ok_bind, beforeColonEnd, afterColonEnd, at_of_drop colon,
      Except.ensure_of (lt_length_of_drop closing), Except.ensure_of (lt_length_of_drop value), keyText, indexByte,
        at_of_drop value]
    rfl

/-- The value loop stops at the comma or the closing brace behind a value on the outside. -/
theorem skipValue_outside {text after rest : Bytes} {strings : List Bytes} {separator : UInt8} {place : ℕ}
    (value : JsonText.Value text strings) (ws : JsonText.Ws after) (ends : separator = 44 ∨ separator = 125)
    (here : json.drop place = text ++ (after ++ separator :: rest)) :
    skipValue json json.length 0 place =
      if Unescaped strings then .ok (place + text.length + after.length) else .error ↑AuthError.invalidMessage := by
  have behind := drop_of_append here
  have stop := at_of_drop (drop_of_append behind)
  rw [Skips.value value 0 place _ here, Skips.ws ws _ _ behind, if_pos (show Unescaped [] from nofun),
    skipValue_at stop]
  rcases ends with rfl | rfl <;> rfl

/-- One member, with a comma or the closing brace behind it. -/
theorem walkFields_member {member : JsonText.Member} {separator : UInt8} {rest : Bytes} (spaced : member.Spaced)
    (value : JsonText.Value member.value member.strings) (ends : separator = 44 ∨ separator = 125)
    (here : json.drop cursor = member.text ++ separator :: rest) :
    walkFields json fieldName json.length 1 cursor =
      if 92 ∈ member.key then .error ↑AuthError.invalidMessage
      else if member.key = fieldName then
        match stringValue member with
        | some raw => if 92 ∈ raw then .error ↑AuthError.invalidMessage else .ok raw
        | none => .error ↑AuthError.invalidMessage
      else if Unescaped member.strings then walkFields json fieldName json.length 1 (cursor + member.text.length)
      else .error ↑AuthError.invalidMessage := by
  have parts : json.drop cursor = member.before ++ 34 :: (member.key ++ 34 :: (member.beforeColon ++ 58 ::
      (member.afterColon ++ (member.value ++ (member.after ++ separator :: rest))))) := by
    simpa [JsonText.Member.text, JsonText.quoted] using here
  have length : member.text.length = member.before.length + 1 + member.key.length + 1 + member.beforeColon.length + 1 +
      member.afterColon.length + member.value.length + member.after.length := by
    simp only [JsonText.Member.text, JsonText.quoted, List.length_append, List.length_cons, List.length_nil]
    omega
  rw [walkFields_ws spaced.before parts]
  have atKey := drop_of_append parts
  obtain ⟨place, there⟩ : ∃ place, place = cursor + member.before.length + 1 + member.key.length + 1 +
    member.beforeColon.length + 1 + member.afterColon.length := ⟨_, rfl⟩
  rcases value.quoted_or with ⟨raw, chars, text, strings⟩ | ⟨b, tail, text, low⟩
  · rw [text] at atKey length
    obtain ⟨atValue, walks⟩ :=
      walkFields_key spaced.key spaced.beforeColon spaced.afterColon (Nat.le_refl _) atKey there
    have inside : json.drop (place + 1) = raw ++ 34 :: (member.after ++ separator :: rest) :=
      (drop_succ atValue).trans (List.append_assoc raw [34] _)
    rw [walks, stringValue_quoted text, strings]
    refine ite_congr rfl (fun _ => rfl) fun _ => ite_congr rfl (fun _ => ?_) fun _ => ?_
    · rw [scanString_chars chars inside]
      by_cases escaped : 92 ∈ raw
      · simp only [if_pos escaped]
        rfl
      · have closed := lt_length_of_drop (drop_of_append inside)
        simp only [if_neg escaped, Except.ok_bind, Except.ensure_of closed, Bytes.slice, inside,
          Nat.add_sub_cancel_left, List.take_left]
        rfl
    · rw [if_pos rfl, skipString_chars chars inside]
      by_cases escaped : 92 ∈ raw
      · rw [if_pos escaped, if_neg (by simp [Unescaped, escaped])]
        rfl
      · rw [if_neg escaped, if_pos (by simp [Unescaped, escaped]), Except.ok_bind,
          walkFields_ws spaced.after (drop_succ (drop_of_append inside)), length]
        congr 1
        simp only [JsonText.quoted, List.cons_append, List.length_cons, List.length_append, List.length_nil]
        omega
  · rw [text] at atKey
    obtain ⟨atValue, walks⟩ :=
      walkFields_key spaced.key spaced.beforeColon spaced.afterColon (UInt8.le_of_lt low) atKey there
    have other : b ≠ 34 := (UInt8.ne_of_lt low).symm
    have inside : json.drop place = member.value ++ (member.after ++ separator :: rest) := by
      rw [atValue, text]
      rfl
    rw [walks, stringValue_other text other]
    refine ite_congr rfl (fun _ => rfl) fun _ => ite_congr rfl (fun _ => ?_) fun _ => ?_
    · rw [Except.ensure, if_neg other]
      rfl
    · rw [if_neg other, skipValue_outside value spaced.after ends inside]
      by_cases clean : Unescaped member.strings
      · rw [if_pos clean, if_pos clean, Except.ok_bind, length]
        congr 1
        omega
      · rw [if_neg clean, if_neg clean]
        rfl

/-- A comma or the closing brace stands behind every member. -/
theorem separated (members : List JsonText.Member) (trail : Bytes) : ∃ separator rest,
    (separator = 44 ∨ separator = 125) ∧
      (members.map JsonText.Member.text).flatMap (44 :: ·) ++ 125 :: trail = separator :: rest := by
  cases members with
  | nil => exact ⟨125, trail, .inr rfl, rfl⟩
  | cons member members => exact ⟨44, _, .inl rfl, rfl⟩

/-- The members behind a first one, each with its comma. -/
theorem walkFields_rest {members : List JsonText.Member} {trail : Bytes} (spaced : ∀ member ∈ members, member.Spaced)
    (each : ∀ member ∈ members, JsonText.Value member.value member.strings) (ws : JsonText.Ws trail)
    (here : json.drop cursor = (members.map JsonText.Member.text).flatMap (44 :: ·) ++ 125 :: trail) :
    walkFields json fieldName json.length 1 cursor = lookupField fieldName members := by
  induction members generalizing cursor with
  | nil => exact walkFields_end ws here
  | cons member members ih =>
    rw [List.forall_mem_cons] at spaced each
    rw [List.map_cons, List.flatMap_cons, List.cons_append, List.cons_append, List.append_assoc] at here
    have behind := drop_succ here
    obtain ⟨separator, rest, ends, next⟩ := separated members trail
    rw [next] at behind
    rw [walkFields_at (at_of_drop here) (by decide), if_neg (by decide), if_neg (by decide),
      walkFields_member spaced.1 each.1 ends behind, lookupField,
      ih spaced.2 each.2 (drop_of_append (drop_succ here))]

end Walk

/-- Over an object, the scanner is a lookup among its members. -/
theorem extractTopLevelStringField_eq {json fieldName : Bytes} {members : List JsonText.Member}
    (object : JsonText.ObjectText json members) :
    extractTopLevelStringField json fieldName = lookupField fieldName members := by
  obtain ⟨⟨lead, pad, trail, leads, pads, trails, written⟩, spaced, each⟩ := object
  have whole : json.drop 0 =
      lead ++ 123 :: (JsonText.joined pad (members.map JsonText.Member.text) ++ 125 :: trail) := by
    rw [List.drop_zero, written]
    simp
  have start := skipWhitespace_ws leads (by decide) whole
  have brace := drop_of_append whole
  have body := drop_succ brace
  rw [Nat.zero_add] at start brace body
  rw [extractTopLevelStringField, start, Except.ensure_of (at_of_drop brace), Except.ok_bind,
    walkFields_at (at_of_drop brace) (by decide), if_pos rfl]
  cases members with
  | nil =>
    rw [walkFields_ws pads body]
    exact walkFields_end trails (drop_of_append body)
  | cons member members =>
    rw [List.forall_mem_cons] at spaced each
    rw [List.map_cons, JsonText.joined, List.append_assoc] at body
    obtain ⟨separator, rest, ends, next⟩ := separated members trail
    have first := body
    rw [next] at first
    rw [walkFields_member spaced.1 each.1 ends first, lookupField,
      walkFields_rest spaced.2 each.2 trails (drop_of_append body)]

/-- A member is what the lookup finds: nothing in front of it has its name, and no string token up to and including
its value has an escape. -/
structure FoundIn (fieldName : Bytes) (members : List JsonText.Member) (value : Bytes) (earlier : List JsonText.Member)
    (member : JsonText.Member) : Prop where
  within : ∃ later, members = earlier ++ member :: later
  first : ∀ other ∈ earlier, other.key ≠ fieldName
  named : member.key = fieldName
  string : member.value = JsonText.quoted value
  before : ∀ other ∈ earlier, Unescaped (other.key :: other.strings)
  upTo : Unescaped [member.key, value]

private theorem stringValue_eq_some {member : JsonText.Member} (value : JsonText.Value member.value member.strings)
    {raw : Bytes} :
    stringValue member = some raw ↔ member.value = JsonText.quoted raw := by
  refine ⟨fun found => ?_, stringValue_quoted⟩
  rcases value.quoted_or with ⟨own, _, text, _⟩ | ⟨b, rest, text, low⟩
  · rw [stringValue_quoted text, Option.some.injEq] at found
    rw [text, found]
  · rw [stringValue_other text (UInt8.ne_of_lt low).symm] at found
    cases found

theorem lookupField_eq_ok {fieldName value : Bytes} {members : List JsonText.Member}
    (each : ∀ member ∈ members, JsonText.Value member.value member.strings) :
    lookupField fieldName members = .ok value ↔ ∃ earlier member, FoundIn fieldName members value earlier member := by
  induction members with
  | nil =>
    refine ⟨nofun, ?_⟩
    rintro ⟨earlier, member, ⟨later, split⟩, _⟩
    cases earlier <;> cases split
  | cons head rest ih =>
    rw [List.forall_mem_cons] at each
    rw [lookupField]
    constructor
    · intro success
      split at success
      · cases success
      · next clean =>
        split at success
        · next named =>
          split at success
          · next raw found =>
            split at success
            · cases success
            · next cleanValue =>
              cases success
              exact ⟨[], head, ⟨rest, rfl⟩, nofun, named, (stringValue_eq_some each.1).mp found, nofun,
                by simp [Unescaped, clean, cleanValue]⟩
          · cases success
        · next other =>
          split at success
          · next cleanStrings =>
            obtain ⟨earlier, member, ⟨later, split⟩, first, named, string, before, upTo⟩ := (ih each.2).mp success
            refine ⟨head :: earlier, member, ⟨later, congrArg (head :: ·) split⟩,
              List.forall_mem_cons.mpr ⟨other, first⟩, named, string, List.forall_mem_cons.mpr ⟨?_, before⟩, upTo⟩
            exact List.forall_mem_cons.mpr ⟨clean, cleanStrings⟩
          · cases success
    · rintro ⟨earlier, member, ⟨later, split⟩, first, named, string, before, upTo⟩
      cases earlier with
      | nil =>
        obtain ⟨rfl, rfl⟩ := List.cons.inj split
        simp only [Unescaped, List.mem_cons, List.not_mem_nil, or_false, forall_eq_or_imp, forall_eq] at upTo
        rw [if_neg upTo.1, if_pos named, stringValue_quoted string]
        exact if_neg upTo.2
      | cons other earlier =>
        obtain ⟨rfl, tail⟩ := List.cons.inj split
        rw [List.forall_mem_cons] at first before
        have clean : 92 ∉ head.key ∧ Unescaped head.strings := List.forall_mem_cons.mp before.1
        rw [if_neg clean.1, if_neg first.1, if_pos clean.2]
        exact (ih each.2).mpr ⟨earlier, member, ⟨later, tail⟩, first.2, named, string, before.2, upTo⟩

/-- What of a member can reach the result. -/
def outline (member : JsonText.Member) : Bytes × Option Bytes × Bool :=
  (member.key, stringValue member, decide (Unescaped member.strings))

private theorem lookupField_congr {fieldName : Bytes} {members members' : List JsonText.Member}
    (same : members.map outline = members'.map outline) :
      lookupField fieldName members = lookupField fieldName members' := by
  induction members generalizing members' with
  | nil =>
    cases members' with
    | nil => rfl
    | cons => cases same
  | cons member rest ih =>
    cases members' with
    | nil => cases same
    | cons member' rest' =>
      obtain ⟨alike, others⟩ := List.cons.inj same
      simp only [outline, Prod.mk.injEq, decide_eq_decide] at alike
      obtain ⟨key, value, clean⟩ := alike
      rw [lookupField, lookupField, key, value, ih others]
      simp only [clean]

/-- What the scanner returns over an object, what of the object it depends on, and that it returns at all. -/
theorem client_fields :
    (∀ json members, JsonText.ObjectText json members → ∀ fieldName value,
      extractTopLevelStringField json fieldName = .ok value ↔
        ∃ earlier member, FoundIn fieldName members value earlier member) ∧
    (∀ json json' members members', JsonText.ObjectText json members → JsonText.ObjectText json' members' →
      members.map outline = members'.map outline →
      ∀ fieldName, extractTopLevelStringField json fieldName = extractTopLevelStringField json' fieldName) ∧
    ∀ json fieldName, ClientLoops.Yields json fieldName (.leading 0) (extractTopLevelStringField json fieldName) := by
  refine ⟨?_, ?_, ClientLoops.yields_extract⟩
  · intro json members object fieldName value
    rw [extractTopLevelStringField_eq object]
    exact lookupField_eq_ok object.each
  · intro json json' members members' object object' same fieldName
    rw [extractTopLevelStringField_eq object, extractTopLevelStringField_eq object']
    exact lookupField_congr same

namespace Sample

/-- `{"id": {"challenge":"}"}, "challenge":"real"}`. -/
def clientData : Bytes :=
  [123, 34, 105, 100, 34, 58, 32, 123, 34, 99, 104, 97, 108, 108, 101, 110, 103, 101, 34, 58, 34, 125, 34, 125, 44, 32,
    34, 99, 104, 97, 108, 108, 101, 110, 103, 101, 34, 58, 34, 114, 101, 97, 108, 34, 125]

/-- The member inside the first one's value. -/
def inner : JsonText.Member := ⟨[], challengeField, [], [], [34, 125, 34], [], [[125]]⟩

def clientMembers : List JsonText.Member :=
  [⟨[], [105, 100], [], [32], 123 :: inner.text ++ [125], [], [challengeField, [125]]⟩,
    ⟨[32], challengeField, [], [], [34, 114, 101, 97, 108, 34], [], [[114, 101, 97, 108]]⟩]

private theorem chars_of_plain {raw : Bytes} (plain : ∀ b ∈ raw, 32 ≤ b ∧ b ≠ 34 ∧ b ≠ 92) : JsonText.Chars raw := by
  induction raw with
  | nil => exact .nil
  | cons b rest ih =>
    rw [List.forall_mem_cons] at plain
    exact .plain plain.1.1 plain.1.2.1 plain.1.2.2 (ih plain.2)

private theorem clientData_object : JsonText.ObjectText clientData clientMembers := by
  have blank : JsonText.Ws [] := nofun
  have space : JsonText.Ws [32] := by
    intro b member
    rw [List.mem_singleton.mp member]
    rfl
  have challenge : JsonText.Chars challengeField := chars_of_plain (by decide +kernel)
  have brace : JsonText.Chars [125] := chars_of_plain (by decide +kernel)
  have real : JsonText.Chars [114, 101, 97, 108] := chars_of_plain (by decide +kernel)
  have nested : JsonText.Value (123 :: inner.text ++ [125]) [challengeField, [125]] := by
    have each : ∀ member ∈ [inner], JsonText.Value member.value member.strings := by
      intro member own
      rw [List.mem_singleton.mp own]
      exact .string brace
    have spaced : ∀ member ∈ [inner], member.Spaced := by
      intro member own
      rw [List.mem_singleton.mp own]
      exact ⟨blank, challenge, blank, blank, blank⟩
    have whole := JsonText.Value.object blank spaced each
    simpa [JsonText.joined, inner] using whole
  refine ⟨⟨[], [], [], blank, blank, blank, by decide⟩, ?_, ?_⟩
  · rintro member (_ | ⟨_, _ | ⟨_, ⟨⟩⟩⟩)
    · exact ⟨blank, chars_of_plain (by decide +kernel), blank, space, blank⟩
    · exact ⟨space, challenge, blank, blank, blank⟩
  · rintro member (_ | ⟨_, _ | ⟨_, ⟨⟩⟩⟩)
    · exact nested
    · exact .string real

end Sample

/-- The challenge is the one of the outer object. -/
theorem client_fields_sample :
    JsonText.ObjectText Sample.clientData Sample.clientMembers ∧
      extractTopLevelStringField Sample.clientData challengeField = .ok [114, 101, 97, 108] := by
  refine ⟨Sample.clientData_object, (client_fields.1 _ _ Sample.clientData_object _ _).mpr ?_⟩
  refine ⟨Sample.clientMembers.take 1, Sample.clientMembers.get ⟨1, by decide⟩, ⟨[], rfl⟩, ?_, rfl, rfl, ?_, ?_⟩
  · decide
  · decide
  · decide

end LazorKit
