import LazorKit.Proofs.Authentication

/-! # What a client data JSON commits to

The challenge member is compared with the base64url text of the expected challenge. That text
determines the challenge, so one client data JSON passes for one challenge only.
-/

namespace LazorKit

open Solana

private theorem foldl_or_eq_zero {bytes : Bytes} {start : UInt8} :
    bytes.foldl (· ||| ·) start = 0 ↔ start = 0 ∧ ∀ b ∈ bytes, b = 0 := by
  induction bytes generalizing start with
  | nil => simp
  | cons b rest ih => simp [ih, and_assoc]

private theorem zipWith_xor_eq_zero {a b : Bytes} (same : a.length = b.length) :
    (∀ c ∈ List.zipWith (· ^^^ ·) a b, c = 0) ↔ a = b := by
  induction a generalizing b with
  | nil => cases b with
    | nil => simp
    | cons => simp at same
  | cons x a ih => cases b with
    | nil => simp at same
    | cons y b => simp [ih (Nat.succ.inj same)]

theorem ctEq_eq_true {a b : Bytes} : ctEq a b = true ↔ a = b := by
  unfold ctEq
  split
  · next differ =>
    constructor
    · intro absurd
      cases absurd
    · rintro rfl
      exact absurd rfl differ
  · next same =>
    rw [beq_iff_eq, foldl_or_eq_zero, zipWith_xor_eq_zero (by omega)]
    simp

private theorem base64urlAlphabet_nodup : base64urlAlphabet.Nodup := by decide

private theorem letter_injective {i j : ℕ} (low : i < 64) (low' : j < 64)
    (same : base64urlAlphabet.getD i 0 = base64urlAlphabet.getD j 0) : i = j := by
  have size : base64urlAlphabet.length = 64 := rfl
  rw [List.getD_eq_getElem?_getD, List.getD_eq_getElem?_getD, List.getElem?_eq_getElem (by omega),
    List.getElem?_eq_getElem (by omega)] at same
  exact base64urlAlphabet_nodup.getElem_inj_iff.mp same

/-- A letter determines its six bits. -/
theorem base64urlLetter_injective {group group' shift : ℕ}
    (same : base64urlLetter group shift = base64urlLetter group' shift) :
    group / 2 ^ shift % 64 = group' / 2 ^ shift % 64 := by
  have bits (g : ℕ) : g >>> shift &&& 0x3f = g / 2 ^ shift % 64 := by
    rw [Nat.shiftRight_eq_div_pow, show (0x3f : ℕ) = 2 ^ 6 - 1 from rfl, Nat.and_two_pow_sub_one_eq_mod]
  rw [base64urlLetter, base64urlLetter, bits, bits] at same
  exact letter_injective (Nat.mod_lt _ (by decide)) (Nat.mod_lt _ (by decide)) same

theorem group_two (a b : UInt8) : a.toNat <<< 16 ||| b.toNat <<< 8 = a.toNat * 65536 + b.toNat * 256 := by
  have bound := b.toNat_lt
  rw [Nat.shiftLeft_eq, Nat.shiftLeft_eq, Nat.mul_comm a.toNat (2 ^ 16), ← Nat.two_pow_add_eq_or_of_lt (by omega)]

theorem group_three (a b c : UInt8) :
    a.toNat <<< 16 ||| b.toNat <<< 8 ||| c.toNat = a.toNat * 65536 + b.toNat * 256 + c.toNat := by
  have bound := c.toNat_lt
  have split : a.toNat * 65536 + b.toNat * 256 = 2 ^ 8 * (a.toNat * 256 + b.toNat) := by ring
  rw [group_two, split, ← Nat.two_pow_add_eq_or_of_lt (by omega)]

/-- The text determines the bytes. -/
theorem base64urlEncodeNoPad_injective {xs ys : Bytes} (width : xs.length = ys.length)
    (same : base64urlEncodeNoPad xs = base64urlEncodeNoPad ys) : xs = ys := by
  induction xs using base64urlEncodeNoPad.induct generalizing ys with
  | case1 => exact (List.length_eq_zero_iff.mp width.symm).symm
  | case2 a =>
    obtain ⟨a', rfl⟩ := List.length_eq_one_iff.mp width.symm
    simp only [base64urlEncodeNoPad, List.cons.injEq, and_true] at same
    have high := base64urlLetter_injective same.1
    have low := base64urlLetter_injective same.2
    rw [Nat.shiftLeft_eq, Nat.shiftLeft_eq] at high low
    have bound := a.toNat_lt
    have bound' := a'.toNat_lt
    rw [UInt8.toNat_inj.mp (show a.toNat = a'.toNat by omega)]
  | case3 a b =>
    obtain ⟨a', b', rfl⟩ := List.length_eq_two.mp width.symm
    simp only [base64urlEncodeNoPad, List.cons.injEq, and_true, group_two] at same
    obtain ⟨first, second, third⟩ := same
    have first := base64urlLetter_injective first
    have second := base64urlLetter_injective second
    have third := base64urlLetter_injective third
    have boundA := a.toNat_lt
    have boundB := b.toNat_lt
    have boundA' := a'.toNat_lt
    have boundB' := b'.toNat_lt
    rw [UInt8.toNat_inj.mp (show a.toNat = a'.toNat by omega), UInt8.toNat_inj.mp (show b.toNat = b'.toNat by omega)]
  | case4 a b c rest ih =>
    match ys with
    | [] | [_] | [_, _] => simp at width
    | a' :: b' :: c' :: rest' =>
      simp only [base64urlEncodeNoPad, List.cons.injEq, group_three] at same
      obtain ⟨first, second, third, fourth, rest⟩ := same
      have first := base64urlLetter_injective first
      have second := base64urlLetter_injective second
      have third := base64urlLetter_injective third
      have fourth := base64urlLetter_injective fourth
      have boundA := a.toNat_lt
      have boundB := b.toNat_lt
      have boundC := c.toNat_lt
      have boundA' := a'.toNat_lt
      have boundB' := b'.toNat_lt
      have boundC' := c'.toNat_lt
      rw [UInt8.toNat_inj.mp (show a.toNat = a'.toNat by omega), UInt8.toNat_inj.mp (show b.toNat = b'.toNat by omega),
        UInt8.toNat_inj.mp (show c.toNat = c'.toNat by omega), ih (by simpa using width) rest]

/-- One client data JSON passes for one challenge only. -/
theorem checkClientData_injective {json : Bytes} {challenge challenge' : Bytes32}
    (passes : Secp256r1Authenticator.checkClientData json challenge = .ok ())
    (passes' : Secp256r1Authenticator.checkClientData json challenge' = .ok ()) : challenge = challenge' := by
  simp only [Secp256r1Authenticator.checkClientData, Except.bind_eq_ok, Except.ensure_eq_ok, exists_const,
    ctEq_eq_true] at passes passes'
  obtain ⟨_, _, _, text, found, same⟩ := passes
  obtain ⟨_, _, _, text', found', same'⟩ := passes'
  cases found.symm.trans found'
  exact BytesN.ext_bytes (base64urlEncodeNoPad_injective (by rw [challenge.length_bytes, challenge'.length_bytes])
    (same.symm.trans same'))

end LazorKit
