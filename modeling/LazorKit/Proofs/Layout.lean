import LazorKit.Model.State

/-! # What the layouts read and write

A header written at the front of an account's data reads back as itself, and rewriting one field
changes exactly that field's bytes. Everything later uses these facts and none of the offsets.
-/

namespace LazorKit

open Solana

theorem slice_chunk {first chunk last : Bytes} {offset count : ℕ} (before : first.length = offset)
    (width : chunk.length = count) : Bytes.slice (first ++ (chunk ++ last)) offset count = chunk := by
  subst before width
  simp [Bytes.slice]

theorem slice_front {first rest : Bytes} {count : ℕ} (width : first.length = count) :
    Bytes.slice (first ++ rest) 0 count = first := by
  subst width
  simp [Bytes.slice]

theorem slice_skip {first rest : Bytes} {width offset count : ℕ} (length : first.length = width)
    (past : width ≤ offset) : Bytes.slice (first ++ rest) offset count = rest.slice (offset - width) count := by
  subst length
  exact Bytes.slice_append_right past

theorem slice_cons (b : UInt8) (rest : Bytes) (offset count : ℕ) :
    Bytes.slice (b :: rest) (offset + 1) count = rest.slice offset count := rfl

private theorem splice_append (first patch last : Bytes) :
    Bytes.splice (first ++ last) first.length patch = first ++ (patch ++ last.drop patch.length) := by
  simp [Bytes.splice]

/-- Overwriting the whole of some data. -/
theorem splice_whole {data patch : Bytes} (width : data.length = patch.length) : data.splice 0 patch = patch := by
  rw [Bytes.splice, List.take_zero, List.nil_append, Nat.zero_add, ← width, List.drop_length, List.append_nil]

theorem readKey_of_slice {data : Bytes} {offset : ℕ} {key : Pubkey}
    (window : data.slice offset 32 = key.bytes) : readKey data offset = key := by
  rw [readKey, window, BytesN.ofBytes_bytes]

private theorem bytes_readKey {data : Bytes} {offset : ℕ} (fits : offset + 32 ≤ data.length) :
    (readKey data offset).bytes = data.slice offset 32 :=
  BytesN.bytes_ofBytes (Bytes.length_slice_of_le fits)

private theorem slice_five {data : Bytes} (fits : 5 ≤ data.length) :
    [data.byte 0, data.byte 1, data.byte 2, data.byte 3, data.byte 4] = data.slice 0 5 := by
  match data, fits with
  | a :: b :: c :: d :: e :: rest, _ => simp [Bytes.byte, Bytes.slice]

theorem checkHeader_eq_ok {data : Bytes} {expected : AccountDiscriminator} {offset minLen : ℕ} {u : Unit} :
    checkHeader data expected (some offset) minLen = .ok u ↔
      minLen ≤ data.length ∧ data.byte 0 = expected.toByte ∧ data.byte offset = currentAccountVersion := by
  simp only [checkHeader, Except.bind_eq_ok, Except.ensure_eq_ok, exists_const]

namespace WalletAccount

theorem check_eq_ok {data : Bytes} {u : Unit} :
    check data = .ok u ↔ 8 ≤ data.length ∧ data.byte 0 = AccountDiscriminator.wallet.toByte ∧
      data.byte 2 = currentAccountVersion := checkHeader_eq_ok

@[simp] theorem length_toBytes (wallet : WalletAccount) : wallet.toBytes.length = 8 := by
  simp [toBytes]

theorem readOwnerCount_toBytes {wallet : WalletAccount} (bound : wallet.ownerCount < 2 ^ 32) :
    readOwnerCount wallet.toBytes = wallet.ownerCount := by
  have bytes : wallet.toBytes =
      [wallet.discriminator, wallet.bump, wallet.version, wallet.padding] ++
        (Bytes.ofNatLE 4 wallet.ownerCount ++ []) := by
    simp [toBytes]
  have window : wallet.toBytes.slice ownerCountOffset 4 = Bytes.ofNatLE 4 wallet.ownerCount := by
    rw [bytes]
    exact slice_chunk rfl (by simp)
  rw [readOwnerCount, window, Bytes.toNatLE_ofNatLE_of_lt (by simpa using bound)]

theorem readOwnerCount_setOwnerCount {data : Bytes} {count : ℕ} (fits : 8 ≤ data.length)
    (bound : count < 2 ^ 32) : readOwnerCount (setOwnerCount data count) = count := by
  rw [readOwnerCount, setOwnerCount, Bytes.slice_splice_self (by simpa [ownerCountOffset] using fits) (by simp),
    Bytes.toNatLE_ofNatLE_of_lt (by simpa using bound)]

theorem length_setOwnerCount {data : Bytes} {count : ℕ} (fits : 8 ≤ data.length) :
    (setOwnerCount data count).length = data.length :=
  Bytes.length_splice (by simpa [ownerCountOffset] using fits)

theorem byte_setOwnerCount {data : Bytes} {count i : ℕ} (fits : 8 ≤ data.length) (early : i < 4) :
    (setOwnerCount data count).byte i = data.byte i :=
  Bytes.byte_splice_of_outside (by simpa [ownerCountOffset] using fits) (.inl early)

theorem check_setOwnerCount {data : Bytes} {count : ℕ} (checked : check data = .ok ()) :
    check (setOwnerCount data count) = .ok () := by
  obtain ⟨fits, tag, version⟩ := check_eq_ok.mp checked
  exact check_eq_ok.mpr ⟨by rwa [length_setOwnerCount fits], by rwa [byte_setOwnerCount fits (by decide)],
    by rwa [byte_setOwnerCount fits (by decide)]⟩

end WalletAccount

namespace AuthorityAccountHeader

theorem check_eq_ok {data : Bytes} {u : Unit} :
    check data = .ok u ↔ size ≤ data.length ∧ data.byte 0 = AccountDiscriminator.authority.toByte ∧
      data.byte 4 = currentAccountVersion := checkHeader_eq_ok

@[simp] theorem length_toBytes (header : AuthorityAccountHeader) : header.toBytes.length = size := by
  simp [toBytes, size, header.padding1.length_bytes, header.padding2.length_bytes, header.wallet.length_bytes]

/-- A header in front of other bytes reads back as itself. -/
theorem read_toBytes_append {header : AuthorityAccountHeader} {rest : Bytes}
    (counter : header.counter < 2 ^ 32) (policyLen : header.policyLen < 2 ^ 16) :
    read (header.toBytes ++ rest) = header := by
  obtain ⟨disc, kind, role, bump, version, pad1, count, len, pad2, wallet⟩ := header
  have width1 := pad1.length_bytes
  have width2 := pad2.length_bytes
  have widthW := wallet.length_bytes
  simp only [read, readKey, toBytes, Bytes.slice, Bytes.byte]
  simp [List.drop_append, width1, width2, widthW, List.drop_eq_nil_of_le]
  exact ⟨Bytes.toNatLE_ofNatLE_of_lt (by simpa using counter),
    Bytes.toNatLE_ofNatLE_of_lt (by simpa using policyLen)⟩

/-- Committing a counter rewrites its four bytes and nothing else. -/
theorem write_counter {data : Bytes} {count : ℕ} (fits : size ≤ data.length) :
    write data { read data with counter := count } = data.splice 8 (Bytes.ofNatLE 4 count) := by
  have long : 48 ≤ data.length := fits
  have front : [data.byte 0, data.byte 1, data.byte 2, data.byte 3, data.byte 4] ++ data.slice 5 3 =
      data.slice 0 8 := by
    rw [slice_five (by omega), Bytes.slice_append_slice]
  have back : data.slice 12 2 ++ (data.slice 14 2 ++ data.slice 16 32) = data.slice 12 36 := by
    rw [Bytes.slice_append_slice, Bytes.slice_append_slice]
  have policyLen : Bytes.ofNatLE 2 (data.slice 12 2).toNatLE = data.slice 12 2 := by
    have width : (data.slice 12 2).length = 2 := Bytes.length_slice_of_le (by omega)
    simpa only [width] using Bytes.ofNatLE_toNatLE (data.slice 12 2)
  have bytes : toBytes { read data with counter := count } =
      data.slice 0 8 ++ (Bytes.ofNatLE 4 count ++ data.slice 12 36) := by
    simp only [toBytes, read, policyLen, bytes_readKey (show 16 + 32 ≤ data.length by omega),
      BytesN.bytes_ofBytes (Bytes.length_slice_of_le (show 5 + 3 ≤ data.length by omega)),
      BytesN.bytes_ofBytes (Bytes.length_slice_of_le (show 14 + 2 ≤ data.length by omega))]
    rw [← front, ← back]
    simp only [List.append_assoc, List.cons_append, List.nil_append]
  have tail : data.slice 12 36 ++ data.drop 48 = data.drop 12 := by
    rw [Bytes.slice, show data.drop 48 = (data.drop 12).drop 36 by rw [List.drop_drop]]
    exact List.take_append_drop 36 _
  rw [write, Bytes.splice, length_toBytes, bytes, Bytes.splice, Bytes.length_ofNatLE]
  simp only [List.take_zero, List.nil_append, size, Nat.zero_add, List.append_assoc, tail]
  rfl

theorem length_write_counter {data : Bytes} {count : ℕ} (fits : size ≤ data.length) :
    (write data { read data with counter := count }).length = data.length := by
  have long : 48 ≤ data.length := fits
  rw [write_counter fits, Bytes.length_splice (by simp; omega)]

/-- Bytes outside the counter survive committing one. -/
theorem getElem?_write_counter {data : Bytes} {count i : ℕ} (fits : size ≤ data.length)
    (outside : i < 8 ∨ 12 ≤ i) :
    (write data { read data with counter := count })[i]? = data[i]? := by
  have long : 48 ≤ data.length := fits
  rw [write_counter fits, Bytes.getElem?_splice_of_outside (by simp; omega) (by simpa using outside)]

theorem read_write_counter {data : Bytes} {count : ℕ} (fits : size ≤ data.length)
    (bound : count < 2 ^ 32) :
    read (write data { read data with counter := count }) = { read data with counter := count } := by
  have long : 48 ≤ data.length := fits
  have room : 8 + (Bytes.ofNatLE 4 count).length ≤ data.length := by simp; omega
  have slice {offset width : ℕ} (outside : offset + width ≤ 8 ∨ 12 ≤ offset) :
      (data.splice 8 (Bytes.ofNatLE 4 count)).slice offset width = data.slice offset width :=
    Bytes.slice_splice_of_disjoint room (by simpa using outside)
  have byte {i : ℕ} (early : i < 8) : (data.splice 8 (Bytes.ofNatLE 4 count)).byte i = data.byte i :=
    Bytes.byte_splice_of_outside room (.inl early)
  have own : (data.splice 8 (Bytes.ofNatLE 4 count)).slice 8 4 = Bytes.ofNatLE 4 count :=
    Bytes.slice_splice_self room (by simp)
  rw [write_counter fits]
  simp only [read, readKey, slice (show 5 + 3 ≤ 8 ∨ 12 ≤ 5 by omega), byte (show 0 < 8 by omega),
    byte (show 1 < 8 by omega), byte (show 2 < 8 by omega), byte (show 3 < 8 by omega),
    byte (show 4 < 8 by omega), slice (show 12 + 2 ≤ 8 ∨ 12 ≤ 12 by omega),
    slice (show 14 + 2 ≤ 8 ∨ 12 ≤ 14 by omega), slice (show 16 + 32 ≤ 8 ∨ 12 ≤ 16 by omega), own,
    Bytes.toNatLE_ofNatLE_of_lt (show count < 256 ^ 4 by simpa using bound)]

/-- The header is a function of the bytes it occupies. -/
theorem read_congr {old new : Bytes} (same : ∀ i, i < size → new[i]? = old[i]?) : read new = read old := by
  have byte {i : ℕ} (early : i < size) : new.byte i = old.byte i := by
    simp only [Bytes.byte, List.getD_eq_getElem?_getD, same i early]
  have slice {offset width : ℕ} (early : offset + width ≤ size) :
      new.slice offset width = old.slice offset width :=
    Bytes.slice_congr fun i _ high => same i (by omega)
  simp only [read, readKey, byte (show 0 < size by decide), byte (show 1 < size by decide),
    byte (show 2 < size by decide), byte (show 3 < size by decide), byte (show 4 < size by decide),
    slice (show 5 + 3 ≤ size by decide), slice (show 8 + 4 ≤ size by decide),
    slice (show 12 + 2 ≤ size by decide), slice (show 14 + 2 ≤ size by decide),
    slice (show 16 + 32 ≤ size by decide)]

theorem check_congr {old new : Bytes} (length : new.length = old.length)
    (same : ∀ i, i < size → new[i]? = old[i]?) (checked : check old = .ok ()) : check new = .ok () := by
  have byte {i : ℕ} (early : i < size) : new.byte i = old.byte i := by
    simp only [Bytes.byte, List.getD_eq_getElem?_getD, same i early]
  rw [check_eq_ok] at checked ⊢
  rwa [length, byte (by decide), byte (by decide)]

/-- The bytes of a fresh authority: its header, its key material and its policy. -/
theorem write_fresh {data material policy : Bytes} {header : AuthorityAccountHeader}
    (space : data.length = size + material.length + policy.length) :
    ((write data header).splice size material).splice (size + material.length) policy =
      header.toBytes ++ (material ++ policy) := by
  have width : header.toBytes.length = size := length_toBytes header
  have first : write data header = header.toBytes ++ data.drop size := by
    rw [write, Bytes.splice, width]
    simp
  have second : (header.toBytes ++ data.drop size).splice size material =
      (header.toBytes ++ material) ++ (data.drop size).drop material.length := by
    rw [← width, splice_append, List.append_assoc]
  have both : (header.toBytes ++ material).length = size + material.length := by
    rw [List.length_append, width]
  rw [first, second, ← both, splice_append, List.drop_eq_nil_of_le, List.append_nil, List.append_assoc]
  simp only [List.length_drop]
  omega

end AuthorityAccountHeader

namespace SessionAccount

theorem check_eq_ok {data : Bytes} {u : Unit} :
    check data = .ok u ↔ sessionHeaderSize ≤ data.length ∧
      data.byte 0 = AccountDiscriminator.session.toByte ∧ data.byte 2 = currentAccountVersion :=
  checkHeader_eq_ok

@[simp] theorem length_toBytes (session : SessionAccount) : session.toBytes.length = sessionHeaderSize := by
  simp [toBytes, sessionHeaderSize, session.padding.length_bytes, session.wallet.length_bytes,
    session.sessionKey.length_bytes]

theorem read_toBytes_append {session : SessionAccount} {rest : Bytes} (expiry : session.expiresAt < 2 ^ 64) :
    read (session.toBytes ++ rest) = session := by
  obtain ⟨disc, bump, version, pad, wallet, key, expiresAt⟩ := session
  have width := pad.length_bytes
  have widthW := wallet.length_bytes
  have widthK := key.length_bytes
  simp only [read, readKey, toBytes, Bytes.slice, Bytes.byte]
  simp [List.drop_append, width, widthW, widthK, List.drop_eq_nil_of_le]
  exact Bytes.toNatLE_ofNatLE_of_lt (by simpa using expiry)

/-- The header is a function of the bytes it occupies. -/
theorem read_congr {old new : Bytes} (same : ∀ i, i < sessionHeaderSize → new[i]? = old[i]?) :
    read new = read old := by
  have byte {i : ℕ} (early : i < sessionHeaderSize) : new.byte i = old.byte i := by
    simp only [Bytes.byte, List.getD_eq_getElem?_getD, same i early]
  have slice {offset width : ℕ} (early : offset + width ≤ sessionHeaderSize) :
      new.slice offset width = old.slice offset width :=
    Bytes.slice_congr fun i _ high => same i (by omega)
  simp only [read, readKey, byte (show 0 < sessionHeaderSize by decide),
    byte (show 1 < sessionHeaderSize by decide), byte (show 2 < sessionHeaderSize by decide),
    slice (show 3 + 5 ≤ sessionHeaderSize by decide), slice (show 8 + 32 ≤ sessionHeaderSize by decide),
    slice (show 40 + 32 ≤ sessionHeaderSize by decide), slice (show 72 + 8 ≤ sessionHeaderSize by decide)]

theorem write_fresh {data actions : Bytes} {session : SessionAccount}
    (space : data.length = sessionHeaderSize + actions.length) :
    (data.splice 0 session.toBytes).splice sessionHeaderSize actions = session.toBytes ++ actions := by
  have width : session.toBytes.length = sessionHeaderSize := length_toBytes session
  have first : data.splice 0 session.toBytes = session.toBytes ++ data.drop sessionHeaderSize := by
    rw [Bytes.splice, width]
    simp
  rw [first, ← width, splice_append, List.drop_eq_nil_of_le, List.append_nil]
  simp only [List.length_drop]
  omega

end SessionAccount

namespace DeferredExecAccount

theorem check_eq_ok {data : Bytes} {u : Unit} :
    check data = .ok u ↔ size ≤ data.length ∧
      data.byte 0 = AccountDiscriminator.deferredExec.toByte ∧ data.byte 1 = currentAccountVersion :=
  checkHeader_eq_ok

@[simp] theorem length_toBytes (deferred : DeferredExecAccount) : deferred.toBytes.length = size := by
  simp [toBytes, size, deferred.padding.length_bytes, deferred.instructionsHash.length_bytes,
    deferred.accountsHash.length_bytes, deferred.wallet.length_bytes, deferred.authority.length_bytes,
    deferred.payer.length_bytes]

theorem read_toBytes (deferred : DeferredExecAccount) (expiry : deferred.expiresAt < 2 ^ 64) :
    read deferred.toBytes = deferred := by
  obtain ⟨disc, version, bump, pad, ixHash, accHash, wallet, authority, payer, expiresAt⟩ := deferred
  have widthP := pad.length_bytes
  have widthI := ixHash.length_bytes
  have widthA := accHash.length_bytes
  have widthW := wallet.length_bytes
  have widthU := authority.length_bytes
  have widthY := payer.length_bytes
  simp only [read, readKey, toBytes, List.append_assoc, List.cons_append, List.nil_append]
  simp [slice_cons, slice_skip widthP, slice_skip widthI, slice_skip widthA, slice_skip widthW,
    slice_skip widthU, slice_skip widthY, slice_front widthP, slice_front widthI, slice_front widthA,
    slice_front widthW, slice_front widthU, slice_front widthY, Bytes.byte]
  rw [Bytes.slice, List.drop_zero, List.take_of_length_le (by simp)]
  exact Bytes.toNatLE_ofNatLE_of_lt (by simpa using expiry)

end DeferredExecAccount

end LazorKit
