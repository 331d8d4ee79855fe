import LazorKit.Model.Error

/-! # Account layouts

Every account the program owns starts with a fixed little-endian header. A header is read out of
raw data into a record and written back as bytes, padding included, so that a read-modify-write
touches exactly what the code touches. `checkHeader` is the one gate in front of every field.
-/

namespace LazorKit

open Solana

/-- Account types; the high nibble of the tag is the protocol version. -/
inductive AccountDiscriminator where
  | wallet
  | authority
  | session
  | deferredExec
  | protocolConfig
  | feeRecord
  | treasuryShard
deriving DecidableEq, Repr

def AccountDiscriminator.toByte : AccountDiscriminator → UInt8
  | .wallet => 0x21
  | .authority => 0x22
  | .session => 0x23
  | .deferredExec => 0x24
  | .protocolConfig => 0x25
  | .feeRecord => 0x26
  | .treasuryShard => 0x27

/-- Layout revision within the protocol version, stored in every header. -/
def currentAccountVersion : UInt8 := 1

/-- Validate an account's length, discriminator and layout version. -/
def checkHeader (data : Bytes) (expected : AccountDiscriminator) (versionOffset : Option ℕ)
    (minLen : ℕ) : Except ProgramError Unit := do
  Except.ensure (minLen ≤ data.length) .invalidAccountData
  Except.ensure (data.byte 0 = expected.toByte) .invalidAccountData
  match versionOffset with
  | some offset => Except.ensure (data.byte offset = currentAccountVersion) ↑ProtocolError.accountVersionMismatch
  | none => .ok ()

/-- The address stored at an offset. -/
def readKey (data : Bytes) (offset : ℕ) : Pubkey := .ofBytes (data.slice offset 32)

/-- The trust anchor of a wallet: 8 bytes. -/
structure WalletAccount where
  discriminator : UInt8
  bump : UInt8
  version : UInt8
  padding : UInt8
  ownerCount : ℕ

namespace WalletAccount

def minLen : ℕ := 8
def ownerCountOffset : ℕ := 4

def toBytes (wallet : WalletAccount) : Bytes :=
  [wallet.discriminator, wallet.bump, wallet.version, wallet.padding] ++ Bytes.ofNatLE 4 wallet.ownerCount

def check (data : Bytes) : Except ProgramError Unit := checkHeader data .wallet (some 2) minLen

/-- How many authorities of the wallet hold rank Owner. -/
def readOwnerCount (data : Bytes) : ℕ := (data.slice ownerCountOffset 4).toNatLE

def setOwnerCount (data : Bytes) (count : ℕ) : Bytes :=
  data.splice ownerCountOffset (Bytes.ofNatLE 4 count)

end WalletAccount

/-- The header of every authority: 48 bytes, followed by key material and an optional policy. -/
structure AuthorityAccountHeader where
  discriminator : UInt8
  authorityType : UInt8
  role : UInt8
  bump : UInt8
  version : UInt8
  padding1 : BytesN 3
  counter : ℕ
  policyLen : ℕ
  padding2 : BytesN 2
  wallet : Pubkey

namespace AuthorityAccountHeader

def size : ℕ := 48

def read (data : Bytes) : AuthorityAccountHeader where
  discriminator := data.byte 0
  authorityType := data.byte 1
  role := data.byte 2
  bump := data.byte 3
  version := data.byte 4
  padding1 := .ofBytes (data.slice 5 3)
  counter := (data.slice 8 4).toNatLE
  policyLen := (data.slice 12 2).toNatLE
  padding2 := .ofBytes (data.slice 14 2)
  wallet := readKey data 16

def toBytes (header : AuthorityAccountHeader) : Bytes :=
  [header.discriminator, header.authorityType, header.role, header.bump, header.version] ++
    header.padding1.bytes ++ Bytes.ofNatLE 4 header.counter ++ Bytes.ofNatLE 2 header.policyLen ++
    header.padding2.bytes ++ header.wallet.bytes

def write (data : Bytes) (header : AuthorityAccountHeader) : Bytes := data.splice 0 header.toBytes

def check (data : Bytes) : Except ProgramError Unit := checkHeader data .authority (some 4) size

end AuthorityAccountHeader

/-- Size of the fixed session header; actions follow it. -/
def sessionHeaderSize : ℕ := 80

structure SessionAccount where
  discriminator : UInt8
  bump : UInt8
  version : UInt8
  padding : BytesN 5
  wallet : Pubkey
  sessionKey : Pubkey
  expiresAt : ℕ

namespace SessionAccount

def read (data : Bytes) : SessionAccount where
  discriminator := data.byte 0
  bump := data.byte 1
  version := data.byte 2
  padding := .ofBytes (data.slice 3 5)
  wallet := readKey data 8
  sessionKey := readKey data 40
  expiresAt := (data.slice 72 8).toNatLE

def toBytes (session : SessionAccount) : Bytes :=
  [session.discriminator, session.bump, session.version] ++ session.padding.bytes ++
    session.wallet.bytes ++ session.sessionKey.bytes ++ Bytes.ofNatLE 8 session.expiresAt

def check (data : Bytes) : Except ProgramError Unit :=
  checkHeader data .session (some 2) sessionHeaderSize

end SessionAccount

/-- A stored authorization to execute later: 176 bytes. -/
structure DeferredExecAccount where
  discriminator : UInt8
  version : UInt8
  bump : UInt8
  padding : BytesN 5
  instructionsHash : Bytes32
  accountsHash : Bytes32
  wallet : Pubkey
  authority : Pubkey
  payer : Pubkey
  expiresAt : ℕ

namespace DeferredExecAccount

def size : ℕ := 176

def read (data : Bytes) : DeferredExecAccount where
  discriminator := data.byte 0
  version := data.byte 1
  bump := data.byte 2
  padding := .ofBytes (data.slice 3 5)
  instructionsHash := readKey data 8
  accountsHash := readKey data 40
  wallet := readKey data 72
  authority := readKey data 104
  payer := readKey data 136
  expiresAt := (data.slice 168 8).toNatLE

def toBytes (deferred : DeferredExecAccount) : Bytes :=
  [deferred.discriminator, deferred.version, deferred.bump] ++ deferred.padding.bytes ++
    deferred.instructionsHash.bytes ++ deferred.accountsHash.bytes ++ deferred.wallet.bytes ++
    deferred.authority.bytes ++ deferred.payer.bytes ++ Bytes.ofNatLE 8 deferred.expiresAt

def check (data : Bytes) : Except ProgramError Unit := checkHeader data .deferredExec (some 1) size

end DeferredExecAccount

/-- Hard ceiling on either protocol fee. -/
def maxProtocolFeeLamports : ℕ := 10000000

/-- Global protocol configuration: 120 bytes. -/
structure ProtocolConfig where
  discriminator : UInt8
  version : UInt8
  bump : UInt8
  enabled : UInt8
  numShards : UInt8
  padding : BytesN 3
  admin : Pubkey
  treasury : Pubkey
  creationFee : ℕ
  executionFee : ℕ
  pendingAdmin : Pubkey

namespace ProtocolConfig

def size : ℕ := 120

def read (data : Bytes) : ProtocolConfig where
  discriminator := data.byte 0
  version := data.byte 1
  bump := data.byte 2
  enabled := data.byte 3
  numShards := data.byte 4
  padding := .ofBytes (data.slice 5 3)
  admin := readKey data 8
  treasury := readKey data 40
  creationFee := (data.slice 72 8).toNatLE
  executionFee := (data.slice 80 8).toNatLE
  pendingAdmin := readKey data 88

def toBytes (config : ProtocolConfig) : Bytes :=
  [config.discriminator, config.version, config.bump, config.enabled, config.numShards] ++
    config.padding.bytes ++ config.admin.bytes ++ config.treasury.bytes ++
    Bytes.ofNatLE 8 config.creationFee ++ Bytes.ofNatLE 8 config.executionFee ++ config.pendingAdmin.bytes

def write (data : Bytes) (config : ProtocolConfig) : Bytes := data.splice 0 config.toBytes

def check (data : Bytes) : Except ProgramError Unit := checkHeader data .protocolConfig (some 1) size

end ProtocolConfig

/-- Cumulative fees of one payer: 32 bytes. -/
structure FeeRecord where
  discriminator : UInt8
  bump : UInt8
  version : UInt8
  padding : BytesN 5
  totalFeesPaid : ℕ
  txCount : ℕ
  walletCount : ℕ
  registeredAt : ℕ

namespace FeeRecord

def size : ℕ := 32

def read (data : Bytes) : FeeRecord where
  discriminator := data.byte 0
  bump := data.byte 1
  version := data.byte 2
  padding := .ofBytes (data.slice 3 5)
  totalFeesPaid := (data.slice 8 8).toNatLE
  txCount := (data.slice 16 4).toNatLE
  walletCount := (data.slice 20 4).toNatLE
  registeredAt := (data.slice 24 8).toNatLE

def toBytes (record : FeeRecord) : Bytes :=
  [record.discriminator, record.bump, record.version] ++ record.padding.bytes ++
    Bytes.ofNatLE 8 record.totalFeesPaid ++ Bytes.ofNatLE 4 record.txCount ++
    Bytes.ofNatLE 4 record.walletCount ++ Bytes.ofNatLE 8 record.registeredAt

def write (data : Bytes) (record : FeeRecord) : Bytes := data.splice 0 record.toBytes

def check (data : Bytes) : Except ProgramError Unit := checkHeader data .feeRecord (some 2) size

end FeeRecord

/-- A fee vault: 8 bytes, and the one account type without a version byte. -/
structure TreasuryShard where
  discriminator : UInt8
  bump : UInt8
  shardId : UInt8
  padding : BytesN 5

namespace TreasuryShard

def size : ℕ := 8

def readShardId (data : Bytes) : UInt8 := data.byte 2

def toBytes (shard : TreasuryShard) : Bytes :=
  [shard.discriminator, shard.bump, shard.shardId] ++ shard.padding.bytes

def check (data : Bytes) : Except ProgramError Unit := checkHeader data .treasuryShard none size

end TreasuryShard

def authorityEd25519FixedLen : ℕ := 48 + 32
def authoritySecp256r1FixedLen : ℕ := 48 + 32 + 33 + 32

/-- Fixed length of an authority of the given type, before any policy. -/
def authorityFixedLen (authorityType : UInt8) : Option ℕ :=
  match authorityType with
  | 0 => some authorityEd25519FixedLen
  | 1 => some authoritySecp256r1FixedLen
  | _ => none

/-- The offset at which an account's policy buffer begins. -/
structure PolicyLocation where
  offset : ℕ
deriving DecidableEq, Repr

namespace PolicyLocation

/-- Where the policy would start, from the account's own discriminator and authority type. -/
def of (accountData : Bytes) : Option PolicyLocation :=
  match accountData with
  | [] => none
  | disc :: rest =>
    if disc = AccountDiscriminator.session.toByte then some ⟨sessionHeaderSize⟩
    else if disc = AccountDiscriminator.authority.toByte then
      match rest.head? with
      | some 0 => some ⟨authorityEd25519FixedLen⟩
      | some 1 => some ⟨authoritySecp256r1FixedLen⟩
      | _ => none
    else none

/-- Translate an offset relative to the policy buffer into an absolute one. -/
def abs (loc : PolicyLocation) (relative : ℕ) : ℕ := loc.offset + relative

/-- Whether the account carries a non-empty policy. -/
def isPresent (loc : PolicyLocation) (accountData : Bytes) : Bool := loc.offset < accountData.length

/-- The policy bytes, empty when there are none. -/
def slice (loc : PolicyLocation) (accountData : Bytes) : Bytes := accountData.drop loc.offset

end PolicyLocation

end LazorKit
