import LazorKit.Machine.Account
import LazorKit.Machine.Balance
import LazorKit.Machine.Precompile
import LazorKit.Machine.Spec
import LazorKit.Machine.State
import LazorKit.Machine.Transaction
import LazorKit.Model.Action
import LazorKit.Model.Authenticate
import LazorKit.Model.Authority
import LazorKit.Model.ClientLoops
import LazorKit.Model.Compact
import LazorKit.Model.Entrypoint
import LazorKit.Model.Error
import LazorKit.Model.Execute
import LazorKit.Model.HeapBuffers
import LazorKit.Model.Kit.Actions
import LazorKit.Model.Kit.Builders
import LazorKit.Model.Kit.Client
import LazorKit.Model.Kit.Execute
import LazorKit.Model.Kit.Layout
import LazorKit.Model.Kit.Migration
import LazorKit.Model.Kit.OwnWallet
import LazorKit.Model.Kit.Ownership
import LazorKit.Model.Kit.Packing
import LazorKit.Model.Kit.Secp256r1
import LazorKit.Model.Kit.VaultTokens
import LazorKit.Model.Legacy.Packing
import LazorKit.Model.Migrate
import LazorKit.Model.Policy
import LazorKit.Model.Program
import LazorKit.Model.Protocol
import LazorKit.Model.Session
import LazorKit.Model.State
import LazorKit.Model.TokenProgram
import LazorKit.Model.Webauthn
import LazorKit.Proofs.Acceptance
import LazorKit.Proofs.Authentication
import LazorKit.Proofs.AuthorityRefine
import LazorKit.Proofs.Balances
import LazorKit.Proofs.BookRuns
import LazorKit.Proofs.BookStep
import LazorKit.Proofs.Challenge
import LazorKit.Proofs.ClientData
import LazorKit.Proofs.ClientLoops
import LazorKit.Proofs.ClientScanner
import LazorKit.Proofs.CompactLayout
import LazorKit.Proofs.CompactStream
import LazorKit.Proofs.ConcreteRun
import LazorKit.Proofs.ExecuteRefine
import LazorKit.Proofs.Fate
import LazorKit.Proofs.InnerInstructions
import LazorKit.Proofs.KitLayout
import LazorKit.Proofs.KitTransactions
import LazorKit.Proofs.Layout
import LazorKit.Proofs.MigratedTokens
import LazorKit.Proofs.MintFlows
import LazorKit.Proofs.Outcome
import LazorKit.Proofs.PolicyBirth
import LazorKit.Proofs.PolicyBuffer
import LazorKit.Proofs.PolicyCharge
import LazorKit.Proofs.PolicyCommit
import LazorKit.Proofs.PolicyGrammar
import LazorKit.Proofs.PolicyLedger
import LazorKit.Proofs.PolicyRun
import LazorKit.Proofs.PolicySettle
import LazorKit.Proofs.ProtocolBook
import LazorKit.Proofs.ProtocolRefine
import LazorKit.Proofs.Registry
import LazorKit.Proofs.RunRefine
import LazorKit.Proofs.SessionRefine
import LazorKit.Proofs.SignedArguments
import LazorKit.Proofs.Solvency
import LazorKit.Proofs.SpendingLimits
import LazorKit.Proofs.TokenFrame
import LazorKit.Proofs.TokenProgram
import LazorKit.Proofs.TokenSnapshot
import LazorKit.Proofs.Transition
import LazorKit.Proofs.VaultTokens
import LazorKit.Soundness.AccountTypes
import LazorKit.Soundness.AccountsHash
import LazorKit.Soundness.ActionRoundTrip
import LazorKit.Soundness.AdminRotation
import LazorKit.Soundness.AssertionBinding
import LazorKit.Soundness.AuthorityShape
import LazorKit.Soundness.ChallengeText
import LazorKit.Soundness.ClientFields
import LazorKit.Soundness.Closers
import LazorKit.Soundness.CompactRoundTrip
import LazorKit.Soundness.Conservation
import LazorKit.Soundness.Control
import LazorKit.Soundness.Counter
import LazorKit.Soundness.Custody
import LazorKit.Soundness.Deferred
import LazorKit.Soundness.EncoderSizes
import LazorKit.Soundness.FeeLedger
import LazorKit.Soundness.GrossOutflow
import LazorKit.Soundness.HeapBuffers
import LazorKit.Soundness.InnerBinding
import LazorKit.Soundness.InnerSigners
import LazorKit.Soundness.Isolation
import LazorKit.Soundness.KitDeferred
import LazorKit.Soundness.KitExecutes
import LazorKit.Soundness.KitMigration
import LazorKit.Soundness.KitOwnership
import LazorKit.Soundness.KitRequests
import LazorKit.Soundness.LayoutDecodes
import LazorKit.Soundness.LifetimeLimit
import LazorKit.Soundness.LifetimeSpending
import LazorKit.Soundness.Migration
import LazorKit.Soundness.MigrationDestination
import LazorKit.Soundness.OwnWallet
import LazorKit.Soundness.OwnerCount
import LazorKit.Soundness.PasskeyWire
import LazorKit.Soundness.PolicyBuffers
import LazorKit.Soundness.PolicyOrder
import LazorKit.Soundness.PolicyVerdict
import LazorKit.Soundness.PolicyWrites
import LazorKit.Soundness.ProgramLists
import LazorKit.Soundness.Ranks
import LazorKit.Soundness.RecurringLimit
import LazorKit.Soundness.Rent
import LazorKit.Soundness.Sessions
import LazorKit.Soundness.SignatureScope
import LazorKit.Soundness.TokenPasses
import LazorKit.Soundness.TypeSafety
import LazorKit.Soundness.VaultSigner
import LazorKit.Soundness.WalletChoice
import LazorKit.Soundness.WindowedSpending
import LazorKit.ToMathlib.Balances
import LazorKit.ToMathlib.BitGroups
import LazorKit.ToMathlib.Bytes
import LazorKit.ToMathlib.CountUpdate
import LazorKit.ToMathlib.ExceptBind
import LazorKit.ToMathlib.HeapVec
import LazorKit.ToMathlib.JsonText
import LazorKit.ToMathlib.Lineage
import LazorKit.ToMathlib.OrderedMap
import LazorKit.ToMathlib.OwnedMap
import LazorKit.ToMathlib.PrefixCodec
import LazorKit.ToMathlib.Runs
import LazorKit.ToMathlib.TumblingWindow
