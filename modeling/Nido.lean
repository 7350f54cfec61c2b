import Nido.Library.BigEndian
import Nido.Library.Run
import Nido.Library.Keyed
import Nido.Library.HashTree
import Nido.Library.Poseidon2
import Nido.Library.Sha256
import Nido.Library.Sorting
import Nido.Library.Json
import Nido.Library.Decimal
import Nido.Library.Utf8
import Nido.Library.Base64
import Nido.Library.Cbor
import Nido.Soroban.Value
import Nido.SmartAccount.Types
import Nido.Circuits.ZkRecovery
import Nido.ZkRecovery.Cancellation
import Nido.Sdk.AuthHash
import Nido.ZkRecovery.Dispatch
import Nido.SmartAccount.Library
import Nido.SmartAccount.System
import Nido.SmartAccount.Contract
import Nido.SmartAccount.Completion
import Nido.SmartAccount.RecoveryRule
import Nido.Frontend.ZkRecoveryActions
import Nido.Relayer.Allowlist
import Nido.Sdk.Recovery
import Nido.Frontend.OperationBuilders
import Nido.ZkRecovery.Ring
import Nido.ZkRecovery.Operations
import Nido.ZkRecovery.RateLimit
import Nido.ZkRecovery.Isolation
import Nido.ZkRecovery.Stopping
import Nido.Sdk.PoolSync
import Nido.Sdk.Membership
import Nido.Indexer.Merkle
import Nido.Indexer.Handler
import Nido.Indexer.Snapshot
import Nido.SmartAccount.Liveness
import Nido.SmartAccount.Frozen
import Nido.NameRegistry.Contract
import Nido.Sdk.RotationPrefixes
import Nido.Frontend.Relayed
import Nido.Frontend.WalletSign
import Nido.Frontend.FriendApproval
import Nido.Frontend.CollectSignatures
import Nido.Frontend.SubmitRotation
import Nido.Frontend.RotationProgress
import Nido.Frontend.TxSummary
import Nido.Sdk.Signature
import Nido.Sdk.SignerOrder
import Nido.Sdk.FriendWire
import Nido.Sdk.Webauthn
import Nido.Sdk.CoseBytes
import Nido.Sdk.CoseKey
import Nido.Sdk.Attestation
import Nido.Frontend.EventWalk
import Nido.Frontend.PolicyChainFetch
import Nido.Frontend.DescribedOperations
import Nido.Sdk.Url
import Nido.Frontend.NidoSharedStorage
import Nido.Frontend.SafeRoute
import Nido.Resolver.AccountHosts
import Nido.Frontend.Money
import Nido.Frontend.ActivityRows
import Nido.Frontend.AssetCandidates
import Nido.Frontend.Assets
import Nido.Frontend.AmountInput
import Nido.Frontend.RecoveryTexts
