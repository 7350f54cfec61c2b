/-
Storage, errors and events of the zk-recovery contract.

`RecoveryState` is the contract's whole storage, one field per storage key with
the key's own default left to the code that reads it. The configuration is a
plain field: the constructor runs in the deploying transaction, so no entry
point ever meets an instance without it.
-/

import Nido.Soroban.Host
import Mathlib.Logic.Function.Basic

namespace Nido.ZkRecovery

structure RecoveryConfig where
  factory : Address
  verifier : Address
  delaySecs : UInt64
  completionWindowSecs : UInt64
  maxCancels : UInt32
  timelockFloorSecs : UInt64
  networkPassphrase : Bytes
  webauthnVerifier : Address

structure ZkRecoveryInstallParams where
  version : UInt32

structure PendingRecovery where
  newPubkey : BytesN 65
  nullifier : BytesN 32
  initiatedAt : UInt64
  executableAfter : UInt64
  expiresAt : UInt64
deriving DecidableEq

inductive NullifierState
  | reserved (account : Address)
  | spent
deriving DecidableEq

inductive RecoveryError
  | treeFull
  | nonCanonicalCommitment
  | pendingExists
  | unknownRoot
  | nullifierReserved
  | nullifierSpent
  | invalidNonce
  | timelockTooShort
  | timelockMismatch
  | rateLimited
  | verificationFailed
  | noPending
  | cancelCapReached
  | cooldownActive
  | recoveryExpired
  | timelockNotElapsed
  | contextMismatch
  | ruleMismatch
  | notInstalled
  | alreadyInstalled
  | unauthorized
  | nullifierReservedElsewhere
deriving DecidableEq

def RecoveryError.code : RecoveryError → UInt32
  | .treeFull => 21
  | .nonCanonicalCommitment => 1
  | .pendingExists => 2
  | .unknownRoot => 3
  | .nullifierReserved => 4
  | .nullifierSpent => 5
  | .invalidNonce => 6
  | .timelockTooShort => 7
  | .timelockMismatch => 8
  | .rateLimited => 9
  | .verificationFailed => 10
  | .noPending => 11
  | .cancelCapReached => 12
  | .cooldownActive => 13
  | .recoveryExpired => 14
  | .timelockNotElapsed => 15
  | .contextMismatch => 16
  | .ruleMismatch => 17
  | .notInstalled => 18
  | .alreadyInstalled => 19
  | .unauthorized => 20
  | .nullifierReservedElsewhere => 22

/-- `panic_with_error!`. -/
def RecoveryError.failure (error : RecoveryError) : Failure := .contractError error.code

inductive RecoveryEvent
  | leafInserted (index : UInt32) (leaf : BytesN 32)
  | recoveryInitiated (account : Address) (newPubkeyHash : BytesN 32) (executableAfter : UInt64)
  | recoveryCanceled (account : Address) (cancelsUsed : UInt32)
  | recoveryCompleted (account : Address) (nullifier : BytesN 32)
  | nullifierBurned (account : Address) (nullifier : BytesN 32)
deriving DecidableEq

structure RecoveryState where
  config : RecoveryConfig
  frontier : Option (List (BytesN 32))
  nextIndex : Option UInt32
  rootRing : Option (List (BytesN 32))
  ringHead : Option UInt32
  nullifier : BytesN 32 → Option NullifierState
  pending : Address → Option PendingRecovery
  installed : Address → Option UInt32
  cancels : Address → Option UInt32
  nonce : Address → Option UInt64
  rateWindow : Address → Option (List UInt64)
  lastCancel : Address → Option UInt64
  events : List RecoveryEvent

namespace RecoveryState

variable (state : RecoveryState)

def setNullifier (key : BytesN 32) (value : Option NullifierState) : RecoveryState :=
  { state with nullifier := Function.update state.nullifier key value }

def setPending (account : Address) (value : Option PendingRecovery) : RecoveryState :=
  { state with pending := Function.update state.pending account value }

def setInstalled (account : Address) (ruleId : UInt32) : RecoveryState :=
  { state with installed := Function.update state.installed account (some ruleId) }

def setCancels (account : Address) (used : UInt32) : RecoveryState :=
  { state with cancels := Function.update state.cancels account (some used) }

def setNonce (account : Address) (nonce : UInt64) : RecoveryState :=
  { state with nonce := Function.update state.nonce account (some nonce) }

def setRateWindow (account : Address) (window : List UInt64) : RecoveryState :=
  { state with rateWindow := Function.update state.rateWindow account (some window) }

def setLastCancel (account : Address) (time : UInt64) : RecoveryState :=
  { state with lastCancel := Function.update state.lastCancel account (some time) }

def publish (event : RecoveryEvent) : RecoveryState :=
  { state with events := state.events ++ [event] }

end RecoveryState

end Nido.ZkRecovery
