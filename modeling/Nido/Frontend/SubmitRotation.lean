/-
Submitting a staged rotation through the relayer, over several attempts.

An attempt submits the transactions in order and stores its progress three times
for each: the relayer's job, the hash, and at the end that nothing is left. The
relayer may answer anything or nothing, and the page may be closed between any two
actions; the next attempt starts from what was stored.
-/

import Nido.Frontend.RecoveryRotation
import Nido.Library.Effect
import Nido.Library.Run

namespace Nido.Frontend

open Sdk Effect

/-! ### The relayer -/

inductive RelayerStatus
  | pending
  | sent
  | submitted
  | confirmed
  | failed
  | expired
deriving DecidableEq

def RelayerStatus.text : RelayerStatus → String
  | .pending => "pending"
  | .sent => "sent"
  | .submitted => "submitted"
  | .confirmed => "confirmed"
  | .failed => "failed"
  | .expired => "expired"

structure RelayerTxResponse where
  transactionId : Option String
  hash : Option String
  status : Option RelayerStatus
deriving DecidableEq

structure SubmitError where
  message : String
  code : Option String
  details : Option RelayerTxResponse

inductive RelayerReply
  | response (response : RelayerTxResponse)
  | failure (error : SubmitError)

/-- What an observer sees. A submission tells which transaction of the rotation it is about;
a poll carries the relayer's job id alone, as the request does. -/
inductive Event
  | submitted (i : Nat) (request : InvokeHostFunctionOp)
  | answered (i : Nat) (response : RelayerTxResponse)
  | polled (transactionId : String) (response : RelayerTxResponse)
  | stored (staging : RotationStaging)
  | cleared

/-- The page during an attempt: what is stored, what was seen (latest first), the replies that
are still to come, and the number of actions until the page is closed. -/
structure Page where
  storage : LocalStorage
  trace : List Event
  submissions : List RelayerReply
  polls : List RelayerReply
  remaining : Nat

abbrev PageM (α : Type) := Prog Page SubmitError α

/-- One action, unless the page has been closed. -/
def act {α : Type} (action : PageM α) : PageM α := fun page =>
  match page.remaining with
  | 0 => (.cutOff, page)
  | remaining + 1 => action.run { page with remaining }

def jsError (message : String) : SubmitError where
  message := message
  code := none
  details := none

def ofJs {α : Type} (result : Js α) : PageM α := Effect.lift (result.mapError jsError)

/-- An empty text counts as none. -/
def truthy (text : Option String) : Option String := text.filter (fun text => decide (text ≠ ""))

/-- A request that is never answered lasts until the page is closed. -/
def submitSorobanTransaction (i : Nat) (request : InvokeHostFunctionOp) : PageM RelayerTxResponse :=
  act (fun page =>
    let sent := { page with trace := .submitted i request :: page.trace }
    match page.submissions with
    | [] => (.cutOff, sent)
    | .failure error :: submissions => (.threw error, { sent with submissions })
    | .response response :: submissions =>
        (.returned response, { sent with submissions, trace := .answered i response :: sent.trace }))

def getRelayerTransaction (transactionId : String) : PageM RelayerTxResponse :=
  act (fun page =>
    match page.polls with
    | [] => (.cutOff, page)
    | .failure error :: polls => (.threw error, { page with polls })
    | .response response :: polls =>
        (.returned response,
          { page with polls, trace := .polled transactionId response :: page.trace }))

def maxAttempts : Nat := 55

/-- The polls that are left, the failures in a row, and the last response. -/
def pollUntilTerminal (transactionId : String) :
    (attempts pollFailures : Nat) → (last : Option RelayerTxResponse) → PageM RelayerTxResponse
  | 0, _, last =>
      -- The transaction may still land.
      throw
        { message := "Timed out waiting for relayer confirmation"
          code := some "WAIT_TIMEOUT"
          details := last }
  | attempts + 1, pollFailures, last => do
      match ← attempt (getRelayerTransaction transactionId) with
      | .ok res =>
          match res.status with
          | some .confirmed => pure res
          | some .failed | some .expired =>
              throw
                { message := "Relayer transaction " ++
                    (res.status.map RelayerStatus.text).getD "null"
                  code := some "ONCHAIN_FAILED"
                  details := some res }
          | _ => pollUntilTerminal transactionId attempts 0 (some res)
      | .error error =>
          if error.code = some "ONCHAIN_FAILED" then
            throw error
          else if pollFailures + 1 ≥ 5 then
            throw
              { message := "Lost contact with the relayer while waiting"
                code := some "WAIT_TIMEOUT"
                details := last }
          else
            pollUntilTerminal transactionId attempts (pollFailures + 1) last

def waitForConfirmation (transactionId : String) : PageM RelayerTxResponse :=
  pollUntilTerminal transactionId maxAttempts 0 none

/-! ### An attempt -/

/-- The writer of envelopes refuses an expiration that is not a `u32`. -/
def encodable (entry : AuthEntry) : Bool :=
  match entry.credentials with
  | .sourceAccount => true
  | .address creds => decide (creds.signatureExpirationLedger < 2 ^ 32)

def extractFuncAndAuth (op : InvokeHostFunctionOp) : Js InvokeHostFunctionOp :=
  if op.auth.all encodable = true then .ok op
  else .error "XDR Write Error: invalid u32 value"

def save (staging : RotationStaging) : PageM Unit :=
  act (fun page =>
    (.returned (),
      { page with
        storage := saveStaging page.storage staging
        trace := .stored staging :: page.trace }))

def clear (account : String) : PageM Unit :=
  act (fun page =>
    (.returned (),
      { page with
        storage := clearStaging page.storage account
        trace := .cleared :: page.trace }))

def readStaging (account : String) : PageM (Option RotationStaging) := fun page =>
  (.returned (loadStaging page.storage account), page)

def RotationStaging.setJob (staging : RotationStaging) (i : Nat) (relayerTxId : String) :
    RotationStaging :=
  { staging with
    txs := staging.txs.modify i (fun staged => { staged with relayerTxId := some relayerTxId }) }

def RotationStaging.setHash (staging : RotationStaging) (i : Nat) (txHash : String) :
    RotationStaging :=
  { staging with
    txs := staging.txs.modify i (fun staged => { staged with submittedHash := some txHash }) }

def confirmedHash (transactionId : String) : PageM String := do
  let confirmed ← waitForConfirmation transactionId
  match truthy confirmed.hash with
  | none => throw (jsError "Relayer confirmed without a transaction hash")
  | some txHash => pure txHash

section Submit

variable (env : RotationEnvironment)

def storeHash (staging : RotationStaging) (i : Nat) (txHash : String) :
    PageM (RotationStaging × String) := do
  save (staging.setHash i txHash)
  pure (staging.setHash i txHash, txHash)

/-- The relayer's job is stored before anything is waited for. -/
def storeJob (staging : RotationStaging) (i : Nat) (submitted : RelayerTxResponse) :
    PageM RotationStaging := do
  match truthy submitted.transactionId with
  | none => pure staging
  | some transactionId => do
      save (staging.setJob i transactionId)
      pure (staging.setJob i transactionId)

def submittedOrConfirmedHash (submitted : RelayerTxResponse) : PageM String :=
  match truthy submitted.hash with
  | some txHash => pure txHash
  | none =>
      match truthy submitted.transactionId with
      | none =>
          throw (jsError
            "Relayer accepted the recovery transaction but returned no transaction id")
      | some transactionId => confirmedHash transactionId

/-- Transaction `i`, which has no hash yet: a job that is stored is polled, and only without
one the transaction is submitted. -/
def submitStagedTx (staging : RotationStaging) (i : Nat) (staged : StagedRotationTx) :
    PageM (RotationStaging × String) := do
  let op ← ofJs (authorizeStagedTx env staging staged i)
  match truthy staged.relayerTxId with
  | some transactionId => do
      let txHash ← confirmedHash transactionId
      storeHash staging i txHash
  | none => do
      let request ← ofJs (extractFuncAndAuth op)
      let submitted ← submitSorobanTransaction i request
      let accepted ← storeJob staging i submitted
      let txHash ← submittedOrConfirmedHash submitted
      storeHash accepted i txHash

def submitStagedTxs :
    (count i : Nat) → (staging : RotationStaging) → (lastHash : String) → PageM String
  | 0, _, _, lastHash => pure lastHash
  | count + 1, i, staging, _ =>
      match staging.txs[i]? with
      | none => throw (jsError "Cannot read properties of undefined (reading 'submittedHash')")
      | some staged =>
          match truthy staged.submittedHash with
          | some txHash => submitStagedTxs count (i + 1) staging txHash
          | none => do
              let done ← submitStagedTx env staging i staged
              submitStagedTxs count (i + 1) done.1 done.2

def checkContributors (staging : RotationStaging) : Js Unit :=
  let contributors := staging.contributors
  if contributors.length < staging.threshold then
    .error ("Need " ++ toString staging.threshold ++ " friend signatures, have " ++
      toString contributors.length ++ ".")
  else
    match contributors.find? (fun fs => decide (fs.entries.length ≠ staging.txs.length)) with
    | some fs =>
        .error ("Friend " ++ fs.friendAccount ++ "'s reply covers " ++
          toString fs.entries.length ++ " transaction(s) but the staged rotation has " ++
          toString staging.txs.length ++ ".")
    | none => .ok ()

/-- `submitRotation` with the relayer enabled. -/
def submitRotation (account : String) : PageM String := do
  match ← readStaging account with
  | none => throw (jsError "No rotation in progress.")
  | some staging => do
      ofJs (checkContributors staging)
      let lastHash ← submitStagedTxs env staging.txs.length 0 staging ""
      clear account
      pure lastHash

/-! ### Several attempts -/

/-- What the relayer answers during one attempt, and how many actions the page lives for. -/
structure Attempt where
  submissions : List RelayerReply
  polls : List RelayerReply
  remaining : Nat

structure Progress where
  storage : LocalStorage
  trace : List Event

def Attempt.page (attempt : Attempt) (progress : Progress) : Page where
  storage := progress.storage
  trace := progress.trace
  submissions := attempt.submissions
  polls := attempt.polls
  remaining := attempt.remaining

def attemptSubmit (account : String) (progress : Progress) (attempt : Attempt) :
    Option Progress :=
  let page := ((submitRotation env account).run (attempt.page progress)).2
  some { storage := page.storage, trace := page.trace }

theorem attemptSubmit_eq {env : RotationEnvironment} {account : String} {progress : Progress}
    {attempt : Attempt} {outcome : Outcome SubmitError String} {closed : Page}
    (ran : (submitRotation env account).run (attempt.page progress) = (outcome, closed)) :
    attemptSubmit env account progress attempt =
      some { storage := closed.storage, trace := closed.trace } := by
  unfold attemptSubmit
  rw [ran]

theorem ofJs_run {α : Type} {result : Js α} {value : α} (done : result = .ok value) (page : Page) :
    (ofJs result).run page = (.returned value, page) := by
  rw [done]
  rfl

end Submit

end Nido.Frontend
