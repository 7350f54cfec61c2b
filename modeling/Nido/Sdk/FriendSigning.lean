/-
What a friend signs to let a lost account be recovered.

The account asks its friends from inside its own check, so a friend does not
authorize the recovery call but a call of `__check_auth` on the account, whose one
argument is the digest that the account itself is checking. The entry for that
call travels next to the recovery call and carries the friend's own nonce and
expiration.
-/

import Nido.Sdk.Auth
import Nido.Sdk.Encoding

namespace Nido.Sdk

structure FriendSignatureEntry where
  authenticatorData : Bytes
  clientDataJson : Bytes
  signature : Bytes
  nonce : String
  signatureExpirationLedger : Nat
deriving DecidableEq

/-- The entries stand in the order of the handoff's transactions. -/
structure FriendSignature where
  friendAccount : String
  verifierAddress : String
  publicKey : Bytes
  entries : List FriendSignatureEntry
deriving DecidableEq

/-! ### The wire format of a friend's signature -/

structure FriendSignatureEntryWire where
  ad : String
  cd : String
  sig : String
  nonce : String
  exp : Nat

/-- Version 1 has its one entry in place. -/
inductive FriendSignatureWire
  | v1 (friend_ verifier pub : String) (entry : FriendSignatureEntryWire)
  | v2 (friend_ verifier pub : String) (sigs : List FriendSignatureEntryWire)
  | unsupported (v : String)

def entryFromWire (w : FriendSignatureEntryWire) : FriendSignatureEntry where
  authenticatorData := hex2buf w.ad
  clientDataJson := hex2buf w.cd
  signature := hex2buf w.sig
  nonce := w.nonce
  signatureExpirationLedger := w.exp

/-- `readWire` takes the text apart: base64url, UTF-8 and JSON. -/
def decodeFriendSignature (readWire : String → Js FriendSignatureWire) (encoded : String) :
    Js FriendSignature := do
  let w ← readWire encoded
  match w with
  | .unsupported v => .error ("decodeFriendSignature: unsupported version " ++ v)
  | .v1 friend_ verifier pub entry =>
      .ok
        { friendAccount := friend_
          verifierAddress := verifier
          publicKey := hex2buf pub
          entries := [entryFromWire entry] }
  | .v2 friend_ verifier pub sigs =>
      .ok
        { friendAccount := friend_
          verifierAddress := verifier
          publicKey := hex2buf pub
          entries := sigs.map entryFromWire }

/-! ### What is signed -/

/-- What is needed from the Stellar library: texts of addresses and of numbers. -/
structure Stellar where
  addressOf : String → Js Address
  addressToString : Address → String
  int64FromString : String → Js Int

structure FriendPayloadArgs where
  recoveringAccount : String
  parentAuthDigestHex : String
  networkPassphrase : String
  nonce : String
  signatureExpirationLedger : Nat

section Nested

variable (stellar : Stellar)

def buildFriendInvocation (recoveringAccount parentAuthDigestHex : String) :
    Js AuthorizedInvocation := do
  let contract ← stellar.addressOf recoveringAccount
  pure (.mk
    (.contractFn
      { contract, fnName := "__check_auth", args := [.bytes (hex2buf parentAuthDigestHex)] })
    [])

def friendSignaturePayload (args : FriendPayloadArgs) : Js Bytes := do
  let nonce ← stellar.int64FromString args.nonce
  let invocation ← buildFriendInvocation stellar args.recoveringAccount args.parentAuthDigestHex
  if args.signatureExpirationLedger < 2 ^ 32 then
    .ok (hash (AuthorizationPreimage.toXdr
      { networkId := networkId args.networkPassphrase
        nonce
        signatureExpirationLedger := args.signatureExpirationLedger
        invocation }))
  else
    .error "XDR Write Error: invalid u32 value"

end Nested

/-- The call that a friend authorizes has the account's digest as its argument. -/
theorem buildFriendInvocation_eq_ok {stellar : Stellar} {recoveringAccount : String}
    {digest : Bytes} {invocation : AuthorizedInvocation}
    (built : buildFriendInvocation stellar recoveringAccount (buf2hex digest) = .ok invocation) :
    ∃ contract, stellar.addressOf recoveringAccount = .ok contract ∧
      invocation = .mk (.contractFn
        { contract, fnName := "__check_auth", args := [.bytes digest] }) [] := by
  obtain ⟨contract, parsed, rest⟩ := Contract.bind_eq_ok.mp built
  rw [hex2buf_buf2hex] at rest
  cases rest
  exact ⟨contract, parsed, rfl⟩

theorem friendSignaturePayload_eq_ok {stellar : Stellar} {args : FriendPayloadArgs}
    {payload : Bytes} (hashed : friendSignaturePayload stellar args = .ok payload) :
    ∃ nonce invocation,
      stellar.int64FromString args.nonce = .ok nonce ∧
      buildFriendInvocation stellar args.recoveringAccount args.parentAuthDigestHex =
        .ok invocation ∧
      args.signatureExpirationLedger < 2 ^ 32 ∧
      payload = hash (AuthorizationPreimage.toXdr
        { networkId := networkId args.networkPassphrase
          nonce
          signatureExpirationLedger := args.signatureExpirationLedger
          invocation }) := by
  unfold friendSignaturePayload at hashed
  obtain ⟨nonce, number, rest⟩ := Contract.bind_eq_ok.mp hashed
  obtain ⟨invocation, built, guarded⟩ := Contract.bind_eq_ok.mp rest
  split at guarded
  next small =>
    cases guarded
    exact ⟨nonce, invocation, number, built, small, rfl⟩
  next => cases guarded

end Nido.Sdk
