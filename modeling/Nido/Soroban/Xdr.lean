/-
The wire format of host values and of the preimage that a signature of an
authorization entry commits to.

Every item is a sequence of four-byte groups. A string of bytes carries its
length and is filled up with zeros; a union starts with its discriminant. The
Stellar library's `toXDR` and the host's `to_xdr` write the same bytes: a digest
made from the one in `auth.ts` is recomputed from the other (`compute_auth_digest`
in `crates/integration-tests/src/lib.rs`), and `contracts/zk-recovery/src/hash.rs`
reads the trailing 32 bytes of an address as its contract id.
-/

import Nido.Library.BigEndian
import Nido.Soroban.Transaction

namespace Nido

/-! ### Primitive items -/

def xdrUInt32 (value : Nat) : Bytes := BigEndian.encode 4 value

/-- A signed number in two's complement. -/
def xdrInt (width : Nat) (value : Int) : Bytes :=
  BigEndian.encode width (value % 256 ^ width).toNat

def xdrOpaque (data : Bytes) : Bytes :=
  xdrUInt32 data.length ++ data ++ List.replicate ((4 - data.length % 4) % 4) 0

def xdrText (text : String) : Bytes := xdrOpaque text.toUTF8.toList

def Address.toXdr : Address → Bytes
  | .account publicKey => xdrUInt32 0 ++ xdrUInt32 0 ++ publicKey.data
  | .contract id => xdrUInt32 1 ++ id.data

/-! ### Host values -/

def NumberType.layout : NumberType → Nat × Nat
  | .i32 => (4, 4)
  | .i64 => (6, 8)
  | .timepoint => (7, 8)
  | .duration => (8, 8)
  | .u128 => (9, 16)
  | .u256 => (11, 32)
  | .i256 => (12, 32)

mutual

def ScVal.toXdr : ScVal → Bytes
  | .bool value => xdrUInt32 0 ++ xdrUInt32 (if value then 1 else 0)
  | .void => xdrUInt32 1
  | .u32 value => xdrUInt32 3 ++ xdrUInt32 value.toNat
  | .u64 value => xdrUInt32 5 ++ BigEndian.encode 8 value.toNat
  | .i128 value => xdrUInt32 10 ++ xdrInt 16 value
  | .number type value => xdrUInt32 type.layout.1 ++ xdrInt type.layout.2 value
  | .bytes data => xdrUInt32 13 ++ xdrOpaque data
  | .string text => xdrUInt32 14 ++ xdrText text
  | .symbol name => xdrUInt32 15 ++ xdrText name
  | .vec items => xdrUInt32 16 ++ xdrUInt32 1 ++ xdrUInt32 items.length ++ ScVal.itemsToXdr items
  | .map entries =>
      xdrUInt32 17 ++ xdrUInt32 1 ++ xdrUInt32 entries.length ++ ScVal.entriesToXdr entries
  | .address target => xdrUInt32 18 ++ target.toXdr
  | .encoded discriminant data => xdrUInt32 discriminant ++ data

def ScVal.itemsToXdr : List ScVal → Bytes
  | [] => []
  | value :: rest => value.toXdr ++ ScVal.itemsToXdr rest

def ScVal.entriesToXdr : List (ScVal × ScVal) → Bytes
  | [] => []
  | (key, value) :: rest => key.toXdr ++ value.toXdr ++ ScVal.entriesToXdr rest

end

/-! ### Authorizations -/

def ContractContext.toXdr (call : ContractContext) : Bytes :=
  call.contract.toXdr ++ xdrText call.fnName ++ xdrUInt32 call.args.length ++
    ScVal.itemsToXdr call.args

def AuthorizedFunction.toXdr : AuthorizedFunction → Bytes
  | .contractFn call => xdrUInt32 0 ++ call.toXdr
  | .createContract args => xdrUInt32 1 ++ args
  | .createContractV2 args => xdrUInt32 2 ++ args

mutual

def AuthorizedInvocation.toXdr : AuthorizedInvocation → Bytes
  | .mk function subInvocations =>
      function.toXdr ++ xdrUInt32 subInvocations.length ++ invocationsToXdr subInvocations

def invocationsToXdr : List AuthorizedInvocation → Bytes
  | [] => []
  | invocation :: rest => invocation.toXdr ++ invocationsToXdr rest

end

/-- `HashIdPreimageSorobanAuthorization`. -/
structure AuthorizationPreimage where
  networkId : Bytes
  nonce : Int
  signatureExpirationLedger : Nat
  invocation : AuthorizedInvocation

/-- The preimage stands as the tenth kind of envelope. -/
def AuthorizationPreimage.toXdr (preimage : AuthorizationPreimage) : Bytes :=
  xdrUInt32 9 ++ preimage.networkId ++ xdrInt 8 preimage.nonce ++
    xdrUInt32 preimage.signatureExpirationLedger ++ preimage.invocation.toXdr

def AddressCredentials.preimage (networkId : Bytes) (creds : AddressCredentials)
    (invocation : AuthorizedInvocation) : AuthorizationPreimage where
  networkId := networkId
  nonce := creds.nonce
  signatureExpirationLedger := creds.signatureExpirationLedger
  invocation := invocation

example : (ScVal.vec [.u32 7]).toXdr =
    [0, 0, 0, 16, 0, 0, 0, 1, 0, 0, 0, 1, 0, 0, 0, 3, 0, 0, 0, 7] := by
  decide

end Nido
