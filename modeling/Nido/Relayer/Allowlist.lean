/-
The relayer's gate: which host functions the channels plugin lets through.

The gate decodes the submitted host function itself and looks its name up in a
hand-kept list. The XDR codec is not part of this repository; it is a parameter,
and what is needed of it is that decoding undoes encoding.
-/

import Nido.Soroban.Transaction

namespace Nido.Relayer

def allowedFunctions : List String :=
  [ -- genesis and the ZK recovery ceremony
    "create_account", "create_account_v2", "insert_for", "initiate_recovery", "cancel_recovery",
    "burn_nullifier", "enroll_zk_recovery",
    -- account operations
    "add_context_rule", "remove_context_rule", "add_signer", "remove_signer", "execute",
    -- name registry
    "register"]

/-- Base64 XDR; reading returns nothing where the library throws. -/
structure Xdr where
  hostFunctionToXdr : HostFunction → String
  hostFunctionFromXdr : String → Option HostFunction
  /-- The host function of a transaction envelope with a single such operation. -/
  hostFunctionOfTransaction : String → Option HostFunction

/-- What the library documents: a value that was written is read back. -/
def Xdr.ReadsBack (codec : Xdr) (hostFunction : HostFunction) : Prop :=
  codec.hostFunctionFromXdr (codec.hostFunctionToXdr hostFunction) = some hostFunction

structure PluginError where
  message : String
  code : String
  status : Nat
  function : Option String
deriving DecidableEq

structure Params where
  func : Option String
  xdr : Option String

section Gate

variable (codec : Xdr)

def invokedFunctionName (funcXdrBase64 : String) : Option String :=
  match codec.hostFunctionFromXdr funcXdrBase64 with
  | some (.invokeContract call) => some call.fnName
  | _ => none

def isAllowed (funcXdrBase64 : String) : Bool :=
  match invokedFunctionName codec funcXdrBase64 with
  | some name => decide (name ∈ allowedFunctions)
  | none => false

def assertAllowedOrReject (funcXdrBase64 : String) : Except PluginError Unit :=
  let name := invokedFunctionName codec funcXdrBase64
  if name.any (fun name => decide (name ∈ allowedFunctions)) then .ok ()
  else
    .error
      { message :=
          match name with
          | none =>
              "Relayer channels plugin: submitted host function is not an allowed contract " ++
                "invocation"
          | some name =>
              "Relayer channels plugin: function \"" ++ name ++
                "\" is not in the nido relayer allowlist"
        code := "FUNCTION_NOT_ALLOWED"
        status := 403
        function := name }

/-- A full transaction is gated when a single host function can be found in it. -/
def gateRequest (params : Params) : Except PluginError Unit :=
  match params.func with
  | some func => assertAllowedOrReject codec func
  | none =>
      match params.xdr.bind codec.hostFunctionOfTransaction with
      | some hostFunction => assertAllowedOrReject codec (codec.hostFunctionToXdr hostFunction)
      | none => .ok ()

/-- The request of the app for one built operation; the gate does not look at the
signed entries that go with it. -/
def Params.invoking (hostFunction : HostFunction) : Params where
  func := some (codec.hostFunctionToXdr hostFunction)
  xdr := none

variable {codec}

/-- What `submitSorobanTransaction` posts is gated by its host function. -/
theorem gateRequest_submitted (hostFunction : HostFunction) :
    gateRequest codec (Params.invoking codec hostFunction) =
      assertAllowedOrReject codec (codec.hostFunctionToXdr hostFunction) := rfl

theorem assertAllowed_iff_isAllowed (funcXdrBase64 : String) :
    assertAllowedOrReject codec funcXdrBase64 = .ok () ↔
      isAllowed codec funcXdrBase64 = true := by
  unfold assertAllowedOrReject isAllowed
  cases invokedFunctionName codec funcXdrBase64 with
  | none => simp
  | some name =>
      by_cases listed : name ∈ allowedFunctions
      · simp [listed]
      · simp [listed]

theorem assertAllowed_iff {hostFunction : HostFunction}
    (readsBack : codec.ReadsBack hostFunction) :
    assertAllowedOrReject codec (codec.hostFunctionToXdr hostFunction) = .ok () ↔
      ∃ name, hostFunction.functionName = some name ∧ name ∈ allowedFunctions := by
  rw [assertAllowed_iff_isAllowed]
  unfold isAllowed invokedFunctionName
  rw [readsBack]
  unfold HostFunction.functionName
  cases hostFunction with
  | invokeContract call => simp
  | createContract => simp
  | createContractV2 => simp
  | uploadWasm => simp

end Gate

end Nido.Relayer
