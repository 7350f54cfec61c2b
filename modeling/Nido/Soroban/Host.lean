/-
What a contract of this workspace sees of its host: fixed-width byte strings,
addresses, the BN254 scalar field, the hash and verification services, and the
ways an invocation can fail. A failing invocation returns no state, so the
caller keeps the old one: that is the host's rollback.
-/

import Nido.Library.BigEndian

namespace Nido

abbrev Bytes := List UInt8

/-- `BytesN<n>`: a byte string whose length belongs to its type. -/
structure BytesN (n : Nat) where
  data : Bytes
  size : data.length = n
deriving DecidableEq

namespace BytesN

variable {n : Nat}

/-- The unsigned integer read big-endian, as `U256::from_be_bytes` does. -/
def value (bytes : BytesN n) : Nat := BigEndian.value bytes.data

/-- The low `n` bytes of an integer, as `to_be_bytes` writes them. -/
def ofNat (n number : Nat) : BytesN n :=
  ⟨BigEndian.encode n number, BigEndian.encode_length n number⟩

/-- `BytesN::from_array(&[0u8; n])`. -/
def zero (n : Nat) : BytesN n := ⟨List.replicate n 0, List.length_replicate⟩

theorem value_ofNat (number : Nat) (fits : number < 256 ^ n) : (ofNat n number).value = number :=
  BigEndian.value_encode n number fits

theorem value_injective {left right : BytesN n} (same : left.value = right.value) :
    left = right := by
  obtain ⟨leftData, leftSize⟩ := left
  obtain ⟨rightData, rightSize⟩ := right
  have sameData : leftData = rightData :=
    BigEndian.value_injective _ _ (leftSize.trans rightSize.symm) same
  subst rightData
  rfl

end BytesN

/-- An account key or a contract id; only the latter is a contract address. -/
inductive Address
  | account (publicKey : BytesN 32)
  | contract (id : BytesN 32)
deriving DecidableEq

def fieldOrder : Nat := 0x30644e72e131a029b85045b68181585d2833e84879b9709143e1f593f0000001

instance : NeZero fieldOrder := ⟨by decide⟩

abbrev Fr := Fin fieldOrder

theorem fieldOrder_lt : fieldOrder < 256 ^ 32 := by decide

/-- `rem_euclid` by the field order. -/
def toFr (number : Nat) : Fr := Fin.ofNat fieldOrder number

theorem toFr_val (number : Nat) : (toFr number).val = number % fieldOrder := rfl

theorem toFr_of_lt {number : Nat} (canonical : number < fieldOrder) :
    (toFr number).val = number := Nat.mod_eq_of_lt canonical

theorem toFr_inj {left right : Nat} (leftCanonical : left < fieldOrder)
    (rightCanonical : right < fieldOrder) (same : toFr left = toFr right) : left = right := by
  rw [← toFr_of_lt leftCanonical, ← toFr_of_lt rightCanonical, same]

theorem toFr_val_self (scalar : Fr) : toFr scalar.val = scalar :=
  Fin.ext (toFr_of_lt scalar.isLt)

/-- A 32-byte word as a field element, reduced as the proof verifier reduces it. -/
def BytesN.toFr (word : BytesN 32) : Fr := Nido.toFr word.value

def Fr.toBytes (scalar : Fr) : BytesN 32 := BytesN.ofNat 32 scalar.val

theorem Fr.toBytes_value (scalar : Fr) : (Fr.toBytes scalar).value = scalar.val :=
  BytesN.value_ofNat _ (Nat.lt_trans scalar.isLt fieldOrder_lt)

@[simp] theorem Fr.toBytes_toFr (scalar : Fr) : (Fr.toBytes scalar).toFr = scalar := by
  rw [BytesN.toFr, Fr.toBytes_value, toFr_val_self]

theorem Fr.toBytes_injective : Function.Injective Fr.toBytes := by
  intro left right same
  rw [← Fr.toBytes_toFr left, same, Fr.toBytes_toFr]

/-- Services outside the workspace: the Poseidon2 sponge and SHA-256 of the
host, and the answer of a deployed proof verifier, which the contracts only see
as success or failure of a call to its address. -/
structure Host where
  poseidon2Hash : List Fr → Fr
  sha256 : Bytes → BytesN 32
  verifyProof : (verifier : Address) → (publicInputs proof : Bytes) → Bool

/-- How an invocation fails; in each case the host rolls its effects back. -/
inductive Failure
  | contractError (code : UInt32)
  | unauthorized
  | trap
deriving DecidableEq

abbrev Contract (α : Type) := Except Failure α

namespace Contract

variable {ε α β : Type}

/-- Go on only under the condition; `panic_with_error!` otherwise. -/
def require (condition : Prop) [Decidable condition] (failure : Failure) : Contract Unit :=
  if condition then .ok () else .error failure

@[simp] theorem require_eq_ok (condition : Prop) [Decidable condition] (failure : Failure)
    (result : Unit) : require condition failure = .ok result ↔ condition := by
  unfold require
  split <;> simp [*]

theorem bind_eq_ok {first : Except ε α} {next : α → Except ε β} {result : β} :
    first >>= next = .ok result ↔ ∃ middle, first = .ok middle ∧ next middle = .ok result := by
  cases first with
  | error failure => simp [bind, Except.bind]
  | ok middle => simp [bind, Except.bind]

theorem map_eq_ok {computation : Except ε α} {f : α → β} {result : β} :
    computation.map f = .ok result ↔ ∃ value, computation = .ok value ∧ f value = result := by
  cases computation with
  | error failure => simp [Except.map]
  | ok value => simp [Except.map]

theorem bind_eq_error {first : Except ε α} {next : α → Except ε β} {failure : ε} :
    first >>= next = .error failure ↔
      first = .error failure ∨ ∃ middle, first = .ok middle ∧ next middle = .error failure := by
  cases first with
  | error failure => simp [bind, Except.bind]
  | ok middle => simp [bind, Except.bind]

theorem pure_ne_error {value : α} {failure : ε} :
    (pure value : Except ε α) ≠ .error failure := by
  intro impossible
  cases impossible

theorem require_eq_error {condition : Prop} [Decidable condition] {failure other : Failure} :
    require condition failure = .error other ↔ ¬ condition ∧ failure = other := by
  unfold require
  split <;> simp [*]

theorem pure_eq_ok {value result : α} :
    (pure value : Except ε α) = .ok result ↔ value = result := by
  simp [pure, Except.pure]

theorem exists_of_isSome {computation : Contract α}
    (answers : computation.toOption.isSome = true) : ∃ result, computation = .ok result := by
  cases computation with
  | error failure => cases answers
  | ok result => exact ⟨result, rfl⟩

/-- `unwrap_or_else(|| panic…)`: the value, or the failure. -/
def orFail (value : Option α) (failure : Failure) : Contract α :=
  match value with
  | some found => .ok found
  | none => .error failure

@[simp] theorem orFail_eq_ok {value : Option α} {failure : Failure} {result : α} :
    orFail value failure = .ok result ↔ value = some result := by
  cases value <;> simp [orFail]

theorem orFail_eq_error {value : Option α} {failure other : Failure} :
    orFail value failure = .error other ↔ value = none ∧ failure = other := by
  cases value <;> simp [orFail]

end Contract

/-- Addition with overflow checks: a sum beyond `u64::MAX` traps. -/
def checkedAdd (left right : UInt64) : Contract UInt64 :=
  if left.toNat + right.toNat < 2 ^ 64 then .ok (left + right) else .error .trap

theorem checkedAdd_eq_ok {left right sum : UInt64} :
    checkedAdd left right = .ok sum ↔ sum.toNat = left.toNat + right.toNat := by
  unfold checkedAdd
  have bound := sum.toNat_lt
  split
  · rename_i fits
    rw [Except.ok.injEq, ← UInt64.toNat_inj, UInt64.toNat_add, Nat.mod_eq_of_lt fits, eq_comm]
  · rename_i overflows
    constructor
    · intro impossible
      cases impossible
    · intro same
      omega

theorem checkedAdd_eq_error {left right : UInt64} {failure : Failure}
    (failed : checkedAdd left right = .error failure) : failure = .trap := by
  unfold checkedAdd at failed
  split at failed
  · cases failed
  · cases failed
    rfl

/-- What an entry point can read of its invocation. `authorized` answers
`require_auth` for an address. -/
structure Env where
  currentContract : Address
  timestamp : UInt64
  authorized : Address → Bool

def Env.requireAuth (env : Env) (address : Address) : Contract Unit :=
  Contract.require (env.authorized address = true) .unauthorized

end Nido
