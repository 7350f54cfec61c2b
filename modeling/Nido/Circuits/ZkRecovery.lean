/-
The zk_recovery circuit: knowledge of a secret whose leaf, bound to an account,
is in a tree, together with the nullifier and the authorization hash of that
account.

A witness satisfies the circuit for three public field elements. The lists of
field elements that the circuit hashes on a witness are its queries; nothing is
assumed here about the hash.
-/

import Nido.Library.HashTree
import Nido.ZkRecovery.Merkle

namespace Nido.Circuit

open HashTree

def depth : Nat := 24
def domLeaf : Fr := toFr 0x10d2382af89f3c1732985422f0ba530d1dd0ed3066ecce5650b78f0c4ad8274a
def domBind : Fr := toFr 0x14fa8513f19a07697a83cf582b40cb80bb2176f890614912553b81cdff71ec81
def domNull : Fr := toFr 0x138891cc07f52d2ec29e835298ae2120acd9573ec4a83c573885abf9710b73b2
def domAuth : Fr := toFr 0x2886eb8be3a3ff75b86ac004fdbe5c17fd2de6ab4fd416d38683a2e0e91d9906

def hash2 (hash : List Fr → Fr) (a b : Fr) : Fr := hash [a, b]

/-- One level per sibling and bit; a bit that is not a root of `x(1-x)` fails. -/
def computeRoot (hash : List Fr → Fr) (cur : Fr) : List (Fr × Fr) → Option Fr
  | [] => some cur
  | (sib, bit) :: rest =>
      if bit * (1 - bit) = 0 then
        computeRoot hash (if bit = 0 then hash2 hash cur sib else hash2 hash sib cur) rest
      else
        none

structure Witness where
  secret : Fr
  acctHi : Fr
  acctLo : Fr
  pathSiblings : List Fr
  pathBits : List Fr
  action : Fr
  npassHi : Fr
  npassLo : Fr
  ctrlHi : Fr
  ctrlLo : Fr
  pkPrefix : Fr
  pkXHi : Fr
  pkXLo : Fr
  pkYHi : Fr
  pkYLo : Fr
  nonce : Fr
  timelockSecs : Fr
  siblings_length : pathSiblings.length = depth
  bits_length : pathBits.length = depth

namespace Witness

variable (hash : List Fr → Fr) (witness : Witness)

def innerInputs : List Fr := [domLeaf, witness.secret]

def inner : Fr := hash witness.innerInputs

def storedInputs : List Fr := [domBind, witness.acctHi, witness.acctLo, witness.inner hash]

def stored : Fr := hash (witness.storedInputs hash)

def nullifierInputs : List Fr := [domNull, witness.acctHi, witness.acctLo, witness.secret]

def authInputs : List Fr :=
  [domAuth, witness.action, witness.acctHi, witness.acctLo, witness.npassHi, witness.npassLo,
    witness.ctrlHi, witness.ctrlLo, witness.pkPrefix, witness.pkXHi, witness.pkXLo, witness.pkYHi,
    witness.pkYLo, witness.nonce, witness.timelockSecs]

def levels : List (Fr × Fr) := witness.pathSiblings.zip witness.pathBits

end Witness

/-- The assertions of `main`. -/
def Satisfied (hash : List Fr → Fr) (root nullifier authHash : Fr) (witness : Witness) : Prop :=
  computeRoot hash (witness.stored hash) witness.levels = some root ∧
    hash witness.nullifierInputs = nullifier ∧ hash witness.authInputs = authHash

instance (hash : List Fr → Fr) (root nullifier authHash : Fr) (witness : Witness) :
    Decidable (Satisfied hash root nullifier authHash witness) :=
  inferInstanceAs (Decidable (_ ∧ _ ∧ _))

def Witness.path (witness : Witness) : List (Bool × Fr) :=
  witness.levels.map (fun level => (decide (level.2 ≠ 0), level.1))

theorem Witness.path_length (witness : Witness) : witness.path.length = depth := by
  rw [path, levels, List.length_map, List.length_zip, witness.siblings_length,
    witness.bits_length, Nat.min_self]

/-- Every list of field elements that the circuit hashes on a witness. -/
def Witness.queries (hash : List Fr → Fr) (witness : Witness) : List (List Fr) :=
  [witness.innerInputs, witness.storedInputs hash, witness.nullifierInputs, witness.authInputs] ++
    (climbPairs (hash2 hash) (witness.stored hash) witness.path).map
      (fun pair => [pair.1, pair.2])

theorem computeRoot_eq_some {hash : List Fr → Fr} {cur root : Fr} {levels : List (Fr × Fr)}
    (computed : computeRoot hash cur levels = some root) :
    climb (hash2 hash) cur (levels.map (fun level => (decide (level.2 ≠ 0), level.1))) = root := by
  induction levels generalizing cur with
  | nil => exact Option.some.inj computed
  | cons level rest ih =>
      obtain ⟨sib, bit⟩ := level
      rw [computeRoot] at computed
      split at computed
      · rw [List.map_cons, climb, ← ih computed]
        congr 1
        by_cases left : bit = 0
        · simp [combine, left]
        · simp [combine, left]
      · cases computed

/-- On bits the circuit climbs the path. -/
theorem computeRoot_path (hash : List Fr → Fr) (cur : Fr) (path : List (Bool × Fr)) :
    computeRoot hash cur (path.map (fun stage => (stage.2, if stage.1 then 1 else 0))) =
      some (climb (hash2 hash) cur path) := by
  induction path generalizing cur with
  | nil => rfl
  | cons stage rest ih =>
      obtain ⟨onRight, sibling⟩ := stage
      have zero : (0 : Fr) * (1 - 0) = 0 := by decide
      have one : (1 : Fr) * (1 - 1) = 0 := by decide
      have distinct : ¬ (1 : Fr) = 0 := by decide
      cases onRight with
      | false =>
          rw [List.map_cons, if_neg Bool.false_ne_true, computeRoot, if_pos zero, if_pos rfl, ih]
          rfl
      | true =>
          rw [List.map_cons, if_pos rfl, computeRoot, if_pos one, if_neg distinct, ih]
          rfl

theorem Satisfied.climbs {hash : List Fr → Fr} {root nullifier authHash : Fr} {witness : Witness}
    (satisfied : Satisfied hash root nullifier authHash witness) :
    climb (hash2 hash) (witness.stored hash) witness.path = root :=
  computeRoot_eq_some satisfied.1

end Nido.Circuit
