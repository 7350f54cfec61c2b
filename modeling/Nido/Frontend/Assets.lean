/-
The assets that an account holds, and those that the browser remembers.

The balances of the contracts of classic assets are read from their ledger entries, and
other tokens are asked for theirs. A token is remembered once a balance was read, and
forgotten once it is gone. A transfer event can say which of the two readings a token gets.
-/

import Nido.Frontend.AssetCandidates

namespace Nido.Frontend

open Sdk

/-! ### Balances -/

def maxDecimals : Int := 38

def sanitizeDecimals (value : Native) : Option Int :=
  match value with
  | .number decimals => if 0 ≤ decimals ∧ decimals ≤ maxDecimals then some decimals else none
  | _ => none

structure TokenMeta where
  decimals : Int
  symbol : Option String

/-- What a load reads besides the stored tokens: the ledger entry of a balance, what a
contract returns in a simulation, where a trap is nothing, and the cached metadata. The
library tells addresses and contracts from other texts, and powers of ten that are too
large cannot be computed. -/
structure AssetPage where
  reader : NativeReader
  nativeSacId : String
  isAddress : String → Bool
  isContract : String → Bool
  powerLimit : Nat
  powers : 38 ≤ powerLimit
  localeCompare : String → String → Int
  curated : List AssetCandidate
  events : List RawEvent
  balanceEntry : (token holder : String) → Option ScVal
  simulate : (contract fn : String) → (args : List String) → Option ScVal
  cachedMeta : String → Option TokenMeta
  storageWritable : Bool

structure TokenProbe where
  balance : Int
  decimals : Int
  symbol : Option String

section Balances

variable (page : AssetPage)

def balanceEntryAmount (value : ScVal) : Option Int :=
  match scValToNative page.reader value with
  | .ok native => transferAmount native
  | .error _ => none

/-- The entries are asked for in calls of at most 200 keys. -/
def fetchSacBalances (tokenContracts : List String) (holder : String) :
    Js (List (String × Int)) :=
  if tokenContracts = [] then
    pure []
  else if (tokenContracts.all page.isAddress && page.isAddress holder) = false then
    throw "Unsupported address type"
  else
    pure (tokenContracts.map (fun token =>
      (token, ((page.balanceEntry token holder).bind (balanceEntryAmount page)).getD 0)))

def simulateRead (contract fn : String) (args : List String) : Js Native :=
  if page.isContract contract = false then
    throw ("Invalid contract ID: " ++ contract)
  else
    match page.simulate contract fn args with
    | some value => pure ((scValToNative page.reader value).toOption.getD .null)
    | none => pure .null

def readMeta (tokenContract : String) : Js (Option TokenMeta) :=
  match (page.cachedMeta tokenContract).filter
      (fun cached => (sanitizeDecimals (.number cached.decimals)).isSome) with
  | some cached => pure (some cached)
  | none => do
      let decimals ← simulateRead page tokenContract "decimals" []
      let symbol ← simulateRead page tokenContract "symbol" []
      pure ((sanitizeDecimals decimals).map (fun sane => ⟨sane, symbol.asText⟩))

def probeSep41Token (tokenContract holder : String) : Js (Option TokenProbe) :=
  if page.isAddress holder = false then
    throw ("Unsupported address type: " ++ holder)
  else do
    let balance ← simulateRead page tokenContract "balance" [holder]
    match balance with
    | .bigint amount =>
        if amount ≤ 0 then
          pure (some ⟨amount, 0, none⟩)
        else
          (readMeta page tokenContract).map (fun found =>
            found.map (fun read => ⟨amount, read.decimals, read.symbol⟩))
    | _ => pure none

end Balances

/-! ### Holdings -/

def sacDecimals : Int := 7

def maxProbes : Nat := 20

def maxStored : Nat := 100

structure AssetHolding where
  contractId : String
  code : String
  issuer : Option String
  domain : Option String
  decimals : Int
  raw : Int
  formatted : String
  verified : Bool
  icon : Option String
  explorerUrl : String

section Load

variable (page : AssetPage)

/-- A negative number of decimals is none. -/
def toHolding (c : AssetCandidate) (raw decimals : Int) : Js AssetHolding :=
  if page.powerLimit < decimals.toNat then
    throw "Maximum BigInt size exceeded"
  else
    let verified := decide (c.source = .native ∨ c.source = .curated)
    pure
      { contractId := c.contractId
        code := (textOr c.code none).getD (shortAddr c.contractId 4 4)
        issuer := c.issuer
        domain := c.domain
        decimals := decimals
        raw := raw
        formatted := String.ofList (formatDecimal (rawToDecimal raw decimals.toNat) 7)
        verified := verified
        icon := if verified then c.icon else none
        explorerUrl := "https://stellar.expert/explorer/testnet/contract/" ++ c.contractId }

def sortHoldings (items : List AssetHolding) : List AssetHolding :=
  items.mergeSort (fun left right =>
    if left.contractId = page.nativeSacId then true
    else if right.contractId = page.nativeSacId then false
    else decide (page.localeCompare left.code right.code ≤ 0))

def nativeAsset : AssetCandidate where
  contractId := page.nativeSacId
  code := some "XLM"
  issuer := none
  domain := some "stellar.org"
  decimals := none
  icon := none
  sac := true
  source := .native

def loadKnownAssets (known : List AssetCandidate) : List AssetCandidate :=
  known.map (fun a => { a with source := .stored })

/-- A storage that is full or blocked keeps what it has. -/
def replaceKnownAssets (known assets : List AssetCandidate) : List AssetCandidate :=
  if page.storageWritable = false then
    known
  else
    ((Keyed.empty.putAll (assets.map (fun a => (a.contractId, a)))).entries.map
      Prod.snd).take maxStored

def discovered (address : String) : List AssetCandidate :=
  discoverFromEvents page.reader page.nativeSacId page.events address

def candidates (known : List AssetCandidate) (address : String) : List AssetCandidate :=
  mergeCandidates [[nativeAsset page], page.curated, loadKnownAssets known,
    discovered page address]

def sacs (known : List AssetCandidate) (address : String) : List AssetCandidate :=
  (candidates page known address).filter (fun c => c.sac)

def others (known : List AssetCandidate) (address : String) : List AssetCandidate :=
  ((candidates page known address).filter (fun c => !c.sac)).take maxProbes

/-- What an entry of the balances says of a candidate. -/
def sacRaw (sacBalances : List (String × Int)) (c : AssetCandidate) : Int :=
  (sacBalances.lookup c.contractId).getD 0

def sacAbsent (sacBalances : List (String × Int)) (c : AssetCandidate) : Bool :=
  decide (sacRaw sacBalances c ≤ 0 ∧ c.contractId ≠ page.nativeSacId)

/-- A probe that fails says nothing. -/
def probeAbsent (address contractId : String) : Bool :=
  match probeSep41Token page contractId address with
  | .error _ => false
  | .ok probe => decide ((probe.map TokenProbe.balance).getD 0 ≤ 0)

/-- One malformed token must not sink the card. -/
def probedHolding (address : String) (c : AssetCandidate) : Option AssetHolding :=
  match probeSep41Token page c.contractId address with
  | .ok (some probe) =>
      if probe.balance ≤ 0 then none
      else (toHolding page { c with code := textOr c.code probe.symbol } probe.balance
        (c.decimals.getD probe.decimals)).toOption
  | _ => none

def keeps (curatedIds held confirmedAbsent : List String) (c : AssetCandidate) : Bool :=
  decide (c.contractId ∉ curatedIds ∧ c.contractId ≠ page.nativeSacId ∧
    (c.contractId ∈ held ∨ (c.source = .stored ∧ c.contractId ∉ confirmedAbsent)))

/-- The holdings and what the storage has afterwards. The rounds of the two loops are
independent of each other. -/
def loadAssets (known : List AssetCandidate) (address : String) :
    Js (List AssetHolding × List AssetCandidate) := do
  let sacs := sacs page known address
  let others := others page known address
  let sacBalances ← fetchSacBalances page (sacs.map AssetCandidate.contractId) address
  let sacHoldings ← (sacs.filter (fun c => !sacAbsent page sacBalances c)).mapM
    (fun c => toHolding page c (sacRaw sacBalances c) sacDecimals)
  let holdings := sacHoldings ++ others.filterMap (probedHolding page address)
  let confirmedAbsent :=
    (sacs.filter (sacAbsent page sacBalances)).map AssetCandidate.contractId ++
      (others.map AssetCandidate.contractId).filter (probeAbsent page address)
  let kept := (mergeCandidates [loadKnownAssets known, discovered page address]).filter
    (keeps page (page.curated.map AssetCandidate.contractId)
      (holdings.map AssetHolding.contractId) confirmedAbsent)
  pure (sortHoldings page holdings, replaceKnownAssets page known kept)

/-- What the storage has after a load; one that throws does not write. -/
def persistedAfter (known : List AssetCandidate) (address : String) : List AssetCandidate :=
  match loadAssets page known address with
  | .ok (_, after) => after
  | .error _ => known

end Load

/-! ### What is remembered -/

section Kept

variable (page : AssetPage) (known : List AssetCandidate) (address : String)

def finds : List AssetCandidate :=
  [[nativeAsset page], page.curated, loadKnownAssets known, discovered page address].flatten

def entryAmount (contractId : String) : Option Int :=
  (page.balanceEntry contractId address).bind (balanceEntryAmount page)

/-- Whether the ledger entries of the tokens can be asked for. -/
def Readable : Prop :=
  page.isAddress address = true ∧ ∀ c ∈ finds page known address,
    markedSac (finds page known address) c.contractId = true → page.isAddress c.contractId = true

/-- The tokens whose balances are simulated. -/
def asked : List String :=
  (((Keyed.firsts AssetCandidate.contractId [] (finds page known address)).map
    AssetCandidate.contractId).filter
      (fun contractId => !markedSac (finds page known address) contractId)).take maxProbes

/-- Whether the reading that a token gets says that the account has none of it. -/
def gone (contractId : String) : Bool :=
  if markedSac (finds page known address) contractId then
    decide ((entryAmount page address contractId).getD 0 ≤ 0)
  else
    decide (contractId ∈ asked page known address) && probeAbsent page address contractId

def Own (contractId : String) : Prop :=
  contractId ∉ page.curated.map AssetCandidate.contractId ∧ contractId ≠ page.nativeSacId

instance (contractId : String) : Decidable (Own page contractId) := by
  unfold Own
  infer_instance

def survivors : List String :=
  ((Keyed.firsts AssetCandidate.contractId [] (loadKnownAssets known)).map
    AssetCandidate.contractId).filter
      (fun contractId => decide (Own page contractId) && !gone page known address contractId)

structure Holdable (contractId : String) : Prop where
  stored : contractId ∈ known.map AssetCandidate.contractId
  own : Own page contractId
  balance : ∃ amount : Int, 0 < amount ∧
    simulateRead page contractId "balance" [address] = .ok (.bigint amount)
  decimals : ∃ value sane, simulateRead page contractId "decimals" [] = .ok value ∧
    sanitizeDecimals value = some sane
  symbol : ∃ value, simulateRead page contractId "symbol" [] = .ok value

def PositiveRead (contractId : String) : Prop :=
  ∃ amount : Int, 0 < amount ∧ (entryAmount page address contractId = some amount ∨
    simulateRead page contractId "balance" [address] = .ok (.bigint amount))

structure HoldingsKept : Prop where
  kept : ∀ contractId, Holdable page known address contractId →
    contractId ∈ (persistedAfter page known address).map AssetCandidate.contractId
  confirmed : ∀ contractId ∈ (persistedAfter page known address).map AssetCandidate.contractId,
    contractId ∉ known.map AssetCandidate.contractId → PositiveRead page address contractId

end Kept

section Reads

variable {page : AssetPage} {known : List AssetCandidate} {address : String}

theorem mem_finds_native : nativeAsset page ∈ finds page known address :=
  List.mem_append_left _ List.mem_cons_self

theorem candidates_ids :
    (candidates page known address).map AssetCandidate.contractId =
      (Keyed.firsts AssetCandidate.contractId [] (finds page known address)).map
        AssetCandidate.contractId :=
  mergeCandidates_ids _

theorem candidates_sac {c : AssetCandidate} (member : c ∈ candidates page known address) :
    c.sac = markedSac (finds page known address) c.contractId :=
  mergeCandidates_sac member

theorem exists_candidate {contractId : String} :
    (∃ c ∈ candidates page known address, c.contractId = contractId) ↔
      ∃ find ∈ finds page known address, find.contractId = contractId :=
  exists_mergeCandidate

theorem mem_sacs {contractId : String} :
    contractId ∈ (sacs page known address).map AssetCandidate.contractId ↔
      (∃ find ∈ finds page known address, find.contractId = contractId) ∧
        markedSac (finds page known address) contractId = true := by
  unfold sacs
  rw [← exists_candidate, List.mem_map]
  constructor
  · rintro ⟨c, listed, rfl⟩
    have both := List.mem_filter.mp listed
    exact ⟨⟨c, both.1, rfl⟩, (candidates_sac both.1).symm.trans both.2⟩
  · rintro ⟨⟨c, member, rfl⟩, marked⟩
    exact ⟨c, List.mem_filter.mpr ⟨member, (candidates_sac member).trans marked⟩, rfl⟩

theorem native_mem_sacs :
    page.nativeSacId ∈ (sacs page known address).map AssetCandidate.contractId :=
  mem_sacs.mpr ⟨⟨_, mem_finds_native, rfl⟩,
    List.any_eq_true.mpr ⟨_, mem_finds_native, by simp [nativeAsset]⟩⟩

theorem others_ids :
    (others page known address).map AssetCandidate.contractId = asked page known address := by
  unfold others asked
  rw [← candidates_ids, List.map_take, List.filter_map]
  congr 2
  apply List.filter_congr
  intro c member
  rw [candidates_sac member]
  rfl

theorem fetchSacBalances_reads (readable : Readable page known address) :
    fetchSacBalances page ((sacs page known address).map AssetCandidate.contractId) address =
      .ok (((sacs page known address).map AssetCandidate.contractId).map
        (fun token => (token, (entryAmount page address token).getD 0))) := by
  have addresses : (((sacs page known address).map AssetCandidate.contractId).all
      page.isAddress && page.isAddress address) = true := by
    rw [Bool.and_eq_true, List.all_eq_true]
    refine ⟨?_, readable.1⟩
    intro token member
    obtain ⟨⟨find, listed, rfl⟩, marked⟩ := mem_sacs.mp member
    exact readable.2 find listed marked
  unfold fetchSacBalances
  rw [if_neg (List.ne_nil_of_mem native_mem_sacs), addresses, if_neg (by decide)]
  rfl

theorem fetchSacBalances_throws (unreadable : ¬ Readable page known address) :
    ∃ thrown, fetchSacBalances page ((sacs page known address).map AssetCandidate.contractId)
      address = .error thrown := by
  have malformed : (((sacs page known address).map AssetCandidate.contractId).all
      page.isAddress && page.isAddress address) = false := by
    rw [Bool.eq_false_iff, ne_eq, Bool.and_eq_true, List.all_eq_true]
    rintro ⟨addresses, holder⟩
    apply unreadable
    refine ⟨holder, ?_⟩
    intro find listed marked
    exact addresses _ (mem_sacs.mpr ⟨⟨find, listed, rfl⟩, marked⟩)
  unfold fetchSacBalances
  rw [if_neg (List.ne_nil_of_mem native_mem_sacs), if_pos malformed]
  exact ⟨_, rfl⟩

theorem sacRaw_reads {c : AssetCandidate} (member : c ∈ sacs page known address) :
    sacRaw (((sacs page known address).map AssetCandidate.contractId).map
      (fun token => (token, (entryAmount page address token).getD 0))) c =
        (entryAmount page address c.contractId).getD 0 := by
  have read (tokens : List String) (listed : c.contractId ∈ tokens) :
      (tokens.map (fun token => (token, (entryAmount page address token).getD 0))).lookup
        c.contractId = some ((entryAmount page address c.contractId).getD 0) := by
    induction tokens with
    | nil => cases listed
    | cons token rest ih =>
        rw [List.map_cons, List.lookup_cons]
        by_cases same : c.contractId = token
        · rw [same, beq_self_eq_true]
        · rw [beq_false_of_ne same]
          exact ih ((List.mem_cons.mp listed).resolve_left same)
  unfold sacRaw
  rw [read _ (List.mem_map_of_mem member)]
  rfl

/-! The two loops -/

theorem toHolding_ok {c : AssetCandidate} {raw decimals : Int} {holding : AssetHolding}
    (shown : toHolding page c raw decimals = .ok holding) :
    holding.contractId = c.contractId := by
  unfold toHolding at shown
  split at shown
  next => cases shown
  next =>
    cases shown
    rfl

theorem sacHoldings_ok (page : AssetPage) (raw : AssetCandidate → Int)
    (items : List AssetCandidate) :
    ∃ holdings, items.mapM (fun c => toHolding page c (raw c) sacDecimals) = .ok holdings ∧
      holdings.map AssetHolding.contractId = items.map AssetCandidate.contractId := by
  induction items with
  | nil => exact ⟨[], rfl, rfl⟩
  | cons c rest ih =>
      obtain ⟨holdings, listed, ids⟩ := ih
      have powers := page.powers
      have small : ¬ page.powerLimit < sacDecimals.toNat := by
        have seven : sacDecimals.toNat = 7 := rfl
        omega
      cases shown : toHolding page c (raw c) sacDecimals with
      | error thrown =>
          unfold toHolding at shown
          rw [if_neg small] at shown
          cases shown
      | ok holding =>
          refine ⟨holding :: holdings, ?_, ?_⟩
          · rw [List.mapM_cons, shown, listed]
            rfl
          · rw [List.map_cons, List.map_cons, ids, toHolding_ok shown]

theorem probedHolding_ok {c : AssetCandidate} {holding : AssetHolding}
    (shown : probedHolding page address c = some holding) :
    holding.contractId = c.contractId ∧ ∃ probe,
      probeSep41Token page c.contractId address = .ok (some probe) ∧ 0 < probe.balance := by
  unfold probedHolding at shown
  split at shown
  next probe probed =>
    split at shown
    next => cases shown
    next positive =>
      refine ⟨?_, probe, probed, Int.not_le.mp positive⟩
      cases shaped : toHolding page { c with code := textOr c.code probe.symbol } probe.balance
          (c.decimals.getD probe.decimals) with
      | error thrown =>
          rw [shaped] at shown
          cases shown
      | ok found =>
          rw [shaped] at shown
          cases shown
          have same := toHolding_ok shaped
          exact same
  next => cases shown

theorem probe_balance {contractId : String} {probe : TokenProbe}
    (probed : probeSep41Token page contractId address = .ok (some probe)) :
    simulateRead page contractId "balance" [address] = .ok (.bigint probe.balance) := by
  unfold probeSep41Token at probed
  split at probed
  next => cases probed
  next =>
    obtain ⟨balance, read, probed⟩ := Contract.bind_eq_ok.mp probed
    rw [read]
    cases balance with
    | bigint amount =>
        dsimp only at probed
        split at probed
        next =>
          cases probed
          rfl
        next =>
          cases metadata : readMeta page contractId with
          | error thrown =>
              rw [metadata] at probed
              cases probed
          | ok found =>
              rw [metadata] at probed
              cases found with
              | none => cases probed
              | some read =>
                  cases probed
                  rfl
    | _ => cases probed

theorem readMeta_ok {contractId : String} {decimals symbol : Native} {sane : Int}
    (decimalsRead : simulateRead page contractId "decimals" [] = .ok decimals)
    (saneDecimals : sanitizeDecimals decimals = some sane)
    (symbolRead : simulateRead page contractId "symbol" [] = .ok symbol) :
    ∃ found, readMeta page contractId = .ok (some found) := by
  unfold readMeta
  split
  next cached _ => exact ⟨cached, rfl⟩
  next =>
    rw [decimalsRead, symbolRead]
    refine ⟨⟨sane, symbol.asText⟩, ?_⟩
    change Except.ok _ = _
    rw [saneDecimals]
    rfl

/-- A probe never tells that a token is absent that the account holds. -/
theorem Holdable.probed {contractId : String}
    (holdable : Holdable page known address contractId) :
    probeAbsent page address contractId = false := by
  obtain ⟨amount, positive, balance⟩ := holdable.balance
  obtain ⟨decimals, sane, decimalsRead, saneDecimals⟩ := holdable.decimals
  obtain ⟨symbol, symbolRead⟩ := holdable.symbol
  obtain ⟨found, metadata⟩ := readMeta_ok decimalsRead saneDecimals symbolRead
  unfold probeAbsent
  cases holder : page.isAddress address with
  | false =>
      have thrown : probeSep41Token page contractId address =
          .error ("Unsupported address type: " ++ address) := if_pos holder
      rw [thrown]
  | true =>
      have probed : probeSep41Token page contractId address =
          .ok (some ⟨amount, found.decimals, found.symbol⟩) := by
        unfold probeSep41Token
        rw [holder, if_neg (by decide), balance]
        change (if amount ≤ 0 then _ else _) = _
        rw [if_neg (Int.not_le.mpr positive), metadata]
        rfl
      rw [probed]
      exact decide_eq_false (Int.not_le.mpr positive)

theorem asked_unmarked {contractId : String} (member : contractId ∈ asked page known address) :
    markedSac (finds page known address) contractId = false := by
  have unmarked := (List.mem_filter.mp (List.mem_of_mem_take member)).2
  rwa [Bool.not_eq_true'] at unmarked

end Reads

section Verdicts

variable (page : AssetPage) (known : List AssetCandidate) (address : String)

def balances : List (String × Int) :=
  ((sacs page known address).map AssetCandidate.contractId).map
    (fun token => (token, (entryAmount page address token).getD 0))

def heldIds : List String :=
  ((sacs page known address).filter
    (fun c => !sacAbsent page (balances page known address) c)).map AssetCandidate.contractId ++
      ((others page known address).filterMap (probedHolding page address)).map
        AssetHolding.contractId

def absentIds : List String :=
  ((sacs page known address).filter (sacAbsent page (balances page known address))).map
    AssetCandidate.contractId ++
      ((others page known address).map AssetCandidate.contractId).filter
        (probeAbsent page address)

variable {page known address}

theorem sacAbsent_iff {c : AssetCandidate} (member : c ∈ sacs page known address)
    (token : c.contractId ≠ page.nativeSacId) :
    sacAbsent page (balances page known address) c = true ↔
      (entryAmount page address c.contractId).getD 0 ≤ 0 := by
  unfold sacAbsent balances
  rw [sacRaw_reads member, decide_eq_true_eq]
  exact and_iff_left token

theorem absent_iff_gone {contractId : String} (token : contractId ≠ page.nativeSacId)
    (found : ∃ find ∈ finds page known address, find.contractId = contractId) :
    contractId ∈ absentIds page known address ↔ gone page known address contractId = true := by
  unfold absentIds gone
  rw [List.mem_append, others_ids]
  cases marked : markedSac (finds page known address) contractId with
  | true =>
      have notAsked : contractId ∉ asked page known address := by
        intro listed
        rw [asked_unmarked listed] at marked
        cases marked
      rw [if_pos rfl, decide_eq_true_eq,
        or_iff_left (fun listed => notAsked (List.mem_filter.mp listed).1), List.mem_map]
      constructor
      · rintro ⟨c, listed, rfl⟩
        have both := List.mem_filter.mp listed
        exact (sacAbsent_iff both.1 token).mp both.2
      · intro nothing
        obtain ⟨c, member, rfl⟩ := List.mem_map.mp (mem_sacs.mpr ⟨found, marked⟩)
        exact ⟨c, List.mem_filter.mpr ⟨member, (sacAbsent_iff member token).mpr nothing⟩, rfl⟩
  | false =>
      have noSac : contractId ∉ (sacs page known address).map AssetCandidate.contractId := by
        intro listed
        rw [(mem_sacs.mp listed).2] at marked
        cases marked
      rw [if_neg (by decide), Bool.and_eq_true, decide_eq_true_eq, ← List.mem_filter,
        or_iff_right]
      intro listed
      obtain ⟨c, member, rfl⟩ := List.mem_map.mp listed
      exact noSac (List.mem_map_of_mem (List.mem_filter.mp member).1)

theorem held_positive {contractId : String} (token : contractId ≠ page.nativeSacId)
    (held : contractId ∈ heldIds page known address) :
    gone page known address contractId = false ∧ PositiveRead page address contractId := by
  rcases List.mem_append.mp held with listed | listed
  · obtain ⟨c, member, rfl⟩ := List.mem_map.mp listed
    obtain ⟨isSac, present⟩ := List.mem_filter.mp member
    have positive : 0 < (entryAmount page address c.contractId).getD 0 := by
      by_contra nothing
      rw [(sacAbsent_iff isSac token).mpr (Int.not_lt.mp nothing)] at present
      cases present
    have marked := (mem_sacs.mp (List.mem_map_of_mem isSac)).2
    constructor
    · unfold gone
      rw [marked, if_pos rfl]
      exact decide_eq_false (Int.not_le.mpr positive)
    · cases entry : entryAmount page address c.contractId with
      | none =>
          rw [entry] at positive
          cases positive
      | some amount =>
          rw [entry] at positive
          exact ⟨amount, positive, Or.inl entry⟩
  · obtain ⟨holding, member, rfl⟩ := List.mem_map.mp listed
    obtain ⟨c, isOther, shown⟩ := List.mem_filterMap.mp member
    obtain ⟨same, probe, probed, positive⟩ := probedHolding_ok shown
    rw [same]
    have unmarked : markedSac (finds page known address) c.contractId = false := by
      apply asked_unmarked
      rw [← others_ids]
      exact List.mem_map_of_mem isOther
    refine ⟨?_, probe.balance, positive, Or.inr (probe_balance probed)⟩
    unfold gone probeAbsent
    rw [unmarked, if_neg (by decide), probed]
    simp [Int.not_le.mpr positive]

theorem persistedAfter_unreadable (unreadable : ¬ Readable page known address) :
    persistedAfter page known address = known := by
  obtain ⟨thrown, failed⟩ := fetchSacBalances_throws unreadable
  have throws : loadAssets page known address = .error thrown := by
    unfold loadAssets
    dsimp only
    rw [failed]
    rfl
  unfold persistedAfter
  rw [throws]

theorem persistedAfter_readable (readable : Readable page known address) :
    persistedAfter page known address =
      replaceKnownAssets page known
        ((mergeCandidates [loadKnownAssets known, discovered page address]).filter
          (keeps page (page.curated.map AssetCandidate.contractId)
            (heldIds page known address) (absentIds page known address))) := by
  obtain ⟨holdings, shown, ids⟩ := sacHoldings_ok page
    (sacRaw (balances page known address))
    ((sacs page known address).filter (fun c => !sacAbsent page (balances page known address) c))
  have held : (holdings ++ (others page known address).filterMap
      (probedHolding page address)).map AssetHolding.contractId = heldIds page known address := by
    rw [List.map_append, ids]
    rfl
  have loaded : ∃ shownHoldings, loadAssets page known address =
      .ok (shownHoldings, replaceKnownAssets page known
        ((mergeCandidates [loadKnownAssets known, discovered page address]).filter
          (keeps page (page.curated.map AssetCandidate.contractId)
            (heldIds page known address) (absentIds page known address)))) := by
    refine ⟨sortHoldings page (holdings ++ (others page known address).filterMap
      (probedHolding page address)), ?_⟩
    unfold loadAssets
    refine Contract.bind_eq_ok.mpr ⟨_, fetchSacBalances_reads readable, ?_⟩
    refine Contract.bind_eq_ok.mpr ⟨holdings, shown, ?_⟩
    rw [← held]
    rfl
  obtain ⟨shownHoldings, loaded⟩ := loaded
  unfold persistedAfter
  rw [loaded]

theorem replaceKnownAssets_ids {assets : List AssetCandidate}
    (writable : page.storageWritable = true)
    (distinct : (assets.map AssetCandidate.contractId).Nodup) :
    (replaceKnownAssets page known assets).map AssetCandidate.contractId =
      (assets.map AssetCandidate.contractId).take maxStored := by
  have entries : (Keyed.empty.putAll (assets.map (fun a => (a.contractId, a)))).entries =
      assets.map (fun a => (a.contractId, a)) := by
    apply Keyed.putAll_entries
    · rw [List.map_map]
      exact distinct
    · intro write _ impossible
      cases impossible
  unfold replaceKnownAssets
  rw [writable, if_neg (by decide), entries, List.map_map, List.map_take]
  congr 2
  exact List.map_id' _

/-- Whether a token is written back: a stored one unless it is absent, another one only if
it is held. -/
def keptId (page : AssetPage) (known : List AssetCandidate) (address contractId : String) :
    Bool :=
  decide (Own page contractId ∧ (contractId ∈ heldIds page known address ∨
    (contractId ∈ known.map AssetCandidate.contractId ∧
      contractId ∉ absentIds page known address)))

theorem loadKnownAssets_ids :
    (loadKnownAssets known).map AssetCandidate.contractId =
      known.map AssetCandidate.contractId := by
  unfold loadKnownAssets
  rw [List.map_map]
  rfl

theorem source_stored {c : AssetCandidate}
    (member : c ∈ mergeCandidates [loadKnownAssets known, discovered page address]) :
    c.source = .stored ↔ c.contractId ∈ known.map AssetCandidate.contractId := by
  have source := mergeCandidates_source member
  have groups : [loadKnownAssets known, discovered page address].flatten =
      loadKnownAssets known ++ discovered page address := by
    rw [List.flatten_cons, List.flatten_singleton]
  rw [groups, List.find?_append] at source
  cases first : (loadKnownAssets known).find?
      (fun find => decide (find.contractId = c.contractId)) with
  | some find =>
      rw [first] at source
      have same : find.contractId = c.contractId := by
        have read := List.find?_some first
        rwa [decide_eq_true_eq] at read
      have listed := List.mem_of_find?_eq_some first
      have stored : find.source = .stored := by
        obtain ⟨a, _, rfl⟩ := List.mem_map.mp listed
        rfl
      rw [← Option.some.inj source, stored, ← same, ← loadKnownAssets_ids]
      exact iff_of_true rfl (List.mem_map_of_mem listed)
  | none =>
      rw [first, Option.none_or] at source
      have absent : c.contractId ∉ known.map AssetCandidate.contractId := by
        intro listed
        rw [← loadKnownAssets_ids] at listed
        obtain ⟨find, member, same⟩ := List.mem_map.mp listed
        have other := List.find?_eq_none.mp first find member
        rw [decide_eq_true_eq] at other
        exact other same
      cases later : (discovered page address).find?
          (fun find => decide (find.contractId = c.contractId)) with
      | none =>
          rw [later] at source
          cases source
      | some find =>
          rw [later] at source
          have events := discoverFromEvents_source page.events address find
            (List.mem_of_find?_eq_some later)
          rw [← Option.some.inj source, events]
          exact iff_of_false (by decide) absent

theorem kept_ids :
    ((mergeCandidates [loadKnownAssets known, discovered page address]).filter
      (keeps page (page.curated.map AssetCandidate.contractId)
        (heldIds page known address) (absentIds page known address))).map
          AssetCandidate.contractId =
      ((Keyed.firsts AssetCandidate.contractId []
        (loadKnownAssets known ++ discovered page address)).map
          AssetCandidate.contractId).filter (keptId page known address) := by
  have groups : [loadKnownAssets known, discovered page address].flatten =
      loadKnownAssets known ++ discovered page address := by
    rw [List.flatten_cons, List.flatten_singleton]
  rw [← groups, ← mergeCandidates_ids, List.filter_map]
  congr 1
  apply List.filter_congr
  intro c member
  unfold keeps keptId Own
  rw [Function.comp_apply, decide_eq_decide, source_stored member, and_assoc]

theorem keptId_stored {contractId : String}
    (stored : contractId ∈ known.map AssetCandidate.contractId) :
    keptId page known address contractId =
      (decide (Own page contractId) && !gone page known address contractId) := by
  have found : ∃ find ∈ finds page known address, find.contractId = contractId := by
    rw [← loadKnownAssets_ids] at stored
    obtain ⟨find, member, same⟩ := List.mem_map.mp stored
    refine ⟨find, List.mem_flatten.mpr ⟨loadKnownAssets known, ?_, member⟩, same⟩
    simp
  rw [Bool.eq_iff_iff, Bool.and_eq_true, decide_eq_true_eq, Bool.not_eq_true']
  unfold keptId
  rw [decide_eq_true_eq]
  apply and_congr_right
  intro own
  rw [absent_iff_gone own.2 found, Bool.not_eq_true]
  constructor
  · rintro (held | ⟨_, present⟩)
    · exact (held_positive own.2 held).1
    · exact present
  · exact fun present => Or.inr ⟨stored, present⟩

def added (page : AssetPage) (known : List AssetCandidate) (address : String) : List String :=
  ((Keyed.firsts AssetCandidate.contractId
    ((loadKnownAssets known).map AssetCandidate.contractId ++ [])
      (discovered page address)).map AssetCandidate.contractId).filter
        (keptId page known address)

/-- The stored tokens that are not gone come first, whatever the events say. -/
theorem persisted_ids (readable : Readable page known address)
    (writable : page.storageWritable = true) :
    (persistedAfter page known address).map AssetCandidate.contractId =
      (survivors page known address ++ added page known address).take maxStored := by
  have distinct : (((Keyed.firsts AssetCandidate.contractId []
      (loadKnownAssets known ++ discovered page address)).map
        AssetCandidate.contractId).filter (keptId page known address)).Nodup :=
    (Keyed.firsts_nodup [] _).filter _
  rw [← kept_ids] at distinct
  rw [persistedAfter_readable readable, replaceKnownAssets_ids writable distinct, kept_ids,
    Keyed.firsts_append, List.map_append, List.filter_append]
  congr 2
  apply List.filter_congr
  intro contractId member
  apply keptId_stored
  rw [← loadKnownAssets_ids]
  exact (Keyed.mem_firsts_keys.mp member).1

theorem mem_added {contractId : String} (member : contractId ∈ added page known address) :
    contractId ∉ known.map AssetCandidate.contractId ∧
      PositiveRead page address contractId := by
  obtain ⟨listed, kept⟩ := List.mem_filter.mp member
  have fresh := (Keyed.mem_firsts_keys.mp listed).2
  rw [List.append_nil, loadKnownAssets_ids] at fresh
  refine ⟨fresh, ?_⟩
  unfold keptId at kept
  rw [decide_eq_true_eq] at kept
  obtain ⟨own, held | stored⟩ := kept
  · exact (held_positive own.2 held).2
  · exact absurd stored.1 fresh

theorem survivors_stored {contractId : String}
    (member : contractId ∈ survivors page known address) :
    contractId ∈ known.map AssetCandidate.contractId := by
  have listed := (Keyed.mem_firsts_keys.mp (List.mem_filter.mp member).1).1
  rwa [loadKnownAssets_ids] at listed

/-- A token that the account holds survives unless it is taken for the contract of a
classic asset and has no ledger entry. -/
theorem Holdable.survives_iff {contractId : String}
    (holdable : Holdable page known address contractId) :
    contractId ∈ survivors page known address ↔
      (markedSac (finds page known address) contractId = true →
        0 < (entryAmount page address contractId).getD 0) := by
  have listed : contractId ∈ (Keyed.firsts AssetCandidate.contractId []
      (loadKnownAssets known)).map AssetCandidate.contractId := by
    rw [Keyed.mem_firsts_keys, loadKnownAssets_ids]
    exact ⟨holdable.stored, List.not_mem_nil⟩
  unfold survivors
  rw [List.mem_filter, and_iff_right listed, Bool.and_eq_true, decide_eq_true_eq,
    and_iff_right holdable.own, Bool.not_eq_true']
  unfold gone
  cases marked : markedSac (finds page known address) contractId with
  | true =>
      rw [if_pos rfl, decide_eq_false_iff_not, Int.not_le]
      exact ⟨fun positive _ => positive, fun positive => positive rfl⟩
  | false =>
      rw [if_neg (by decide), holdable.probed, Bool.and_false]
      exact iff_of_true rfl (fun impossible => by cases impossible)

theorem Holdable.persisted_iff {contractId : String}
    (holdable : Holdable page known address contractId) (readable : Readable page known address)
    (writable : page.storageWritable = true) :
    contractId ∈ (persistedAfter page known address).map AssetCandidate.contractId ↔
      (markedSac (finds page known address) contractId = true →
        0 < (entryAmount page address contractId).getD 0) ∧
          (survivors page known address).idxOf contractId < maxStored := by
  rw [persisted_ids readable writable, ← holdable.survives_iff]
  have old : contractId ∉ added page known address :=
    fun member => (mem_added member).1 holdable.stored
  constructor
  · intro member
    have survives : contractId ∈ survivors page known address :=
      (List.mem_append.mp (List.mem_of_mem_take member)).resolve_right old
    rw [List.mem_take_iff_idxOf_lt (List.mem_append_left _ survives),
      List.idxOf_append_of_mem survives] at member
    exact ⟨survives, member⟩
  · rintro ⟨survives, early⟩
    rw [List.mem_take_iff_idxOf_lt (List.mem_append_left _ survives),
      List.idxOf_append_of_mem survives]
    exact early

/-- A load keeps every stored token that the account holds just when none of them is
taken for the contract of a classic asset without having its ledger entry, and less than a
hundred stored tokens stay before each of them. -/
theorem holdings_kept_iff (page : AssetPage) (known : List AssetCandidate) (address : String) :
    HoldingsKept page known address ↔
      ¬ Readable page known address ∨ page.storageWritable = false ∨
        ∀ contractId, Holdable page known address contractId →
          (markedSac (finds page known address) contractId = true →
            0 < (entryAmount page address contractId).getD 0) ∧
              (survivors page known address).idxOf contractId < maxStored := by
  have unchanged (same : persistedAfter page known address = known) :
      HoldingsKept page known address := by
    constructor
    · intro contractId holdable
      rw [same]
      exact holdable.stored
    · intro contractId member fresh
      rw [same] at member
      exact absurd member fresh
  by_cases readable : Readable page known address
  · cases writable : page.storageWritable with
    | false =>
        have same : persistedAfter page known address = known := by
          rw [persistedAfter_readable readable]
          exact if_pos writable
        exact iff_of_true (unchanged same) (Or.inr (Or.inl rfl))
    | true =>
        rw [or_iff_right (not_not.mpr readable), or_iff_right (by decide)]
        constructor
        · intro kept contractId holdable
          exact (holdable.persisted_iff readable writable).mp (kept.kept contractId holdable)
        · intro enough
          constructor
          · intro contractId holdable
            exact (holdable.persisted_iff readable writable).mpr (enough contractId holdable)
          · intro contractId member fresh
            rw [persisted_ids readable writable] at member
            rcases List.mem_append.mp (List.mem_of_mem_take member) with survivor | new
            · exact absurd (survivors_stored survivor) fresh
            · exact (mem_added new).2
  · exact iff_of_true (unchanged (persistedAfter_unreadable readable)) (Or.inl readable)

end Verdicts

/-! A stored token that answers with a balance, and one event of it in the shape of a classic
asset. -/

namespace SampleAssets

def self_ : String := "CCA2KXEUA4EQW3NL4QRCIZ2VRMA7V6A54DHXPA4RBTAGH72PCCYT5MSA"

def issuer : String := "GCQZN6KXTEATCRNES3ZPTPZV4NNVK7CZKA6RHLMP2HPWP7SPDN7MFGBS"

def token : String := "CCXLTPPNPNJ45QG4JG2YQWLOC4IMSRJ7KCF5RYF5BGT62SZGA3XDGKXQ"

/-- A storage with one token, which answers 42 with six decimals and has no ledger entry. -/
def page : AssetPage where
  reader :=
    { addressToString := fun target => if target = SampleSummary.victim then self_ else issuer
      bufferToString := fun _ => ""
      readText := id }
  nativeSacId := "CDLZFC3SYJYDZT7K67VZ75HPJVIEUVNIXF47ZG2FB2RMQQVU2HHGCYSC"
  isAddress := fun _ => true
  isContract := fun _ => true
  powerLimit := 1000000
  powers := by decide
  localeCompare := fun left right => if left < right then -1 else if left = right then 0 else 1
  curated := []
  events :=
    [⟨some token, [.symbol "transfer", .address SampleSummary.other,
      .address SampleSummary.victim, .string "USDC:G"]⟩]
  balanceEntry := fun _ _ => none
  simulate := fun contract fn _ =>
    if contract ≠ token then none
    else if fn = "balance" then some (.i128 42000000)
    else if fn = "decimals" then some (.u32 6)
    else if fn = "symbol" then some (.string "WERT")
    else none
  cachedMeta := fun _ => none
  storageWritable := true

def known : List AssetCandidate :=
  [{ contractId := token, code := some "WERT", issuer := none, domain := none, decimals := none,
     icon := none, sac := false, source := .events }]

theorem held : Holdable page known self_ token where
  stored := List.mem_singleton_self _
  own := ⟨List.not_mem_nil, by decide⟩
  balance := ⟨42000000, by decide, rfl⟩
  decimals := ⟨.number 6, 6, rfl, rfl⟩
  symbol := ⟨.text "WERT", rfl⟩

end SampleAssets

theorem rerouted_pruned :
    ¬ HoldingsKept SampleAssets.page SampleAssets.known SampleAssets.self_ := by
  intro kept
  have present := kept.kept SampleAssets.token SampleAssets.held
  have pruned : persistedAfter SampleAssets.page SampleAssets.known SampleAssets.self_ = [] := rfl
  rw [pruned] at present
  cases present

end Nido.Frontend
