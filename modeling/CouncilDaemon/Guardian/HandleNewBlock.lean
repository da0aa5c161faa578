import CouncilDaemon.StakingModuleGuard.FrontRun
import CouncilDaemon.StakingModuleGuard.CorrectKeys
import CouncilDaemon.KeysValidation.Service

/-! One tick of the guardian, `GuardianService.handleNewBlock`. The tick reads the operators
view of the keys index, asks the block guard whether its block is new, reads the keys view and
checks that both views carry the same `lastChangedBlockHash`, loads the block data, computes
`theftHappened` with `getHistoricalFrontRun`, loads the modules, and fans out to one branch per
module in a `Promise.all`. A branch computes the module's front-run keys with
`getFrontRunAttempts`, awaits `getInvalidKeys`, sets the module's key lists (the duplicated keys
are those of `getDuplicatedKeys` at the module's address), awaits `handleUnvetting`, and when
`canDeposit` holds runs `handleCorrectKeys`: it records the module's contracts state, then awaits
`signDepositData` and `sendDepositMessage`. When every branch has resolved, the tick pings the
message broker and sets the block guard's last processed state. An exception anywhere is caught
and logged, and ends the tick.

Each collaborator answers every call with a value or an error, any of them, fixed in advance.
The branches interleave: a schedule says which branch resumes at each step, and a branch resumes
once after each of its awaits. A branch that throws rejects the `Promise.all` and ends the tick,
but its siblings keep running.

`BlockGuardService`, `canDeposit` and `getVettedKeys` are not in the sources and are modelled
from the spec; `getDuplicatedKeys` is not either, and is any function. The tick calls
`getStakingModulesData` without the `duplicatedKeys` the service in the sources requires, and
reads a `stakingModuleAddress` its result does not have: the two files are of different
versions, and the module list is taken as the collaborator's answer. Likewise the tick calls
`getKeys()` without the snapshot argument that `KeysApiService.getKeys` in the sources reads, so
with that service every such call throws and no tick gets past the keys view; the model takes
the keys view as any answer, value or error. This over-approximates the code: what is proved of
every deposit message holds of the code, while a run that hands one on needs a keys view the
service in the sources does not give.

Proved: every deposit message of a tick is the signed message of a module whose branch passed
the whole gate (new block, consistent views, no theft, deposits not paused, no front-run, invalid
or duplicated key of the module), and the block guard changes only at the end of a tick in which
no step threw. When the modules' invalid keys are those the keys-validation service returns,
every deposit message is of a module each of whose vetted unused keys passes the BLS check. -/

namespace CouncilDaemon.Guardian

open KeysApi StakingModuleGuard

/-! ### Collaborators -/

/-- `{ blockHash, blockNumber }` of a processed keys-index state. -/
structure ProcessedStateMeta where
  blockHash : String
  blockNumber : ℤ
  deriving DecidableEq, Repr

/-- The block a keys-index response was read at. -/
def processedState («meta» : Meta) : ProcessedStateMeta :=
  ⟨«meta».elBlockSnapshot.blockHash, «meta».elBlockSnapshot.blockNumber⟩

/-- Modelled from the spec: `BlockGuardService.isNeedToProcessNewState`, false when the block is
not after the last processed one or has its hash. -/
def isNeedToProcessNewState (lastProcessedStateMeta : Option ProcessedStateMeta)
    (newMeta : ProcessedStateMeta) : Bool :=
  match lastProcessedStateMeta with
  | none => true
  | some last =>
    !(decide (newMeta.blockNumber ≤ last.blockNumber) || decide (newMeta.blockHash = last.blockHash))

/-- `StakingRouterService.isEqualLastChangedBlockHash`. -/
def isEqualLastChangedBlockHash (firstRequestHash secondRequestHash : String) :
    Except Error Unit :=
  if firstRequestHash ≠ secondRequestHash then .error .inconsistentLastChangedBlockHash
  else .ok ()

@[simp] theorem isEqualLastChangedBlockHash_eq_ok {firstRequestHash secondRequestHash : String}
    {u : Unit} :
    isEqualLastChangedBlockHash firstRequestHash secondRequestHash = .ok u ↔
      firstRequestHash = secondRequestHash := by
  unfold isEqualLastChangedBlockHash
  split_ifs <;> simp_all

/-- Modelled from the spec: `getVettedKeys`, the vetted unused keys of all modules. -/
def getVettedKeys (stakingModulesData : List StakingModuleData) : List RegistryKey :=
  stakingModulesData.flatMap (·.vettedUnusedKeys)

/-- Modelled from the spec: `canDeposit`, false on a theft, on paused deposits, or with a
front-run, invalid or duplicated key in the module. -/
def canDeposit (stakingModuleData : StakingModuleData) (theftHappened alreadyPausedDeposits : Bool) :
    Bool :=
  !(theftHappened || alreadyPausedDeposits || !stakingModuleData.frontRunKeys.isEmpty ||
    !stakingModuleData.invalidKeys.isEmpty || !stakingModuleData.duplicatedKeys.isEmpty)

/-- What the collaborators of one module's branch answer: `getInvalidKeys`, `handleUnvetting`,
and `signDepositData` and `sendDepositMessage` inside `handleCorrectKeys`. -/
structure ModuleResponses where
  invalidKeys : Except Error (List RegistryKey)
  unvetting : Except Error Unit
  sign : Except Error String
  send : Except Error Unit

/-- What the collaborators of a tick answer, in the order the tick awaits them; `keysFind` is
the `/v1/keys/find` call inside `getHistoricalFrontRun`, `modules i` the calls of the `i`-th
module's branch. -/
structure TickResponses where
  operatorListWithModule : Except Error Meta
  initCachedContracts : Except Error Unit
  keys : Except Error KeyListResponse
  depositHandleNewBlock : Except Error Unit
  currentBlockData : Except Error BlockData
  keysFind : Except Error KeyListResponse
  stakingModulesData : Except Error (List StakingModuleData)
  version : Except Error ℕ
  alreadyPausedDeposits : Except Error Bool
  pauseDepositsV3 : Except Error Unit
  pauseDepositsV2 : Except Error Unit
  modules : ℕ → ModuleResponses
  pingMessageBroker : Except Error Unit

/-- The guardian across ticks: the block guard's `lastProcessedStateMeta`, the keys-index
client, the contracts-state map of `StakingModuleGuardService`, and the deposit messages handed
to `sendDepositMessage` so far. -/
structure GuardianState where
  lastProcessedStateMeta : Option ProcessedStateMeta
  keysApi : KeysApiService
  lastContractsStateByModuleId : ContractsStates
  sent : List DepositMessage

/-- What a tick has computed when it fans out to the modules. -/
structure TickContext where
  «meta» : Meta
  blockData : BlockData
  theftHappened : Bool
  stakingModulesData : List StakingModuleData
  alreadyPausedDeposits : Bool
  duplicatedKeys : List RegistryKey

/-! ### The steps before the modules -/

section Prepare

variable (getDuplicatedKeys : List RegistryKey → List RegistryKey)

/-- The steps up to `getCurrentBlockData`; `none` when the block guard reports no new state. -/
def loadBlock (r : TickResponses) (lastProcessedStateMeta : Option ProcessedStateMeta) :
    Except Error (Option (Meta × BlockData)) := do
  let «meta» ← r.operatorListWithModule
  r.initCachedContracts
  if !isNeedToProcessNewState lastProcessedStateMeta (processedState «meta») then
    return none
  let keys ← r.keys
  isEqualLastChangedBlockHash «meta».elBlockSnapshot.lastChangedBlockHash
    keys.meta.elBlockSnapshot.lastChangedBlockHash
  r.depositHandleNewBlock
  let blockData ← r.currentBlockData
  return some («meta», blockData)

/-- The steps from `getStakingModulesData` to `pauseDepositsV2`. -/
def loadModules (r : TickResponses) («meta» : Meta) (blockData : BlockData)
    (theftHappened : Bool) : Except Error TickContext := do
  let stakingModulesData ← r.stakingModulesData
  let _ ← r.version
  let alreadyPausedDeposits ← r.alreadyPausedDeposits
  let vettedKeys := getVettedKeys stakingModulesData
  let duplicatedKeys := getDuplicatedKeys vettedKeys
  r.pauseDepositsV3
  r.pauseDepositsV2
  return ⟨«meta», blockData, theftHappened, stakingModulesData, alreadyPausedDeposits,
    duplicatedKeys⟩

/-- The steps before the `Promise.all`, with `getHistoricalFrontRun` between the two groups. -/
def prepareTick (r : TickResponses) (lastProcessedStateMeta : Option ProcessedStateMeta)
    (keysApi : KeysApiService) : Except Error (Option TickContext) × KeysApiService :=
  match loadBlock r lastProcessedStateMeta with
  | .error e => (.error e, keysApi)
  | .ok none => (.ok none, keysApi)
  | .ok (some («meta», blockData)) =>
    match getHistoricalFrontRun r.keysFind blockData keysApi with
    | (.error e, keysApi) => (.error e, keysApi)
    | (.ok theftHappened, keysApi) =>
      ((loadModules getDuplicatedKeys r «meta» blockData theftHappened).map some, keysApi)

end Prepare

/-! ### The module branches -/

/-- The record a branch hands to `handleUnvetting`: the module's record with its invalid keys,
its front-run keys and the duplicated keys at its address. -/
def setKeyLists (ctx : TickContext) (stakingModuleData : StakingModuleData)
    (invalidKeys : List RegistryKey) : StakingModuleData :=
  { stakingModuleData with
    invalidKeys := invalidKeys
    frontRunKeys := getFrontRunAttempts stakingModuleData ctx.blockData
    duplicatedKeys := ctx.duplicatedKeys.filter fun key =>
      decide (key.moduleAddress = stakingModuleData.stakingModuleAddress) }

/-- Where a module's branch of the `Promise.all` stands: at one of its awaits, or settled. -/
inductive Branch where
  /-- awaiting `getInvalidKeys`, with the module's record as loaded -/
  | getInvalidKeys (stakingModuleData : StakingModuleData)
  /-- awaiting `handleUnvetting`, with the record's key lists set -/
  | handleUnvetting (stakingModuleData : StakingModuleData)
  /-- in `handleCorrectKeys`, awaiting `signDepositData` -/
  | signDepositData (stakingModuleData : StakingModuleData)
  /-- in `handleCorrectKeys`, awaiting `sendDepositMessage` -/
  | sendDepositMessage
  | done
  | failed (error : Error)
  deriving DecidableEq, Repr

/-- The error a settled branch rejected with. -/
def Branch.error? : Branch → Option Error
  | .failed e => some e
  | _ => none

/-- The branches' shared state: the branches, the contracts-state map, the deposit messages handed
to `sendDepositMessage`, and the error the `Promise.all` rejected with, the first one thrown. -/
structure FanOut where
  branches : List Branch
  lastContractsStateByModuleId : ContractsStates
  sent : List DepositMessage
  rejection : Option Error

section Branches

variable (GUARDIAN_DEPOSIT_RESIGNING_BLOCKS : ℕ+)

/-- A branch resuming after its await, with the answer of the awaited call: it runs to its next
await or settles, and may update the contracts-state map and hand a message to
`sendDepositMessage`. `handleCorrectKeys` records the state before its first await. -/
def branchStep (ctx : TickContext) (responses : ModuleResponses) (states : ContractsStates) :
    Branch → Branch × ContractsStates × Option DepositMessage
  | .getInvalidKeys stakingModuleData =>
    match responses.invalidKeys with
    | .error e => (.failed e, states, none)
    | .ok invalidKeys =>
      (.handleUnvetting (setKeyLists ctx stakingModuleData invalidKeys), states, none)
  | .handleUnvetting stakingModuleData =>
    match responses.unvetting with
    | .error e => (.failed e, states, none)
    | .ok () =>
      if !canDeposit stakingModuleData ctx.theftHappened ctx.alreadyPausedDeposits then
        (.done, states, none)
      else
        let currentContractState := currentContractState stakingModuleData ctx.blockData
        let isSameContractsState := isSameContractsStates GUARDIAN_DEPOSIT_RESIGNING_BLOCKS
          (some currentContractState) (states stakingModuleData.stakingModuleId)
        let states := Function.update states stakingModuleData.stakingModuleId
          (some currentContractState)
        if isSameContractsState then (.done, states, none)
        else (.signDepositData stakingModuleData, states, none)
  | .signDepositData stakingModuleData =>
    match responses.sign with
    | .error e => (.failed e, states, none)
    | .ok signature =>
      (.sendDepositMessage, states, some (depositMessage stakingModuleData ctx.blockData signature))
  | .sendDepositMessage =>
    match responses.send with
    | .error e => (.failed e, states, none)
    | .ok () => (.done, states, none)
  | .done => (.done, states, none)
  | .failed e => (.failed e, states, none)

/-- The `i`-th branch resumes; an index with no branch changes nothing. -/
def fanOutStep (ctx : TickContext) (r : TickResponses) (st : FanOut) (i : ℕ) : FanOut :=
  match st.branches[i]? with
  | none => st
  | some branch =>
    let step := branchStep GUARDIAN_DEPOSIT_RESIGNING_BLOCKS ctx (r.modules i)
      st.lastContractsStateByModuleId branch
    ⟨st.branches.set i step.1, step.2.1, st.sent ++ step.2.2.toList, st.rejection.or step.1.error?⟩

/-- The branches resuming in the order of `schedule`. -/
def runBranches (ctx : TickContext) (r : TickResponses) (schedule : List ℕ) (st : FanOut) :
    FanOut :=
  schedule.foldl (fanOutStep GUARDIAN_DEPOSIT_RESIGNING_BLOCKS ctx r) st

@[simp] theorem runBranches_nil (ctx : TickContext) (r : TickResponses) (st : FanOut) :
    runBranches GUARDIAN_DEPOSIT_RESIGNING_BLOCKS ctx r [] st = st := rfl

@[simp] theorem runBranches_append_singleton (ctx : TickContext) (r : TickResponses)
    (schedule : List ℕ) (j : ℕ) (st : FanOut) :
    runBranches GUARDIAN_DEPOSIT_RESIGNING_BLOCKS ctx r (schedule ++ [j]) st =
      fanOutStep GUARDIAN_DEPOSIT_RESIGNING_BLOCKS ctx r
        (runBranches GUARDIAN_DEPOSIT_RESIGNING_BLOCKS ctx r schedule st) j :=
  List.foldl_append _ _ _ _

/-- The fan-out when the `Promise.all` starts: every branch at its first await. -/
def startBranches (ctx : TickContext) (s : GuardianState) : FanOut :=
  ⟨ctx.stakingModulesData.map .getInvalidKeys, s.lastContractsStateByModuleId, s.sent, none⟩

end Branches

/-! ### The tick -/

/-- How a tick ended: no new state, an exception caught and logged, a branch not yet settled,
or every step done. -/
inductive TickOutcome where
  | skipped
  | failed (error : Error)
  | pending
  | completed
  deriving DecidableEq, Repr

section Tick

variable (GUARDIAN_DEPOSIT_RESIGNING_BLOCKS : ℕ+)
  (getDuplicatedKeys : List RegistryKey → List RegistryKey)

/-- `GuardianService.handleNewBlock`, with the branches resuming in the order of `schedule`. -/
def handleNewBlock (r : TickResponses) (schedule : List ℕ) (s : GuardianState) :
    GuardianState × TickOutcome :=
  match prepareTick getDuplicatedKeys r s.lastProcessedStateMeta s.keysApi with
  | (.error e, keysApi) => ({ s with keysApi := keysApi }, .failed e)
  | (.ok none, keysApi) => ({ s with keysApi := keysApi }, .skipped)
  | (.ok (some ctx), keysApi) =>
    let fanOut := runBranches GUARDIAN_DEPOSIT_RESIGNING_BLOCKS ctx r schedule (startBranches ctx s)
    let s := { s with
      keysApi := keysApi
      lastContractsStateByModuleId := fanOut.lastContractsStateByModuleId
      sent := fanOut.sent }
    match fanOut.rejection with
    | some e => (s, .failed e)
    | none =>
      if fanOut.branches.all fun branch => decide (branch = .done) then
        match r.pingMessageBroker with
        | .error e => (s, .failed e)
        | .ok () => ({ s with lastProcessedStateMeta := some (processedState ctx.meta) }, .completed)
      else (s, .pending)

end Tick

/-! ### What the steps before the modules establish -/

section Inversion

variable {ε α β : Type}

@[simp] theorem except_bind_eq_ok {x : Except ε α} {f : α → Except ε β} {b : β} :
    x >>= f = .ok b ↔ ∃ a, x = .ok a ∧ f a = .ok b := by
  cases x <;> simp [bind, Except.bind]

@[simp] theorem except_map_eq_ok {x : Except ε α} {f : α → β} {b : β} :
    f <$> x = .ok b ↔ ∃ a, x = .ok a ∧ f a = b := by
  cases x <;> simp [Functor.map, Except.map]

@[simp] theorem except_pure_eq_ok {a b : α} : (pure a : Except ε α) = .ok b ↔ a = b := by
  simp [pure, Except.pure]

end Inversion

variable {getDuplicatedKeys : List RegistryKey → List RegistryKey} {r : TickResponses}

/-- A block loaded for processing: the operators view was read, the block guard reported new
state, the keys view agrees with it on `lastChangedBlockHash`, and the block data was read. -/
theorem loadBlock_eq_ok_some {lastProcessedStateMeta : Option ProcessedStateMeta} {«meta» : Meta}
    {blockData : BlockData} (h : loadBlock r lastProcessedStateMeta = .ok (some («meta», blockData))) :
    r.operatorListWithModule = .ok «meta» ∧
      isNeedToProcessNewState lastProcessedStateMeta (processedState «meta») = true ∧
      ∃ keys, r.keys = .ok keys ∧
        «meta».elBlockSnapshot.lastChangedBlockHash = keys.meta.elBlockSnapshot.lastChangedBlockHash ∧
        r.currentBlockData = .ok blockData := by
  simp only [loadBlock, except_bind_eq_ok] at h
  obtain ⟨m, hm, -, -, h⟩ := h
  cases hneed : isNeedToProcessNewState lastProcessedStateMeta (processedState m) <;>
    simp only [hneed, Bool.not_false, Bool.not_true, Bool.false_eq_true, if_true, if_false,
      except_pure_eq_ok, reduceCtorEq, pure_bind, except_bind_eq_ok, except_map_eq_ok,
      isEqualLastChangedBlockHash_eq_ok] at h
  obtain ⟨keys, hkeys, -, hhash, -, -, blockData', hblockData, hsome⟩ := h
  obtain ⟨rfl, rfl⟩ := Prod.mk.inj (Option.some.inj hsome)
  exact ⟨hm, hneed, keys, hkeys, hhash, hblockData⟩

theorem loadModules_eq_ok {«meta» : Meta} {blockData : BlockData} {theftHappened : Bool}
    {ctx : TickContext} (h : loadModules getDuplicatedKeys r «meta» blockData theftHappened = .ok ctx) :
    r.stakingModulesData = .ok ctx.stakingModulesData ∧
      r.alreadyPausedDeposits = .ok ctx.alreadyPausedDeposits ∧
      ctx.meta = «meta» ∧ ctx.blockData = blockData ∧ ctx.theftHappened = theftHappened ∧
      ctx.duplicatedKeys = getDuplicatedKeys (getVettedKeys ctx.stakingModulesData) := by
  simp only [loadModules, except_bind_eq_ok, except_pure_eq_ok] at h
  obtain ⟨_, hmodules, -, -, _, hpaused, -, -, -, -, rfl⟩ := h
  exact ⟨hmodules, hpaused, rfl, rfl, rfl, rfl⟩

theorem prepareTick_eq_ok_some {lastProcessedStateMeta : Option ProcessedStateMeta}
    {keysApi keysApi' : KeysApiService} {ctx : TickContext}
    (h : prepareTick getDuplicatedKeys r lastProcessedStateMeta keysApi = (.ok (some ctx), keysApi')) :
    loadBlock r lastProcessedStateMeta = .ok (some (ctx.meta, ctx.blockData)) ∧
      getHistoricalFrontRun r.keysFind ctx.blockData keysApi = (.ok ctx.theftHappened, keysApi') ∧
      loadModules getDuplicatedKeys r ctx.meta ctx.blockData ctx.theftHappened = .ok ctx := by
  unfold prepareTick at h
  split at h
  · cases h
  · cases h
  · rename_i hload
    split at h
    · cases h
    · rename_i hfrontRun
      obtain ⟨hmodules, rfl⟩ := Prod.mk.inj h
      obtain ⟨ctx', hctx, hsome⟩ := except_map_eq_ok.1 hmodules
      cases Option.some.inj hsome
      obtain ⟨-, -, rfl, rfl, rfl, -⟩ := loadModules_eq_ok hctx
      exact ⟨hload, hfrontRun, hctx⟩

/-! ### A branch passes the gate before it signs -/

/-- The part of the deposit gate a branch checks, for the module's record as loaded. -/
structure BranchGate (ctx : TickContext) (responses : ModuleResponses)
    (stakingModuleData : StakingModuleData) : Prop where
  noTheft : ctx.theftHappened = false
  notPaused : ctx.alreadyPausedDeposits = false
  noFrontRun : getFrontRunAttempts stakingModuleData ctx.blockData = []
  noInvalid : responses.invalidKeys = .ok []
  noDuplicate : ∀ key ∈ ctx.duplicatedKeys,
    key.moduleAddress ≠ stakingModuleData.stakingModuleAddress

theorem canDeposit_setKeyLists (ctx : TickContext) (stakingModuleData : StakingModuleData)
    (invalidKeys : List RegistryKey) :
    canDeposit (setKeyLists ctx stakingModuleData invalidKeys) ctx.theftHappened
        ctx.alreadyPausedDeposits = true ↔
      ctx.theftHappened = false ∧ ctx.alreadyPausedDeposits = false ∧
        getFrontRunAttempts stakingModuleData ctx.blockData = [] ∧ invalidKeys = [] ∧
        ∀ key ∈ ctx.duplicatedKeys, key.moduleAddress ≠ stakingModuleData.stakingModuleAddress := by
  simp [canDeposit, setKeyLists, List.filter_eq_nil_iff, and_assoc]

/-- What a branch's stage says about the module's record `stakingModuleData` as loaded: the
record it holds is the loaded one with the key lists set from the answers, and a branch about to
sign has passed the gate. -/
def BranchInv (ctx : TickContext) (responses : ModuleResponses)
    (stakingModuleData : StakingModuleData) : Branch → Prop
  | .getInvalidKeys smd => smd = stakingModuleData
  | .handleUnvetting smd => ∃ invalidKeys, responses.invalidKeys = .ok invalidKeys ∧
    smd = setKeyLists ctx stakingModuleData invalidKeys
  | .signDepositData smd => BranchGate ctx responses stakingModuleData ∧
    smd = setKeyLists ctx stakingModuleData []
  | _ => True

/-- A message handed on by the branch of `stakingModuleData`: the gate held, and it is the
module's deposit message with the signature `signDepositData` returned. -/
def SignedThroughGate (ctx : TickContext) (responses : ModuleResponses)
    (stakingModuleData : StakingModuleData) (message : DepositMessage) : Prop :=
  BranchGate ctx responses stakingModuleData ∧ ∃ signature, responses.sign = .ok signature ∧
    message = depositMessage stakingModuleData ctx.blockData signature

variable (GUARDIAN_DEPOSIT_RESIGNING_BLOCKS : ℕ+) {ctx : TickContext}

/-- One resumption keeps the branch's invariant, and a message it hands on passed the gate. -/
theorem branchStep_inv {responses : ModuleResponses} {stakingModuleData : StakingModuleData}
    (states : ContractsStates) :
    ∀ {branch : Branch}, BranchInv ctx responses stakingModuleData branch →
      BranchInv ctx responses stakingModuleData
          (branchStep GUARDIAN_DEPOSIT_RESIGNING_BLOCKS ctx responses states branch).1 ∧
        ∀ message ∈ (branchStep GUARDIAN_DEPOSIT_RESIGNING_BLOCKS ctx responses states branch).2.2,
          SignedThroughGate ctx responses stakingModuleData message
  | .getInvalidKeys _, rfl => by
    cases hinvalid : responses.invalidKeys with
    | error e => simp [branchStep, hinvalid, BranchInv]
    | ok invalidKeys => simp [branchStep, hinvalid, BranchInv]
  | .handleUnvetting _, ⟨invalidKeys, hinvalid, rfl⟩ => by
    cases hunvetting : responses.unvetting with
    | error e => simp [branchStep, hunvetting, BranchInv]
    | ok u =>
      by_cases hcan : canDeposit (setKeyLists ctx stakingModuleData invalidKeys) ctx.theftHappened
          ctx.alreadyPausedDeposits = true
      · obtain ⟨h1, h2, h3, rfl, h5⟩ := (canDeposit_setKeyLists ..).1 hcan
        have gate : BranchGate ctx responses stakingModuleData := ⟨h1, h2, h3, hinvalid, h5⟩
        simp only [branchStep, hunvetting, hcan, Bool.not_true, Bool.false_eq_true, if_false]
        split <;> simp [BranchInv, gate]
      · simp [branchStep, hunvetting, hcan, BranchInv]
  | .signDepositData _, ⟨gate, rfl⟩ => by
    cases hsign : responses.sign with
    | error e => simp [branchStep, hsign, BranchInv]
    | ok signature =>
      simp only [branchStep, hsign, Option.mem_def, Option.some.injEq, forall_eq']
      exact ⟨trivial, gate, signature, hsign, rfl⟩
  | .sendDepositMessage, _ => by cases hsend : responses.send <;> simp [branchStep, hsend, BranchInv]
  | .done, _ => by simp [branchStep, BranchInv]
  | .failed _, _ => by simp [branchStep, BranchInv]

/-- The fan-out invariant: one branch per loaded module, each with its branch invariant, and
every message handed on since `sent` was handed on by a branch through the gate. -/
structure FanOutInv (ctx : TickContext) (r : TickResponses) (sent : List DepositMessage)
    (st : FanOut) : Prop where
  length_eq : st.branches.length = ctx.stakingModulesData.length
  branches : ∀ i branch stakingModuleData, st.branches[i]? = some branch →
    ctx.stakingModulesData[i]? = some stakingModuleData →
    BranchInv ctx (r.modules i) stakingModuleData branch
  sent_eq : ∃ messages, st.sent = sent ++ messages ∧ ∀ message ∈ messages,
    ∃ i stakingModuleData, ctx.stakingModulesData[i]? = some stakingModuleData ∧
      SignedThroughGate ctx (r.modules i) stakingModuleData message

theorem startBranches_inv (s : GuardianState) : FanOutInv ctx r s.sent (startBranches ctx s) where
  length_eq := by simp [startBranches]
  branches i branch stakingModuleData hbranch hmodule := by
    simp only [startBranches, List.getElem?_map, hmodule, Option.map_some', Option.some.injEq]
      at hbranch
    subst hbranch
    rfl
  sent_eq := ⟨[], by simp [startBranches], by simp⟩

theorem fanOutStep_inv {sent : List DepositMessage} {st : FanOut} (h : FanOutInv ctx r sent st)
    (i : ℕ) : FanOutInv ctx r sent (fanOutStep GUARDIAN_DEPOSIT_RESIGNING_BLOCKS ctx r st i) := by
  unfold fanOutStep
  split
  · exact h
  · rename_i branch hbranch
    dsimp only
    have hlt : i < st.branches.length := (List.getElem?_eq_some_iff.1 hbranch).1
    obtain ⟨stakingModuleData, hmodule⟩ : ∃ smd, ctx.stakingModulesData[i]? = some smd :=
      ⟨_, List.getElem?_eq_getElem (h.length_eq ▸ hlt)⟩
    have hstep := branchStep_inv GUARDIAN_DEPOSIT_RESIGNING_BLOCKS st.lastContractsStateByModuleId
      (h.branches i branch stakingModuleData hbranch hmodule)
    refine ⟨by simp [h.length_eq], fun j branch' smd hj hsmd => ?_, ?_⟩
    · by_cases hij : i = j
      · subst hij
        rw [List.getElem?_set_self hlt] at hj
        rw [hmodule] at hsmd
        cases Option.some.inj hsmd
        cases Option.some.inj hj
        exact hstep.1
      · rw [List.getElem?_set_ne hij] at hj
        exact h.branches j branch' smd hj hsmd
    · obtain ⟨messages, hsent, hmessages⟩ := h.sent_eq
      refine ⟨messages ++ _, by rw [hsent, List.append_assoc], fun message hmessage => ?_⟩
      rcases List.mem_append.1 hmessage with hmessage | hmessage
      · exact hmessages message hmessage
      · exact ⟨i, stakingModuleData, hmodule, hstep.2 message (Option.mem_toList.1 hmessage)⟩

theorem runBranches_inv {sent : List DepositMessage} (schedule : List ℕ) :
    ∀ {st : FanOut}, FanOutInv ctx r sent st →
      FanOutInv ctx r sent (runBranches GUARDIAN_DEPOSIT_RESIGNING_BLOCKS ctx r schedule st) := by
  induction schedule with
  | nil => exact id
  | cons i schedule ih => exact fun h => ih (fanOutStep_inv GUARDIAN_DEPOSIT_RESIGNING_BLOCKS h i)

/-! ### The tick -/

/-- What a tick does to the guardian: when it throws or skips before the modules, it leaves the
messages and the block guard as they were; otherwise its messages are those of the fan-out, and
it completes, setting the block guard, exactly when every branch is done and the ping succeeded. -/
theorem handleNewBlock_cases (r : TickResponses) (schedule : List ℕ) (s : GuardianState) :
    let t := handleNewBlock GUARDIAN_DEPOSIT_RESIGNING_BLOCKS getDuplicatedKeys r schedule s
    (t.1.sent = s.sent ∧ t.1.lastProcessedStateMeta = s.lastProcessedStateMeta ∧
        t.2 ≠ .completed) ∨
      ∃ ctx keysApi, prepareTick getDuplicatedKeys r s.lastProcessedStateMeta s.keysApi =
          (.ok (some ctx), keysApi) ∧
        let fanOut :=
          runBranches GUARDIAN_DEPOSIT_RESIGNING_BLOCKS ctx r schedule (startBranches ctx s)
        t.1.sent = fanOut.sent ∧
          (t.1.lastProcessedStateMeta = s.lastProcessedStateMeta ∧ t.2 ≠ .completed ∨
            (∀ branch ∈ fanOut.branches, branch = .done) ∧ r.pingMessageBroker = .ok () ∧
              t.1.lastProcessedStateMeta = some (processedState ctx.meta) ∧ t.2 = .completed) := by
  unfold handleNewBlock
  split
  · exact .inl ⟨rfl, rfl, nofun⟩
  · exact .inl ⟨rfl, rfl, nofun⟩
  · rename_i ctx keysApi hprepare
    refine .inr ⟨ctx, keysApi, hprepare, ?_⟩
    dsimp only
    split
    · exact ⟨rfl, .inl ⟨rfl, nofun⟩⟩
    · split
      · rename_i hdone
        split
        · exact ⟨rfl, .inl ⟨rfl, nofun⟩⟩
        · rename_i hping
          exact ⟨rfl, .inr ⟨by simpa using hdone, hping, rfl, rfl⟩⟩
      · exact ⟨rfl, .inl ⟨rfl, nofun⟩⟩

/-- The deposit gate for a message of `stakingModuleData`, the `i`-th module a tick from `s`
loaded: the block guard reported new state for the block of the operators view, the keys view
carries the same `lastChangedBlockHash`, `getHistoricalFrontRun` found no theft,
`alreadyPausedDeposits` is false, and the module has no front-run attempt, no invalid key, and
no duplicated key at its address. -/
structure DepositGate (getDuplicatedKeys : List RegistryKey → List RegistryKey)
    (r : TickResponses) (s : GuardianState) («meta» : Meta) (keys : KeyListResponse)
    (blockData : BlockData) (stakingModulesData : List StakingModuleData) (i : ℕ)
    (stakingModuleData : StakingModuleData) : Prop where
  operatorsLoaded : r.operatorListWithModule = .ok «meta»
  newState : isNeedToProcessNewState s.lastProcessedStateMeta (processedState «meta») = true
  keysLoaded : r.keys = .ok keys
  sameLastChangedBlockHash :
    «meta».elBlockSnapshot.lastChangedBlockHash = keys.meta.elBlockSnapshot.lastChangedBlockHash
  blockDataLoaded : r.currentBlockData = .ok blockData
  noTheft : (getHistoricalFrontRun r.keysFind blockData s.keysApi).1 = .ok false
  notPaused : r.alreadyPausedDeposits = .ok false
  modulesLoaded : r.stakingModulesData = .ok stakingModulesData
  moduleAt : stakingModulesData[i]? = some stakingModuleData
  noFrontRun : getFrontRunAttempts stakingModuleData blockData = []
  noInvalid : (r.modules i).invalidKeys = .ok []
  noDuplicate : ∀ key ∈ getDuplicatedKeys (getVettedKeys stakingModulesData),
    key.moduleAddress ≠ stakingModuleData.stakingModuleAddress

theorem depositGate_of_signedThroughGate {s : GuardianState} {ctx : TickContext}
    {keysApi : KeysApiService}
    (hprepare : prepareTick getDuplicatedKeys r s.lastProcessedStateMeta s.keysApi =
      (.ok (some ctx), keysApi))
    {i : ℕ} {stakingModuleData : StakingModuleData}
    (hmodule : ctx.stakingModulesData[i]? = some stakingModuleData) {message : DepositMessage}
    (h : SignedThroughGate ctx (r.modules i) stakingModuleData message) :
    ∃ «meta» keys blockData stakingModulesData,
      DepositGate getDuplicatedKeys r s «meta» keys blockData stakingModulesData i
        stakingModuleData ∧
      ∃ signature, (r.modules i).sign = .ok signature ∧
        message = depositMessage stakingModuleData blockData signature := by
  obtain ⟨hload, hfrontRun, hmodules⟩ := prepareTick_eq_ok_some hprepare
  obtain ⟨hoperators, hnew, keys, hkeys, hhash, hblockData⟩ := loadBlock_eq_ok_some hload
  obtain ⟨hloaded, hpaused, -, -, -, hduplicated⟩ := loadModules_eq_ok hmodules
  obtain ⟨gate, signature, hsign, rfl⟩ := h
  refine ⟨ctx.meta, keys, ctx.blockData, ctx.stakingModulesData,
    ⟨hoperators, hnew, hkeys, hhash, hblockData, ?_, gate.notPaused ▸ hpaused, hloaded, hmodule,
      gate.noFrontRun, gate.noInvalid, hduplicated ▸ gate.noDuplicate⟩, signature, hsign, rfl⟩
  rw [hfrontRun, gate.noTheft]

theorem handleNewBlock_sent_gate (r : TickResponses) (schedule : List ℕ) (s : GuardianState) :
    ∃ messages, (handleNewBlock GUARDIAN_DEPOSIT_RESIGNING_BLOCKS getDuplicatedKeys r schedule
        s).1.sent = s.sent ++ messages ∧
      ∀ message ∈ messages, ∃ «meta» keys blockData stakingModulesData i stakingModuleData,
        DepositGate getDuplicatedKeys r s «meta» keys blockData stakingModulesData i
          stakingModuleData ∧
        ∃ signature, (r.modules i).sign = .ok signature ∧
          message = depositMessage stakingModuleData blockData signature := by
  rcases @handleNewBlock_cases getDuplicatedKeys GUARDIAN_DEPOSIT_RESIGNING_BLOCKS r schedule s with
    ⟨hsent, -, -⟩ | ⟨ctx, keysApi, hprepare, hsent, -⟩
  · exact ⟨[], by simp [hsent], by simp⟩
  obtain ⟨messages, hfanOut, hmessages⟩ :=
    (runBranches_inv GUARDIAN_DEPOSIT_RESIGNING_BLOCKS schedule (startBranches_inv s)).sent_eq
  refine ⟨messages, hsent.trans hfanOut, fun message hmessage => ?_⟩
  obtain ⟨i, stakingModuleData, hmodule, hsigned⟩ := hmessages message hmessage
  obtain ⟨«meta», keys, blockData, stakingModulesData, hgate⟩ :=
    depositGate_of_signedThroughGate hprepare hmodule hsigned
  exact ⟨«meta», keys, blockData, stakingModulesData, i, stakingModuleData, hgate⟩

/-- Under any answers of the collaborators and any interleaving of the module branches: every
deposit message a tick hands to `sendDepositMessage` is the message of a loaded module, signed by
`signDepositData`, for which the whole deposit gate held; and the tick sets the block guard's last
processed state only when the steps before the modules, every branch and the ping all ran
without throwing, and then to the block of the operators view. -/
theorem handleNewBlock_deposit_gate (r : TickResponses) (schedule : List ℕ) (s : GuardianState) :
    (∃ messages, (handleNewBlock GUARDIAN_DEPOSIT_RESIGNING_BLOCKS getDuplicatedKeys r schedule
        s).1.sent = s.sent ++ messages ∧
      ∀ message ∈ messages, ∃ «meta» keys blockData stakingModulesData i stakingModuleData,
        DepositGate getDuplicatedKeys r s «meta» keys blockData stakingModulesData i
          stakingModuleData ∧
        ∃ signature, (r.modules i).sign = .ok signature ∧
          message = depositMessage stakingModuleData blockData signature) ∧
    ((handleNewBlock GUARDIAN_DEPOSIT_RESIGNING_BLOCKS getDuplicatedKeys r schedule
        s).1.lastProcessedStateMeta ≠ s.lastProcessedStateMeta →
      ∃ ctx keysApi, prepareTick getDuplicatedKeys r s.lastProcessedStateMeta s.keysApi =
          (.ok (some ctx), keysApi) ∧
        (∀ branch ∈ (runBranches GUARDIAN_DEPOSIT_RESIGNING_BLOCKS ctx r schedule
          (startBranches ctx s)).branches, branch = .done) ∧
        r.pingMessageBroker = .ok () ∧ r.operatorListWithModule = .ok ctx.meta ∧
        (handleNewBlock GUARDIAN_DEPOSIT_RESIGNING_BLOCKS getDuplicatedKeys r schedule
          s).1.lastProcessedStateMeta = some (processedState ctx.meta)) := by
  refine ⟨handleNewBlock_sent_gate GUARDIAN_DEPOSIT_RESIGNING_BLOCKS r schedule s, fun hne => ?_⟩
  rcases @handleNewBlock_cases getDuplicatedKeys GUARDIAN_DEPOSIT_RESIGNING_BLOCKS r schedule s with
    ⟨-, hguard, -⟩ | ⟨ctx, keysApi, hprepare, -, ⟨hguard, -⟩ | ⟨hdone, hping, hguard, -⟩⟩
  · exact absurd hguard hne
  · exact absurd hguard hne
  · exact ⟨ctx, keysApi, hprepare, hdone, hping,
      (loadBlock_eq_ok_some (prepareTick_eq_ok_some hprepare).1).1, hguard⟩

/-- A tick at block `5` with one clean module and the branch resuming four times: it signs and
sends the module's deposit message and completes. -/
example :
    (fun t : GuardianState × TickOutcome => (t.2, t.1.sent, t.1.lastProcessedStateMeta))
      (handleNewBlock 10 (fun _ => [])
        ⟨.ok ⟨⟨5, "0xb", "0xc"⟩⟩, .ok (), .ok ⟨[], ⟨⟨5, "0xb", "0xc"⟩⟩⟩, .ok (),
          .ok ⟨5, "0xb", "0xroot", ⟨[], 0, 5, true⟩, "0xg", 0, "0xwc"⟩, .error (.error "unused"),
          .ok [⟨1, "0xm", 3, "0xb", "0xc", [], [], [], []⟩], .ok 3, .ok false, .ok (), .ok (),
          fun _ => ⟨.ok [], .ok (), .ok "0xs", .ok ()⟩, .ok ()⟩
        [0, 0, 0, 0] ⟨none, ⟨none, []⟩, fun _ => none, []⟩) =
      (.completed, [⟨"0xroot", 3, 5, "0xb", "0xg", 0, "0xs", 1⟩], some ⟨"0xb", 5⟩) := by
  decide

open KeysValidation in
/-- When each module's `getInvalidKeys` is answered by the keys-validation service, on the
module's vetted unused keys and the block's Lido withdrawal credentials, from any cache whose
verdicts are the BLS check's: every deposit message a tick hands on is the signed message of a
loaded module each of whose vetted unused keys passes the BLS check. -/
theorem handleNewBlock_deposits_only_valid_keys (isValidKey : String → String → String → Bool)
    (r : TickResponses) (schedule : List ℕ) (s : GuardianState)
    (hvalidation : ∀ blockData stakingModulesData i stakingModuleData,
      r.currentBlockData = .ok blockData → r.stakingModulesData = .ok stakingModulesData →
      stakingModulesData[i]? = some stakingModuleData →
      SignaturesAgree stakingModuleData.vettedUnusedKeys ∧
      ∃ service : KeysValidationService, CacheSound isValidKey service.cache ∧
        (r.modules i).invalidKeys = .ok (getInvalidKeys isValidKey
          stakingModuleData.vettedUnusedKeys blockData.lidoWC service).1) :
    ∃ messages, (handleNewBlock GUARDIAN_DEPOSIT_RESIGNING_BLOCKS getDuplicatedKeys r schedule
        s).1.sent = s.sent ++ messages ∧
      ∀ message ∈ messages, ∃ (blockData : BlockData) (stakingModulesData : List StakingModuleData)
        (i : ℕ) (stakingModuleData : StakingModuleData) (signature : String),
        r.currentBlockData = .ok blockData ∧ r.stakingModulesData = .ok stakingModulesData ∧
        stakingModulesData[i]? = some stakingModuleData ∧
        message = depositMessage stakingModuleData blockData signature ∧
        ∀ key ∈ stakingModuleData.vettedUnusedKeys,
          isValidKey key.key key.depositSignature blockData.lidoWC = true := by
  obtain ⟨messages, hsent, hmessages⟩ :=
    @handleNewBlock_sent_gate getDuplicatedKeys GUARDIAN_DEPOSIT_RESIGNING_BLOCKS r schedule s
  refine ⟨messages, hsent, fun message hmessage => ?_⟩
  obtain ⟨_, _, blockData, stakingModulesData, i, stakingModuleData, gate, signature, -, rfl⟩ :=
    hmessages message hmessage
  obtain ⟨hagree, service, hsound, hinvalid⟩ := hvalidation blockData stakingModulesData i
    stakingModuleData gate.blockDataLoaded gate.modulesLoaded gate.moduleAt
  have hnil := Except.ok.inj (hinvalid.symm.trans gate.noInvalid)
  rw [getInvalidKeys_eq hagree hsound, List.filter_eq_nil_iff] at hnil
  exact ⟨blockData, stakingModulesData, i, stakingModuleData, signature, gate.blockDataLoaded,
    gate.modulesLoaded, gate.moduleAt, rfl, fun key hkey => by simpa using hnil key hkey⟩

open KeysValidation in
theorem handleNewBlock_deposits_only_valid_keys_one_module :
    let blockData : BlockData := ⟨5, "0xb", "0xroot", ⟨[], 0, 5, true⟩, "0xg", 0, "0xwc"⟩
    let stakingModulesData : List StakingModuleData :=
      [⟨1, "0xm", 3, "0xb", "0xc", [⟨"0xa", "0xs1", 0, false, 0, "0xm"⟩], [], [], []⟩]
    let r : TickResponses :=
      ⟨.ok ⟨⟨5, "0xb", "0xc"⟩⟩, .ok (), .ok ⟨[], ⟨⟨5, "0xb", "0xc"⟩⟩⟩, .ok (), .ok blockData,
        .error (.error "unused"), .ok stakingModulesData, .ok 3, .ok false, .ok (), .ok (),
        fun _ => ⟨.ok [], .ok (), .ok "0xs", .ok ()⟩, .ok ()⟩
    let s : GuardianState := ⟨none, ⟨none, []⟩, fun _ => none, []⟩
    let isValidKey := fun (_ signature _ : String) => signature == "0xs1"
    (∀ blockData stakingModulesData i stakingModuleData,
      r.currentBlockData = .ok blockData → r.stakingModulesData = .ok stakingModulesData →
      stakingModulesData[i]? = some stakingModuleData →
      SignaturesAgree stakingModuleData.vettedUnusedKeys ∧
      ∃ service : KeysValidationService, CacheSound isValidKey service.cache ∧
        (r.modules i).invalidKeys = .ok (getInvalidKeys isValidKey
          stakingModuleData.vettedUnusedKeys blockData.lidoWC service).1) ∧
    ∃ messages, (handleNewBlock 10 (fun _ => []) r [0, 0, 0, 0] s).1.sent = s.sent ++ messages ∧
      ∀ message ∈ messages, ∃ (blockData : BlockData) (stakingModulesData : List StakingModuleData)
        (i : ℕ) (stakingModuleData : StakingModuleData) (signature : String),
        r.currentBlockData = .ok blockData ∧ r.stakingModulesData = .ok stakingModulesData ∧
        stakingModulesData[i]? = some stakingModuleData ∧
        message = depositMessage stakingModuleData blockData signature ∧
        ∀ key ∈ stakingModuleData.vettedUnusedKeys,
          isValidKey key.key key.depositSignature blockData.lidoWC = true := by
  intro blockData stakingModulesData r s isValidKey
  refine (fun hvalidation => ⟨hvalidation, handleNewBlock_deposits_only_valid_keys 10 isValidKey r
    [0, 0, 0, 0] s hvalidation⟩) ?_
  rintro _ _ (_ | i) _ ⟨⟩ ⟨⟩ h <;>
    simp only [stakingModulesData, List.getElem?_cons_zero, List.getElem?_cons_succ,
      List.getElem?_nil, Option.some.injEq, reduceCtorEq] at h
  subst h
  exact ⟨by decide, .empty, (fun _ _ h => nomatch h), rfl⟩

end CouncilDaemon.Guardian
