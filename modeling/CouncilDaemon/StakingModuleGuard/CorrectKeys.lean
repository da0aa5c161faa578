import CouncilDaemon.Interfaces
import Mathlib.Logic.Function.Basic
import Mathlib.Data.PNat.Defs

/-! `handleCorrectKeys` and the contracts-state map it keeps across calls. A call compares the
module's current contracts state with the last one recorded for the module, records the current
one, and signs and sends a deposit message unless the two agree on the deposit root, the
`lastChangedBlockHash` and the re-signing window `⌊blockNumber / GUARDIAN_DEPOSIT_RESIGNING_BLOCKS⌋`.
The constant lives in `guardian.constants`, which is not in the sources: it is a parameter,
a positive natural.

Proved: after any sequence of calls, interleaved in any order across modules, the map holds
for each module the state of its last call; so a call signs exactly when it is its module's
first or its triple differs from that of its module's previous call, whatever the calls of
other modules. The map is written before signing, so a call whose signing or sending fails
still records its state, and a later call with the same triple skips. -/

namespace CouncilDaemon.StakingModuleGuard

/-- `lastContractsStateByModuleId`, a record from module ids to the last contracts state. -/
abbrev ContractsStates := ℕ → Option ContractsState

section

variable (GUARDIAN_DEPOSIT_RESIGNING_BLOCKS : ℕ+)

/-- `isSameContractsStates`: both states present, with the same deposit root, the same
`lastChangedBlockHash` and the same re-signing window (`Math.floor` of the quotient). -/
def isSameContractsStates : Option ContractsState → Option ContractsState → Bool
  | some firstState, some secondState =>
    if firstState.depositRoot ≠ secondState.depositRoot then false
    else if firstState.lastChangedBlockHash ≠ secondState.lastChangedBlockHash then false
    else if firstState.blockNumber.fdiv (GUARDIAN_DEPOSIT_RESIGNING_BLOCKS : ℕ) ≠
        secondState.blockNumber.fdiv (GUARDIAN_DEPOSIT_RESIGNING_BLOCKS : ℕ) then false
    else true
  | _, _ => false

/-- The `currentContractState` of a `handleCorrectKeys` call. -/
def currentContractState (stakingModuleData : StakingModuleData) (blockData : BlockData) :
    ContractsState :=
  ⟨stakingModuleData.nonce, blockData.depositRoot, blockData.blockNumber,
    stakingModuleData.lastChangedBlockHash⟩

/-- The deposit message of a `handleCorrectKeys` call, with its signature. -/
def depositMessage (stakingModuleData : StakingModuleData) (blockData : BlockData)
    (signature : String) : DepositMessage :=
  ⟨blockData.depositRoot, stakingModuleData.nonce, blockData.blockNumber, blockData.blockHash,
    blockData.guardianAddress, blockData.guardianIndex, signature,
    stakingModuleData.stakingModuleId⟩

/-- What a `handleCorrectKeys` call did: its result, the map it left, and the deposit message it
handed to `sendDepositMessage`, if any. -/
structure HandleCorrectKeysResult where
  result : Except Error Unit
  states : ContractsStates
  sent : Option DepositMessage

/-- `handleCorrectKeys`, given what `signDepositData` and `sendDepositMessage` answer. -/
def handleCorrectKeys (sign : Except Error String) (send : Except Error Unit)
    (lastContractsStateByModuleId : ContractsStates) (stakingModuleData : StakingModuleData)
    (blockData : BlockData) : HandleCorrectKeysResult :=
  let currentContractState := currentContractState stakingModuleData blockData
  let lastContractsState := lastContractsStateByModuleId stakingModuleData.stakingModuleId
  let isSameContractsState :=
    isSameContractsStates GUARDIAN_DEPOSIT_RESIGNING_BLOCKS (some currentContractState)
      lastContractsState
  let states := Function.update lastContractsStateByModuleId stakingModuleData.stakingModuleId
    (some currentContractState)
  if isSameContractsState then ⟨.ok (), states, none⟩
  else
    match sign with
    | .error e => ⟨.error e, states, none⟩
    | .ok signature => ⟨send, states, some (depositMessage stakingModuleData blockData signature)⟩

/-! ### One call -/

/-- The triple a call's decision is taken on: deposit root, `lastChangedBlockHash` and
re-signing window. -/
def triple (stakingModuleData : StakingModuleData) (blockData : BlockData) : String × String × ℤ :=
  (blockData.depositRoot, stakingModuleData.lastChangedBlockHash,
    blockData.blockNumber.fdiv (GUARDIAN_DEPOSIT_RESIGNING_BLOCKS : ℕ))

/-- The triple of a recorded state. -/
def ContractsState.triple (c : ContractsState) : String × String × ℤ :=
  (c.depositRoot, c.lastChangedBlockHash, c.blockNumber.fdiv (GUARDIAN_DEPOSIT_RESIGNING_BLOCKS : ℕ))

theorem isSameContractsStates_some (a b : ContractsState) :
    isSameContractsStates GUARDIAN_DEPOSIT_RESIGNING_BLOCKS (some a) (some b) =
      decide (ContractsState.triple GUARDIAN_DEPOSIT_RESIGNING_BLOCKS a =
        ContractsState.triple GUARDIAN_DEPOSIT_RESIGNING_BLOCKS b) := by
  dsimp only [isSameContractsStates, ContractsState.triple]
  split_ifs <;> simp_all

@[simp] theorem triple_currentContractState (smd : StakingModuleData) (bd : BlockData) :
    ContractsState.triple GUARDIAN_DEPOSIT_RESIGNING_BLOCKS (currentContractState smd bd) =
      triple GUARDIAN_DEPOSIT_RESIGNING_BLOCKS smd bd := rfl

variable {GUARDIAN_DEPOSIT_RESIGNING_BLOCKS}

@[simp] theorem handleCorrectKeys_states (sign : Except Error String) (send : Except Error Unit)
    (states : ContractsStates) (smd : StakingModuleData) (bd : BlockData) :
    (handleCorrectKeys GUARDIAN_DEPOSIT_RESIGNING_BLOCKS sign send states smd bd).states =
      Function.update states smd.stakingModuleId (some (currentContractState smd bd)) := by
  unfold handleCorrectKeys
  dsimp only
  split <;> (try split) <;> rfl

/-- A call skips (returns without signing) exactly when the map holds a state of its module with
its triple; otherwise it sends the deposit message when signing succeeds. -/
theorem handleCorrectKeys_eq (sign : Except Error String) (send : Except Error Unit)
    (states : ContractsStates) (smd : StakingModuleData) (bd : BlockData) :
    handleCorrectKeys GUARDIAN_DEPOSIT_RESIGNING_BLOCKS sign send states smd bd =
      if ∃ c ∈ states smd.stakingModuleId,
          ContractsState.triple GUARDIAN_DEPOSIT_RESIGNING_BLOCKS c =
            triple GUARDIAN_DEPOSIT_RESIGNING_BLOCKS smd bd then
        ⟨.ok (), Function.update states smd.stakingModuleId (some (currentContractState smd bd)),
          none⟩
      else
        match sign with
        | .error e =>
          ⟨.error e, Function.update states smd.stakingModuleId
            (some (currentContractState smd bd)), none⟩
        | .ok signature =>
          ⟨send, Function.update states smd.stakingModuleId (some (currentContractState smd bd)),
            some (depositMessage smd bd signature)⟩ := by
  unfold handleCorrectKeys
  cases h : states smd.stakingModuleId with
  | none => simp [isSameContractsStates]
  | some c => simp [isSameContractsStates_some, eq_comm]

theorem handleCorrectKeys_sent_congr {sign : Except Error String} {send : Except Error Unit}
    {states states' : ContractsStates} {smd : StakingModuleData} {bd : BlockData}
    (h : states smd.stakingModuleId = states' smd.stakingModuleId) :
    (handleCorrectKeys GUARDIAN_DEPOSIT_RESIGNING_BLOCKS sign send states smd bd).sent =
      (handleCorrectKeys GUARDIAN_DEPOSIT_RESIGNING_BLOCKS sign send states' smd bd).sent := by
  unfold handleCorrectKeys
  dsimp only
  rw [h]
  split_ifs <;> (try split) <;> rfl

/-! ### Sequences of completed calls -/

/-- A completed call: the module, the block, and the signature `signDepositData` returns if it
is asked; sending succeeds. -/
abbrev CompletedCall := StakingModuleData × BlockData × String

variable (GUARDIAN_DEPOSIT_RESIGNING_BLOCKS) in
/-- The map after a sequence of completed calls. -/
def statesAfter (states : ContractsStates) (calls : List CompletedCall) : ContractsStates :=
  calls.foldl (fun states c =>
    (handleCorrectKeys GUARDIAN_DEPOSIT_RESIGNING_BLOCKS (.ok c.2.2) (.ok ()) states c.1 c.2.1).states)
    states

/-- The last call for module `m` among `calls`, if any. -/
def lastCallFor (m : ℕ) (calls : List CompletedCall) : Option CompletedCall :=
  (calls.filter fun c => c.1.stakingModuleId == m).getLast?

theorem lastCallFor_append_singleton (m : ℕ) (calls : List CompletedCall) (c : CompletedCall) :
    lastCallFor m (calls ++ [c]) = if c.1.stakingModuleId = m then some c else lastCallFor m calls := by
  unfold lastCallFor
  split_ifs with h <;> simp [List.filter_append, h]

theorem statesAfter_append_singleton (states : ContractsStates) (calls : List CompletedCall)
    (c : CompletedCall) :
    statesAfter GUARDIAN_DEPOSIT_RESIGNING_BLOCKS states (calls ++ [c]) =
      Function.update (statesAfter GUARDIAN_DEPOSIT_RESIGNING_BLOCKS states calls)
        c.1.stakingModuleId (some (currentContractState c.1 c.2.1)) := by
  simp [statesAfter, List.foldl_append]

/-- After any sequence of completed calls from the empty map, the map holds for each module the
state of its last call. -/
theorem statesAfter_eq (calls : List CompletedCall) (m : ℕ) :
    statesAfter GUARDIAN_DEPOSIT_RESIGNING_BLOCKS (fun _ => none) calls m =
      (lastCallFor m calls).map fun c => currentContractState c.1 c.2.1 := by
  induction calls using List.reverseRecOn with
  | nil => rfl
  | append_singleton calls c ih =>
    rw [statesAfter_append_singleton, lastCallFor_append_singleton]
    by_cases h : c.1.stakingModuleId = m
    · subst h
      simp
    · simp [Function.update_noteq (Ne.symm h), h, ih]

theorem lastCallFor_filter (m : ℕ) (calls : List CompletedCall) :
    lastCallFor m (calls.filter fun c => c.1.stakingModuleId == m) = lastCallFor m calls := by
  simp [lastCallFor, List.filter_filter]

/-- For every sequence `pre` of completed calls, interleaved in any order across modules, the
next call `c` signs and sends its deposit message exactly when no call of `pre` was for its module
or the last one that was had another triple; and it sends the same message when the calls of
other modules are taken out of `pre`. -/
theorem handleCorrectKeys_signs_iff (pre : List CompletedCall) (c : CompletedCall) :
    ((handleCorrectKeys GUARDIAN_DEPOSIT_RESIGNING_BLOCKS (.ok c.2.2) (.ok ())
        (statesAfter GUARDIAN_DEPOSIT_RESIGNING_BLOCKS (fun _ => none) pre) c.1 c.2.1).sent =
          some (depositMessage c.1 c.2.1 c.2.2) ↔
      ∀ p ∈ lastCallFor c.1.stakingModuleId pre,
        triple GUARDIAN_DEPOSIT_RESIGNING_BLOCKS p.1 p.2.1 ≠
          triple GUARDIAN_DEPOSIT_RESIGNING_BLOCKS c.1 c.2.1) ∧
    (handleCorrectKeys GUARDIAN_DEPOSIT_RESIGNING_BLOCKS (.ok c.2.2) (.ok ())
        (statesAfter GUARDIAN_DEPOSIT_RESIGNING_BLOCKS (fun _ => none) pre) c.1 c.2.1).sent =
      (handleCorrectKeys GUARDIAN_DEPOSIT_RESIGNING_BLOCKS (.ok c.2.2) (.ok ())
        (statesAfter GUARDIAN_DEPOSIT_RESIGNING_BLOCKS (fun _ => none)
          (pre.filter fun p => p.1.stakingModuleId == c.1.stakingModuleId)) c.1 c.2.1).sent := by
  constructor
  · rw [handleCorrectKeys_eq, statesAfter_eq]
    cases lastCallFor c.1.stakingModuleId pre <;> split_ifs <;> simp_all
  · exact handleCorrectKeys_sent_congr (by rw [statesAfter_eq, statesAfter_eq, lastCallFor_filter])

/-! ### Failed calls -/

/-- Every call records its state before it signs, also when signing or sending then throws; a
later call of the same module with the same triple skips, whatever its signer and broker
answer. -/
theorem handleCorrectKeys_records_before_signing (sign sign' : Except Error String)
    (send send' : Except Error Unit) (states : ContractsStates) (smd smd' : StakingModuleData)
    (bd bd' : BlockData) (hid : smd'.stakingModuleId = smd.stakingModuleId)
    (htriple : triple GUARDIAN_DEPOSIT_RESIGNING_BLOCKS smd' bd' =
      triple GUARDIAN_DEPOSIT_RESIGNING_BLOCKS smd bd) :
    (handleCorrectKeys GUARDIAN_DEPOSIT_RESIGNING_BLOCKS sign send states smd bd).states =
        Function.update states smd.stakingModuleId (some (currentContractState smd bd)) ∧
      (handleCorrectKeys GUARDIAN_DEPOSIT_RESIGNING_BLOCKS sign' send'
          (handleCorrectKeys GUARDIAN_DEPOSIT_RESIGNING_BLOCKS sign send states smd bd).states
          smd' bd').result = .ok () ∧
      (handleCorrectKeys GUARDIAN_DEPOSIT_RESIGNING_BLOCKS sign' send'
          (handleCorrectKeys GUARDIAN_DEPOSIT_RESIGNING_BLOCKS sign send states smd bd).states
          smd' bd').sent = none := by
  have hskip : ∃ c ∈ (Function.update states smd.stakingModuleId
      (some (currentContractState smd bd))) smd'.stakingModuleId,
      ContractsState.triple GUARDIAN_DEPOSIT_RESIGNING_BLOCKS c =
        triple GUARDIAN_DEPOSIT_RESIGNING_BLOCKS smd' bd' :=
    ⟨_, by rw [hid, Function.update_same]; rfl, by rw [htriple]; rfl⟩
  refine ⟨handleCorrectKeys_states _ _ _ _ _, ?_⟩
  rw [handleCorrectKeys_states, handleCorrectKeys_eq, if_pos hskip]
  exact ⟨rfl, rfl⟩

/-- A call whose signing fails, then the same call again: the first records its state and the
second sends nothing. -/
theorem handleCorrectKeys_records_before_signing_retry :
    let smd : StakingModuleData := ⟨1, "0x01", 7, "0xb1", "0xc1", [], [], [], []⟩
    let bd : BlockData := ⟨100, "0xb1", "0xr1", ⟨[], 0, 100, true⟩, "0xg1", 0, "0xw1"⟩
    (smd.stakingModuleId = smd.stakingModuleId ∧ triple 10 smd bd = triple 10 smd bd) ∧
    (handleCorrectKeys 10 (.error (.error "signing failed")) (.ok ()) (fun _ => none) smd bd).states =
        Function.update (fun _ => none) smd.stakingModuleId (some (currentContractState smd bd)) ∧
      (handleCorrectKeys 10 (.ok "0x5a") (.ok ())
          (handleCorrectKeys 10 (.error (.error "signing failed")) (.ok ()) (fun _ => none) smd
            bd).states smd bd).result = .ok () ∧
      (handleCorrectKeys 10 (.ok "0x5a") (.ok ())
          (handleCorrectKeys 10 (.error (.error "signing failed")) (.ok ()) (fun _ => none) smd
            bd).states smd bd).sent = none :=
  ⟨⟨rfl, rfl⟩, handleCorrectKeys_records_before_signing _ _ _ _ _ _ _ _ _ rfl rfl⟩

end

/-- A call whose signing fails changes the map, and the same call after it sends nothing. -/
theorem handleCorrectKeys_failed_signing_silences :
    (handleCorrectKeys 10 (.error (.error "signing failed")) (.ok ()) (fun _ => none)
        ⟨1, "0x01", 7, "0xb1", "0xc1", [], [], [], []⟩
        ⟨100, "0xb1", "0xr1", ⟨[], 0, 100, true⟩, "0xg1", 0, "0xw1"⟩).result.toBool = false ∧
    (handleCorrectKeys 10 (.error (.error "signing failed")) (.ok ()) (fun _ => none)
        ⟨1, "0x01", 7, "0xb1", "0xc1", [], [], [], []⟩
        ⟨100, "0xb1", "0xr1", ⟨[], 0, 100, true⟩, "0xg1", 0, "0xw1"⟩).states 1 ≠ none ∧
    (handleCorrectKeys 10 (.ok "0x5a") (.ok ())
        (handleCorrectKeys 10 (.error (.error "signing failed")) (.ok ()) (fun _ => none)
          ⟨1, "0x01", 7, "0xb1", "0xc1", [], [], [], []⟩
          ⟨100, "0xb1", "0xr1", ⟨[], 0, 100, true⟩, "0xg1", 0, "0xw1"⟩).states
        ⟨1, "0x01", 7, "0xb1", "0xc1", [], [], [], []⟩
        ⟨100, "0xb1", "0xr1", ⟨[], 0, 100, true⟩, "0xg1", 0, "0xw1"⟩).sent = none := by
  decide

end CouncilDaemon.StakingModuleGuard
