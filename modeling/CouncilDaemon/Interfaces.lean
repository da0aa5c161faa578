import Mathlib.Data.List.Basic
import Mathlib.Data.Prod.Lex

/-! The records the guardian daemon passes between its services, with the fields the modelled
functions read. Block numbers are integers (JavaScript `number`s holding whole values), module
ids, nonces and log indices are naturals, and hex values (keys, hashes, withdrawal credentials,
roots, addresses) are strings compared by equality, as the source compares them with `===`. -/

namespace CouncilDaemon

/-- What a call can throw: `new Error(message)`, the keys-index consistency error
`InconsistentLastChangedBlockHash`, or a failure of an I/O collaborator. -/
inductive Error where
  | error (message : String)
  | inconsistentLastChangedBlockHash
  deriving DecidableEq, Repr

/-- `VerifiedDepositEvent`: one `DepositEvent` log with its cached BLS verification result. -/
structure VerifiedDepositEvent where
  blockNumber : ℤ
  logIndex : ℕ
  pubkey : String
  wc : String
  valid : Bool
  depositDataRoot : String
  deriving DecidableEq, Repr

/-- Where an event stands in the deposit log: `(blockNumber, logIndex)`, lexicographically. -/
def VerifiedDepositEvent.position (e : VerifiedDepositEvent) : ℤ ×ₗ ℕ :=
  toLex (e.blockNumber, e.logIndex)

theorem VerifiedDepositEvent.blockNumber_le_of_position_lt {a b : VerifiedDepositEvent}
    (h : a.position < b.position) : a.blockNumber ≤ b.blockNumber := by
  rcases (Prod.Lex.lt_iff _ _).1 h with h | ⟨h, -⟩
  · exact h.le
  · exact h.le

theorem VerifiedDepositEvent.position_lt_of_blockNumber_lt {a b : VerifiedDepositEvent}
    (h : a.blockNumber < b.blockNumber) : a.position < b.position :=
  (Prod.Lex.lt_iff _ _).2 (.inl h)

/-- `VerifiedDepositedEventGroup`: a list of events over a block range. -/
structure VerifiedDepositedEventGroup where
  events : List VerifiedDepositEvent
  startBlock : ℤ
  endBlock : ℤ
  isValid : Bool
  deriving DecidableEq, Repr

/-- `RegistryKey`: a signing key as the keys-index reports it. -/
structure RegistryKey where
  key : String
  depositSignature : String
  operatorIndex : ℕ
  used : Bool
  index : ℕ
  moduleAddress : String
  deriving DecidableEq, Repr

/-- `ELBlockSnapshot`: the execution-layer block a keys-index response was read at. -/
structure ELBlockSnapshot where
  blockNumber : ℤ
  blockHash : String
  lastChangedBlockHash : String
  deriving DecidableEq, Repr

/-- `Meta` of a keys-index response. -/
structure Meta where
  elBlockSnapshot : ELBlockSnapshot
  deriving DecidableEq, Repr

/-- `KeyListResponse` of `/v1/keys` and `/v1/keys/find`. -/
structure KeyListResponse where
  data : List RegistryKey
  «meta» : Meta
  deriving DecidableEq, Repr

/-- `BlockData`: what the guardian collected about the current block. -/
structure BlockData where
  blockNumber : ℤ
  blockHash : String
  depositRoot : String
  depositedEvents : VerifiedDepositedEventGroup
  guardianAddress : String
  guardianIndex : ℤ
  lidoWC : String
  deriving DecidableEq, Repr

/-- `StakingModuleData`: one staking module's view for one tick. -/
structure StakingModuleData where
  stakingModuleId : ℕ
  stakingModuleAddress : String
  nonce : ℕ
  blockHash : String
  lastChangedBlockHash : String
  vettedUnusedKeys : List RegistryKey
  duplicatedKeys : List RegistryKey
  frontRunKeys : List RegistryKey
  invalidKeys : List RegistryKey
  deriving DecidableEq, Repr

/-- `ContractsState`: the last state a module's deposit message was decided on. -/
structure ContractsState where
  nonce : ℕ
  depositRoot : String
  blockNumber : ℤ
  lastChangedBlockHash : String
  deriving DecidableEq, Repr

/-- The deposit message `handleCorrectKeys` signs and sends. -/
structure DepositMessage where
  depositRoot : String
  nonce : ℕ
  blockNumber : ℤ
  blockHash : String
  guardianAddress : String
  guardianIndex : ℤ
  signature : String
  stakingModuleId : ℕ
  deriving DecidableEq, Repr

end CouncilDaemon
