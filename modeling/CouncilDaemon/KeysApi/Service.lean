import CouncilDaemon.Interfaces

/-! `KeysApiService`, the client of the keys-index. Its state is the cached `/v1/keys` response
and, as a ghost field, the list of requests it has sent, so that which endpoint a call reaches
can be stated. Each method is a function of the state and of the keys-index's answer to the
request it makes, returning its result (or what it throws) and the new state.

Proved: every call of `getKeys` that returns gives a response whose `lastChangedBlockHash` is
the argument's; `/v1/keys` is requested exactly when the cache is empty or holds another
`lastChangedBlockHash`; a call that throws leaves the cache as it was. By induction, the same
holds of every call of every sequence of calls. -/

namespace CouncilDaemon.KeysApi

/-- The keys-index requests the daemon makes. -/
inductive Request where
  | keys
  | keysFind (pubkeys : List String)
  | operators
  | status
  | modules
  deriving DecidableEq, Repr

/-- The state of a `KeysApiService`. -/
structure KeysApiService where
  cachedKeys : Option KeyListResponse
  /-- The requests sent so far, oldest first. -/
  requests : List Request
  deriving DecidableEq, Repr

/-- `fetch`: the request goes out, and the keys-index answers `response` (or the request
fails). -/
def fetch {α : Type} (request : Request) (response : Except Error α) (s : KeysApiService) :
    Except Error α × KeysApiService :=
  (response, { s with requests := s.requests ++ [request] })

/-- `verifyMetaDataConsistency`: throws `InconsistentLastChangedBlockHash` on different
hashes. -/
def verifyMetaDataConsistency (firstRequestHash secondRequestHash : String) :
    Except Error Unit :=
  if firstRequestHash ≠ secondRequestHash then .error .inconsistentLastChangedBlockHash
  else .ok ()

/-- `getKeysByPubkeys`: a `POST /v1/keys/find` with the given pubkeys. -/
def getKeysByPubkeys (pubkeys : List String) (response : Except Error KeyListResponse)
    (s : KeysApiService) : Except Error KeyListResponse × KeysApiService :=
  fetch (.keysFind pubkeys) response s

/-- `updateCachedKeys`: fetch `/v1/keys`, check its hash against the argument's, cache it. -/
def updateCachedKeys (response : Except Error KeyListResponse) (elBlockSnapshot : ELBlockSnapshot)
    (s : KeysApiService) : Except Error KeyListResponse × KeysApiService :=
  match fetch .keys response s with
  | (.error e, s) => (.error e, s)
  | (.ok result, s) =>
    match verifyMetaDataConsistency elBlockSnapshot.lastChangedBlockHash
        result.meta.elBlockSnapshot.lastChangedBlockHash with
    | .error e => (.error e, s)
    | .ok () => (.ok result, { s with cachedKeys := some result })

/-- `getKeys`: the cached response when its `lastChangedBlockHash` is the argument's, otherwise
`updateCachedKeys`. -/
def getKeys (response : Except Error KeyListResponse) (elBlockSnapshot : ELBlockSnapshot)
    (s : KeysApiService) : Except Error KeyListResponse × KeysApiService :=
  match s.cachedKeys with
  | none => updateCachedKeys response elBlockSnapshot s
  | some cachedKeys =>
    if cachedKeys.meta.elBlockSnapshot.lastChangedBlockHash ≠ elBlockSnapshot.lastChangedBlockHash
    then updateCachedKeys response elBlockSnapshot s
    else (.ok cachedKeys, s)

/-! ### One call -/

/-- Whether `getKeys` must ask the keys-index: no cached response, or one of another hash. -/
def needsUpdate (cachedKeys : Option KeyListResponse) (elBlockSnapshot : ELBlockSnapshot) : Bool :=
  match cachedKeys with
  | none => true
  | some c => c.meta.elBlockSnapshot.lastChangedBlockHash ≠ elBlockSnapshot.lastChangedBlockHash

/-- What a `getKeys` call from `s` to `s'` with result `r` must do. -/
structure GetKeysSpec (elBlockSnapshot : ELBlockSnapshot) (s : KeysApiService)
    (r : Except Error KeyListResponse) (s' : KeysApiService) : Prop where
  hash_eq : ∀ k, r = .ok k →
    k.meta.elBlockSnapshot.lastChangedBlockHash = elBlockSnapshot.lastChangedBlockHash
  requests_eq : s'.requests =
    if needsUpdate s.cachedKeys elBlockSnapshot then s.requests ++ [.keys] else s.requests
  cache_of_error : ∀ e, r = .error e → s'.cachedKeys = s.cachedKeys

variable {response : Except Error KeyListResponse} {elBlockSnapshot : ELBlockSnapshot}
  {s : KeysApiService}

/-- `updateCachedKeys` requests `/v1/keys` once; it caches and returns a response of the
argument's hash, and throws otherwise with the cache unchanged. -/
theorem updateCachedKeys_spec (h : needsUpdate s.cachedKeys elBlockSnapshot = true) :
    GetKeysSpec elBlockSnapshot s (updateCachedKeys response elBlockSnapshot s).1
      (updateCachedKeys response elBlockSnapshot s).2 := by
  unfold updateCachedKeys fetch verifyMetaDataConsistency
  rcases response with e | k
  · exact ⟨by simp, by simp [h], fun _ _ => rfl⟩
  · by_cases hk : elBlockSnapshot.lastChangedBlockHash = k.meta.elBlockSnapshot.lastChangedBlockHash <;>
      exact ⟨by simp [hk], by simp [h, hk], by simp [hk]⟩

theorem getKeys_spec : GetKeysSpec elBlockSnapshot s (getKeys response elBlockSnapshot s).1
    (getKeys response elBlockSnapshot s).2 := by
  unfold getKeys
  rcases hc : s.cachedKeys with _ | c
  · exact updateCachedKeys_spec (by simp [needsUpdate, hc])
  · by_cases hk : c.meta.elBlockSnapshot.lastChangedBlockHash = elBlockSnapshot.lastChangedBlockHash
    · refine ⟨?_, by simp [needsUpdate, hc, hk], by simp [hk]⟩
      simp only [hk, ne_eq, not_true_eq_false, ite_false, Except.ok.injEq]
      rintro k rfl
      exact hk
    · simpa [hk] using @updateCachedKeys_spec response elBlockSnapshot s (by simp [needsUpdate, hc, hk])

/-! ### Sequences of calls -/

/-- One call of a sequence: the state it starts from, its result, the state it leaves. -/
structure Step where
  before : KeysApiService
  result : Except Error KeyListResponse
  after : KeysApiService

/-- The steps of a sequence of `getKeys` calls, each given its argument and the answer
`/v1/keys` gives it if it is requested; each call starts where the previous one ended. -/
def traceGetKeys : List (ELBlockSnapshot × Except Error KeyListResponse) → KeysApiService →
    List Step
  | [], _ => []
  | (elBlockSnapshot, response) :: calls, s =>
    let p := getKeys response elBlockSnapshot s
    ⟨s, p.1, p.2⟩ :: traceGetKeys calls p.2

/-- Every call of every sequence of `getKeys` calls, with any answers and failures, meets
`GetKeysSpec`. -/
theorem getKeys_sequence_spec (calls : List (ELBlockSnapshot × Except Error KeyListResponse))
    (s₀ : KeysApiService) :
    List.Forall₂ (fun call step => GetKeysSpec call.1 step.before step.result step.after)
      calls (traceGetKeys calls s₀) := by
  induction calls generalizing s₀ with
  | nil => exact .nil
  | cons call calls ih => exact .cons getKeys_spec (ih _)

end CouncilDaemon.KeysApi
