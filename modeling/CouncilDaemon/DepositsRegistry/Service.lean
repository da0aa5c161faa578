import CouncilDaemon.DepositsRegistry.Chunks
import CouncilDaemon.DepositsRegistry.DepositTree
import CouncilDaemon.DepositsRegistry.Store

/-! `DepositRegistryService`: the deposit-events cache over the store, and the sanity checker's
deposit tree that follows it. The chain is a fixed deposit log, and the fetcher returns exactly
the log's events of the block range it is asked for, with that range as its bounds; the
fetcher and the sanity checker are not in the sources and are modelled from the spec, the tree
by the list of its leaves. Each collaborator call may throw instead of answering; a call of
`updateEventsCache` is given, for each chunk, where the chunk throws if it does. Indexing a chunk
into the tree is taken, as the spec has it, to throw, if at all, before it adds a leaf.

Proved: from the empty store, through any sequence of calls with any finalized blocks and any
failures, the store holds exactly the log's events after the start block (the deployment block)
up to the end block its reads report, in log order; the end block never decreases and never
passes the deployment block or the largest finalized block seen; and `getAllDepositedEvents`
for a block at or after the end block returns the log's events of that whole range. When no
store write fails, the tree holds one leaf per stored event, and its root is the deposit root of
their deposit data roots. A chunk whose store write fails after its events went into the tree
leaves the tree ahead of the store. -/

namespace CouncilDaemon.DepositsRegistry

/-! ### Collaborators -/

/-- `VerifiedDepositEventGroup`: what the fetcher returns for a block range. -/
structure VerifiedDepositEventGroup where
  events : List VerifiedDepositEvent
  startBlock : ℤ
  endBlock : ℤ
  deriving DecidableEq, Repr

/-- Whether an event lies in the block range `[startBlock, endBlock]`. -/
def inRange (startBlock endBlock : ℤ) (e : VerifiedDepositEvent) : Bool :=
  startBlock ≤ e.blockNumber && e.blockNumber ≤ endBlock

/-- Modelled from the spec: `fetchEventsFallOver`, when it answers, on the deposit log `log`. -/
def fetchEventsFallOver (log : List VerifiedDepositEvent) (startBlock endBlock : ℤ) :
    VerifiedDepositEventGroup :=
  ⟨log.filter (inRange startBlock endBlock), startBlock, endBlock⟩

/-- Modelled from the spec: `verifyCacheBlock`, false when the cache ends after the block. -/
def verifyCacheBlock (cache : VerifiedDepositEventsCache) (currentBlock : ℤ) : Bool :=
  !(cache.headers.endBlock > currentBlock)

/-- Modelled from the spec: `addEventGroupToIndex`, which inserts the events' deposit data roots
into the tree in order. -/
def addEventGroupToIndex (tree : List String) (events : List VerifiedDepositEvent) :
    List String :=
  tree ++ events.map (·.depositDataRoot)

/-- The state the service works on: the store, and the sanity checker's deposit tree as the list
of its leaves. -/
structure DepositRegistry where
  store : DepositsRegistryStore
  tree : List String
  deriving DecidableEq, Repr

/-! ### The service -/

/-- `getCachedEvents`: the stored cache with both header blocks raised to the deployment block
`deploymentBlock`. -/
def getCachedEvents (deploymentBlock : ℕ) (store : DepositsRegistryStore) :
    VerifiedDepositEventsCache :=
  let { headers, data, lastValidEvent } := getEventsCache store
  ⟨⟨max headers.startBlock deploymentBlock, max headers.endBlock deploymentBlock⟩, data,
    lastValidEvent⟩

/-- Where one chunk of the loop throws, and what. -/
inductive ChunkFault where
  /-- `fetchEventsFallOver` throws. -/
  | fetch (e : Error)
  /-- `addEventGroupToIndex` throws before it inserts a leaf. -/
  | index (e : Error)
  /-- `insertEventsCacheBatch` throws and writes nothing. -/
  | write (e : Error)
  deriving DecidableEq, Repr

/-- What the collaborators of one `updateEventsCache` call answer. -/
structure UpdateEventsCacheEnv where
  /-- The finalized block's number and hash (with the read of the cache). -/
  finalizedBlock : Except Error (ℤ × String)
  /-- Where the chunk of each number throws, if it does. -/
  chunkFault : ℕ → Option ChunkFault
  /-- `verifyUpdatedEvents`. -/
  isRootValid : Except Error Bool
  /-- `insertLastValidEvent`. -/
  lastValidEventWrite : Except Error Unit

/-- The chunk loop from chunk number `i` on: each chunk is fetched, indexed into the tree and
written to the store with the headers' end block set to the chunk's, until a chunk throws. -/
def updateChunks (log : List VerifiedDepositEvent) (headers : Headers)
    (chunkFault : ℕ → Option ChunkFault) :
    ℕ → List (ℤ × ℤ) → Option VerifiedDepositEvent → DepositRegistry →
      Except Error (Option VerifiedDepositEvent) × DepositRegistry
  | _, [], lastIndexedEvent, st => (.ok lastIndexedEvent, st)
  | i, (chunkStartBlock, chunkToBlock) :: chunks, lastIndexedEvent, st =>
    let chunkEventGroup := fetchEventsFallOver log chunkStartBlock chunkToBlock
    let tree := addEventGroupToIndex st.tree chunkEventGroup.events
    match chunkFault i with
    | some (.fetch e) => (.error e, st)
    | some (.index e) => (.error e, st)
    | some (.write e) => (.error e, { st with tree })
    | none =>
      updateChunks log headers chunkFault (i + 1) chunks
        (chunkEventGroup.events.getLast?.or lastIndexedEvent)
        ⟨insertEventsCacheBatch st.store { headers with endBlock := chunkEventGroup.endBlock }
          chunkEventGroup.events, tree⟩

/-- `updateEventsCache`. -/
def updateEventsCache (deploymentBlock : ℕ) (log : List VerifiedDepositEvent)
    (env : UpdateEventsCacheEnv) (st : DepositRegistry) : Except Error Unit × DepositRegistry :=
  match env.finalizedBlock with
  | .error e => (.error e, st)
  | .ok (finalizedBlockNumber, _) =>
    let initialCache := getCachedEvents deploymentBlock st.store
    let firstNotCachedBlock := initialCache.headers.endBlock + 1
    if !verifyCacheBlock initialCache finalizedBlockNumber then (.ok (), st)
    else
      match updateChunks log initialCache.headers env.chunkFault 0
          (chunks finalizedBlockNumber firstNotCachedBlock) none st with
      | (.error e, st) => (.error e, st)
      | (.ok lastIndexedEvent, st) =>
        match env.isRootValid, lastIndexedEvent with
        | .error e, _ => (.error e, st)
        | .ok true, some lastIndexedEvent =>
          match env.lastValidEventWrite with
          | .error e => (.error e, st)
          | .ok () => (.ok (), { st with store := insertLastValidEvent st.store lastIndexedEvent })
        | .ok _, _ => (.ok (), st)

/-- Modelled from the spec: the sanity checker's `initialize`, a tree of the cached events. -/
def initializeTree (cachedEvents : VerifiedDepositEventsCache) : List String :=
  addEventGroupToIndex [] cachedEvents.data

/-- The service's `initialize`: the tree is built from the store, then the cache is updated. -/
def initializeService (deploymentBlock : ℕ) (log : List VerifiedDepositEvent)
    (env : UpdateEventsCacheEnv) (store : DepositsRegistryStore) :
    Except Error Unit × DepositRegistry :=
  updateEventsCache deploymentBlock log env ⟨store, initializeTree (getEventsCache store)⟩

/-- `getAllDepositedEvents`, given whether fetching the fresh events throws and what
`verifyFreshEvents` answers. -/
def getAllDepositedEvents (deploymentBlock : ℕ) (log : List VerifiedDepositEvent)
    (blockNumber : ℤ) (fetchFault : Option Error) (verifyFreshEvents : Except Error Bool)
    (store : DepositsRegistryStore) : Except Error VerifiedDepositedEventGroup :=
  let endBlock := blockNumber
  let cachedEvents := getCachedEvents deploymentBlock store
  if !verifyCacheBlock cachedEvents blockNumber then
    .ok ⟨cachedEvents.data, cachedEvents.headers.startBlock, cachedEvents.headers.endBlock, false⟩
  else
    let firstNotCachedBlock := cachedEvents.headers.endBlock + 1
    match fetchFault, verifyFreshEvents with
    | some e, _ => .error e
    | none, .error e => .error e
    | none, .ok isValid =>
      let freshEventGroup := fetchEventsFallOver log firstNotCachedBlock endBlock
      .ok ⟨cachedEvents.data ++ freshEventGroup.events, cachedEvents.headers.startBlock, endBlock,
        isValid⟩

/-! ### Block ranges of a sorted log -/

section Ranges

@[simp] theorem inRange_eq_true {a b : ℤ} {e : VerifiedDepositEvent} :
    inRange a b e = true ↔ a ≤ e.blockNumber ∧ e.blockNumber ≤ b := by
  simp [inRange]

variable {log : List VerifiedDepositEvent}

theorem filter_inRange_eq_nil {a b : ℤ} (h : b < a) (l : List VerifiedDepositEvent) :
    l.filter (inRange a b) = [] :=
  List.filter_eq_nil_iff.2 fun e _ => by rw [inRange_eq_true]; omega

theorem filter_inRange_append (hlog : log.Pairwise (·.position < ·.position)) {a b c : ℤ}
    (hab : a ≤ b + 1) (hbc : b ≤ c) :
    log.filter (inRange a b) ++ log.filter (inRange (b + 1) c) = log.filter (inRange a c) := by
  induction log with
  | nil => rfl
  | cons x xs ih =>
    rw [List.pairwise_cons] at hlog
    by_cases hx : x.blockNumber ≤ b
    · have h2 : inRange (b + 1) c x = false := by
        rw [Bool.eq_false_iff, ne_eq, inRange_eq_true]; omega
      have h3 : inRange a c x = inRange a b x := by
        rw [Bool.eq_iff_iff, inRange_eq_true, inRange_eq_true]; omega
      rw [List.filter_cons, List.filter_cons, List.filter_cons, h2, h3]
      cases inRange a b x <;> simp [ih hlog.2]
    · have hlater : ∀ y ∈ x :: xs, b < y.blockNumber := by
        intro y hy
        rcases List.mem_cons.1 hy with rfl | hy
        · omega
        · have := VerifiedDepositEvent.blockNumber_le_of_position_lt (hlog.1 y hy)
          omega
      rw [filter_inRange_eq_nil_of_forall hlater, List.nil_append]
      exact List.filter_congr fun y hy => by
        have := hlater y hy
        rw [Bool.eq_iff_iff, inRange_eq_true, inRange_eq_true]
        omega
where
  filter_inRange_eq_nil_of_forall {l : List VerifiedDepositEvent}
      (h : ∀ y ∈ l, b < y.blockNumber) : l.filter (inRange a b) = [] :=
    List.filter_eq_nil_iff.2 fun y hy => by have := h y hy; rw [inRange_eq_true]; omega

end Ranges

/-! ### The cache invariant -/

/-- What the store holds: a stored start block at most the deployment block, and exactly the
log's events after the deployment block up to the end block reads report. -/
structure CacheInv (deploymentBlock : ℕ) (log : List VerifiedDepositEvent)
    (store : DepositsRegistryStore) : Prop where
  startBlock_le : ∀ h ∈ store.headers, h.startBlock ≤ deploymentBlock
  data_eq : store.data = log.filter
    (inRange (deploymentBlock + 1) (getCachedEvents deploymentBlock store).headers.endBlock)

section Invariant

variable {deploymentBlock : ℕ} {log : List VerifiedDepositEvent} {store : DepositsRegistryStore}

theorem CacheInv.empty : CacheInv deploymentBlock log .empty :=
  ⟨fun _ h => (nomatch h), (filter_inRange_eq_nil (by simp [getCachedEvents, getEventsCache,
    DepositsRegistryStore.empty, DEPOSIT_CACHE_DEFAULT]) log).symm⟩

theorem getCachedEvents_endBlock_ge (deploymentBlock : ℕ) (store : DepositsRegistryStore) :
    (deploymentBlock : ℤ) ≤ (getCachedEvents deploymentBlock store).headers.endBlock :=
  le_max_right _ _

theorem CacheInv.startBlock_eq (h : CacheInv deploymentBlock log store) :
    (getCachedEvents deploymentBlock store).headers.startBlock = deploymentBlock := by
  unfold getCachedEvents getEventsCache
  cases hh : store.headers with
  | none => simp [DEPOSIT_CACHE_DEFAULT]
  | some hd => exact max_eq_right (h.startBlock_le hd hh)

theorem CacheInv.data_eq_cached (h : CacheInv deploymentBlock log store) :
    (getCachedEvents deploymentBlock store).data = store.data := by
  have hd := h.data_eq
  unfold getCachedEvents getEventsCache at *
  cases hh : store.headers with
  | none =>
    simp only [hh, DEPOSIT_CACHE_DEFAULT] at hd ⊢
    rw [hd, filter_inRange_eq_nil (by omega)]
  | some _ => rfl

theorem CacheInv.insertEventsCacheBatch_data (h : CacheInv deploymentBlock log store)
    (hlog : log.Pairwise (·.position < ·.position)) {headers : Headers} {t : ℤ} :
    (DepositsRegistry.insertEventsCacheBatch store headers
      (log.filter (inRange ((getCachedEvents deploymentBlock store).headers.endBlock + 1) t))).data =
      store.data ++
        log.filter (inRange ((getCachedEvents deploymentBlock store).headers.endBlock + 1) t) := by
  refine foldl_putEvent_of_lt (hlog.filter _) fun x hx y hy => ?_
  rw [h.data_eq, List.mem_filter, inRange_eq_true] at hx
  rw [List.mem_filter, inRange_eq_true] at hy
  exact VerifiedDepositEvent.position_lt_of_blockNumber_lt (by omega)

theorem CacheInv.insertEventsCacheBatch (hlog : log.Pairwise (·.position < ·.position))
    (h : CacheInv deploymentBlock log store) {t : ℤ}
    (ht : (getCachedEvents deploymentBlock store).headers.endBlock < t) :
    let store' := DepositsRegistry.insertEventsCacheBatch store ⟨deploymentBlock, t⟩
      (log.filter (inRange ((getCachedEvents deploymentBlock store).headers.endBlock + 1) t))
    CacheInv deploymentBlock log store' ∧
      (getCachedEvents deploymentBlock store').headers.endBlock = t := by
  intro store'
  have hD := getCachedEvents_endBlock_ge deploymentBlock store
  have hend : (getCachedEvents deploymentBlock store').headers.endBlock = t :=
    max_eq_left (show (deploymentBlock : ℤ) ≤ t by omega)
  refine ⟨⟨fun hd hh => ?_, ?_⟩, hend⟩
  · cases Option.some.inj hh
    exact le_rfl
  · rw [hend, h.insertEventsCacheBatch_data hlog, h.data_eq]
    exact filter_inRange_append hlog (by omega) ht.le

/-- The chunk loop over ranges that tile `[E + 1, F]` from the end block `E`: wherever a chunk
fails, the store keeps the invariant, and its end block moves forward, at most to `F`. -/
theorem updateChunks_cacheInv (hlog : log.Pairwise (·.position < ·.position)) {headers : Headers}
    (hheaders : headers.startBlock = deploymentBlock) (chunkFault : ℕ → Option ChunkFault)
    {F : ℤ} (ranges : List (ℤ × ℤ)) :
    ∀ (i : ℕ) (last : Option VerifiedDepositEvent) (st : DepositRegistry),
      Tiles ((getCachedEvents deploymentBlock st.store).headers.endBlock + 1) F ranges →
      CacheInv deploymentBlock log st.store →
      CacheInv deploymentBlock log (updateChunks log headers chunkFault i ranges last st).2.store ∧
        (getCachedEvents deploymentBlock st.store).headers.endBlock ≤
          (getCachedEvents deploymentBlock
            (updateChunks log headers chunkFault i ranges last st).2.store).headers.endBlock ∧
        (getCachedEvents deploymentBlock
            (updateChunks log headers chunkFault i ranges last st).2.store).headers.endBlock ≤ F := by
  induction ranges with
  | nil =>
    intro i last st htiles hinv
    have : _ = _ := htiles
    exact ⟨hinv, le_rfl, by simp only [updateChunks]; omega⟩
  | cons r rest ih =>
    obtain ⟨s, t⟩ := r
    intro i last st htiles hinv
    obtain ⟨hs, hst, -, hrest⟩ := htiles
    have htF := hrest.le_succ
    simp only [updateChunks]
    cases hf : chunkFault i with
    | some f => cases f <;> exact ⟨hinv, le_rfl, by dsimp only; omega⟩
    | none =>
      obtain ⟨hinv', hend'⟩ := hinv.insertEventsCacheBatch hlog (t := t) (by omega)
      subst hs
      dsimp only [fetchEventsFallOver]
      rw [hheaders]
      obtain ⟨h1, h2, h3⟩ := ih (i + 1) _ ⟨_, _⟩ (by convert hrest using 2) hinv'
      refine ⟨h1, le_trans ?_ h2, h3⟩
      exact (Int.lt_add_one_iff.1 (by omega)).trans (le_of_eq hend'.symm)

/-- What an `updateEventsCache` call does to the state: nothing, or it runs the chunk loop from
the end block `E` to a finalized block `F ≥ E`, after which it may write the last valid event. -/
theorem updateEventsCache_cases (env : UpdateEventsCacheEnv) (st : DepositRegistry) :
    (updateEventsCache deploymentBlock log env st).2 = st ∨
      ∃ F hash, env.finalizedBlock = .ok (F, hash) ∧
        (getCachedEvents deploymentBlock st.store).headers.endBlock ≤ F ∧
        ∃ st₁, st₁ = (updateChunks log (getCachedEvents deploymentBlock st.store).headers
            env.chunkFault 0
            (chunks F ((getCachedEvents deploymentBlock st.store).headers.endBlock + 1))
            none st).2 ∧
          ((updateEventsCache deploymentBlock log env st).2 = st₁ ∨
            ∃ ev, (updateEventsCache deploymentBlock log env st).2 =
              { st₁ with store := insertLastValidEvent st₁.store ev }) := by
  unfold updateEventsCache
  rcases env.finalizedBlock with e | ⟨F, hash⟩
  · exact .inl rfl
  · dsimp only
    by_cases hv : (getCachedEvents deploymentBlock st.store).headers.endBlock ≤ F
    · have hv' : verifyCacheBlock (getCachedEvents deploymentBlock st.store) F = true := by
        simpa [verifyCacheBlock] using hv
      rw [if_neg (by simp [hv'])]
      refine .inr ⟨F, hash, rfl, hv, _, rfl, ?_⟩
      rcases updateChunks log _ env.chunkFault 0 _ none st with ⟨_ | last, st₁⟩
      · exact .inl rfl
      · rcases env.isRootValid with _ | _ | _ <;> rcases last with _ | ev
        all_goals first
          | exact .inl rfl
          | (rcases env.lastValidEventWrite with _ | _
             · exact .inl rfl
             · exact .inr ⟨ev, rfl⟩)
    · have hv' : verifyCacheBlock (getCachedEvents deploymentBlock st.store) F = false := by
        simpa [verifyCacheBlock] using hv
      rw [if_pos (by simp [hv'])]
      exact .inl rfl

@[simp] theorem getCachedEvents_insertLastValidEvent_headers (store : DepositsRegistryStore)
    (ev : VerifiedDepositEvent) :
    (getCachedEvents deploymentBlock (insertLastValidEvent store ev)).headers =
      (getCachedEvents deploymentBlock store).headers := by
  unfold getCachedEvents getEventsCache insertLastValidEvent
  cases store.headers <;> rfl

theorem CacheInv.insertLastValidEvent (h : CacheInv deploymentBlock log store)
    (ev : VerifiedDepositEvent) :
    CacheInv deploymentBlock log (DepositsRegistry.insertLastValidEvent store ev) :=
  ⟨h.startBlock_le, by rw [getCachedEvents_insertLastValidEvent_headers]; exact h.data_eq⟩

/-- How far the end block may move in a call: up to the finalized block it reads, if any. -/
def seenBlock (endBlock : ℤ) (env : UpdateEventsCacheEnv) : ℤ :=
  match env.finalizedBlock with
  | .ok (F, _) => max endBlock F
  | .error _ => endBlock

/-- One `updateEventsCache` call, with any answers and failures, keeps the invariant; the end
block does not decrease, and moves at most to the finalized block the call reads. -/
theorem updateEventsCache_cacheInv (hlog : log.Pairwise (·.position < ·.position))
    (env : UpdateEventsCacheEnv) {st : DepositRegistry} (h : CacheInv deploymentBlock log st.store) :
    CacheInv deploymentBlock log (updateEventsCache deploymentBlock log env st).2.store ∧
      (getCachedEvents deploymentBlock st.store).headers.endBlock ≤
        (getCachedEvents deploymentBlock
          (updateEventsCache deploymentBlock log env st).2.store).headers.endBlock ∧
      (getCachedEvents deploymentBlock
          (updateEventsCache deploymentBlock log env st).2.store).headers.endBlock ≤
        seenBlock (getCachedEvents deploymentBlock st.store).headers.endBlock env := by
  rcases updateEventsCache_cases env st with hst | ⟨F, hash, hF, hEF, st₁, rfl, hst⟩
  · rw [hst]
    refine ⟨h, le_rfl, ?_⟩
    unfold seenBlock
    split <;> omega
  · obtain ⟨h1, h2, h3⟩ := updateChunks_cacheInv hlog h.startBlock_eq env.chunkFault _ 0 none st
      (tiles_chunks F _ (by omega)) h
    have hseen : seenBlock (getCachedEvents deploymentBlock st.store).headers.endBlock env =
        max (getCachedEvents deploymentBlock st.store).headers.endBlock F := by
      simp [seenBlock, hF]
    rw [hseen]
    rcases hst with hst | ⟨ev, hst⟩ <;> rw [hst]
    · exact ⟨h1, h2, le_max_of_le_right h3⟩
    · rw [getCachedEvents_insertLastValidEvent_headers]
      exact ⟨h1.insertLastValidEvent ev, h2, le_max_of_le_right h3⟩

theorem getAllDepositedEvents_eq (hlog : log.Pairwise (·.position < ·.position))
    (h : CacheInv deploymentBlock log store) {B : ℤ}
    (hB : (getCachedEvents deploymentBlock store).headers.endBlock ≤ B) (isValid : Bool) :
    getAllDepositedEvents deploymentBlock log B none (.ok isValid) store =
      .ok ⟨log.filter (inRange (deploymentBlock + 1) B), deploymentBlock, B, isValid⟩ := by
  have hv : verifyCacheBlock (getCachedEvents deploymentBlock store) B = true := by
    simpa [verifyCacheBlock] using hB
  unfold getAllDepositedEvents
  rw [if_neg (by simp [hv]), h.data_eq_cached, h.data_eq, h.startBlock_eq]
  dsimp only [fetchEventsFallOver]
  have hD := getCachedEvents_endBlock_ge deploymentBlock store
  rw [filter_inRange_append hlog (by omega) hB]

/-- Every group `getAllDepositedEvents` returns holds the log's events after the deployment block
up to the later of the end block and the block asked for: the cache alone when it ends after the
block, else the cache followed by the fresh events. -/
theorem getAllDepositedEvents_events (hlog : log.Pairwise (·.position < ·.position))
    (h : CacheInv deploymentBlock log store) {B : ℤ} {fetchFault : Option Error}
    {verifyFreshEvents : Except Error Bool} {group : VerifiedDepositedEventGroup}
    (hgroup : getAllDepositedEvents deploymentBlock log B fetchFault verifyFreshEvents store =
      .ok group) :
    group.events = log.filter (inRange (deploymentBlock + 1)
      (max (getCachedEvents deploymentBlock store).headers.endBlock B)) := by
  by_cases hB : (getCachedEvents deploymentBlock store).headers.endBlock ≤ B
  · rw [max_eq_right hB]
    match fetchFault, verifyFreshEvents, hgroup with
    | none, .ok isValid, hgroup =>
      rw [getAllDepositedEvents_eq hlog h hB isValid] at hgroup
      cases hgroup
      rfl
    | none, .error _, hgroup | some _, _, hgroup =>
      simp [getAllDepositedEvents, verifyCacheBlock, not_lt.2 hB] at hgroup
  · have hv : verifyCacheBlock (getCachedEvents deploymentBlock store) B = false := by
      simpa [verifyCacheBlock] using hB
    simp only [getAllDepositedEvents, hv, Bool.not_false, if_true, Except.ok.injEq] at hgroup
    rw [← hgroup, max_eq_left (le_of_not_le hB), h.data_eq_cached, h.data_eq]

end Invariant

/-! ### Runs -/

/-- The state after a sequence of `updateEventsCache` calls. -/
def runUpdateEventsCache (deploymentBlock : ℕ) (log : List VerifiedDepositEvent)
    (envs : List UpdateEventsCacheEnv) (st : DepositRegistry) : DepositRegistry :=
  envs.foldl (fun st env => (updateEventsCache deploymentBlock log env st).2) st

theorem foldl_seenBlock_mono (envs : List UpdateEventsCacheEnv) :
    ∀ {a b : ℤ}, a ≤ b → envs.foldl seenBlock a ≤ envs.foldl seenBlock b := by
  induction envs with
  | nil => exact id
  | cons env envs ih =>
    intro a b hab
    apply ih
    unfold seenBlock
    split <;> omega

/-- Every run keeps the invariant; the end block does not decrease, and does not pass the
largest finalized block read or its start. -/
theorem runUpdateEventsCache_cacheInv {deploymentBlock : ℕ} {log : List VerifiedDepositEvent}
    (hlog : log.Pairwise (·.position < ·.position)) (envs : List UpdateEventsCacheEnv) :
    ∀ {st : DepositRegistry}, CacheInv deploymentBlock log st.store →
      CacheInv deploymentBlock log (runUpdateEventsCache deploymentBlock log envs st).store ∧
        (getCachedEvents deploymentBlock st.store).headers.endBlock ≤
          (getCachedEvents deploymentBlock
            (runUpdateEventsCache deploymentBlock log envs st).store).headers.endBlock ∧
        (getCachedEvents deploymentBlock
            (runUpdateEventsCache deploymentBlock log envs st).store).headers.endBlock ≤
          envs.foldl seenBlock (getCachedEvents deploymentBlock st.store).headers.endBlock := by
  induction envs with
  | nil => exact fun h => ⟨h, le_rfl, le_rfl⟩
  | cons env envs ih =>
    intro st h
    obtain ⟨h1, h2, h3⟩ := updateEventsCache_cacheInv hlog env h
    obtain ⟨h1', h2', h3'⟩ := ih h1
    exact ⟨h1', h2.trans h2', h3'.trans (foldl_seenBlock_mono envs h3)⟩

theorem getCachedEvents_empty (deploymentBlock : ℕ) :
    getCachedEvents deploymentBlock .empty = ⟨⟨deploymentBlock, deploymentBlock⟩, [], none⟩ := by
  simp [getCachedEvents, getEventsCache, DepositsRegistryStore.empty, DEPOSIT_CACHE_DEFAULT]

/-- From the empty store, through any sequence of `updateEventsCache` calls with any finalized
blocks (regressions included) and any failures: reads report the deployment block as start
block; the store holds exactly the log's events after the start block up to the end block, each
once and in log order; the end block is at most the deployment block or the largest finalized
block read, and the next call does not lower it; and `getAllDepositedEvents` at any block from
the end block on returns the events one fetch of the whole range after the start block
returns. -/
theorem updateEventsCache_run_spec (deploymentBlock : ℕ) (log : List VerifiedDepositEvent)
    (hlog : log.Pairwise (·.position < ·.position)) (envs : List UpdateEventsCacheEnv) :
    let store := (runUpdateEventsCache deploymentBlock log envs ⟨.empty, []⟩).store
    let cache := getCachedEvents deploymentBlock store
    cache.headers.startBlock = deploymentBlock ∧
      cache.data = log.filter (inRange (cache.headers.startBlock + 1) cache.headers.endBlock) ∧
      cache.data.Pairwise (·.position < ·.position) ∧
      cache.headers.endBlock ≤ envs.foldl seenBlock deploymentBlock ∧
      (∀ env, cache.headers.endBlock ≤ (getCachedEvents deploymentBlock
        (runUpdateEventsCache deploymentBlock log (envs ++ [env]) ⟨.empty, []⟩).store).headers.endBlock) ∧
      ∀ B, cache.headers.endBlock ≤ B → ∀ isValid : Bool,
        getAllDepositedEvents deploymentBlock log B none (.ok isValid) store =
          .ok ⟨(fetchEventsFallOver log (cache.headers.startBlock + 1) B).events,
            cache.headers.startBlock, B, isValid⟩ := by
  intro store cache
  obtain ⟨hinv, -, hseen⟩ :=
    @runUpdateEventsCache_cacheInv _ _ hlog envs ⟨.empty, []⟩ CacheInv.empty
  have hstart : cache.headers.startBlock = deploymentBlock := hinv.startBlock_eq
  have hdata : cache.data = log.filter (inRange (deploymentBlock + 1) cache.headers.endBlock) :=
    hinv.data_eq_cached.trans hinv.data_eq
  refine ⟨hstart, hstart ▸ hdata, hdata ▸ hlog.filter _, ?_, fun env => ?_, fun B hB v => ?_⟩
  · simpa [getCachedEvents_empty] using hseen
  · rw [runUpdateEventsCache, List.foldl_append, ← runUpdateEventsCache]
    exact (updateEventsCache_cacheInv hlog env hinv).2.1
  · rw [hstart]
    exact getAllDepositedEvents_eq hlog hinv hB v

/-- Deposits at blocks `2` and `3` after the deployment block `1`, and two calls: one up to block
`2`, which caches the first, and one up to block `4`, which caches the second. -/
theorem updateEventsCache_run_spec_two_calls :
    let log : List VerifiedDepositEvent :=
      [⟨2, 0, "0xk", "0xw", true, "0xr"⟩, ⟨3, 0, "0xl", "0xw", true, "0xs"⟩]
    let envs : List UpdateEventsCacheEnv :=
      [⟨.ok (2, "0xh"), fun _ => none, .ok true, .ok ()⟩,
        ⟨.ok (4, "0xj"), fun _ => none, .ok true, .ok ()⟩]
    log.Pairwise (·.position < ·.position) ∧
      let store := (runUpdateEventsCache 1 log envs ⟨.empty, []⟩).store
      let cache := getCachedEvents 1 store
      cache.headers.startBlock = 1 ∧
        cache.data = log.filter (inRange (cache.headers.startBlock + 1) cache.headers.endBlock) ∧
        cache.data.Pairwise (·.position < ·.position) ∧
        cache.headers.endBlock ≤ envs.foldl seenBlock 1 ∧
        (∀ env, cache.headers.endBlock ≤ (getCachedEvents 1
          (runUpdateEventsCache 1 log (envs ++ [env]) ⟨.empty, []⟩).store).headers.endBlock) ∧
        ∀ B, cache.headers.endBlock ≤ B → ∀ isValid : Bool,
          getAllDepositedEvents 1 log B none (.ok isValid) store =
            .ok ⟨(fetchEventsFallOver log (cache.headers.startBlock + 1) B).events,
              cache.headers.startBlock, B, isValid⟩ := by
  intro log envs
  have hlog : log.Pairwise (·.position < ·.position) :=
    List.pairwise_pair.2 (VerifiedDepositEvent.position_lt_of_blockNumber_lt (by decide))
  exact ⟨hlog, updateEventsCache_run_spec 1 log hlog envs⟩

/-- A deposit in the deployment block is never cached: with a deposit in the deployment block
`1`, one call up to block `2` leaves reads reporting the range `[1, 2]` with no event, though
the deposit lies in that range. -/
theorem updateEventsCache_skips_deployment_block :
    let cache := getCachedEvents 1 (runUpdateEventsCache 1 [⟨1, 0, "0xk", "0xw", true, "0xr"⟩]
      [⟨.ok (2, "0xh"), fun _ => none, .ok true, .ok ()⟩] ⟨.empty, []⟩).store
    cache.headers = ⟨1, 2⟩ ∧ cache.data = [] ∧
      [(⟨1, 0, "0xk", "0xw", true, "0xr"⟩ : VerifiedDepositEvent)].filter
        (inRange cache.headers.startBlock cache.headers.endBlock) ≠ [] := by
  have hchunks : chunks 2 ((getCachedEvents 1 .empty).headers.endBlock + 1) = [(2, 2)] := by
    rw [chunks_of_le (by decide), chunks_of_lt (by decide)]
    rfl
  simp only [runUpdateEventsCache, List.foldl_cons, List.foldl_nil, updateEventsCache, hchunks]
  decide

/-! ### The deposit tree -/

/-- The tree holds one leaf per stored event: the deposit data roots of the stored events, in
order. -/
def TreeSync (st : DepositRegistry) : Prop :=
  st.tree = st.store.data.map (·.depositDataRoot)

/-- A call whose chunks never fail at the store write. -/
def NoWriteFault (env : UpdateEventsCacheEnv) : Prop :=
  ∀ i e, env.chunkFault i ≠ some (.write e)

section TreeSync

variable {deploymentBlock : ℕ} {log : List VerifiedDepositEvent}

/-- The chunk loop without a failed store write keeps the tree in step with the store: a chunk
either fails before touching either, or goes into both. -/
theorem updateChunks_treeSync (hlog : log.Pairwise (·.position < ·.position)) {headers : Headers}
    (hheaders : headers.startBlock = deploymentBlock) {chunkFault : ℕ → Option ChunkFault}
    (hwrite : ∀ i e, chunkFault i ≠ some (.write e)) {F : ℤ} (ranges : List (ℤ × ℤ)) :
    ∀ (i : ℕ) (last : Option VerifiedDepositEvent) (st : DepositRegistry),
      Tiles ((getCachedEvents deploymentBlock st.store).headers.endBlock + 1) F ranges →
      CacheInv deploymentBlock log st.store → TreeSync st →
      TreeSync (updateChunks log headers chunkFault i ranges last st).2 := by
  induction ranges with
  | nil => exact fun _ _ _ _ _ hsync => hsync
  | cons r rest ih =>
    obtain ⟨s, t⟩ := r
    intro i last st htiles hinv hsync
    obtain ⟨hs, hst, -, hrest⟩ := htiles
    simp only [updateChunks]
    cases hf : chunkFault i with
    | some f =>
      cases f with
      | fetch e => exact hsync
      | index e => exact hsync
      | write e => exact absurd hf (hwrite i e)
    | none =>
      obtain ⟨hinv', hend'⟩ := hinv.insertEventsCacheBatch hlog (t := t) (by omega)
      subst hs
      dsimp only [fetchEventsFallOver]
      rw [hheaders]
      refine ih (i + 1) _ ⟨_, _⟩ (by convert hrest using 2) hinv' ?_
      show st.tree ++ _ = _
      rw [hinv.insertEventsCacheBatch_data hlog, List.map_append, hsync]

theorem updateEventsCache_treeSync (hlog : log.Pairwise (·.position < ·.position))
    {env : UpdateEventsCacheEnv} (hwrite : NoWriteFault env) {st : DepositRegistry}
    (hinv : CacheInv deploymentBlock log st.store) (hsync : TreeSync st) :
    TreeSync (updateEventsCache deploymentBlock log env st).2 := by
  rcases updateEventsCache_cases env st with hst | ⟨F, hash, -, hEF, st₁, rfl, hst⟩
  · rw [hst]
    exact hsync
  · have h := updateChunks_treeSync hlog hinv.startBlock_eq hwrite _ 0 none st
      (tiles_chunks F _ (by omega)) hinv hsync
    rcases hst with hst | ⟨ev, hst⟩ <;> rw [hst] <;> exact h

theorem runUpdateEventsCache_treeSync (hlog : log.Pairwise (·.position < ·.position))
    (envs : List UpdateEventsCacheEnv) (hwrite : ∀ env ∈ envs, NoWriteFault env) :
    ∀ {st : DepositRegistry}, CacheInv deploymentBlock log st.store → TreeSync st →
      TreeSync (runUpdateEventsCache deploymentBlock log envs st) := by
  induction envs with
  | nil => exact fun _ hsync => hsync
  | cons env envs ih =>
    intro st hinv hsync
    exact ih (fun env' h => hwrite env' (.tail _ h)) (updateEventsCache_cacheInv hlog env hinv).1
      (updateEventsCache_treeSync hlog (hwrite env (.head _)) hinv hsync)

theorem initializeTree_treeSync {store : DepositsRegistryStore}
    (hinv : CacheInv deploymentBlock log store) :
    TreeSync ⟨store, initializeTree (getEventsCache store)⟩ := by
  have h := hinv.data_eq_cached
  unfold getCachedEvents at h
  simp only [TreeSync, initializeTree, addEventGroupToIndex, List.nil_append]
  rw [← h]

theorem initializeService_run_inv (hlog : log.Pairwise (·.position < ·.position))
    {store : DepositsRegistryStore} (hinv : CacheInv deploymentBlock log store)
    (env : UpdateEventsCacheEnv) (envs : List UpdateEventsCacheEnv)
    (hwrite : ∀ env' ∈ env :: envs, NoWriteFault env') :
    CacheInv deploymentBlock log (runUpdateEventsCache deploymentBlock log envs
        (initializeService deploymentBlock log env store).2).store ∧
      TreeSync (runUpdateEventsCache deploymentBlock log envs
        (initializeService deploymentBlock log env store).2) := by
  have hinv₁ : CacheInv deploymentBlock log (initializeService deploymentBlock log env store).2.store :=
    (updateEventsCache_cacheInv hlog env hinv).1
  have hsync₁ : TreeSync (initializeService deploymentBlock log env store).2 :=
    updateEventsCache_treeSync hlog (hwrite env (.head _)) hinv (initializeTree_treeSync hinv)
  exact ⟨(runUpdateEventsCache_cacheInv hlog envs hinv₁).1,
    runUpdateEventsCache_treeSync hlog envs (fun env' h => hwrite env' (.tail _ h)) hinv₁ hsync₁⟩

/-- When no store write fails, the service started by `initialize` on a store that keeps the
invariant, after any further calls, has one tree leaf per cached event: the deposit data roots of
the events `getCachedEvents` returns, in order. -/
theorem initializeService_tree_tracks_cache (hlog : log.Pairwise (·.position < ·.position))
    {store : DepositsRegistryStore} (hinv : CacheInv deploymentBlock log store)
    (env : UpdateEventsCacheEnv) (envs : List UpdateEventsCacheEnv)
    (hwrite : ∀ env' ∈ env :: envs, NoWriteFault env') :
    (runUpdateEventsCache deploymentBlock log envs
        (initializeService deploymentBlock log env store).2).tree =
      (getCachedEvents deploymentBlock (runUpdateEventsCache deploymentBlock log envs
        (initializeService deploymentBlock log env store).2).store).data.map
          (·.depositDataRoot) := by
  obtain ⟨hinv', hsync⟩ := initializeService_run_inv hlog hinv env envs hwrite
  rw [hinv'.data_eq_cached]
  exact hsync

/-- When no store write fails, the sanity checker's deposit tree, after `initialize` on a store
that keeps the invariant and any further calls, counts the cached events, and its root, the one
`verifyUpdatedEvents` compares with `get_deposit_root`, is the deposit root of their deposit data
roots in order: the root of the full Merkle tree over them, mixed with their count. -/
theorem initializeService_tree_root (digest2Bytes32 : String → String → String)
    (ZERO_HASH : String) (toLittleEndian64 : ℕ → String)
    (hlog : log.Pairwise (·.position < ·.position))
    (hsize : log.length < 2 ^ DEPOSIT_CONTRACT_TREE_DEPTH)
    {store : DepositsRegistryStore} (hinv : CacheInv deploymentBlock log store)
    (env : UpdateEventsCacheEnv) (envs : List UpdateEventsCacheEnv)
    (hwrite : ∀ env' ∈ env :: envs, NoWriteFault env') :
    getRoot digest2Bytes32 ZERO_HASH toLittleEndian64
        (DepositTree.ofLeaves digest2Bytes32 ZERO_HASH (runUpdateEventsCache deploymentBlock log envs
          (initializeService deploymentBlock log env store).2).tree) =
      merkleRoot digest2Bytes32 ZERO_HASH toLittleEndian64
        ((getCachedEvents deploymentBlock (runUpdateEventsCache deploymentBlock log envs
          (initializeService deploymentBlock log env store).2).store).data.map
            (·.depositDataRoot)) ∧
    (DepositTree.ofLeaves digest2Bytes32 ZERO_HASH (runUpdateEventsCache deploymentBlock log envs
        (initializeService deploymentBlock log env store).2).tree).nodeCount =
      (getCachedEvents deploymentBlock (runUpdateEventsCache deploymentBlock log envs
        (initializeService deploymentBlock log env store).2).store).data.length := by
  obtain ⟨hinv', hsync⟩ := initializeService_run_inv hlog hinv env envs hwrite
  rw [hinv'.data_eq_cached, ← List.length_map _ (·.depositDataRoot), ← hsync]
  have hlt : (runUpdateEventsCache deploymentBlock log envs
      (initializeService deploymentBlock log env store).2).tree.length <
        2 ^ DEPOSIT_CONTRACT_TREE_DEPTH := by
    rw [hsync, List.length_map, hinv'.data_eq]
    exact (List.length_filter_le _ _).trans_lt hsize
  have hholds : Holds digest2Bytes32 ZERO_HASH (DepositTree.ofLeaves digest2Bytes32 ZERO_HASH _) _ :=
    holds_ofLeaves _ hlt
  exact ⟨hholds.getRoot_eq hlt toLittleEndian64, hholds.nodeCount_eq⟩

end TreeSync

/-- Deposits at blocks `2` and `3`: `initialize` on a store that a call up to block `2` filled
with the first, its own call up to block `3`, and a later call up to block `4`. -/
theorem initializeService_tree_tracks_cache_two_calls :
    let log : List VerifiedDepositEvent :=
      [⟨2, 0, "0xk", "0xw", true, "0xr"⟩, ⟨3, 0, "0xl", "0xw", true, "0xs"⟩]
    let store := (runUpdateEventsCache 1 log [⟨.ok (2, "0xh"), fun _ => none, .ok true, .ok ()⟩]
      ⟨.empty, []⟩).store
    let env : UpdateEventsCacheEnv := ⟨.ok (3, "0xi"), fun _ => none, .ok true, .ok ()⟩
    let envs : List UpdateEventsCacheEnv := [⟨.ok (4, "0xj"), fun _ => none, .ok true, .ok ()⟩]
    log.Pairwise (·.position < ·.position) ∧ CacheInv 1 log store ∧
      (∀ env' ∈ env :: envs, NoWriteFault env') ∧
      (runUpdateEventsCache 1 log envs (initializeService 1 log env store).2).tree =
        (getCachedEvents 1 (runUpdateEventsCache 1 log envs
          (initializeService 1 log env store).2).store).data.map (·.depositDataRoot) := by
  intro log store env envs
  have hlog : log.Pairwise (·.position < ·.position) :=
    List.pairwise_pair.2 (VerifiedDepositEvent.position_lt_of_blockNumber_lt (by decide))
  have hinv : CacheInv 1 log store := (runUpdateEventsCache_cacheInv hlog _ CacheInv.empty).1
  have hwrite : ∀ env' ∈ env :: envs, NoWriteFault env' := by simp [env, envs, NoWriteFault]
  exact ⟨hlog, hinv, hwrite, initializeService_tree_tracks_cache hlog hinv env envs hwrite⟩

/-- The same run as for the tree law, with the concatenation of strings as the hash. -/
theorem initializeService_tree_root_two_calls :
    let log : List VerifiedDepositEvent :=
      [⟨2, 0, "0xk", "0xw", true, "0xr"⟩, ⟨3, 0, "0xl", "0xw", true, "0xs"⟩]
    let store := (runUpdateEventsCache 1 log [⟨.ok (2, "0xh"), fun _ => none, .ok true, .ok ()⟩]
      ⟨.empty, []⟩).store
    let env : UpdateEventsCacheEnv := ⟨.ok (3, "0xi"), fun _ => none, .ok true, .ok ()⟩
    let envs : List UpdateEventsCacheEnv := [⟨.ok (4, "0xj"), fun _ => none, .ok true, .ok ()⟩]
    log.Pairwise (·.position < ·.position) ∧ log.length < 2 ^ DEPOSIT_CONTRACT_TREE_DEPTH ∧
      CacheInv 1 log store ∧ (∀ env' ∈ env :: envs, NoWriteFault env') ∧
      getRoot (· ++ ·) "0x0" toString (DepositTree.ofLeaves (· ++ ·) "0x0"
          (runUpdateEventsCache 1 log envs (initializeService 1 log env store).2).tree) =
        merkleRoot (· ++ ·) "0x0" toString ((getCachedEvents 1 (runUpdateEventsCache 1 log envs
          (initializeService 1 log env store).2).store).data.map (·.depositDataRoot)) ∧
      (DepositTree.ofLeaves (· ++ ·) "0x0"
          (runUpdateEventsCache 1 log envs (initializeService 1 log env store).2).tree).nodeCount =
        (getCachedEvents 1 (runUpdateEventsCache 1 log envs
          (initializeService 1 log env store).2).store).data.length := by
  intro log store env envs
  have hlog : log.Pairwise (·.position < ·.position) :=
    List.pairwise_pair.2 (VerifiedDepositEvent.position_lt_of_blockNumber_lt (by decide))
  have hsize : log.length < 2 ^ DEPOSIT_CONTRACT_TREE_DEPTH := by decide
  have hinv : CacheInv 1 log store := (runUpdateEventsCache_cacheInv hlog _ CacheInv.empty).1
  have hwrite : ∀ env' ∈ env :: envs, NoWriteFault env' := by simp [env, envs, NoWriteFault]
  exact ⟨hlog, hsize, hinv, hwrite, initializeService_tree_root (· ++ ·) "0x0" toString hlog hsize
    hinv env envs hwrite⟩

/-- A failed store write after indexing: `initialize` on the empty store with one deposit at block
`2` and the write of the only chunk failing leaves a leaf in the tree and no event in the store;
the next call fetches the chunk again, and the tree holds the deposit twice. -/
theorem updateEventsCache_write_failure_desyncs_tree :
    (initializeService 1 [⟨2, 0, "0xk", "0xw", true, "0xr"⟩]
        ⟨.ok (2, "0xh"), fun _ => some (.write (.error "write failed")), .ok true, .ok ()⟩
        .empty).2 = ⟨.empty, ["0xr"]⟩ ∧
      (getCachedEvents 1 DepositsRegistryStore.empty).data = [] ∧
      (updateEventsCache 1 [⟨2, 0, "0xk", "0xw", true, "0xr"⟩]
        ⟨.ok (2, "0xh"), fun _ => none, .ok true, .ok ()⟩ ⟨.empty, ["0xr"]⟩).2.tree =
        ["0xr", "0xr"] ∧
      (getCachedEvents 1 (updateEventsCache 1 [⟨2, 0, "0xk", "0xw", true, "0xr"⟩]
        ⟨.ok (2, "0xh"), fun _ => none, .ok true, .ok ()⟩ ⟨.empty, ["0xr"]⟩).2.store).data =
        [⟨2, 0, "0xk", "0xw", true, "0xr"⟩] := by
  have hchunks : chunks 2 ((getCachedEvents 1 .empty).headers.endBlock + 1) = [(2, 2)] := by
    rw [chunks_of_le (by decide), chunks_of_lt (by decide)]
    rfl
  simp only [initializeService, updateEventsCache, hchunks]
  decide

end CouncilDaemon.DepositsRegistry
