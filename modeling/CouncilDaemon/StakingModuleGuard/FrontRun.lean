import CouncilDaemon.KeysApi.Service

/-! The front-run checks of `StakingModuleGuardService`. `getHistoricalFrontRun` keeps, for each
key, the earliest valid deposit with the Lido withdrawal credentials in a map built by
`forEach`, flags every valid deposit of another withdrawal credential that comes before it, and
asks the keys-index (`POST /v1/keys/find`) whether it owns any flagged key.
`getFrontRunAttempts` picks the vetted unused keys of a module that were deposited with another
withdrawal credential.

Proved: the map holds the earliest Lido deposit of every key (an invariant of the `forEach`
loop), so the filter never throws `expected event not found`; the keys-index is asked exactly
when a front-run deposit exists, with exactly their pubkeys in list order, and those do not
depend on the order of the events. `getFrontRunAttempts` is the filter of the module's vetted
unused keys by the existence of such a deposit. -/

namespace CouncilDaemon.StakingModuleGuard

open KeysApi

/-! ### Deposit order -/

/-- `isFirstEventEarlier`. -/
def isFirstEventEarlier (firstEvent secondEvent : VerifiedDepositEvent) : Bool :=
  if firstEvent.blockNumber = secondEvent.blockNumber then firstEvent.logIndex < secondEvent.logIndex
  else firstEvent.blockNumber < secondEvent.blockNumber

@[simp] theorem isFirstEventEarlier_iff {a b : VerifiedDepositEvent} :
    isFirstEventEarlier a b = true ↔ a.position < b.position := by
  unfold isFirstEventEarlier VerifiedDepositEvent.position
  rw [Prod.Lex.lt_iff]
  split_ifs with h <;> simp [h]

/-! ### Historical front-run -/

/-- One `forEach` step over the valid Lido deposits: an earlier deposit of the same key stays,
otherwise this one is recorded. -/
def addPotentialLidoDeposit (map : String → Option VerifiedDepositEvent)
    (event : VerifiedDepositEvent) : String → Option VerifiedDepositEvent :=
  match map event.pubkey with
  | some existed =>
    if isFirstEventEarlier existed event then map
    else Function.update map event.pubkey (some event)
  | none => Function.update map event.pubkey (some event)

/-- Whether a deposit carries the Lido withdrawal credentials and a valid signature. -/
def isPotentialLidoDeposit (lidoWC : String) (e : VerifiedDepositEvent) : Bool :=
  e.wc == lidoWC && e.valid

/-- `potentialLidoDepositsKeysMap`, built by `forEach` over the valid Lido deposits. -/
def potentialLidoDepositsKeysMap (events : List VerifiedDepositEvent) (lidoWC : String) :
    String → Option VerifiedDepositEvent :=
  (events.filter (isPotentialLidoDeposit lidoWC)).foldl addPotentialLidoDeposit fun _ => none

/-- The front-run deposits `getHistoricalFrontRun` finds before it asks the keys-index. The
last filter throws `expected event not found` on a key missing from the map. -/
def frontRunnedDepositEvents (events : List VerifiedDepositEvent) (lidoWC : String) :
    Except Error (List VerifiedDepositEvent) :=
  let map := potentialLidoDepositsKeysMap events lidoWC
  let duplicatedDepositEvents := events.filter fun e => (map e.pubkey).isSome && e.wc != lidoWC
  let validDuplicatedDepositEvents := duplicatedDepositEvents.filter (·.valid)
  validDuplicatedDepositEvents.filterM fun suspectedEvent =>
    match map suspectedEvent.pubkey with
    | none => .error (.error "expected event not found")
    | some sameKeyLidoDeposit => .ok (isFirstEventEarlier suspectedEvent sameKeyLidoDeposit)

/-- `getHistoricalFrontRun`: whether the keys-index owns a key deposited ahead of Lido. -/
def getHistoricalFrontRun (response : Except Error KeyListResponse) (blockData : BlockData)
    (s : KeysApiService) : Except Error Bool × KeysApiService :=
  match frontRunnedDepositEvents blockData.depositedEvents.events blockData.lidoWC with
  | .error e => (.error e, s)
  | .ok frontRunnedDepositEvents =>
    let frontRunnedDepositKeys := frontRunnedDepositEvents.map (·.pubkey)
    if frontRunnedDepositKeys.length = 0 then (.ok false, s)
    else
      match getKeysByPubkeys frontRunnedDepositKeys response s with
      | (.error e, s) => (.error e, s)
      | (.ok lidoDepositedKeys, s) => (.ok (lidoDepositedKeys.data.length ≠ 0), s)

/-! ### What a front-run is -/

/-- A valid deposit of `pubkey` with the Lido withdrawal credentials. -/
def IsLidoDeposit (lidoWC pubkey : String) (l : VerifiedDepositEvent) : Prop :=
  l.pubkey = pubkey ∧ l.valid ∧ l.wc = lidoWC

instance (lidoWC pubkey : String) : DecidablePred (IsLidoDeposit lidoWC pubkey) :=
  fun _ => inferInstanceAs (Decidable (_ ∧ _ ∧ _))

/-- A front-run deposit: valid, of another withdrawal credential, of a key with a valid Lido
deposit, and before every valid Lido deposit of that key. -/
def IsFrontRun (events : List VerifiedDepositEvent) (lidoWC : String)
    (e : VerifiedDepositEvent) : Prop :=
  e.valid ∧ e.wc ≠ lidoWC ∧ (∃ l ∈ events, IsLidoDeposit lidoWC e.pubkey l) ∧
    ∀ l ∈ events, IsLidoDeposit lidoWC e.pubkey l → e.position < l.position

instance (events : List VerifiedDepositEvent) (lidoWC : String) :
    DecidablePred (IsFrontRun events lidoWC) :=
  fun _ => inferInstanceAs (Decidable (_ ∧ _ ∧ _ ∧ _))

/-- The pubkeys of the front-run deposits, in list order. -/
def frontRunKeys (events : List VerifiedDepositEvent) (lidoWC : String) : List String :=
  (events.filter fun e => decide (IsFrontRun events lidoWC e)).map (·.pubkey)

/-! ### The keep-earliest loop -/

/-- What the map holds at one key, given the deposits `lido` seen so far: nothing when no deposit
of the key was seen, else the earliest deposit of the key. -/
def EarliestAt (lido : List VerifiedDepositEvent) (pk : String) : Option VerifiedDepositEvent → Prop
  | none => ∀ l ∈ lido, l.pubkey ≠ pk
  | some c => c ∈ lido ∧ c.pubkey = pk ∧ ∀ l ∈ lido, l.pubkey = pk → c.position ≤ l.position

/-- The loop invariant of `potentialLidoDepositsKeysMap`. -/
def KeepsEarliest (lido : List VerifiedDepositEvent) (map : String → Option VerifiedDepositEvent) :
    Prop :=
  ∀ pk, EarliestAt lido pk (map pk)

variable {acc : List VerifiedDepositEvent} {e : VerifiedDepositEvent} {pk : String}
  {map : String → Option VerifiedDepositEvent}

theorem earliestAt_append_of_ne (h : e.pubkey ≠ pk) :
    ∀ {o}, EarliestAt acc pk o → EarliestAt (acc ++ [e]) pk o
  | none, hn => List.forall_mem_append.2 ⟨hn, List.forall_mem_singleton.2 h⟩
  | some _, ⟨hc, hp, hl⟩ => ⟨List.mem_append_left _ hc, hp,
      List.forall_mem_append.2 ⟨hl, List.forall_mem_singleton.2 fun hpk => absurd hpk h⟩⟩

theorem addPotentialLidoDeposit_of_ne (h : pk ≠ e.pubkey) :
    addPotentialLidoDeposit map e pk = map pk := by
  unfold addPotentialLidoDeposit
  cases map e.pubkey with
  | none => exact Function.update_noteq h _ _
  | some c => dsimp only; split_ifs <;> simp [Function.update_noteq h]

theorem addPotentialLidoDeposit_self (h : EarliestAt acc e.pubkey (map e.pubkey)) :
    EarliestAt (acc ++ [e]) e.pubkey (addPotentialLidoDeposit map e e.pubkey) := by
  unfold addPotentialLidoDeposit
  cases hm : map e.pubkey with
  | none =>
    rw [hm] at h
    dsimp only
    rw [Function.update_same]
    exact ⟨by simp, rfl, List.forall_mem_append.2
      ⟨fun l hl hlp => absurd hlp (h l hl), List.forall_mem_singleton.2 fun _ => le_rfl⟩⟩
  | some c =>
    rw [hm] at h
    obtain ⟨hmem, hpk, hle⟩ := h
    dsimp only
    split_ifs with hce
    · rw [isFirstEventEarlier_iff] at hce
      rw [hm]
      exact ⟨List.mem_append_left _ hmem, hpk,
        List.forall_mem_append.2 ⟨hle, List.forall_mem_singleton.2 fun _ => hce.le⟩⟩
    · rw [isFirstEventEarlier_iff, not_lt] at hce
      rw [Function.update_same]
      exact ⟨by simp, rfl, List.forall_mem_append.2
        ⟨fun l hl hlp => hce.trans (hle l hl hlp), List.forall_mem_singleton.2 fun _ => le_rfl⟩⟩

theorem keepsEarliest_add (h : KeepsEarliest acc map) :
    KeepsEarliest (acc ++ [e]) (addPotentialLidoDeposit map e) := by
  intro pk
  by_cases hpk : pk = e.pubkey
  · subst hpk
    exact addPotentialLidoDeposit_self (h _)
  · rw [addPotentialLidoDeposit_of_ne hpk]
    exact earliestAt_append_of_ne (Ne.symm hpk) (h pk)

theorem keepsEarliest_foldl (l : List VerifiedDepositEvent) :
    ∀ {acc map}, KeepsEarliest acc map →
      KeepsEarliest (acc ++ l) (l.foldl addPotentialLidoDeposit map) := by
  induction l with
  | nil => simp
  | cons e l ih =>
    intro acc map h
    simpa using ih (keepsEarliest_add h)

theorem potentialLidoDepositsKeysMap_keepsEarliest (events : List VerifiedDepositEvent)
    (lidoWC : String) :
    KeepsEarliest (events.filter (isPotentialLidoDeposit lidoWC))
      (potentialLidoDepositsKeysMap events lidoWC) := by
  simpa using @keepsEarliest_foldl (events.filter (isPotentialLidoDeposit lidoWC)) []
    (fun _ => none) (fun _ _ h => absurd h (List.not_mem_nil _))

/-! ### The front-run filter -/

section FilterM

variable {α ε : Type} {p : α → Except ε Bool} {q : α → Bool}

theorem filterAuxM_except_ok :
    ∀ {l : List α} (acc : List α), (∀ x ∈ l, p x = .ok (q x)) →
      List.filterAuxM p l acc = .ok ((l.filter q).reverse ++ acc)
  | [], _, _ => rfl
  | x :: l, acc, h => by
    rw [List.forall_mem_cons] at h
    show (p x >>= fun b => List.filterAuxM p l (cond b (x :: acc) acc)) = _
    rw [h.1]
    show List.filterAuxM p l (cond (q x) (x :: acc) acc) = _
    rw [filterAuxM_except_ok _ h.2]
    cases hq : q x <;> simp [List.filter_cons, hq]

theorem filterM_except_ok {l : List α} (h : ∀ x ∈ l, p x = .ok (q x)) :
    l.filterM p = .ok (l.filter q) := by
  show (List.filterAuxM p l [] >>= fun as => pure as.reverse) = _
  rw [filterAuxM_except_ok [] h]
  exact congrArg Except.ok (by simp)

end FilterM

variable {events : List VerifiedDepositEvent} {lidoWC : String}

theorem mem_potentialLidoDeposits_iff {l : VerifiedDepositEvent} :
    (l ∈ events.filter (isPotentialLidoDeposit lidoWC) ∧ l.pubkey = pk) ↔
      l ∈ events ∧ IsLidoDeposit lidoWC pk l := by
  simp only [List.mem_filter, isPotentialLidoDeposit, Bool.and_eq_true, beq_iff_eq, IsLidoDeposit]
  tauto

theorem isFrontRun_iff_of_earliestAt {x : VerifiedDepositEvent} :
    ∀ {o}, EarliestAt (events.filter (isPotentialLidoDeposit lidoWC)) x.pubkey o →
      (IsFrontRun events lidoWC x ↔
        x.valid ∧ x.wc ≠ lidoWC ∧ ∃ c, o = some c ∧ x.position < c.position)
  | none, h => by
    simp only [IsFrontRun, reduceCtorEq, false_and, exists_false, and_false, iff_false, not_and]
    rintro - - ⟨l, hl, hlido⟩
    exact (h l (mem_potentialLidoDeposits_iff.2 ⟨hl, hlido⟩).1 hlido.1).elim
  | some c, ⟨hc, hpk, hle⟩ => by
    have hcl := mem_potentialLidoDeposits_iff.1 ⟨hc, hpk⟩
    simp only [IsFrontRun, Option.some.injEq, exists_eq_left']
    refine and_congr_right fun _ => and_congr_right fun _ =>
      ⟨fun h => h.2 c hcl.1 hcl.2, fun h => ⟨⟨c, hcl⟩, fun l hl hlido => h.trans_le ?_⟩⟩
    exact hle l (mem_potentialLidoDeposits_iff.2 ⟨hl, hlido⟩).1 hlido.1

/-- The filter of `getHistoricalFrontRun` never throws: it returns exactly the front-run
deposits, in list order. -/
theorem frontRunnedDepositEvents_eq (events : List VerifiedDepositEvent) (lidoWC : String) :
    frontRunnedDepositEvents events lidoWC =
      .ok (events.filter fun e => decide (IsFrontRun events lidoWC e)) := by
  have hmap := potentialLidoDepositsKeysMap_keepsEarliest events lidoWC
  unfold frontRunnedDepositEvents
  rw [filterM_except_ok (q := fun e => match potentialLidoDepositsKeysMap events lidoWC e.pubkey with
      | some c => isFirstEventEarlier e c | none => false)]
  · simp only [List.filter_filter]
    congr 1
    refine List.filter_congr fun x _ => ?_
    rw [Bool.eq_iff_iff, decide_eq_true_iff, isFrontRun_iff_of_earliestAt (hmap x.pubkey)]
    cases potentialLidoDepositsKeysMap events lidoWC x.pubkey <;> simp [and_comm, and_assoc]
  · intro x hx
    simp only [List.mem_filter, Bool.and_eq_true, Option.isSome_iff_exists] at hx
    obtain ⟨⟨_, ⟨c, hc⟩, _⟩, _⟩ := hx
    simp [hc]

theorem frontRunKeys_perm {events' : List VerifiedDepositEvent} (h : events'.Perm events) :
    (frontRunKeys events' lidoWC).Perm (frontRunKeys events lidoWC) := by
  unfold frontRunKeys
  rw [List.filter_congr (q := fun e => decide (IsFrontRun events lidoWC e))
    fun x _ => by simp only [IsFrontRun, h.mem_iff]]
  exact (h.filter _).map _

/-- `getHistoricalFrontRun` flags a theft exactly when some key was front-run and the keys index
reports Lido keys among the front-run ones; it asks the keys index only in that case. -/
theorem getHistoricalFrontRun_eq (response : Except Error KeyListResponse)
    (blockData : BlockData) (s : KeysApiService) :
    getHistoricalFrontRun response blockData s =
      if frontRunKeys blockData.depositedEvents.events blockData.lidoWC = [] then (.ok false, s)
      else (response.map fun r => decide (r.data.length ≠ 0),
        { s with requests := s.requests ++
          [.keysFind (frontRunKeys blockData.depositedEvents.events blockData.lidoWC)] }) := by
  unfold getHistoricalFrontRun
  rw [frontRunnedDepositEvents_eq]
  simp only [List.length_eq_zero, List.map_eq_nil_iff, frontRunKeys]
  split_ifs
  · rfl
  · cases response <;> rfl

/-- `getHistoricalFrontRun` never throws on its own: it asks the keys-index exactly when a
front-run deposit exists, with exactly the front-run pubkeys in list order, and answers whether
the keys-index returned a key. The pubkeys asked for do not depend on the order of the events. -/
theorem getHistoricalFrontRun_spec (response : Except Error KeyListResponse)
    (blockData : BlockData) (s : KeysApiService) :
    getHistoricalFrontRun response blockData s =
      (if frontRunKeys blockData.depositedEvents.events blockData.lidoWC = [] then (.ok false, s)
       else (response.map fun r => decide (r.data.length ≠ 0),
         { s with requests := s.requests ++
           [.keysFind (frontRunKeys blockData.depositedEvents.events blockData.lidoWC)] })) ∧
    ∀ events, events.Perm blockData.depositedEvents.events →
      (frontRunKeys events blockData.lidoWC).Perm
        (frontRunKeys blockData.depositedEvents.events blockData.lidoWC) :=
  ⟨getHistoricalFrontRun_eq response blockData s, fun _ h => frontRunKeys_perm h⟩

/-! ### Front-run attempts on vetted keys -/

/-- `getKeysIntersections`: the deposits of the module's vetted unused keys. -/
def getKeysIntersections (stakingModuleData : StakingModuleData) (blockData : BlockData) :
    List VerifiedDepositEvent :=
  let vettedUnusedKeys := stakingModuleData.vettedUnusedKeys.map (·.key)
  blockData.depositedEvents.events.filter fun e => decide (e.pubkey ∈ vettedUnusedKeys)

/-- `excludeEligibleIntersections`: drops deposits with the Lido withdrawal credentials and
invalid ones. -/
def excludeEligibleIntersections (blockData : BlockData)
    (intersections : List VerifiedDepositEvent) : List VerifiedDepositEvent :=
  intersections.filter fun e => e.wc != blockData.lidoWC && e.valid

/-- `getFrontRunAttempts`: the vetted unused keys with a valid deposit of another withdrawal
credential. -/
def getFrontRunAttempts (stakingModuleData : StakingModuleData) (blockData : BlockData) :
    List RegistryKey :=
  let keysIntersections := getKeysIntersections stakingModuleData blockData
  let frontRunAttempts := excludeEligibleIntersections blockData keysIntersections
  let keys := frontRunAttempts.map (·.pubkey)
  stakingModuleData.vettedUnusedKeys.filter fun key => decide (key.key ∈ keys)

/-- `getFrontRunAttempts` keeps, in order and with multiplicity, exactly the vetted unused keys
with a valid deposit of another withdrawal credential. -/
theorem getFrontRunAttempts_eq (stakingModuleData : StakingModuleData) (blockData : BlockData) :
    getFrontRunAttempts stakingModuleData blockData =
      stakingModuleData.vettedUnusedKeys.filter fun k =>
        decide (∃ e ∈ blockData.depositedEvents.events,
          e.pubkey = k.key ∧ e.valid ∧ e.wc ≠ blockData.lidoWC) := by
  refine List.filter_congr fun k hk => ?_
  simp only [getKeysIntersections, excludeEligibleIntersections, List.mem_map, List.mem_filter,
    decide_eq_true_eq, Bool.and_eq_true, bne_iff_ne, ne_eq, decide_eq_decide]
  constructor
  · rintro ⟨e, ⟨⟨he, -⟩, hwc, hv⟩, hpk⟩
    exact ⟨e, he, hpk, hv, hwc⟩
  · rintro ⟨e, he, hpk, hv, hwc⟩
    exact ⟨e, ⟨⟨he, k, hk, hpk.symm⟩, hwc, hv⟩, hpk⟩

end CouncilDaemon.StakingModuleGuard
