import CouncilDaemon.Interfaces
import Mathlib.Logic.Function.Basic

/-! `KeysValidationService.getInvalidKeys`, modelled from the spec (the repository holds its
tests, not its source): the BLS check of the keys' deposit signatures, with a cache by pubkey of
each verdict and of the signature and withdrawal credentials it was computed for. A key whose
cached signature and credentials are the current ones reuses the verdict; the others go to the
validator's `validateKeys` in one call, and their verdicts replace the cached ones. The BLS check
itself is a parameter, `isValidKey pubkey depositSignature wc`.

Proved: along any sequence of calls from the empty cache, in each of which the keys of one pubkey
carry one signature, every call returns exactly the keys the BLS check rejects, in order: the
cache never changes an answer. After a call, a call with the same withdrawal credentials over keys
of the same pubkeys validates exactly the keys whose signature changed, so none when nothing
changed. -/

namespace CouncilDaemon.KeysValidation

/-- Modelled from the spec: a cached verdict, with the deposit signature and withdrawal
credentials it was computed for. -/
structure CachedVerdict where
  depositSignature : String
  wc : String
  valid : Bool
  deriving DecidableEq, Repr

/-- Modelled from the spec: the service, with the cache by pubkey and the calls of `validateKeys`
made so far, each with the keys and the withdrawal credentials. -/
structure KeysValidationService where
  cache : String → Option CachedVerdict
  validateKeysCalls : List (List RegistryKey × String)

/-- A new service: nothing cached, nothing validated. -/
def KeysValidationService.empty : KeysValidationService :=
  ⟨fun _ => none, []⟩

/-- Modelled from the spec: whether the cache holds a verdict for the key's current signature
and for `wc`. -/
def isCached (cache : String → Option CachedVerdict) (wc : String) (key : RegistryKey) : Bool :=
  match cache key.key with
  | some verdict =>
    decide (verdict.depositSignature = key.depositSignature) && decide (verdict.wc = wc)
  | none => false

/-- Modelled from the spec: whether the cache's verdict for the key's pubkey is valid. -/
def cachedValid (cache : String → Option CachedVerdict) (key : RegistryKey) : Bool :=
  match cache key.key with
  | some verdict => verdict.valid
  | none => false

section Service

variable (isValidKey : String → String → String → Bool)

/-- Modelled from the spec: the verdicts of `validateKeys` on `keys`, cached over the old ones. -/
def cacheVerdicts (wc : String) (keys : List RegistryKey)
    (cache : String → Option CachedVerdict) : String → Option CachedVerdict :=
  keys.foldl (fun cache key => Function.update cache key.key
    (some ⟨key.depositSignature, wc, isValidKey key.key key.depositSignature wc⟩)) cache

/-- Modelled from the spec: `getInvalidKeys`. The keys without a cached verdict for their
signature and `wc` are validated in one call of `validateKeys`; the keys whose verdict is not
valid are returned. -/
def getInvalidKeys (keys : List RegistryKey) (wc : String) (s : KeysValidationService) :
    List RegistryKey × KeysValidationService :=
  let keysToValidate := keys.filter fun key => !isCached s.cache wc key
  let cache := cacheVerdicts isValidKey wc keysToValidate s.cache
  (keys.filter fun key => !cachedValid cache key,
    ⟨cache, s.validateKeysCalls ++ [(keysToValidate, wc)]⟩)

/-- Calls one after another: the answers, and the service after them. -/
def runGetInvalidKeys : List (List RegistryKey × String) → KeysValidationService →
    List (List RegistryKey) × KeysValidationService
  | [], s => ([], s)
  | (keys, wc) :: calls, s =>
    let call := getInvalidKeys isValidKey keys wc s
    let rest := runGetInvalidKeys calls call.2
    (call.1 :: rest.1, rest.2)

/-- Every cached verdict is the BLS check's for its pubkey, signature and credentials. -/
def CacheSound (cache : String → Option CachedVerdict) : Prop :=
  ∀ pubkey verdict, cache pubkey = some verdict →
    verdict.valid = isValidKey pubkey verdict.depositSignature verdict.wc

end Service

/-- The keys of one pubkey carry one signature. -/
def SignaturesAgree (keys : List RegistryKey) : Prop :=
  ∀ k ∈ keys, ∀ k' ∈ keys, k.key = k'.key → k.depositSignature = k'.depositSignature

instance : DecidablePred SignaturesAgree := fun keys =>
  inferInstanceAs (Decidable (∀ k ∈ keys, ∀ k' ∈ keys, k.key = k'.key →
    k.depositSignature = k'.depositSignature))

theorem isCached_iff {cache : String → Option CachedVerdict} {wc : String} {key : RegistryKey} :
    isCached cache wc key = true ↔ ∃ valid, cache key.key = some ⟨key.depositSignature, wc, valid⟩ := by
  unfold isCached
  cases h : cache key.key with
  | none => simp
  | some verdict =>
    obtain ⟨signature, wc', valid⟩ := verdict
    simp [and_comm]

variable {isValidKey : String → String → String → Bool}

theorem cacheVerdicts_cons {wc : String} {key : RegistryKey} {keys : List RegistryKey}
    {cache : String → Option CachedVerdict} :
    cacheVerdicts isValidKey wc (key :: keys) cache = cacheVerdicts isValidKey wc keys
      (Function.update cache key.key
        (some ⟨key.depositSignature, wc, isValidKey key.key key.depositSignature wc⟩)) := rfl

/-- What caching verdicts can do: each entry after it is an old one, or the verdict of the BLS
check on a key of the call. -/
theorem cacheVerdicts_eq_some {wc pubkey : String} {verdict : CachedVerdict} :
    ∀ {keys : List RegistryKey} {cache : String → Option CachedVerdict},
      cacheVerdicts isValidKey wc keys cache pubkey = some verdict →
      cache pubkey = some verdict ∨ ∃ key ∈ keys, key.key = pubkey ∧
        verdict = ⟨key.depositSignature, wc, isValidKey key.key key.depositSignature wc⟩
  | [], _, h => .inl h
  | key :: keys, cache, h => by
    rw [cacheVerdicts_cons] at h
    rcases cacheVerdicts_eq_some h with h | ⟨k, hk, hpubkey, rfl⟩
    · by_cases hkey : pubkey = key.key
      · subst hkey
        rw [Function.update_same] at h
        exact .inr ⟨key, .head _, rfl, (Option.some.inj h).symm⟩
      · exact .inl (by rwa [Function.update_noteq hkey] at h)
    · exact .inr ⟨k, .tail _ hk, hpubkey, rfl⟩

theorem cacheVerdicts_sound (wc : String) (keys : List RegistryKey)
    {cache : String → Option CachedVerdict} (h : CacheSound isValidKey cache) :
    CacheSound isValidKey (cacheVerdicts isValidKey wc keys cache) := fun pubkey verdict hpubkey => by
  rcases cacheVerdicts_eq_some hpubkey with hold | ⟨key, -, rfl, rfl⟩
  · exact h pubkey verdict hold
  · rfl

/-- Every cached verdict was computed for withdrawal credentials of `wcs`. -/
def CachedFor (wcs : List String) (cache : String → Option CachedVerdict) : Prop :=
  ∀ pubkey verdict, cache pubkey = some verdict → verdict.wc ∈ wcs

theorem cacheVerdicts_cachedFor {wcs : List String} {wc : String} (hwc : wc ∈ wcs)
    (keys : List RegistryKey) {cache : String → Option CachedVerdict} (h : CachedFor wcs cache) :
    CachedFor wcs (cacheVerdicts isValidKey wc keys cache) := fun pubkey verdict hpubkey => by
  rcases cacheVerdicts_eq_some hpubkey with hold | ⟨key, -, -, rfl⟩
  · exact h pubkey verdict hold
  · exact hwc

theorem isCached_cacheVerdicts_of_isCached {wc : String} {key : RegistryKey} :
    ∀ {keys : List RegistryKey} {cache : String → Option CachedVerdict},
      (∀ k ∈ keys, k.key = key.key → k.depositSignature = key.depositSignature) →
      isCached cache wc key = true → isCached (cacheVerdicts isValidKey wc keys cache) wc key = true
  | [], _, _, h => h
  | k :: keys, cache, hagree, h => by
    rw [cacheVerdicts_cons]
    refine isCached_cacheVerdicts_of_isCached (fun k' hk' => hagree k' (.tail _ hk')) ?_
    rw [isCached_iff] at h ⊢
    by_cases hkey : key.key = k.key
    · rw [hkey, Function.update_same, hagree k (.head _) hkey.symm]
      exact ⟨_, rfl⟩
    · rwa [Function.update_noteq hkey]

theorem isCached_cacheVerdicts_of_mem {wc : String} {key : RegistryKey} :
    ∀ {keys : List RegistryKey} {cache : String → Option CachedVerdict}, key ∈ keys →
      (∀ k ∈ keys, k.key = key.key → k.depositSignature = key.depositSignature) →
      isCached (cacheVerdicts isValidKey wc keys cache) wc key = true
  | k :: keys, cache, hmem, hagree => by
    rw [cacheVerdicts_cons]
    rcases List.mem_cons.1 hmem with rfl | hmem
    · refine isCached_cacheVerdicts_of_isCached (fun k' hk' => hagree k' (.tail _ hk'))
        (isCached_iff.2 ⟨isValidKey key.key key.depositSignature wc, Function.update_same _ _ _⟩)
    · exact isCached_cacheVerdicts_of_mem hmem fun k' hk' => hagree k' (.tail _ hk')

theorem getInvalidKeys_isCached {keys : List RegistryKey} {wc : String} {s : KeysValidationService}
    (hagree : SignaturesAgree keys) :
    ∀ key ∈ keys, isCached (getInvalidKeys isValidKey keys wc s).2.cache wc key = true := by
  intro key hkey
  have hagree' : ∀ k ∈ keys.filter (fun key => !isCached s.cache wc key),
      k.key = key.key → k.depositSignature = key.depositSignature :=
    fun k hk => hagree k (List.mem_of_mem_filter hk) key hkey
  by_cases hcached : isCached s.cache wc key = true
  · exact isCached_cacheVerdicts_of_isCached hagree' hcached
  · exact isCached_cacheVerdicts_of_mem (List.mem_filter.2 ⟨hkey, by simpa using hcached⟩) hagree'

/-- A call whose keys of one pubkey carry one signature, on a sound cache, returns exactly the
keys the BLS check rejects. -/
theorem getInvalidKeys_eq {keys : List RegistryKey} {wc : String} {s : KeysValidationService}
    (hagree : SignaturesAgree keys) (hsound : CacheSound isValidKey s.cache) :
    (getInvalidKeys isValidKey keys wc s).1 =
      keys.filter fun key => !isValidKey key.key key.depositSignature wc := by
  refine List.filter_congr fun key hkey => ?_
  have hcached : ∀ key ∈ keys, isCached (getInvalidKeys isValidKey keys wc s).2.cache wc key = true :=
    getInvalidKeys_isCached hagree
  obtain ⟨valid, hvalid⟩ := isCached_iff.1 (hcached key hkey)
  have hverdict := cacheVerdicts_sound wc _ hsound _ _ hvalid
  simp only [getInvalidKeys, cachedValid] at hvalid hverdict ⊢
  rw [hvalid, hverdict]

/-- Along any sequence of calls from the empty cache, in each of which the keys of one pubkey
carry one signature, every call returns exactly the keys the BLS check rejects, in order. -/
theorem runGetInvalidKeys_sound (calls : List (List RegistryKey × String))
    (hagree : ∀ call ∈ calls, SignaturesAgree call.1) :
    (runGetInvalidKeys isValidKey calls .empty).1 =
      calls.map fun call => call.1.filter fun key => !isValidKey key.key key.depositSignature call.2 := by
  suffices h : ∀ s : KeysValidationService, CacheSound isValidKey s.cache →
      (runGetInvalidKeys isValidKey calls s).1 =
        calls.map fun call => call.1.filter fun key => !isValidKey key.key key.depositSignature call.2 from
    h _ fun _ _ h => nomatch h
  induction calls with
  | nil => exact fun _ _ => rfl
  | cons call calls ih =>
    intro s hsound
    obtain ⟨keys, wc⟩ := call
    have hcall := hagree (keys, wc) (.head _)
    simp only [runGetInvalidKeys, List.map_cons]
    rw [getInvalidKeys_eq hcall hsound,
      ih (fun c hc => hagree c (.tail _ hc)) _ (cacheVerdicts_sound wc _ hsound)]

theorem runGetInvalidKeys_sound_two_calls :
    (∀ call ∈ [([⟨"0xa", "0xs1", 0, false, 0, "0xm"⟩, ⟨"0xb", "0xs2", 0, false, 1, "0xm"⟩], "0x01"),
        ([⟨"0xa", "0xs1", 0, false, 0, "0xm"⟩, ⟨"0xb", "0xs3", 0, false, 1, "0xm"⟩], "0x01")],
      SignaturesAgree call.1) ∧
    (runGetInvalidKeys (fun _ signature _ => signature != "0xs2")
        [([⟨"0xa", "0xs1", 0, false, 0, "0xm"⟩, ⟨"0xb", "0xs2", 0, false, 1, "0xm"⟩], "0x01"),
          ([⟨"0xa", "0xs1", 0, false, 0, "0xm"⟩, ⟨"0xb", "0xs3", 0, false, 1, "0xm"⟩], "0x01")]
        .empty).1 =
      [([⟨"0xa", "0xs1", 0, false, 0, "0xm"⟩, ⟨"0xb", "0xs2", 0, false, 1, "0xm"⟩], "0x01"),
          ([⟨"0xa", "0xs1", 0, false, 0, "0xm"⟩, ⟨"0xb", "0xs3", 0, false, 1, "0xm"⟩], "0x01")].map
        fun call => call.1.filter fun key => !(key.depositSignature != "0xs2") :=
  ⟨by decide, runGetInvalidKeys_sound _ (by decide)⟩

theorem isCached_congr {cache : String → Option CachedVerdict} {wc : String} {k k' : RegistryKey}
    (hkey : k.key = k'.key) (hsig : k.depositSignature = k'.depositSignature) :
    isCached cache wc k = isCached cache wc k' := by
  simp only [isCached, hkey, hsig]

/-- After a call whose keys of one pubkey carry one signature, a call with the same withdrawal
credentials over keys of pubkeys the first call had validates exactly the keys whose signature
the first call did not have for their pubkey. -/
theorem getInvalidKeys_revalidates_changed (s : KeysValidationService) {keys keys' : List RegistryKey}
    (wc : String) (hagree : SignaturesAgree keys)
    (hsame : ∀ k' ∈ keys', ∃ k ∈ keys, k.key = k'.key) :
    (getInvalidKeys isValidKey keys' wc (getInvalidKeys isValidKey keys wc s).2).2.validateKeysCalls =
      (getInvalidKeys isValidKey keys wc s).2.validateKeysCalls ++
        [(keys'.filter fun k' => !keys.any fun k =>
          decide (k.key = k'.key) && decide (k.depositSignature = k'.depositSignature), wc)] := by
  have hcached : ∀ key ∈ keys, isCached (getInvalidKeys isValidKey keys wc s).2.cache wc key = true :=
    getInvalidKeys_isCached hagree
  have hiff : ∀ k' ∈ keys', isCached (getInvalidKeys isValidKey keys wc s).2.cache wc k' = true ↔
      ∃ k ∈ keys, k.key = k'.key ∧ k.depositSignature = k'.depositSignature := by
    intro k' hk'
    constructor
    · intro h
      obtain ⟨k, hk, hkey⟩ := hsame k' hk'
      obtain ⟨v, hv⟩ := isCached_iff.1 h
      obtain ⟨v', hv'⟩ := isCached_iff.1 (hcached k hk)
      rw [hkey, hv] at hv'
      exact ⟨k, hk, hkey, (CachedVerdict.mk.inj (Option.some.inj hv')).1.symm⟩
    · rintro ⟨k, hk, hkey, hsig⟩
      exact isCached_congr hkey hsig ▸ hcached k hk
  show _ ++ [(keys'.filter fun k' => !isCached (getInvalidKeys isValidKey keys wc s).2.cache wc k', wc)] = _
  congr 3
  refine List.filter_congr fun k' hk' => congrArg (!·) (Bool.eq_iff_iff.2 ((hiff k' hk').trans ?_))
  simp

theorem getInvalidKeys_revalidates_changed_one_key :
    SignaturesAgree [⟨"0xa", "0xs1", 0, false, 0, "0xm"⟩, ⟨"0xb", "0xs2", 0, false, 1, "0xm"⟩] ∧
    (∀ k' ∈ [(⟨"0xa", "0xs1", 0, false, 0, "0xm"⟩ : RegistryKey), ⟨"0xb", "0xs3", 0, false, 1, "0xm"⟩],
      ∃ k ∈ [(⟨"0xa", "0xs1", 0, false, 0, "0xm"⟩ : RegistryKey), ⟨"0xb", "0xs2", 0, false, 1, "0xm"⟩],
        k.key = k'.key) ∧
    (getInvalidKeys (fun _ signature _ => signature != "0xs2")
        [⟨"0xa", "0xs1", 0, false, 0, "0xm"⟩, ⟨"0xb", "0xs3", 0, false, 1, "0xm"⟩] "0x01"
        (getInvalidKeys (fun _ signature _ => signature != "0xs2")
          [⟨"0xa", "0xs1", 0, false, 0, "0xm"⟩, ⟨"0xb", "0xs2", 0, false, 1, "0xm"⟩] "0x01"
          .empty).2).2.validateKeysCalls =
      (getInvalidKeys (fun _ signature _ => signature != "0xs2")
          [⟨"0xa", "0xs1", 0, false, 0, "0xm"⟩, ⟨"0xb", "0xs2", 0, false, 1, "0xm"⟩] "0x01"
          .empty).2.validateKeysCalls ++
        [([(⟨"0xa", "0xs1", 0, false, 0, "0xm"⟩ : RegistryKey), ⟨"0xb", "0xs3", 0, false, 1, "0xm"⟩].filter
          fun k' => !(List.any [(⟨"0xa", "0xs1", 0, false, 0, "0xm"⟩ : RegistryKey),
            ⟨"0xb", "0xs2", 0, false, 1, "0xm"⟩] fun k =>
              decide (k.key = k'.key) && decide (k.depositSignature = k'.depositSignature)), "0x01")] :=
  ⟨by decide, by decide, getInvalidKeys_revalidates_changed _ _ (by decide) (by decide)⟩

theorem runGetInvalidKeys_cachedFor {wcs : List String} :
    ∀ (calls : List (List RegistryKey × String)) (s : KeysValidationService),
      (∀ call ∈ calls, call.2 ∈ wcs) → CachedFor wcs s.cache →
      CachedFor wcs (runGetInvalidKeys isValidKey calls s).2.cache
  | [], _, _, h => h
  | (keys, wc) :: calls, _, hwcs, h =>
    runGetInvalidKeys_cachedFor calls _ (fun c hc => hwcs c (.tail _ hc))
      (cacheVerdicts_cachedFor (hwcs (keys, wc) (.head _)) _ h)

/-- After calls from the empty cache, a call with withdrawal credentials none of them had
validates all its keys: a change of credentials recomputes every verdict. -/
theorem getInvalidKeys_new_wc_revalidates_all (calls : List (List RegistryKey × String))
    (keys : List RegistryKey) {wc : String} (hwc : ∀ call ∈ calls, call.2 ≠ wc) :
    (getInvalidKeys isValidKey keys wc (runGetInvalidKeys isValidKey calls .empty).2).2.validateKeysCalls =
      (runGetInvalidKeys isValidKey calls .empty).2.validateKeysCalls ++ [(keys, wc)] := by
  have hfor : CachedFor (calls.map (·.2)) (runGetInvalidKeys isValidKey calls .empty).2.cache :=
    runGetInvalidKeys_cachedFor calls _ (fun c hc => List.mem_map_of_mem _ hc) fun _ _ h => nomatch h
  have hnot : ∀ key, isCached (runGetInvalidKeys isValidKey calls .empty).2.cache wc key = false := by
    intro key
    rw [Bool.eq_false_iff, ne_eq, isCached_iff]
    rintro ⟨valid, hvalid⟩
    obtain ⟨call, hcall, hcwc⟩ := List.mem_map.1 (hfor _ _ hvalid)
    exact hwc call hcall hcwc
  show _ ++ [(keys.filter fun key => !isCached (runGetInvalidKeys isValidKey calls .empty).2.cache wc key, wc)] = _
  rw [List.filter_eq_self.2 fun key _ => by rw [hnot]; rfl]

theorem getInvalidKeys_new_wc_revalidates_all_single :
    (∀ call ∈ [([(⟨"0xa", "0xs1", 0, false, 0, "0xm"⟩ : RegistryKey)], "0x01")], call.2 ≠ "0x02") ∧
    (getInvalidKeys (fun _ signature _ => signature != "0xs2") [⟨"0xa", "0xs1", 0, false, 0, "0xm"⟩] "0x02"
        (runGetInvalidKeys (fun _ signature _ => signature != "0xs2")
          [([⟨"0xa", "0xs1", 0, false, 0, "0xm"⟩], "0x01")] .empty).2).2.validateKeysCalls =
      (runGetInvalidKeys (fun _ signature _ => signature != "0xs2")
          [([⟨"0xa", "0xs1", 0, false, 0, "0xm"⟩], "0x01")] .empty).2.validateKeysCalls ++
        [([⟨"0xa", "0xs1", 0, false, 0, "0xm"⟩], "0x02")] :=
  ⟨by decide, getInvalidKeys_new_wc_revalidates_all _ _ (by decide)⟩

/- The spec's scenario: a first call validates every key; the same call again validates none and
gives the same answer; after one key's signature changes, only that key is validated. -/
example :
    let isValidKey := fun (_ signature _ : String) => signature != "0xbad"
    let s₁ := (getInvalidKeys isValidKey
      [⟨"0xa", "0xs1", 0, false, 0, "0xm"⟩, ⟨"0xb", "0xbad", 0, false, 1, "0xm"⟩] "0x01" .empty).2
    let call₂ := getInvalidKeys isValidKey
      [⟨"0xa", "0xs1", 0, false, 0, "0xm"⟩, ⟨"0xb", "0xbad", 0, false, 1, "0xm"⟩] "0x01" s₁
    let call₃ := getInvalidKeys isValidKey
      [⟨"0xa", "0xs1", 0, false, 0, "0xm"⟩, ⟨"0xb", "0xs2", 0, false, 1, "0xm"⟩] "0x01" call₂.2
    call₂.1 = [⟨"0xb", "0xbad", 0, false, 1, "0xm"⟩] ∧ call₃.1 = [] ∧
      call₃.2.validateKeysCalls.map (·.1) =
        [[⟨"0xa", "0xs1", 0, false, 0, "0xm"⟩, ⟨"0xb", "0xbad", 0, false, 1, "0xm"⟩], [],
          [⟨"0xb", "0xs2", 0, false, 1, "0xm"⟩]] := by
  decide

end CouncilDaemon.KeysValidation
