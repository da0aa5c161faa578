import CouncilDaemon.Interfaces

/-! The deposit-events store. `DEPOSIT_CACHE_DEFAULT` is in the sources; the store service
`DepositsRegistryStoreService` is not, and is modelled from the spec: events are kept under the
key `(blockNumber, logIndex)` and read back in key order, a write under a key already present
replaces its event, the headers sit under their own keys, a batch writes headers and events at
once, and a read with no headers stored gives `DEPOSIT_CACHE_DEFAULT`.

Proved: putting events whose keys all exceed the stored ones, in increasing key order, appends
them. -/

namespace CouncilDaemon.DepositsRegistry

/-- The `headers` of a deposit-events cache. -/
structure Headers where
  startBlock : ℤ
  endBlock : ℤ
  deriving DecidableEq, Repr

/-- `VerifiedDepositEventsCache`: what a read of the store returns. -/
structure VerifiedDepositEventsCache where
  headers : Headers
  data : List VerifiedDepositEvent
  lastValidEvent : Option VerifiedDepositEvent
  deriving DecidableEq, Repr

/-- `DEPOSIT_CACHE_DEFAULT`. -/
def DEPOSIT_CACHE_DEFAULT : VerifiedDepositEventsCache := ⟨⟨0, 0⟩, [], none⟩

/-- Modelled from the spec: the contents of the store, its events in key order. -/
structure DepositsRegistryStore where
  headers : Option Headers
  data : List VerifiedDepositEvent
  lastValidEvent : Option VerifiedDepositEvent
  deriving DecidableEq, Repr

/-- Modelled from the spec: the store before anything is written. -/
def DepositsRegistryStore.empty : DepositsRegistryStore := ⟨none, [], none⟩

/-- Modelled from the spec: one put under the key `(blockNumber, logIndex)`, in key order. -/
def putEvent (e : VerifiedDepositEvent) : List VerifiedDepositEvent → List VerifiedDepositEvent
  | [] => [e]
  | x :: xs =>
    if e.position < x.position then e :: x :: xs
    else if e.position = x.position then e :: xs
    else x :: putEvent e xs

/-- Modelled from the spec: `insertEventsCacheBatch`, one atomic batch of the headers and the
events. -/
def insertEventsCacheBatch (store : DepositsRegistryStore) (headers : Headers)
    (data : List VerifiedDepositEvent) : DepositsRegistryStore :=
  { store with headers := some headers, data := data.foldl (fun d e => putEvent e d) store.data }

/-- Modelled from the spec: `insertLastValidEvent`. -/
def insertLastValidEvent (store : DepositsRegistryStore) (event : VerifiedDepositEvent) :
    DepositsRegistryStore :=
  { store with lastValidEvent := some event }

/-- Modelled from the spec: `getEventsCache`, or `DEPOSIT_CACHE_DEFAULT` with no headers
stored. -/
def getEventsCache (store : DepositsRegistryStore) : VerifiedDepositEventsCache :=
  match store.headers with
  | none => DEPOSIT_CACHE_DEFAULT
  | some headers => ⟨headers, store.data, store.lastValidEvent⟩

/-! ### Appending puts -/

theorem putEvent_of_lt {e : VerifiedDepositEvent} :
    ∀ {xs : List VerifiedDepositEvent}, (∀ x ∈ xs, x.position < e.position) →
      putEvent e xs = xs ++ [e]
  | [], _ => rfl
  | x :: xs, h => by
    rw [List.forall_mem_cons] at h
    rw [putEvent, if_neg (not_lt.2 h.1.le), if_neg (ne_of_gt h.1), putEvent_of_lt h.2]
    rfl

theorem foldl_putEvent_of_lt :
    ∀ {ys xs : List VerifiedDepositEvent}, ys.Pairwise (·.position < ·.position) →
      (∀ x ∈ xs, ∀ y ∈ ys, x.position < y.position) →
      ys.foldl (fun d e => putEvent e d) xs = xs ++ ys
  | [], _, _, _ => by simp
  | y :: ys, xs, hys, h => by
    rw [List.pairwise_cons] at hys
    rw [List.foldl_cons, putEvent_of_lt fun x hx => h x hx y (.head _),
      foldl_putEvent_of_lt hys.2, List.append_assoc, List.singleton_append]
    intro x hx z hz
    rcases List.mem_append.1 hx with hx | hx
    · exact h x hx z (.tail _ hz)
    · rw [List.mem_singleton.1 hx]
      exact hys.1 z hz

end CouncilDaemon.DepositsRegistry
