import CouncilDaemon.Interfaces
import Mathlib.Data.Rat.Floor

/-! The block ranges of the chunk loop of `DepositRegistryService.updateEventsCache`:
`for (block = first; block <= finalizedBlockNumber; block += DEPOSIT_EVENTS_STEP)`, each chunk
running to `Math.min(finalizedBlockNumber, block + DEPOSIT_EVENTS_STEP - 1)`.

Proved: from `E + 1` to `F` with `E ≤ F`, the loop runs `⌈(F - E) / DEPOSIT_EVENTS_STEP⌉`
times, and its ranges tile `[E + 1, F]`: the first starts at `E + 1`, each next one right after
the previous one, the last stops at `F`, and each holds between one and `DEPOSIT_EVENTS_STEP`
blocks. So the ends of the ranges strictly increase up to `F`. -/

namespace CouncilDaemon.DepositsRegistry

/-- `DEPOSIT_EVENTS_STEP`. -/
def DEPOSIT_EVENTS_STEP : ℕ := 10000

/-- The `[chunkStartBlock, chunkToBlock]` ranges of the loop, from `block` on. -/
def chunks (finalizedBlockNumber block : ℤ) : List (ℤ × ℤ) :=
  if block ≤ finalizedBlockNumber then
    (block, min finalizedBlockNumber (block + DEPOSIT_EVENTS_STEP - 1)) ::
      chunks finalizedBlockNumber (block + DEPOSIT_EVENTS_STEP)
  else []
termination_by (finalizedBlockNumber + 1 - block).toNat
decreasing_by simp only [DEPOSIT_EVENTS_STEP]; omega

/-- `ranges` tile the block range from `a` to `b`: each starts where the previous one stopped,
holds between one and `DEPOSIT_EVENTS_STEP` blocks, and the last one stops at `b`. -/
def Tiles : ℤ → ℤ → List (ℤ × ℤ) → Prop
  | a, b, [] => a = b + 1
  | a, b, (s, t) :: ranges =>
    s = a ∧ 1 ≤ t - s + 1 ∧ t - s + 1 ≤ DEPOSIT_EVENTS_STEP ∧ Tiles (t + 1) b ranges

namespace Tiles

variable {b : ℤ}

theorem bounds : ∀ {a : ℤ} {ranges : List (ℤ × ℤ)}, Tiles a b ranges →
    ∀ r ∈ ranges, a ≤ r.1 ∧ r.1 ≤ r.2 ∧ r.2 ≤ b
  | _, [], _ => by simp
  | a, (s, t) :: ranges, ⟨hs, h1, _, ht⟩ => by
    intro r hr
    rcases List.mem_cons.1 hr with rfl | hr
    · have := bounds ht
      cases ranges with
      | nil => simp only [Tiles] at ht; omega
      | cons r' _ => have := this r' (.head _); omega
    · have := bounds ht r hr
      omega

theorem le_succ {a : ℤ} {ranges : List (ℤ × ℤ)} (h : Tiles a b ranges) : a ≤ b + 1 := by
  cases ranges with
  | nil => exact le_of_eq h
  | cons r _ => have := bounds h r (.head _); omega

theorem pairwise_snd : ∀ {a : ℤ} {ranges : List (ℤ × ℤ)}, Tiles a b ranges →
    (ranges.map Prod.snd).Pairwise (· < ·)
  | _, [], _ => .nil
  | _, (_, t) :: _, ⟨_, _, _, ht⟩ => by
    refine List.Pairwise.cons ?_ (pairwise_snd ht)
    simp only [List.mem_map]
    rintro _ ⟨r, hr, rfl⟩
    have := bounds ht r hr
    omega

theorem getLast?_snd : ∀ {a : ℤ} {ranges : List (ℤ × ℤ)}, Tiles a b ranges → ranges ≠ [] →
    (ranges.map Prod.snd).getLast? = some b
  | _, [(_, t)], ⟨_, _, _, ht⟩, _ => by simp only [Tiles] at ht; simp; omega
  | _, _ :: r :: ranges, ⟨_, _, _, ht⟩, _ => by
    rw [List.map_cons, List.map_cons, List.getLast?_cons_cons, ← List.map_cons]
    exact getLast?_snd ht (List.cons_ne_nil _ _)

end Tiles

theorem chunks_of_lt {F block : ℤ} (h : F < block) : chunks F block = [] := by
  rw [chunks, if_neg (not_le.2 h)]

theorem chunks_of_le {F block : ℤ} (h : block ≤ F) :
    chunks F block = (block, min F (block + DEPOSIT_EVENTS_STEP - 1)) ::
      chunks F (block + DEPOSIT_EVENTS_STEP) := by
  rw [chunks, if_pos h]

/-- From any start up to one past the end, the loop tiles the rest of the range. -/
theorem tiles_chunks (F : ℤ) : ∀ block, block ≤ F + 1 → Tiles block F (chunks F block) := by
  intro block
  induction block using chunks.induct F with
  | case1 block hle ih =>
    intro _
    rw [chunks_of_le hle]
    by_cases hs : block + DEPOSIT_EVENTS_STEP ≤ F + 1
    · rw [min_eq_right (by omega)]
      refine ⟨rfl, by unfold DEPOSIT_EVENTS_STEP; omega, by omega, ?_⟩
      rw [Int.sub_add_cancel]
      exact ih hs
    · rw [min_eq_left (by omega), chunks_of_lt (by omega)]
      exact ⟨rfl, by omega, by omega, rfl⟩
  | case2 block hgt =>
    intro hle
    rw [chunks_of_lt (not_le.1 hgt)]
    show block = F + 1
    omega

theorem length_chunks (F : ℤ) :
    ∀ block, block ≤ F + DEPOSIT_EVENTS_STEP →
      ((chunks F block).length : ℤ) = (F - block + DEPOSIT_EVENTS_STEP) / DEPOSIT_EVENTS_STEP := by
  intro block
  induction block using chunks.induct F with
  | case1 block hle ih =>
    intro _
    rw [chunks_of_le hle, List.length_cons]
    have := ih (by omega)
    unfold DEPOSIT_EVENTS_STEP at *
    omega
  | case2 block hgt =>
    intro hle
    rw [chunks_of_lt (not_le.1 hgt), List.length_nil]
    unfold DEPOSIT_EVENTS_STEP at *
    omega

theorem ceil_div_DEPOSIT_EVENTS_STEP (n : ℤ) :
    ⌈(n : ℚ) / DEPOSIT_EVENTS_STEP⌉ = (n + DEPOSIT_EVENTS_STEP - 1) / DEPOSIT_EVENTS_STEP := by
  rw [← neg_neg ⌈_⌉, ← Int.floor_neg, ← neg_div, ← Int.cast_neg, Rat.floor_intCast_div_natCast]
  unfold DEPOSIT_EVENTS_STEP
  omega

/-- The loop from `E + 1` to `F`, for `E ≤ F`: `⌈(F - E) / DEPOSIT_EVENTS_STEP⌉` iterations whose
ranges tile `[E + 1, F]`, so that the ends of the ranges strictly increase and the last is `F`. -/
theorem chunks_tile {E F : ℤ} (h : E ≤ F) :
    ((chunks F (E + 1)).length : ℤ) = ⌈((F - E : ℤ) : ℚ) / DEPOSIT_EVENTS_STEP⌉ ∧
      Tiles (E + 1) F (chunks F (E + 1)) ∧
      ((chunks F (E + 1)).map Prod.snd).Pairwise (· < ·) ∧
      (E < F → ((chunks F (E + 1)).map Prod.snd).getLast? = some F) := by
  have htiles := tiles_chunks F (E + 1) (by omega)
  refine ⟨?_, htiles, htiles.pairwise_snd, fun hlt => htiles.getLast?_snd ?_⟩
  · rw [length_chunks F (E + 1) (by unfold DEPOSIT_EVENTS_STEP; omega),
      ceil_div_DEPOSIT_EVENTS_STEP]
    congr 1
    omega
  · rw [chunks_of_le (by omega)]
    exact List.cons_ne_nil _ _

/-- The loop from a cached end block `100` to a finalized block `25100`: three chunks. -/
theorem chunks_tile_sample :
    (100 : ℤ) ≤ 25100 ∧
      ((chunks 25100 (100 + 1)).length : ℤ) = ⌈((25100 - 100 : ℤ) : ℚ) / DEPOSIT_EVENTS_STEP⌉ ∧
      Tiles (100 + 1) 25100 (chunks 25100 (100 + 1)) ∧
      ((chunks 25100 (100 + 1)).map Prod.snd).Pairwise (· < ·) ∧
      ((100 : ℤ) < 25100 → ((chunks 25100 (100 + 1)).map Prod.snd).getLast? = some 25100) :=
  ⟨by decide, chunks_tile (by decide)⟩

end CouncilDaemon.DepositsRegistry
