import Mathlib.Data.Nat.Bitwise
import Mathlib.Data.List.Basic
import Mathlib.Data.List.GetD
import Mathlib.Logic.Function.Basic

/-! The sanity checker's deposit tree, `DepositTree`, modelled from the spec (the repository holds
its tests, not its source): the incremental Merkle tree of the deposit contract. The tree keeps
one branch node per height and the number of leaves. `insertNode` climbs from the new leaf while
the height's bit of the new count is clear, hashing the branch nodes it passes into it, and keeps
the node at the first height whose bit is set; `getRoot` folds the branch nodes with the zero
hashes and mixes in the count. The hash of two nodes, `digest2Bytes32`, and the encoding of the
count are parameters; leaves are the deposit data roots.

Proved: the tree built by inserting fewer than `2 ^ DEPOSIT_CONTRACT_TREE_DEPTH` leaves one by one
counts them, and its root is the root of the full Merkle tree of depth
`DEPOSIT_CONTRACT_TREE_DEPTH` over the leaves padded with `ZERO_HASH`, mixed with their count. -/

namespace CouncilDaemon.DepositsRegistry

/-- `DepositTree.DEPOSIT_CONTRACT_TREE_DEPTH`. -/
def DEPOSIT_CONTRACT_TREE_DEPTH : ℕ := 32

/-! ### Bits of a count -/

theorem div_two_pow_succ (n h : ℕ) : n / 2 ^ (h + 1) = n / 2 ^ h / 2 := by
  rw [Nat.pow_succ, Nat.div_div_eq_div_mul]

/-- Below the lowest set bit of `n + 1` the bits of `n` are set: `n` shifted by a height up to
that bit is one less than `n + 1` shifted. -/
theorem div_two_pow_of_dvd_succ {n h : ℕ} (hdvd : 2 ^ h ∣ n + 1) :
    0 < (n + 1) / 2 ^ h ∧ n / 2 ^ h = (n + 1) / 2 ^ h - 1 := by
  have hpos := Nat.two_pow_pos h
  have hmul := Nat.div_mul_cancel hdvd
  have hs : 0 < (n + 1) / 2 ^ h := Nat.div_pos (Nat.le_of_dvd (Nat.succ_pos n) hdvd) hpos
  refine ⟨hs, Nat.div_eq_of_lt_le ?_ ?_⟩
  · rw [Nat.sub_one_mul]
    omega
  · rw [Nat.sub_add_cancel hs]
    omega

/-- Above the lowest set bit of `n + 1`, `n` and `n + 1` have the same bits. -/
theorem div_two_pow_succ_eq {n h h' : ℕ} (hdvd : 2 ^ h ∣ n + 1) (hbit : (n + 1) / 2 ^ h % 2 = 1)
    (hh : h < h') : (n + 1) / 2 ^ h' = n / 2 ^ h' := by
  obtain ⟨j, rfl⟩ := Nat.exists_eq_add_of_lt hh
  have hq := (div_two_pow_of_dvd_succ hdvd).2
  have hshift : ∀ m, m / 2 ^ (h + j + 1) = m / 2 ^ h / 2 / 2 ^ j := fun m => by
    rw [show h + j + 1 = h + 1 + j by omega, Nat.pow_add, Nat.pow_succ, Nat.div_div_eq_div_mul,
      Nat.div_div_eq_div_mul, Nat.mul_assoc]
  rw [hshift, hshift, hq]
  congr 1
  generalize (n + 1) / 2 ^ h = s at hbit ⊢
  omega

theorem div_two_pow_mod_two_of_dvd {m h h' : ℕ} (hdvd : 2 ^ h ∣ m) (hh : h' < h) :
    m / 2 ^ h' % 2 = 0 := by
  obtain ⟨c, rfl⟩ := Nat.dvd_trans (Nat.pow_dvd_pow 2 hh) hdvd
  rw [Nat.pow_succ, Nat.mul_assoc, Nat.mul_div_cancel_left _ (Nat.two_pow_pos h')]
  omega

/-! ### The tree -/

/-- The deposit tree: the branch node kept at each height, and the number of leaves. -/
structure DepositTree (H : Type) where
  branch : ℕ → H
  nodeCount : ℕ

section DepositTree

variable {H : Type} (digest2Bytes32 : H → H → H) (ZERO_HASH : H)

/-- `zeroHashes`: the root of a subtree of each height whose leaves are all `ZERO_HASH`. -/
def zeroHashes : ℕ → H
  | 0 => ZERO_HASH
  | i + 1 => digest2Bytes32 (zeroHashes i) (zeroHashes i)

/-- `new DepositTree()`: no leaves. -/
def DepositTree.empty : DepositTree H :=
  ⟨fun _ => ZERO_HASH, 0⟩

/-- The loop of `insertNode` from height `h`, with `size` the new count shifted right by `h`,
`node` the new leaf's ancestor at height `h`, and `fuel` heights left. -/
def insertLoop (branch : ℕ → H) : ℕ → ℕ → H → ℕ → ℕ → H
  | _, _, _, 0 => branch
  | h, size, node, fuel + 1 =>
    if size &&& 1 = 1 then Function.update branch h node
    else insertLoop branch (h + 1) (size >>> 1) (digest2Bytes32 (branch h) node) fuel

/-- `insertNode`. -/
def insertNode (t : DepositTree H) (node : H) : DepositTree H :=
  let nodeCount := t.nodeCount + 1
  ⟨insertLoop digest2Bytes32 t.branch 0 nodeCount node DEPOSIT_CONTRACT_TREE_DEPTH, nodeCount⟩

/-- The loop of `getRoot` from height `h`, with `node` the node reached so far and `fuel` heights
left. -/
def rootLoop (branch : ℕ → H) (nodeCount : ℕ) : ℕ → H → ℕ → H
  | _, node, 0 => node
  | h, node, fuel + 1 =>
    rootLoop branch nodeCount (h + 1)
      (if (nodeCount >>> h) &&& 1 = 1 then digest2Bytes32 (branch h) node
        else digest2Bytes32 node (zeroHashes digest2Bytes32 ZERO_HASH h)) fuel

/-- `getRoot`, with `toLittleEndian64` the node encoding the count. -/
def getRoot (toLittleEndian64 : ℕ → H) (t : DepositTree H) : H :=
  digest2Bytes32
    (rootLoop digest2Bytes32 ZERO_HASH t.branch t.nodeCount 0
      (zeroHashes digest2Bytes32 ZERO_HASH 0) DEPOSIT_CONTRACT_TREE_DEPTH)
    (toLittleEndian64 t.nodeCount)

/-- The tree of `leaves`, inserted one by one into a new tree. -/
def DepositTree.ofLeaves (leaves : List H) : DepositTree H :=
  leaves.foldl (insertNode digest2Bytes32) (DepositTree.empty ZERO_HASH)

/-! ### The full Merkle tree -/

/-- The node at height `h` and index `i` of the full Merkle tree over `leaves` padded with
`ZERO_HASH`. -/
def merkleNode (leaves : List H) : ℕ → ℕ → H
  | 0, i => leaves.getD i ZERO_HASH
  | h + 1, i => digest2Bytes32 (merkleNode leaves h (2 * i)) (merkleNode leaves h (2 * i + 1))

/-- The deposit root of `leaves`: the root of their full Merkle tree, mixed with their count. -/
def merkleRoot (toLittleEndian64 : ℕ → H) (leaves : List H) : H :=
  digest2Bytes32 (merkleNode digest2Bytes32 ZERO_HASH leaves DEPOSIT_CONTRACT_TREE_DEPTH 0)
    (toLittleEndian64 leaves.length)

theorem merkleNode_of_length_le (leaves : List H) :
    ∀ h i, leaves.length ≤ 2 ^ h * i →
      merkleNode digest2Bytes32 ZERO_HASH leaves h i = zeroHashes digest2Bytes32 ZERO_HASH h
  | 0, i, hi => List.getD_eq_default _ _ (by simpa using hi)
  | h + 1, i, hi => by
    have hpos := Nat.two_pow_pos h
    have e : 2 ^ (h + 1) * i = 2 ^ h * (2 * i) := by rw [Nat.pow_succ, Nat.mul_assoc]
    have e' : 2 ^ h * (2 * i + 1) = 2 ^ h * (2 * i) + 2 ^ h := Nat.mul_succ _ _
    rw [merkleNode, zeroHashes, merkleNode_of_length_le leaves h (2 * i) (by omega),
      merkleNode_of_length_le leaves h (2 * i + 1) (by omega)]

/-- A node whose leaves all lie before the end of `leaves` does not change when leaves are
appended. -/
theorem merkleNode_append (leaves extra : List H) :
    ∀ h i, 2 ^ h * (i + 1) ≤ leaves.length →
      merkleNode digest2Bytes32 ZERO_HASH (leaves ++ extra) h i =
        merkleNode digest2Bytes32 ZERO_HASH leaves h i
  | 0, i, hi => List.getD_append _ _ _ _ (by simpa using hi)
  | h + 1, i, hi => by
    have e : 2 ^ (h + 1) * (i + 1) = 2 ^ h * (2 * i + 1 + 1) := by
      rw [Nat.pow_succ, Nat.mul_assoc]
      congr 1
    have e' : 2 ^ h * (2 * i + 1) ≤ 2 ^ h * (2 * i + 1 + 1) := Nat.mul_le_mul_left _ (by omega)
    rw [merkleNode, merkleNode, merkleNode_append leaves extra h (2 * i) (by omega),
      merkleNode_append leaves extra h (2 * i + 1) (by omega)]

/-- The complete node of height `h` just before the first empty position `n` of `leaves`, when
bit `h` of `n` is set, does not change when leaves are appended. -/
theorem merkleNode_append_of_bit (leaves extra : List H) {h : ℕ}
    (hbit : leaves.length / 2 ^ h % 2 = 1) :
    merkleNode digest2Bytes32 ZERO_HASH (leaves ++ extra) h (leaves.length / 2 ^ h - 1) =
      merkleNode digest2Bytes32 ZERO_HASH leaves h (leaves.length / 2 ^ h - 1) :=
  have hpos : 1 ≤ leaves.length / 2 ^ h := Nat.pos_of_ne_zero fun h0 => by simp [h0] at hbit
  merkleNode_append digest2Bytes32 ZERO_HASH leaves extra h _ (by
    rw [Nat.sub_add_cancel hpos]
    exact Nat.mul_div_le _ _)

/-! ### The tree refines the full Merkle tree -/

/-- The tree holds `leaves`: it counts them, and at each height whose bit of the count is set it
keeps the last complete node of that height. -/
structure Holds (t : DepositTree H) (leaves : List H) : Prop where
  nodeCount_eq : t.nodeCount = leaves.length
  branch_eq : ∀ h < DEPOSIT_CONTRACT_TREE_DEPTH, leaves.length / 2 ^ h % 2 = 1 →
    t.branch h = merkleNode digest2Bytes32 ZERO_HASH leaves h (leaves.length / 2 ^ h - 1)

theorem Holds.empty : Holds digest2Bytes32 ZERO_HASH (DepositTree.empty ZERO_HASH) [] :=
  ⟨rfl, fun _ _ hbit => by simp at hbit⟩

variable {digest2Bytes32 ZERO_HASH}

/-- The insert loop from height `h`, below which the bits of the new count are clear and where
`node` is the new leaf's ancestor, stores at each height whose bit of the new count is set the last
complete node of that height over the leaves with the new one. -/
theorem insertLoop_eq {t : DepositTree H} {leaves : List H}
    (hholds : Holds digest2Bytes32 ZERO_HASH t leaves) (x : H)
    (hlt : leaves.length + 1 < 2 ^ DEPOSIT_CONTRACT_TREE_DEPTH) :
    ∀ fuel h node, h + fuel = DEPOSIT_CONTRACT_TREE_DEPTH → 2 ^ h ∣ leaves.length + 1 →
      node = merkleNode digest2Bytes32 ZERO_HASH (leaves ++ [x]) h (leaves.length / 2 ^ h) →
      ∀ h' < DEPOSIT_CONTRACT_TREE_DEPTH, (leaves.length + 1) / 2 ^ h' % 2 = 1 →
        insertLoop digest2Bytes32 t.branch h ((leaves.length + 1) / 2 ^ h) node fuel h' =
          merkleNode digest2Bytes32 ZERO_HASH (leaves ++ [x]) h' ((leaves.length + 1) / 2 ^ h' - 1)
  | 0, h, _, hfuel, hdvd, _ => by
    rw [Nat.add_zero] at hfuel
    subst hfuel
    have := Nat.le_of_dvd (Nat.succ_pos _) hdvd
    omega
  | fuel + 1, h, node, hfuel, hdvd, hnode => by
    obtain ⟨hs, hq⟩ := div_two_pow_of_dvd_succ hdvd
    intro h' hh' hbit'
    rw [insertLoop, Nat.and_one_is_mod]
    split
    · -- bit `h` of the new count is set: the ancestor is stored here
      rename_i hbit
      rcases lt_trichotomy h' h with hlt' | rfl | hgt
      · rw [div_two_pow_mod_two_of_dvd hdvd hlt'] at hbit'
        cases hbit'
      · rw [Function.update_same, hnode, hq]
      · rw [Function.update_noteq hgt.ne', div_two_pow_succ_eq hdvd hbit hgt] at *
        rw [hholds.branch_eq h' hh' hbit', merkleNode_append_of_bit _ _ _ _ hbit']
    · -- bit `h` of the new count is clear, so that of the old count is set: climb one height
      rename_i hbit
      have hqbit : leaves.length / 2 ^ h % 2 = 1 := by
        rw [hq]
        generalize (leaves.length + 1) / 2 ^ h = s at hs hbit ⊢
        omega
      have hdvd' : 2 ^ (h + 1) ∣ leaves.length + 1 := by
        rw [Nat.pow_succ]
        exact Nat.mul_dvd_of_dvd_div hdvd (Nat.dvd_of_mod_eq_zero (Nat.mod_two_ne_one.1 hbit))
      have hnode' : digest2Bytes32 (t.branch h) node =
          merkleNode digest2Bytes32 ZERO_HASH (leaves ++ [x]) (h + 1)
            (leaves.length / 2 ^ (h + 1)) := by
        have hleft : 2 * (leaves.length / 2 ^ h / 2) + 1 = leaves.length / 2 ^ h :=
          hqbit ▸ Nat.div_add_mod _ 2
        rw [merkleNode, div_two_pow_succ, hleft, Nat.two_mul_odd_div_two hqbit,
          hholds.branch_eq h (by omega) hqbit, ← merkleNode_append_of_bit _ _ _ [x] hqbit, hnode]
      rw [Nat.shiftRight_one, ← div_two_pow_succ]
      exact insertLoop_eq hholds x hlt fuel (h + 1) _ (by omega) hdvd' hnode' h' hh' hbit'

theorem Holds.insert {t : DepositTree H} {leaves : List H}
    (hholds : Holds digest2Bytes32 ZERO_HASH t leaves) (x : H)
    (hlt : leaves.length + 1 < 2 ^ DEPOSIT_CONTRACT_TREE_DEPTH) :
    Holds digest2Bytes32 ZERO_HASH (insertNode digest2Bytes32 t x) (leaves ++ [x]) where
  nodeCount_eq := by simp [insertNode, hholds.nodeCount_eq]
  branch_eq h hh hbit := by
    have hloop := insertLoop_eq hholds x hlt DEPOSIT_CONTRACT_TREE_DEPTH 0 x (Nat.zero_add _)
      (by simp) (by simp [merkleNode])
    simp only [Nat.pow_zero, Nat.div_one] at hloop
    rw [List.length_append, List.length_singleton] at hbit ⊢
    simpa only [insertNode, hholds.nodeCount_eq] using hloop h hh hbit

theorem holds_ofLeaves (leaves : List H) (hlt : leaves.length < 2 ^ DEPOSIT_CONTRACT_TREE_DEPTH) :
    Holds digest2Bytes32 ZERO_HASH (DepositTree.ofLeaves digest2Bytes32 ZERO_HASH leaves) leaves := by
  induction leaves using List.reverseRecOn with
  | nil => exact Holds.empty digest2Bytes32 ZERO_HASH
  | append_singleton leaves x ih =>
    rw [List.length_append, List.length_singleton] at hlt
    rw [DepositTree.ofLeaves, List.foldl_append]
    exact (ih (by omega)).insert x hlt

/-- The root loop from height `h`, where `node` is the node of height `h` over the first empty
position, reaches the node of height `h + fuel` over it. -/
theorem rootLoop_eq {t : DepositTree H} {leaves : List H}
    (hholds : Holds digest2Bytes32 ZERO_HASH t leaves) :
    ∀ fuel h node, h + fuel ≤ DEPOSIT_CONTRACT_TREE_DEPTH →
      node = merkleNode digest2Bytes32 ZERO_HASH leaves h (leaves.length / 2 ^ h) →
      rootLoop digest2Bytes32 ZERO_HASH t.branch t.nodeCount h node fuel =
        merkleNode digest2Bytes32 ZERO_HASH leaves (h + fuel) (leaves.length / 2 ^ (h + fuel))
  | 0, _, _, _, hnode => hnode
  | fuel + 1, h, node, hfuel, hnode => by
    rw [rootLoop, show h + (fuel + 1) = h + 1 + fuel by omega]
    refine rootLoop_eq hholds fuel (h + 1) _ (by omega) ?_
    rw [merkleNode, div_two_pow_succ, Nat.shiftRight_eq_div_pow, Nat.and_one_is_mod,
      hholds.nodeCount_eq]
    split
    · -- bit `h` set: the branch node is the left sibling
      rename_i hbit
      have hleft : 2 * (leaves.length / 2 ^ h / 2) + 1 = leaves.length / 2 ^ h :=
        hbit ▸ Nat.div_add_mod _ 2
      rw [hleft, Nat.two_mul_odd_div_two hbit, hholds.branch_eq h (by omega) hbit, hnode]
    · -- bit `h` clear: the right sibling lies past the leaves
      rename_i hbit
      rw [hnode, Nat.two_mul_div_two_of_even (Nat.even_iff.2 (Nat.mod_two_ne_one.1 hbit)),
        merkleNode_of_length_le _ _ leaves h (leaves.length / 2 ^ h + 1)
          (Nat.lt_mul_div_succ leaves.length (Nat.two_pow_pos h)).le]

theorem Holds.getRoot_eq {t : DepositTree H} {leaves : List H}
    (hholds : Holds digest2Bytes32 ZERO_HASH t leaves)
    (hlt : leaves.length < 2 ^ DEPOSIT_CONTRACT_TREE_DEPTH) (toLittleEndian64 : ℕ → H) :
    getRoot digest2Bytes32 ZERO_HASH toLittleEndian64 t =
      merkleRoot digest2Bytes32 ZERO_HASH toLittleEndian64 leaves := by
  have hstart : zeroHashes digest2Bytes32 ZERO_HASH 0 =
      merkleNode digest2Bytes32 ZERO_HASH leaves 0 (leaves.length / 2 ^ 0) := by
    rw [Nat.pow_zero, Nat.div_one, merkleNode, zeroHashes, List.getD_eq_default _ _ le_rfl]
  have hroot := rootLoop_eq hholds DEPOSIT_CONTRACT_TREE_DEPTH 0 _ (by omega) hstart
  rw [Nat.zero_add, Nat.div_eq_of_lt hlt] at hroot
  rw [getRoot, merkleRoot, hroot, hholds.nodeCount_eq]

/-- The tree of fewer than `2 ^ DEPOSIT_CONTRACT_TREE_DEPTH` leaves inserted one by one counts
them, and its root is the deposit root of the leaves: the root of their full Merkle tree padded
with `ZERO_HASH`, mixed with their count. -/
theorem getRoot_ofLeaves (toLittleEndian64 : ℕ → H) (leaves : List H)
    (hlt : leaves.length < 2 ^ DEPOSIT_CONTRACT_TREE_DEPTH) :
    getRoot digest2Bytes32 ZERO_HASH toLittleEndian64
        (DepositTree.ofLeaves digest2Bytes32 ZERO_HASH leaves) =
      merkleRoot digest2Bytes32 ZERO_HASH toLittleEndian64 leaves ∧
    (DepositTree.ofLeaves digest2Bytes32 ZERO_HASH leaves).nodeCount = leaves.length :=
  ⟨(holds_ofLeaves leaves hlt).getRoot_eq hlt toLittleEndian64,
    (holds_ofLeaves leaves hlt).nodeCount_eq⟩

end DepositTree

/-- Three leaves, with the concatenation of strings as the hash. -/
theorem getRoot_ofLeaves_three_leaves :
    ["0xr1", "0xr2", "0xr3"].length < 2 ^ DEPOSIT_CONTRACT_TREE_DEPTH ∧
    getRoot (· ++ ·) "0x0" toString (DepositTree.ofLeaves (· ++ ·) "0x0" ["0xr1", "0xr2", "0xr3"]) =
        merkleRoot (· ++ ·) "0x0" toString ["0xr1", "0xr2", "0xr3"] ∧
      (DepositTree.ofLeaves (· ++ ·) "0x0" ["0xr1", "0xr2", "0xr3"]).nodeCount =
        ["0xr1", "0xr2", "0xr3"].length :=
  have hlt : ["0xr1", "0xr2", "0xr3"].length < 2 ^ DEPOSIT_CONTRACT_TREE_DEPTH := by decide
  ⟨hlt, getRoot_ofLeaves toString _ hlt⟩

end CouncilDaemon.DepositsRegistry
