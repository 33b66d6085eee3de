import Microwatt.Helpers

/-!
# Tree pseudo-LRU

`plrufn.vhdl`. The `2 ^ bits - 1` nodes of the tree are numbered from the root, node `n` having
the children `2 n + 1` and `2 n + 2`; a set node points to its second child.

## Main definitions

* `Plru.lru` — the way the tree points to
* `Plru.update` — the tree after an access to a way
-/

namespace Microwatt

namespace Plru

/-- The tree for `2 ^ bits` ways. -/
abbrev Tree (bits : ℕ) := BitVec (2 ^ bits - 1)

/-- The child of a node. -/
def child (node : ℕ) (abit : Bool) : ℕ := 2 * node + if abit then 2 else 1

/-- `get_lru`, with `k` levels left. -/
def lruFrom {n : ℕ} (treeIn : BitVec n) : (k : ℕ) → (node : ℕ) → BitVec k
  | 0, _ => 0#0
  | k + 1, node =>
    BitVec.cons (treeIn.getLsbD node) (lruFrom treeIn k (child node (treeIn.getLsbD node)))

/-- `update_lru`, with `k` levels left. -/
def updateFrom {bits n : ℕ} (acc : BitVec bits) : (k : ℕ) → (node : ℕ) → BitVec n → BitVec n
  | 0, _, tree => tree
  | k + 1, node, tree =>
    updateFrom acc k (child node (acc.getLsbD k)) (setBit tree node (!acc.getLsbD k))

/-- The output `lru`: the way to be replaced. -/
def lru {bits : ℕ} (treeIn : Tree bits) : BitVec bits := lruFrom treeIn bits 0

/-- The output `tree_out`. -/
def update {bits : ℕ} (acc : BitVec bits) (treeIn : Tree bits) : Tree bits :=
  updateFrom acc bits 0 treeIn

end Plru

end Microwatt
