import Mathlib.Data.List.Perm.Basic
import Mathlib.Data.List.Range

namespace InodeVpn.Lib

/-- What an allocator remembers: how many blocks it has handed out, which are numbered in this
order, and which have been given back. -/
structure Ledger where
  next : Nat := 0
  freed : List Nat := []
  deriving DecidableEq, Repr

namespace Ledger

/-- The block that is handed out next is `l.next`. -/
def malloc (l : Ledger) : Ledger := { l with next := l.next + 1 }

def free (blocks : List Nat) (l : Ledger) : Ledger := { l with freed := blocks ++ l.freed }

/-- Every block that was handed out has one owner, or has been given back once. -/
def Balanced (l : Ledger) (owned : List Nat) : Prop := (owned ++ l.freed).Perm (List.range l.next)

instance (l : Ledger) (owned : List Nat) : Decidable (l.Balanced owned) :=
  inferInstanceAs (Decidable (List.Perm _ _))

variable {l : Ledger} {owned owned' blocks : List Nat}

theorem balanced_empty : Balanced {} [] := List.Perm.refl []

/-- Blocks change hands. -/
theorem Balanced.perm (h : l.Balanced owned) (hp : owned'.Perm owned) : l.Balanced owned' :=
  (hp.append_right l.freed).trans h

theorem Balanced.malloc (h : l.Balanced owned) : l.malloc.Balanced (l.next :: owned) := by
  rw [Balanced, Ledger.malloc, List.range_succ]
  exact (List.Perm.cons l.next h).trans (List.perm_append_singleton l.next _).symm

/-- The owner of some blocks gives them back. -/
theorem Balanced.free (h : l.Balanced (blocks ++ owned)) : (l.free blocks).Balanced owned := by
  have hmoved : (owned ++ (blocks ++ l.freed)).Perm (blocks ++ owned ++ l.freed) := by
    rw [← List.append_assoc]
    exact List.perm_append_comm.append_right l.freed
  exact hmoved.trans h

theorem Balanced.nodup (h : l.Balanced owned) : (owned ++ l.freed).Nodup :=
  h.nodup_iff.mpr List.nodup_range

/-- No block is given back twice. -/
theorem Balanced.freed_nodup (h : l.Balanced owned) : l.freed.Nodup :=
  (List.nodup_append.mp h.nodup).2.1

/-- No owner has a block that has been given back. -/
theorem Balanced.not_freed (h : l.Balanced owned) {b : Nat} (hb : b ∈ owned) : b ∉ l.freed :=
  fun hfreed => (List.nodup_append.mp h.nodup).2.2 b hb b hfreed rfl

/-- No block is lost. -/
theorem Balanced.accounted (h : l.Balanced owned) {b : Nat} (hb : b < l.next) :
    b ∈ owned ∨ b ∈ l.freed :=
  List.mem_append.mp (h.mem_iff.mpr (List.mem_range.mpr hb))

end Ledger

end InodeVpn.Lib
