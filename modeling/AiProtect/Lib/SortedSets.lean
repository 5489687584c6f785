import Mathlib.Data.Finset.Sort
import Mathlib.Data.Prod.Lex

/-! # A keyspace of sorted sets

The commands of a store whose keys hold sets of scored members. A key with an
empty set is the same as an absent key. Each command is one step on the keyspace;
the lemmas say which scored members it leaves in place.
-/

universe u v w

namespace SortedSets

variable {κ : Type u} {σ : Type v} {μ : Type w}

/-- A set of members ordered by score, then by member. -/
abbrev SortedSet (σ : Type v) (μ : Type w) := Finset (σ ×ₗ μ)

def Keyspace (κ : Type u) (σ : Type v) (μ : Type w) := κ → SortedSet σ μ

variable [DecidableEq κ] [LinearOrder σ] [LinearOrder μ]

namespace Keyspace

def put (keyspace : Keyspace κ σ μ) (key : κ) (set : SortedSet σ μ) : Keyspace κ σ μ :=
  fun other => if other = key then set else keyspace other

/-- `ZADD`: a member that is there already gets the new score. -/
def zadd (keyspace : Keyspace κ σ μ) (key : κ) (score : σ) (member : μ) : Keyspace κ σ μ :=
  keyspace.put key
    (insert (toLex (score, member)) ((keyspace key).filter fun entry => (ofLex entry).2 ≠ member))

/-- `ZREMRANGEBYSCORE` from minus infinity up to, and without, `bound`. -/
def zremrangebyscore (keyspace : Keyspace κ σ μ) (key : κ) (bound : σ) : Keyspace κ σ μ :=
  keyspace.put key ((keyspace key).filter fun entry => bound ≤ (ofLex entry).1)

/-- `ZRANGE` over the whole set, with scores. -/
def zrange (keyspace : Keyspace κ σ μ) (key : κ) : List (σ ×ₗ μ) := (keyspace key).sort (· ≤ ·)

def zcard (keyspace : Keyspace κ σ μ) (key : κ) : ℕ := (keyspace key).card

def del (keyspace : Keyspace κ σ μ) (key : κ) : Keyspace κ σ μ := keyspace.put key ∅

variable {keyspace : Keyspace κ σ μ} {key other : κ} {score bound : σ} {member : μ} {entry : σ ×ₗ μ}

omit [LinearOrder σ] [LinearOrder μ] in
theorem put_self (keyspace : Keyspace κ σ μ) (key : κ) (set : SortedSet σ μ) : keyspace.put key set key = set :=
  if_pos rfl

omit [LinearOrder σ] [LinearOrder μ] in
theorem put_of_ne (keyspace : Keyspace κ σ μ) (ne : other ≠ key) (set : SortedSet σ μ) :
    keyspace.put key set other = keyspace other :=
  if_neg ne

theorem mem_zadd : entry ∈ keyspace.zadd key score member other ↔
    (other = key ∧ entry = toLex (score, member)) ∨
      (entry ∈ keyspace other ∧ (other = key → (ofLex entry).2 ≠ member)) := by
  by_cases same : other = key
  · subst same
    rw [zadd, put_self, Finset.mem_insert, Finset.mem_filter]
    simp only [true_and, forall_const]
  · rw [zadd, put_of_ne _ same]
    simp only [same, false_and, false_or, false_implies, and_true]

omit [LinearOrder μ] in
theorem mem_zremrangebyscore : entry ∈ keyspace.zremrangebyscore key bound other ↔
    entry ∈ keyspace other ∧ (other = key → bound ≤ (ofLex entry).1) := by
  by_cases same : other = key
  · subst same
    rw [zremrangebyscore, put_self, Finset.mem_filter]
    simp only [forall_const]
  · rw [zremrangebyscore, put_of_ne _ same]
    simp only [same, false_implies, and_true]

omit [LinearOrder σ] [LinearOrder μ] in
theorem mem_del : entry ∈ keyspace.del key other ↔ entry ∈ keyspace other ∧ other ≠ key := by
  by_cases same : other = key
  · subst same
    rw [del, put_self]
    simp only [Finset.notMem_empty, ne_eq, not_true_eq_false, and_false]
  · rw [del, put_of_ne _ same]
    simp only [ne_eq, same, not_false_eq_true, and_true]

end Keyspace

end SortedSets
