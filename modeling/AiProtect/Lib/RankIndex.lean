import Mathlib.Data.Finmap
import Mathlib.Data.Finset.Max
import Mathlib.Data.Finset.Card
import Mathlib.Data.Prod.Lex

/-! # An ordered secondary index over a finite map

A finite map is kept together with a finite set of `(rank, key)` pairs, ordered
lexicographically, from which the least ranked key is read without a scan of the
map. The index is exact when it holds one pair for each key of the map, carrying
the rank of the value stored there, and nothing else. Each rule below repairs the
index for one update of the map; the least pair of an exact index is the one that a
scan of the map would find.
-/

universe u v w

namespace RankIndex

variable {κ : Type u} {ν : Type v} {ρ : Type w} [DecidableEq κ]

theorem lookup_insert_ite (entries : Finmap fun _ : κ => ν) (k key : κ) (value : ν) :
    (entries.insert k value).lookup key = if key = k then some value else entries.lookup key := by
  split
  · rename_i same
    rw [same, Finmap.lookup_insert]
  · rename_i other
    exact Finmap.lookup_insert_of_ne _ other

theorem lookup_erase_ite (entries : Finmap fun _ : κ => ν) (k key : κ) :
    (entries.erase k).lookup key = if key = k then none else entries.lookup key := by
  split
  · rename_i same
    rw [same, Finmap.lookup_erase]
  · rename_i other
    exact Finmap.lookup_erase_ne other

theorem keys_insert (entries : Finmap fun _ : κ => ν) (k : κ) (value : ν) :
    (entries.insert k value).keys = insert k entries.keys := by
  ext key
  rw [Finmap.mem_keys, Finmap.mem_insert, Finset.mem_insert, Finmap.mem_keys]

theorem keys_erase (entries : Finmap fun _ : κ => ν) (k : κ) : (entries.erase k).keys = entries.keys.erase k := by
  ext key
  rw [Finmap.mem_keys, Finmap.mem_erase, Finset.mem_erase, Finmap.mem_keys]

/-- The least element of a finite set, as the first step of its iterator. -/
def first {α : Type u} [LinearOrder α] (s : Finset α) : Option α :=
  if inhabited : s.Nonempty then some (s.min' inhabited) else none

theorem first_eq_none {α : Type u} [LinearOrder α] {s : Finset α} : first s = none ↔ s = ∅ := by
  simp only [first]
  split
  · rename_i inhabited
    simp only [reduceCtorEq, false_iff]
    exact inhabited.ne_empty
  · rename_i empty
    simpa only [true_iff] using Finset.not_nonempty_iff_eq_empty.mp empty

theorem first_mem {α : Type u} [LinearOrder α] {s : Finset α} {a : α} (h : first s = some a) : a ∈ s := by
  simp only [first] at h
  split at h
  · obtain rfl := Option.some.inj h
    exact s.min'_mem _
  · cases h

theorem first_le {α : Type u} [LinearOrder α] {s : Finset α} {a b : α} (h : first s = some a)
    (member : b ∈ s) : a ≤ b := by
  simp only [first] at h
  split at h
  · obtain rfl := Option.some.inj h
    exact s.min'_le b member
  · cases h

variable (rank : ν → ρ)

/-- The index holds exactly the pairs `(rank value, key)` of the map. -/
def Exact (entries : Finmap fun _ : κ => ν) (index : Finset (ρ ×ₗ κ)) : Prop :=
  ∀ r k, toLex (r, k) ∈ index ↔ ∃ value, entries.lookup k = some value ∧ rank value = r

variable {rank} {entries : Finmap fun _ : κ => ν} {index : Finset (ρ ×ₗ κ)}

namespace Exact

theorem empty : Exact rank (∅ : Finmap fun _ : κ => ν) (∅ : Finset (ρ ×ₗ κ)) := by
  intro r k
  simp only [Finset.notMem_empty, Finmap.lookup_empty, reduceCtorEq, false_and, exists_false]

theorem rank_unique (exact : Exact rank entries index) {k : κ} {value : ν} {r : ρ}
    (found : entries.lookup k = some value) : toLex (r, k) ∈ index ↔ r = rank value := by
  rw [exact r k]
  constructor
  · rintro ⟨other, same, rfl⟩
    rw [found] at same
    exact congrArg rank (Option.some.inj same).symm
  · rintro rfl
    exact ⟨value, found, rfl⟩

theorem untracked (exact : Exact rank entries index) {k : κ} (absent : k ∉ entries) (r : ρ) :
    toLex (r, k) ∉ index := by
  rw [exact r k]
  rintro ⟨value, found, -⟩
  rw [Finmap.lookup_eq_none.mpr absent] at found
  cases found

/-- A value may change without its pair exactly when its rank does not change. -/
theorem insert_same_iff (exact : Exact rank entries index) {k : κ} {old : ν}
    (found : entries.lookup k = some old) (value : ν) :
    Exact rank (entries.insert k value) index ↔ rank value = rank old := by
  constructor
  · intro after
    have pair : toLex (rank old, k) ∈ index := (exact.rank_unique found).mpr rfl
    exact ((after.rank_unique (Finmap.lookup_insert entries)).mp pair).symm
  · intro same r k'
    by_cases eq : k' = k
    · subst k'
      rw [Finmap.lookup_insert, exact.rank_unique found]
      constructor
      · rintro rfl
        exact ⟨value, rfl, same⟩
      · rintro ⟨other, found', rfl⟩
        rw [← Option.some.inj found', same]
    · rw [Finmap.lookup_insert_of_ne _ eq]
      exact exact r k'

theorem card (exact : Exact rank entries index) : index.card = entries.keys.card := by
  apply Finset.card_bij (fun pair _ => (ofLex pair).2)
  · intro pair member
    obtain ⟨value, found, -⟩ := (exact (ofLex pair).1 (ofLex pair).2).mp member
    exact Finmap.mem_keys.mpr (Finmap.mem_iff.mpr ⟨value, found⟩)
  · intro a ha b hb same
    obtain ⟨va, fa, ra⟩ := (exact (ofLex a).1 (ofLex a).2).mp ha
    obtain ⟨vb, fb, rb⟩ := (exact (ofLex b).1 (ofLex b).2).mp hb
    rw [same, fb] at fa
    obtain rfl := Option.some.inj fa
    exact ofLex.injective (Prod.ext (ra.symm.trans rb) same)
  · intro k member
    obtain ⟨value, found⟩ := Finmap.mem_iff.mp (Finmap.mem_keys.mp member)
    exact ⟨toLex (rank value, k), (exact.rank_unique found).mpr rfl, rfl⟩

variable [DecidableEq (ρ ×ₗ κ)]

/-- A new key enters both structures. -/
theorem insert_new (exact : Exact rank entries index) {k : κ} (absent : k ∉ entries) (value : ν) :
    Exact rank (entries.insert k value) (insert (toLex (rank value, k)) index) := by
  intro r k'
  rw [Finset.mem_insert, toLex_inj, Prod.mk.injEq]
  by_cases same : k' = k
  · subst k'
    rw [Finmap.lookup_insert]
    constructor
    · rintro (⟨rfl, -⟩ | old)
      · exact ⟨value, rfl, rfl⟩
      · exact absurd old (exact.untracked absent r)
    · rintro ⟨other, same, rfl⟩
      rw [Option.some.inj same]
      exact .inl ⟨rfl, rfl⟩
  · rw [Finmap.lookup_insert_of_ne _ same, ← exact r k']
    simp only [same, and_false, false_or]

/-- An existing key leaves both structures. -/
theorem erase (exact : Exact rank entries index) {k : κ} {value : ν}
    (found : entries.lookup k = some value) :
    Exact rank (entries.erase k) (index.erase (toLex (rank value, k))) := by
  intro r k'
  rw [Finset.mem_erase, ne_eq, toLex_inj, Prod.mk.injEq]
  by_cases same : k' = k
  · subst k'
    rw [Finmap.lookup_erase, exact.rank_unique found]
    simp only [and_true, reduceCtorEq, false_and, exists_false, iff_false, not_and, imp_self]
  · rw [Finmap.lookup_erase_ne same, ← exact r k']
    simp only [same, and_false, not_false_iff, true_and]

/-- A value changes together with its pair. -/
theorem update (exact : Exact rank entries index) {k : κ} {old : ν}
    (found : entries.lookup k = some old) (value : ν) :
    Exact rank (entries.insert k value)
      (insert (toLex (rank value, k)) (index.erase (toLex (rank old, k)))) := by
  have erased := exact.erase found
  have absent : k ∉ entries.erase k := by simp only [Finmap.mem_erase, ne_eq, not_true, false_and,
    not_false_iff]
  have same : entries.insert k value = (entries.erase k).insert k value := by
    apply Finmap.ext_lookup
    intro k'
    by_cases eq : k' = k
    · subst k'
      rw [Finmap.lookup_insert, Finmap.lookup_insert]
    · rw [Finmap.lookup_insert_of_ne _ eq, Finmap.lookup_insert_of_ne _ eq,
        Finmap.lookup_erase_ne eq]
  rw [same]
  exact erased.insert_new absent value

omit [DecidableEq (ρ ×ₗ κ)] in
theorem first_tracked [LinearOrder (ρ ×ₗ κ)] (exact : Exact rank entries index) {r : ρ} {k : κ}
    (h : first index = some (toLex (r, k))) : ∃ value, entries.lookup k = some value ∧ rank value = r :=
  (exact r k).mp (first_mem h)

end Exact

section Scan

variable {listing : List (κ × ν)}

/-- The entries of a map, in whatever order a pass over it meets them. -/
def Lists (listing : List (κ × ν)) (entries : Finmap fun _ : κ => ν) : Prop :=
  ∀ k value, (k, value) ∈ listing ↔ entries.lookup k = some value

theorem exists_lists (entries : Finmap fun _ : κ => ν) : ∃ listing, Lists listing entries := by
  refine ⟨entries.keys.toList.filterMap fun k => (entries.lookup k).map fun value => (k, value), ?_⟩
  intro k value
  simp only [List.mem_filterMap, Finset.mem_toList, Option.map_eq_some_iff, Prod.mk.injEq]
  constructor
  · rintro ⟨_, -, _, found, rfl, rfl⟩
    exact found
  · intro found
    exact ⟨k, Finmap.mem_keys.mpr (Finmap.mem_of_lookup_eq_some found), value, found, rfl, rfl⟩

/-- The least pair met in one pass over the entries. -/
def scan [LinearOrder (ρ ×ₗ κ)] (rank : ν → ρ) (listing : List (κ × ν)) : Option (ρ ×ₗ κ) :=
  (listing.map fun entry => toLex (rank entry.2, entry.1)).min?

theorem Exact.mem_iff_listed (exact : Exact rank entries index) (lists : Lists listing entries)
    (pair : ρ ×ₗ κ) : pair ∈ index ↔ pair ∈ listing.map fun entry => toLex (rank entry.2, entry.1) := by
  refine (exact (ofLex pair).1 (ofLex pair).2).trans ?_
  rw [List.mem_map]
  constructor
  · rintro ⟨value, found, ranked⟩
    exact ⟨((ofLex pair).2, value), (lists _ _).mpr found, ofLex.injective (Prod.ext ranked rfl)⟩
  · rintro ⟨⟨k, value⟩, member, rfl⟩
    exact ⟨value, (lists k value).mp member, rfl⟩

/-- What the index gives at once is what a pass over the map finds. -/
theorem Exact.scan_eq_first [LinearOrder (ρ ×ₗ κ)] (exact : Exact rank entries index)
    (lists : Lists listing entries) : scan rank listing = first index := by
  cases least : first index with
  | none =>
      rw [scan, List.min?_eq_none_iff, List.eq_nil_iff_forall_not_mem]
      intro pair member
      have inside := (exact.mem_iff_listed lists pair).mpr member
      rw [first_eq_none.mp least] at inside
      exact Finset.notMem_empty pair inside
  | some pair =>
      rw [scan, List.min?_eq_some_iff]
      refine ⟨(exact.mem_iff_listed lists pair).mp (first_mem least), ?_⟩
      intro other member
      exact first_le least ((exact.mem_iff_listed lists other).mpr member)

end Scan

end RankIndex
