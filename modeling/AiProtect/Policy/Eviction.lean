import AiProtect.Policy.Capacity

/-! # Eviction by the index and eviction by a scan

The activity index stands in for a pass over all tracked identities that looks for the
least active one. While the index is exact, eviction through it removes the identities
that such passes would remove, in the same order.
-/

namespace AiProtect

open RankIndex

namespace History

/-- Eviction without an index: as long as more than `targetLen` identities are tracked, a
    pass over all of them finds the least last activity, then identity, to remove. -/
inductive ScanEvicts (targetLen : Nat) :
    (Finmap fun _ : Identity => List Int) → (Finmap fun _ : Identity => List Int) → Prop where
  | done {entries : Finmap fun _ : Identity => List Int} (small : entries.keys.card ≤ targetLen) :
      ScanEvicts targetLen entries entries
  | remove {entries final : Finmap fun _ : Identity => List Int} (more : targetLen < entries.keys.card)
      {listing : List (Identity × List Int)} (lists : Lists listing entries) {stalest : ActivityEntry}
      (least : scan activityKey listing = some stalest)
      (rest : ScanEvicts targetLen (entries.erase (ofLex stalest).2) final) : ScanEvicts targetLen entries final

variable {targetLen : Nat} {history final : History}

theorem IndexInSync.covered (sync : history.IndexInSync) : history.Covered := by
  intro key tracked
  obtain ⟨timestamps, found⟩ := Finmap.mem_iff.mp tracked
  exact ⟨_, (sync.tracked key timestamps found _).mpr rfl, rfl⟩

/-- The two ways to evict end with the same windows. -/
theorem EvictsTo.scanEvicts_iff (run : EvictsTo targetLen history final) (sync : history.IndexInSync)
    (entries : Finmap fun _ : Identity => List Int) :
    ScanEvicts targetLen history.byIdentity entries ↔ entries = final.byIdentity := by
  induction run with
  | done small =>
      constructor
      · intro scanned
        cases scanned with
        | done _ => rfl
        | remove more _ _ _ => exact absurd small (Nat.not_le_of_lt more)
      · rintro rfl
        exact .done small
  | @pass before _ more _ least _ ih =>
      have exact := indexInSync_iff.mp sync
      rw [← ih (sync.evict least)]
      constructor
      · intro scanned
        cases scanned with
        | done small => exact absurd small (Nat.not_le_of_lt more)
        | remove _ lists found rest =>
            rw [exact.scan_eq_first lists, least] at found
            cases found
            exact rest
      · intro rest
        obtain ⟨listing, lists⟩ := exists_lists before.byIdentity
        exact .remove more lists ((exact.scan_eq_first lists).trans least) rest

theorem EvictsTo.subset (run : EvictsTo targetLen history final) : final.byActivity ⊆ history.byActivity := by
  induction run with
  | done _ => exact Finset.Subset.refl _
  | pass _ _ _ ih => exact ih.trans (Finset.erase_subset _ _)

/-- Every index entry taken off is below every one that is left. -/
theorem EvictsTo.removed_lt (run : EvictsTo targetLen history final) {removed kept : ActivityEntry}
    (before : removed ∈ history.byActivity) (gone : removed ∉ final.byActivity) (left : kept ∈ final.byActivity) :
    removed < kept := by
  induction run with
  | done _ => exact absurd before gone
  | @pass _ _ _ stalest least rest ih =>
      by_cases taken : removed = stalest
      · obtain ⟨other, inside⟩ := Finset.mem_erase.mp (rest.subset left)
        rw [taken]
        exact lt_of_le_of_ne (first_le least inside) (Ne.symm other)
      · exact ih (Finset.mem_erase.mpr ⟨taken, before⟩) gone left

theorem EvictsTo.len_eq (run : EvictsTo targetLen history final) (sync : history.IndexInSync) :
    final.len = min history.len targetLen := by
  induction run with
  | done small => exact (min_eq_left small).symm
  | @pass before _ more stalest least _ ih =>
      obtain ⟨timestamps, found, -⟩ := (indexInSync_iff.mp sync).first_tracked least
      have tracked : (ofLex stalest).2 ∈ before.byIdentity.keys :=
        Finmap.mem_keys.mpr (Finmap.mem_of_lookup_eq_some found)
      have one_less := Finset.card_erase_of_mem tracked
      rw [ih (sync.evict least)]
      simp only [len, keys_erase, one_less] at more ⊢
      omega

theorem EvictsTo.keys_subset (run : EvictsTo targetLen history final) :
    final.byIdentity.keys ⊆ history.byIdentity.keys := by
  induction run with
  | done _ => exact Finset.Subset.refl _
  | pass _ _ _ ih =>
      rw [keys_erase] at ih
      exact ih.trans (Finset.erase_subset _ _)

/-- While the index is exact, eviction through it keeps exactly the windows that scanning
    for the stalest identity would keep. Whoever is removed was less active than whoever is
    kept, no more are removed than the target asks for, and the index is exact again. -/
theorem evictStalestUntil_eq_scan (history : History) (sync : history.IndexInSync) (targetLen : Nat) :
    (∀ entries, ScanEvicts targetLen history.byIdentity entries ↔
        entries = (history.evictStalestUntil targetLen).byIdentity) ∧
      (∀ removed gone kept left, history.get removed = some gone →
        (history.evictStalestUntil targetLen).get removed = none →
        (history.evictStalestUntil targetLen).get kept = some left →
          toLex (activityKey gone, removed) < toLex (activityKey left, kept)) ∧
      (history.byIdentity.keys \ (history.evictStalestUntil targetLen).byIdentity.keys).card =
        history.len - targetLen ∧
      (history.evictStalestUntil targetLen).IndexInSync := by
  have run := sync.covered.evictsTo targetLen
  have after := sync.evictStalestUntil targetLen
  refine ⟨run.scanEvicts_iff sync, ?_, ?_, after⟩
  · intro removed gone kept left before absent present
    exact run.removed_lt ((sync.tracked _ _ before _).mpr rfl) (after.untracked _ absent _)
      ((after.tracked _ _ present _).mpr rfl)
  · rw [Finset.card_sdiff_of_subset run.keys_subset]
    have size := run.len_eq sync
    simp only [len] at size ⊢
    omega

/-- Two identities with timestamps and one without. -/
def threeTracked : History := ((empty.set ⟨"dn:cn=a"⟩ [3, 7]).set ⟨"dn:cn=b"⟩ [5, 9]).ensure ⟨"dn:cn=c"⟩

theorem evictStalestUntil_eq_scan_one_kept :
    threeTracked.IndexInSync ∧ ScanEvicts 1 threeTracked.byIdentity (threeTracked.evictStalestUntil 1).byIdentity ∧
      (threeTracked.evictStalestUntil 1).get ⟨"dn:cn=b"⟩ = some [5, 9] :=
  have sync : threeTracked.IndexInSync := ((indexInSync_empty.set _ _).set _ _).ensure _
  ⟨sync, ((evictStalestUntil_eq_scan threeTracked sync 1).1 _).mpr rfl, by decide +kernel⟩

end History

end AiProtect
