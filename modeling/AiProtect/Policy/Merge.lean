import AiProtect.Policy.ActivityIndex
import AiProtect.Store.Sqlite

/-! # What a snapshot adds to a window

`merge_history_from_rows` and `rows_into_history`, one identity at a time. The
merge counts a millisecond once, the load at startup counts every row. A merge
loses nothing that is still inside the window, and a second merge of the same
snapshot changes nothing, because a stored row survives the way to an `Instant`
and back exactly.
-/

namespace AiProtect

open SlidingWindow

/-- The timestamp the anchor gives a row, if that is inside the window. -/
def placedAt (anchor : Anchor) (now : Int) (window : Nat) (epochMillis : Int) : Option Int :=
  (anchor.toInstant epochMillis).filter fun instant => decide (durationSince now instant ≤ window)

def placed (anchor : Anchor) (now : Int) (window : Nat) (epochMillis : Int) : Bool :=
  (placedAt anchor now window epochMillis).isSome

section Rows

variable (anchor : Anchor) (now : Int) (window : Nat)

/-- A row whose millisecond was seen, or that falls outside the window, changes nothing. -/
theorem mergeRow_eq (state : MergeState) (epochMillis : Int) : mergeRow anchor now window state epochMillis =
    if epochMillis ∈ state.seenMillis then state
    else match placedAt anchor now window epochMillis with
      | none => state
      | some instant => ⟨insert epochMillis state.seenMillis, state.merged ++ [instant]⟩ := by
  by_cases seen : epochMillis ∈ state.seenMillis
  · rw [mergeRow, if_pos seen, if_pos seen]
  · rw [mergeRow, if_neg seen, if_neg seen]
    cases found : anchor.toInstant epochMillis with
    | none => simp only [placedAt, found, Option.filter_none, Finset.erase_insert seen]
    | some instant =>
        by_cases inside : durationSince now instant ≤ window
        · simp only [placedAt, found, inside, if_true, Option.filter_some, decide_true]
        · simp only [placedAt, found, inside, if_false, Option.filter_some, decide_false, Bool.false_eq_true,
            Finset.erase_insert seen]

/-- Rows that are all seen, or outside the window, leave the merge as it was. -/
theorem foldl_mergeRow_of_seen {rows : List Int} {state : MergeState}
    (seen : ∀ row ∈ rows, placed anchor now window row = true → row ∈ state.seenMillis) :
    rows.foldl (mergeRow anchor now window) state = state := by
  induction rows with
  | nil => rfl
  | cons row rows ih =>
      obtain ⟨here, others⟩ := List.forall_mem_cons.mp seen
      have same : mergeRow anchor now window state row = state := by
        rw [mergeRow_eq]
        split
        · rfl
        · rename_i unseen
          cases found : placedAt anchor now window row with
          | none => rfl
          | some instant => exact absurd (here (by rw [placed, found]; rfl)) unseen
      rw [List.foldl_cons, same, ih others]

/-- Each millisecond that is counted for the first time adds one timestamp. -/
theorem foldl_mergeRow_count (rows : List Int) (state : MergeState) :
    (rows.foldl (mergeRow anchor now window) state).seenMillis =
        state.seenMillis ∪ (rows.filter (placed anchor now window)).toFinset ∧
      (rows.foldl (mergeRow anchor now window) state).merged.length + state.seenMillis.card =
        state.merged.length + (rows.foldl (mergeRow anchor now window) state).seenMillis.card := by
  induction rows generalizing state with
  | nil => exact ⟨(Finset.union_empty _).symm, rfl⟩
  | cons row rows ih =>
      obtain ⟨seenNext, countNext⟩ := ih (mergeRow anchor now window state row)
      rw [List.foldl_cons]
      by_cases added : row ∉ state.seenMillis ∧ placed anchor now window row = true
      · obtain ⟨unseen, inside⟩ := added
        obtain ⟨instant, found⟩ := Option.isSome_iff_exists.mp inside
        have next : mergeRow anchor now window state row =
            ⟨insert row state.seenMillis, state.merged ++ [instant]⟩ := by
          rw [mergeRow_eq, if_neg unseen, found]
        rw [next] at seenNext countNext ⊢
        rw [Finset.card_insert_of_notMem unseen, List.length_append, List.length_singleton] at countNext
        refine ⟨?_, by omega⟩
        rw [seenNext, List.filter_cons_of_pos inside, List.toFinset_cons, Finset.insert_union,
          Finset.union_insert]
      · have next : mergeRow anchor now window state row = state := by
          have seen : ∀ other ∈ [row], placed anchor now window other = true → other ∈ state.seenMillis := by
            intro other member inside
            rw [List.mem_singleton.mp member] at inside ⊢
            by_contra unseen
            exact added ⟨unseen, inside⟩
          exact foldl_mergeRow_of_seen anchor now window seen
        rw [next] at seenNext countNext ⊢
        refine ⟨?_, countNext⟩
        rw [seenNext]
        by_cases inside : placed anchor now window row = true
        · have seen : row ∈ state.seenMillis := by
            by_contra unseen
            exact added ⟨unseen, inside⟩
          rw [List.filter_cons_of_pos inside, List.toFinset_cons, Finset.union_insert,
            Finset.insert_eq_of_mem (Finset.mem_union_left _ seen)]
        · rw [List.filter_cons_of_neg inside]

/-- A merge that sees no new row is a pruning. -/
theorem mergeWindow_of_seen {existing rows : List Int} (sorted : existing.Pairwise (· ≤ ·))
    (seen : ∀ row ∈ rows, placed anchor now window row = true →
      row ∈ (existing.filter (recent (window : Int) now)).map anchor.toEpochMillis) :
    mergeWindow anchor now window existing rows = existing.filter (recent (window : Int) now) := by
  have start : mergeExisting anchor now window existing =
      ⟨((existing.filter (recent (window : Int) now)).map anchor.toEpochMillis).toFinset,
        existing.filter (recent (window : Int) now)⟩ := by
    simp only [mergeExisting, History.recent_eq]
  rw [mergeWindow, foldl_mergeRow_of_seen, start]
  · exact List.Pairwise.insertionSort_eq (sorted.filter _)
  · intro row member inside
    rw [start]
    exact List.mem_toFinset.mpr (seen row member inside)

theorem length_mergeWindow_nil (rows : List Int) :
    (mergeWindow anchor now window [] rows).length = (rows.filter (placed anchor now window)).toFinset.card := by
  obtain ⟨seen, count⟩ := foldl_mergeRow_count anchor now window rows (mergeExisting anchor now window [])
  have start : mergeExisting anchor now window [] = ⟨∅, []⟩ := rfl
  rw [mergeWindow, List.length_insertionSort]
  simp only [start, Finset.empty_union, Finset.card_empty, List.length_nil] at seen count ⊢
  rw [seen] at count
  omega

theorem length_loadWindow (rows : List Int) :
    (loadWindow anchor now window rows).length = (rows.filter (placed anchor now window)).length := by
  rw [loadWindow, List.length_insertionSort]
  induction rows with
  | nil => rfl
  | cons row rows ih =>
      cases found : anchor.toInstant row with
      | none =>
          have outside : placed anchor now window row = false := by
            simp only [placed, placedAt, found, Option.filter_none, Option.isSome_none]
          rw [List.filterMap_cons_none found, List.filter_cons_of_neg (by simp [outside]), ih]
      | some instant =>
          rw [List.filterMap_cons_some found, List.filter_cons]
          by_cases inside : durationSince now instant ≤ window
          · have counted : placed anchor now window row = true := by
              simp only [placed, placedAt, found, inside, Option.filter_some, decide_true, if_true,
                Option.isSome_some]
            rw [if_pos (decide_eq_true inside), List.filter_cons_of_pos counted, List.length_cons,
              List.length_cons, ih]
          · have outside : placed anchor now window row = false := by
              simp only [placed, placedAt, found, inside, Option.filter_some, decide_false, Bool.false_eq_true,
                if_false, Option.isSome_none]
            rw [if_neg (by simpa using inside), List.filter_cons_of_neg (by simp [outside]), ih]

end Rows

section Histories

variable (anchor : Anchor) (now : Int) (window : Nat)

theorem get_foldl_mergeIdentity {entries : List (Sigma fun _ : String => List Int)}
    (distinct : entries.NodupKeys) (history : History) (key : Identity) :
    (entries.foldl (mergeIdentity anchor now window) history).get key =
      (entries.dlookup key.name).elim (history.get key) fun rows =>
        if mergeWindow anchor now window (history.window key) rows = [] then none
        else some (mergeWindow anchor now window (history.window key) rows) := by
  induction entries generalizing history with
  | nil => rfl
  | cons entry entries ih =>
      obtain ⟨fresh, others⟩ := List.nodupKeys_cons.mp distinct
      obtain ⟨name, rows⟩ := entry
      rw [List.foldl_cons, ih others, mergeIdentity, History.get_set, History.window_set]
      by_cases mine : key.name = name
      · have same : key = ⟨name⟩ := Identity.name_injective mine
        subst same
        have absent : entries.dlookup name = none := List.dlookup_eq_none.mpr fresh
        rw [if_pos rfl, if_pos rfl, absent, List.dlookup_cons_eq]
        rfl
      · have other : key ≠ ⟨name⟩ := fun same => mine (congrArg Identity.name same)
        rw [if_neg other, if_neg other, List.dlookup_cons_ne _ _ (by simpa using mine)]

/-- Each identity of the snapshot gets its merged window, or is dropped if that is
    empty; the others keep theirs. -/
theorem get_mergeHistoryFromRows (history : History) (rows : Snapshot) (key : Identity) :
    (mergeHistoryFromRows history anchor rows window now).get key =
      (rows.lookup key.name).elim (history.get key) fun rows =>
        if mergeWindow anchor now window (history.window key) rows = [] then none
        else some (mergeWindow anchor now window (history.window key) rows) :=
  get_foldl_mergeIdentity anchor now window rows.nodupKeys history key

theorem window_mergeHistoryFromRows (history : History) (rows : Snapshot) (key : Identity) :
    (mergeHistoryFromRows history anchor rows window now).window key =
      (rows.lookup key.name).elim (history.window key) (mergeWindow anchor now window (history.window key)) := by
  rw [History.window, get_mergeHistoryFromRows]
  cases rows.lookup key.name with
  | none => rfl
  | some timestamps =>
      simp only [Option.elim_some]
      split
      · rename_i emptied
        rw [emptied]
        rfl
      · rfl

theorem indexed_mergeHistoryFromRows {history : History} {key : Identity} (indexed : history.Indexed key)
    (rows : Snapshot) : (mergeHistoryFromRows history anchor rows window now).Indexed key := by
  simp only [mergeHistoryFromRows]
  induction rows.entries generalizing history with
  | nil => exact indexed
  | cons entry entries ih => exact ih (indexed.set _ _)

theorem window_foldl_load {entries : List (Sigma fun _ : String => List Int)} (distinct : entries.NodupKeys)
    (history : History) (key : Identity) (untracked : key.name ∈ entries.keys → history.window key = []) :
    (entries.foldl (fun history row =>
      if (loadWindow anchor now window row.2).isEmpty then history
      else history.set ⟨row.1⟩ (loadWindow anchor now window row.2)) history).window key =
      (entries.dlookup key.name).elim (history.window key) (loadWindow anchor now window) := by
  induction entries generalizing history with
  | nil => rfl
  | cons entry entries ih =>
      obtain ⟨fresh, others⟩ := List.nodupKeys_cons.mp distinct
      obtain ⟨name, rows⟩ := entry
      rw [List.foldl_cons]
      by_cases mine : key.name = name
      · have same : key = ⟨name⟩ := Identity.name_injective mine
        subst same
        have absent : entries.dlookup name = none := List.dlookup_eq_none.mpr fresh
        rw [ih others _ (fun member => absurd member fresh), absent, List.dlookup_cons_eq, Option.elim_none,
          Option.elim_some]
        split
        · rename_i nothing
          rw [untracked List.mem_cons_self, List.isEmpty_iff.mp nothing]
        · rw [History.window_set, if_pos rfl]
      · have other : key ≠ ⟨name⟩ := fun same => mine (congrArg Identity.name same)
        have kept : (if (loadWindow anchor now window rows).isEmpty then history
            else history.set ⟨name⟩ (loadWindow anchor now window rows)).window key = history.window key := by
          split
          · rfl
          · rw [History.window_set, if_neg other]
        rw [ih others _ (fun member => kept.trans (untracked (List.mem_cons_of_mem _ member))),
          List.dlookup_cons_ne _ _ (by simpa using mine), kept]

theorem window_rowsIntoHistory (rows : Snapshot) (key : Identity) :
    (rowsIntoHistory anchor rows window now).window key =
      (rows.lookup key.name).elim [] (loadWindow anchor now window) := by
  have nothing : History.empty.window key = [] := by
    rw [History.window, History.get_empty]
    rfl
  rw [← nothing]
  exact window_foldl_load anchor now window rows.nodupKeys _ key fun _ => nothing

end Histories

namespace History

/-- Two histories with exact indexes are equal if they track the same windows. -/
theorem IndexInSync.ext {a b : History} (syncA : a.IndexInSync) (syncB : b.IndexInSync)
    (same : ∀ id, a.get id = b.get id) : a = b := by
  have windows : a.byIdentity = b.byIdentity := Finmap.ext_lookup same
  have index : a.byActivity = b.byActivity := by
    ext entry
    rw [← toLex_ofLex entry]
    obtain ⟨activity, id⟩ := ofLex entry
    rw [syncA.exact, syncB.exact, same]
  cases a
  cases b
  simp only at windows index
  rw [windows, index]

end History

section Snapshots

variable {anchor : Anchor} {now : Int} {window : Nat}

theorem sorted_mergeWindow (existing rows : List Int) :
    (mergeWindow anchor now window existing rows).Pairwise (· ≤ ·) :=
  List.pairwise_insertionSort _ _

theorem mem_foldl_mergeRow {rows : List Int} {state : MergeState} {instant : Int}
    (member : instant ∈ (rows.foldl (mergeRow anchor now window) state).merged) :
    instant ∈ state.merged ∨ ∃ row ∈ rows, placedAt anchor now window row = some instant := by
  induction rows generalizing state with
  | nil => exact .inl member
  | cons row rows ih =>
      rcases ih member with before | ⟨other, inside, found⟩
      · rw [mergeRow_eq] at before
        split at before
        · exact .inl before
        · cases found : placedAt anchor now window row with
          | none => exact .inl (by simpa only [found] using before)
          | some placed =>
              simp only [found, List.mem_append, List.mem_singleton] at before
              rcases before with before | rfl
              · exact .inl before
              · exact .inr ⟨row, List.mem_cons_self, found⟩
      · exact .inr ⟨other, List.mem_cons_of_mem _ inside, found⟩

/-- Whatever is in a merged window was there before or comes from a row, and is at most
    `window` old. -/
theorem mem_mergeWindow {existing rows : List Int} {instant : Int}
    (member : instant ∈ mergeWindow anchor now window existing rows) :
    (instant ∈ existing ∨ ∃ row ∈ rows, anchor.toInstant row = some instant) ∧
      durationSince now instant ≤ window := by
  rcases mem_foldl_mergeRow ((List.mem_insertionSort _).mp member) with kept | ⟨row, inside, found⟩
  · obtain ⟨before, young⟩ := List.mem_filter.mp kept
    exact ⟨.inl before, of_decide_eq_true young⟩
  · obtain ⟨converted, young⟩ := Option.filter_eq_some_iff.mp found
    exact ⟨.inr ⟨row, inside, converted⟩, of_decide_eq_true young⟩

/-- Every millisecond the merge has seen is that of a timestamp it has placed. -/
def SeenIsPlaced (anchor : Anchor) (state : MergeState) : Prop :=
  ∀ epochMillis ∈ state.seenMillis, epochMillis ∈ state.merged.map anchor.toEpochMillis

theorem SeenIsPlaced.mergeRow {state : MergeState} (seen : SeenIsPlaced anchor state) {epochMillis : Int}
    (converts : anchor.Converts epochMillis) :
    SeenIsPlaced anchor (AiProtect.mergeRow anchor now window state epochMillis) := by
  rw [mergeRow_eq]
  split
  · exact seen
  · cases found : placedAt anchor now window epochMillis with
    | none => exact seen
    | some instant =>
        obtain ⟨converted, -⟩ := Option.filter_eq_some_iff.mp found
        intro millis member
        rw [List.map_append, List.mem_append]
        rcases Finset.mem_insert.mp member with here | before
        · refine .inr (List.mem_singleton.mpr ?_)
          rw [here]
          exact (Anchor.toEpochMillis_of_toInstant converts converted).symm
        · exact .inl (seen millis before)

theorem SeenIsPlaced.foldl {rows : List Int} (converts : ∀ row ∈ rows, anchor.Converts row) {state : MergeState}
    (seen : SeenIsPlaced anchor state) :
    SeenIsPlaced anchor (rows.foldl (AiProtect.mergeRow anchor now window) state) := by
  induction rows generalizing state with
  | nil => exact seen
  | cons row rows ih =>
      obtain ⟨here, others⟩ := List.forall_mem_cons.mp converts
      exact ih others (seen.mergeRow here)

/-- A merged window is a fixed point of the merge. -/
theorem mergeWindow_mergeWindow {existing rows : List Int} (converts : ∀ row ∈ rows, anchor.Converts row) :
    mergeWindow anchor now window (mergeWindow anchor now window existing rows) rows =
      mergeWindow anchor now window existing rows := by
  have inside : (mergeWindow anchor now window existing rows).filter (recent (window : Int) now) =
      mergeWindow anchor now window existing rows := by
    refine List.filter_eq_self.mpr fun instant member => ?_
    rw [← History.recent_eq]
    exact decide_eq_true (mem_mergeWindow member).2
  refine (mergeWindow_of_seen anchor now window (sorted_mergeWindow existing rows) ?_).trans inside
  intro row member here
  rw [inside]
  have start : SeenIsPlaced anchor (mergeExisting anchor now window existing) :=
    fun millis known => List.mem_toFinset.mp known
  have seen : row ∈
      (rows.foldl (mergeRow anchor now window) (mergeExisting anchor now window existing)).seenMillis := by
    rw [(foldl_mergeRow_count anchor now window rows _).1]
    exact Finset.mem_union_right _ (List.mem_toFinset.mpr (List.mem_filter.mpr ⟨member, here⟩))
  exact ((List.perm_insertionSort _ _).map _).mem_iff.mpr (start.foldl converts row seen)

/-- Every row of the snapshot converts without overflow. -/
def Snapshot.Converts (rows : Snapshot) (anchor : Anchor) : Prop :=
  ∀ entry ∈ rows.entries, ∀ epochMillis ∈ entry.2, anchor.Converts epochMillis

instance (rows : Snapshot) (anchor : Anchor) : Decidable (rows.Converts anchor) :=
  inferInstanceAs (Decidable (∀ entry ∈ rows.entries, ∀ epochMillis ∈ entry.2, anchor.Converts epochMillis))

theorem Snapshot.Converts.lookup {rows : Snapshot} (converts : rows.Converts anchor) {name : String}
    {stored : List Int} (found : rows.lookup name = some stored) :
    ∀ epochMillis ∈ stored, anchor.Converts epochMillis :=
  converts ⟨name, stored⟩ (AList.mem_lookup_iff.mp found)

/-- A merge leaves the identities the snapshot does not name alone, keeps of the others
    every timestamp inside the window, keeps the index exact, and is idempotent. -/
theorem merge_lossless_and_idempotent {history : History} (sync : history.IndexInSync) {rows : Snapshot}
    (converts : rows.Converts anchor) :
    (∀ key, rows.lookup key.name = none →
        (mergeHistoryFromRows history anchor rows window now).get key = history.get key) ∧
      (∀ key, (rows.lookup key.name).isSome = true →
        (∀ instant, durationSince now instant ≤ window → (history.window key).count instant ≤
            ((mergeHistoryFromRows history anchor rows window now).window key).count instant) ∧
          ((mergeHistoryFromRows history anchor rows window now).window key).Pairwise (· ≤ ·) ∧
          ∀ instant ∈ (mergeHistoryFromRows history anchor rows window now).window key,
            durationSince now instant ≤ window) ∧
      (mergeHistoryFromRows history anchor rows window now).IndexInSync ∧
      mergeHistoryFromRows (mergeHistoryFromRows history anchor rows window now) anchor rows window now =
        mergeHistoryFromRows history anchor rows window now := by
  have exact := sync.mergeHistoryFromRows anchor rows window now
  refine ⟨?_, ?_, exact, ?_⟩
  · intro key unnamed
    rw [get_mergeHistoryFromRows, unnamed, Option.elim_none]
  · intro key named
    obtain ⟨stored, found⟩ := Option.isSome_iff_exists.mp named
    rw [window_mergeHistoryFromRows, found, Option.elim_some]
    refine ⟨?_, sorted_mergeWindow _ _, ?_⟩
    · intro instant young
      have counted := (ThresholdPolicy.filter_subperm_mergeWindow anchor now window
        (history.window key) stored).count_le instant
      have recently : recent (window : Int) now instant = true := by
        rw [← History.recent_eq]
        exact decide_eq_true young
      rw [List.count_filter recently] at counted
      exact counted
    · intro instant member
      exact (mem_mergeWindow member).2
  · refine (exact.mergeHistoryFromRows anchor rows window now).ext exact fun key => ?_
    rw [get_mergeHistoryFromRows]
    cases found : rows.lookup key.name with
    | none => rfl
    | some stored =>
        rw [window_mergeHistoryFromRows, found, Option.elim_some, Option.elim_some,
          mergeWindow_mergeWindow (converts.lookup found), get_mergeHistoryFromRows, found, Option.elim_some]

/-- Two admissions in one millisecond, one of them stored, beside a row of another instance. -/
def doubled : History := History.empty.set ⟨"alice"⟩ [1000000, 1000000]

def doubledRows : Snapshot := AList.singleton "alice" [1, 2]

theorem merge_lossless_doubled :
    doubledRows.Converts (.now 0 0) ∧
      (mergeHistoryFromRows doubled (.now 0 0) doubledRows (fromSecs 60) 3000000).window ⟨"alice"⟩ =
        [1000000, 1000000, 2000000] ∧
      mergeHistoryFromRows (mergeHistoryFromRows doubled (.now 0 0) doubledRows (fromSecs 60) 3000000)
          (.now 0 0) doubledRows (fromSecs 60) 3000000 =
        mergeHistoryFromRows doubled (.now 0 0) doubledRows (fromSecs 60) 3000000 := by
  have converts : doubledRows.Converts (.now 0 0) := by decide +kernel
  refine ⟨converts, by decide +kernel, ?_⟩
  exact (merge_lossless_and_idempotent (History.indexInSync_empty.set _ _) converts).2.2.2

end Snapshots

end AiProtect
