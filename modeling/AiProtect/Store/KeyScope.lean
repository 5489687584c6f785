import AiProtect.Core.Text
import AiProtect.Lib.Glob
import AiProtect.Store.ValkeyAlone

/-! # Which keys a Valkey sync touches

The keys of a store begin with its prefix, and a sync finds them by a pattern made of the
same text. This module says when the two agree: what a sync reads, prunes or deletes, with
other clients at work in between, are the keys of its prefix exactly if nothing in the
prefix is special in a pattern. Two stores then keep out of each other's way exactly if
neither prefix continues the other.
-/

namespace AiProtect

/-- The special bytes in a pattern of `SCAN`. -/
def scanMarks : Glob.Marks UInt8 where
  star := 42
  any := 63
  opening := 91
  closing := 93
  negation := 94
  range := 45
  escape := 92

/-- The `MATCH` of `SCAN` compares bytes. -/
def scanMatches (pattern key : String) : Prop :=
  Glob.accepts (scanMarks.tokens (Utf8.encode pattern)) (Utf8.encode key) = true

instance (pattern key : String) : Decidable (scanMatches pattern key) :=
  inferInstanceAs (Decidable (_ = true))

def historyKey (keyPrefix identity : String) : String := keyPrefix ++ ":history:" ++ identity

/-- The key a command reads, prunes or deletes. -/
def Command.touched : Command → Option String
  | .zremrangebyscore key _ | .zrange key | .zcard key | .del key => some key
  | .zadd _ | .scan _ => none

namespace ValkeySync

/-- A sync as `ValkeyStore::sync` starts it. -/
def begun (keyPrefix : String) (seq : Nat) (newEvents : List (String × Int)) (cutoff : Int) (maxIdentities : Nat) :
    ValkeySync :=
  ⟨keyPrefix ++ ":history:", cutoff, maxIdentities, addPhase (Valkey.zadds (keyPrefix ++ ":history:") seq newEvents)⟩

/-- What the server promises of `SCAN` while others change the keyspace: only keys that match
    and exist, and by the end of the iteration all that match among those `steady` in between. -/
def ScanOk (matched : String → String → Prop) (steady : Set String) (server : Server) (sync : ValkeySync)
    (reply : Nat × List String) : Prop :=
  match sync.phase with
  | .scanning _ keys =>
      (∀ key ∈ steady, server key ≠ ∅) ∧
        (∀ key ∈ reply.2, Listed matched server sync.keyStart key) ∧
        (reply.1 = 0 → ∀ key ∈ steady, matched (sync.keyStart ++ "*") key → key ∈ keys ++ reply.2)
  | _ => True

/-- The commands of a sync up to some point. Others use the server too, so that each command
    finds a keyspace of its own. -/
inductive Sends (matched : String → String → Prop) (steady : Set String) :
    ValkeySync → List Command → ValkeySync → Prop where
  | nil {sync : ValkeySync} : Sends matched steady sync [] sync
  | cons {sync last : ValkeySync} {server : Server} {command : Command} {reply : Nat × List String}
      {commands : List Command} (sends : sync.command = some command)
      (answered : ScanOk matched steady server sync reply)
      (rest : Sends matched steady (sync.resume server reply) commands last) :
      Sends matched steady sync (command :: commands) last

def touched (commands : List Command) : List String := commands.filterMap Command.touched

/-- Every key a sync touches is one of its prefix; and once the sync has returned, every key
    of its prefix that was there during its scan is one it has touched. -/
def TouchesOwn (matched : String → String → Prop) (keyPrefix : String) : Prop :=
  ∀ (steady : Set String) (seq : Nat) (newEvents : List (String × Int)) (cutoff : Int) (maxIdentities : Nat)
    (commands : List Command) (last : ValkeySync),
    Sends matched steady (begun keyPrefix seq newEvents cutoff maxIdentities) commands last →
      (∀ key ∈ touched commands, ∃ identity, key = historyKey keyPrefix identity) ∧
        ∀ rows, last.phase = .returned rows →
          ∀ key ∈ steady, (∃ identity, key = historyKey keyPrefix identity) → key ∈ touched commands

/-- No sync touches a key that a store with the other prefix writes. -/
def LeavesAlone (matched : String → String → Prop) (keyPrefix other : String) : Prop :=
  ∀ (steady : Set String) (seq : Nat) (newEvents : List (String × Int)) (cutoff : Int) (maxIdentities : Nat)
    (commands : List Command) (last : ValkeySync),
    Sends matched steady (begun keyPrefix seq newEvents cutoff maxIdentities) commands last →
      ∀ otherSeq otherEvents, ∀ event ∈ Valkey.zadds (other ++ ":history:") otherSeq otherEvents,
        event.key ∉ touched commands

variable {matched : String → String → Prop} {steady : Set String} {sync last : ValkeySync}
  {commands : List Command} {key : String}

/-- The keys a sync has in hand. -/
def held (sync : ValkeySync) : List String :=
  match sync.phase with
  | .scanning _ keys => keys
  | .removing key keys _ | .ranging key keys _ | .counting key _ keys _ | .deleting key keys _ => key :: keys
  | .adding _ _ | .capping _ _ _ | .returned _ | .failed => []

/-- The keys a sync has yet to prune. -/
def unpruned (sync : ValkeySync) : List String :=
  match sync.phase with
  | .scanning _ keys | .ranging _ keys _ | .counting _ _ keys _ | .deleting _ keys _ => keys
  | .removing key keys _ => key :: keys
  | .adding _ _ | .capping _ _ _ | .returned _ | .failed => []

theorem keys_keyPhase (sync : ValkeySync) (maxIdentities : Nat) (rows : Snapshot) (keys : List String) :
    ({ sync with phase := keyPhase maxIdentities rows keys } : ValkeySync).held = keys ∧
      ({ sync with phase := keyPhase maxIdentities rows keys } : ValkeySync).unpruned = keys := by
  cases keys with
  | cons key keys => exact ⟨rfl, rfl⟩
  | nil =>
      rw [keyPhase_nil]
      cases stalest maxIdentities rows <;> exact ⟨rfl, rfl⟩

/-- A sync gets its keys from the replies to its scan. -/
theorem mem_held_resume {server : Server} {reply : Nat × List String}
    (answered : ScanOk matched steady server sync reply) (member : key ∈ (sync.resume server reply).held) :
    key ∈ sync.held ∨ matched (sync.keyStart ++ "*") key := by
  cases phase : sync.phase with
  | adding event todo =>
      simp only [resume, phase] at member
      cases todo <;> simp [addPhase, held] at member
  | scanning cursor keys =>
      simp only [ScanOk, phase] at answered
      have inside : key ∈ keys ++ reply.2 := by
        simp only [resume, phase] at member
        split at member
        · rwa [(keys_keyPhase _ _ _ _).1] at member
        · exact member
      rcases List.mem_append.mp inside with old | new
      · exact .inl (by simpa only [held, phase] using old)
      · exact .inr (answered.2.1 key new).1
  | removing head keys rows | ranging head keys rows =>
      left
      simpa only [resume, held, phase] using member
  | counting head remaining keys rows =>
      left
      simp only [held, phase]
      simp only [resume, phase] at member
      split at member
      · exact member
      · split at member <;> exact List.mem_cons_of_mem head (by rwa [(keys_keyPhase _ _ _ _).1] at member)
  | deleting head keys rows =>
      left
      simp only [resume, phase, (keys_keyPhase _ _ _ _).1] at member
      simpa only [held, phase] using List.mem_cons_of_mem head member
  | capping identity identities rows =>
      simp only [resume, phase] at member
      cases identities <;> simp [capPhase, held] at member
  | returned rows | failed =>
      simp only [resume, phase, held, List.not_mem_nil] at member

/-- A command touches a key in hand or, for the cap, one named after an identity. -/
theorem mem_held_of_touched {command : Command} (sends : sync.command = some command)
    (touches : command.touched = some key) : key ∈ sync.held ∨ ∃ identity, key = sync.keyStart ++ identity := by
  cases phase : sync.phase with
  | adding _ _ | scanning _ _ =>
      simp only [ValkeySync.command, phase, Option.some.injEq] at sends
      subst sends
      cases touches
  | removing _ _ _ | ranging _ _ _ | counting _ _ _ _ | deleting _ _ _ =>
      simp only [ValkeySync.command, phase, Option.some.injEq] at sends
      subst sends
      cases touches
      exact .inl (by simp only [held, phase, List.mem_cons, true_or])
  | capping identity _ _ =>
      simp only [ValkeySync.command, phase, Option.some.injEq] at sends
      subst sends
      cases touches
      exact .inr ⟨identity, rfl⟩
  | returned _ | failed => simp only [ValkeySync.command, phase, reduceCtorEq] at sends

/-- Whatever the others do, a sync touches the keys it holds, keys that match its pattern,
    and keys named after an identity. -/
theorem Sends.touched_matched (sends : Sends matched steady sync commands last) (member : key ∈ touched commands) :
    key ∈ sync.held ∨ matched (sync.keyStart ++ "*") key ∨ ∃ identity, key = sync.keyStart ++ identity := by
  induction sends with
  | nil => simp [touched] at member
  | cons now answered _ ih =>
      obtain ⟨command, inside, touches⟩ := List.mem_filterMap.mp member
      rcases List.mem_cons.mp inside with rfl | later
      · exact (mem_held_of_touched now touches).imp_right .inr
      · rcases ih (List.mem_filterMap.mpr ⟨command, later, touches⟩) with holds | others
        · exact (mem_held_resume answered holds).imp_right .inl
        · exact .inr others

/-- A key stays to be pruned until a command touches it. -/
theorem mem_unpruned_resume {server : Server} {reply : Nat × List String} {command : Command}
    (sends : sync.command = some command) (member : key ∈ sync.unpruned) :
    command.touched = some key ∨ key ∈ (sync.resume server reply).unpruned := by
  cases phase : sync.phase with
  | adding event todo => simp only [unpruned, phase, List.not_mem_nil] at member
  | scanning cursor keys =>
      right
      have inside : key ∈ keys ++ reply.2 := List.mem_append_left _ (by simpa only [unpruned, phase] using member)
      simp only [resume, phase]
      split
      · rwa [(keys_keyPhase _ _ _ _).2]
      · exact inside
  | removing head keys rows =>
      simp only [ValkeySync.command, phase, Option.some.injEq] at sends
      simp only [unpruned, phase, List.mem_cons] at member
      rcases member with rfl | later
      · exact .inl (by rw [← sends, Command.touched])
      · exact .inr (by simpa only [resume, phase, unpruned] using later)
  | ranging head keys rows =>
      right
      simpa only [resume, phase, unpruned] using member
  | counting head remaining keys rows =>
      right
      simp only [unpruned, phase] at member
      simp only [resume, phase]
      split
      · exact member
      · split <;> rwa [(keys_keyPhase _ _ _ _).2]
  | deleting head keys rows =>
      right
      simp only [unpruned, phase] at member
      simpa only [resume, phase, (keys_keyPhase _ _ _ _).2] using member
  | capping identity identities rows | returned rows | failed => simp only [unpruned, phase, List.not_mem_nil] at member

theorem mem_touched_cons {command : Command} (later : key ∈ touched commands) :
    key ∈ touched (command :: commands) := by
  obtain ⟨other, inside, touches⟩ := List.mem_filterMap.mp later
  exact List.mem_filterMap.mpr ⟨other, List.mem_cons_of_mem _ inside, touches⟩

theorem Sends.touched_of_unpruned (sends : Sends matched steady sync commands last) {rows : Snapshot}
    (returned : last.phase = .returned rows) (member : key ∈ sync.unpruned) : key ∈ touched commands := by
  induction sends with
  | nil => simp only [unpruned, returned, List.not_mem_nil] at member
  | @cons sync last server command reply commands now _ _ ih =>
      rcases mem_unpruned_resume now member with here | later
      · exact List.mem_filterMap.mpr ⟨command, List.mem_cons_self, here⟩
      · exact mem_touched_cons (ih returned later)

/-- The sync has not seen the end of its scan. -/
def Unscanned (sync : ValkeySync) : Prop :=
  (∃ event todo, sync.phase = .adding event todo) ∨ ∃ cursor keys, sync.phase = .scanning cursor keys

/-- The scan goes on, or it has listed the key. -/
theorem Unscanned.resume {server : Server} {reply : Nat × List String} (unscanned : sync.Unscanned)
    (answered : ScanOk matched steady server sync reply) (present : key ∈ steady)
    (listed : matched (sync.keyStart ++ "*") key) :
    (sync.resume server reply).Unscanned ∨ key ∈ (sync.resume server reply).unpruned := by
  rcases unscanned with ⟨event, todo, phase⟩ | ⟨cursor, keys, phase⟩
  · left
    simp only [ValkeySync.resume, phase]
    cases todo with
    | nil => exact .inr ⟨0, [], rfl⟩
    | cons event todo => exact .inl ⟨event, todo, rfl⟩
  · simp only [ScanOk, phase] at answered
    simp only [ValkeySync.resume, phase]
    split
    · rename_i ended
      right
      rw [(keys_keyPhase _ _ _ _).2]
      exact answered.2.2 ended key present listed
    · exact .inl (.inr ⟨reply.1, keys ++ reply.2, rfl⟩)

/-- A sync that returns has touched every matching key that was there during its scan. -/
theorem Sends.touched_of_matched (sends : Sends matched steady sync commands last) {rows : Snapshot}
    (returned : last.phase = .returned rows) (unscanned : sync.Unscanned) (present : key ∈ steady)
    (listed : matched (sync.keyStart ++ "*") key) : key ∈ touched commands := by
  induction sends with
  | nil =>
      rcases unscanned with ⟨_, _, phase⟩ | ⟨_, _, phase⟩
      · rw [phase] at returned
        cases returned
      · rw [phase] at returned
        cases returned
  | cons _ answered rest ih =>
      rcases unscanned.resume answered present listed with still | found
      · exact mem_touched_cons (ih returned still listed)
      · exact mem_touched_cons (rest.touched_of_unpruned returned found)

theorem unscanned_begun (keyPrefix : String) (seq : Nat) (newEvents : List (String × Int)) (cutoff : Int)
    (maxIdentities : Nat) : (begun keyPrefix seq newEvents cutoff maxIdentities).Unscanned := by
  simp only [Unscanned, begun]
  cases Valkey.zadds (keyPrefix ++ ":history:") seq newEvents with
  | nil => exact .inr ⟨0, [], rfl⟩
  | cons event todo => exact .inl ⟨event, todo, rfl⟩

theorem held_begun (keyPrefix : String) (seq : Nat) (newEvents : List (String × Int)) (cutoff : Int)
    (maxIdentities : Nat) : (begun keyPrefix seq newEvents cutoff maxIdentities).held = [] := by
  simp only [held, begun]
  cases Valkey.zadds (keyPrefix ++ ":history:") seq newEvents <;> rfl

/-- A server that holds one key. -/
def onlyKey (key : String) : Server := fun other => if other = key then {toLex (0, "0-0")} else ∅

theorem onlyKey_ne (key : String) : onlyKey key key ≠ ∅ := by simp [onlyKey]

/-- Any key that matches can be listed, and then it is touched. -/
theorem exists_sends_touching (keyPrefix : String) (listed : matched (keyPrefix ++ ":history:" ++ "*") key) :
    ∃ commands last, Sends matched {key} (begun keyPrefix 0 [] 0 0) commands last ∧ key ∈ touched commands := by
  have answered : ScanOk matched {key} (onlyKey key) (begun keyPrefix 0 [] 0 0) (0, [key]) := by
    refine ⟨?_, ?_, ?_⟩
    · rintro _ rfl
      exact onlyKey_ne _
    · intro other member
      obtain rfl := List.mem_singleton.mp member
      exact ⟨listed, onlyKey_ne _⟩
    · rintro _ _ rfl _
      exact List.mem_singleton_self _
  exact ⟨[.scan 0, .zremrangebyscore key 0], _,
    .cons rfl answered (@Sends.cons _ _ _ _ (onlyKey key) _ (0, []) _ rfl trivial .nil), List.mem_singleton_self _⟩

/-- A sync can return without touching a key that does not match. -/
theorem exists_sends_untouched (keyPrefix : String) (unlisted : ¬ matched (keyPrefix ++ ":history:" ++ "*") key) :
    ∃ last, Sends matched {key} (begun keyPrefix 0 [] 0 0) [.scan 0] last ∧ last.phase = .returned ∅ := by
  have answered : ScanOk matched {key} (onlyKey key) (begun keyPrefix 0 [] 0 0) (0, []) := by
    refine ⟨?_, List.forall_mem_nil _, ?_⟩
    · rintro _ rfl
      exact onlyKey_ne _
    · rintro _ _ rfl listed
      exact absurd listed unlisted
  exact ⟨_, .cons rfl answered .nil, rfl⟩

/-- Syncs keep to their own keys exactly if the pattern matches those keys and no others. -/
theorem touchesOwn_iff (keyPrefix : String) :
    TouchesOwn matched keyPrefix ↔
      ∀ key, matched (keyPrefix ++ ":history:" ++ "*") key ↔ ∃ identity, key = historyKey keyPrefix identity := by
  constructor
  · intro own key
    constructor
    · intro listed
      obtain ⟨commands, last, sends, member⟩ := exists_sends_touching keyPrefix listed
      exact (own _ _ _ _ _ _ _ sends).1 key member
    · intro mine
      by_contra unlisted
      obtain ⟨last, sends, returned⟩ := exists_sends_untouched keyPrefix unlisted
      have member := (own _ _ _ _ _ _ _ sends).2 _ returned key rfl mine
      simp [touched, Command.touched] at member
  · intro exact steady seq newEvents cutoff maxIdentities commands last sends
    constructor
    · intro key member
      rcases sends.touched_matched member with holds | listed | ⟨identity, named⟩
      · simp [held_begun] at holds
      · exact (exact key).mp listed
      · exact ⟨identity, named⟩
    · intro rows returned key present mine
      exact sends.touched_of_matched returned (unscanned_begun _ _ _ _ _) present ((exact key).mpr mine)

theorem historyKey_iff (keyPrefix key : String) :
    (∃ identity, key = historyKey keyPrefix identity) ↔ (keyPrefix ++ ":history:").toList <+: key.toList := by
  constructor
  · rintro ⟨identity, rfl⟩
    exact ⟨identity.toList, String.toList_append.symm⟩
  · rintro ⟨identity, same⟩
    exact ⟨String.ofList identity, String.toList_inj.mp (by rw [← same, historyKey]; simp)⟩

section Bytes

variable {text : String}

theorem encode_star (text : String) : Utf8.encode (text ++ "*") = Utf8.encode text ++ [scanMarks.star] := by
  rw [Utf8.encode_append]
  rfl

/-- The characters and the bytes that are special in a pattern. -/
theorem plain_iff : Plain text ↔ ∀ byte ∈ Utf8.encode text, scanMarks.Plain byte := by
  constructor
  · intro plain byte member
    have special : ∀ char ∈ ['*', '?', '[', '\\'], byte.toNat ≠ char.toNat := by
      intro char listed same
      have ascii : char.toNat < 128 := by
        simp only [List.mem_cons, List.not_mem_nil, or_false] at listed
        rcases listed with rfl | rfl | rfl | rfl <;> decide
      obtain ⟨found, inside, code⟩ := Utf8.exists_char_of_mem_encode member (same ▸ ascii)
      have equal : found = char := Char.toNat_inj.mp (code.trans same)
      exact plain found inside (equal ▸ listed)
    refine ⟨?_, ?_, ?_, ?_⟩
    · rintro rfl
      exact special '*' (by simp) rfl
    · rintro rfl
      exact special '?' (by simp) rfl
    · rintro rfl
      exact special '[' (by simp) rfl
    · rintro rfl
      exact special '\\' (by simp) rfl
  · intro plain char member listed
    have encoded : ∀ byte ∈ String.utf8EncodeChar char, scanMarks.Plain byte := by
      intro byte inside
      apply plain
      rw [Utf8.encode_eq_flatMap]
      exact List.mem_flatMap.mpr ⟨char, member, inside⟩
    simp only [List.mem_cons, List.not_mem_nil, or_false] at listed
    rcases listed with rfl | rfl | rfl | rfl
    · exact (encoded 42 (by decide)).star rfl
    · exact (encoded 63 (by decide)).any rfl
    · exact (encoded 91 (by decide)).opening rfl
    · exact (encoded 92 (by decide)).escape rfl

theorem globs_scanMatches : Globs scanMatches := by
  intro start plain key
  rw [scanMatches, encode_star, Glob.Marks.accepts_tokens_of_plain (plain_iff.mp plain), Utf8.encode_prefix_iff]

/-- Only a plain text makes a pattern for exactly the keys that begin with it. -/
theorem plain_of_exact (front : String)
    (exact : ∀ key, scanMatches (front ++ ":" ++ "*") key ↔ (front ++ ":").toList <+: key.toList) :
    Plain (front ++ ":") := by
  have whole : Utf8.encode (front ++ ":") = Utf8.encode front ++ [58] := Utf8.encode_append front ":"
  have accepted : ∀ key bytes, Utf8.encode key = bytes →
      (Glob.accepts (scanMarks.tokens (Utf8.encode front ++ [58] ++ [scanMarks.star])) bytes = true ↔
        (front ++ ":").toList <+: key.toList) := by
    rintro key _ rfl
    rw [← exact key, scanMatches, encode_star, whole]
  have own := (accepted (front ++ ":") _ whole).mpr (List.prefix_refl _)
  have longer : Glob.accepts (scanMarks.tokens (Utf8.encode front ++ [58] ++ [scanMarks.star]))
      (Utf8.encode front ++ [58] ++ [120]) = true := by
    refine (accepted (front ++ ":" ++ "x") _ ?_).mpr ⟨['x'], by simp⟩
    rw [Utf8.encode_append, whole]
    rfl
  have foreign : Glob.accepts (scanMarks.tokens (Utf8.encode front ++ [58] ++ [scanMarks.star]))
      (Utf8.encode front ++ 121 :: (Utf8.encode front ++ [58])) = false := by
    rw [Bool.eq_false_iff]
    intro found
    have starts := (accepted (front ++ "y" ++ (front ++ ":")) _ ?_).mp found
    · simp at starts
    · rw [Utf8.encode_append, Utf8.encode_append, whole, List.append_assoc]
      rfl
  rw [plain_iff, whole]
  refine Glob.Marks.plain_of_accepts own longer foreign ?_
  intro member
  rw [← whole] at member
  obtain ⟨char, inside, code⟩ := Utf8.exists_char_of_mem_encode member (by decide)
  obtain rfl : char = '?' := Char.toNat_inj.mp code
  obtain ⟨left, right, split⟩ := List.append_of_mem inside
  have marked : front ++ ":" = String.ofList left ++ "?" ++ String.ofList right :=
    String.toList_inj.mp (by rw [split]; simp)
  refine ⟨Utf8.encode (String.ofList left), Utf8.encode (String.ofList right), 121, ?_, ?_⟩
  · rw [← whole, marked, Utf8.encode_append, Utf8.encode_append, List.append_assoc]
    rfl
  · rw [Bool.eq_false_iff]
    intro found
    have starts := (accepted (String.ofList left ++ "y" ++ String.ofList right) _ ?_).mp found
    · rw [split] at starts
      simp at starts
    · rw [Utf8.encode_append, Utf8.encode_append, List.append_assoc]
      rfl

end Bytes

example : scanMatches "h[^e]?lo*" "hallo" ∧ ¬ scanMatches "h[^e]?lo*" "hello" ∧ scanMatches "h\\*[c-a]" "h*b" := by
  decide +kernel

/-- The syncs of a prefix keep to its keys exactly if nothing in it is special in a pattern. -/
theorem touchesOwn_iff_plain (keyPrefix : String) : TouchesOwn scanMatches keyPrefix ↔ Plain keyPrefix := by
  rw [touchesOwn_iff, ← plain_keyStart_iff]
  simp only [historyKey_iff]
  constructor
  · intro exact
    have start : keyPrefix ++ ":history:" = keyPrefix ++ ":history" ++ ":" := by
      rw [String.append_assoc]
      rfl
    rw [start] at exact ⊢
    exact plain_of_exact _ exact
  · intro plain key
    exact globs_scanMatches _ plain key

/-- The keys a store writes. -/
theorem exists_zadd_iff (other key : String) :
    (∃ seq newEvents, ∃ event ∈ Valkey.zadds (other ++ ":history:") seq newEvents, event.key = key) ↔
      (other ++ ":history:").toList <+: key.toList := by
  rw [← historyKey_iff]
  constructor
  · rintro ⟨seq, newEvents, event, member, rfl⟩
    obtain ⟨entry, -, rfl⟩ := List.mem_map.mp member
    exact ⟨entry.1.1, rfl⟩
  · rintro ⟨identity, rfl⟩
    exact ⟨0, [(identity, 0)], _, List.mem_singleton_self _, rfl⟩

/-- Neither text begins with the other. -/
def Apart (first second : String) : Prop := ¬ first.toList <+: second.toList ∧ ¬ second.toList <+: first.toList

instance (first second : String) : Decidable (Apart first second) := inferInstanceAs (Decidable (_ ∧ _))

theorem leavesAlone_iff {keyPrefix other : String} (own : TouchesOwn scanMatches keyPrefix) :
    LeavesAlone scanMatches keyPrefix other ↔ Apart (keyPrefix ++ ":history:") (other ++ ":history:") := by
  constructor
  · intro alone
    -- a key with both starts is written by one store and listed for the other
    have disjoint : ∀ key : String, (keyPrefix ++ ":history:").toList <+: key.toList →
        ¬ (other ++ ":history:").toList <+: key.toList := by
      intro key mine yours
      have listed := ((touchesOwn_iff keyPrefix).mp own key).mpr ((historyKey_iff keyPrefix key).mpr mine)
      obtain ⟨commands, last, sends, member⟩ := exists_sends_touching keyPrefix listed
      obtain ⟨seq, newEvents, event, written, rfl⟩ := (exists_zadd_iff other key).mpr yours
      exact alone _ _ _ _ _ _ _ sends seq newEvents event written member
    exact ⟨fun longer => disjoint _ longer (List.prefix_refl _), fun shorter => disjoint _ (List.prefix_refl _) shorter⟩
  · intro apart steady seq newEvents cutoff maxIdentities commands last sends otherSeq otherEvents event written member
    have mine := (historyKey_iff keyPrefix _).mp ((own _ _ _ _ _ _ _ sends).1 event.key member)
    have yours := (exists_zadd_iff other event.key).mp ⟨otherSeq, otherEvents, event, written, rfl⟩
    rcases List.prefix_or_prefix_of_prefix mine yours with longer | shorter
    · exact apart.1 longer
    · exact apart.2 shorter

/-- The syncs of a prefix touch the keys of the prefix, all of them and no others, and leave
    the keys of another store alone, exactly if the prefix has no character that is special
    in a pattern and the starts of the two stores' keys do not continue each other. -/
theorem key_scope_iff (keyPrefix other : String) :
    (TouchesOwn scanMatches keyPrefix ∧ LeavesAlone scanMatches keyPrefix other) ↔
      Plain keyPrefix ∧ Apart (keyPrefix ++ ":history:") (other ++ ":history:") := by
  constructor
  · rintro ⟨own, alone⟩
    exact ⟨(touchesOwn_iff_plain keyPrefix).mp own, (leavesAlone_iff own).mp alone⟩
  · rintro ⟨plain, apart⟩
    have own := (touchesOwn_iff_plain keyPrefix).mpr plain
    exact ⟨own, (leavesAlone_iff own).mpr apart⟩

/-- A class in the prefix matches one of its characters, not itself: the store does not find
    its own keys and prunes those of another. -/
theorem class_prunes_another_store :
    "tenant[1]" ≠ "tenant1" ∧
      ¬ scanMatches "tenant[1]:history:*" "tenant[1]:history:dn:cn=alice" ∧
      scanMatches "tenant[1]:history:*" "tenant1:history:dn:cn=alice" ∧
      ¬ TouchesOwn scanMatches "tenant[1]" ∧ ¬ LeavesAlone scanMatches "tenant[1]" "tenant1" := by
  have listed : scanMatches "tenant[1]:history:*" "tenant1:history:dn:cn=alice" := by decide +kernel
  refine ⟨by decide, by decide +kernel, listed, ?_, ?_⟩
  · intro own
    exact absurd ((touchesOwn_iff_plain _).mp own) (by decide +kernel)
  · intro alone
    obtain ⟨commands, last, sends, member⟩ := exists_sends_touching "tenant[1]" listed
    exact alone _ _ _ _ _ _ _ sends 0 [("dn:cn=alice", 0)] _ (List.mem_singleton_self _) member

end ValkeySync

end AiProtect
