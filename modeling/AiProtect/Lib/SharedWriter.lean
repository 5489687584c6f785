import AiProtect.Lib.Interleaving
import Mathlib.Logic.Function.Basic

/-! # Two parties that write to one stream

Each party hands over whole items, one at a time. An item is written in pieces of any
size by the party that holds the lock, and the lock is kept until the item is complete,
so the stream is always the start of an interleaving of whole items.
-/

universe u

inductive Side where
  | left
  | right
  deriving DecidableEq, Repr

def Side.other : Side → Side
  | .left => .right
  | .right => .left

/-- What a party is doing: it waits for the lock with an item, or has the rest of one
    left to write. -/
inductive Turn (α : Type u) where
  | idle
  | waiting (item : List α)
  | writing (rest : List α)
  deriving DecidableEq, Repr

structure SharedWriter (α : Type u) where
  out : List α
  turn : Side → Turn α

variable {α : Type u}

namespace Turn

def isWriting : Turn α → Bool
  | .writing _ => true
  | _ => false

def after : List α → Turn α
  | [] => .idle
  | next :: rest => .writing (next :: rest)

theorem after_idle_iff (rest : List α) : after rest = .idle ↔ rest = [] := by
  cases rest with
  | nil => exact iff_of_true rfl rfl
  | cons next more => simp only [after, reduceCtorEq]

/-- The item a party has not finished, if `begun` is what it has written of it. -/
def owes (begun : List α) : Turn α → List (List α)
  | .idle => []
  | .waiting item => [item]
  | .writing rest => [begun ++ rest]

theorem owes_of_not_writing {turn : Turn α} (begun other : List α) (still : turn.isWriting = false) :
    turn.owes begun = turn.owes other := by
  cases turn with
  | idle | waiting => rfl
  | writing rest => cases still

theorem owes_of_ne_idle {turn : Turn α} (busy : turn ≠ .idle) (begun : List α) :
    ∃ item, turn.owes begun = [item] := by
  cases turn with
  | idle => exact absurd rfl busy
  | waiting item => exact ⟨item, rfl⟩
  | writing rest => exact ⟨begun ++ rest, rfl⟩

end Turn

namespace SharedWriter

def start : SharedWriter α := ⟨[], fun _ => .idle⟩

def submit (writer : SharedWriter α) (side : Side) (item : List α) : SharedWriter α :=
  { writer with turn := Function.update writer.turn side (.waiting item) }

def lock (writer : SharedWriter α) (side : Side) : SharedWriter α :=
  match writer.turn side with
  | .waiting item =>
      if (writer.turn side.other).isWriting = true then writer
      else { writer with turn := Function.update writer.turn side (.writing item) }
  | _ => writer

def write (writer : SharedWriter α) (side : Side) (count : Nat) : SharedWriter α :=
  match writer.turn side with
  | .writing rest =>
      { out := writer.out ++ rest.take count
        turn := Function.update writer.turn side (.after (rest.drop count)) }
  | _ => writer

theorem lock_start (side : Side) : (start : SharedWriter α).lock side = start := rfl

theorem write_start (side : Side) (count : Nat) : (start : SharedWriter α).write side count = start := rfl

/-- The items of each party that are on the stream in full, `whole` in the order of the
    stream, and what has been written of the next one. -/
structure Ledger (writer : SharedWriter α) (items done : Side → List (List α)) (whole : List (List α))
    (begun : List α) : Prop where
  mixed : Interleaving (done .left) (done .right) whole
  out : writer.out = whole.flatten ++ begun
  items : ∀ side, items side = done side ++ (writer.turn side).owes begun
  alone : ∀ side, (writer.turn side).isWriting = true → (writer.turn side.other).isWriting = false
  fresh : (∀ side, (writer.turn side).isWriting = false) → begun = []

/-- The parties have handed over `items`, and the stream has them as far as it goes. -/
def Accounts (writer : SharedWriter α) (items : Side → List (List α)) : Prop :=
  ∃ done whole begun, Ledger writer items done whole begun

theorem accounts_start : Accounts (start : SharedWriter α) fun _ => [] :=
  ⟨fun _ => [], [], [], .nil, rfl, fun _ => rfl, fun _ writing => (by cases writing), fun _ => rfl⟩

theorem mixed_update {done : Side → List (List α)} {whole : List (List α)}
    (mixed : Interleaving (done .left) (done .right) whole) (side : Side) (item : List α) :
    Interleaving (Function.update done side (done side ++ [item]) .left)
      (Function.update done side (done side ++ [item]) .right) (whole ++ [item]) := by
  cases side with
  | left => exact mixed.left item
  | right => exact mixed.right item

theorem eq_or_eq_other (side another : Side) : another = side ∨ another = side.other := by
  cases side <;> cases another <;> simp only [Side.other, reduceCtorEq, or_true, or_false]

theorem other_ne (side : Side) : side.other ≠ side := by
  cases side <;> exact fun same => by cases same

theorem other_other (side : Side) : side.other.other = side := by
  cases side <;> rfl

theorem turn_submit (writer : SharedWriter α) (side another : Side) (item : List α) :
    (writer.submit side item).turn another = if another = side then .waiting item else writer.turn another :=
  Function.update_apply ..

theorem lock_turn_idle (writer : SharedWriter α) (side another : Side) :
    (writer.lock side).turn another = .idle ↔ writer.turn another = .idle := by
  cases turn : writer.turn side with
  | idle | writing => simp only [lock, turn]
  | waiting item =>
      simp only [lock, turn]
      split
      · rfl
      · rcases eq_or_eq_other side another with rfl | rfl
        · simp only [Function.update_self, turn, reduceCtorEq]
        · simp only [Function.update_of_ne (other_ne side)]

theorem write_turn_other (writer : SharedWriter α) (side : Side) (count : Nat) :
    (writer.write side count).turn side.other = writer.turn side.other := by
  cases turn : writer.turn side with
  | idle | waiting => simp only [write, turn]
  | writing rest => simp only [write, turn, Function.update_of_ne (other_ne side)]

theorem write_turn_self {writer : SharedWriter α} {side : Side} {rest : List α}
    (turn : writer.turn side = .writing rest) (count : Nat) :
    (writer.write side count).turn side = .after (rest.drop count) := by
  simp only [write, turn, Function.update_self]

namespace Accounts

variable {writer : SharedWriter α} {items : Side → List (List α)}

theorem submit (accounts : writer.Accounts items) {side : Side} (idle : writer.turn side = .idle)
    (item : List α) :
    (writer.submit side item).Accounts (Function.update items side (items side ++ [item])) := by
  obtain ⟨done, whole, begun, ledger⟩ := accounts
  refine ⟨done, whole, begun, ledger.mixed, ledger.out, ?_, ?_, ?_⟩
  · intro another
    rcases eq_or_eq_other side another with rfl | rfl
    · simp only [SharedWriter.submit, Function.update_self, ledger.items, idle, Turn.owes, List.append_nil]
    · simp only [SharedWriter.submit, Function.update_of_ne (other_ne side), ledger.items]
  · intro another writing
    rcases eq_or_eq_other side another with rfl | rfl
    · simp only [SharedWriter.submit, Function.update_self, Turn.isWriting, Bool.false_eq_true] at writing
    · simp only [SharedWriter.submit, other_other, Function.update_self, Turn.isWriting]
  · intro still
    refine ledger.fresh fun another => ?_
    rcases eq_or_eq_other side another with rfl | rfl
    · simp only [idle, Turn.isWriting]
    · simpa only [SharedWriter.submit, Function.update_of_ne (other_ne side)] using still side.other

theorem lock (accounts : writer.Accounts items) (side : Side) : (writer.lock side).Accounts items := by
  cases turn : writer.turn side with
  | idle | writing =>
      simp only [SharedWriter.lock, turn]
      exact accounts
  | waiting item =>
      simp only [SharedWriter.lock, turn]
      split
      · exact accounts
      · rename_i free
        have free := Bool.eq_false_iff.mpr free
        obtain ⟨done, whole, begun, ledger⟩ := accounts
        have nothing : begun = [] := by
          refine ledger.fresh fun another => ?_
          rcases eq_or_eq_other side another with rfl | rfl
          · simp only [turn, Turn.isWriting]
          · exact free
        refine ⟨done, whole, begun, ledger.mixed, ledger.out, ?_, ?_, fun _ => nothing⟩
        · intro another
          rcases eq_or_eq_other side another with rfl | rfl
          · simp only [Function.update_self, ledger.items, turn, nothing, Turn.owes, List.nil_append]
          · simp only [Function.update_of_ne (other_ne side), ledger.items]
        · intro another writing
          rcases eq_or_eq_other side another with rfl | rfl
          · simpa only [Function.update_of_ne (other_ne another)] using free
          · simp only [Function.update_of_ne (other_ne side), free, Bool.false_eq_true] at writing

theorem write (accounts : writer.Accounts items) (side : Side) (count : Nat) :
    (writer.write side count).Accounts items := by
  cases turn : writer.turn side with
  | idle | waiting =>
      simp only [SharedWriter.write, turn]
      exact accounts
  | writing rest =>
      simp only [SharedWriter.write, turn]
      obtain ⟨done, whole, begun, ledger⟩ := accounts
      have free : (writer.turn side.other).isWriting = false := ledger.alone side (by rw [turn]; rfl)
      cases left : rest.drop count with
      | nil =>
          have all : rest.take count = rest := by
            simpa only [left, List.append_nil] using List.take_append_drop count rest
          refine ⟨Function.update done side (done side ++ [begun ++ rest]), whole ++ [begun ++ rest], [],
            mixed_update ledger.mixed side _, ?_, ?_, ?_, fun _ => rfl⟩
          · simp only [all, ledger.out, List.flatten_append, List.flatten_singleton, List.append_assoc,
              List.append_nil]
          · intro another
            rcases eq_or_eq_other side another with rfl | rfl
            · simp only [Function.update_self, ledger.items, turn, Turn.owes, Turn.after, List.append_nil]
            · simp only [Function.update_of_ne (other_ne side), ledger.items,
                Turn.owes_of_not_writing begun [] free]
          · intro another writing
            rcases eq_or_eq_other side another with rfl | rfl
            · simp only [Function.update_self, Turn.after, Turn.isWriting, Bool.false_eq_true] at writing
            · simp only [Function.update_of_ne (other_ne side), free, Bool.false_eq_true] at writing
      | cons next more =>
          have parts : begun ++ rest = begun ++ rest.take count ++ next :: more := by
            rw [← left, List.append_assoc, List.take_append_drop]
          refine ⟨done, whole, begun ++ rest.take count, ledger.mixed, ?_, ?_, ?_, ?_⟩
          · simp only [ledger.out, List.append_assoc]
          · intro another
            rcases eq_or_eq_other side another with rfl | rfl
            · simp only [Function.update_self, ledger.items, turn, Turn.owes, Turn.after, parts]
            · simp only [Function.update_of_ne (other_ne side), ledger.items,
                Turn.owes_of_not_writing begun (begun ++ rest.take count) free]
          · intro another writing
            rcases eq_or_eq_other side another with rfl | rfl
            · simpa only [Function.update_of_ne (other_ne another)] using free
            · simp only [Function.update_of_ne (other_ne side), free, Bool.false_eq_true] at writing
          · intro still
            simpa only [Function.update_self, Turn.after, Turn.isWriting, Bool.true_eq_false] using still side

/-- The stream is the start of an interleaving of whole items. -/
theorem out_prefix (accounts : writer.Accounts items) :
    ∃ merged, Interleaving (items .left) (items .right) merged ∧ writer.out <+: merged.flatten := by
  obtain ⟨done, whole, begun, ledger⟩ := accounts
  rw [ledger.items .left, ledger.items .right, ledger.out]
  cases left : writer.turn .left with
  | writing rest =>
      refine ⟨_, (ledger.mixed.appendLeft _).appendRight _, ?_⟩
      simp only [Turn.owes, List.flatten_append, List.flatten_singleton, List.append_assoc]
      exact ⟨_, List.append_assoc ..⟩
  | idle | waiting =>
      cases right : writer.turn .right with
      | writing rest =>
          refine ⟨_, (ledger.mixed.appendRight _).appendLeft _, ?_⟩
          simp only [Turn.owes, List.flatten_append, List.flatten_singleton, List.append_assoc]
          exact ⟨_, List.append_assoc ..⟩
      | idle | waiting =>
          have nothing : begun = [] := by
            refine ledger.fresh fun side => ?_
            cases side with
            | left => simp only [left, Turn.isWriting]
            | right => simp only [right, Turn.isWriting]
          refine ⟨_, (ledger.mixed.appendLeft _).appendRight _, ?_⟩
          simp only [nothing, List.append_nil, List.flatten_append, List.append_assoc]
          exact List.prefix_append _ _

/-- Whatever a party has handed over is on the stream in full, but for the item it is
    still working on. -/
theorem whole_prefix (accounts : writer.Accounts items) :
    ∃ (done : Side → List (List α)) (whole : List (List α)),
      Interleaving (done .left) (done .right) whole ∧ whole.flatten <+: writer.out ∧
      ∀ side, done side <+: items side ∧ (writer.turn side = .idle → items side = done side) ∧
        (writer.turn side ≠ .idle → ∃ item, items side = done side ++ [item]) := by
  obtain ⟨done, whole, begun, ledger⟩ := accounts
  refine ⟨done, whole, ledger.mixed, ⟨begun, ledger.out.symm⟩, fun side => ⟨?_, ?_, ?_⟩⟩
  · exact ⟨_, (ledger.items side).symm⟩
  · intro idle
    simp only [ledger.items, idle, Turn.owes, List.append_nil]
  · intro busy
    obtain ⟨item, owed⟩ := Turn.owes_of_ne_idle busy begun
    exact ⟨item, by rw [ledger.items, owed]⟩

end Accounts

end SharedWriter
