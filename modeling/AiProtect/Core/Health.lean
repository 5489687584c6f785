import AiProtect.Core.Clock
import AiProtect.Core.Text
import AiProtect.Lib.Pieces
import Mathlib.Data.List.Infix

/-! # The health endpoint

A probe connection is read until a line ending has arrived, the buffer is full or the client
closes its side. The path on the first line then selects one of three fixed responses.
-/

namespace AiProtect

namespace Health

/-- The size of the buffer for one request. -/
def bufLen : Nat := 512

def okResponse : String := "HTTP/1.1 200 OK\r\ncontent-length: 0\r\nconnection: close\r\n\r\n"

def unavailableResponse : String :=
  "HTTP/1.1 503 Service Unavailable\r\ncontent-length: 0\r\nconnection: close\r\n\r\n"

def notFoundResponse : String := "HTTP/1.1 404 Not Found\r\ncontent-length: 0\r\nconnection: close\r\n\r\n"

/-- `\r\n`. -/
def crlf : List UInt8 := [13, 10]

/-- The windows of two bytes are searched for a line ending. -/
def hasCrlf : List UInt8 → Bool
  | first :: second :: rest => [first, second] == crlf || hasCrlf (second :: rest)
  | _ => false

/-- What a client does after its last byte: it closes its side, the connection breaks, or
    nothing more comes before the deadline. -/
inductive Ending where
  | closes
  | breaks
  | stalls
  deriving DecidableEq, Repr

/-- How the read loop is left. -/
inductive ReadResult where
  | done (buf : List UInt8)
  | failed
  | timedOut
  deriving DecidableEq, Repr

def complete (buf : List UInt8) : Bool := decide (buf.length = bufLen) || hasCrlf buf

/-- The read loop, with the bytes read so far. A read of more than fits leaves the rest of
    its piece behind, and the loop is over then. -/
def readLoop (ending : Ending) : List UInt8 → List (List UInt8) → ReadResult
  | buf, [] =>
      if complete buf then .done buf
      else
        match ending with
        | .closes => .done buf
        | .breaks => .failed
        | .stalls => .timedOut
  | buf, piece :: later =>
      if complete buf then .done buf
      else
        match piece.take (bufLen - buf.length) with
        | [] => .done buf
        | read => readLoop ending (buf ++ read) later

/-- `lines().next()`: a line ends at a newline, with a carriage return before it or not. -/
def firstLine (text : String) : Option String :=
  if text.toList = [] then none
  else
    let line := text.toList.takeWhile fun char => char ≠ '\n'
    if '\n' ∈ text.toList ∧ line.getLast? = some '\r' then some (String.ofList line.dropLast)
    else some (String.ofList line)

def splitWhitespace (text : String) : List String :=
  ((text.toList.splitOnP isWhitespace).filter fun token => token ≠ []).map String.ofList

/-- The second token of the first line. -/
def requestPath (request : String) : String :=
  ((firstLine request).bind fun line => (splitWhitespace line)[1]?).getD ""

def respond (path : String) (shutdown : Bool) : String :=
  if path = "/healthz" then okResponse
  else if path = "/readyz" then if !shutdown then okResponse else unavailableResponse
  else notFoundResponse

/-- What a connection comes to: a response, the error of a read that is passed on, or the
    text of the error for a deadline that has passed. -/
inductive Outcome where
  | answered (response : String)
  | failed
  | timedOut (message : String)
  deriving DecidableEq, Repr

/-- `READ_TIMEOUT`, for all connections outside tests. -/
def readTimeout : Nat := fromSecs 5

def handleConnection (ending : Ending) (stream : Pieces UInt8) (shutdown : Bool) (readTimeout : Nat) : Outcome :=
  match readLoop ending [] stream.pieces with
  | .done buf => .answered (respond (requestPath (fromUtf8Lossy buf)) shutdown)
  | .failed => .failed
  | .timedOut => .timedOut s!"no request received within {debugDuration readTimeout}"

variable {ending : Ending} {buf : List UInt8} {pieces : List (List UInt8)}

theorem hasCrlf_iff : hasCrlf buf = true ↔ crlf <:+: buf := by
  induction buf using hasCrlf.induct with
  | case1 first second rest ih =>
      have further : crlf <:+: first :: second :: rest ↔
          crlf <+: first :: second :: rest ∨ crlf <:+: second :: rest := List.infix_cons_iff
      have here : crlf <+: first :: second :: rest ↔ [first, second] = crlf := by simp [crlf, eq_comm]
      rw [hasCrlf, Bool.or_eq_true, ih, beq_iff_eq, further, here]
  | case2 buf short =>
      constructor
      · intro found
        rw [hasCrlf.eq_2 buf short] at found
        cases found
      · intro found
        have long := found.length_le
        cases buf with
        | nil => simp [crlf] at long
        | cons first rest =>
            cases rest with
            | nil => simp [crlf] at long
            | cons second rest => exact absurd rfl (short first second rest)

theorem readLoop_of_complete (filled : complete buf = true) : readLoop ending buf pieces = .done buf := by
  cases pieces with
  | nil => simp only [readLoop, filled, if_true]
  | cons piece later => simp only [readLoop, filled, if_true]

theorem readLoop_cons_of_incomplete {piece : List UInt8} (unfilled : complete buf = false)
    (room : buf.length < bufLen) (sent : piece ≠ []) :
    readLoop ending buf (piece :: pieces) = readLoop ending (buf ++ piece.take (bufLen - buf.length)) pieces := by
  have read : piece.take (bufLen - buf.length) ≠ [] := by
    rw [ne_eq, List.take_eq_nil_iff]
    simp only [sent, or_false]
    omega
  rw [readLoop, if_neg (by simp [unfilled])]
  split
  · rename_i nothing
    exact absurd nothing read
  · rfl

/-- Enough of a request: a line ending, a full buffer, or the end of what the client sends. -/
def Enough (ending : Ending) (bytes : List UInt8) : Prop :=
  crlf <:+: bytes ∨ bufLen ≤ bytes.length ∨ ending = .closes

/-- Read this far, a request is as good as read to the end of the buffer. -/
structure Suffices (buf bytes : List UInt8) : Prop where
  starts : buf <+: bytes.take bufLen
  ends : buf = bytes.take bufLen ∨ crlf <:+: buf

theorem suffices_of_complete {rest : List UInt8} (room : buf.length ≤ bufLen) (filled : complete buf = true) :
    Suffices buf (buf ++ rest) := by
  have starts : buf <+: (buf ++ rest).take bufLen := by
    rw [List.take_append, List.take_of_length_le room]
    exact List.prefix_append _ _
  simp only [complete, Bool.or_eq_true, decide_eq_true_eq] at filled
  rcases filled with full | ended
  · exact ⟨starts, .inl (by rw [← full, List.take_left])⟩
  · exact ⟨starts, .inr (hasCrlf_iff.mp ended)⟩

theorem readLoop_suffices (nonempty : ∀ piece ∈ pieces, piece ≠ []) (room : buf.length ≤ bufLen)
    (enough : Enough ending (buf ++ pieces.flatten)) :
    ∃ read, readLoop ending buf pieces = .done read ∧ Suffices read (buf ++ pieces.flatten) := by
  induction pieces generalizing buf with
  | nil =>
      by_cases filled : complete buf = true
      · exact ⟨buf, readLoop_of_complete filled, suffices_of_complete room filled⟩
      · rw [List.flatten_nil, List.append_nil] at enough ⊢
        have whole : buf.take bufLen = buf := List.take_of_length_le room
        simp only [complete, Bool.or_eq_true, decide_eq_true_eq, not_or, hasCrlf_iff] at filled
        -- neither full nor at a line ending, so the client closes its side
        have closes : ending = .closes := by
          rcases enough with ended | long | closes
          · exact absurd ended filled.2
          · exact absurd (Nat.le_antisymm room long) filled.1
          · exact closes
        refine ⟨buf, ?_, ⟨by rw [whole], .inl whole.symm⟩⟩
        subst closes
        rw [readLoop]
        split <;> rfl
  | cons piece later ih =>
      by_cases filled : complete buf = true
      · exact ⟨buf, readLoop_of_complete filled, suffices_of_complete room filled⟩
      · have short : buf.length < bufLen := by
          refine Nat.lt_of_le_of_ne room fun full => filled ?_
          rw [complete, decide_eq_true full, Bool.true_or]
        rw [readLoop_cons_of_incomplete (by simpa using filled) short (nonempty piece List.mem_cons_self),
          List.flatten_cons]
        rw [List.flatten_cons] at enough
        by_cases fits : piece.length ≤ bufLen - buf.length
        · rw [← List.append_assoc] at enough
          rw [List.take_of_length_le fits, ← List.append_assoc]
          refine ih (fun other member => nonempty other (List.mem_cons_of_mem _ member)) ?_ enough
          rw [List.length_append]
          omega
        · -- the buffer is full inside this piece
          have full : (buf ++ piece.take (bufLen - buf.length)).length = bufLen := by
            rw [List.length_append, List.length_take]
            omega
          have filled : complete (buf ++ piece.take (bufLen - buf.length)) = true := by
            rw [complete, decide_eq_true full, Bool.true_or]
          refine ⟨_, readLoop_of_complete filled, ?_⟩
          have split : buf ++ (piece ++ later.flatten) = (buf ++ piece.take (bufLen - buf.length)) ++
              (piece.drop (bufLen - buf.length) ++ later.flatten) := by
            rw [List.append_assoc, ← List.append_assoc (piece.take _), List.take_append_drop]
          rw [split]
          exact suffices_of_complete (Nat.le_of_eq full) filled

/-- What comes after a newline has no part in the first line. -/
theorem firstLine_append (front rest other : List Char) :
    firstLine (String.ofList (front ++ '\n' :: rest)) = firstLine (String.ofList (front ++ '\n' :: other)) := by
  have line : ∀ after : List Char, ((front ++ '\n' :: after).takeWhile fun char => char ≠ '\n') =
      front.takeWhile fun char => char ≠ '\n' := by
    intro after
    rw [List.takeWhile_append]
    split
    · rename_i whole
      rw [List.takeWhile_cons_of_neg (by simp), List.append_nil]
      exact ((List.takeWhile_prefix _).eq_of_length whole).symm
    · rfl
  simp only [firstLine, String.toList_ofList, line]
  simp

theorem firstLine_of_suffices {bytes : List UInt8} (suffice : Suffices buf bytes) :
    firstLine (fromUtf8Lossy buf) = firstLine (fromUtf8Lossy (bytes.take bufLen)) := by
  rcases suffice.ends with whole | ⟨front, rest, ended⟩
  · rw [whole]
  · obtain ⟨later, longer⟩ := suffice.starts
    have ascii : (10 : UInt8).toNat < 128 := by decide
    have newline : Char.ofNat (10 : UInt8).toNat = '\n' := by decide
    have short : buf = (front ++ [13]) ++ 10 :: rest := by simp [← ended, crlf]
    have long : bytes.take bufLen = (front ++ [13]) ++ 10 :: (rest ++ later) := by simp [← longer, short]
    rw [short, long, fromUtf8Lossy, fromUtf8Lossy, Utf8.chunks_append ascii, Utf8.chunks_append ascii, newline,
      List.map_append, List.map_append, List.map_cons, List.map_cons]
    exact firstLine_append _ _ _

/-- Once enough has arrived, in whatever pieces, the answer is that of the first line of the
    bytes that fit the buffer. -/
theorem handleConnection_split (bytes : List UInt8) (ending : Ending) (enough : Enough ending bytes)
    (stream : Pieces UInt8) (split : stream.elements = bytes) (shutdown : Bool) (readTimeout : Nat) :
    (∃ buf, readLoop ending [] stream.pieces = .done buf ∧ buf <+: bytes ∧ buf.length ≤ bufLen) ∧
      handleConnection ending stream shutdown readTimeout =
        .answered (respond (requestPath (fromUtf8Lossy (bytes.take bufLen))) shutdown) := by
  subst split
  obtain ⟨buf, read, suffice⟩ : ∃ buf, readLoop ending [] stream.pieces = .done buf ∧
      Suffices buf ([] ++ stream.elements) := readLoop_suffices stream.nonempty (Nat.zero_le _) enough
  rw [List.nil_append] at suffice
  constructor
  · refine ⟨buf, read, suffice.starts.trans (List.take_prefix _ _), ?_⟩
    exact Nat.le_trans suffice.starts.length_le (List.length_take_le _ _)
  · simp only [handleConnection, read, requestPath]
    rw [firstLine_of_suffices suffice]

/-- A request cut inside a character and inside its line ending. -/
def cutRequest : Pieces UInt8 where
  pieces := ["GET /rea".toUTF8.toList, "dyz ".toUTF8.toList ++ [0xc3], [0xa9, 13], 10 :: "Host: a".toUTF8.toList]
  nonempty := by decide +kernel

theorem handleConnection_split_cut :
    Enough .stalls cutRequest.elements ∧
      handleConnection .stalls cutRequest true readTimeout = .answered unavailableResponse := by
  have enough : Enough .stalls cutRequest.elements := .inl (hasCrlf_iff.mp (by decide +kernel))
  refine ⟨enough, (handleConnection_split _ .stalls enough cutRequest rfl true readTimeout).2.trans ?_⟩
  decide +kernel

end Health

end AiProtect
