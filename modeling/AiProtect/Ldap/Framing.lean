import AiProtect.Ldap.Frame
import AiProtect.Lib.Pieces
import Mathlib.Data.Nat.Bitwise

/-! # The grammar of frames

A frame is a tag, a length of one of two forms, and as many bytes as the length says.
`read_frame` fills its buffers from whatever pieces the network delivers; this module
shows that it accepts exactly the frames of the grammar, takes exactly their bytes, and
fails exactly where the stream is not a sequence of such frames.
-/

namespace AiProtect

/-- The length octets for a content of some length: one octet below 128, or one that says
    how many octets follow, one to four, the first of them the most significant. -/
inductive LengthForm : Bytes → Nat → Prop where
  | short (first : UInt8) (clear : first.toNat < 128) : LengthForm [first] first.toNat
  | long (first : UInt8) (digits : Bytes) (count : first.toNat = 128 + digits.length)
      (some : 1 ≤ digits.length) (few : digits.length ≤ 4) : LengthForm (first :: digits) (bigEndian digits)

/-- A tag, length octets, and that many bytes of content. -/
def Element (element : Bytes) : Prop :=
  ∃ tag length content, element = tag :: length ++ content ∧ LengthForm length content.length

/-- An element that is short enough. -/
def IsFrame (frame : Bytes) : Prop :=
  ∃ tag length content, frame = tag :: length ++ content ∧ LengthForm length content.length ∧
    content.length ≤ maxFrameContentLen

/-- The stream ends inside an element. -/
def EndsInside (stream : Bytes) : Prop := stream ≠ [] ∧ ∃ more, more ≠ [] ∧ Element (stream ++ more)

/-- The second byte announces no length octets, or more than four. -/
def BadLength (stream : Bytes) : Prop :=
  ∃ tag first rest, stream = tag :: first :: rest ∧ 128 ≤ first.toNat ∧
    (first.toNat - 128 = 0 ∨ 4 < first.toNat - 128)

/-- The stream starts with the header of an element that is too long; `rest` comes after it. -/
def Oversized (stream rest : Bytes) : Prop :=
  ∃ tag length contentLen, stream = tag :: length ++ rest ∧ LengthForm length contentLen ∧
    maxFrameContentLen < contentLen

theorem and_high_eq_zero_iff (byte : UInt8) : byte &&& 0x80 = 0 ↔ byte.toNat < 128 := by
  have below := byte.toNat_lt
  have masked : (byte &&& 0x80).toNat = (byte.toNat.testBit 7).toNat * 128 := by
    rw [UInt8.toNat_and]
    exact Nat.and_two_pow byte.toNat 7
  rw [← UInt8.toNat_inj, masked, Nat.testBit_eq_decide_div_mod_eq]
  by_cases high : byte.toNat / 2 ^ 7 % 2 = 1
  · rw [decide_eq_true high]
    apply iff_of_false
    · decide
    · omega
  · rw [decide_eq_false high]
    apply iff_of_true
    · decide
    · omega

theorem toNat_and_low (byte : UInt8) : (byte &&& 0x7f).toNat = byte.toNat % 128 := by
  rw [UInt8.toNat_and]
  exact Nat.and_two_pow_sub_one_eq_mod byte.toNat 7

/-- What the first of several length octets says. -/
theorem long_first {first : UInt8} {count : Nat} (octet : first.toNat = 128 + count) (few : count ≤ 4) :
    ¬ first &&& 0x80 = 0 ∧ (first &&& 0x7f).toNat = count := by
  rw [and_high_eq_zero_iff, toNat_and_low]
  omega

/-- Length octets end where they say, so what follows them is determined. -/
theorem LengthForm.unique {length other rest otherRest : Bytes} {contentLen otherLen : Nat}
    (form : LengthForm length contentLen) (otherForm : LengthForm other otherLen)
    (same : length ++ rest = other ++ otherRest) :
    length = other ∧ contentLen = otherLen ∧ rest = otherRest := by
  cases form with
  | short first clear =>
      cases otherForm with
      | short first' _ =>
          obtain ⟨rfl, rfl⟩ := List.cons.inj same
          exact ⟨rfl, rfl, rfl⟩
      | long first' digits count _ _ =>
          obtain ⟨rfl, -⟩ := List.cons.inj same
          omega
  | long first digits count some few =>
      cases otherForm with
      | short first' clear =>
          obtain ⟨rfl, -⟩ := List.cons.inj same
          omega
      | long first' digits' count' _ _ =>
          obtain ⟨rfl, tails⟩ := List.cons.inj same
          obtain ⟨rfl, rfl⟩ := List.append_inj tails (by omega)
          exact ⟨rfl, rfl, rfl⟩

/-- No element is the start of a longer one. -/
theorem Element.eq_nil_of_append {front back : Bytes} (whole : Element front)
    (longer : Element (front ++ back)) : back = [] := by
  obtain ⟨tag, length, content, rfl, form⟩ := whole
  obtain ⟨tag', length', content', same, form'⟩ := longer
  rw [List.cons_append, List.cons_append, List.cons_append, List.append_assoc] at same
  obtain ⟨-, contentLen, contents⟩ := form.unique form' (List.cons.inj same).2
  have lengths := congrArg List.length contents
  rw [List.length_append] at lengths
  exact List.length_eq_zero_iff.mp (by omega)

theorem IsFrame.element {frame : Bytes} (isFrame : IsFrame frame) : Element frame := by
  obtain ⟨tag, length, content, whole, form, -⟩ := isFrame
  exact ⟨tag, length, content, whole, form⟩

/-- What `readFrame` makes of a header of the grammar. -/
theorem readFrame_header (tag : UInt8) {length : Bytes} {contentLen : Nat} (form : LengthForm length contentLen)
    (rest : Bytes) : readFrame (tag :: length ++ rest) = readContent (tag :: length) contentLen rest := by
  cases form with
  | short first clear => exact if_pos ((and_high_eq_zero_iff first).mpr clear)
  | long first digits count some few =>
      obtain ⟨high, numBytes⟩ := long_first count few
      have enough : ¬ (digits ++ rest).length < digits.length := by
        rw [List.length_append]
        omega
      simp only [List.cons_append, readFrame, if_neg high, numBytes,
        if_neg (by omega : ¬ (digits.length = 0 ∨ 4 < digits.length)), if_neg enough, List.take_left, List.drop_left]

theorem readFrame_badLength {stream : Bytes} (bad : BadLength stream) : ∃ message, readFrame stream = .error message := by
  obtain ⟨tag, first, rest, rfl, high, count⟩ := bad
  have set : ¬ first &&& 0x80 = 0 := by
    rw [and_high_eq_zero_iff]
    omega
  have below := first.toNat_lt
  have wrong : (first &&& 0x7f).toNat = 0 ∨ 4 < (first &&& 0x7f).toNat := by
    rw [toNat_and_low]
    omega
  simp only [readFrame, if_neg set, if_pos wrong]
  exact ⟨_, rfl⟩

/-- Every stream with a byte in it starts with a frame, ends inside an element, or starts
    with a header that `readFrame` refuses. -/
theorem stream_cases {stream : Bytes} (nonempty : stream ≠ []) :
    (∃ frame after, IsFrame frame ∧ stream = frame ++ after) ∨ EndsInside stream ∨ BadLength stream ∨
      ∃ rest, Oversized stream rest := by
  match stream with
  | [] => exact absurd rfl nonempty
  | [tag] =>
      apply Or.inr
      apply Or.inl
      exact ⟨nonempty, [0], by simp, tag, [0], [], rfl, .short 0 (by decide)⟩
  | tag :: first :: rest =>
      have below := first.toNat_lt
      by_cases bad : 128 ≤ first.toNat ∧ (first.toNat - 128 = 0 ∨ 4 < first.toNat - 128)
      · exact .inr (.inr (.inl ⟨tag, first, rest, rfl, bad⟩))
      by_cases header : ∃ digits content contentLen, rest = digits ++ content ∧ LengthForm (first :: digits) contentLen
      · obtain ⟨digits, content, contentLen, rfl, form⟩ := header
        by_cases long : maxFrameContentLen < contentLen
        · exact .inr (.inr (.inr ⟨content, tag, first :: digits, contentLen, rfl, form, long⟩))
        by_cases enough : contentLen ≤ content.length
        · have exact_len : (content.take contentLen).length = contentLen := List.length_take_of_le enough
          refine .inl ⟨tag :: first :: digits ++ content.take contentLen, content.drop contentLen,
            ⟨tag, first :: digits, content.take contentLen, rfl, ?_, ?_⟩, ?_⟩
          · rwa [exact_len]
          · omega
          · rw [List.append_assoc, List.take_append_drop]
            rfl
        · -- The content breaks off.
          refine .inr (.inl ⟨nonempty, List.replicate (contentLen - content.length) 0, ?_, ?_⟩)
          · apply List.ne_nil_of_length_pos
            rw [List.length_replicate]
            omega
          · refine ⟨tag, first :: digits, content ++ List.replicate (contentLen - content.length) 0, ?_, ?_⟩
            · simp only [List.cons_append, List.append_assoc]
            · rw [List.length_append, List.length_replicate, Nat.add_sub_cancel' (by omega)]
              exact form
      · -- The length octets break off: any octets complete them.
        have high : 128 ≤ first.toNat := by
          by_contra clear
          exact header ⟨[], rest, first.toNat, rfl, .short first (by omega)⟩
        have few : rest.length < first.toNat - 128 := by
          by_contra enough
          have taken : (rest.take (first.toNat - 128)).length = first.toNat - 128 :=
            List.length_take_of_le (by omega)
          exact header ⟨rest.take (first.toNat - 128), rest.drop (first.toNat - 128), _,
            (List.take_append_drop _ _).symm, .long first _ (by omega) (by omega) (by omega)⟩
        have digitsLen : (rest ++ List.replicate (first.toNat - 128 - rest.length) 0).length =
            first.toNat - 128 := by
          rw [List.length_append, List.length_replicate]
          omega
        refine .inr (.inl ⟨nonempty, List.replicate (first.toNat - 128 - rest.length) 0 ++
          List.replicate (bigEndian (rest ++ List.replicate (first.toNat - 128 - rest.length) 0)) 0, ?_, ?_⟩)
        · apply List.ne_nil_of_length_pos
          rw [List.length_append, List.length_replicate]
          omega
        · refine ⟨tag, first :: (rest ++ List.replicate (first.toNat - 128 - rest.length) 0),
            List.replicate (bigEndian (rest ++ List.replicate (first.toNat - 128 - rest.length) 0)) 0, ?_, ?_⟩
          · simp only [List.cons_append, List.append_assoc]
          · rw [List.length_replicate]
            exact .long first _ (by omega) (by omega) (by omega)

theorem readFrame_of_isFrame {frame : Bytes} (isFrame : IsFrame frame) (after : Bytes) :
    readFrame (frame ++ after) = .ok (some (frame, after)) := by
  obtain ⟨tag, length, content, rfl, form, short⟩ := isFrame
  rw [List.append_assoc, readFrame_header tag form, readContent, if_neg (by omega), List.take_left, List.drop_left,
    if_neg (by rw [List.length_append]; omega)]

theorem readFrame_oversized {stream rest : Bytes} (oversized : Oversized stream rest) :
    ∃ message, readFrame stream = .error message := by
  obtain ⟨tag, length, contentLen, rfl, form, long⟩ := oversized
  rw [readFrame_header tag form, readContent, if_pos long]
  exact ⟨_, rfl⟩

theorem readContent_isFrame {tag : UInt8} {length rest frame after : Bytes} {contentLen : Nat}
    (form : LengthForm length contentLen)
    (read : readContent (tag :: length) contentLen rest = .ok (some (frame, after))) : IsFrame frame := by
  unfold readContent at read
  split at read
  · cases read
  · split at read
    · cases read
    · obtain ⟨rfl, -⟩ := Prod.mk.inj (Option.some.inj (Except.ok.inj read))
      have taken : (rest.take contentLen).length = contentLen := List.length_take_of_le (by omega)
      refine ⟨tag, length, rest.take contentLen, rfl, ?_, by omega⟩
      rwa [taken]

/-- Only frames of the grammar are accepted. -/
theorem readFrame_isFrame {stream frame after : Bytes} (read : readFrame stream = .ok (some (frame, after))) :
    IsFrame frame := by
  match stream with
  | [] => cases read
  | [_] => cases read
  | tag :: first :: rest =>
      simp only [readFrame, toNat_and_low, and_high_eq_zero_iff] at read
      split at read
      · rename_i clear
        exact readContent_isFrame (.short first clear) read
      · split at read
        · cases read
        · split at read
          · cases read
          · have below := first.toNat_lt
            have taken : (rest.take (first.toNat % 128)).length = first.toNat % 128 :=
              List.length_take_of_le (by omega)
            exact readContent_isFrame (.long first _ (by omega) (by omega) (by omega)) read

theorem readFrame_error_iff {stream : Bytes} :
    (∃ message, readFrame stream = .error message) ↔
      EndsInside stream ∨ BadLength stream ∨ ∃ rest, Oversized stream rest := by
  constructor
  · rintro ⟨message, failed⟩
    have nonempty : stream ≠ [] := by
      intro empty
      rw [empty] at failed
      cases failed
    rcases stream_cases nonempty with ⟨frame, after, isFrame, rfl⟩ | other
    · rw [readFrame_of_isFrame isFrame] at failed
      cases failed
    · exact other
  · rintro (⟨nonempty, more, some, element⟩ | bad | ⟨rest, oversized⟩)
    · cases read : readFrame stream with
      | error message => exact ⟨message, rfl⟩
      | ok result =>
          cases result with
          | none => exact absurd (readFrame_none read) nonempty
          | some pair =>
              -- The frame at the start would be an element that goes on.
              obtain ⟨frame, after⟩ := pair
              rw [readFrame_eq read, List.append_assoc] at element
              have nothing := (readFrame_isFrame read).element.eq_nil_of_append element
              exact absurd (List.append_eq_nil_iff.mp nothing).2 some
    · exact readFrame_badLength bad
    · exact readFrame_oversized oversized

/-- A stream of bytes as the network delivers it. -/
abbrev ByteStream := Pieces UInt8

namespace ByteStream

/-- The length octets after the first one, and the length they give. Octets that are not
    sent are zeros at the front of the four-byte buffer. -/
def readLength (stream : ByteStream) (firstLengthByte : UInt8) : Except String (Bytes × Nat) × ByteStream :=
  if firstLengthByte &&& 0x80 = 0 then (.ok ([], firstLengthByte.toNat), stream)
  else
    let numBytes := (firstLengthByte &&& 0x7f).toNat
    if numBytes = 0 ∨ 4 < numBytes then
      (.error s!"unsupported LDAP message length encoding ({numBytes} length bytes)", stream)
    else
      match stream.readExact numBytes with
      | (some digits, rest) => (.ok (digits, bigEndian (List.replicate (4 - numBytes) 0 ++ digits)), rest)
      | (none, rest) => (.error "early eof", rest)

def readContent (stream : ByteStream) (header : Bytes) (contentLen : Nat) :
    Except String (Option Bytes) × ByteStream :=
  if maxFrameContentLen < contentLen then
    (.error s!"LDAP message length {contentLen} exceeds max frame size ({maxFrameContentLen} bytes)", stream)
  else
    match stream.readExact contentLen with
    | (some content, rest) => (.ok (some (header ++ content)), rest)
    | (none, rest) => (.error "early eof", rest)

/-- `read_frame`, with the stream it leaves behind. -/
def readFrame (stream : ByteStream) : Except String (Option Bytes) × ByteStream :=
  match stream.readExact 1 with
  | (some [tag], afterTag) =>
      match afterTag.readExact 1 with
      | (some [firstLengthByte], afterFirst) =>
          match readLength afterFirst firstLengthByte with
          | (.ok (digits, contentLen), rest) => readContent rest (tag :: firstLengthByte :: digits) contentLen
          | (.error message, rest) => (.error message, rest)
      | (_, rest) => (.error "early eof", rest)
  | (_, rest) => (.ok none, rest)

/-- Calls of `readFrame` one after the other, each of which returns a frame. -/
inductive Reads : ByteStream → List Bytes → ByteStream → Prop where
  | done (stream : ByteStream) : Reads stream [] stream
  | next {stream later rest : ByteStream} {frame : Bytes} {frames : List Bytes}
      (read : readFrame stream = (.ok (some frame), later)) (reads : Reads later frames rest) :
      Reads stream (frame :: frames) rest

/-- A call gives the result that the byte list of its stream determines, and leaves the
    bytes after the frame. -/
structure Follows (call : Except String (Option Bytes) × ByteStream)
    (pure : Except String (Option (Bytes × Bytes))) : Prop where
  result : call.1 = pure.map (Option.map Prod.fst)
  left : ∀ frame after, pure = .ok (some (frame, after)) → call.2.elements = after

theorem Follows.of_error {rest : ByteStream} {message : String} :
    Follows (.error message, rest) (.error message) :=
  ⟨rfl, fun _ _ absurd => by cases absurd⟩

theorem bigEndian_replicate_zero (count : Nat) (digits : Bytes) :
    bigEndian (List.replicate count 0 ++ digits) = bigEndian digits := by
  induction count with
  | zero => rfl
  | succ count ih => exact ih

variable {stream : ByteStream}

theorem readContent_follows (header : Bytes) (contentLen : Nat) :
    Follows (readContent stream header contentLen)
      (AiProtect.readContent header contentLen stream.elements) := by
  unfold readContent AiProtect.readContent
  by_cases long : maxFrameContentLen < contentLen
  · rw [if_pos long, if_pos long]
    exact .of_error
  · rw [if_neg long, if_neg long]
    by_cases fewer : stream.elements.length < contentLen
    · obtain ⟨rest, read, -⟩ := Pieces.readExact_short fewer
      rw [if_pos fewer, read]
      exact .of_error
    · obtain ⟨rest, read, left⟩ := Pieces.readExact_append (List.take_append_drop contentLen stream.elements).symm
      rw [List.length_take_of_le (by omega)] at read
      rw [if_neg fewer, read]
      refine ⟨rfl, ?_⟩
      intro frame after same
      obtain ⟨-, rfl⟩ := Prod.mk.inj (Option.some.inj (Except.ok.inj same))
      exact left

theorem readLength_form {first : UInt8} {digits after : Bytes} {contentLen : Nat}
    (flat : stream.elements = digits ++ after) (form : LengthForm (first :: digits) contentLen) :
    ∃ rest, readLength stream first = (.ok (digits, contentLen), rest) ∧ rest.elements = after := by
  cases form with
  | short _ clear => exact ⟨stream, if_pos ((and_high_eq_zero_iff first).mpr clear), flat⟩
  | long _ _ count some few =>
      obtain ⟨high, numBytes⟩ := long_first count few
      obtain ⟨rest, read, left⟩ := Pieces.readExact_append flat
      refine ⟨rest, ?_, left⟩
      simp only [readLength, if_neg high, numBytes, read, bigEndian_replicate_zero,
        if_neg (by omega : ¬ (digits.length = 0 ∨ 4 < digits.length))]

/-- A stream with two bytes: the call goes on with the length octets. -/
theorem readFrame_cons_cons {tag first : UInt8} {bytes : Bytes} (flat : stream.elements = tag :: first :: bytes) :
    ∃ afterFirst : ByteStream, afterFirst.elements = bytes ∧
      readFrame stream =
        match readLength afterFirst first with
        | (.ok (digits, contentLen), rest) => readContent rest (tag :: first :: digits) contentLen
        | (.error message, rest) => (.error message, rest) := by
  obtain ⟨afterTag, readTag, leftTag⟩ :=
    Pieces.readExact_append (show stream.elements = [tag] ++ first :: bytes from flat)
  obtain ⟨afterFirst, readFirst, leftFirst⟩ :=
    Pieces.readExact_append (show afterTag.elements = [first] ++ bytes from leftTag)
  refine ⟨afterFirst, leftFirst, ?_⟩
  rw [List.length_singleton] at readTag readFirst
  simp only [readFrame, readTag, readFirst]

theorem readFrame_nil (empty : stream.elements = []) :
    ∃ rest, readFrame stream = (.ok none, rest) ∧ rest.elements = [] := by
  have short : stream.elements.length < 1 := by
    rw [empty]
    decide
  obtain ⟨rest, read, left⟩ := Pieces.readExact_short short
  refine ⟨rest, ?_, left⟩
  simp only [readFrame, read]

theorem readFrame_singleton {tag : UInt8} (flat : stream.elements = [tag]) :
    (readFrame stream).1 = .error "early eof" := by
  obtain ⟨afterTag, readTag, leftTag⟩ := Pieces.readExact_append (show stream.elements = [tag] ++ [] from flat)
  have short : afterTag.elements.length < 1 := by
    rw [leftTag]
    decide
  obtain ⟨rest, readFirst, -⟩ := Pieces.readExact_short short
  rw [List.length_singleton] at readTag
  simp only [readFrame, readTag, readFirst]

/-- The cut of the stream into pieces makes no difference. -/
theorem readFrame_follows (stream : ByteStream) :
    Follows (readFrame stream) (AiProtect.readFrame stream.elements) := by
  match flat : stream.elements with
  | [] =>
      obtain ⟨rest, read, -⟩ := readFrame_nil flat
      exact ⟨congrArg Prod.fst read, fun _ _ absurd => by cases absurd⟩
  | [tag] => exact ⟨readFrame_singleton flat, fun _ _ absurd => by cases absurd⟩
  | tag :: first :: bytes =>
      obtain ⟨afterFirst, left, read⟩ := readFrame_cons_cons flat
      rw [read]
      simp only [readLength, AiProtect.readFrame]
      by_cases clear : first &&& 0x80 = 0
      · rw [if_pos clear, if_pos clear, ← left]
        exact readContent_follows _ _
      · rw [if_neg clear, if_neg clear]
        by_cases bad : (first &&& 0x7f).toNat = 0 ∨ 4 < (first &&& 0x7f).toNat
        · rw [if_pos bad, if_pos bad]
          exact .of_error
        · rw [if_neg bad, if_neg bad]
          by_cases fewer : bytes.length < (first &&& 0x7f).toNat
          · obtain ⟨rest, short, -⟩ := Pieces.readExact_short (left ▸ fewer)
            rw [if_pos fewer, short]
            exact .of_error
          · obtain ⟨rest, enough, after⟩ := Pieces.readExact_append
              (left.trans (List.take_append_drop (first &&& 0x7f).toNat bytes).symm)
            rw [List.length_take_of_le (by omega)] at enough
            rw [if_neg fewer, enough, ← after]
            simp only [bigEndian_replicate_zero]
            exact readContent_follows _ _

theorem readFrame_of_some {frame : Bytes} {later : ByteStream}
    (read : readFrame stream = (.ok (some frame), later)) :
    AiProtect.readFrame stream.elements = .ok (some (frame, later.elements)) := by
  have follows := readFrame_follows stream
  rw [read] at follows
  have result := follows.result
  cases pure : AiProtect.readFrame stream.elements with
  | error message =>
      rw [pure] at result
      cases result
  | ok found =>
      rw [pure] at result
      cases found with
      | none => cases result
      | some pair =>
          obtain ⟨frame', after⟩ := pair
          cases result
          rw [follows.left _ after pure]

/-- The header of an element that is too long is consumed, and nothing after it. -/
theorem readFrame_oversized_left {rest : Bytes} (oversized : Oversized stream.elements rest) :
    (readFrame stream).2.elements = rest := by
  obtain ⟨tag, length, contentLen, flat, form, long⟩ := oversized
  obtain ⟨first, digits, rfl⟩ : ∃ first digits, length = first :: digits := by
    cases form with
    | short first _ => exact ⟨first, [], rfl⟩
    | long first digits _ _ _ => exact ⟨first, digits, rfl⟩
  obtain ⟨afterFirst, left, read⟩ := readFrame_cons_cons flat
  obtain ⟨afterLength, lengthRead, lengthLeft⟩ := readLength_form left form
  rw [read, lengthRead]
  simp only [readContent, if_pos long]
  exact lengthLeft

theorem Reads.elements_eq {rest : ByteStream} {frames : List Bytes} (reads : Reads stream frames rest) :
    stream.elements = frames.flatten ++ rest.elements := by
  induction reads with
  | done stream => rfl
  | next read _ ih => rw [readFrame_eq (readFrame_of_some read), ih, List.flatten_cons, List.append_assoc]

/-- A stream that starts with a frame of the grammar gives this frame. -/
theorem readFrame_isFrame_append {frame after : Bytes} (isFrame : IsFrame frame)
    (flat : stream.elements = frame ++ after) :
    ∃ later, readFrame stream = (.ok (some frame), later) ∧ later.elements = after := by
  have pure := readFrame_of_isFrame isFrame after
  rw [← flat] at pure
  have follows := readFrame_follows stream
  refine ⟨(readFrame stream).2, Prod.ext ?_ rfl, follows.left frame after pure⟩
  rw [follows.result, pure]
  rfl

theorem reads_frames {frames : List Bytes} (grammar : ∀ frame ∈ frames, IsFrame frame)
    (flat : stream.elements = frames.flatten) : ∃ rest, Reads stream frames rest ∧ rest.elements = [] := by
  induction frames generalizing stream with
  | nil => exact ⟨stream, .done stream, flat⟩
  | cons frame frames ih =>
      obtain ⟨later, read, left⟩ := readFrame_isFrame_append (grammar frame List.mem_cons_self) flat
      obtain ⟨rest, reads, empty⟩ := ih (fun other member => grammar other (List.mem_cons_of_mem _ member)) left
      exact ⟨rest, .next read reads, empty⟩

theorem readFrame_none_iff : (readFrame stream).1 = .ok none ↔ stream.elements = [] := by
  constructor
  · intro none
    rw [(readFrame_follows stream).result] at none
    apply readFrame_none
    cases pure : AiProtect.readFrame stream.elements with
    | error message =>
        rw [pure] at none
        cases none
    | ok found =>
        cases found with
        | none => rfl
        | some pair =>
            rw [pure] at none
            cases none
  · intro empty
    obtain ⟨rest, read, -⟩ := readFrame_nil empty
    exact congrArg Prod.fst read

theorem readFrame_fails_iff :
    (∃ message, (readFrame stream).1 = .error message) ↔
      EndsInside stream.elements ∨ BadLength stream.elements ∨ ∃ rest, Oversized stream.elements rest := by
  rw [← readFrame_error_iff, (readFrame_follows stream).result]
  cases AiProtect.readFrame stream.elements with
  | error message => exact iff_of_true ⟨message, rfl⟩ ⟨message, rfl⟩
  | ok found => exact iff_of_false (fun ⟨_, absurd⟩ => by cases absurd) (fun ⟨_, absurd⟩ => by cases absurd)

/-- Framing is lossless and exact: on every stream, cut into any pieces, calls that return
    frames return exactly the bytes they consume; after any number of them, a call finds
    the end if and only if no byte is left, fails if and only if what is left breaks off
    inside an element or has a header that is refused, and leaves the content of an element
    that is too long unread. The frames of the grammar, written one after the other, are
    read back as they were written. -/
theorem framing_lossless_exact (stream : ByteStream) :
    (∀ frames rest, Reads stream frames rest →
      stream.elements = frames.flatten ++ rest.elements ∧
        ((readFrame rest).1 = .ok none ↔ rest.elements = []) ∧
        ((∃ message, (readFrame rest).1 = .error message) ↔
          EndsInside rest.elements ∨ BadLength rest.elements ∨ ∃ content, Oversized rest.elements content) ∧
        ∀ content, Oversized rest.elements content → (readFrame rest).2.elements = content) ∧
      ∀ frames, (∀ frame ∈ frames, IsFrame frame) → stream.elements = frames.flatten →
        ∃ rest, Reads stream frames rest ∧ (readFrame rest).1 = .ok none := by
  constructor
  · intro frames rest reads
    exact ⟨reads.elements_eq, readFrame_none_iff, readFrame_fails_iff, fun _ => readFrame_oversized_left⟩
  · intro frames grammar flat
    obtain ⟨rest, reads, empty⟩ := reads_frames grammar flat
    exact ⟨rest, reads, readFrame_none_iff.mpr empty⟩

/-- An unbind request and an abandon request with a redundant length, in three pieces. -/
def twoFrames : ByteStream :=
  ⟨[[0x30, 0x05, 0x02], [0x01, 0x01, 0x42, 0x00, 0x30, 0x82, 0x00], [0x06, 0x02, 0x01, 0x02, 0x50, 0x01, 0x01]], by decide⟩

theorem framing_two_frames :
    ∃ rest, Reads twoFrames [[0x30, 0x05, 0x02, 0x01, 0x01, 0x42, 0x00],
      [0x30, 0x82, 0x00, 0x06, 0x02, 0x01, 0x02, 0x50, 0x01, 0x01]] rest ∧ (readFrame rest).1 = .ok none := by
  apply (framing_lossless_exact twoFrames).2
  · intro frame member
    simp only [List.mem_cons, List.not_mem_nil, or_false] at member
    rcases member with rfl | rfl
    · exact ⟨0x30, [0x05], [0x02, 0x01, 0x01, 0x42, 0x00], rfl, .short 0x05 (by decide), by decide⟩
    · exact ⟨0x30, [0x82, 0x00, 0x06], [0x02, 0x01, 0x02, 0x50, 0x01, 0x01], rfl,
        .long 0x82 [0x00, 0x06] (by decide) (by decide) (by decide), by decide⟩
  · decide

end ByteStream

end AiProtect
