import AiProtect.Ldap.Message

/-! # Framing

`read_frame` on the bytes a stream will deliver: one BER element of definite length.
-/

namespace AiProtect

def maxFrameContentLen : Nat := 16 * 1024 * 1024

def bigEndian (bytes : Bytes) : Nat := bytes.foldl (fun value byte => value * 256 + byte.toNat) 0

/-- The rest of a frame whose header has been read. -/
def readContent (header : Bytes) (contentLen : Nat) (rest : Bytes) : Except String (Option (Bytes × Bytes)) :=
  if maxFrameContentLen < contentLen then
    .error s!"LDAP message length {contentLen} exceeds max frame size ({maxFrameContentLen} bytes)"
  else if rest.length < contentLen then .error "early eof"
  else .ok (some (header ++ rest.take contentLen, rest.drop contentLen))

/-- The next frame and the bytes after it; `none` at the end of the stream. -/
def readFrame : Bytes → Except String (Option (Bytes × Bytes))
  | [] => .ok none
  | [_] => .error "early eof"
  | tag :: firstLengthByte :: rest =>
      if firstLengthByte &&& 0x80 = 0 then readContent [tag, firstLengthByte] firstLengthByte.toNat rest
      else
        let numBytes := (firstLengthByte &&& 0x7f).toNat
        if numBytes = 0 ∨ 4 < numBytes then
          .error s!"unsupported LDAP message length encoding ({numBytes} length bytes)"
        else if rest.length < numBytes then .error "early eof"
        else
          readContent (tag :: firstLengthByte :: rest.take numBytes) (bigEndian (rest.take numBytes))
            (rest.drop numBytes)

theorem readContent_ok {header rest : Bytes} {contentLen : Nat} {result : Option (Bytes × Bytes)}
    (read : readContent header contentLen rest = .ok result) :
    result = some (header ++ rest.take contentLen, rest.drop contentLen) := by
  simp only [readContent] at read
  split at read
  · cases read
  · split at read
    · cases read
    · exact (Except.ok.inj read).symm

/-- A read without an error is at the end of the stream or takes a header and its content. -/
theorem readFrame_ok {stream : Bytes} {result : Option (Bytes × Bytes)} (read : readFrame stream = .ok result) :
    (stream = [] ∧ result = none) ∨
      ∃ header rest contentLen, header ≠ [] ∧ stream = header ++ rest ∧
        result = some (header ++ rest.take contentLen, rest.drop contentLen) := by
  match stream with
  | [] => exact .inl ⟨rfl, (Except.ok.inj read).symm⟩
  | [_] => cases read
  | tag :: firstLengthByte :: rest =>
      right
      simp only [readFrame] at read
      split at read
      · exact ⟨_, rest, _, List.cons_ne_nil _ _, rfl, readContent_ok read⟩
      · split at read
        · cases read
        · split at read
          · cases read
          · refine ⟨_, _, _, List.cons_ne_nil _ _, ?_, readContent_ok read⟩
            simp only [List.cons_append, List.take_append_drop]

/-- No byte is lost between two frames. -/
theorem readFrame_eq {stream frame after : Bytes} (read : readFrame stream = .ok (some (frame, after))) :
    stream = frame ++ after := by
  obtain ⟨-, none⟩ | ⟨header, rest, contentLen, -, rfl, result⟩ := readFrame_ok read
  · cases none
  · obtain ⟨rfl, rfl⟩ := Prod.mk.inj (Option.some.inj result)
    rw [List.append_assoc, List.take_append_drop]

/-- A frame takes up bytes of the stream. -/
theorem length_readFrame {stream frame after : Bytes} (read : readFrame stream = .ok (some (frame, after))) :
    after.length < stream.length := by
  obtain ⟨-, none⟩ | ⟨header, rest, contentLen, nonempty, rfl, result⟩ := readFrame_ok read
  · cases none
  · obtain ⟨rfl, rfl⟩ := Prod.mk.inj (Option.some.inj result)
    have started := List.length_pos_of_ne_nil nonempty
    rw [List.length_append, List.length_drop]
    omega

theorem readFrame_none {stream : Bytes} (read : readFrame stream = .ok none) : stream = [] := by
  obtain ⟨ended, -⟩ | ⟨_, _, _, -, -, result⟩ := readFrame_ok read
  · exact ended
  · cases result

/-- The frames of a stream, up to its end or the first bytes that are no frame. -/
def frames (stream : Bytes) : List Bytes :=
  match _ : readFrame stream with
  | .ok (some (frame, rest)) => frame :: frames rest
  | _ => []
termination_by stream.length
decreasing_by exact length_readFrame (by assumption)

theorem frames_cons {stream frame rest : Bytes} (read : readFrame stream = .ok (some (frame, rest))) :
    frames stream = frame :: frames rest := by
  rw [frames]
  split
  · rename_i found
    rw [read] at found
    obtain ⟨rfl, rfl⟩ := Prod.mk.inj (Option.some.inj (Except.ok.inj found))
    rfl
  · rename_i none
    exact absurd read (none frame rest)

theorem frames_nil : frames [] = [] := by
  rw [frames]
  rfl

end AiProtect
