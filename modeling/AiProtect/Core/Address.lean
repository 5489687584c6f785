import AiProtect.Core.Action
import AiProtect.Lib.Separated

/-! # Network addresses

`SocketAddr` and the `Display` text of its IP address, as the standard library writes it:
four decimal numbers, or eight hexadecimal ones with the longest run of zeros left out.
The text determines the address.
-/

namespace AiProtect

structure Ipv4Addr where
  octets : List UInt8
  four : octets.length = 4
  deriving DecidableEq

structure Ipv6Addr where
  segments : List UInt16
  eight : segments.length = 8
  deriving DecidableEq

inductive IpAddr where
  | v4 (addr : Ipv4Addr)
  | v6 (addr : Ipv6Addr)
  deriving DecidableEq

inductive SocketAddr where
  | v4 (ip : Ipv4Addr) (port : UInt16)
  | v6 (ip : Ipv6Addr) (port : UInt16) (flowinfo scopeId : UInt32)
  deriving DecidableEq

def SocketAddr.ip : SocketAddr → IpAddr
  | v4 ip _ => .v4 ip
  | v6 ip _ _ _ => .v6 ip

def decimal (octet : UInt8) : List Char := Nat.toDigits 10 octet.toNat

/-- `{:x}`. -/
def hex (segment : UInt16) : List Char := Nat.toDigits 16 segment.toNat

def Ipv4Addr.text (addr : Ipv4Addr) : List Char := ['.'].intercalate (addr.octets.map decimal)

namespace Ipv6Addr

/-- `::ffff:a.b.c.d` stands for an IPv4 address. -/
def toIpv4Mapped (addr : Ipv6Addr) : Option Ipv4Addr :=
  match addr.segments with
  | [0, 0, 0, 0, 0, 0xffff, ab, cd] =>
      some ⟨[(ab >>> 8).toUInt8, ab.toUInt8, (cd >>> 8).toUInt8, cd.toUInt8], rfl⟩
  | _ => none

structure Span where
  start : Nat
  len : Nat
  deriving DecidableEq

/-- The first of the longest runs of zeros, after `index` segments with the longest and the
    current run among them. -/
def zeroes : Nat → Span → Span → List UInt16 → Span
  | _, longest, _, [] => longest
  | index, longest, current, segment :: rest =>
      if segment = 0 then
        let current : Span := ⟨if current.len = 0 then index else current.start, current.len + 1⟩
        zeroes (index + 1) (if longest.len < current.len then current else longest) current rest
      else zeroes (index + 1) longest ⟨0, 0⟩ rest

def longestZeroes (addr : Ipv6Addr) : Span := zeroes 0 ⟨0, 0⟩ ⟨0, 0⟩ addr.segments

def fmtSubslice (chunk : List UInt16) : List Char := [':'].intercalate (chunk.map hex)

def text (addr : Ipv6Addr) : List Char :=
  match addr.toIpv4Mapped with
  | some mapped => "::ffff:".toList ++ mapped.text
  | none =>
      if 1 < addr.longestZeroes.len then
        fmtSubslice (addr.segments.take addr.longestZeroes.start) ++ [':', ':'] ++
          fmtSubslice (addr.segments.drop (addr.longestZeroes.start + addr.longestZeroes.len))
      else fmtSubslice addr.segments

end Ipv6Addr

/-- The `Display` text. -/
def IpAddr.text : IpAddr → String
  | v4 addr => String.ofList addr.text
  | v6 addr => String.ofList addr.text

theorem decimal_injective : Function.Injective decimal := fun _ _ same =>
  UInt8.toNat_inj.mp (toDigits_injective (by decide) (by decide) same)

theorem hex_injective : Function.Injective hex := fun _ _ same =>
  UInt16.toNat_inj.mp (toDigits_injective (by decide) (by decide) same)

theorem clean_decimal (octets : List UInt8) : Clean '.' (octets.map decimal) := by
  intro part member
  obtain ⟨octet, -, rfl⟩ := List.mem_map.mp member
  refine ⟨fun dot => ?_, Nat.toDigits_ne_nil⟩
  obtain ⟨digit, small, same⟩ := mem_toDigits (by decide) dot
  have none : ∀ digit < 10, '.' ≠ Nat.digitChar digit := by decide
  exact none digit small same

theorem not_mem_hex {mark : Char} (other : ∀ digit < 16, mark ≠ Nat.digitChar digit) (segment : UInt16) :
    mark ∉ hex segment := by
  intro member
  obtain ⟨digit, small, same⟩ := mem_toDigits (by decide) member
  exact other digit small same

theorem clean_hex (segments : List UInt16) : Clean ':' (segments.map hex) := by
  intro part member
  obtain ⟨segment, -, rfl⟩ := List.mem_map.mp member
  exact ⟨not_mem_hex (by decide) segment, Nat.toDigits_ne_nil⟩

theorem Ipv4Addr.text_injective : Function.Injective Ipv4Addr.text := by
  intro addr other same
  have nonempty : ∀ addr : Ipv4Addr, addr.octets.map decimal ≠ [] := by
    intro addr empty
    have lengths := congrArg List.length empty
    rw [List.length_map, addr.four] at lengths
    cases lengths
  have octets := intercalate_inj (clean_decimal addr.octets) (clean_decimal other.octets) (nonempty addr)
    (nonempty other) same
  cases addr
  cases other
  rw [Ipv4Addr.mk.injEq]
  exact List.map_injective_iff.mpr decimal_injective octets

theorem Ipv4Addr.colon_not_mem (addr : Ipv4Addr) : ':' ∉ addr.text := by
  intro colon
  rcases mem_intercalate colon with same | ⟨part, member, found⟩
  · cases same
  · obtain ⟨octet, -, rfl⟩ := List.mem_map.mp member
    obtain ⟨digit, small, same⟩ := mem_toDigits (by decide) found
    have none : ∀ digit < 10, ':' ≠ Nat.digitChar digit := by decide
    exact none digit small same

theorem Ipv4Addr.dot_mem (addr : Ipv4Addr) : '.' ∈ addr.text := by
  apply separator_mem_intercalate
  rw [List.length_map, addr.four]
  decide

namespace Ipv6Addr

/-- All segments of the span are zero. -/
def Span.Zero (segments : List UInt16) (span : Span) : Prop :=
  ∀ index, span.start ≤ index → index < span.start + span.len → segments[index]? = some 0

theorem Span.zero_empty (segments : List UInt16) : Span.Zero segments ⟨0, 0⟩ :=
  fun _ _ high => absurd high (Nat.not_lt_zero _)

theorem zeroes_zero {segments : List UInt16} (rest : List UInt16) :
    ∀ (before : List UInt16) {longest current : Span}, segments = before ++ rest → longest.Zero segments →
      current.Zero segments → (current.len = 0 ∨ current.start + current.len = before.length) →
        (zeroes before.length longest current rest).Zero segments := by
  induction rest with
  | nil => exact fun _ _ _ _ longest _ _ => longest
  | cons segment rest ih =>
      intro before longest current whole zeroLongest zeroCurrent adjacent
      have wholeNext : segments = (before ++ [segment]) ++ rest := by
        rw [whole, List.append_assoc]
        rfl
      have next : (before ++ [segment]).length = before.length + 1 := by
        rw [List.length_append, List.length_singleton]
      rw [zeroes, ← next]
      split
      · rename_i zero
        have here : segments[before.length]? = some 0 := by
          rw [whole, List.getElem?_append_right (le_refl _), Nat.sub_self, zero]
          rfl
        have grown : Span.Zero segments
            ⟨if current.len = 0 then before.length else current.start, current.len + 1⟩ := by
          intro index low high
          dsimp only at low high
          by_cases empty : current.len = 0
          · rw [if_pos empty] at low high
            have last : index = before.length := by omega
            rw [last, here]
          · rw [if_neg empty] at low high
            by_cases last : index = before.length
            · rw [last, here]
            · exact zeroCurrent index low (by omega)
        apply ih _ wholeNext
        · by_cases longer : longest.len < current.len + 1
          · rw [if_pos longer]
            exact grown
          · rw [if_neg longer]
            exact zeroLongest
        · exact grown
        · apply Or.inr
          rw [next]
          dsimp only
          split <;> omega
      · exact ih _ wholeNext zeroLongest (Span.zero_empty segments) (.inl rfl)

theorem longestZeroes_zero (addr : Ipv6Addr) : addr.longestZeroes.Zero addr.segments :=
  zeroes_zero addr.segments [] rfl (Span.zero_empty _) (Span.zero_empty _) (.inl rfl)

/-- The segments with the span left out, and the zeros in between. -/
theorem segments_eq {segments : List UInt16} {span : Span} (zero : span.Zero segments) (some : 1 < span.len) :
    span.start + span.len ≤ segments.length ∧
      segments = segments.take span.start ++ List.replicate span.len 0 ++ segments.drop (span.start + span.len) := by
  have last := zero (span.start + span.len - 1) (by omega) (by omega)
  have inside : span.start + span.len ≤ segments.length := by
    obtain ⟨below, -⟩ := List.getElem?_eq_some_iff.mp last
    omega
  refine ⟨inside, ?_⟩
  have middle : (segments.drop span.start).take span.len = List.replicate span.len 0 := by
    apply List.ext_getElem?
    intro index
    rw [List.getElem?_take, List.getElem?_replicate, List.getElem?_drop]
    split
    · exact zero _ (by omega) (by omega)
    · rfl
  rw [← middle, List.append_assoc, ← List.drop_drop, List.take_append_drop, List.take_append_drop]

/-- The text of an address that is not mapped: the segments around a gap, or all of them. -/
theorem text_cases {addr : Ipv6Addr} (unmapped : addr.toIpv4Mapped = none) :
    (∃ front back len, 1 < len ∧ addr.segments = front ++ List.replicate len 0 ++ back ∧
        addr.text = joinGap ':' (front.map hex) (back.map hex)) ∨
      addr.text = [':'].intercalate (addr.segments.map hex) := by
  simp only [text, unmapped]
  split
  · rename_i several
    obtain ⟨-, whole⟩ := segments_eq addr.longestZeroes_zero several
    exact .inl ⟨_, _, _, several, whole, rfl⟩
  · exact .inr rfl

theorem map_hex_ne_nil (addr : Ipv6Addr) : addr.segments.map hex ≠ [] := by
  intro empty
  have lengths := congrArg List.length empty
  rw [List.length_map, addr.eight] at lengths
  cases lengths

theorem dot_not_mem {addr : Ipv6Addr} (unmapped : addr.toIpv4Mapped = none) : '.' ∉ addr.text := by
  have parts : ∀ segments : List UInt16, '.' ∉ [':'].intercalate (segments.map hex) := by
    intro segments dot
    rcases mem_intercalate dot with same | ⟨part, member, found⟩
    · cases same
    · obtain ⟨segment, -, rfl⟩ := List.mem_map.mp member
      exact not_mem_hex (by decide) segment found
  rcases text_cases unmapped with ⟨front, back, -, -, -, gap⟩ | full
  · rw [gap, joinGap, List.mem_append, List.mem_append]
    rintro ((inFront | inGap) | inBack)
    · exact parts front inFront
    · simp at inGap
    · exact parts back inBack
  · rw [full]
    exact parts addr.segments

theorem colon_mem (addr : Ipv6Addr) : ':' ∈ addr.text := by
  cases mapped : addr.toIpv4Mapped with
  | some ipv4 =>
      simp only [text, mapped]
      exact List.mem_append_left _ (by decide)
  | none =>
      rcases text_cases mapped with ⟨front, back, -, -, -, gap⟩ | full
      · rw [gap, joinGap]
        simp
      · rw [full]
        apply separator_mem_intercalate
        rw [List.length_map, addr.eight]
        decide

/-- The two bytes of a segment determine it. -/
theorem segment_inj {segment other : UInt16} (high : (segment >>> 8).toUInt8 = (other >>> 8).toUInt8)
    (low : segment.toUInt8 = other.toUInt8) : segment = other := by
  have bytes : ∀ segment : UInt16, segment.toNat = (segment >>> 8).toUInt8.toNat * 256 + segment.toUInt8.toNat := by
    intro segment
    have below := segment.toNat_lt
    have shifted : (segment >>> 8).toNat = segment.toNat / 256 := by
      rw [UInt16.toNat_shiftRight]
      exact Nat.shiftRight_eq_div_pow segment.toNat 8
    rw [UInt16.toNat_toUInt8, UInt16.toNat_toUInt8, shifted]
    omega
  apply UInt16.toNat_inj.mp
  rw [bytes segment, bytes other, high, low]

theorem segments_of_mapped {addr : Ipv6Addr} {ipv4 : Ipv4Addr} (mapped : addr.toIpv4Mapped = some ipv4) :
    ∃ ab cd, addr.segments = [0, 0, 0, 0, 0, 0xffff, ab, cd] ∧
      ipv4.octets = [(ab >>> 8).toUInt8, ab.toUInt8, (cd >>> 8).toUInt8, cd.toUInt8] := by
  unfold toIpv4Mapped at mapped
  split at mapped
  · rename_i ab cd segments
    cases mapped
    exact ⟨ab, cd, segments, rfl⟩
  · cases mapped

theorem ext {addr other : Ipv6Addr} (same : addr.segments = other.segments) : addr = other := by
  cases addr
  cases other
  cases same
  rfl

theorem eq_of_mapped {addr other : Ipv6Addr} {ipv4 : Ipv4Addr} (mapped : addr.toIpv4Mapped = some ipv4)
    (otherMapped : other.toIpv4Mapped = some ipv4) : addr = other := by
  obtain ⟨ab, cd, segments, octets⟩ := segments_of_mapped mapped
  obtain ⟨ab', cd', segments', octets'⟩ := segments_of_mapped otherMapped
  rw [octets] at octets'
  simp only [List.cons.injEq, and_true] at octets'
  obtain ⟨abHigh, abLow, cdHigh, cdLow⟩ := octets'
  apply ext
  rw [segments, segments', segment_inj abHigh abLow, segment_inj cdHigh cdLow]

/-- Two gaps with the same segments around them are of the same length. -/
theorem eq_of_gap {addr other : Ipv6Addr} {front back : List UInt16} {len otherLen : Nat}
    (whole : addr.segments = front ++ List.replicate len 0 ++ back)
    (otherWhole : other.segments = front ++ List.replicate otherLen 0 ++ back) : addr = other := by
  have length := congrArg List.length whole
  have otherLength := congrArg List.length otherWhole
  simp only [addr.eight, List.length_append, List.length_replicate] at length
  simp only [other.eight, List.length_append, List.length_replicate] at otherLength
  have lens : len = otherLen := by omega
  apply ext
  rw [whole, otherWhole, lens]

theorem text_injective : Function.Injective text := by
  intro addr other same
  cases mapped : addr.toIpv4Mapped with
  | some ipv4 =>
      cases otherMapped : other.toIpv4Mapped with
      | some otherIpv4 =>
          simp only [text, mapped, otherMapped] at same
          rw [Ipv4Addr.text_injective (List.append_cancel_left same)] at mapped
          exact eq_of_mapped mapped otherMapped
      | none =>
          apply absurd _ (dot_not_mem otherMapped)
          rw [← same]
          simp only [text, mapped]
          exact List.mem_append_right _ ipv4.dot_mem
  | none =>
      cases otherMapped : other.toIpv4Mapped with
      | some otherIpv4 =>
          apply absurd _ (dot_not_mem mapped)
          rw [same]
          simp only [text, otherMapped]
          exact List.mem_append_right _ otherIpv4.dot_mem
      | none =>
          rcases text_cases mapped with ⟨front, back, len, -, whole, gap⟩ | full
          · rcases text_cases otherMapped with ⟨front', back', len', -, whole', gap'⟩ | full'
            · rw [gap, gap'] at same
              obtain ⟨fronts, backs⟩ := joinGap_inj (clean_hex front) (clean_hex back) (clean_hex front')
                (clean_hex back') same
              rw [List.map_injective_iff.mpr hex_injective fronts,
                List.map_injective_iff.mpr hex_injective backs] at whole
              exact eq_of_gap whole whole'
            · rw [gap, full'] at same
              exact absurd same (joinGap_ne_intercalate (clean_hex front) (clean_hex back) (clean_hex _)
                other.map_hex_ne_nil)
          · rcases text_cases otherMapped with ⟨front', back', len', -, whole', gap'⟩ | full'
            · rw [gap', full] at same
              exact absurd same.symm (joinGap_ne_intercalate (clean_hex front') (clean_hex back') (clean_hex _)
                addr.map_hex_ne_nil)
            · rw [full, full'] at same
              apply ext
              exact List.map_injective_iff.mpr hex_injective (intercalate_inj (clean_hex _) (clean_hex _)
                addr.map_hex_ne_nil other.map_hex_ne_nil same)

end Ipv6Addr

/-- The text of an address determines it. -/
theorem IpAddr.text_injective : Function.Injective IpAddr.text := by
  intro addr other same
  cases addr with
  | v4 addr =>
      cases other with
      | v4 other => exact congrArg IpAddr.v4 (Ipv4Addr.text_injective (String.ofList_injective same))
      | v6 other =>
          apply absurd _ addr.colon_not_mem
          rw [String.ofList_injective same]
          exact other.colon_mem
  | v6 addr =>
      cases other with
      | v4 other =>
          apply absurd _ other.colon_not_mem
          rw [← String.ofList_injective same]
          exact addr.colon_mem
      | v6 other => exact congrArg IpAddr.v6 (Ipv6Addr.text_injective (String.ofList_injective same))

example : (IpAddr.v4 ⟨[127, 0, 0, 1], rfl⟩).text = "127.0.0.1" := by decide +kernel

example : (IpAddr.v6 ⟨[0x2001, 0xdb8, 0, 0, 1, 0, 0, 1], rfl⟩).text = "2001:db8::1:0:0:1" := by decide +kernel

example : (IpAddr.v6 ⟨[0, 0, 0, 0, 0, 0xffff, 0x0a00, 1], rfl⟩).text = "::ffff:10.0.0.1" := by decide +kernel

end AiProtect
