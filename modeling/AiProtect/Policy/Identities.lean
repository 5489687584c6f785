import AiProtect.Core.Address
import AiProtect.Core.Lowercase
import AiProtect.Ldap.Connector
import AiProtect.Policy.Threshold

/-! # Who shares an identity with whom

Budgets are kept per identity, so an identity has to be shared by exactly the callers
that are meant to share it. A peer is named by its IP address, a bound caller by its DN,
lowercased and then capped: an oversized DN is replaced by a marker with its length and
its hash. The marker has capitals in it, which no lowercased DN has.
-/

namespace AiProtect

/-- Two numbers with the same digits in the lowest places agree there. -/
theorem mod_pow_eq {base number other : Nat} (count : Nat)
    (digits : ∀ place < count, number / base ^ place % base = other / base ^ place % base) :
    number % base ^ count = other % base ^ count := by
  induction count with
  | zero => rw [Nat.pow_zero, Nat.mod_one, Nat.mod_one]
  | succ count ih =>
      rw [Nat.mod_pow_succ, Nat.mod_pow_succ, ih fun place small => digits place (by omega),
        digits count (by omega)]

theorem hexDigit_injective {digit other : Nat} (small : digit < 16) (otherSmall : other < 16)
    (same : hexDigit digit = hexDigit other) : digit = other := by
  have each : ∀ digit < 16, ∀ other < 16, hexDigit digit = hexDigit other → digit = other := by decide
  exact each digit small other otherSmall same

theorem length_toList_hex16 (value : UInt64) : (hex16 value).toList.length = 16 := by
  rw [hex16, String.toList_ofList, List.length_map, List.length_range]

theorem hex16_injective : Function.Injective hex16 := by
  intro value other same
  have digits : ∀ place < 16, value.toNat / 16 ^ place % 16 = other.toNat / 16 ^ place % 16 := by
    intro place small
    have chars := List.map_inj_left.mp (String.ofList_injective same) (15 - place) (List.mem_range.mpr (by omega))
    rw [show 15 - (15 - place) = place by omega] at chars
    exact hexDigit_injective (Nat.mod_lt _ (by decide)) (Nat.mod_lt _ (by decide)) chars
  have agree := mod_pow_eq 16 digits
  have below := value.toNat_lt
  have otherBelow := other.toNat_lt
  rw [Nat.mod_eq_of_lt (by omega), Nat.mod_eq_of_lt (by omega)] at agree
  exact UInt64.toNat_inj.mp agree

theorem utf8ByteSize_ofList_le (chars : List Char) : (String.ofList chars).utf8ByteSize ≤ 4 * chars.length := by
  induction chars with
  | nil => exact Nat.le_refl _
  | cons char chars ih =>
      have width := char.utf8Size_le_four
      rw [String.ofList_cons, String.utf8ByteSize_append, String.utf8ByteSize_singleton, List.length_cons]
      omega

namespace LdapConnector

variable {connector : LdapConnector} {dn other : String}

theorem capDn_of_oversized (oversized : maxDnLen < dn.utf8ByteSize) :
    connector.capDn dn = "(oversized DN, " ++ toString dn.utf8ByteSize ++ " bytes, hash " ++
      hex16 (connector.dnHash dn) ++ ")" := by
  rw [capDn, if_neg (by omega)]
  rfl

theorem capDn_of_short (short : dn.utf8ByteSize ≤ maxDnLen) : connector.capDn dn = dn := if_pos short

/-- The marker has a capital in it. -/
theorem capital_mem_capDn (oversized : maxDnLen < dn.utf8ByteSize) : 'D' ∈ (connector.capDn dn).toList := by
  simp only [capDn_of_oversized oversized, String.toList_append]
  simp

/-- The end of the marker is the hash. -/
theorem hash_eq_of_capDn_eq (oversized : maxDnLen < dn.utf8ByteSize) (otherOversized : maxDnLen < other.utf8ByteSize)
    (same : connector.capDn dn = connector.capDn other) : connector.dnHash dn = connector.dnHash other := by
  rw [capDn_of_oversized oversized, capDn_of_oversized otherOversized] at same
  have front := String.append_left_inj ")" |>.mp same
  have chars := congrArg String.toList front
  simp only [String.toList_append] at chars
  obtain ⟨-, hashes⟩ := List.append_inj' chars (by rw [length_toList_hex16, length_toList_hex16])
  exact hex16_injective (String.toList_injective hashes)

theorem utf8ByteSize_capDn_le (fits : dn.utf8ByteSize < 2 ^ 64) :
    (connector.capDn dn).utf8ByteSize ≤ maxDnLen := by
  by_cases short : dn.utf8ByteSize ≤ maxDnLen
  · rwa [capDn_of_short short]
  · have digits : (Nat.toDigits 10 dn.utf8ByteSize).length ≤ 20 :=
      (Nat.length_toDigits_le_iff (by decide) (by decide)).mpr (Nat.lt_trans fits (by decide))
    have number : (toString dn.utf8ByteSize).utf8ByteSize ≤ 80 := by
      rw [Nat.toString_eq_ofList_toDigits]
      exact Nat.le_trans (utf8ByteSize_ofList_le _) (by omega)
    have hash : (hex16 (connector.dnHash dn)).utf8ByteSize ≤ 64 := by
      apply Nat.le_trans (utf8ByteSize_ofList_le _)
      rw [List.length_map, List.length_range]
    have literals : "(oversized DN, ".utf8ByteSize = 15 ∧ " bytes, hash ".utf8ByteSize = 13 ∧ ")".utf8ByteSize = 1 := by
      decide
    obtain ⟨start, middle, close⟩ := literals
    rw [capDn_of_oversized (by omega)]
    simp only [String.utf8ByteSize_append, start, middle, close]
    unfold maxDnLen
    omega

/-- Lowercased DNs keep apart under the cap if their hashes do. -/
theorem capDn_lower_inj (standard : connector.unicode.Standard)
    (collisionFree : connector.dnHash (connector.normalizeBindDn dn) = connector.dnHash (connector.normalizeBindDn other) →
      connector.normalizeBindDn dn = connector.normalizeBindDn other)
    (same : connector.capDn (connector.normalizeBindDn dn) = connector.capDn (connector.normalizeBindDn other)) :
    connector.normalizeBindDn dn = connector.normalizeBindDn other := by
  have lower : ∀ dn, 'D' ∉ (connector.normalizeBindDn dn).toList := by
    intro dn capital
    rw [normalizeBindDn, Unicode.toLowercase, String.toList_ofList] at capital
    exact standard.not_capital capital (by decide)
  by_cases short : (connector.normalizeBindDn dn).utf8ByteSize ≤ maxDnLen
  · by_cases otherShort : (connector.normalizeBindDn other).utf8ByteSize ≤ maxDnLen
    · rwa [capDn_of_short short, capDn_of_short otherShort] at same
    · rw [capDn_of_short short] at same
      apply absurd _ (lower dn)
      rw [same]
      exact capital_mem_capDn (by omega)
  · by_cases otherShort : (connector.normalizeBindDn other).utf8ByteSize ≤ maxDnLen
    · rw [capDn_of_short otherShort] at same
      apply absurd _ (lower other)
      rw [← same]
      exact capital_mem_capDn (by omega)
    · exact collisionFree (hash_eq_of_capDn_eq (by omega) (by omega) same)

/-- A bind request for `dn` is accepted, and gives this identity once it is confirmed. The
    length of a string is a `usize`. -/
structure Binds (connector : LdapConnector) (dn : String) (identity : Identity) : Prop where
  accepted : ∃ frame messageId password name,
    connector.ber.decode frame = some ⟨messageId, .bindRequest ⟨dn, .simple password⟩⟩ ∧
      connector.bindRequest frame = .ok (some (messageId, name)) ∧ identity = .fromBindDn name
  fits : (connector.normalizeBindDn dn).utf8ByteSize < 2 ^ 64

theorem Binds.identity_eq {identity : Identity} (binds : connector.Binds dn identity) :
    identity = .fromBindDn (connector.capDn (connector.normalizeBindDn dn)) := by
  obtain ⟨frame, messageId, password, name, decoded, accepted, rfl⟩ := binds.accepted
  have claimed : connector.bindRequest frame = .ok (connector.claim ⟨messageId, .bindRequest ⟨dn, .simple password⟩⟩) := by
    simp only [bindRequest, decodeMessage, decoded]
    rfl
  rw [claimed] at accepted
  simp only [claim] at accepted
  split at accepted
  · cases accepted
  · cases accepted
    rfl

end LdapConnector

theorem Identity.fromPeerAddr_injective : Function.Injective Identity.fromPeerAddr := by
  intro ip other same
  have text : "ip:" ++ ip = "ip:" ++ other := congrArg Identity.name same
  exact String.append_right_inj "ip:" |>.mp text

/-- No text with this front is the key of the global history. -/
theorem ne_globalHistoryKey {front rest : String} {first : Char} {chars : List Char}
    (starts : front.toList = first :: chars) (visible : first ≠ '\x00') : Identity.mk (front ++ rest) ≠ globalHistoryKey := by
  intro same
  have texts := congrArg (fun identity => identity.name.toList.head?) same
  simp only [String.toList_append, starts, List.cons_append, List.head?_cons, globalHistoryKey] at texts
  exact visible (Option.some.inj texts)

/-- Identities are shared as intended: peers by IP address, bound callers by lowercased DN,
    and nobody shares one with a caller of the other kind or with the global history. -/
theorem identities_partition (connector : LdapConnector) (standard : connector.unicode.Standard) (a b : SocketAddr)
    {d e : String} {identity other : Identity} (binds : connector.Binds d identity)
    (otherBinds : connector.Binds e other)
    (collisionFree : connector.dnHash (connector.normalizeBindDn d) = connector.dnHash (connector.normalizeBindDn e) →
      connector.normalizeBindDn d = connector.normalizeBindDn e) :
    (Identity.fromPeerAddr a.ip.text = Identity.fromPeerAddr b.ip.text ↔ a.ip = b.ip) ∧
      Identity.fromPeerAddr a.ip.text ≠ identity ∧
      Identity.fromPeerAddr a.ip.text ≠ globalHistoryKey ∧ identity ≠ globalHistoryKey ∧
      (identity = other ↔ connector.unicode.toLowercase d = connector.unicode.toLowercase e) ∧
      (SameButCase d e → identity = other) ∧
      ((connector.unicode.toLowercase d).utf8ByteSize ≤ maxDnLen →
        maxDnLen < (connector.unicode.toLowercase e).utf8ByteSize → identity ≠ other) ∧
      identity.name.utf8ByteSize ≤ maxDnLen + 3 := by
  have same : identity = other ↔ connector.unicode.toLowercase d = connector.unicode.toLowercase e := by
    rw [binds.identity_eq, otherBinds.identity_eq]
    constructor
    · exact fun same => LdapConnector.capDn_lower_inj standard collisionFree (Identity.fromBindDn_injective same)
    · intro lowered
      simp only [LdapConnector.normalizeBindDn, lowered]
  refine ⟨?_, ?_, ne_globalHistoryKey rfl (by decide), ?_, same, ?_, ?_, ?_⟩
  · exact ⟨fun peers => IpAddr.text_injective (Identity.fromPeerAddr_injective peers), fun ips => by rw [ips]⟩
  · rw [binds.identity_eq]
    exact (Identity.fromBindDn_ne_fromPeerAddr _ _).symm
  · rw [binds.identity_eq]
    exact ne_globalHistoryKey rfl (by decide)
  · exact fun letters => same.mpr (standard.toLowercase_congr letters)
  · intro short oversized shared
    rw [same.mp shared] at short
    omega
  · rw [binds.identity_eq, Identity.fromBindDn, String.utf8ByteSize_append]
    have capped : (connector.capDn (connector.normalizeBindDn d)).utf8ByteSize ≤ maxDnLen :=
      LdapConnector.utf8ByteSize_capDn_le binds.fits
    have front : "dn:".utf8ByteSize = 3 := by decide
    omega

/-- The Unicode tables, as far as ASCII goes. -/
def asciiTables : Unicode where
  lower := fun char => [char]
  cased := Char.isAlpha
  caseIgnorable := fun char => [39, 46, 58, 94, 96].contains char.toNat

theorem standard_asciiTables : asciiTables.Standard where
  cased := by
    intro char ascii
    have each : ∀ code < 128, (Char.ofNat code).toLower.isAlpha = (Char.ofNat code).isAlpha := by decide
    have here := each char.toNat ascii
    rwa [Char.ofNat_toNat] at here
  caseIgnorable := by
    intro char ascii
    have each : ∀ code < 128, asciiTables.caseIgnorable (Char.ofNat code).toLower =
        asciiTables.caseIgnorable (Char.ofNat code) := by decide
    have here := each char.toNat ascii
    rwa [Char.ofNat_toNat] at here
  lower := by
    intro char outside lowered member
    rw [List.mem_singleton.mp member]
    omega

def capitalsBind : Bytes :=
  [0x30, 0x16, 0x02, 0x01, 0x01, 0x60, 0x11, 0x02, 0x01, 0x03, 0x04, 0x08, 0x43, 0x4e, 0x3d, 0x41, 0x6c, 0x69, 0x63,
    0x65, 0x80, 0x02, 0x70, 0x77]

def lowercaseBind : Bytes :=
  [0x30, 0x16, 0x02, 0x01, 0x01, 0x60, 0x11, 0x02, 0x01, 0x03, 0x04, 0x08, 0x63, 0x6e, 0x3d, 0x61, 0x6c, 0x69, 0x63,
    0x65, 0x80, 0x02, 0x70, 0x77]

/-- A codec that knows two bind requests with the password `pw`. -/
def bindConnector : LdapConnector where
  ber :=
    { decode := fun frame =>
        if frame = capitalsBind then some ⟨1, .bindRequest ⟨"CN=Alice", .simple [0x70, 0x77]⟩⟩
        else if frame = lowercaseBind then some ⟨1, .bindRequest ⟨"cn=alice", .simple [0x70, 0x77]⟩⟩
        else none
      encode := fun _ => none
      decodePasswdModify := fun _ => none }
  unicode := asciiTables
  dnHash := fun _ => 0

theorem identities_partition_alice :
    Identity.fromPeerAddr (SocketAddr.v4 ⟨[10, 0, 0, 1], rfl⟩ 40000).ip.text =
        Identity.fromPeerAddr (SocketAddr.v4 ⟨[10, 0, 0, 1], rfl⟩ 40001).ip.text ∧
      bindConnector.Binds "CN=Alice" ⟨"dn:cn=alice"⟩ ∧ bindConnector.Binds "cn=alice" ⟨"dn:cn=alice"⟩ ∧
      (Identity.mk "dn:cn=alice").name.utf8ByteSize ≤ maxDnLen + 3 := by
  have capitals : bindConnector.Binds "CN=Alice" ⟨"dn:cn=alice"⟩ :=
    ⟨⟨capitalsBind, 1, [0x70, 0x77], "cn=alice", by decide +kernel, by decide +kernel, by decide +kernel⟩, by decide +kernel⟩
  have lowercase : bindConnector.Binds "cn=alice" ⟨"dn:cn=alice"⟩ :=
    ⟨⟨lowercaseBind, 1, [0x70, 0x77], "cn=alice", by decide +kernel, by decide +kernel, by decide +kernel⟩, by decide +kernel⟩
  obtain ⟨peers, -, -, -, -, -, -, bound⟩ := identities_partition bindConnector standard_asciiTables
    (.v4 ⟨[10, 0, 0, 1], rfl⟩ 40000) (.v4 ⟨[10, 0, 0, 1], rfl⟩ 40001) capitals lowercase (fun _ => by decide +kernel)
  exact ⟨peers.mpr rfl, capitals, lowercase, bound⟩

end AiProtect
