import OpenDefender.Lib.Outcome
import OpenDefender.Lib.Text

/-!
The proxies that the event ingester trusts (`services/event-ingester/src/elastic.rs`): the ranges of addresses in its
configuration, and whether a peer is in one of them.

The shifts of the source panic or wrap if the amount is not below the width; here they are `none`.
`isTrustedProxy_iff`: this never happens with ranges that `parse_cidr` has read, and the masks compare first bits.
-/

namespace OpenDefender.Ingester

open Lib Text List

/-- `IpAddr`, an address as its bits. -/
inductive IpAddr where
  | v4 (bits : BitVec 32)
  | v6 (bits : BitVec 128)
  deriving DecidableEq

/-- The parsers of the standard library. -/
structure Parsers where
  ipAddr : String → Option IpAddr
  u8 : String → Option (Fin 256)

/-- `TrustedCidr`. -/
structure TrustedCidr where
  network : IpAddr
  prefixLen : ℕ
  deriving DecidableEq

/-- `max_bits` of `parse_cidr`. -/
def IpAddr.maxBits : IpAddr → ℕ
  | .v4 _ => 32
  | .v6 _ => 128

/-- `parse_cidr`. -/
def parseCidr (parsers : Parsers) (raw : String) : Except String TrustedCidr :=
  match splitOnce "/" raw with
  | none => .error ("invalid trusted proxy CIDR: " ++ raw)
  | some (ipRaw, prefixRaw) =>
    match parsers.ipAddr ipRaw with
    | none => .error ("invalid trusted proxy CIDR ip: " ++ raw)
    | some network =>
      match parsers.u8 prefixRaw with
      | none => .error ("invalid trusted proxy CIDR prefix: " ++ raw)
      | some prefixLen =>
        if network.maxBits < prefixLen then .error ("trusted proxy CIDR out of range: " ++ raw)
        else .ok { network, prefixLen }

/-- `MAX << (width - prefix_len)`, or 0 for no prefix; `none` if the difference is negative or the shift too wide. -/
def mask (w prefixLen : ℕ) : Option (BitVec w) :=
  if prefixLen = 0 then some 0
  else if prefixLen ≤ w ∧ w - prefixLen < w then some (BitVec.allOnes w <<< (w - prefixLen))
  else none

/-- `ip_in_cidr`. -/
def ipInCidr (ip network : IpAddr) (prefixLen : ℕ) : Option Bool :=
  match ip, network with
  | .v4 ip, .v4 net => (mask 32 prefixLen).map fun mask => ip &&& mask == net &&& mask
  | .v6 ip, .v6 net => (mask 128 prefixLen).map fun mask => ip &&& mask == net &&& mask
  | _, _ => some false

/-- `is_trusted_proxy`. -/
def isTrustedProxy (ip : IpAddr) (trustedProxyCidrs : List TrustedCidr) : Option Bool :=
  trustedProxyCidrs.anyM fun cidr => ipInCidr ip cidr.network cidr.prefixLen

/-- The address is of the family of the network, and agrees with it on its first bits. -/
def InRange (cidr : TrustedCidr) (ip : IpAddr) : Prop :=
  match ip, cidr.network with
  | .v4 ip, .v4 net => ∀ i < cidr.prefixLen, ip.getMsbD i = net.getMsbD i
  | .v6 ip, .v6 net => ∀ i < cidr.prefixLen, ip.getMsbD i = net.getMsbD i
  | _, _ => False

lemma prefixLen_le_of_parseCidr (h : parseCidr parsers raw = .ok cidr) :
    cidr.prefixLen ≤ cidr.network.maxBits := by
  revert h
  fun_cases parseCidr parsers raw with
  | case5 _ _ _ network _ prefixLen _ hrange =>
    rintro ⟨⟩
    exact not_lt.1 hrange
  | _ => rintro ⟨⟩

/-- **A mask** selects the first bits. -/
lemma exists_mask (h : prefixLen ≤ w) :
    ∃ m, mask w prefixLen = some m ∧
      ∀ x y : BitVec w, x &&& m = y &&& m ↔ ∀ i < prefixLen, x.getMsbD i = y.getMsbD i := by
  obtain ⟨m, hm, hbits⟩ : ∃ m, mask w prefixLen = some m ∧ ∀ i, m.getMsbD i = decide (i < prefixLen) := by
    rw [mask]
    split_ifs with h0 hshift
    · exact ⟨0, rfl, by simp [h0]⟩
    · refine ⟨_, rfl, fun i => ?_⟩
      rw [BitVec.getMsbD_shiftLeft, BitVec.getMsbD_allOnes, decide_eq_decide]
      omega
    · omega
  refine ⟨m, hm, fun x y => ⟨fun heq i hi => ?_, fun hall => ?_⟩⟩
  · have hbit := congrArg (BitVec.getMsbD · i) heq
    simpa [hbits, hi] using hbit
  · refine BitVec.eq_of_getMsbD_eq fun i _ => ?_
    rw [BitVec.getMsbD_and, BitVec.getMsbD_and, hbits]
    by_cases hi : i < prefixLen
    · rw [hall i hi]
    · simp [hi]

lemma ipInCidr_spec (h : cidr.prefixLen ≤ cidr.network.maxBits) (ip : IpAddr) :
    ∃ b, ipInCidr ip cidr.network cidr.prefixLen = some b ∧ (b = true ↔ InRange cidr ip) := by
  obtain ⟨network, prefixLen⟩ := cidr
  cases ip <;> cases network
  case v4.v4 | v6.v6 =>
    obtain ⟨m, hm, hiff⟩ := exists_mask h
    exact ⟨_, congrArg (Option.map _) hm, beq_iff_eq.trans (hiff _ _)⟩
  all_goals exact ⟨false, rfl, iff_of_false Bool.false_ne_true id⟩

/-- **Trusted proxies.** With ranges that were read from the configuration no shift is too wide, and an address is
trusted exactly if it agrees with a network of its family on the first bits. -/
theorem isTrustedProxy_iff (parsers : Parsers) (raws : List String) (cidrs : List TrustedCidr)
    (h : raws.mapM (parseCidr parsers) = .ok cidrs) (ip : IpAddr) :
    ∃ trusted, isTrustedProxy ip cidrs = some trusted ∧ (trusted = true ↔ ∃ cidr ∈ cidrs, InRange cidr ip) := by
  have hbounds : ∀ cidr ∈ cidrs, cidr.prefixLen ≤ cidr.network.maxBits := by
    intro cidr hcidr
    obtain ⟨raw, -, hparse⟩ := Outcome.exists_of_mem_mapM h hcidr
    exact prefixLen_le_of_parseCidr hparse
  clear h
  induction cidrs with
  | nil => exact ⟨false, rfl, by simp⟩
  | cons cidr cidrs ih =>
    obtain ⟨b, hb, hiff⟩ := ipInCidr_spec (hbounds cidr mem_cons_self) ip
    obtain ⟨trusted, htrusted, hrest⟩ := ih fun other hother => hbounds other (mem_cons_of_mem _ hother)
    refine ⟨b || trusted, ?_, ?_⟩
    · rw [isTrustedProxy] at htrusted ⊢
      cases b <;> simp [anyM, hb, htrusted]
    · rw [Bool.or_eq_true, hiff, hrest, exists_mem_cons_iff]

/-- The range `10.0.0.0/8`. -/
theorem isTrustedProxy_ten :
    let parsers : Parsers :=
      { ipAddr := fun s => if s = "10.0.0.0" then some (.v4 0x0A000000#32) else none
        u8 := fun s => if s = "8" then some 8 else none }
    let cidr : TrustedCidr := { network := .v4 0x0A000000#32, prefixLen := 8 }
    ["10.0.0.0/8"].mapM (parseCidr parsers) = .ok [cidr] ∧
      isTrustedProxy (.v4 0x0A010203#32) [cidr] = some true ∧
      ∃ cidr' ∈ [cidr], InRange cidr' (.v4 0x0A010203#32) := by
  intro parsers cidr
  have hparse : ["10.0.0.0/8"].mapM (parseCidr parsers) = .ok [cidr] := by decide +kernel
  obtain ⟨trusted, htrusted, hiff⟩ := isTrustedProxy_iff parsers _ _ hparse (.v4 0x0A010203#32)
  have htrue : isTrustedProxy (.v4 0x0A010203#32) [cidr] = some true := by decide +kernel
  rw [htrue] at htrusted
  exact ⟨hparse, htrue, hiff.1 (Option.some.inj htrusted).symm⟩

end OpenDefender.Ingester
