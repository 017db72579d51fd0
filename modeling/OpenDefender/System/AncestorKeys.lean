import OpenDefender.Common.Labels
import OpenDefender.Engine.Decision

/-!
The key above a subdomain.

Classifications are stored under the canonical key of a host, which `normalizer.rs` derives with the public
suffix list. The engine looks the classification of a subdomain up under a key of its own making, the last two
labels that are not empty. `ancestorDomainKey_eq_canonical_iff` says for which hosts the two keys are the same
one.
-/

namespace OpenDefender

open Lib Text List

/-! ### Last labels -/

/-- The labels of a host that are not empty. -/
def namedLabels (host : String) : List String :=
  (hostLabels host).filter fun label => !label.isEmpty

variable {host : String}

lemma mem_namedLabels :
    label ∈ namedLabels host ↔ label ∈ hostLabels host ∧ label ≠ "" := by
  simp [namedLabels]

/-- If the last two labels are not empty, they are also the last two of the others. -/
lemma lastTwo_namedLabels (hhost : hostLabels host = above ++ two) (hlen : two.length = 2)
    (hnamed : ∀ label ∈ two, label ≠ "") : lastTwo (namedLabels host) = two := by
  have htwo : two.filter (fun label => !label.isEmpty) = two := filter_eq_self.2 (by simpa using hnamed)
  rw [namedLabels, hhost, filter_append, htwo]
  exact lastTwo_append hlen

/-- The key derivation of the engine on a cleaned host. -/
def engineRoot (host : String) : String :=
  if (namedLabels host).length ≤ 2 then host else join "." (lastTwo (namedLabels host))

lemma engineRoot_of_le (h : (namedLabels host).length ≤ 2) : engineRoot host = host := if_pos h

lemma engineRoot_of_lt (h : 2 < (namedLabels host).length) :
    engineRoot host = join "." (lastTwo (namedLabels host)) := if_neg (by omega)

/-- The labels of the engine's root of a longer host. -/
lemma hostLabels_engineRoot (h : 2 < (namedLabels host).length) :
    hostLabels (engineRoot host) = lastTwo (namedLabels host) := by
  rw [engineRoot_of_lt h]
  refine hostLabels_join host ?_ ?_
  · exact ne_nil_of_length_pos (by rw [length_lastTwo h]; omega)
  · exact fun label hmem => (mem_namedLabels.1 (mem_of_mem_lastTwo hmem)).1

/-- The engine derives its ancestor key from the host as the other services clean it. -/
lemma ancestorDomainKey_subdomain (raw : String) :
    (Engine.relatedClassificationLookup ("subdomain:" ++ raw)).ancestorDomainKey =
      (cleanHost raw).map fun host => "domain:" ++ engineRoot host := by
  rw [Engine.relatedClassificationLookup, stripPrefix_append]
  dsimp only [Engine.deriveRegisteredDomain, cleanHost]
  by_cases hempty : (toAsciiLowercase (trimEndMatches '.' (trim raw))).isEmpty
  · rw [if_pos hempty, if_pos hempty]
    rfl
  · rw [if_neg hempty, if_neg hempty, Option.map_some, engineRoot, lastTwo, namedLabels, hostLabels]
    split
    · rename_i hsome
      split at hsome <;> simp_all [domain_ne_subdomain]
    · rename_i hnone
      split at hnone <;> cases hnone

/-! ### Hosts whose root both derivations name -/

/-- A domain of exactly two labels, neither empty. -/
def IsTwoLabels (domain : String) : Prop :=
  (hostLabels domain).length = 2 ∧ ∀ label ∈ hostLabels domain, label ≠ ""

instance (domain : String) : Decidable (IsTwoLabels domain) := inferInstanceAs (Decidable (_ ∧ _))

/-- What the public suffix list has to say of a host for the last two labels to be its registered
domain. -/
def RootHasTwoLabels (libs : HostLibs) (host : String) : Prop :=
  match libs.domainRoot host with
  | some root =>
    if (namedLabels host).length ≤ 2 then toAsciiLowercase root = host
    else IsTwoLabels (toAsciiLowercase root)
  | none =>
    (hostLabels host).length ≤ 2 ∨
      (2 < (namedLabels host).length ∧ ∀ label ∈ lastTwo (hostLabels host), label ≠ "")

instance (libs : HostLibs) (host : String) : Decidable (RootHasTwoLabels libs host) := by
  unfold RootHasTwoLabels
  split <;> infer_instance

/-- On a host with more than two labels that are not empty, the engine names a domain above the host
exactly when that domain has two labels, neither empty. -/
lemma engineRoot_eq_iff_isTwoLabels (hd : IsLabelSuffix d host)
    (hlong : 2 < (namedLabels host).length) : engineRoot host = d ↔ IsTwoLabels d := by
  constructor
  · rintro rfl
    rw [IsTwoLabels, hostLabels_engineRoot hlong]
    exact ⟨length_lastTwo hlong, fun label hmem => (mem_namedLabels.1 (mem_of_mem_lastTwo hmem)).2⟩
  · rintro ⟨hlen, hnamed⟩
    obtain ⟨above, hhost⟩ := isLabelSuffix_iff.1 hd
    rw [engineRoot_of_lt hlong, lastTwo_namedLabels hhost.symm hlen hnamed, join_hostLabels]

lemma length_namedLabels_le (host : String) : (namedLabels host).length ≤ (hostLabels host).length :=
  length_filter_le _ _

/-- Without a root in the public suffix list the last two labels are taken, empty ones included. -/
lemma engineRoot_eq_lastTwoLabels_iff (host : String) : engineRoot host = lastTwoLabels host ↔
      (hostLabels host).length ≤ 2 ∨
        (2 < (namedLabels host).length ∧ ∀ label ∈ lastTwo (hostLabels host), label ≠ "") := by
  by_cases hshort : (hostLabels host).length ≤ 2
  · have hnamed : (namedLabels host).length ≤ 2 := (length_namedLabels_le host).trans hshort
    have hroot : lastTwoLabels host = host := if_pos hshort
    rw [engineRoot_of_le hnamed, hroot]
    exact iff_of_true rfl (Or.inl hshort)
  have hlen : (lastTwo (hostLabels host)).length = 2 := length_lastTwo (by omega)
  have hread : hostLabels (lastTwoLabels host) = lastTwo (hostLabels host) := hostLabels_lastTwoLabels (by omega)
  by_cases hlong : 2 < (namedLabels host).length
  · rw [engineRoot_eq_iff_isTwoLabels (isLabelSuffix_lastTwoLabels host) hlong, IsTwoLabels, hread]
    simp [hlen, hlong, hshort]
  · -- the engine keeps the host, which has more labels than two
    refine iff_of_false ?_ (by tauto)
    rw [engineRoot_of_le (by omega)]
    intro heq
    rw [← heq] at hread
    rw [← hread] at hlen
    omega

/-- The engine's root of a cleaned host is the registered domain exactly when the public suffix list
gives the host a root of two labels. -/
lemma engineRoot_eq_deriveRegisteredDomain_iff (hlibs : libs.LawfulRoot)
    (hlower : toAsciiLowercase host = host) :
    engineRoot host = deriveRegisteredDomain libs host ↔ RootHasTwoLabels libs host := by
  rw [deriveRegisteredDomain, RootHasTwoLabels]
  cases hroot : libs.domainRoot host with
  | none => exact engineRoot_eq_lastTwoLabels_iff host
  | some root =>
    have hd := hlibs.labelSuffix host root hlower hroot
    dsimp only
    split
    · rename_i hshort
      rw [engineRoot_of_le hshort]
      exact eq_comm
    · rename_i hlong
      exact engineRoot_eq_iff_isTwoLabels hd (by omega)

/-- **The ancestor key of a subdomain.** The key under which the engine looks for the
classification of a subdomain is the canonical one, under which it is stored, exactly when the
cleaned host is empty (neither has a key) or the public suffix list gives it a root of two
labels. -/
theorem ancestorDomainKey_eq_canonical_iff (libs : HostLibs) (hlibs : libs.LawfulRoot)
    (raw : String) :
    (Engine.relatedClassificationLookup ("subdomain:" ++ raw)).ancestorDomainKey =
        canonicalClassificationKey libs ("subdomain:" ++ raw) ↔
      ∀ host, cleanHost raw = some host → RootHasTwoLabels libs host := by
  rw [ancestorDomainKey_subdomain, canonicalClassificationKey, hostOfKey_subdomain]
  cases hclean : cleanHost raw with
  | none => simp
  | some host =>
    have hroot := engineRoot_eq_deriveRegisteredDomain_iff hlibs (cleanHost_lower hclean)
    simp [hroot]

/-- A public suffix table that knows the suffix `co.uk`. -/
def ukLibs : HostLibs :=
  { sampleLibs with
    domainRoot := fun host =>
      if IsLabelSuffix "example.co.uk" host then some "example.co.uk" else none }

/-- The root the table names lies above the host. -/
lemma lawfulRoot_ukLibs : ukLibs.LawfulRoot := by
  refine ⟨fun h r _ hroot => ?_⟩
  simp only [ukLibs] at hroot
  split at hroot
  · rename_i hhost
    cases hroot
    have hlower : toAsciiLowercase "example.co.uk" = "example.co.uk" := by decide +kernel
    rw [hlower]
    exact hhost
  · cases hroot

/-- The two keys of `www.example.com` are the same. -/
theorem ancestorDomainKey_example : ukLibs.LawfulRoot ∧
      (Engine.relatedClassificationLookup "subdomain:www.example.com").ancestorDomainKey =
        canonicalClassificationKey ukLibs "subdomain:www.example.com" :=
  ⟨lawfulRoot_ukLibs,
    (ancestorDomainKey_eq_canonical_iff ukLibs lawfulRoot_ukLibs "www.example.com").2 <| by
      intro host hhost
      obtain rfl : "www.example.com" = host := Option.some.inj
        (Eq.trans (by decide +kernel) hhost)
      decide +kernel⟩

/-- The classification of a host below `example.co.uk` is stored under that domain and looked for
under `co.uk`. -/
theorem ancestorDomainKey_ne_canonical : ukLibs.LawfulRoot ∧
      (Engine.relatedClassificationLookup "subdomain:www.example.co.uk").ancestorDomainKey =
        some "domain:co.uk" ∧
      canonicalClassificationKey ukLibs "subdomain:www.example.co.uk" = some "domain:example.co.uk" :=
  ⟨lawfulRoot_ukLibs, by decide +kernel, by decide +kernel⟩

end OpenDefender
