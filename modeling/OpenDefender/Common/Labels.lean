import OpenDefender.Common.Normalizer

/-!
Hosts as lists of labels.

The services compare hosts as texts: a host lies below a domain if it ends with a dot and the domain.
`isLabelSuffix_iff` says that this is a matter of labels: those of the domain are the last ones of the host.
-/

namespace OpenDefender

open Lib Text List

/-- The labels of a host, the pieces between its dots. -/
def hostLabels (host : String) : List String := split (· == '.') host

lemma hostLabels_ne_nil (host : String) : hostLabels host ≠ [] := by
  rw [hostLabels, split, ne_eq, map_eq_nil_iff]
  exact splitOnP_ne_nil _ _

lemma join_hostLabels (host : String) : join "." (hostLabels host) = host := join_split '.' host

/-- A dot between two texts keeps their labels apart. -/
lemma hostLabels_append (a b : String) : hostLabels (a ++ ("." ++ b)) = hostLabels a ++ hostLabels b :=
  split_append_separator '.' a b

@[simp] lemma hostLabels_empty : hostLabels "" = [""] := by decide

/-- A text without dots is one label. -/
lemma hostLabels_of_no_dot (h : '.' ∉ label.toList) : hostLabels label = [label] := by
  have hsplit : split (· == '.') (join "." [label]) = [label] :=
    split_join (by simpa using h) (cons_ne_nil _ _)
  rwa [join] at hsplit

variable {host : String}

/-- Labels have no dots. -/
lemma not_mem_label (h : label ∈ hostLabels host) : '.' ∉ label.toList := by
  intro hdot
  have hsep := not_mem_of_mem_split h '.' hdot
  simp at hsep

/-- A host is cut at a dot where its list of labels is cut. -/
lemma eq_of_hostLabels_append (h : hostLabels host = front ++ back) (hfront : front ≠ [])
    (hback : back ≠ []) : host = join "." front ++ ("." ++ join "." back) := by
  rw [← join_hostLabels host, h, join_append "." hfront hback, String.append_assoc]

/-- **At or below a domain**: the labels of the domain are the last labels of the host. -/
theorem isLabelSuffix_iff : IsLabelSuffix d h ↔ hostLabels d <:+ hostLabels h := by
  constructor
  · rintro (rfl | hends)
    · exact suffix_rfl
    · obtain ⟨u, rfl⟩ := endsWith_iff.1 hends
      exact ⟨hostLabels u, (hostLabels_append u d).symm⟩
  · rintro ⟨front, hfront⟩
    cases front with
    | nil =>
      left
      rw [← join_hostLabels h, ← hfront, nil_append, join_hostLabels]
    | cons label front =>
      right
      have hcut := eq_of_hostLabels_append hfront.symm (cons_ne_nil label front) (hostLabels_ne_nil d)
      rw [join_hostLabels] at hcut
      exact endsWith_iff.2 ⟨_, hcut⟩

/-- There is more than one label exactly when there is a dot. -/
lemma two_le_length_hostLabels :
    2 ≤ (hostLabels host).length ↔ containsChar host '.' = true := by
  rw [containsChar, contains_iff_mem]
  constructor
  · intro hlen
    by_contra hdot
    rw [hostLabels_of_no_dot hdot] at hlen
    simp at hlen
  · intro hdot
    obtain ⟨u, v, huv⟩ := append_of_mem hdot
    obtain rfl : host = String.ofList u ++ ("." ++ String.ofList v) := by
      rw [← String.toList_inj]
      simp [huv]
    rw [hostLabels_append, length_append]
    have hu := length_pos_of_ne_nil (hostLabels_ne_nil (String.ofList u))
    have hv := length_pos_of_ne_nil (hostLabels_ne_nil (String.ofList v))
    omega

lemma dot_dot_append (v : String) : "." ++ ("." ++ v) = ".." ++ v := by
  rw [← String.append_assoc]
  rfl

/-- **Empty labels** stand at a dot in front, at a dot at the end, between two dots, or make up the text. -/
lemma empty_mem_hostLabels : "" ∈ hostLabels host ↔
    host = "" ∨ (∃ r, host = "." ++ r) ∨ (∃ r, host = r ++ ".") ∨ ∃ u v, host = u ++ (".." ++ v) := by
  constructor
  · intro hmem
    obtain ⟨front, back, hlabels⟩ := append_of_mem hmem
    cases front with
    | nil =>
      cases back with
      | nil =>
        left
        rw [← join_hostLabels host, hlabels]
        rfl
      | cons label back =>
        right; left
        rw [nil_append, ← singleton_append] at hlabels
        have hcut := eq_of_hostLabels_append hlabels (cons_ne_nil _ _) (cons_ne_nil _ _)
        rw [join, String.empty_append] at hcut
        exact ⟨_, hcut⟩
    | cons first front =>
      have hcut := eq_of_hostLabels_append hlabels (cons_ne_nil _ _) (cons_ne_nil _ _)
      cases back with
      | nil =>
        right; right; left
        rw [join, String.append_empty] at hcut
        exact ⟨_, hcut⟩
      | cons label back =>
        right; right; right
        rw [join, String.empty_append, dot_dot_append] at hcut
        exact ⟨_, _, hcut⟩
  · rintro (rfl | ⟨r, rfl⟩ | ⟨r, rfl⟩ | ⟨u, v, rfl⟩)
    · simp
    · have hsplit := hostLabels_append "" r
      rw [String.empty_append] at hsplit
      simp [hsplit]
    · have hsplit := hostLabels_append r ""
      rw [String.append_empty] at hsplit
      simp [hsplit]
    · have hsplit := hostLabels_append "" v
      rw [String.empty_append] at hsplit
      rw [← dot_dot_append, hostLabels_append, hsplit]
      simp

/-! ### Last labels -/

/-- The last two of a list of labels. -/
def lastTwo (labels : List String) : List String :=
  labels.drop (labels.length - 2)

variable {labels : List String}

lemma lastTwo_append (h : two.length = 2) : lastTwo (labels ++ two) = two := by
  rw [lastTwo, length_append, h, Nat.add_sub_cancel, drop_left]

lemma length_lastTwo (h : 2 < labels.length) :
    (lastTwo labels).length = 2 := by
  rw [lastTwo, length_drop]
  omega

lemma mem_of_mem_lastTwo (h : label ∈ lastTwo labels) : label ∈ labels :=
  mem_of_mem_drop h

/-- No label has a dot, so a list of labels is read back from the host they are joined to. -/
lemma hostLabels_join (host : String) (hne : labels ≠ []) (hlabels : ∀ label ∈ labels, label ∈ hostLabels host) :
    hostLabels (join "." labels) = labels := by
  exact split_join (fun label hmem => not_mem_label (hlabels label hmem)) hne

/-- The labels of the last two labels of a longer host. -/
lemma hostLabels_lastTwoLabels (h : 2 < (hostLabels host).length) :
    hostLabels (lastTwoLabels host) = lastTwo (hostLabels host) := by
  have hroot : lastTwoLabels host = join "." (lastTwo (hostLabels host)) := if_neg (by rw [hostLabels] at h; omega)
  rw [hroot]
  exact hostLabels_join host (ne_nil_of_length_pos (by rw [length_lastTwo h]; omega))
    fun label hmem => mem_of_mem_lastTwo hmem

/-! ### Registered domains -/

/-- The public suffix list on registered domains: a root is its own root, and a host of one or two labels has no other
root than itself. -/
structure HostLibs.StableRoot (libs : HostLibs) : Prop where
  root : ∀ h r, libs.domainRoot h = some r → libs.domainRoot (toAsciiLowercase r) = some (toAsciiLowercase r)
  short : ∀ h r, toAsciiLowercase h = h → (hostLabels h).length ≤ 2 → libs.domainRoot h = some r →
    toAsciiLowercase r = h

lemma length_hostLabels_lastTwoLabels (host : String) : (hostLabels (lastTwoLabels host)).length ≤ 2 := by
  by_cases hshort : (hostLabels host).length ≤ 2
  · have hroot : lastTwoLabels host = host := if_pos hshort
    rwa [hroot]
  · rw [hostLabels_lastTwoLabels (by omega), length_lastTwo (by omega)]

lemma deriveRegisteredDomain_idem_of
    (hroot : ∀ r, libs.domainRoot host = some r → libs.domainRoot (toAsciiLowercase r) = some (toAsciiLowercase r))
    (hshort : ∀ r, libs.domainRoot (lastTwoLabels host) = some r → toAsciiLowercase r = lastTwoLabels host) :
    deriveRegisteredDomain libs (deriveRegisteredDomain libs host) = deriveRegisteredDomain libs host := by
  cases hhost : libs.domainRoot host with
  | some root =>
    have hregistered : deriveRegisteredDomain libs host = toAsciiLowercase root := by
      rw [deriveRegisteredDomain, hhost]
    rw [hregistered, deriveRegisteredDomain, hroot root hhost]
    exact toAsciiLowercase_idem root
  | none =>
    have hregistered : deriveRegisteredDomain libs host = lastTwoLabels host := by
      rw [deriveRegisteredDomain, hhost]
    rw [hregistered, deriveRegisteredDomain]
    cases hagain : libs.domainRoot (lastTwoLabels host) with
    | some root => exact hshort root hagain
    | none => exact if_pos (length_hostLabels_lastTwoLabels host)

/-- **A registered domain** is its own registered domain. -/
theorem deriveRegisteredDomain_idem (hstable : libs.StableRoot)
    (hlower : toAsciiLowercase host = host) :
    deriveRegisteredDomain libs (deriveRegisteredDomain libs host) = deriveRegisteredDomain libs host :=
  deriveRegisteredDomain_idem_of (hstable.root host) fun r =>
    hstable.short _ r ((isLabelSuffix_lastTwoLabels host).lower hlower) (length_hostLabels_lastTwoLabels host)

lemma stableRoot_sampleLibs : sampleLibs.StableRoot := by
  refine ⟨fun h r hroot => ?_, fun h r _ hshort hroot => ?_⟩
  · simp only [sampleLibs] at hroot ⊢
    split at hroot
    · cases hroot
      decide +kernel
    · cases hroot
  · simp only [sampleLibs] at hroot
    split at hroot
    · rename_i hhost
      cases hroot
      rcases hhost with rfl | rfl
      · decide +kernel
      · revert hshort
        decide +kernel
    · cases hroot

end OpenDefender
