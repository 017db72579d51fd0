import OpenDefender.Admin.Scopes
import OpenDefender.Common.Labels
import OpenDefender.Engine.PolicyStore

/-!
The scopes and patterns that the admin API accepts, as the policy engine matches them.

The admin API checks the scope of an override (`normalize_domain_scope`) and the domain patterns of a rule
(`validate_domain_patterns`) each in its own way, and the engine has a matcher for each. By labels:

* a pattern that is accepted governs the hosts whose last labels are its own, and as a scope it would govern the same
  ones (`pattern_matches_iff`);
* a scope that is accepted may still end in dots, start with one or have two in a row, and then its host is not a name of
  two labels (`accepted_scope_sound_iff`).
-/

namespace OpenDefender.System

open Lib Text Outcome Engine Admin

/-! ### Scopes -/

/-- The host that the engine derives from an accepted scope: what follows the wildcard, without trailing dots. -/
lemma normalizeScopeHost_of_accepted (h : normalizeDomainScope value = .ok scope) :
    normalizeScopeHost scope = if (trimEndMatches '.' (scopeHost scope)).isEmpty then none
      else some (trimEndMatches '.' (scopeHost scope)) := by
  have hcore : (stripPrefix "*." scope).getD scope = scopeHost scope := by
    unfold scopeHost splitScope
    cases stripPrefix "*." scope <;> rfl
  unfold normalizeScopeHost
  rw [lower_trim_of_accepted h]
  dsimp only
  rw [hcore]

/-- A label: not empty and without dots. -/
def IsLabel (label : String) : Prop := label ≠ "" ∧ '.' ∉ label.toList

/-- What is expected of a stored scope: normalising it again changes nothing, and its host is made of two labels or
more, so that it leaves out some host below every top-level domain and matches some host. -/
structure SoundScope (scope : String) : Prop where
  fixed : normalizeDomainScope scope = .ok scope
  named : ∃ host, normalizeScopeHost scope = some host ∧ 2 ≤ (hostLabels host).length ∧
    ∀ label ∈ hostLabels host, label ≠ ""
  notTopLevel : ∀ tld, IsLabel tld → ∃ name, IsLabel name ∧
    domainScopeMatchesHost scope (name ++ ("." ++ tld)) = false
  matchesSome : ∃ host, domainScopeMatchesHost scope host = true

/-- Without its trailing dots the text has a dot, does not start with one and has no two in a row. -/
def ProperlyDotted (text : String) : Prop :=
  containsChar (trimEndMatches '.' text) '.' = true ∧ stripPrefix "." (trimEndMatches '.' text) = none ∧
    contains (trimEndMatches '.' text) ".." = false

instance (text : String) : Decidable (ProperlyDotted text) := inferInstanceAs (Decidable (_ ∧ _))

lemma contains_false_iff : contains s t = false ↔ ∀ u v, s ≠ u ++ (t ++ v) := by
  rw [Bool.eq_false_iff, ne_eq, contains_iff]
  constructor
  · rintro h u v rfl
    exact h ⟨u.toList, v.toList, by simp⟩
  · rintro h ⟨u, v, huv⟩
    refine h (String.ofList u) (String.ofList v) ?_
    rw [← String.toList_inj]
    simp [← huv]

/-- The dots of a text stand between two labels or more. -/
lemma properlyDotted_iff (text : String) : ProperlyDotted text ↔
    2 ≤ (hostLabels (trimEndMatches '.' text)).length ∧
      ∀ label ∈ hostLabels (trimEndMatches '.' text), label ≠ "" := by
  have hend := trimEndMatches_ne_concat '.' text
  rw [ProperlyDotted]
  generalize trimEndMatches '.' text = host at hend
  rw [two_le_length_hostLabels, stripPrefix_eq_none, contains_false_iff]
  have hempty : (∀ label ∈ hostLabels host, label ≠ "") ↔ "" ∉ hostLabels host :=
    ⟨fun h hmem => h "" hmem rfl, fun h label hlabel heq => h (heq ▸ hlabel)⟩
  rw [hempty, empty_mem_hostLabels]
  constructor
  · rintro ⟨hdot, hstart, hdouble⟩
    refine ⟨hdot, ?_⟩
    rintro (rfl | ⟨r, hr⟩ | ⟨r, hr⟩ | ⟨u, v, huv⟩)
    · exact absurd hdot (by decide)
    · exact hstart r hr
    · exact hend r hr
    · exact hdouble u v huv
  · rintro ⟨hdot, hnone⟩
    push Not at hnone
    exact ⟨hdot, hnone.2.1, hnone.2.2.2⟩

/-- A scope host of two labels leaves out a host below every top-level domain. -/
lemma exists_unmatched (hhost : normalizeScopeHost scope = some host)
    (htwo : 2 ≤ (hostLabels host).length) (htld : IsLabel tld) :
    ∃ name, IsLabel name ∧ domainScopeMatchesHost scope (name ++ ("." ++ tld)) = false := by
  obtain ⟨first, rest, hlabels⟩ := List.exists_cons_of_ne_nil (hostLabels_ne_nil host)
  -- a name that is not the first label of the scope host
  have hname : IsLabel (first ++ "x") := by
    refine ⟨fun hempty => ?_, ?_⟩
    · rw [← String.toList_inj] at hempty
      simp at hempty
    · have hfirst := not_mem_label (hlabels ▸ List.mem_cons_self)
      simpa using hfirst
  refine ⟨first ++ "x", hname, ?_⟩
  rw [Bool.eq_false_iff]
  intro hmatch
  obtain ⟨scopeHost, hs, hsuffix⟩ := domainScopeMatchesHost_iff.1 hmatch
  obtain rfl := Option.some.inj (hs.symm.trans hhost)
  rw [isLabelSuffix_iff, hostLabels_append, hostLabels_of_no_dot hname.2, hostLabels_of_no_dot htld.2] at hsuffix
  have hall : hostLabels scopeHost = [first ++ "x"] ++ [tld] := hsuffix.eq_of_length_le (by simpa using htwo)
  rw [hlabels] at hall
  have hhead : first = first ++ "x" := (List.cons.inj hall).1
  have hlen := congrArg String.length hhead
  rw [String.length_append] at hlen
  have hx : "x".length = 1 := rfl
  omega

/-- **Accepted scopes.** A scope that `normalize_domain_scope` accepts is as expected exactly when what follows the
wildcard, apart from dots at the end, has a dot, does not start with one and has no two in a row. -/
theorem accepted_scope_sound_iff (value scope : String) (haccepted : normalizeDomainScope value = .ok scope) :
    SoundScope scope ↔ ProperlyDotted (scopeHost (toAsciiLowercase (trim value))) := by
  have hhost := normalizeScopeHost_of_accepted haccepted
  rw [← accepted_eq haccepted, properlyDotted_iff]
  constructor
  · rintro ⟨-, ⟨host, hsome, htwo, hlabels⟩, -, -⟩
    rw [hhost] at hsome
    split at hsome
    · cases hsome
    · cases hsome
      exact ⟨htwo, hlabels⟩
  · rintro ⟨htwo, hlabels⟩
    have hne : ¬(trimEndMatches '.' (scopeHost scope)).isEmpty = true := by
      intro hempty
      rw [String.isEmpty_iff.1 hempty, hostLabels_empty] at htwo
      simp at htwo
    rw [if_neg hne] at hhost
    exact
      { fixed := normalizeDomainScope_idem haccepted
        named := ⟨_, hhost, htwo, hlabels⟩
        notTopLevel := fun tld => exists_unmatched hhost htwo
        matchesSome := ⟨_, domainScopeMatchesHost_iff.2 ⟨_, hhost, Or.inl rfl⟩⟩ }

/-- A scope with the dot of the root at its end. -/
theorem rooted_scope_sound : normalizeDomainScope " *.Example.com. " = .ok "*.example.com." ∧
    SoundScope "*.example.com." := by
  have haccepted : normalizeDomainScope " *.Example.com. " = .ok "*.example.com." := by decide +kernel
  exact ⟨haccepted, (accepted_scope_sound_iff _ _ haccepted).2 (by decide +kernel)⟩

/-- A top-level domain with a dot behind it is accepted and governs every host below the domain; a dot alone is accepted
and governs nothing. -/
theorem top_level_scope_accepted :
    (normalizeDomainScope "com." = .ok "com." ∧ normalizeScopeHost "com." = some "com" ∧
      hostLabels "com" = ["com"] ∧ ∀ name, domainScopeMatchesHost "com." (name ++ ("." ++ "com")) = true) ∧
    (normalizeDomainScope "." = .ok "." ∧ ∀ host, domainScopeMatchesHost "." host = false) := by
  have hcom : normalizeScopeHost "com." = some "com" := by decide +kernel
  have hdot : normalizeScopeHost "." = none := by decide +kernel
  have hall (name : String) : domainScopeMatchesHost "com." (name ++ ("." ++ "com")) = true :=
    domainScopeMatchesHost_iff.2 ⟨"com", hcom, Or.inr (endsWith_append _ _)⟩
  have hnone (host : String) : domainScopeMatchesHost "." host = false := by
    rw [Bool.eq_false_iff]
    intro hmatch
    obtain ⟨scopeHost, hsome, -⟩ := domainScopeMatchesHost_iff.1 hmatch
    rw [hdot] at hsome
    cases hsome
  have haccepted : normalizeDomainScope "com." = .ok "com." ∧ normalizeDomainScope "." = .ok "." := by
    decide +kernel
  exact ⟨⟨haccepted.1, hcom, by decide +kernel, hall⟩, haccepted.2, hnone⟩

/-! ### Patterns -/

/-- The rule matcher on a key: the `domains` condition of a rule with this pattern. -/
def ruleGovernsKey (pattern normalizedKey : String) : Bool :=
  (storeHostFromNormalizedKey normalizedKey).any (domainPatternMatchesHost pattern)

/-- A text in lower case and without a leading `*.`. -/
def patternHost (text : String) : String :=
  (stripPrefix "*." (toAsciiLowercase text)).getD (toAsciiLowercase text)

/-- What `validate_domain_patterns` says about a pattern. -/
lemma labels_of_accepted (h : validateDomainPattern pattern = .ok ()) :
    toAsciiLowercase (trim pattern) ≠ "" ∧ ∀ label ∈ hostLabels (patternHost (trim pattern)), label ≠ "" := by
  simp only [validateDomainPattern] at h
  split at h
  · cases h
  rename_i hne
  split at h
  · cases h
  split at h
  · cases h
  split at h
  · rename_i hvalid
    refine ⟨fun hempty => hne (by rw [hempty]; rfl), fun label hlabel hempty => ?_⟩
    have hlabelValid := List.all_eq_true.1 hvalid label hlabel
    rw [hempty] at hlabelValid
    cases hlabelValid
  · cases h

/-- An accepted pattern has no trailing dots, so as a scope it has the same host. -/
lemma normalizeScopeHost_of_pattern (h : validateDomainPattern pattern = .ok ()) :
    normalizeScopeHost pattern = some (patternHost (trim pattern)) := by
  obtain ⟨-, hlabels⟩ := labels_of_accepted h
  have hempty : "" ∉ hostLabels (patternHost (trim pattern)) := fun hmem => hlabels "" hmem rfl
  rw [empty_mem_hostLabels, not_or, not_or, not_or] at hempty
  obtain ⟨hne, -, hend, -⟩ := hempty
  have hdots : trimEndMatches '.' (patternHost (trim pattern)) = patternHost (trim pattern) :=
    trimEndMatches_eq_self fun r hr => hend ⟨r, hr⟩
  have hunfold : normalizeScopeHost pattern =
      if (trimEndMatches '.' (patternHost (trim pattern))).isEmpty then none
      else some (trimEndMatches '.' (patternHost (trim pattern))) := rfl
  rw [hunfold, hdots, if_neg (by rwa [String.isEmpty_iff])]

lemma domainPatternMatchesHost_iff (h : validateDomainPattern pattern = .ok ()) :
    domainPatternMatchesHost pattern host = true ↔ IsLabelSuffix (patternHost (trim pattern)) host := by
  have hne : (toAsciiLowercase (trim pattern)).isEmpty = false := by
    rw [Bool.eq_false_iff, ne_eq, String.isEmpty_iff]
    exact (labels_of_accepted h).1
  rw [domainPatternMatchesHost, patternHost, IsLabelSuffix]
  dsimp only
  rw [hne, if_neg Bool.false_ne_true, Bool.or_eq_true, beq_iff_eq]

lemma hosts_of_hostKey (hkey : key = "domain:" ++ raw ∨ key = "subdomain:" ++ raw) :
    storeHostFromNormalizedKey key = cleanHost raw ∧ hostFromNormalizedKey key = cleanHost raw := by
  rcases hkey with rfl | rfl
  · simp [storeHostFromNormalizedKey, hostFromNormalizedKey]
  · simp [storeHostFromNormalizedKey, hostFromNormalizedKey, stripPrefix_domain_subdomain]

/-- **Accepted patterns.** For a pattern of a condition that `validate_domain_patterns` accepts and a domain or
subdomain key with a host, the rule matcher and the override matcher agree, and both hold exactly when the labels of the
pattern, trimmed, in lower case and without a leading `*.`, are the last labels of the host. -/
theorem pattern_matches_iff (conditions : Conditions) (domains : List String) (pattern raw key host : String)
    (hdomains : conditions.domains = some domains) (hpattern : pattern ∈ domains)
    (haccepted : validateDomainPatterns conditions = .ok ())
    (hkey : key = "domain:" ++ raw ∨ key = "subdomain:" ++ raw) (hhost : cleanHost raw = some host) :
    ruleGovernsKey pattern key = scopeGovernsKey pattern key ∧
      (ruleGovernsKey pattern key = true ↔ hostLabels (patternHost (trim pattern)) <:+ hostLabels host) := by
  have hvalid : validateDomainPattern pattern = .ok () := by
    unfold validateDomainPatterns at haccepted
    rw [hdomains] at haccepted
    exact forM_ok.1 haccepted pattern hpattern
  obtain ⟨hstore, hmain⟩ := hosts_of_hostKey hkey
  have hrule : ruleGovernsKey pattern key = domainPatternMatchesHost pattern host := by
    rw [ruleGovernsKey, hstore, hhost, Option.any_some]
  have hscope : scopeGovernsKey pattern key = domainScopeMatchesHost pattern host := by
    rw [scopeGovernsKey, hmain, hhost, Option.any_some]
  have hmatch : domainScopeMatchesHost pattern host = true ↔ IsLabelSuffix (patternHost (trim pattern)) host := by
    rw [domainScopeMatchesHost_iff, normalizeScopeHost_of_pattern hvalid]
    simp
  rw [hrule, hscope, ← isLabelSuffix_iff, ← domainPatternMatchesHost_iff hvalid]
  refine ⟨?_, Iff.rfl⟩
  rw [Bool.eq_iff_iff, domainPatternMatchesHost_iff hvalid, hmatch]

/-- A pattern with a wildcard and a key with a dot at its end. -/
theorem wildcard_pattern_matches :
    ruleGovernsKey "*.Example.com" "subdomain:WWW.example.com." =
        scopeGovernsKey "*.Example.com" "subdomain:WWW.example.com." ∧
      ruleGovernsKey "*.Example.com" "subdomain:WWW.example.com." = true := by
  have hspec := pattern_matches_iff { domains := some ["*.Example.com"] } ["*.Example.com"] "*.Example.com"
    "WWW.example.com." "subdomain:WWW.example.com." "www.example.com" rfl (by simp) (by decide +kernel)
    (Or.inr (by decide +kernel)) (by decide +kernel)
  exact ⟨hspec.1, hspec.2.2 (by decide +kernel)⟩

/-- A blank in front of a pattern is accepted and makes no difference to the matchers, but the first label of the text as
it stands begins with the blank. -/
theorem padded_pattern_matches :
    validateDomainPatterns { domains := some [" example.com"] } = .ok () ∧
      ruleGovernsKey " example.com" "domain:example.com" = true ∧
      scopeGovernsKey " example.com" "domain:example.com" = true ∧
      cleanHost "example.com" = some "example.com" ∧
      ¬hostLabels (patternHost " example.com") <:+ hostLabels "example.com" := by
  decide +kernel

end OpenDefender.System
