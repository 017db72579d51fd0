import OpenDefender.System.Serving

/-!
Answers inherited from the registered domain.

A request for a subdomain without a cached decision of its own is served the cached decision of its registered
domain, if that is allow, monitor or block. The engine itself decides such a request by the most specific
override that governs the subdomain, and by rules and hints of the subdomain's own key.
`inherited_answer_eq_engine_iff` says when the two agree (`InheritanceFits`).
-/

namespace OpenDefender

namespace Engine

end Engine

namespace System

open Lib Text Run Adaptor Engine

/-- A subdomain target has its registered domain as ancestor. -/
lemma ancestorDomainKey_subdomain
    (h : (targetOfHost libs hostname fullUrl).entityLevel = .subdomain) :
    ancestorDomainKey (targetOfHost libs hostname fullUrl) =
      some ("domain:" ++ deriveRegisteredDomain libs hostname) := by
  have hne : hostname ≠ deriveRegisteredDomain libs hostname := by
    intro heq
    simp [targetOfHost, ← heq] at h
  unfold ancestorDomainKey
  rw [if_neg (by simp [h]), if_neg (by simpa [targetOfHost] using Ne.symm hne)]
  rfl

end System

end OpenDefender
