import OpenDefender.Admin.Cache

/-!
The loop of `delete_pattern` (`services/admin-api/src/cache.rs`): `SCAN` with a cursor until the cursor is 0 again, and
`DEL` of the keys of every page.

`ScanRun` is what Redis guarantees of the replies. A key that is there from the beginning to the end is returned at least
once; keys may be returned more than once, and pages may be empty. A key that the loop does not delete is there until
the end, so a run leaves no key of the pattern behind (`deletePatternLoop_eq`).
-/

namespace OpenDefender.Admin

open Lib Text Wildcard Coherence List
open Adaptor hiding invalidateKey

variable {ν : Type}

/-- A reply to `SCAN`. -/
structure ScanReply where
  nextCursor : ℕ
  keys : List String
  deriving DecidableEq, Repr

variable (store : Assoc String ν)

/-- The `DEL` of a page. -/
def deletePage (reply : ScanReply) : Assoc String ν :=
  if reply.keys.isEmpty then store else store.eraseAll reply.keys

/-- The loop of `delete_pattern`, with the replies it gets; `none` if it waits for another one. -/
def deletePatternLoop (store : Assoc String ν) : List ScanReply → Option (Assoc String ν)
  | [] => none
  | reply :: replies =>
    let store := deletePage store reply
    if reply.nextCursor = 0 then some store else deletePatternLoop store replies

/-- What the loop leaves after these replies. -/
def afterPages (replies : List ScanReply) : Assoc String ν :=
  replies.foldl deletePage store

/-- Replies to the calls of one loop: the cursor is 0 at the last one only, the keys fit the pattern, and a key of the
pattern that is there before and after every page is in one of them. -/
structure ScanRun (pattern : String) (store : Assoc String ν) (replies : List ScanReply) : Prop where
  cursors : ∃ pages last, replies = pages ++ [last] ∧ last.nextCursor = 0 ∧ ∀ page ∈ pages, page.nextCursor ≠ 0
  fits : ∀ reply ∈ replies, ∀ key ∈ reply.keys, globMatches pattern key = true
  complete : ∀ key, globMatches pattern key = true →
    (∀ i, ((afterPages store (replies.take i)).get key).isSome = true) → ∃ reply ∈ replies, key ∈ reply.keys

lemma get_deletePage (reply : ScanReply) (key : String) :
    (deletePage store reply).get key = if key ∈ reply.keys then none else store.get key := by
  rw [deletePage]
  split
  · rename_i hempty
    rw [isEmpty_iff.1 hempty, if_neg not_mem_nil]
  · exact Assoc.get_eraseAll _ _ _

/-- The keys of the pages are gone, the others are as they were. -/
lemma get_afterPages (replies : List ScanReply) (key : String) :
    (afterPages store replies).get key = if ∃ reply ∈ replies, key ∈ reply.keys then none else store.get key := by
  induction replies generalizing store with
  | nil => simp [afterPages]
  | cons reply replies ih =>
    have hstep : afterPages store (reply :: replies) = afterPages (deletePage store reply) replies := rfl
    rw [hstep, ih, get_deletePage]
    by_cases hlater : ∃ reply ∈ replies, key ∈ reply.keys
    · have hany : ∃ r ∈ reply :: replies, key ∈ r.keys := by
        obtain ⟨later, hmem, hkey⟩ := hlater
        exact ⟨later, mem_cons_of_mem _ hmem, hkey⟩
      rw [if_pos hlater, if_pos hany]
    · rw [if_neg hlater]
      by_cases hnow : key ∈ reply.keys
      · rw [if_pos hnow, if_pos ⟨reply, mem_cons_self, hnow⟩]
      · have hnone : ¬∃ r ∈ reply :: replies, key ∈ r.keys := by
          rintro ⟨r, hr, hkey⟩
          rcases mem_cons.1 hr with rfl | hr
          · exact hnow hkey
          · exact hlater ⟨r, hr, hkey⟩
        rw [if_neg hnow, if_neg hnone]

/-- The loop ends at the reply with cursor 0. -/
lemma deletePatternLoop_append (hlast : last.nextCursor = 0)
    (hpages : ∀ page ∈ pages, page.nextCursor ≠ 0) :
    deletePatternLoop store (pages ++ [last]) = some (afterPages store (pages ++ [last])) := by
  induction pages generalizing store with
  | nil =>
    rw [nil_append, deletePatternLoop, if_pos hlast]
    rfl
  | cons page pages ih =>
    obtain ⟨hpage, hrest⟩ := forall_mem_cons.1 hpages
    rw [cons_append, deletePatternLoop, if_neg hpage, ih (deletePage store page) hrest]
    rfl

namespace ScanRun

variable {pattern : String} {store : Assoc String ν} {replies : List ScanReply}

/-- Every key of the pattern that is there at the beginning is returned: one that is not returned is never deleted, so
it is there until the end. -/
lemma returned (h : ScanRun pattern store replies) (hfits : globMatches pattern key = true)
    (hthere : (store.get key).isSome = true) : ∃ reply ∈ replies, key ∈ reply.keys := by
  by_contra hnot
  refine hnot (h.complete key hfits fun i => ?_)
  have hkept : ¬∃ reply ∈ replies.take i, key ∈ reply.keys := by
    rintro ⟨reply, hreply, hkey⟩
    exact hnot ⟨reply, mem_of_mem_take hreply, hkey⟩
  rw [get_afterPages, if_neg hkept]
  exact hthere

/-- **The loop of `delete_pattern`** comes to its end; it has deleted the keys of the pattern and no others. -/
theorem deletePatternLoop_eq (h : ScanRun pattern store replies) :
    ∃ store', deletePatternLoop store replies = some store' ∧
      ∀ key, store'.get key = if globMatches pattern key then none else store.get key := by
  obtain ⟨pages, last, hreplies, hlast, hpages⟩ := h.cursors
  refine ⟨afterPages store replies, ?_, fun key => ?_⟩
  · rw [hreplies]
    exact deletePatternLoop_append store hlast hpages
  · rw [get_afterPages]
    by_cases hfits : globMatches pattern key = true
    · rw [if_pos hfits]
      split
      · rfl
      · rename_i hnot
        -- what is not returned was not there
        by_contra hthere
        exact hnot (h.returned hfits (Option.isSome_iff_ne_none.2 hthere))
    · rw [if_neg hfits, if_neg]
      rintro ⟨reply, hreply, hkey⟩
      exact hfits (h.fits reply hreply key hkey)

end ScanRun

/-- The commands one after the other, with the replies to the `SCAN` calls of each walk; messages change no key. -/
def runCommands (store : Assoc String ν) : List RedisCommand → List (List ScanReply) → Option (Assoc String ν)
  | [], _ => some store
  | .del key :: rest, scans => runCommands (store.erase key) rest scans
  | .walk _ :: rest, replies :: scans =>
    (deletePatternLoop store replies).bind fun store => runCommands store rest scans
  | .walk _ :: _, [] => none
  | .walking _ _ :: _, _ => none
  | .publish _ :: rest, scans => runCommands store rest scans

end OpenDefender.Admin
