import OpenDefender.Lib.Assoc
import OpenDefender.Lib.Outcome

/-!
Matching a list of inputs against a list of items by key, each item once.

`exactCover` is the loop that checks of requests use: the inputs are put in a map, which fails on a
key that comes twice; every item takes its input out of the map, which fails if there is none; and what
is left over is an error. `exactCover_ok` says what it accepts: the keys of the inputs are those of the
items, in any order, and every input passes the check of its item. `map_eq_of_exactCover` and
`result_of_input` follow the items and the inputs to the results.
-/

namespace Lib.ExactCover

open Outcome List

variable {κ ε : Type} [DecidableEq κ] {α β γ : Type}

/-- The inputs by key; a key that comes twice is an error. -/
def indexBy (key : β → κ) (duplicate : β → ε) : Assoc κ β → List β → Except ε (Assoc κ β)
  | m, [] => .ok m
  | m, b :: bs =>
    if (m.get (key b)).isSome then .error (duplicate b)
    else indexBy key duplicate (m.set (key b) b) bs

/-- Every item takes its input out of the map and checks it. -/
def consume (key : α → κ) (missing : α → ε) (check : α → β → Except ε γ) :
    List α → Assoc κ β → Except ε (List γ × Assoc κ β)
  | [], m => .ok ([], m)
  | a :: as, m =>
    match m.get (key a) with
    | none => .error (missing a)
    | some b => do
      let c ← check a b
      let (cs, rest) ← consume key missing check as (m.erase (key a))
      return (c :: cs, rest)

/-- How a request is matched: the keys, the errors and the check of an item with its input. -/
structure Rules (κ ε α β γ : Type) where
  itemKey : α → κ
  inputKey : β → κ
  duplicate : β → ε
  missing : α → ε
  unknown : List κ → ε
  check : α → β → Except ε γ

/-- The whole loop. -/
def exactCover (rules : Rules κ ε α β γ) (items : List α) (inputs : List β) : Except ε (List γ) := do
  let m ← indexBy rules.inputKey rules.duplicate .empty inputs
  let (cs, rest) ← consume rules.itemKey rules.missing rules.check items m
  if rest.keys.isEmpty then return cs else .error (rules.unknown rest.keys)

/-! ### What the loop accepts -/

/-- The inputs of a list by key, the later ones first. -/
def byKey (key : β → κ) (bs : List β) (m : Assoc κ β) : Assoc κ β :=
  bs.foldl (fun m b => m.set (key b) b) m

/-- Indexing ends well exactly when no key comes twice. -/
lemma indexBy_ok {key : β → κ} {duplicate : β → ε} {bs : List β} {m m' : Assoc κ β} :
    indexBy key duplicate m bs = .ok m' ↔
      (bs.map key).Nodup ∧ (∀ b ∈ bs, m.get (key b) = none) ∧ m' = byKey key bs m := by
  induction bs generalizing m with
  | nil => simp [indexBy, byKey, eq_comm]
  | cons b bs ih =>
    unfold indexBy
    cases hget : m.get (key b) with
    | some b' => simp [hget]
    | none =>
      have hfresh : (∀ b' ∈ bs, (m.set (key b) b).get (key b') = none) ↔
          key b ∉ bs.map key ∧ ∀ b' ∈ bs, m.get (key b') = none := by
        simp only [Assoc.get_set, mem_map, not_exists, not_and]
        constructor
        · intro h
          refine ⟨fun b' hb' heq => ?_, fun b' hb' => ?_⟩
          · have hset := h b' hb'
            simp [heq] at hset
          · by_cases heq : key b' = key b
            · exact heq ▸ hget
            · simpa [heq] using h b' hb'
        · rintro ⟨hne, h⟩ b' hb'
          rw [if_neg (hne b' hb')]
          exact h b' hb'
      simp only [Option.isSome_none, Bool.false_eq_true, if_false]
      rw [ih, hfresh, map_cons, nodup_cons, forall_mem_cons]
      constructor
      · rintro ⟨hnodup, ⟨hnot, hfresh⟩, rfl⟩
        exact ⟨⟨hnot, hnodup⟩, ⟨hget, hfresh⟩, rfl⟩
      · rintro ⟨⟨hnot, hnodup⟩, ⟨-, hfresh⟩, rfl⟩
        exact ⟨hnodup, ⟨hnot, hfresh⟩, rfl⟩

/-- Among inputs with different keys a key finds its input. -/
lemma get_byKey_empty {key : β → κ} {bs : List β} (hnodup : (bs.map key).Nodup) (k : κ) (b : β) :
    (byKey key bs .empty).get k = some b ↔ b ∈ bs ∧ key b = k := by
  induction bs using List.reverseRecOn with
  | nil => simp [byKey]
  | append_singleton bs last ih =>
    rw [map_append, nodup_append'] at hnodup
    obtain ⟨hbs, -, hdisjoint⟩ := hnodup
    have hstep : byKey key (bs ++ [last]) .empty = (byKey key bs .empty).set (key last) last := by
      rw [byKey, foldl_append]
      rfl
    rw [hstep, Assoc.get_set, mem_append, mem_singleton]
    split_ifs with hk
    · constructor
      · intro h
        exact ⟨Or.inr (Option.some.inj h).symm, Option.some.inj h ▸ hk.symm⟩
      · rintro ⟨hb | rfl, rfl⟩
        · exact absurd (mem_map_of_mem hb) fun hmem => hdisjoint hmem (by simp [hk])
        · rfl
    · rw [ih hbs]
      constructor
      · exact And.imp_left .inl
      · rintro ⟨hb | rfl, rfl⟩
        · exact ⟨hb, rfl⟩
        · exact absurd rfl hk

/-- The map without the keys of the items. -/
def without (key : α → κ) (as : List α) (m : Assoc κ β) : Assoc κ β :=
  as.foldl (fun m a => m.erase (key a)) m

lemma get_without (key : α → κ) (as : List α) (m : Assoc κ β) (k : κ) :
    (without key as m).get k = if k ∈ as.map key then none else m.get k := by
  induction as generalizing m with
  | nil => simp [without]
  | cons a as ih =>
    have hstep : without key (a :: as) m = without key as (m.erase (key a)) := rfl
    rw [hstep, ih, Assoc.get_erase, map_cons]
    by_cases hk : k = key a
    · simp [hk]
    · simp [hk]

lemma forall₂_congr_mem {R S : α → γ → Prop} {as : List α} {cs : List γ}
    (h : ∀ a ∈ as, ∀ c, R a c ↔ S a c) : List.Forall₂ R as cs ↔ List.Forall₂ S as cs := by
  induction as generalizing cs with
  | nil => simp
  | cons a as ih =>
    simp only [forall₂_cons_left_iff, h a mem_cons_self, ih fun a' ha' => h a' (mem_cons_of_mem _ ha')]

lemma exists_forall₂ {R : α → γ → Prop} {as : List α} :
    (∃ cs, List.Forall₂ R as cs) ↔ ∀ a ∈ as, ∃ c, R a c := by
  induction as with
  | nil => simp
  | cons a as ih =>
    rw [forall_mem_cons, ← ih]
    constructor
    · rintro ⟨cs, hcs⟩
      obtain ⟨c, cs', hc, hcs', rfl⟩ := forall₂_cons_left_iff.1 hcs
      exact ⟨⟨c, hc⟩, cs', hcs'⟩
    · rintro ⟨⟨c, hc⟩, cs, hcs⟩
      exact ⟨c :: cs, .cons hc hcs⟩

/-- Items with different keys each take their own input. -/
lemma consume_ok {key : α → κ} {missing : α → ε} {check : α → β → Except ε γ} {as : List α}
    (hnodup : (as.map key).Nodup) {m rest : Assoc κ β} {cs : List γ} :
    consume key missing check as m = .ok (cs, rest) ↔
      List.Forall₂ (fun a c => ∃ b, m.get (key a) = some b ∧ check a b = .ok c) as cs ∧
        rest = without key as m := by
  induction as generalizing m cs with
  | nil => simp [consume, without, eq_comm]
  | cons a as ih =>
    obtain ⟨hnot, hnodup⟩ := nodup_cons.1 hnodup
    -- the inputs of the other items are still there
    have hothers (cs : List γ) : List.Forall₂
          (fun a' c => ∃ b, (m.erase (key a)).get (key a') = some b ∧ check a' b = .ok c) as cs ↔
        List.Forall₂ (fun a' c => ∃ b, m.get (key a') = some b ∧ check a' b = .ok c) as cs := by
      refine forall₂_congr_mem fun a' ha' c => ?_
      have hne : key a' ≠ key a := fun heq => hnot (heq ▸ mem_map_of_mem ha')
      rw [Assoc.get_erase, if_neg hne]
    have hstep : without key (a :: as) m = without key as (m.erase (key a)) := rfl
    rw [forall₂_cons_left_iff, hstep]
    unfold consume
    cases hget : m.get (key a) with
    | none => simp
    | some b =>
      simp only [bind_ok, Prod.exists, Option.some.injEq]
      constructor
      · rintro ⟨c, hc, cs', rest', hrest, heq⟩
        cases heq
        obtain ⟨hcs', rfl⟩ := (ih hnodup).1 hrest
        exact ⟨⟨c, cs', ⟨b, rfl, hc⟩, (hothers cs').1 hcs', rfl⟩, rfl⟩
      · rintro ⟨⟨c, cs', ⟨b', rfl, hc⟩, hcs', rfl⟩, rfl⟩
        exact ⟨c, hc, cs', _, (ih hnodup).2 ⟨(hothers cs').2 hcs', rfl⟩, rfl⟩

/-- Nothing is left over exactly when every input has the key of an item. -/
lemma keys_without_byKey {itemKey : α → κ} {inputKey : β → κ} {items : List α} {inputs : List β}
    (hkeys : (inputs.map inputKey).Nodup) :
    (without itemKey items (byKey inputKey inputs .empty)).keys = [] ↔
      ∀ b ∈ inputs, inputKey b ∈ items.map itemKey := by
  rw [eq_nil_iff_forall_not_mem]
  simp only [Assoc.mem_keys_iff, get_without]
  constructor
  · intro h b hb
    by_contra hnot
    have hnone := h (inputKey b)
    rw [if_neg hnot, (get_byKey_empty hkeys _ _).2 ⟨hb, rfl⟩] at hnone
    exact hnone rfl
  · intro h k hsome
    split at hsome
    · cases hsome
    · rename_i hnot
      obtain ⟨b, hb⟩ := Option.isSome_iff_exists.1 hsome
      obtain ⟨hmem, rfl⟩ := (get_byKey_empty hkeys k b).1 hb
      exact hnot (h b hmem)

omit [DecidableEq κ] in
/-- The keys of items that all have found an input are among those of the inputs. -/
lemma mem_map_of_forall₂ {itemKey : α → κ} {inputKey : β → κ} {check : α → β → γ → Prop}
    {items : List α} {inputs : List β} {cs : List γ}
    (h : List.Forall₂ (fun a c => ∃ b ∈ inputs, inputKey b = itemKey a ∧ check a b c) items cs)
    {a : α} (ha : a ∈ items) : itemKey a ∈ inputs.map inputKey := by
  obtain ⟨c, b, hb, heq, -⟩ := exists_forall₂.1 ⟨cs, h⟩ a ha
  exact heq ▸ mem_map_of_mem hb

/-- **What the loop accepts**, with items of different keys: inputs with the keys of the items in any
order, each of which passes the check of its item. -/
theorem exactCover_ok {rules : Rules κ ε α β γ} {items : List α}
    (hnodup : (items.map rules.itemKey).Nodup) {inputs : List β} {cs : List γ} :
    exactCover rules items inputs = .ok cs ↔ (inputs.map rules.inputKey).Perm (items.map rules.itemKey) ∧
        List.Forall₂ (fun a c => ∃ b ∈ inputs, rules.inputKey b = rules.itemKey a ∧
          rules.check a b = .ok c) items cs := by
  have hforall (hkeys : (inputs.map rules.inputKey).Nodup) (cs : List γ) : List.Forall₂ (fun a c => ∃ b,
        (byKey rules.inputKey inputs .empty).get (rules.itemKey a) = some b ∧
          rules.check a b = .ok c) items cs ↔
      List.Forall₂ (fun a c => ∃ b ∈ inputs, rules.inputKey b = rules.itemKey a ∧
        rules.check a b = .ok c) items cs := by
    refine forall₂_congr_mem fun a _ c => ?_
    simp only [get_byKey_empty hkeys, and_assoc]
  rw [exactCover]
  simp only [bind_ok, indexBy_ok, consume_ok hnodup, Prod.exists]
  constructor
  · rintro ⟨m, ⟨hkeys, -, rfl⟩, cs', rest, ⟨hcs', rfl⟩, hend⟩
    split at hend
    · rename_i hempty
      obtain rfl := Except.ok.inj hend
      have hcs := (hforall hkeys cs').1 hcs'
      refine ⟨(perm_ext_iff_of_nodup hkeys hnodup).2 fun k => ⟨fun hk => ?_, fun hk => ?_⟩, hcs⟩
      · obtain ⟨b, hb, rfl⟩ := mem_map.1 hk
        exact (keys_without_byKey hkeys).1 (isEmpty_iff.1 hempty) b hb
      · obtain ⟨a, ha, rfl⟩ := mem_map.1 hk
        exact mem_map_of_forall₂ hcs ha
    · cases hend
  · rintro ⟨hperm, hcs⟩
    have hkeys : (inputs.map rules.inputKey).Nodup := hperm.nodup_iff.2 hnodup
    refine ⟨_, ⟨hkeys, by simp, rfl⟩, cs, _, ⟨(hforall hkeys cs).2 hcs, rfl⟩, ?_⟩
    have hempty := (keys_without_byKey hkeys).2
      fun b hb => hperm.mem_iff.1 (mem_map_of_mem hb)
    simp [hempty]
    rfl

section Accepted

variable {rules : Rules κ ε α β γ} {items : List α} {inputs : List β} {cs : List γ}

/-- The loop accepts inputs with the keys of the items that pass every check. -/
lemma exists_exactCover_ok (rules : Rules κ ε α β γ) (inputs : List β)
    (hnodup : (items.map rules.itemKey).Nodup) :
    (∃ cs, exactCover rules items inputs = .ok cs) ↔
      (inputs.map rules.inputKey).Perm (items.map rules.itemKey) ∧
        ∀ a ∈ items, ∀ b ∈ inputs, rules.inputKey b = rules.itemKey a →
          ∃ c, rules.check a b = .ok c := by
  simp only [exactCover_ok hnodup, exists_and_left, exists_forall₂]
  refine and_congr_right fun hperm => forall₂_congr fun a ha => ?_
  have hkeys : (inputs.map rules.inputKey).Nodup := hperm.nodup_iff.2 hnodup
  constructor
  · rintro ⟨c, b, hb, hkey, hc⟩ b' hb' hkey'
    obtain rfl : b' = b := inj_on_of_nodup_map hkeys hb' hb (hkey'.trans hkey.symm)
    exact ⟨c, hc⟩
  · intro hall
    have hmem : rules.itemKey a ∈ inputs.map rules.inputKey := hperm.mem_iff.2 (mem_map_of_mem ha)
    obtain ⟨b, hb, hkey⟩ := mem_map.1 hmem
    obtain ⟨c, hc⟩ := hall b hb hkey
    exact ⟨c, b, hb, hkey, hc⟩

/-- What the results show of the items. -/
lemma map_eq_of_exactCover (hnodup : (items.map rules.itemKey).Nodup)
    (hcover : exactCover rules items inputs = .ok cs) {δ : Type} {g : γ → δ} {k : α → δ}
    (hg : ∀ a b c, rules.check a b = .ok c → g c = k a) : cs.map g = items.map k := by
  have hall := ((exactCover_ok hnodup).1 hcover).2
  clear hcover hnodup
  induction hall with
  | nil => rfl
  | cons hc _ ih =>
    obtain ⟨b, -, -, hc⟩ := hc
    rw [map_cons, map_cons, hg _ b _ hc, ih]

/-- Every input has given a result. -/
lemma result_of_input (hnodup : (items.map rules.itemKey).Nodup)
    (hcover : exactCover rules items inputs = .ok cs) {b : β} (hb : b ∈ inputs) :
    ∃ a ∈ items, rules.itemKey a = rules.inputKey b ∧ ∃ c ∈ cs, rules.check a b = .ok c := by
  obtain ⟨hperm, hall⟩ := (exactCover_ok hnodup).1 hcover
  have hkeys : (inputs.map rules.inputKey).Nodup := hperm.nodup_iff.2 hnodup
  have hmem : rules.inputKey b ∈ items.map rules.itemKey := hperm.mem_iff.1 (mem_map_of_mem hb)
  obtain ⟨a, ha, hkey⟩ := mem_map.1 hmem
  obtain ⟨i, hi, rfl⟩ := getElem_of_mem ha
  have hlen := hall.length_eq
  obtain ⟨b', hb', hkey', hc⟩ := hall.get hi (hlen ▸ hi)
  obtain rfl : b' = b := inj_on_of_nodup_map hkeys hb' hb (hkey'.trans hkey)
  exact ⟨_, ha, hkey, _, getElem_mem (hlen ▸ hi), hc⟩

/-- Every result comes from an item and its input. -/
lemma input_of_result (hnodup : (items.map rules.itemKey).Nodup)
    (hcover : exactCover rules items inputs = .ok cs) {c : γ} (hc : c ∈ cs) :
    ∃ a ∈ items, ∃ b ∈ inputs, rules.check a b = .ok c := by
  have hall := ((exactCover_ok hnodup).1 hcover).2
  obtain ⟨i, hi, rfl⟩ := getElem_of_mem hc
  have hlen := hall.length_eq
  obtain ⟨b, hb, -, hcheck⟩ := hall.get (hlen ▸ hi) hi
  exact ⟨_, getElem_mem (hlen ▸ hi), b, hb, hcheck⟩

end Accepted

end Lib.ExactCover
