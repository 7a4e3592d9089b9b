import Mathlib.Data.Set.Card

/-!
# Counting the entries of a table

A table over an unbounded index type, of which finitely many entries have a
property.  Replacing one entry changes the count by what the two entries
differ.

## Main results

* `HasCount.update` — the count after an entry is replaced.
* `HasCount.pos` — an entry that has the property is counted.
* `HasCount.exists_le` — what is counted for a property is counted for every
  stronger one.
-/

namespace KubePortForward.Verified.Counting

variable {ι α : Type}

/-- Exactly `n` entries of the table have the property. -/
def HasCount (P : α → Prop) (f : ι → α) (n : Nat) : Prop :=
  {i | P (f i)}.encard = n

variable {P Q : α → Prop} {f : ι → α} {n m : Nat}

theorem HasCount.zero (h : ∀ i, ¬ P (f i)) : HasCount P f 0 := by
  have hempty : {i | P (f i)} = ∅ := by
    ext i
    simp [h i]
  rw [HasCount, hempty]
  simp

/-- Some entry has the property, so the count is positive. -/
theorem HasCount.pos {i : ι} (h : HasCount P f n) (hi : P (f i)) : 0 < n := by
  rcases Nat.eq_zero_or_pos n with rfl | hpos
  · have hempty : {j | P (f j)} = ∅ := by
      rw [← Set.encard_eq_zero]
      exact h
    have hmem : i ∈ {j | P (f j)} := hi
    rw [hempty] at hmem
    contradiction
  · exact hpos

/-- Properties with the same entries have the same count. -/
theorem HasCount.congr {β : Type} {R : β → Prop} {g : ι → β} (h : HasCount P f n)
    (hiff : ∀ i, R (g i) ↔ P (f i)) : HasCount R g n := by
  have hset : {i | R (g i)} = {i | P (f i)} := by
    ext i
    exact hiff i
  rw [HasCount, hset]
  exact h

/-- Fewer entries have a stronger property. -/
theorem HasCount.exists_le {β : Type} {R : β → Prop} {g : ι → β} (h : HasCount P f n)
    (himp : ∀ i, R (g i) → P (f i)) : ∃ m, HasCount R g m ∧ m ≤ n := by
  have hle : {i | R (g i)}.encard ≤ n := by
    rw [← h]
    exact Set.encard_le_encard himp
  obtain ⟨m, hm, hmn⟩ := ENat.le_natCast_iff.1 hle
  exact ⟨m, hm, hmn⟩

theorem HasCount.unique (h : HasCount P f n) (h' : HasCount P f m) : n = m := by
  have hcast : (n : ℕ∞) = m := h.symm.trans h'
  exact_mod_cast hcast

/-- Properties that exclude each other are counted apart. -/
theorem HasCount.add (h : HasCount P f n) (h' : HasCount Q f m)
    (hdisjoint : ∀ i, P (f i) → ¬ Q (f i)) :
    HasCount (fun x => P x ∨ Q x) f (n + m) := by
  have hunion : {i | P (f i) ∨ Q (f i)} = {i | P (f i)} ∪ {i | Q (f i)} := rfl
  have hdisj : Disjoint {i | P (f i)} {i | Q (f i)} :=
    Set.disjoint_left.2 fun i hi => hdisjoint i hi
  rw [HasCount, hunion, Set.encard_union_eq hdisj, h, h']
  exact (Nat.cast_add n m).symm

/-- Two entries with the property are two. -/
theorem HasCount.two_le {i j : ι} (h : HasCount P f n) (hij : i ≠ j) (hi : P (f i))
    (hj : P (f j)) : 2 ≤ n := by
  by_contra hlt
  have hone : {k | P (f k)}.encard ≤ 1 := by
    rw [h]
    exact_mod_cast (by omega : n ≤ 1)
  exact hij (Set.encard_le_one_iff.1 hone i j hi hj)

variable [DecidableEq ι] [DecidablePred P]

/-- An entry is replaced. -/
theorem HasCount.update {i : ι} {v : α} (h : HasCount P f n)
    (hn : m + (if P (f i) then 1 else 0) = n + (if P v then 1 else 0)) :
    HasCount P (Function.update f i v) m := by
  have hrest : ∀ g : ι → α, (∀ j, j ≠ i → g j = f j) →
      {j | P (g j)} \ {i} = {j | P (f j)} \ {i} := by
    intro g hg
    ext j
    by_cases hj : j = i
    · simp [hj]
    · simp [hj, hg j hj]
  -- Both counts are the count without the entry, plus the entry.
  have hcount : ∀ (g : ι → α), {j | P (g j)}.encard =
      ({j | P (g j)} \ {i}).encard + (if P (g i) then 1 else 0) := by
    intro g
    by_cases hi : P (g i)
    · have hmem : i ∈ {j | P (g j)} := hi
      rw [if_pos hi, Set.encard_sdiff_singleton_add_one hmem]
    · have hmem : i ∉ {j | P (g j)} := hi
      rw [if_neg hi, add_zero, Set.sdiff_singleton_eq_self hmem]
  obtain ⟨k, hk⟩ : ∃ k : ℕ, ({j | P (f j)} \ {i}).encard = k := by
    have hle : ({j | P (f j)} \ {i}).encard ≤ n := by
      rw [← h]
      exact Set.encard_le_encard Set.sdiff_subset
    obtain ⟨k, hk, -⟩ := ENat.le_natCast_iff.1 hle
    exact ⟨k, hk⟩
  have hf : n = k + (if P (f i) then 1 else 0) := by
    have hcast := hcount f
    rw [h, hk] at hcast
    by_cases hi : P (f i)
    · rw [if_pos hi] at hcast ⊢
      exact_mod_cast hcast
    · rw [if_neg hi] at hcast ⊢
      exact_mod_cast hcast
  have hm : m = k + (if P v then 1 else 0) := by omega
  have hv := hcount (Function.update f i v)
  rw [hrest _ fun j hj => Function.update_of_ne hj v f, hk, Function.update_self] at hv
  rw [HasCount, hv, hm]
  split <;> simp

end KubePortForward.Verified.Counting
