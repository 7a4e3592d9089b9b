import Mathlib.Algebra.BigOperators.Group.Finset.Basic
import Mathlib.Algebra.Order.BigOperators.Group.Finset

/-!
# Adding up over a table

A table over an unbounded index type in which finitely many entries have a weight.
Replacing one entry changes the total by what the two entries differ.

## Main results

* `HasTotal.update` — the total after an entry is replaced.
* `HasTotal.le` — an entry weighs no more than the total.
* `HasTotal.eq_zero` — nothing weighs nothing.
-/

namespace KubePortForward.Verified.Totals

variable {ι α : Type} {w : α → Nat} {f : ι → α} {n m : Nat}

/-- The entries of the table weigh `n` together. -/
def HasTotal (w : α → Nat) (f : ι → α) (n : Nat) : Prop :=
  ∃ S : Finset ι, (∀ i, i ∉ S → w (f i) = 0) ∧ ∑ i ∈ S, w (f i) = n

theorem HasTotal.zero (h : ∀ i, w (f i) = 0) : HasTotal w f 0 :=
  ⟨∅, fun i _ => h i, Finset.sum_empty⟩

theorem HasTotal.eq_zero (h : HasTotal w f n) (hzero : ∀ i, w (f i) = 0) : n = 0 := by
  obtain ⟨S, -, hsum⟩ := h
  rw [← hsum]
  exact Finset.sum_eq_zero fun i _ => hzero i

theorem HasTotal.le (h : HasTotal w f n) (i : ι) : w (f i) ≤ n := by
  obtain ⟨S, hrest, hsum⟩ := h
  by_cases hi : i ∈ S
  · rw [← hsum]
    exact Finset.single_le_sum (fun j _ => Nat.zero_le (w (f j))) hi
  · rw [hrest i hi]
    exact Nat.zero_le n

/-- An entry is replaced. -/
theorem HasTotal.update [DecidableEq ι] {i : ι} {v : α} (h : HasTotal w f n)
    (hm : m + w (f i) = n + w v) : HasTotal w (Function.update f i v) m := by
  obtain ⟨S, hrest, hsum⟩ := h
  have hself : i ∈ insert i S := Finset.mem_insert_self i S
  have hold : w (f i) + ∑ j ∈ (insert i S).erase i, w (f j) = n := by
    rw [Finset.add_sum_erase _ (fun j => w (f j)) hself,
      Finset.sum_insert_of_eq_zero_if_notMem (hrest i), hsum]
  have hsame : ∑ j ∈ (insert i S).erase i, w (Function.update f i v j) =
      ∑ j ∈ (insert i S).erase i, w (f j) := by
    refine Finset.sum_congr rfl fun j hj => ?_
    rw [Function.update_of_ne (Finset.ne_of_mem_erase hj)]
  refine ⟨insert i S, fun j hj => ?_, ?_⟩
  · rw [Finset.mem_insert, not_or] at hj
    rw [Function.update_of_ne hj.1]
    exact hrest j hj.2
  · rw [← Finset.add_sum_erase _ (fun j => w (Function.update f i v j)) hself, hsame,
      Function.update_self]
    omega

end KubePortForward.Verified.Totals
