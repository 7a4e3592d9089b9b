import Mathlib.Data.List.Basic

/-!
# Extracting up to a number of elements

`extractIf p limit xs` takes the first `limit` elements that satisfy `p` out of a list, as
`Vec::extract_if(.., p).take(limit)` does.  Once the limit is reached no further element is
looked at, and the rest of the list is kept.

## Main results

* `extractIf_perm`, `extractIf_kept_sublist` — every element is taken or kept, and what is
  kept stays in order.
* `extractIf_of_lt` — below the limit, what is kept is what does not satisfy `p`.
* `one_lt_kept_iff` — with all but one to be taken at most, two or more are kept exactly
  when two or more do not satisfy `p`.
-/

namespace KubePortForward.Verified.Extraction

variable {α : Type} {p : α → Bool}

/-- The elements taken out, and those kept. -/
def extractIf (p : α → Bool) : Nat → List α → List α × List α
  | _, [] => ([], [])
  | 0, x :: xs => ([], x :: xs)
  | limit + 1, x :: xs =>
      if p x then
        let r := extractIf p limit xs
        (x :: r.1, r.2)
      else
        let r := extractIf p (limit + 1) xs
        (r.1, x :: r.2)

@[simp] theorem extractIf_zero (xs : List α) : extractIf p 0 xs = ([], xs) := by
  cases xs <;> rfl

theorem extractIf_cons_pos {limit : Nat} {x : α} {xs : List α} (h : p x = true) :
    extractIf p (limit + 1) (x :: xs) =
      (x :: (extractIf p limit xs).1, (extractIf p limit xs).2) := by
  rw [extractIf, if_pos h]

theorem extractIf_cons_neg {limit : Nat} {x : α} {xs : List α} (h : ¬ p x = true) :
    extractIf p (limit + 1) (x :: xs) =
      ((extractIf p (limit + 1) xs).1, x :: (extractIf p (limit + 1) xs).2) := by
  rw [extractIf, if_neg h]

/-- Every element is taken or kept. -/
theorem extractIf_perm (limit : Nat) (xs : List α) :
    ((extractIf p limit xs).1 ++ (extractIf p limit xs).2).Perm xs := by
  fun_induction extractIf p limit xs with
  | case1 => exact List.Perm.refl _
  | case2 x xs => exact List.Perm.refl _
  | case3 limit x xs hx r ih => exact ih.cons x
  | case4 limit x xs hx r ih => exact List.perm_middle.trans (ih.cons x)

theorem extractIf_length (limit : Nat) (xs : List α) :
    (extractIf p limit xs).1.length + (extractIf p limit xs).2.length = xs.length := by
  rw [← List.length_append]
  exact (extractIf_perm limit xs).length_eq

/-- What is taken out satisfies `p`. -/
theorem extractIf_taken {limit : Nat} {xs : List α} :
    ∀ x ∈ (extractIf p limit xs).1, p x = true := by
  fun_induction extractIf p limit xs with
  | case1 => simp
  | case2 x xs => simp
  | case3 limit x xs hx r ih =>
      intro y hy
      rcases List.mem_cons.1 hy with rfl | hy
      · exact hx
      · exact ih y hy
  | case4 limit x xs hx r ih => exact ih

theorem extractIf_taken_length (limit : Nat) (xs : List α) :
    (extractIf p limit xs).1.length ≤ limit := by
  fun_induction extractIf p limit xs with
  | case1 => exact Nat.zero_le _
  | case2 x xs => exact Nat.le_refl _
  | case3 limit x xs hx r ih => exact Nat.succ_le_succ ih
  | case4 limit x xs hx r ih => exact ih

/-- What is kept stays in order. -/
theorem extractIf_kept_sublist (limit : Nat) (xs : List α) :
    (extractIf p limit xs).2.Sublist xs := by
  fun_induction extractIf p limit xs with
  | case1 => exact List.Sublist.refl _
  | case2 x xs => exact List.Sublist.refl _
  | case3 limit x xs hx r ih => exact ih.cons x
  | case4 limit x xs hx r ih => exact ih.cons_cons x

/-- What does not satisfy `p` is kept. -/
theorem filter_sublist_kept (limit : Nat) (xs : List α) :
    (xs.filter fun x => !p x).Sublist (extractIf p limit xs).2 := by
  fun_induction extractIf p limit xs with
  | case1 => exact List.Sublist.refl _
  | case2 x xs => exact List.filter_sublist
  | case3 limit x xs hx r ih =>
      rw [List.filter_cons_of_neg (by simp [hx])]
      exact ih
  | case4 limit x xs hx r ih =>
      rw [List.filter_cons_of_pos (by simp [hx])]
      exact ih.cons_cons x

/-- Below the limit every element was looked at. -/
theorem extractIf_of_lt {limit : Nat} {xs : List α}
    (h : (extractIf p limit xs).1.length < limit) :
    (extractIf p limit xs).2 = xs.filter fun x => !p x := by
  fun_induction extractIf p limit xs with
  | case1 => rfl
  | case2 x xs => exact absurd h (Nat.lt_irrefl _)
  | case3 limit x xs hx r ih =>
      rw [List.filter_cons_of_neg (by simp [hx])]
      exact ih (Nat.lt_of_succ_lt_succ h)
  | case4 limit x xs hx r ih =>
      rw [List.filter_cons_of_pos (by simp [hx])]
      exact congrArg (x :: ·) (ih h)

/-- With one element to be left at least, none is lost. -/
theorem kept_ne_nil {xs : List α} (h : xs ≠ []) : (extractIf p (xs.length - 1) xs).2 ≠ [] := by
  intro hnil
  have hlength := extractIf_length (p := p) (xs.length - 1) xs
  have htaken := extractIf_taken_length (p := p) (xs.length - 1) xs
  have hpos := List.length_pos_iff.2 h
  rw [hnil, List.length_nil] at hlength
  omega

/-- Two or more are kept only when the extraction has gone through the list. -/
theorem kept_eq_filter {xs : List α} (h : 1 < (extractIf p (xs.length - 1) xs).2.length) :
    (extractIf p (xs.length - 1) xs).2 = xs.filter fun x => !p x := by
  apply extractIf_of_lt
  have hlength := extractIf_length (p := p) (xs.length - 1) xs
  omega

theorem one_lt_kept_iff {xs : List α} :
    1 < (extractIf p (xs.length - 1) xs).2.length ↔ 1 < (xs.filter fun x => !p x).length := by
  constructor
  · intro h
    rw [← kept_eq_filter h]
    exact h
  · intro h
    exact Nat.lt_of_lt_of_le h (filter_sublist_kept _ _).length_le

end KubePortForward.Verified.Extraction
