/-!
# Counting in lists

Two facts by which a process that only ever adds is seen to end. Counting with a narrower test gives
a smaller number as soon as one element fails it that passed before. And a list has two to the power
of its length sublists, so there are no more different selections from it than that.
-/

set_option autoImplicit false

namespace ShiftReduce

/-- Counting drops when one counted element of a list stops counting and none starts. -/
theorem countP_lt_of_witness {α : Type} {list : List α} {before after : α → Bool} {witness : α}
    (shrinks : ∀ element ∈ list, after element = true → before element = true)
    (member : witness ∈ list) (counted : before witness = true) (dropped : after witness = false) :
    list.countP after < list.countP before := by
  induction list with
  | nil => simp at member
  | cons first rest ih =>
    have rest_le : rest.countP after ≤ rest.countP before :=
      List.countP_mono_left fun element isRest =>
        shrinks element (List.mem_cons_of_mem first isRest)
    rw [List.countP_cons, List.countP_cons]
    rcases List.mem_cons.1 member with rfl | isRest
    · simp [counted, dropped]
      omega
    · have smaller := ih (fun element isElement =>
        shrinks element (List.mem_cons_of_mem first isElement)) isRest
      have first_le := shrinks first List.mem_cons_self
      cases afterFirst : after first
      · simp
        omega
      · simp [first_le afterFirst]
        omega

/-- The sublists of a list. -/
def sublists {α : Type} : List α → List (List α)
  | [] => [[]]
  | first :: rest => sublists rest ++ (sublists rest).map (first :: ·)

/-- A list has two to the power of its length sublists. -/
theorem length_sublists {α : Type} (list : List α) :
    (sublists list).length = Nat.pow 2 list.length := by
  induction list with
  | nil => rfl
  | cons first rest ih =>
    have doubled : Nat.pow 2 (rest.length + 1) = Nat.pow 2 rest.length * 2 := rfl
    rw [sublists, List.length_append, List.length_map, ih, List.length_cons, doubled]
    omega

/-- Filtering a list gives one of its sublists. -/
theorem filter_mem_sublists {α : Type} (keep : α → Bool) (list : List α) :
    list.filter keep ∈ sublists list := by
  induction list with
  | nil => simp [sublists]
  | cons first rest ih =>
    rw [sublists, List.filter_cons, List.mem_append]
    split
    · exact Or.inr (List.mem_map_of_mem ih)
    · exact Or.inl ih

end ShiftReduce
