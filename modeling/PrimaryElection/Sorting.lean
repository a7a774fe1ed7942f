namespace PrimaryElection

variable {α : Type}

def insertBy (before : α → α → Bool) (a : α) : List α → List α
  | [] => [a]
  | b :: rest => if before a b then a :: b :: rest else b :: insertBy before a rest

def sortBy (before : α → α → Bool) : List α → List α
  | [] => []
  | a :: rest => insertBy before a (sortBy before rest)

theorem perm_insertBy (before : α → α → Bool) (a : α) (l : List α) :
    (insertBy before a l).Perm (a :: l) := by
  induction l with
  | nil => exact .refl _
  | cons b rest ih =>
    unfold insertBy
    split
    · exact .refl _
    · exact (ih.cons b).trans (.swap a b rest)

theorem perm_sortBy (before : α → α → Bool) (l : List α) : (sortBy before l).Perm l := by
  induction l with
  | nil => exact .refl _
  | cons a rest ih => exact (perm_insertBy before a _).trans (ih.cons a)

theorem mem_sortBy {before : α → α → Bool} {a : α} {l : List α} : a ∈ sortBy before l ↔ a ∈ l :=
  (perm_sortBy before l).mem_iff

theorem pairwise_insertBy {before : α → α → Bool}
    (total : ∀ a b, before a b = true ∨ before b a = true)
    (trans : ∀ a b c, before a b = true → before b c = true → before a c = true)
    (a : α) {l : List α} (h : l.Pairwise fun x y => before x y = true) :
    (insertBy before a l).Pairwise fun x y => before x y = true := by
  induction l with
  | nil => simp [insertBy]
  | cons b rest ih =>
    obtain ⟨hb, hr⟩ := List.pairwise_cons.mp h
    unfold insertBy
    split
    · rename_i hab
      apply List.pairwise_cons.mpr
      refine ⟨fun x hx => ?_, h⟩
      rcases List.mem_cons.mp hx with rfl | hx
      · exact hab
      · exact trans a b x hab (hb x hx)
    · rename_i hab
      apply List.pairwise_cons.mpr
      refine ⟨fun x hx => ?_, ih hr⟩
      rcases List.mem_cons.mp ((perm_insertBy before a rest).mem_iff.mp hx) with rfl | hx
      · exact (total b x).resolve_right hab
      · exact hb x hx

theorem pairwise_sortBy {before : α → α → Bool}
    (total : ∀ a b, before a b = true ∨ before b a = true)
    (trans : ∀ a b c, before a b = true → before b c = true → before a c = true)
    (l : List α) : (sortBy before l).Pairwise fun x y => before x y = true := by
  induction l with
  | nil => exact .nil
  | cons a rest ih => exact pairwise_insertBy total trans a ih

end PrimaryElection
