/-!
# Lists in the order of names

Bindings and builtins are listed by name, in the order of the names, and no name is listed
twice.
-/

namespace StackScript.Named

variable {α : Type}

/-- Enter something under a name; an entry of the same name is replaced. -/
def place (name : String) (v : α) : List (String × α) → List (String × α)
  | [] => [(name, v)]
  | (other, w) :: rest =>
      if name = other then (name, v) :: rest
      else if name < other then (name, v) :: (other, w) :: rest
      else (other, w) :: place name v rest

theorem mem_place {name : String} {v : α} {e : String × α} {l : List (String × α)}
    (h : e ∈ place name v l) : e = (name, v) ∨ e ∈ l := by
  induction l with
  | nil => exact .inl (List.mem_singleton.mp h)
  | cons first l ih =>
    unfold place at h
    split at h
    · exact (List.mem_cons.mp h).imp_right (List.mem_cons_of_mem _)
    · split at h
      · exact List.mem_cons.mp h
      · rcases List.mem_cons.mp h with rfl | h
        · exact .inr List.mem_cons_self
        · exact (ih h).imp_right (List.mem_cons_of_mem _)

/-- An entry is put where it belongs. -/
theorem ordered_place (name : String) (v : α) {l : List (String × α)}
    (h : l.Pairwise fun a b => a.1 < b.1) : (place name v l).Pairwise fun a b => a.1 < b.1 := by
  induction l with
  | nil => exact List.pairwise_singleton _ _
  | cons first l ih =>
    obtain ⟨hfirst, hrest⟩ := List.pairwise_cons.mp h
    unfold place
    split
    · next heq =>
      subst heq
      exact List.pairwise_cons.mpr ⟨hfirst, hrest⟩
    · next hne =>
      split
      · next hlt =>
        refine List.pairwise_cons.mpr ⟨List.forall_mem_cons.mpr ⟨hlt, fun e he => ?_⟩, h⟩
        exact String.lt_trans hlt (hfirst e he)
      · next hnot =>
        refine List.pairwise_cons.mpr ⟨fun e he => ?_, ih hrest⟩
        rcases mem_place he with rfl | he
        · refine Decidable.byContradiction fun hge => hne ?_
          exact String.le_antisymm (String.not_lt.mp hge) (String.not_lt.mp hnot)
        · exact hfirst e he

theorem lookup_place_self (name : String) (v : α) (l : List (String × α)) :
    (place name v l).lookup name = some v := by
  induction l with
  | nil => simp [place]
  | cons e l ih =>
    obtain ⟨other, w⟩ := e
    unfold place
    split
    · simp
    · next h =>
      have hb : (name == other) = false := beq_false_of_ne h
      split
      · simp
      · rw [List.lookup_cons, hb]
        exact ih

theorem lookup_place_of_ne {name other : String} (h : other ≠ name) (v : α)
    (l : List (String × α)) : (place name v l).lookup other = l.lookup other := by
  have hb : (other == name) = false := beq_false_of_ne h
  induction l with
  | nil => simp [place, List.lookup_cons, hb]
  | cons e l ih =>
    obtain ⟨word, w⟩ := e
    unfold place
    split
    · next hw =>
      subst hw
      simp [List.lookup_cons, hb]
    · split
      · rw [List.lookup_cons, hb]
      · rw [List.lookup_cons, List.lookup_cons, ih]

end StackScript.Named
