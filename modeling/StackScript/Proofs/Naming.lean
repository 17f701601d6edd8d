import StackScript.Naming
import StackScript.Proofs.Files.Walking

/-!
# The names of containers are names

A container is named with a stem, a tag and an extension.  The stem is a part of a segment and so
holds no slash, and it is never empty; the other two hold none if the options have passed their
check.  So the whole is one segment, and it is a name, since there is more to it than the two
dots that divide it (`ContainerOptions.isName_containerName`).
-/

namespace StackScript

namespace Path

theorem mem_of_mem_trimmed {leading : Bool} {ss : List Segment} {s : Segment}
    (h : s ∈ trimmed leading ss) : s ∈ ss := by
  induction ss generalizing leading with
  | nil => cases h
  | cons r ss ih =>
    rw [trimmed] at h
    split at h
    · split at h
      · rw [List.mem_singleton.mp h]
        exact List.mem_cons_self
      · cases h
    · next t ts htrimmed =>
      rcases List.mem_cons.mp h with rfl | hs
      · exact List.mem_cons_self
      · exact List.mem_cons_of_mem r (ih (htrimmed ▸ hs))

/-- The file name is one of the segments. -/
theorem mem_segments_of_fileName? {p : Path} {name : Segment} (h : p.fileName? = some name) :
    name ∈ p.segments := by
  unfold fileName? at h
  split at h
  · next s hlast =>
    split at h
    · cases h
    · cases h
      exact mem_of_mem_trimmed (List.mem_of_getLast? hlast)
  · cases h

theorem subset_of_beforeLastDot? {s front : Segment} (h : beforeLastDot? s = some front) :
    front ⊆ s := by
  unfold beforeLastDot? at h
  split at h
  · cases h
  · next c rest hdrop =>
    cases h
    intro x hx
    have hmem : x ∈ s.reverse.dropWhile (· != '.') := by
      rw [hdrop]
      exact List.mem_cons_of_mem c (List.mem_reverse.mp hx)
    exact List.mem_reverse.mp ((List.dropWhile_sublist _).subset hmem)

/-- The stem of a name is a part of it. -/
theorem subset_stemOf (s : Segment) : stemOf s ⊆ s := by
  unfold stemOf
  split
  · exact List.Subset.refl s
  · exact List.Subset.refl s
  · next front _ hfront => exact subset_of_beforeLastDot? hfront

end Path

namespace ContainerOptions

theorem no_slash_stem (script : Path) : '/' ∉ stem script := by
  have hfallback : '/' ∉ fallbackStem := by decide
  unfold stem
  cases hstem : script.stem? with
  | none => exact hfallback
  | some s =>
    dsimp only
    split
    · exact hfallback
    · obtain ⟨name, hname, rfl⟩ := Option.map_eq_some_iff.mp hstem
      have hsegment := Path.no_slash_of_mem_segments (Path.mem_segments_of_fileName? hname)
      exact fun hslash => hsegment (Path.subset_stemOf name hslash)

theorem stem_ne_nil (script : Path) : stem script ≠ [] := by
  unfold stem
  split
  · decide
  · next s _ =>
    split
    · decide
    · next hs => exact fun hnil => hs (.inl hnil)

/-- A text that passes the check holds no slash. -/
theorem no_slash_of_checkField {field value : String} (h : checkField field value = .ok ()) :
    '/' ∉ value.toList := by
  unfold checkField at h
  split at h
  · cases h
  · split at h
    · cases h
    · next hany =>
      intro hslash
      exact hany (List.any_eq_true.mpr ⟨'/', hslash, by decide⟩)

/-- Neither the extension nor the tag of checked options holds a slash. -/
theorem no_slash_of_check {o : ContainerOptions} (h : o.check = .ok ()) :
    '/' ∉ o.extension.toList ∧ '/' ∉ (o.tag.getD implementationTag).toList := by
  simp only [check, bind, Except.bind] at h
  split at h
  · cases h
  · split at h
    · cases h
    · next hextension =>
      refine ⟨no_slash_of_checkField hextension, ?_⟩
      cases htag : o.tag with
      | none => decide
      | some tag =>
        rw [htag] at h
        dsimp only at h
        split at h
        · cases h
        · next hcheck => exact no_slash_of_checkField hcheck

theorem toList_containerName (o : ContainerOptions) (script : Path) :
    (o.containerName script).toList =
      stem script ++ '.' :: (o.tag.getD implementationTag).toList ++ '.' :: o.extension.toList := by
  simp [containerName, toString]

/-- The name of a container has at least two dots. -/
theorem two_le_count_containerName (o : ContainerOptions) (script : Path) :
    2 ≤ (o.containerName script).toList.count '.' := by
  rw [toList_containerName]
  simp only [List.count_append, List.count_cons_self]
  omega

/-- **The name of a container is a name**, if the options have passed their check. -/
theorem isName_containerName {o : ContainerOptions} (h : o.check = .ok ()) (script : Path) :
    FileTree.IsName (o.containerName script).toList ∧ '/' ∉ (o.containerName script).toList := by
  obtain ⟨hextension, htag⟩ := no_slash_of_check h
  obtain ⟨c, cs, hstem⟩ := List.exists_cons_of_ne_nil (stem_ne_nil script)
  have hlength : 2 < (o.containerName script).toList.length := by
    rw [toList_containerName, hstem]
    simp only [List.length_append, List.length_cons]
    omega
  have hne : ∀ s : Path.Segment, s.length ≤ 2 → (o.containerName script).toList ≠ s := by
    rintro s hs rfl
    omega
  refine ⟨⟨hne _ (by decide), hne _ (by decide), hne _ (by decide)⟩, ?_⟩
  rw [toList_containerName]
  simp [no_slash_stem, hextension, htag]

end ContainerOptions

end StackScript
