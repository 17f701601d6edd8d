import StackScript.Proofs.Files.Faults

/-!
# Replacing a file

A file is replaced by writing another one beside it and moving that one over it
(`FileM.replace`).  Whatever fails, and whenever the tree is looked at, it is in one of three
states (`FileTree.Replacing`): some directories were made; or there is a temporary file besides,
in which anything may stand; or the file has been replaced.  Only the move leads to the last
state, and it does so in one step.

From the second state there are two ways out, and both end well: the move takes the temporary
file away (`HasTemp.replaced_of_move`), and so does its removal when something failed
(`HasTemp.gainsDirs_of_drop`).  So no temporary file is left when the program ends
(`FileM.holds_replace`).
-/

namespace StackScript

namespace FileTree

variable {t₀ t t' : FileTree} {f : TempFile} {spot place : Place}

/-! ## While there is a temporary file -/

/-- There is a temporary file at a spot where nothing was before, and apart from that there are
only new directories. -/
structure HasTemp (t₀ t : FileTree) (f : TempFile) (spot : Place) : Prop where
  /-- Nothing was there. -/
  absent : t₀.node? spot = none
  /-- Nothing else has changed. -/
  changed : t₀.ChangedAt [spot] t
  /-- The file can be found. -/
  resolves : t.resolve f.path = .ok spot
  /-- It is a file. -/
  isFile : ∃ content mtime, t.node? spot = some (.file content mtime)
  /-- It has the name of a temporary file. -/
  named : ∃ name, IsTempName name ∧ spot.getLast? = some name

/-- A file at a path has got its content, in place of another file or of nothing, and apart from
that there are only new directories. -/
def Replaced (t₀ t : FileTree) (target : Path) (content : List UInt8) : Prop :=
  ∃ place mtime, t.resolve target = .ok place ∧ t.node? place = some (.file content mtime) ∧
    t₀.node? place ≠ some .dir ∧ t₀.ChangedAt [place] t

/-- What can be seen while a file is being replaced. -/
inductive Replacing (t₀ : FileTree) (target : Path) (content : List UInt8) (t : FileTree) :
    Prop where
  /-- Directories were made. -/
  | before (h : t₀.GainsDirs t)
  /-- There is a temporary file. -/
  | during (f : TempFile) (spot : Place) (h : t₀.HasTemp t f spot)
  /-- The file has been replaced. -/
  | after (h : t₀.Replaced t target content)

/-- How replacing a file ends: it has been replaced, or there are only new directories. -/
def EndsReplacing {ε : Type} (t₀ : FileTree) (target : Path) (content : List UInt8) :
    Except ε Unit → FileTree → Prop
  | .ok (), t => t₀.Replaced t target content
  | .error _, t => t₀.GainsDirs t

theorem isName_of_isTempName {name : Path.Segment} (h : IsTempName name) :
    IsName name ∧ '/' ∉ name := by
  obtain ⟨rest, rfl, hrest⟩ := h
  refine ⟨⟨by simp, by simp, by simp⟩, fun hmem => ?_⟩
  rcases List.mem_append.mp hmem with hfront | hmem
  · revert hfront
    decide
  · have hslash := hrest '/' hmem
    revert hslash
    decide

/-- The name of a temporary file has one dot. -/
theorem count_of_isTempName {name : Path.Segment} (h : IsTempName name) : name.count '.' = 1 := by
  obtain ⟨rest, rfl, hrest⟩ := h
  have hnone : rest.count '.' = 0 := by
    rw [List.count_eq_zero]
    intro hdot
    exact absurd (hrest '.' hdot) (by decide)
  rw [List.count_append, hnone]
  decide

/-- Making a temporary file. -/
theorem HasTemp.of_created {dir : Path} {name : Path.Segment} (hdirs : t₀.GainsDirs t)
    (hname : IsTempName name) (hresolve : t.resolve (dir.join ⟨String.ofList name⟩) = .ok spot)
    (hnode : t.node? spot = none) (mtime : Int) :
    t₀.HasTemp (t.set spot (.file [] mtime)) ⟨dir.join ⟨String.ofList name⟩⟩ spot := by
  have hchanged := t.changedAt_set spot (.file [] mtime)
  obtain ⟨hisName, hslash⟩ := isName_of_isTempName hname
  refine ⟨?_, hdirs.trans hchanged, ?_, ?_, ?_⟩
  · rcases hdirs.kept spot List.not_mem_nil with hsame | ⟨hnone, -⟩
    · exact hsame.symm.trans hnode
    · exact hnone
  · refine (hchanged.keepsDirs fun place hplace hdir => ?_).resolve hresolve
    obtain rfl := List.mem_singleton.mp hplace
    rw [hnode] at hdir
    cases hdir
  · exact ⟨[], mtime, t.node?_set_self (ne_nil_of_node? hnode) _⟩
  · exact ⟨name, hname, getLast?_of_resolve_join hisName hslash hresolve⟩

/-- A temporary file is no directory. -/
theorem HasTemp.node?_ne_dir (h : t₀.HasTemp t f spot) : t.node? spot ≠ some .dir := by
  obtain ⟨content, mtime, hnode⟩ := h.isFile
  rw [hnode]
  intro hdir
  cases hdir

/-- A temporary file is in no one's way. -/
theorem HasTemp.keepsDirs (h : t₀.HasTemp t f spot) : t₀.KeepsDirs t := by
  refine h.changed.keepsDirs fun place hplace => ?_
  rw [List.mem_singleton.mp hplace, h.absent]
  intro hdir
  cases hdir

/-- A path that leads somewhere leads there all the time. -/
theorem Replacing.keepsDirs {target : Path} {content : List UInt8}
    (h : t₀.Replacing target content t) : t₀.KeepsDirs t := by
  cases h with
  | before h => exact h.keepsDirs fun place hplace => absurd hplace List.not_mem_nil
  | during f spot h => exact h.keepsDirs
  | after h =>
    obtain ⟨place, mtime, -, -, hnotDir, hchanged⟩ := h
    refine hchanged.keepsDirs fun other hother => ?_
    rw [List.mem_singleton.mp hother]
    exact hnotDir

/-- Writing to a temporary file. -/
theorem HasTemp.set (h : t₀.HasTemp t f spot) (content : List UInt8) (mtime : Int) :
    t₀.HasTemp (t.set spot (.file content mtime)) f spot := by
  have hchanged := t.changedAt_set spot (.file content mtime)
  refine ⟨h.absent, ?_, ?_, ?_, h.named⟩
  · refine (h.changed.trans hchanged).narrow fun place hplace hother => ?_
    exact absurd (by simpa using hplace) hother
  · refine (hchanged.keepsDirs fun place hplace => ?_).resolve h.resolves
    rw [List.mem_singleton.mp hplace]
    exact h.node?_ne_dir
  · exact ⟨content, mtime, t.node?_set_self (ne_nil_of_node? h.absent) _⟩

/-- **Removing the temporary file** leaves nothing but new directories. -/
theorem HasTemp.gainsDirs_of_drop (h : t₀.HasTemp t f spot) : t₀.GainsDirs (t.dropTemp f) := by
  have hdrop : t.dropTemp f = t.erase spot := by rw [dropTemp, h.resolves]
  rw [hdrop]
  refine (h.changed.trans (t.changedAt_erase spot)).narrow fun place hplace _ => ?_
  obtain rfl : place = spot := by simpa using hplace
  exact .inl ((t.node?_erase_self (ne_nil_of_node? h.absent)).trans h.absent.symm)

/-- **Moving the temporary file** replaces the target and takes the temporary file away. -/
theorem HasTemp.replaced_of_move (h : t₀.HasTemp t f spot) {content : List UInt8} {mtime : Int}
    (hnode : t.node? spot = some (.file content mtime)) {target : Path}
    (hmove : (.ok (), t') = t.moveTemp f target) : t₀.Replaced t' target content := by
  unfold moveTemp at hmove
  rw [h.resolves] at hmove
  dsimp only at hmove
  rw [hnode] at hmove
  cases htarget : t.moveTarget target with
  | error e =>
    rw [htarget] at hmove
    cases hmove
  | ok place =>
    rw [htarget] at hmove
    cases hmove
    obtain ⟨hresolve, hne, hnotDir⟩ := resolve_of_moveTarget htarget
    have hchanged : t.ChangedAt [spot, place] ((t.erase spot).set place (.file content mtime)) :=
      (t.changedAt_erase spot).trans ((t.erase spot).changedAt_set place _)
    refine ⟨place, mtime, ?_, node?_set_self _ hne _,
      fun hdir => hnotDir (h.keepsDirs.dirs place hdir), ?_⟩
    · refine (hchanged.keepsDirs fun other hother => ?_).resolve hresolve
      rcases List.mem_cons.mp hother with rfl | hother
      · exact h.node?_ne_dir
      · rw [List.mem_singleton.mp hother]
        exact hnotDir
    · refine (h.changed.trans hchanged).narrow fun other hother hplace => ?_
      have hne' : other ≠ place := by simpa using hplace
      have hspot : other = spot ∨ other = place := by simpa using hother
      obtain rfl := hspot.resolve_right hne'
      refine .inl ?_
      rw [node?_set_of_ne _ hne', h.absent]
      exact t.node?_erase_self (ne_nil_of_node? h.absent)

/-- A move that fails changes nothing. -/
theorem eq_of_moveTemp_error {e : FileError} {target : Path}
    (hmove : (.error e, t') = t.moveTemp f target) : t' = t := by
  unfold moveTemp at hmove
  split at hmove
  · exact (Prod.mk.inj hmove).2
  · split at hmove
    · exact (Prod.mk.inj hmove).2
    · exact (Prod.mk.inj hmove).2
    · cases hmove

/-! ## What can be seen -/

/-- The content of the file at a place, if there is one. -/
def content? (t : FileTree) (place : Place) : Option (List UInt8) :=
  match t.node? place with
  | some (.file content _) => some content
  | _ => none

theorem content?_of_node? {content : List UInt8} {mtime : Int}
    (h : t.node? place = some (.file content mtime)) : t.content? place = some content := by
  rw [content?, h]

/-- A new directory is no change to a file. -/
theorem KeptAt.content?_eq (h : t.KeptAt t' place) : t'.content? place = t.content? place := by
  unfold content?
  rcases h with hsame | ⟨hnone, hdir⟩
  · rw [hsame]
  · rw [hnone, hdir]

/-- **At the target there is what was there before, or all of the new content**, unless the target
has the name of a temporary file. -/
theorem Replacing.content?_eq {above : Path} {name : Path.Segment} {content : List UInt8}
    (hname : IsName name) (hslash : '/' ∉ name) (htemp : ¬IsTempName name)
    (h : t.Replacing (above.join ⟨String.ofList name⟩) content t')
    (hresolve : t'.resolve (above.join ⟨String.ofList name⟩) = .ok place) :
    t'.content? place = t.content? place ∨ t'.content? place = some content := by
  cases h with
  | before h => exact .inl (h.kept place List.not_mem_nil).content?_eq
  | during f spot h =>
    refine .inl (h.changed.kept place fun hspot => ?_).content?_eq
    obtain ⟨tempName, htempName, hlast⟩ := h.named
    rw [← List.mem_singleton.mp hspot, getLast?_of_resolve_join hname hslash hresolve] at hlast
    exact htemp (Option.some.inj hlast ▸ htempName)
  | after h =>
    obtain ⟨replaced, mtime, hreplaced, hnode, -, -⟩ := h
    obtain rfl : replaced = place := Except.ok.inj (hreplaced.symm.trans hresolve)
    exact .inr (content?_of_node? hnode)

end FileTree

/-! ## The program -/

namespace FileM

open FileTree

variable {t₀ t : FileTree} {f : TempFile} {spot : Place} (target : Path) (content : List UInt8)

/-- Filling a temporary file and moving it: if it succeeds, the file has been replaced, and
otherwise the temporary file is still there. -/
theorem holds_fill (htemp : t₀.HasTemp t f spot) :
    (fill f target content).Holds (t₀.Replacing target content)
      (fun result t' => match result with
        | .ok () => t₀.Replaced t' target content
        | .error _ => t₀.HasTemp t' f spot) t := by
  refine holds_request_bind (.during f spot htemp) fun reply t₁ hserves => ?_
  obtain ⟨e, rfl, rfl⟩ | ⟨place, written, mtime, hresolve, hwritten, rfl⟩ := hserves
  · exact ⟨.during f spot htemp, htemp⟩
  · obtain rfl : spot = place := Except.ok.inj (htemp.resolves.symm.trans hresolve)
    have hfilled := htemp.set written mtime
    cases reply with
    | error e => exact ⟨.during f spot hfilled, hfilled⟩
    | ok u =>
      obtain rfl := hwritten rfl
      refine holds_request_bind (.during f spot hfilled) fun reply t₂ hserves => ?_
      obtain rfl : t₂ = t.set spot (.file written mtime) := hserves
      cases reply with
      | error e => exact ⟨.during f spot hfilled, hfilled⟩
      | ok u =>
        refine holds_request_bind (.during f spot hfilled) fun reply t₃ hserves => ?_
        obtain ⟨e, rfl, rfl⟩ | hmove := hserves
        · exact ⟨.during f spot hfilled, hfilled⟩
        · cases reply with
          | error e =>
            obtain rfl := eq_of_moveTemp_error hmove
            exact ⟨.during f spot hfilled, hfilled⟩
          | ok u =>
            have hnode := t.node?_set_self (ne_nil_of_node? htemp.absent) (.file written mtime)
            have hreplaced := hfilled.replaced_of_move hnode hmove
            exact ⟨.after hreplaced, hreplaced⟩

/-- **Replacing a file**: whatever fails, at the end the file has been replaced, or there are
only new directories. -/
theorem holds_replace (dir : Path) (t : FileTree) :
    (replace dir target content).Holds (t.Replacing target content)
      (t.EndsReplacing target content) t := by
  refine holds_request_bind (.before (.refl [] t)) fun reply t₁ hdirs => ?_
  replace hdirs : t.GainsDirs t₁ := hdirs
  cases reply with
  | error e => exact ⟨.before hdirs, hdirs⟩
  | ok u =>
    refine holds_request_bind (.before hdirs) fun reply t₂ hserves => ?_
    obtain ⟨e, rfl, rfl⟩ | ⟨name, spot, mtime, hname, hresolve, hnode, rfl, rfl⟩ := hserves
    · exact ⟨.before hdirs, hdirs⟩
    · have htemp := HasTemp.of_created hdirs hname hresolve hnode mtime
      refine (holds_fill target content htemp).bind fun result t₃ hseen hfilled => ?_
      cases result with
      | ok u => exact ⟨hseen, hfilled⟩
      | error e =>
        refine holds_request_bind hseen fun _ t₄ hdrop => ?_
        obtain rfl : t₄ = t₃.dropTemp ⟨dir.join ⟨String.ofList name⟩⟩ := hdrop
        have hdropped := hfilled.gainsDirs_of_drop
        exact ⟨.before hdropped, hdropped⟩

end FileM

end StackScript
