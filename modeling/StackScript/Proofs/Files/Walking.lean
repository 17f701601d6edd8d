import StackScript.Files.Tree

/-!
# Where a path leads

A walk along a path looks at nothing but directories: it needs one for every segment, and what
lies in it is of no interest.  So a path that leads somewhere leads there also in a tree that
has more directories (`FileTree.KeepsDirs.resolve`), whatever became of the files.

A path that ends with a name leads to a place of that name (`getLast?_of_resolve_join`), and a
file that is moved to a path ends up where the path leads (`resolve_of_moveTarget`).
-/

namespace StackScript

namespace Path

/-! ## Segments -/

theorem split_ne_nil (cs : List Char) : split cs ≠ [] := by
  cases cs with
  | nil => simp [split]
  | cons c cs =>
    unfold split
    split
    · simp
    · split <;> simp

/-- A slash divides the segments before it from those behind it. -/
theorem split_append_slash (cs ds : List Char) :
    split (cs ++ '/' :: ds) = split cs ++ split ds := by
  induction cs with
  | nil => rfl
  | cons c cs ih =>
    by_cases hc : c = '/'
    · simp [split, hc, ih]
    · obtain ⟨s, ss, hsplit⟩ := List.exists_cons_of_ne_nil (split_ne_nil cs)
      simp [split, hc, ih, hsplit]

theorem split_of_no_slash {cs : List Char} (h : '/' ∉ cs) : split cs = [cs] := by
  induction cs with
  | nil => rfl
  | cons c cs ih =>
    rw [List.mem_cons, not_or] at h
    simp [split, Ne.symm h.1, ih h.2]

/-- No segment holds a slash. -/
theorem no_slash_of_mem_split {cs : List Char} {s : Segment} (h : s ∈ split cs) : '/' ∉ s := by
  induction cs generalizing s with
  | nil =>
    obtain rfl : s = [] := List.mem_singleton.mp h
    exact List.not_mem_nil
  | cons c cs ih =>
    by_cases hc : c = '/'
    · rw [split, if_pos hc] at h
      rcases List.mem_cons.mp h with rfl | hs
      · exact List.not_mem_nil
      · exact ih hs
    · obtain ⟨r, rs, hsplit⟩ := List.exists_cons_of_ne_nil (split_ne_nil cs)
      rw [split, if_neg hc, hsplit] at h
      rcases List.mem_cons.mp h with rfl | hs
      · have hr : '/' ∉ r := ih (hsplit ▸ List.mem_cons_self)
        rw [List.mem_cons, not_or]
        exact ⟨Ne.symm hc, hr⟩
      · exact ih (hsplit ▸ List.mem_cons_of_mem r hs)

theorem no_slash_of_mem_segments {p : Path} {s : Segment} (h : s ∈ p.segments) : '/' ∉ s := by
  unfold segments at h
  split at h <;> exact no_slash_of_mem_split h

/-- What stands behind the last slash is the last segment. -/
theorem segments_of_slash {p : Path} (front : List Char) {name : Segment}
    (htext : p.text.toList = front ++ '/' :: name) (hslash : '/' ∉ name) :
    ∃ before, p.segments = before ++ [name] := by
  unfold segments
  rw [htext]
  split
  · next cs hcs =>
    cases front with
    | nil =>
      obtain rfl : name = cs := List.tail_eq_of_cons_eq hcs
      exact ⟨[], split_of_no_slash hslash⟩
    | cons c front =>
      obtain rfl : front ++ '/' :: name = cs := List.tail_eq_of_cons_eq hcs
      exact ⟨split front, by rw [split_append_slash, split_of_no_slash hslash]⟩
  · exact ⟨split front, by rw [split_append_slash, split_of_no_slash hslash]⟩

/-- Joining a name to a path makes it the last segment. -/
theorem segments_join (p : Path) {name : Segment} (hne : name ≠ []) (hslash : '/' ∉ name) :
    ∃ before, (p.join ⟨String.ofList name⟩).segments = before ++ [name] := by
  obtain ⟨c, cs, hname⟩ := List.exists_cons_of_ne_nil hne
  have hc : c ≠ '/' := by
    rintro rfl
    exact hslash (hname ▸ List.mem_cons_self)
  have hrooted : isRooted ⟨String.ofList name⟩ = false := by
    simp [isRooted, hname, hc]
  unfold join
  rw [if_neg (by rw [hrooted]; decide)]
  split
  · exact segments_of_slash p.text.toList (by simp) hslash
  · next hneeds =>
    rcases List.eq_nil_or_concat p.text.toList with hnil | ⟨front, d, hfront⟩
    · refine ⟨[], ?_⟩
      have htext : (⟨p.text ++ String.ofList name⟩ : Path).text.toList = name := by simp [hnil]
      unfold segments
      rw [htext]
      split
      · exact absurd (List.cons_eq_cons.mp hname).1.symm hc
      · exact split_of_no_slash hslash
    · have hd : d = '/' := by simpa [needsSlash, hfront] using hneeds
      exact segments_of_slash front (by simp [hfront, hd]) hslash

end Path

namespace FileTree

/-! ## Walks -/

variable {t t' : FileTree} {here place : Place}

theorem requireDir_eq_ok_iff : t.requireDir place = .ok () ↔ t.node? place = some .dir := by
  unfold requireDir
  split <;> simp_all

theorem enter_of_isDir (h : t.node? here = some .dir) (s : Path.Segment) :
    t.enter here s =
      if s = [] ∨ s = ['.'] then .ok here
      else if s = ['.', '.'] then .ok here.dropLast
      else (requireName s).map fun _ => here ++ [s] := by
  rw [enter, requireDir_eq_ok_iff.mpr h]
  cases requireName s <;> rfl

/-- A walk goes on from a directory only. -/
theorem isDir_of_enter {s : Path.Segment} (h : t.enter here s = .ok place) :
    t.node? here = some .dir := by
  rw [← requireDir_eq_ok_iff]
  cases hrequire : t.requireDir here with
  | ok u => rfl
  | error e =>
    rw [enter, hrequire] at h
    cases h

/-- A walk can be cut in two anywhere. -/
theorem walk_append_eq_ok_iff {ss ts : List Path.Segment} :
    t.walk here (ss ++ ts) = .ok place ↔
      ∃ between, t.walk here ss = .ok between ∧ t.walk between ts = .ok place := by
  induction ss generalizing here with
  | nil => simp [walk]
  | cons s ss ih =>
    rw [List.cons_append, walk, walk]
    cases t.enter here s with
    | error e => simp [bind, Except.bind]
    | ok next => exact ih

theorem walk_singleton (s : Path.Segment) : t.walk here [s] = t.enter here s := by
  rw [walk]
  cases t.enter here s <;> rfl

/-- Whether a segment is a name, and so leads to a place in a directory. -/
def IsName (s : Path.Segment) : Prop := s ≠ [] ∧ s ≠ ['.'] ∧ s ≠ ['.', '.']

/-- A walk that ends with a name is a walk to a directory and a step into it. -/
theorem walk_concat_eq_ok_iff {ss : List Path.Segment} {name : Path.Segment} (hname : IsName name) :
    t.walk here (ss ++ [name]) = .ok place ↔
      ∃ dir, t.walk here ss = .ok dir ∧ t.node? dir = some .dir ∧ requireName name = .ok () ∧
        place = dir ++ [name] := by
  obtain ⟨hne, hdot, hdots⟩ := hname
  have henter : ∀ dir, t.node? dir = some .dir →
      t.enter dir name = (requireName name).map fun _ => dir ++ [name] := by
    intro dir hdir
    rw [enter_of_isDir hdir, if_neg (not_or.mpr ⟨hne, hdot⟩), if_neg hdots]
  rw [walk_append_eq_ok_iff]
  constructor
  · rintro ⟨dir, hwalk, hstep⟩
    rw [walk_singleton] at hstep
    have hdir := isDir_of_enter hstep
    rw [henter dir hdir] at hstep
    cases hrequire : requireName name with
    | error e =>
      rw [hrequire] at hstep
      cases hstep
    | ok u =>
      rw [hrequire] at hstep
      cases hstep
      exact ⟨dir, hwalk, hdir, rfl, rfl⟩
  · rintro ⟨dir, hwalk, hdir, hrequire, rfl⟩
    refine ⟨dir, hwalk, ?_⟩
    rw [walk_singleton, henter dir hdir, hrequire]
    rfl

theorem resolve_eq_ok_iff {p : Path} :
    t.resolve p = .ok place ↔
      requirePath p = .ok () ∧ t.walk (t.start p) p.segments = .ok place := by
  rw [resolve]
  cases requirePath p with
  | error e => simp [bind, Except.bind]
  | ok u => simp [bind, Except.bind]

/-- A path to which a name was joined leads to a place of that name. -/
theorem getLast?_of_resolve_join {p : Path} {name : Path.Segment} (hname : IsName name)
    (hslash : '/' ∉ name) (h : t.resolve (p.join ⟨String.ofList name⟩) = .ok place) :
    place.getLast? = some name := by
  obtain ⟨before, hsegments⟩ := p.segments_join hname.1 hslash
  obtain ⟨-, hwalk⟩ := resolve_eq_ok_iff.mp h
  rw [hsegments, walk_concat_eq_ok_iff hname] at hwalk
  obtain ⟨dir, -, -, -, rfl⟩ := hwalk
  exact List.getLast?_concat

/-- Everything that making something at a path needs. -/
theorem target_eq_named {p : Path} {slash : Bool} (h : t.target p = .ok (.named place slash)) :
    requirePath p = .ok () ∧ ∃ last before dir,
      p.segments.reverse.dropWhile (· = []) = last :: before ∧
      t.walk (t.start p) before.reverse = .ok dir ∧ t.node? dir = some .dir ∧
      last ≠ ['.'] ∧ last ≠ ['.', '.'] ∧ requireName last = .ok () ∧
      place = dir ++ [last] ∧ slash = (p.segments.getLast? == some []) := by
  simp only [target, bind, Except.bind] at h
  split at h
  · cases h
  · next hrequire =>
    split at h
    · cases h
    · next last before hlast =>
      split at h
      · cases h
      · next dir hwalk =>
        split at h
        · cases h
        · next hdir =>
          split at h
          · cases h
          · next hdots =>
            split at h
            · cases h
            · next hname =>
              cases h
              rw [not_or] at hdots
              exact ⟨hrequire, last, before, dir, hlast, hwalk, requireDir_eq_ok_iff.mp hdir,
                hdots.1, hdots.2, hname, rfl, rfl⟩

/-- Something that is made at a path without a slash behind it is made where the path leads. -/
theorem resolve_of_target {p : Path} (h : t.target p = .ok (.named place false)) :
    t.resolve p = .ok place ∧ place ≠ [] := by
  obtain ⟨hrequire, last, before, dir, hlast, hwalk, hdir, hdot, hdots, hname, rfl, hslash⟩ :=
    target_eq_named h
  -- No slash follows, so the name that was looked for is the last segment.
  have hreverse : p.segments.reverse = last :: before ∧ last ≠ [] := by
    cases hsegments : p.segments.reverse with
    | nil =>
      rw [hsegments] at hlast
      cases hlast
    | cons s ss =>
      have hs : s ≠ [] := by
        rintro rfl
        have hend : p.segments.getLast? = some [] := by
          rw [← List.head?_reverse, hsegments, List.head?_cons]
        rw [hend] at hslash
        cases hslash
      rw [hsegments, List.dropWhile_cons, if_neg (by simpa using hs)] at hlast
      obtain ⟨rfl, rfl⟩ := List.cons_eq_cons.mp hlast
      exact ⟨rfl, hs⟩
  obtain ⟨hreverse, hne⟩ := hreverse
  have hsegments : p.segments = before.reverse ++ [last] := by
    rw [← List.reverse_cons, ← hreverse, List.reverse_reverse]
  refine ⟨resolve_eq_ok_iff.mpr ⟨hrequire, ?_⟩, List.concat_ne_nil last dir⟩
  rw [hsegments, walk_concat_eq_ok_iff ⟨hne, hdot, hdots⟩]
  exact ⟨dir, hwalk, hdir, hname, rfl⟩

/-- A file is moved to where the path leads, and only if there is no directory. -/
theorem resolve_of_moveTarget {p : Path} (h : t.moveTarget p = .ok place) :
    t.resolve p = .ok place ∧ place ≠ [] ∧ t.node? place ≠ some .dir := by
  unfold moveTarget at h
  split at h
  · cases h
  · cases htarget : t.target p with
    | error e =>
      rw [htarget] at h
      cases h
    | ok target =>
      rw [htarget] at h
      dsimp only [bind, Except.bind] at h
      split at h
      · cases h
      · cases h
      · split at h
        · cases h
        · next hdir =>
          cases h
          obtain ⟨hresolve, hne⟩ := resolve_of_target htarget
          exact ⟨hresolve, hne, fun hnode => hdir (by simp [isDirAt, hnode])⟩

/-! ## Trees with more directories -/

/-- One tree has all the directories of another. -/
structure KeepsDirs (t t' : FileTree) : Prop where
  /-- The current directory is the same. -/
  current : t'.current = t.current
  /-- What was a directory is one. -/
  dirs : ∀ place, t.node? place = some .dir → t'.node? place = some .dir

theorem KeepsDirs.enter (h : t.KeepsDirs t') {s : Path.Segment}
    (henter : t.enter here s = .ok place) : t'.enter here s = .ok place := by
  have hdir := isDir_of_enter henter
  rwa [enter_of_isDir (h.dirs here hdir), ← enter_of_isDir hdir]

theorem KeepsDirs.walk (h : t.KeepsDirs t') {ss : List Path.Segment}
    (hwalk : t.walk here ss = .ok place) : t'.walk here ss = .ok place := by
  induction ss generalizing here with
  | nil => exact hwalk
  | cons s ss ih =>
    rw [← List.singleton_append, walk_append_eq_ok_iff] at hwalk ⊢
    obtain ⟨between, hstep, hrest⟩ := hwalk
    rw [walk_singleton] at hstep
    exact ⟨between, by rw [walk_singleton, h.enter hstep], ih hrest⟩

/-- **A path leads where it led**, if there are only more directories. -/
theorem KeepsDirs.resolve (h : t.KeepsDirs t') {p : Path} (hresolve : t.resolve p = .ok place) :
    t'.resolve p = .ok place := by
  obtain ⟨hrequire, hwalk⟩ := resolve_eq_ok_iff.mp hresolve
  have hstart : t'.start p = t.start p := by rw [start, start, h.current]
  refine resolve_eq_ok_iff.mpr ⟨hrequire, ?_⟩
  rw [hstart]
  exact h.walk hwalk

end FileTree

end StackScript
