import Mathlib.Data.List.Find
import StackScript.CommandLine.Commands
import StackScript.Proofs.Files.Components

/-!
# Finding the configuration

The configuration of a script is looked for upwards from the directory of the script.  What is
meant is the directory in the tree and those around it (`FileTree.nearestDocument`).  What is done
is to cut components off a path as it is spelled, and the two agree only as far as the spelling
shows the directories.

* The components of a path that starts at the root are all the directories around, and a script
  that is spelled by its name alone is looked up from the current directory, of which the whole
  path is known.  In both cases the search goes up to the root.
* Any other relative path ends at the current directory, and so does the search: a document above
  it is not found.
* Cutting two dots off a path does not undo them.  It leads to a directory that need not be around
  the script at all.

`find_searchStart` is what holds of every path without two dots in it; `search_misses_and_strays`
shows that the rest is no theorem.
-/

namespace StackScript

/-! ## Trees -/

namespace FileTree

/-- What every real tree satisfies: everything lies in a directory, under a name that is not too
long. -/
structure WellFormed (t : FileTree) : Prop where
  /-- The current directory is one. -/
  current : t.node? t.current = some .dir
  /-- What there is lies in a directory. -/
  parent : ∀ place s, t.node? (place ++ [s]) ≠ none → t.node? place = some .dir
  /-- What there is has a name. -/
  name : ∀ place s, t.node? (place ++ [s]) ≠ none →
    IsName s ∧ '/' ∉ s ∧ requireName s = .ok ()

instance (s : Path.Segment) : Decidable (IsName s) :=
  inferInstanceAs (Decidable (s ≠ [] ∧ s ≠ ['.'] ∧ s ≠ ['.', '.']))

/-- A tree is well-formed if all its entries are. -/
theorem wellFormed_of_nodes {t : FileTree} (hcurrent : t.node? t.current = some .dir)
    (hnodes : ∀ e ∈ t.nodes, t.node? e.1.dropLast = some .dir ∧ ∀ s ∈ e.1.getLast?,
      IsName s ∧ '/' ∉ s ∧ requireName s = .ok ()) : t.WellFormed := by
  have hentry : ∀ place s, t.node? (place ++ [s]) ≠ none →
      ∃ n, (place ++ [s], n) ∈ t.nodes := by
    intro place s hnode
    rw [node?, if_neg (List.concat_ne_nil s place)] at hnode
    obtain ⟨n, hn⟩ := Option.ne_none_iff_exists'.mp hnode
    obtain ⟨before, behind, hsplit, -⟩ := List.lookup_eq_some_iff.mp hn
    exact ⟨n, hsplit ▸ List.mem_append_right _ List.mem_cons_self⟩
  refine ⟨hcurrent, fun place s hnode => ?_, fun place s hnode => ?_⟩
  · obtain ⟨n, hn⟩ := hentry place s hnode
    have hdir := (hnodes _ hn).1
    rwa [List.dropLast_concat] at hdir
  · obtain ⟨n, hn⟩ := hentry place s hnode
    exact (hnodes _ hn).2 s (by rw [List.getLast?_concat]; rfl)

variable {t : FileTree} {here place : Place}

/-- The names on the way to something are names. -/
theorem WellFormed.isName_of_mem (ht : t.WellFormed) (h : t.node? place ≠ none) :
    ∀ s ∈ place, IsName s ∧ '/' ∉ s ∧ requireName s = .ok () := by
  induction place using List.reverseRecOn with
  | nil => exact fun _ hs => absurd hs List.not_mem_nil
  | append_singleton place s ih =>
    intro r hr
    rcases List.mem_append.mp hr with hr | hr
    · exact ih (by rw [ht.parent place s h]; exact Option.some_ne_none _) r hr
    · rw [List.mem_singleton.mp hr]
      exact ht.name place s h

/-- A walk along names leads to the place that has them. -/
theorem eq_of_walk_names {names : List Path.Segment} (hnames : ∀ s ∈ names, IsName s)
    (h : t.walk here names = .ok place) : place = here ++ names := by
  induction names using List.reverseRecOn generalizing place with
  | nil => rw [List.append_nil, Except.ok.inj h]
  | append_singleton names s ih =>
    rw [walk_concat_eq_ok_iff (hnames s (List.mem_append_right _ List.mem_cons_self))] at h
    obtain ⟨dir, hdir, -, -, rfl⟩ := h
    rw [ih (fun r hr => hnames r (List.mem_append_left _ hr)) hdir, List.append_assoc]

/-- What there is can be walked to. -/
theorem WellFormed.walk_names {names : List Path.Segment} (ht : t.WellFormed)
    (hnames : ∀ s ∈ names, IsName s)
    (h : t.node? (here ++ names) ≠ none) :
    t.walk here names = .ok (here ++ names) := by
  induction names using List.reverseRecOn with
  | nil => rw [List.append_nil]; rfl
  | append_singleton names s ih =>
    rw [← List.append_assoc] at h ⊢
    have hdir := ht.parent _ s h
    rw [walk_concat_eq_ok_iff (hnames s (List.mem_append_right _ List.mem_cons_self))]
    refine ⟨here ++ names, ?_, hdir, (ht.name _ s h).2.2, rfl⟩
    exact ih (fun r hr => hnames r (List.mem_append_left _ hr))
      (by rw [hdir]; exact Option.some_ne_none _)

/-! ## Documents in a tree -/

/-- Whether there is a file at a place. -/
def isFileAt (t : FileTree) (place : Place) : Bool :=
  match t.node? place with
  | some (.file _ _) => true
  | _ => false

/-- Where the document of a directory is. -/
def documentAt (dir : Place) : Place := dir ++ [Config.fileName.text.toList]

/-- Whether a directory has a document in it. -/
def hasDocument (t : FileTree) (dir : Place) : Bool := t.isFileAt (documentAt dir)

/-- The nearest directory with a document in it, from a place upwards and no further than `top`. -/
def nearestDocument (t : FileTree) (top place : Place) : Option Place :=
  place.inits.reverse.find? fun dir => top.isPrefixOf dir && t.hasDocument dir

theorem node?_ne_none_of_isFileAt (h : t.isFileAt place = true) : t.node? place ≠ none := by
  intro hnone
  rw [isFileAt, hnone] at h
  cases h

theorem isFile_eq_true_iff {p : Path} :
    t.isFile p = true ↔ ∃ place, t.resolve p = .ok place ∧ t.isFileAt place = true := by
  unfold isFile find
  cases hresolve : t.resolve p with
  | error e => simp [bind, Except.bind]
  | ok place =>
    simp only [bind, Except.bind, Except.ok.injEq, exists_eq_left', isFileAt]
    cases t.node? place with
    | none => simp
    | some n => cases n <;> simp [pure, Except.pure]

/-- No directory above `top` is looked at. -/
theorem nearestDocument_append (t : FileTree) (top names : Place) :
    t.nearestDocument top (top ++ names) =
      (names.inits.reverse.map (top ++ ·)).find? t.hasDocument := by
  unfold nearestDocument
  induction names using List.reverseRecOn with
  | nil =>
    rw [List.append_nil]
    rcases List.eq_nil_or_concat top with rfl | ⟨front, s, rfl⟩
    · simp
    · have hself : (front ++ [s]).isPrefixOf (front ++ [s]) = true :=
        List.isPrefixOf_iff_prefix.mpr List.prefix_rfl
      have hnone : front.inits.reverse.find? (fun dir =>
          (front ++ [s]).isPrefixOf dir && t.hasDocument dir) = none := by
        rw [List.find?_eq_none]
        intro dir hdir
        have hshort : dir.length ≤ front.length :=
          ((List.mem_inits dir front).mp (List.mem_reverse.mp hdir)).length_le
        have hlong : ¬(front ++ [s]) <+: dir := by
          intro hbegins
          have hle := hbegins.length_le
          rw [List.length_append, List.length_singleton] at hle
          omega
        simp [hlong]
      rw [List.concat_eq_append, Path.reverse_inits_concat, List.find?_cons, hnone, hself,
        Bool.true_and]
      simp [List.find?_cons]
  | append_singleton names s ih =>
    have hbegins : top.isPrefixOf (top ++ names ++ [s]) = true := by
      rw [List.isPrefixOf_iff_prefix, List.append_assoc]
      exact List.prefix_append _ _
    rw [← List.append_assoc, Path.reverse_inits_concat, Path.reverse_inits_concat, List.map_cons,
      List.find?_cons, List.find?_cons, ih, hbegins, Bool.true_and, List.append_assoc]

end FileTree

/-! ## The search -/

namespace Config

theorem isName_fileName : FileTree.IsName fileName.text.toList ∧ '/' ∉ fileName.text.toList := by
  decide

/-- The first directory in whose path the document is a file. -/
theorem run_findAmong (t : FileTree) (dirs : List Path) :
    (findAmong dirs).run FileTree.answer t =
      ((dirs.find? fun dir => t.isFile (dir.join fileName)).map (·.join fileName), t) := by
  induction dirs with
  | nil => rfl
  | cons dir dirs ih =>
    rw [findAmong, FileM.run_bind, List.find?_cons]
    show FileM.run FileTree.answer (if t.isFile (dir.join fileName) then _ else _) t = _
    cases t.isFile (dir.join fileName) with
    | true => rfl
    | false => exact ih

end Config

namespace FileTree

variable {t : FileTree} {p : Path}

/-- Where the components of a path lead that has no two dots among them. -/
def plainPlace (t : FileTree) (p : Path) : Place :=
  t.start p ++ p.components.filter (Path.counts false)

theorem isName_of_mem_plain (hdots : ['.', '.'] ∉ p.components) :
    ∀ s ∈ p.components.filter (Path.counts false), IsName s := by
  intro s hs
  obtain ⟨hmem, hcounts⟩ := List.mem_filter.mp hs
  have hne : s ≠ [] ∧ s ≠ ['.'] := by simpa [Path.counts] using hcounts
  exact ⟨hne.1, hne.2, fun h => hdots (h ▸ hmem)⟩

/-- A document is found by the path of its directory exactly if it is there. -/
theorem WellFormed.resolve_document (ht : t.WellFormed) (hdots : ['.', '.'] ∉ p.components)
    (hpath : requirePath (p.join Config.fileName) = .ok ()) :
    t.isFile (p.join Config.fileName) = t.hasDocument (t.plainPlace p) ∧
      (t.hasDocument (t.plainPlace p) = true →
        t.resolve (p.join Config.fileName) = .ok (documentAt (t.plainPlace p))) := by
  obtain ⟨hname, hslash⟩ := Config.isName_fileName
  have hnames : ∀ s ∈ p.components.filter (Path.counts false) ++ [Config.fileName.text.toList],
      IsName s := by
    intro s hs
    rcases List.mem_append.mp hs with hs | hs
    · exact isName_of_mem_plain hdots s hs
    · rw [List.mem_singleton.mp hs]
      exact hname
  have hplace : t.start p ++ (p.components.filter (Path.counts false) ++
      [Config.fileName.text.toList]) = documentAt (t.plainPlace p) := by
    rw [documentAt, plainPlace, List.append_assoc]
  have hresolve : ∀ place, t.resolve (p.join Config.fileName) = .ok place ↔
      t.walk (t.start p) (p.components.filter (Path.counts false) ++
        [Config.fileName.text.toList]) = .ok place := by
    intro place
    have hiff := @resolve_join_iff t place p _ hname hslash
    rw [String.ofList_toList] at hiff
    exact hiff.trans ⟨fun h => h.2, fun h => ⟨hpath, h⟩⟩
  have hfound : t.hasDocument (t.plainPlace p) = true →
      t.resolve (p.join Config.fileName) = .ok (documentAt (t.plainPlace p)) := by
    intro hdocument
    rw [hresolve, ← hplace]
    refine ht.walk_names hnames ?_
    rw [hplace]
    exact node?_ne_none_of_isFileAt hdocument
  refine ⟨?_, hfound⟩
  rw [Bool.eq_iff_iff, isFile_eq_true_iff]
  constructor
  · rintro ⟨place, hplace', hfile⟩
    rw [eq_of_walk_names hnames ((hresolve place).mp hplace'), hplace] at hfile
    exact hfile
  · intro hdocument
    exact ⟨_, hfound hdocument, hdocument⟩

/-! ## Searching upwards -/

theorem text_join_fileName (p : Path) :
    (p.join Config.fileName).text =
      p.text ++ ((if p.needsSlash then "/" else "") ++ Config.fileName.text) := by
  have hrelative : Config.fileName.isRooted = false := by decide
  rw [Path.join, hrelative, if_neg Bool.false_ne_true]
  cases p.needsSlash with
  | true => exact String.append_assoc
  | false => exact congrArg (p.text ++ ·) String.empty_append.symm

theorem requirePath_join_fileName_iff :
    requirePath (p.join Config.fileName) = .ok () ↔
      '\x00' ∉ p.text.toList ∧ p.text.utf8ByteSize + (if p.needsSlash then 1 else 0) +
        Config.fileName.text.utf8ByteSize ≤ pathLimit := by
  have hname : '\x00' ∉ Config.fileName.text.toList := by decide
  have hsize : (p.join Config.fileName).text.utf8ByteSize = p.text.utf8ByteSize +
      (if p.needsSlash then 1 else 0) + Config.fileName.text.utf8ByteSize := by
    rw [text_join_fileName, String.utf8ByteSize_append, String.utf8ByteSize_append, Nat.add_assoc]
    cases p.needsSlash <;> rfl
  have hmem : '\x00' ∈ (p.join Config.fileName).text.toList ↔ '\x00' ∈ p.text.toList := by
    rw [text_join_fileName, String.toList_append, String.toList_append]
    cases p.needsSlash <;> simp [hname]
  have hne : (p.join Config.fileName).text ≠ "" := by
    intro hempty
    have hzero := congrArg String.utf8ByteSize hempty
    rw [hsize] at hzero
    exact absurd (Nat.eq_zero_of_add_eq_zero_left hzero) (by decide)
  rw [requirePath, ← hsize, ← hmem, if_neg hne]
  by_cases hnul : '\x00' ∈ (p.join Config.fileName).text.toList
  · simp [hnul]
  · by_cases hlong : pathLimit < (p.join Config.fileName).text.utf8ByteSize
    · simp [hnul, hlong]
    · simp [hnul, hlong, Nat.le_of_not_lt hlong]

/-- A path that can be asked about has beginnings that can be asked about. -/
theorem requirePath_join_of_begins {p q : Path} (hbegins : q.text.toList <+: p.text.toList)
    (h : requirePath (p.join Config.fileName) = .ok ()) :
    requirePath (q.join Config.fileName) = .ok () := by
  obtain ⟨rest, hrest⟩ := hbegins
  have htext : p.text = q.text ++ String.ofList rest := by
    rw [← String.toList_inj, String.toList_append, String.toList_ofList, hrest]
  by_cases hnil : rest = []
  · have hp : p.text = q.text := by rw [htext, hnil, String.ofList_nil, String.append_empty]
    obtain ⟨text⟩ := q
    obtain rfl : p = ⟨text⟩ := congrArg Path.mk hp
    exact h
  · -- What was cut off had at least the byte that a slash takes.
    have hpos : 1 ≤ (String.ofList rest).utf8ByteSize := by
      rw [Nat.one_le_iff_ne_zero, Ne, String.utf8ByteSize_eq_zero_iff]
      intro hempty
      exact hnil (by rw [← String.toList_ofList (l := rest), hempty]; rfl)
    rw [requirePath_join_fileName_iff] at h ⊢
    obtain ⟨hnul, hsize⟩ := h
    refine ⟨fun hmem => hnul (hrest ▸ List.mem_append_left _ hmem), ?_⟩
    rw [htext, String.utf8ByteSize_append] at hsize
    have hslash : (if q.needsSlash then 1 else 0) ≤ 1 := by split <;> decide
    omega

/-- A search from a path without two dots in it finds the nearest document. -/
theorem WellFormed.find_plain (ht : t.WellFormed) (hdots : ['.', '.'] ∉ p.components)
    (hpath : requirePath (p.join Config.fileName) = .ok ()) :
    ∃ found, (Config.find p).run answer t = (found, t) ∧
      found.map t.resolve = (t.nearestDocument (t.start p) (t.plainPlace p)).map
        fun dir => .ok (documentAt dir) := by
  obtain ⟨hcomponents, hclimb⟩ := Path.map_components_climb p.length_components_le
  -- All paths that are tried are beginnings, so what is known of one document is known of all.
  have habove : ∀ q ∈ p.ancestors,
      t.plainPlace q = t.start p ++ q.components.filter (Path.counts false) ∧
      t.isFile (q.join Config.fileName) = t.hasDocument (t.plainPlace q) ∧
      (t.hasDocument (t.plainPlace q) = true →
        t.resolve (q.join Config.fileName) = .ok (documentAt (t.plainPlace q))) := by
    intro q hq
    obtain ⟨hrooted, hbegins⟩ := hclimb q hq
    have hmem : q.components ∈ p.components.inits.reverse :=
      hcomponents ▸ List.mem_map_of_mem hq
    have hbegin := (List.mem_inits _ _).mp (List.mem_reverse.mp hmem)
    refine ⟨by rw [plainPlace, start, start, hrooted], ?_⟩
    exact ht.resolve_document (fun h => hdots (hbegin.subset h))
      (requirePath_join_of_begins hbegins hpath)
  have hplace : (p.ancestors.find? fun q => t.isFile (q.join Config.fileName)).map t.plainPlace =
      t.nearestDocument (t.start p) (t.plainPlace p) := by
    have hmap : p.ancestors.map t.plainPlace =
        (p.components.inits.reverse.map (List.filter (Path.counts false))).map
          (t.start p ++ ·) := by
      rw [← hcomponents, List.map_map, List.map_map]
      exact List.map_congr_left fun q hq => (habove q hq).1
    rw [List.find?_congr fun q hq => (habove q hq).2.1, plainPlace, nearestDocument_append]
    calc (p.ancestors.find? fun q => t.hasDocument (t.plainPlace q)).map t.plainPlace
        = (p.ancestors.map t.plainPlace).find? t.hasDocument := by rw [List.find?_map]; rfl
      _ = _ := by rw [hmap, List.find?_map, Path.find?_filter_inits, ← List.find?_map]
  refine ⟨_, Config.run_findAmong t p.ancestors, ?_⟩
  rw [← hplace, Option.map_map, Option.map_map]
  refine Option.map_congr fun q hq => ?_
  obtain ⟨-, hfile, hresolve⟩ := habove q (List.mem_of_find?_eq_some hq)
  have hfound := List.find?_some hq
  exact hresolve (hfile ▸ hfound)

/-! ## Targets -/

/-- A path that spells the current directory from the root on. -/
def IsCurrent (t : FileTree) (p : Path) : Prop := p.isRooted = true ∧ p.components = t.current

/-- Where the directory of a path is that has no two dots in it. -/
def directoryOf (t : FileTree) (p : Path) : Place :=
  t.start p ++ p.components.dropLast.filter (Path.counts false)

/-- How far up a search goes from a path.  Beyond the current directory it goes only from a path
that starts at the root and from one that is a name and nothing else. -/
def searchTop (t : FileTree) (p : Path) : Place :=
  if p.isRooted = true ∨ p.components.length = 1 then [] else t.current

/-- A path that is walked along leads into its directory. -/
theorem eq_of_resolve_plain {name : Path.Segment} (hname : p.fileName? = some name)
    (hdots : ['.', '.'] ∉ p.components) {place : Place} (h : t.resolve p = .ok place) :
    place = t.directoryOf p ++ [name] := by
  obtain ⟨hlast, hdot, hdotdot⟩ := Path.fileName?_eq_some_iff.mp hname
  obtain ⟨front, hfront⟩ := List.getLast?_eq_some_iff.mp hlast
  have hnames : ∀ s ∈ front.filter (Path.counts false) ++ [name], IsName s := by
    intro s hs
    rcases List.mem_append.mp hs with hs | hs
    · refine isName_of_mem_plain hdots s ?_
      rw [hfront, List.filter_append]
      exact List.mem_append_left _ hs
    · rw [List.mem_singleton.mp hs]
      exact ⟨Path.fileName?_ne_nil hname, hdot, hdotdot⟩
  rw [directoryOf, hfront, List.dropLast_concat, List.append_assoc]
  exact eq_of_walk_names hnames (walk_of_resolve hfront h)

/-- The place of the current directory is what its path says. -/
theorem WellFormed.plainPlace_current (ht : t.WellFormed) (hcurrent : t.IsCurrent p) :
    ['.', '.'] ∉ p.components ∧ t.start p = [] ∧ t.plainPlace p = t.current := by
  obtain ⟨hrooted, hcomponents⟩ := hcurrent
  have hnames : ∀ s ∈ t.current, IsName s ∧ '/' ∉ s ∧ requireName s = .ok () :=
    ht.isName_of_mem (by rw [ht.current]; exact Option.some_ne_none _)
  have hstart : t.start p = [] := by rw [start, if_pos hrooted]
  refine ⟨fun h => (hnames _ (hcomponents ▸ h)).1.2.2 rfl, hstart, ?_⟩
  rw [plainPlace, hstart, hcomponents, List.nil_append, List.filter_eq_self]
  intro s hs
  obtain ⟨⟨hne, hdot, -⟩, -⟩ := hnames s hs
  simp [Path.counts, hne, hdot]

end FileTree

/-! ## What is found -/

open FileTree

/-- The search starts in the directory of the target, which is known up to the top that the search
then reaches. -/
theorem Command.searchStart_place {t : FileTree} (ht : t.WellFormed) {current target : Path}
    (hcurrent : t.IsCurrent current) {name : Path.Segment} (hname : target.fileName? = some name)
    (hdots : ['.', '.'] ∉ target.components) :
    ['.', '.'] ∉ (searchStart current target).components ∧
      t.start (searchStart current target) = t.searchTop target ∧
      t.plainPlace (searchStart current target) = t.directoryOf target := by
  obtain ⟨dir, hparent, hrooted, hcomponents⟩ := Path.exists_parent_of_fileName? hname
  have hlength : target.components.length = 1 ↔ dir.components = [] := by
    rw [hcomponents, List.length_append, List.length_singleton, Nat.add_eq_right,
      List.length_eq_zero_iff]
  have hdirectory : t.directoryOf target = t.plainPlace dir := by
    rw [directoryOf, plainPlace, hcomponents, List.dropLast_concat, start, start, hrooted]
  rw [searchStart, hparent]
  dsimp only
  by_cases htext : dir.text = ""
  · -- There is nothing but the name, and the search starts in the current directory.
    obtain ⟨hrelative, hnone⟩ := Path.text_eq_empty_iff.mp htext
    obtain ⟨hplain, hstart, hplace⟩ := ht.plainPlace_current hcurrent
    rw [if_pos htext, searchTop, if_pos (.inr (hlength.mpr hnone)), hdirectory]
    refine ⟨hplain, hstart, ?_⟩
    rw [hplace, plainPlace, hnone, start, hrelative, if_neg Bool.false_ne_true, List.filter_nil,
      List.append_nil]
  · rw [if_neg htext]
    refine ⟨fun h => hdots (hcomponents ▸ List.mem_append_left _ h), ?_, hdirectory.symm⟩
    rw [start, hrooted, searchTop]
    by_cases hroot : target.isRooted = true
    · rw [if_pos hroot, if_pos (.inl hroot)]
    · have hmore : ¬target.components.length = 1 := by
        intro hone
        have hrelative : dir.isRooted = false := by
          rw [hrooted]
          exact Bool.eq_false_of_not_eq_true hroot
        exact htext (Path.text_eq_empty_iff.mpr ⟨hrelative, hlength.mp hone⟩)
      rw [if_neg hroot, if_neg (not_or.mpr ⟨hroot, hmore⟩)]

namespace FileTree

/-- A script in `/work/sub`, and a document in the root. -/
def documentAbove : FileTree where
  nodes := [(["work".toList], .dir), (["work".toList, "sub".toList], .dir),
    (["work".toList, "sub".toList, "s.py".toList], .file [] 0),
    (["pyrite.toml".toList], .file [] 0)]
  current := ["work".toList]

/-- A script in `/work/b`, and a document in `/work/a`. -/
def documentBeside : FileTree where
  nodes := [(["work".toList], .dir), (["work".toList, "a".toList], .dir),
    (["work".toList, "b".toList], .dir), (["work".toList, "b".toList, "s.py".toList], .file [] 0),
    (["work".toList, "a".toList, "pyrite.toml".toList], .file [] 0)]
  current := ["work".toList]

theorem wellFormed_documentAbove : documentAbove.WellFormed :=
  wellFormed_of_nodes (by decide) (by decide)

theorem wellFormed_documentBeside : documentBeside.WellFormed :=
  wellFormed_of_nodes (by decide) (by decide)

end FileTree

/-- **The nearest document is found**, from the directory of a target up to the top that its
spelling reaches, whatever dots and slashes are in the spelling. -/
theorem find_searchStart {t : FileTree} (ht : t.WellFormed) {current target : Path}
    (hcurrent : t.IsCurrent current) {name : Path.Segment} (hname : target.fileName? = some name)
    (hdots : ['.', '.'] ∉ target.components)
    (hpath : requirePath ((Command.searchStart current target).join Config.fileName) = .ok ()) :
    (∀ place, t.resolve target = .ok place → place = t.directoryOf target ++ [name]) ∧
      ∃ found, (Config.find (Command.searchStart current target)).run answer t = (found, t) ∧
        found.map t.resolve =
          (t.nearestDocument (t.searchTop target) (t.directoryOf target)).map
            fun dir => .ok (documentAt dir) := by
  obtain ⟨hplain, hstart, hplace⟩ := Command.searchStart_place ht hcurrent hname hdots
  refine ⟨fun place hresolve => eq_of_resolve_plain hname hdots hresolve, ?_⟩
  rw [← hstart, ← hplace]
  exact ht.find_plain hplain hpath

/-- Dots and slashes that do not count make no difference, and the root is reached. -/
theorem find_searchStart_spelled :
    documentAbove.WellFormed ∧ documentAbove.IsCurrent ⟨"/work"⟩ ∧
      (∀ place, documentAbove.resolve ⟨"/work/./sub//s.py"⟩ = .ok place →
        place = ["work".toList, "sub".toList, "s.py".toList]) ∧
      ∃ found, (Config.find (Command.searchStart ⟨"/work"⟩ ⟨"/work/./sub//s.py"⟩)).run answer
          documentAbove = (found, documentAbove) ∧
        found.map documentAbove.resolve = some (.ok ["pyrite.toml".toList]) := by
  have hcurrent : documentAbove.IsCurrent ⟨"/work"⟩ := ⟨by decide, by decide⟩
  have hnearest : documentAbove.nearestDocument (documentAbove.searchTop ⟨"/work/./sub//s.py"⟩)
      (documentAbove.directoryOf ⟨"/work/./sub//s.py"⟩) = some [] := by
    decide
  obtain ⟨hresolve, found, hrun, hfound⟩ :=
    @find_searchStart documentAbove wellFormed_documentAbove ⟨"/work"⟩ ⟨"/work/./sub//s.py"⟩
      hcurrent "s.py".toList (by decide) (by decide) (by decide)
  rw [hnearest] at hfound
  exact ⟨wellFormed_documentAbove, hcurrent, hresolve, found, hrun, hfound⟩

/-- A document above the current directory is missed, and two dots lead to a document that is not
around the script. -/
theorem search_misses_and_strays :
    (documentAbove.WellFormed ∧
      documentAbove.resolve ⟨"sub/s.py"⟩ = .ok ["work".toList, "sub".toList, "s.py".toList] ∧
      documentAbove.nearestDocument [] ["work".toList, "sub".toList] = some [] ∧
      (Config.find (Command.searchStart ⟨"/work"⟩ ⟨"sub/s.py"⟩)).run answer documentAbove =
        (none, documentAbove)) ∧
    documentBeside.WellFormed ∧
      documentBeside.resolve ⟨"a/../b/s.py"⟩ = .ok ["work".toList, "b".toList, "s.py".toList] ∧
      documentBeside.nearestDocument [] ["work".toList, "b".toList] = none ∧
      (Config.find (Command.searchStart ⟨"/work"⟩ ⟨"a/../b/s.py"⟩)).run answer documentBeside =
        (some ⟨"a/pyrite.toml"⟩, documentBeside) := by
  refine ⟨⟨wellFormed_documentAbove, by decide, by decide, ?_⟩,
    wellFormed_documentBeside, by decide, by decide, ?_⟩
  · rw [Config.find, Config.run_findAmong]
    decide
  · rw [Config.find, Config.run_findAmong]
    decide

end StackScript
