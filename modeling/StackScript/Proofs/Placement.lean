import StackScript.Proofs.Files.Components
import StackScript.Proofs.Session.Persisting

/-!
# Where containers lie

The container of a script goes into the cache directory beside the script, under a name that is
made from that of the script.  Both the directory and the name come from texts that have passed a
check, and this module says what the check is worth.

The name is one component, whatever the texts are: it is never that of the script itself
(`ContainerOptions.containerName_ne_fileName`), since behind the stem there are two dots in it
and in the name of the script there is one or none; so a container is never written over its
script.  And the name shows the stem, so that scripts with different stems have different
containers.

The cache directory is one component as well, but it need not be a name: the check lets two texts
pass that mean something else in a path.  A dot stays in the directory of the script, and two dots
leave it.  For all others a container lies in a directory of its own beside the script
(`containerPath_confined_iff`).
-/

namespace StackScript

/-! ## Stems -/

namespace Path

theorem eq_of_beforeLastDot? {s front : Segment} (h : beforeLastDot? s = some front) :
    ∃ extension, s = front ++ '.' :: extension ∧ '.' ∉ extension := by
  unfold beforeLastDot? at h
  split at h
  · cases h
  · next c rest hdrop =>
    cases h
    have hc : c = '.' := by
      have hhead := List.head?_dropWhile_not (· != '.') s.reverse
      rw [hdrop] at hhead
      simpa using hhead
    have hsplit := List.takeWhile_append_dropWhile (p := (· != '.')) (l := s.reverse)
    rw [hdrop, hc] at hsplit
    refine ⟨(s.reverse.takeWhile (· != '.')).reverse, ?_, fun hdot => ?_⟩
    · have hreverse := congrArg List.reverse hsplit
      rw [List.reverse_append, List.reverse_cons, List.reverse_reverse, List.append_assoc,
        List.singleton_append] at hreverse
      exact hreverse.symm
    · have htake := List.mem_takeWhile_imp (List.mem_reverse.mp hdot)
      simp at htake

/-- A name is its stem, or its stem with one dot behind it and an extension without any. -/
theorem stemOf_cases (s : Segment) :
    stemOf s = s ∨ ∃ extension, s = stemOf s ++ '.' :: extension ∧ '.' ∉ extension := by
  unfold stemOf
  split
  · exact .inl rfl
  · exact .inl rfl
  · next front _ hfront => exact .inr (eq_of_beforeLastDot? hfront)

theorem stemOf_ne_nil {s : Segment} (h : s ≠ []) : stemOf s ≠ [] := by
  unfold stemOf
  split
  · exact h
  · exact h
  · next front hne _ => exact hne

theorem stemOf_prefix (s : Segment) : stemOf s <+: s := by
  rcases stemOf_cases s with hself | ⟨extension, hs, -⟩
  · rw [hself]
  · exact ⟨'.' :: extension, hs.symm⟩

end Path

namespace ContainerOptions

variable {o : ContainerOptions} {source : Path} {name : Path.Segment}

/-- The stem of a script with a file name: that of the name, unless it stands for no file. -/
theorem stem_of_fileName? (h : source.fileName? = some name) :
    stem source = Path.stemOf name ∨
      stem source = fallbackStem ∧ (Path.stemOf name).head? = some '<' := by
  have hne := Path.stemOf_ne_nil (Path.fileName?_ne_nil h)
  rw [stem, Path.stem?, h, Option.map_some]
  dsimp only
  split
  · next hfallback => exact .inr ⟨rfl, hfallback.resolve_left hne⟩
  · exact .inl rfl

/-- **A container never has the name of its script.** -/
theorem containerName_ne_fileName (o : ContainerOptions) (h : source.fileName? = some name) :
    (o.containerName source).toList ≠ name := by
  rw [toList_containerName]
  intro heq
  rcases stem_of_fileName? h with hstem | ⟨hstem, hhead⟩
  · rw [hstem, List.append_assoc, List.cons_append] at heq
    rcases Path.stemOf_cases name with hself | ⟨extension, hname, hdot⟩
    · -- The script has no extension, and the container is longer.
      rw [hself] at heq
      have hnil := List.append_right_eq_self.mp heq
      cases hnil
    · -- What follows the stem has a dot in it in the one name and none in the other.
      have hbehind := List.append_cancel_left (heq.trans hname)
      rw [← List.tail_eq_of_cons_eq hbehind] at hdot
      exact hdot (List.mem_append_right _ List.mem_cons_self)
  · -- The one name starts with a letter and the other with an angle bracket.
    obtain ⟨rest, hname⟩ := Path.stemOf_prefix name
    obtain ⟨cs, hcs⟩ := List.head?_eq_some_iff.mp hhead
    rw [hstem, ← hname, hcs] at heq
    cases heq

/-- The name of a container shows the stem of its script. -/
theorem stem_eq_of_containerName_eq {other : Path}
    (h : o.containerName other = o.containerName source) : stem other = stem source := by
  have hlists := congrArg String.toList h
  rw [toList_containerName, toList_containerName, List.append_assoc, List.append_assoc] at hlists
  exact List.append_cancel_right hlists

/-! ## Components -/

/-- A text that passes the check is not empty. -/
theorem ne_nil_of_checkField {field value : String} (h : checkField field value = .ok ()) :
    value.toList ≠ [] := by
  unfold checkField at h
  split at h
  · cases h
  · next hne => exact fun hnil => hne (String.toList_eq_nil_iff.mp hnil)

/-- The cache directory of checked options is one segment. -/
theorem cacheDir_of_check (h : o.check = .ok ()) :
    o.cacheDir.toList ≠ [] ∧ '/' ∉ o.cacheDir.toList := by
  simp only [check, bind, Except.bind] at h
  split at h
  · cases h
  · next hcheck => exact ⟨ne_nil_of_checkField hcheck, no_slash_of_checkField hcheck⟩

/-- What stands behind the directory of the script in the path of its container. -/
theorem components_containerPath (h : o.check = .ok ()) (source : Path) :
    let dir := source.parent?.getD ⟨""⟩
    (o.containerPath source).isRooted = dir.isRooted ∧
      (o.containerPath source).components =
        dir.components ++ (if o.cacheDir.toList = ['.'] ∧ dir.text ≠ "" then []
          else [o.cacheDir.toList]) ++ [(o.containerName source).toList] := by
  intro dir
  obtain ⟨hdir, hdirslash⟩ := cacheDir_of_check h
  obtain ⟨⟨hne, hdot, -⟩, hslash⟩ := isName_containerName h source
  obtain ⟨hrooted, hcomponents⟩ := dir.components_join hdir hdirslash
  obtain ⟨hrooted', hcomponents'⟩ :=
    (dir.join ⟨String.ofList o.cacheDir.toList⟩).components_join hne hslash
  rw [if_neg fun hdots => hdot hdots.1, hcomponents] at hcomponents'
  rw [String.ofList_toList] at hrooted hrooted' hcomponents'
  rw [String.ofList_toList] at hrooted' hcomponents'
  exact ⟨hrooted'.trans hrooted, hcomponents'⟩

theorem fileName?_containerPath (h : o.check = .ok ()) (source : Path) :
    (o.containerPath source).fileName? = some (o.containerName source).toList := by
  obtain ⟨hname, hslash⟩ := isName_containerName h source
  have hjoin := ((source.parent?.getD ⟨""⟩).join ⟨o.cacheDir⟩).fileName?_join hname hslash
  rw [String.ofList_toList] at hjoin
  exact hjoin

/-! ## The directory of a container -/

/-- The container of a script lies in a directory beside it: in its path two names stand behind
the directory of the script. -/
def Confined (o : ContainerOptions) (source : Path) : Prop :=
  ∃ dir, source.parent? = some dir ∧ (o.containerPath source).isRooted = dir.isRooted ∧
    (o.containerPath source).components =
      dir.components ++ [o.cacheDir.toList, (o.containerName source).toList] ∧
    FileTree.IsName o.cacheDir.toList ∧ FileTree.IsName (o.containerName source).toList

/-- Among the texts that pass the check, only the two that are no names lead elsewhere. -/
theorem confined_iff (hcheck : o.check = .ok ()) (hname : source.fileName? = some name) :
    o.Confined source ↔ o.cacheDir ≠ "." ∧ o.cacheDir ≠ ".." := by
  constructor
  · rintro ⟨-, -, -, -, ⟨-, hdot, hdots⟩, -⟩
    refine ⟨fun h => hdot ?_, fun h => hdots ?_⟩
    · rw [h]
      rfl
    · rw [h]
      rfl
  · rintro ⟨hdot, hdots⟩
    have hdot' : o.cacheDir.toList ≠ ['.'] := fun h => hdot (String.toList_injective h)
    have hdots' : o.cacheDir.toList ≠ ['.', '.'] := fun h => hdots (String.toList_injective h)
    obtain ⟨dir, hparent, -, -⟩ := Path.exists_parent_of_fileName? hname
    obtain ⟨hrooted, hcomponents⟩ := components_containerPath hcheck source
    rw [hparent, Option.getD_some] at hrooted hcomponents
    rw [if_neg fun h => hdot' h.1, List.append_assoc] at hcomponents
    exact ⟨dir, hparent, hrooted, hcomponents, ⟨(cacheDir_of_check hcheck).1, hdot', hdots'⟩,
      (isName_containerName hcheck source).1⟩

/-- In a tree, the directory of a confined container lies beside the script. -/
theorem Confined.places {t : FileTree} {place sourcePlace : Place} (h : o.Confined source)
    (hname : source.fileName? = some name) (hsource : t.resolve source = .ok sourcePlace)
    (hcontainer : t.resolve (o.containerPath source) = .ok place) :
    ∃ dir, sourcePlace = dir ++ [name] ∧
      place = dir ++ [o.cacheDir.toList, (o.containerName source).toList] := by
  obtain ⟨dir, hparent, hrooted, hcomponents, hsub, hown⟩ := h
  obtain ⟨above, habove, hrooted', hsourceComponents⟩ := Path.exists_parent_of_fileName? hname
  obtain rfl : dir = above := Option.some.inj (hparent.symm.trans habove)
  obtain ⟨-, hdot, hdots⟩ := Path.fileName?_eq_some_iff.mp hname
  have hstart : t.start (o.containerPath source) = t.start source := by
    rw [FileTree.start, FileTree.start, hrooted, hrooted']
  have hsub' : Path.counts false o.cacheDir.toList = true := by
    simp [Path.counts, hsub.1, hsub.2.1]
  have hcontainerWalk : t.walk (t.start source) (dir.components.filter (Path.counts false) ++
      [o.cacheDir.toList] ++ [(o.containerName source).toList]) = .ok place := by
    have hsplit : (o.containerPath source).components =
        dir.components ++ [o.cacheDir.toList] ++ [(o.containerName source).toList] := by
      rw [hcomponents, List.append_assoc]
      rfl
    have hwalk := FileTree.walk_of_resolve hsplit hcontainer
    rwa [hstart, List.filter_append, List.filter_cons_of_pos hsub'] at hwalk
  have hsourceWalk := FileTree.walk_of_resolve hsourceComponents hsource
  rw [FileTree.walk_concat_eq_ok_iff ⟨Path.fileName?_ne_nil hname, hdot, hdots⟩] at hsourceWalk
  obtain ⟨beside, hbeside, -, -, rfl⟩ := hsourceWalk
  rw [FileTree.walk_concat_eq_ok_iff hown] at hcontainerWalk
  obtain ⟨cache, hcache, -, -, rfl⟩ := hcontainerWalk
  rw [FileTree.walk_concat_eq_ok_iff hsub] at hcache
  obtain ⟨beside', hbeside', -, -, rfl⟩ := hcache
  obtain rfl : beside = beside' := Except.ok.inj (hbeside.symm.trans hbeside')
  exact ⟨beside, rfl, by simp⟩

end ContainerOptions

/-- A document that is accepted has options that pass their check. -/
theorem Config.check_of_ofText {document : String} {config : Config}
    (h : Config.ofText document = .ok config) : config.container.check = .ok () := by
  unfold ofText at h
  split at h
  · cases h
  · next found _ =>
    cases hcheck : found.container.check with
    | error e =>
      rw [hcheck] at h
      cases h
    | ok u =>
      rw [hcheck] at h
      cases h
      exact hcheck

/-- **Where the container of a script lies.**  Take options from any document that is accepted,
and any script with a file name.  The container lies in a directory beside the script if and only
if the cache directory is neither a dot nor two dots; the check does not exclude these two.  Then,
in every tree, the place of the container is found two names behind the directory that the script
is in. -/
theorem containerPath_confined_iff {document : String} {config : Config}
    (hconfig : Config.ofText document = .ok config) {source : Path} {name : Path.Segment}
    (hname : source.fileName? = some name) :
    (config.container.Confined source ↔
      config.container.cacheDir ≠ "." ∧ config.container.cacheDir ≠ "..") ∧
    (config.container.Confined source → ∀ (t : FileTree) (place sourcePlace : Place),
      t.resolve source = .ok sourcePlace →
      t.resolve (config.container.containerPath source) = .ok place →
        ∃ dir, sourcePlace = dir ++ [name] ∧ place = dir ++ [config.container.cacheDir.toList,
          (config.container.containerName source).toList]) := by
  have hcheck := Config.check_of_ofText hconfig
  refine ⟨ContainerOptions.confined_iff hcheck hname, ?_⟩
  intro hconfined t place sourcePlace hsource hcontainer
  exact hconfined.places hname hsource hcontainer

/-- A document that names another cache directory. -/
def renamedDocument : String := "[container]\ncache_dir = \"out\"\n"

/-- A document whose cache directory leads out of the directory of the script. -/
def escapingDocument : String := "[container]\ncache_dir = \"..\"\n"

/-- The containers of scripts in a directory with a dot in front lie in a directory beside them. -/
theorem containerPath_confined_iff_renamed :
    ∃ config, Config.ofText renamedDocument = .ok config ∧
      config.container.containerPath ⟨"./pkg//a.py"⟩ = ⟨"./pkg/out/a.pyrite-01.pyc"⟩ ∧
      config.container.Confined ⟨"./pkg//a.py"⟩ := by
  have hconfig : Config.ofText renamedDocument =
      .ok { container := { cacheDir := "out" } } := by cbv
  have hname : Path.fileName? ⟨"./pkg//a.py"⟩ = some "a.py".toList := by decide +kernel
  refine ⟨_, hconfig, by decide +kernel, ?_⟩
  exact (containerPath_confined_iff hconfig hname).1.mpr ⟨by decide, by decide⟩

/-- **A container outside the directory of its script.**  Two dots are accepted as the name of the
cache directory, and then the container lies in the directory above that of the script. -/
theorem exists_container_outside :
    ∃ config, Config.ofText escapingDocument = .ok config ∧
      config.container.containerPath ⟨"pkg/a.py"⟩ = ⟨"pkg/../a.pyrite-01.pyc"⟩ ∧
      ¬config.container.Confined ⟨"pkg/a.py"⟩ := by
  have hconfig : Config.ofText escapingDocument =
      .ok { container := { cacheDir := ".." } } := by cbv
  refine ⟨_, hconfig, by decide +kernel, ?_⟩
  rintro ⟨-, -, -, -, ⟨-, -, hdots⟩, -⟩
  exact hdots rfl

/-! ## The name of a container -/

/-- The path of a container that was written is the one that was planned. -/
theorem SessionM.path_of_persistTo {dir : Option Path} {u : SourceUnit} {code : Code}
    {stat : SourceStat} {s s' : Session} {t t' : FileTree} {container : WrittenContainer}
    (h : ((persistTo dir u code stat).run.run s).Ends t (.ok container, s') t') :
    container.path = (s.plan dir u code stat).path := by
  obtain ⟨plan, bytes, hplan, -, rfl, -⟩ := (holds_persistTo dir u code stat s t).ended h
  rw [Option.some.inj hplan]
  rfl

/-- **A container is never written over its script.**  Take options that pass their check, and any
script with a file name.  The container of the script has another file name.  So has every
container that is written for the script, beside it or into any directory, and it lies in another
place than the script.  Scripts have the same path for their containers only if they have the same
stem, and if they have the same directory, exactly then. -/
theorem container_apart_from_source {o : ContainerOptions} (hcheck : o.check = .ok ())
    {source : Path} {name : Path.Segment} (hname : source.fileName? = some name) :
    ((o.containerPath source).fileName? = some (o.containerName source).toList ∧
      (o.containerName source).toList ≠ name) ∧
    (∀ (s : Session) (dir : Option Path) (u : SourceUnit) (code : Code) (stat : SourceStat),
      s.config.container = o → u.identifier = source.text →
      ∀ t container s' t',
        ((SessionM.persistTo dir u code stat).run.run s).Ends t (.ok container, s') t' →
        container.path.fileName? = some (o.containerName source).toList ∧
          container.path ≠ source ∧
          ∀ place, t'.resolve source = .ok place → t'.resolve container.path ≠ .ok place) ∧
    (∀ other : Path, (o.containerPath other).components = (o.containerPath source).components →
      ContainerOptions.stem other = ContainerOptions.stem source) ∧
    ∀ other : Path, other.parent? = source.parent? →
      (o.containerPath other = o.containerPath source ↔
        ContainerOptions.stem other = ContainerOptions.stem source) := by
  have hne := o.containerName_ne_fileName hname
  have hstem : ∀ other : Path, (o.containerPath other).components =
      (o.containerPath source).components →
        ContainerOptions.stem other = ContainerOptions.stem source := by
    intro other hcomponents
    have hlast : (o.containerPath other).fileName? = (o.containerPath source).fileName? := by
      rw [Path.fileName?, Path.fileName?, Path.last?_eq_getLast?, Path.last?_eq_getLast?,
        hcomponents]
    rw [ContainerOptions.fileName?_containerPath hcheck,
      ContainerOptions.fileName?_containerPath hcheck] at hlast
    exact ContainerOptions.stem_eq_of_containerName_eq
      (String.toList_injective (Option.some.inj hlast))
  refine ⟨⟨ContainerOptions.fileName?_containerPath hcheck source, hne⟩, ?_, hstem, ?_⟩
  · rintro s dir u code stat rfl hidentifier t container s' t' hends
    have hfile : container.path.fileName? =
        some (s.config.container.containerName source).toList := by
      have hscript : (⟨u.identifier⟩ : Path) = source := by rw [hidentifier]
      rw [SessionM.path_of_persistTo hends]
      cases dir with
      | none =>
        simp only [Session.plan, hscript]
        exact ContainerOptions.fileName?_containerPath hcheck source
      | some dir =>
        simp only [Session.plan, hscript]
        obtain ⟨hisName, hslash⟩ := ContainerOptions.isName_containerName hcheck source
        have hjoin := dir.fileName?_join hisName hslash
        rwa [String.ofList_toList] at hjoin
    refine ⟨hfile, ?_, fun place hsource hcontainer => ?_⟩
    · rintro rfl
      exact hne (Option.some.inj (hfile.symm.trans hname))
    · have hlast := FileTree.getLast?_of_resolve hfile hcontainer
      rw [FileTree.getLast?_of_resolve hname hsource] at hlast
      exact hne (Option.some.inj hlast).symm
  · intro other hparent
    constructor
    · intro hpath
      exact hstem other (by rw [hpath])
    · intro hsame
      simp only [ContainerOptions.containerPath, ContainerOptions.containerName, hparent, hsame]

/-- A name with several dots that looks like that of a container, and a script that stands for no
file. -/
theorem container_apart_from_source_lookalike :
    ContainerOptions.check { tag := some "b.c" } = .ok () ∧
      ContainerOptions.containerName { tag := some "b.c" } ⟨"d/a.b.c.pyc"⟩ = "a.b.c.b.c.pyc" ∧
      ContainerOptions.containerName { tag := some "b.c" } ⟨"d/<a.py"⟩ = "module.b.c.pyc" ∧
      (ContainerOptions.containerName { tag := some "b.c" } ⟨"d/a.b.c.pyc"⟩).toList ≠
        "a.b.c.pyc".toList ∧
      (ContainerOptions.containerName { tag := some "b.c" } ⟨"d/<a.py"⟩).toList ≠
        "<a.py".toList := by
  have hcheck : ContainerOptions.check { tag := some "b.c" } = .ok () := by decide +kernel
  refine ⟨hcheck, by decide +kernel, by decide +kernel, ?_, ?_⟩
  · exact (container_apart_from_source hcheck (by decide +kernel)).1.2
  · exact (container_apart_from_source hcheck (by decide +kernel)).1.2

end StackScript
