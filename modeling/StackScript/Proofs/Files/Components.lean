import Mathlib.Data.List.Infix
import StackScript.Proofs.Files.Walking

/-!
# The components of a path

Of the segments of a path some do not count: the empty ones, and the dots that do not start a
relative path.  The others are its components (`Path.components`).  A path is taken apart and
put together by texts, and this module says what that does to the components:

* the last component is the last one (`last?_eq_getLast?`), and the parent has all the others
  (`parent?_eq_some`);
* joining a name adds it behind the others (`components_join`);
* the paths above a path have the beginnings of its components, the longer ones first
  (`map_components_climb`).

A walk along a path stays where it is at every segment that does not count, so where a path leads
depends on its components alone, as long as a name follows (`FileTree.walk_steps_concat`).
-/

namespace StackScript

namespace Path

/-! ## Segments and texts -/

theorem unsplit_cons {s : Segment} {ss : List Segment} (h : ss ≠ []) :
    unsplit (s :: ss) = s ++ '/' :: unsplit ss := by
  cases ss with
  | nil => exact absurd rfl h
  | cons r rs => rfl

theorem head?_unsplit {s : Segment} (h : s ≠ []) (ss : List Segment) :
    (unsplit (s :: ss)).head? = s.head? := by
  cases ss with
  | nil => rfl
  | cons r rs =>
    rw [unsplit_cons (List.cons_ne_nil r rs)]
    exact List.head?_append_of_ne_nil s h

theorem unsplit_append {ss ts : List Segment} (hs : ss ≠ []) (ht : ts ≠ []) :
    unsplit (ss ++ ts) = unsplit ss ++ '/' :: unsplit ts := by
  induction ss with
  | nil => exact absurd rfl hs
  | cons s ss ih =>
    cases ss with
    | nil => exact unsplit_cons ht
    | cons r rs =>
      have hne : r :: rs ≠ [] := List.cons_ne_nil r rs
      rw [List.cons_append, unsplit_cons (List.append_ne_nil_of_left_ne_nil hne ts), ih hne,
        unsplit_cons hne, List.append_assoc, List.cons_append]

/-- Cutting a text at its slashes loses nothing. -/
theorem unsplit_split (cs : List Char) : unsplit (split cs) = cs := by
  induction cs with
  | nil => rfl
  | cons c cs ih =>
    obtain ⟨s, ss, hsplit⟩ := List.exists_cons_of_ne_nil (split_ne_nil cs)
    by_cases hc : c = '/'
    · rw [split, if_pos hc, unsplit_cons (split_ne_nil cs), ih, hc]
      rfl
    · rw [hsplit] at ih
      rw [split, if_neg hc, hsplit, ← ih]
      cases ss with
      | nil => rfl
      | cons r rs => rfl

theorem split_unsplit {ss : List Segment} (hne : ss ≠ []) (hslash : ∀ s ∈ ss, '/' ∉ s) :
    split (unsplit ss) = ss := by
  induction ss with
  | nil => exact absurd rfl hne
  | cons s ss ih =>
    have hs : split s = [s] := split_of_no_slash (hslash s List.mem_cons_self)
    cases ss with
    | nil => exact hs
    | cons r rs =>
      have hrest := ih (List.cons_ne_nil r rs) fun x hx => hslash x (List.mem_cons_of_mem s hx)
      rw [unsplit_cons (List.cons_ne_nil r rs), split_append_slash, hs, hrest,
        List.singleton_append]

/-- A text without the slash that it may start with. -/
def behindRoot : List Char → List Char
  | '/' :: cs => cs
  | cs => cs

theorem behindRoot_of_head?_ne {cs : List Char} (h : cs.head? ≠ some '/') : behindRoot cs = cs := by
  unfold behindRoot
  split
  · exact absurd rfl h
  · rfl

/-- A name does not start with a slash. -/
theorem head?_ne_of_no_slash {cs : List Char} (h : '/' ∉ cs) : cs.head? ≠ some '/' :=
  fun hhead => h (List.mem_of_head? hhead)

theorem isRooted_ofList {cs : List Char} (h : cs.head? ≠ some '/') :
    isRooted ⟨String.ofList cs⟩ = false := by
  rw [isRooted, String.toList_ofList]
  exact beq_false_of_ne h

theorem segments_eq_split (p : Path) : p.segments = split (behindRoot p.text.toList) := by
  by_cases hroot : p.text.toList.head? = some '/'
  · obtain ⟨cs, hcs⟩ := List.head?_eq_some_iff.mp hroot
    rw [segments, hcs]
    rfl
  · rw [behindRoot_of_head?_ne hroot, segments]
    split
    · next hcs => exact absurd (by rw [hcs]; rfl) hroot
    · rfl

theorem behindRoot_append {cs : List Char} (hne : cs ≠ []) (ds : List Char) :
    behindRoot (cs ++ ds) = behindRoot cs ++ ds := by
  obtain ⟨c, cs, rfl⟩ := List.exists_cons_of_ne_nil hne
  by_cases hc : c = '/'
  · rw [hc]
    rfl
  · have hhead : ∀ xs : List Char, (c :: xs).head? ≠ some '/' :=
      fun _ hhead => hc (Option.some.inj hhead)
    rw [List.cons_append, behindRoot_of_head?_ne (hhead _), behindRoot_of_head?_ne (hhead _),
      List.cons_append]

theorem segments_ne_nil (p : Path) : p.segments ≠ [] := by
  rw [segments_eq_split]
  exact split_ne_nil _

/-- The text of a path is its root and its segments. -/
theorem toList_text (p : Path) :
    p.text.toList = if p.isRooted then '/' :: unsplit p.segments else unsplit p.segments := by
  rw [segments_eq_split, unsplit_split, isRooted]
  by_cases hroot : p.text.toList.head? = some '/'
  · obtain ⟨cs, hcs⟩ := List.head?_eq_some_iff.mp hroot
    rw [hcs]
    rfl
  · rw [behindRoot_of_head?_ne hroot, if_neg (by simpa using hroot)]

/-- A relative path that has a text does not start with an empty segment. -/
theorem head_ne_nil_of_relative {p : Path} (hrooted : p.isRooted = false) {s : Segment}
    {ss : List Segment} (hsegments : p.segments = s :: ss) (htext : p.text ≠ "") : s ≠ [] := by
  rintro rfl
  have hlist := p.toList_text
  rw [hrooted, if_neg Bool.false_ne_true, hsegments] at hlist
  cases ss with
  | nil => exact htext (String.toList_eq_nil_iff.mp hlist)
  | cons r rs =>
    rw [isRooted, hlist] at hrooted
    cases hrooted

/-- Segments are put together to a path that has them again. -/
theorem segments_ofSegments {rooted : Bool} {ss : List Segment} (hne : ss ≠ [])
    (hslash : ∀ s ∈ ss, '/' ∉ s) (hhead : rooted = false → ss.head? ≠ some []) :
    (ofSegments rooted ss).isRooted = rooted ∧ (ofSegments rooted ss).segments = ss := by
  have hsplit := split_unsplit hne hslash
  cases rooted with
  | true =>
    exact ⟨by simp [ofSegments, isRooted], by simpa [segments_eq_split, ofSegments, behindRoot]⟩
  | false =>
    obtain ⟨s, rest, rfl⟩ := List.exists_cons_of_ne_nil hne
    have hs : s ≠ [] := fun hs => hhead rfl (by rw [hs]; rfl)
    have hrelative : (unsplit (s :: rest)).head? ≠ some '/' := by
      rw [head?_unsplit hs]
      exact head?_ne_of_no_slash (hslash s List.mem_cons_self)
    refine ⟨isRooted_ofList hrelative, ?_⟩
    rw [segments_eq_split, ofSegments, if_neg Bool.false_ne_true, String.toList_ofList,
      behindRoot_of_head?_ne hrelative, hsplit]

/-- The first segments of a path make up a path that is a beginning of it. -/
theorem segments_front {p : Path} {front rest : List Segment} (hfront : front ≠ [])
    (hrest : rest ≠ []) (hsegments : p.segments = front ++ rest) :
    (ofSegments p.isRooted front).isRooted = p.isRooted ∧
      (ofSegments p.isRooted front).segments = front ∧
      (ofSegments p.isRooted front).text.toList <+: p.text.toList := by
  have hslash : ∀ s ∈ front, '/' ∉ s := fun s hs =>
    no_slash_of_mem_segments (hsegments ▸ List.mem_append_left _ hs)
  have hhead : p.isRooted = false → front.head? ≠ some [] := by
    intro hrelative hnil
    obtain ⟨ss, rfl⟩ := List.head?_eq_some_iff.mp hnil
    refine head_ne_nil_of_relative hrelative hsegments (fun htext => ?_) rfl
    -- A path without a text has no second segment.
    have hone : p.segments = [[]] := by rw [segments, htext]; rfl
    rw [hone, List.cons_append] at hsegments
    exact List.append_ne_nil_of_right_ne_nil ss hrest (List.tail_eq_of_cons_eq hsegments).symm
  obtain ⟨hrooted, hsame⟩ := segments_ofSegments hfront hslash hhead
  refine ⟨hrooted, hsame, ?_⟩
  rw [toList_text, toList_text, hrooted, hsame, hsegments, unsplit_append hfront hrest]
  cases p.isRooted with
  | true => exact ⟨'/' :: unsplit rest, rfl⟩
  | false => exact ⟨'/' :: unsplit rest, rfl⟩

/-! ## Components -/

/-- The segments that count.  The flag says whether the first one starts a relative path. -/
def kept (leading : Bool) : List Segment → List Segment
  | [] => []
  | s :: ss => if counts leading s then s :: ss.filter (counts false) else ss.filter (counts false)

/-- The components of a path. -/
def components (p : Path) : List Segment :=
  kept (!p.isRooted) p.segments

@[simp] theorem kept_false (ss : List Segment) : kept false ss = ss.filter (counts false) := by
  cases ss with
  | nil => rfl
  | cons s ss => rw [kept, List.filter_cons]

theorem kept_append (leading : Bool) (ss ts : List Segment) :
    kept leading (ss ++ ts) = kept leading ss ++ kept (leading && ss.isEmpty) ts := by
  cases ss with
  | nil => simp [kept]
  | cons s ss =>
    rw [List.cons_append, kept, kept, List.isEmpty_cons, Bool.and_false, kept_false,
      List.filter_append]
    split <;> rfl

/-- Only a dot in front counts more in one case than in the other. -/
theorem filter_kept (leading : Bool) (ss : List Segment) :
    (kept leading ss).filter (counts false) = ss.filter (counts false) := by
  cases ss with
  | nil => rfl
  | cons s ss =>
    have hfilter : (ss.filter (counts false)).filter (counts false) = ss.filter (counts false) := by
      rw [List.filter_filter]
      simp
    by_cases hs : counts leading s = true
    · rw [kept, if_pos hs, List.filter_cons, List.filter_cons, hfilter]
    · have hs' : ¬counts false s = true := by
        simp only [counts, Bool.and_eq_true, Bool.or_eq_true] at hs ⊢
        tauto
      rw [kept, if_neg hs, hfilter, List.filter_cons_of_neg hs']

theorem kept_sublist (leading : Bool) (ss : List Segment) : (kept leading ss).Sublist ss := by
  cases ss with
  | nil => exact .refl _
  | cons s ss =>
    rw [kept]
    by_cases hs : counts leading s = true
    · rw [if_pos hs]
      exact List.filter_sublist.cons_cons s
    · rw [if_neg hs]
      exact List.filter_sublist.cons s

theorem nil_not_mem_kept (leading : Bool) (ss : List Segment) : [] ∉ kept leading ss := by
  have hfilter : ∀ ts : List Segment, [] ∉ ts.filter (counts false) := by
    intro ts hmem
    exact absurd (List.mem_filter.mp hmem).2 (by decide)
  cases ss with
  | nil => exact List.not_mem_nil
  | cons s ss =>
    rw [kept]
    split
    · next hs =>
      rintro (_ | ⟨_, hmem⟩)
      · simp [counts] at hs
      · exact hfilter ss hmem
    · exact hfilter ss

theorem nil_not_mem_components (p : Path) : [] ∉ p.components := nil_not_mem_kept _ _

/-- What is cut off has no component in it, and what is left ends with one. -/
theorem trimmed_cases (leading : Bool) (ss : List Segment) :
    trimmed leading ss = [] ∧ kept leading ss = [] ∨
      ∃ before s tail, ss = before ++ s :: tail ∧ trimmed leading ss = before ++ [s] ∧
        counts (leading && before.isEmpty) s = true ∧ tail.filter (counts false) = [] := by
  induction ss generalizing leading with
  | nil => exact .inl ⟨rfl, rfl⟩
  | cons s ss ih =>
    rcases ih false with ⟨htrimmed, hkept⟩ | ⟨before, r, tail, rfl, htrimmed, hcounts, htail⟩
    · rw [kept_false] at hkept
      by_cases hs : counts leading s = true
      · refine .inr ⟨[], s, ss, rfl, ?_, by simpa using hs, hkept⟩
        rw [trimmed, htrimmed]
        exact if_pos hs
      · refine .inl ⟨?_, by rw [kept, if_neg hs, hkept]⟩
        rw [trimmed, htrimmed]
        exact if_neg hs
    · refine .inr ⟨s :: before, r, tail, rfl, ?_, by simpa using hcounts, htail⟩
      rw [trimmed, htrimmed]
      cases before <;> rfl

/-- Cutting off what follows the last component leaves the components. -/
theorem kept_trimmed (leading : Bool) (ss : List Segment) :
    kept leading (trimmed leading ss) = kept leading ss := by
  rcases trimmed_cases leading ss with ⟨htrimmed, hkept⟩ |
    ⟨before, s, tail, rfl, htrimmed, hcounts, htail⟩
  · rw [htrimmed, hkept]
    rfl
  · rw [htrimmed, kept_append, kept_append, kept, kept, if_pos hcounts, if_pos hcounts, htail]
    rfl

theorem trimmed_prefix (leading : Bool) (ss : List Segment) : trimmed leading ss <+: ss := by
  rcases trimmed_cases leading ss with ⟨htrimmed, -⟩ | ⟨before, s, tail, rfl, htrimmed, -, -⟩
  · rw [htrimmed]
    exact List.nil_prefix
  · rw [htrimmed]
    exact ⟨tail, by simp⟩

/-- What a path is without its last component, by its segments. -/
theorem body_cases (p : Path) :
    p.body = [] ∧ p.components = [] ∨
      ∃ before s tail, p.segments = before ++ s :: tail ∧ p.body = before ++ [s] ∧
        p.components = kept (!p.isRooted) before ++ [s] ∧ tail.filter (counts false) = [] := by
  rcases trimmed_cases (!p.isRooted) p.segments with hnone |
    ⟨before, s, tail, hsegments, htrimmed, hcounts, htail⟩
  · exact .inl hnone
  · refine .inr ⟨before, s, tail, hsegments, htrimmed, ?_, htail⟩
    rw [components, hsegments, kept_append, kept, if_pos hcounts, htail]

/-- The last component is the last one. -/
theorem last?_eq_getLast? (p : Path) : p.last? = p.components.getLast? := by
  rcases p.body_cases with ⟨hbody, hcomponents⟩ | ⟨before, s, tail, -, hbody, hcomponents, -⟩
  · rw [last?, hbody, hcomponents]
  · rw [last?, hbody, hcomponents, List.getLast?_concat, List.getLast?_concat]

theorem parent?_eq_none_iff (p : Path) : p.parent? = none ↔ p.components = [] := by
  unfold parent?
  rcases p.body_cases with ⟨hbody, hcomponents⟩ | ⟨before, s, tail, -, hbody, hcomponents, -⟩
  · simp [hbody, hcomponents]
  · simp [hbody, hcomponents]

theorem components_of_text_eq_empty {p : Path} (h : p.text = "") :
    p.isRooted = false ∧ p.components = [] := by
  obtain ⟨text⟩ := p
  obtain rfl : text = "" := h
  exact ⟨by decide, by decide⟩

theorem text_eq_empty_iff {p : Path} :
    p.text = "" ↔ p.isRooted = false ∧ p.components = [] := by
  refine ⟨components_of_text_eq_empty, fun ⟨hrooted, hcomponents⟩ => ?_⟩
  by_contra htext
  obtain ⟨s, ss, hsegments⟩ := List.exists_cons_of_ne_nil p.segments_ne_nil
  have hs := head_ne_nil_of_relative hrooted hsegments htext
  rw [components, hrooted, hsegments, kept, if_pos (by simp [counts, hs])] at hcomponents
  exact List.cons_ne_nil _ _ hcomponents

/-- The parent of a path is a beginning of it and has all components but the last. -/
theorem parent?_eq_some {p q : Path} (h : p.parent? = some q) :
    q.isRooted = p.isRooted ∧ q.components = p.components.dropLast ∧
      q.text.toList <+: p.text.toList := by
  unfold parent? at h
  split at h
  · cases h
  · next hbody =>
    rcases p.body_cases with ⟨hnil, -⟩ | ⟨before, s, tail, hsegments, hbefore, hcomponents, -⟩
    · exact absurd (List.isEmpty_iff.mpr hnil) hbody
    · rw [hbefore, List.dropLast_concat] at h
      rw [hcomponents, List.dropLast_concat]
      have hkept := kept_trimmed (!p.isRooted) before
      have hbegins := trimmed_prefix (!p.isRooted) before
      generalize trimmed (!p.isRooted) before = front at h hkept hbegins
      obtain rfl : ofSegments p.isRooted front = q := Option.some.inj h
      obtain ⟨rest, rfl⟩ := hbegins
      by_cases hfront : front = []
      · -- Nothing is left but the root, if there is one.
        rw [← hkept, toList_text p, hfront]
        cases p.isRooted with
        | true => exact ⟨by decide, by decide, by simp [ofSegments, unsplit]⟩
        | false => exact ⟨by decide, by decide, by simp [ofSegments, unsplit]⟩
      · rw [List.append_assoc] at hsegments
        obtain ⟨hrooted, hsame, htext⟩ := segments_front hfront
          (List.append_ne_nil_of_right_ne_nil rest (List.cons_ne_nil s tail)) hsegments
        exact ⟨hrooted, by rw [components, hrooted, hsame, hkept], htext⟩

theorem fileName?_eq_some_iff {p : Path} {name : Segment} :
    p.fileName? = some name ↔
      p.components.getLast? = some name ∧ name ≠ ['.'] ∧ name ≠ ['.', '.'] := by
  rw [fileName?, last?_eq_getLast?]
  cases p.components.getLast? with
  | none => simp
  | some s =>
    dsimp only
    split
    · next hdots =>
      constructor
      · intro h
        cases h
      · rintro ⟨hs, hdot, hdotdot⟩
        obtain rfl := Option.some.inj hs
        exact absurd hdots (not_or.mpr ⟨hdot, hdotdot⟩)
    · next hdots =>
      refine ⟨fun h => ?_, fun h => h.1⟩
      obtain rfl := Option.some.inj h
      exact ⟨rfl, not_or.mp hdots⟩

theorem fileName?_ne_nil {p : Path} {name : Segment} (h : p.fileName? = some name) : name ≠ [] := by
  rintro rfl
  obtain ⟨hlast, -⟩ := fileName?_eq_some_iff.mp h
  exact p.nil_not_mem_components (List.mem_of_getLast? hlast)

/-- A path with a file name has a parent, and the file name stands behind it. -/
theorem exists_parent_of_fileName? {p : Path} {name : Segment} (h : p.fileName? = some name) :
    ∃ dir, p.parent? = some dir ∧ dir.isRooted = p.isRooted ∧
      p.components = dir.components ++ [name] := by
  obtain ⟨hlast, -⟩ := fileName?_eq_some_iff.mp h
  obtain ⟨front, hfront⟩ := List.getLast?_eq_some_iff.mp hlast
  cases hparent : p.parent? with
  | none =>
    have hnil := p.parent?_eq_none_iff.mp hparent
    rw [hfront] at hnil
    exact absurd hnil (List.concat_ne_nil name front)
  | some dir =>
    obtain ⟨hrooted, hcomponents, -⟩ := parent?_eq_some hparent
    rw [hfront, List.dropLast_concat] at hcomponents
    exact ⟨dir, rfl, hrooted, by rw [hfront, hcomponents]⟩

/-! ## Joining -/

/-- The segments of a path to which a name was joined: a slash at its end divides it from the
name, and elsewhere one is put there. -/
theorem segments_join_cases (p : Path) {name : Segment} (hslash : '/' ∉ name)
    (htext : p.text ≠ "") :
    (p.join ⟨String.ofList name⟩).isRooted = p.isRooted ∧
      ((p.join ⟨String.ofList name⟩).segments = p.segments ++ [name] ∨
        ∃ before, p.segments = before ++ [[]] ∧ (before = [] → p.isRooted = true) ∧
          (p.join ⟨String.ofList name⟩).segments = before ++ [name]) := by
  have hrelative : isRooted ⟨String.ofList name⟩ = false :=
    isRooted_ofList (head?_ne_of_no_slash hslash)
  have hsplit := split_of_no_slash hslash
  have hlist : p.text.toList ≠ [] := fun hnil => htext (String.toList_eq_nil_iff.mp hnil)
  have hhead : ∀ ds : List Char, (p.text.toList ++ ds).head? = p.text.toList.head? := by
    intro ds
    obtain ⟨d, front, hfront⟩ := List.exists_cons_of_ne_nil hlist
    rw [hfront]
    rfl
  have hjoin : (p.join ⟨String.ofList name⟩).text.toList =
      p.text.toList ++ if p.needsSlash then '/' :: name else name := by
    rw [join, hrelative, if_neg Bool.false_ne_true]
    split <;> simp
  refine ⟨by rw [isRooted, isRooted, hjoin, hhead], ?_⟩
  rw [segments_eq_split, segments_eq_split, hjoin, behindRoot_append hlist]
  split
  · left
    rw [split_append_slash, hsplit]
  · next hneeds =>
    right
    obtain ⟨front, d, hfront⟩ := List.eq_nil_or_concat p.text.toList |>.resolve_left hlist
    obtain rfl : d = '/' := by simpa [needsSlash, hfront] using hneeds
    cases front with
    | nil =>
      -- The path is the root.
      have hroot : p.text.toList = ['/'] := hfront
      refine ⟨[], ?_, fun _ => by rw [isRooted, hroot]; rfl, ?_⟩
      · rw [hroot]
        rfl
      · rw [hroot]
        exact hsplit
    | cons e front =>
      have hbehind : behindRoot p.text.toList = behindRoot (e :: front) ++ ['/'] := by
        rw [hfront, List.concat_eq_append, behindRoot_append (List.cons_ne_nil e front)]
      refine ⟨split (behindRoot (e :: front)), ?_, fun hnil => absurd hnil (split_ne_nil _), ?_⟩
      · rw [hbehind, split_append_slash]
        rfl
      · rw [hbehind, List.append_assoc, List.singleton_append, split_append_slash, hsplit]

/-- Joining a name adds it to the components.  A dot is none, except in front of everything. -/
theorem components_join (p : Path) {name : Segment} (hne : name ≠ []) (hslash : '/' ∉ name) :
    (p.join ⟨String.ofList name⟩).isRooted = p.isRooted ∧
      (p.join ⟨String.ofList name⟩).components =
        p.components ++ if name = ['.'] ∧ p.text ≠ "" then [] else [name] := by
  by_cases htext : p.text = ""
  · obtain ⟨hrelative, hnone⟩ := components_of_text_eq_empty htext
    have hhead := head?_ne_of_no_slash hslash
    have hrooted : isRooted ⟨String.ofList name⟩ = false := isRooted_ofList hhead
    have hjoin : p.join ⟨String.ofList name⟩ = ⟨String.ofList name⟩ := by
      simp [join, hrooted, needsSlash, htext]
    have hsegments : segments ⟨String.ofList name⟩ = [name] := by
      rw [segments_eq_split, String.toList_ofList, behindRoot_of_head?_ne hhead,
        split_of_no_slash hslash]
    rw [hjoin, hnone, if_neg fun h => h.2 htext, components, hrooted, hsegments]
    exact ⟨hrelative.symm, by simp [kept, counts, hne]⟩
  · obtain ⟨hrooted, hsegments⟩ := p.segments_join_cases hslash htext
    have hname : kept false [name] = if name = ['.'] ∧ p.text ≠ "" then [] else [name] := by
      by_cases hdot : name = ['.']
      · rw [if_pos ⟨hdot, htext⟩, hdot]
        rfl
      · rw [if_neg fun h => hdot h.1]
        simp [counts, hne, hdot]
    refine ⟨hrooted, ?_⟩
    rw [components, hrooted]
    rcases hsegments with hsegments | ⟨before, hbefore, hroot, hsegments⟩
    · rw [hsegments, kept_append, List.isEmpty_eq_false_iff.mpr p.segments_ne_nil, Bool.and_false,
        hname]
      rfl
    · have hflag : (!p.isRooted && before.isEmpty) = false := by
        cases before with
        | nil => rw [hroot rfl]; rfl
        | cons s ss => simp
      rw [components, hbefore, hsegments, kept_append, kept_append, hflag, hname, kept_false]
      simp [counts]

/-- A name that is joined becomes the file name. -/
theorem fileName?_join (p : Path) {name : Segment} (hname : FileTree.IsName name)
    (hslash : '/' ∉ name) : (p.join ⟨String.ofList name⟩).fileName? = some name := by
  obtain ⟨hne, hdot, hdots⟩ := hname
  obtain ⟨-, hcomponents⟩ := p.components_join hne hslash
  rw [if_neg fun h => hdot h.1] at hcomponents
  rw [fileName?_eq_some_iff, hcomponents, List.getLast?_concat]
  exact ⟨rfl, hdot, hdots⟩

/-! ## Climbing -/

theorem reverse_inits_concat {α : Type} (as : List α) (a : α) :
    (as ++ [a]).inits.reverse = (as ++ [a]) :: as.inits.reverse := by
  induction as with
  | nil => rfl
  | cons b as ih =>
    have hmap := congrArg (List.map (b :: ·)) ih
    rw [List.map_reverse, List.map_cons, List.map_reverse] at hmap
    rw [List.cons_append, List.inits_cons, List.reverse_cons, hmap, List.inits_cons,
      List.reverse_cons, List.cons_append]

theorem exists_reverse_inits {α : Type} (as : List α) :
    ∃ above, as.inits.reverse = as :: above := by
  rcases List.eq_nil_or_concat as with rfl | ⟨front, a, rfl⟩
  · exact ⟨[], rfl⟩
  · rw [List.concat_eq_append, reverse_inits_concat]
    exact ⟨_, rfl⟩

/-- What is left out between two beginnings of a list is not missed by a search among them. -/
theorem find?_filter_inits {α : Type} (keep : α → Bool) (good : List α → Bool) (as : List α) :
    (as.inits.reverse.map (List.filter keep)).find? good =
      (as.filter keep).inits.reverse.find? good := by
  induction as using List.reverseRecOn with
  | nil => rfl
  | append_singleton as a ih =>
    rw [reverse_inits_concat, List.map_cons, List.find?_cons, ih, List.filter_append]
    by_cases ha : keep a = true
    · rw [List.filter_cons_of_pos ha, List.filter_nil, reverse_inits_concat, List.find?_cons]
    · -- The same beginning is tried twice.
      obtain ⟨above, habove⟩ := exists_reverse_inits (as.filter keep)
      rw [List.filter_cons_of_neg ha, List.filter_nil, List.append_nil, habove, List.find?_cons]
      cases good (as.filter keep) <;> rfl

/-- The paths above a path have the beginnings of its components, the longest first. -/
theorem map_components_climb {p : Path} {n : Nat} (h : p.components.length ≤ n) :
    (p.climb n).map components = p.components.inits.reverse ∧
      ∀ q ∈ p.climb n, q.isRooted = p.isRooted ∧ q.text.toList <+: p.text.toList := by
  have hself : ∀ p q : Path, q ∈ [p] →
      q.isRooted = p.isRooted ∧ q.text.toList <+: p.text.toList := by
    intro p q hq
    rw [List.mem_singleton.mp hq]
    exact ⟨rfl, List.prefix_rfl⟩
  induction n generalizing p with
  | zero =>
    have hnil : p.components = [] := List.length_eq_zero_iff.mp (Nat.le_zero.mp h)
    exact ⟨by simp [climb, hnil], hself p⟩
  | succ n ih =>
    rw [climb]
    cases hparent : p.parent? with
    | none =>
      have hnil := p.parent?_eq_none_iff.mp hparent
      exact ⟨by simp [hnil], hself p⟩
    | some q =>
      obtain ⟨hrooted, hcomponents, hbegins⟩ := parent?_eq_some hparent
      have hne : p.components ≠ [] := by
        intro hnil
        rw [p.parent?_eq_none_iff.mpr hnil] at hparent
        cases hparent
      obtain ⟨front, s, hfront⟩ := List.eq_nil_or_concat p.components |>.resolve_left hne
      rw [List.concat_eq_append] at hfront
      rw [hfront, List.dropLast_concat] at hcomponents
      have hlength : q.components.length ≤ n := by
        rw [hfront, List.length_append] at h
        rw [hcomponents]
        exact Nat.le_of_succ_le_succ h
      obtain ⟨hmap, habove⟩ := ih hlength
      constructor
      · rw [List.map_cons, hmap, hcomponents, hfront, reverse_inits_concat]
      · intro r hr
        rcases List.mem_cons.mp hr with rfl | hr
        · exact ⟨rfl, List.prefix_rfl⟩
        · obtain ⟨hr, htext⟩ := habove r hr
          exact ⟨hr.trans hrooted, htext.trans hbegins⟩

theorem length_components_le (p : Path) : p.components.length ≤ p.segments.length :=
  (kept_sublist _ _).length_le

end Path

namespace FileTree

variable {t : FileTree} {here place : Place}

/-! ## Walks along components -/

theorem isDir_of_walk_concat {ss : List Path.Segment} {name : Path.Segment}
    (h : t.walk here (ss ++ [name]) = .ok place) : t.node? here = some .dir := by
  have hfirst : ∀ s rest, t.walk here (s :: rest) = .ok place → t.node? here = some .dir := by
    intro s rest hwalk
    rw [← List.singleton_append, walk_append_eq_ok_iff] at hwalk
    obtain ⟨between, hstep, -⟩ := hwalk
    rw [walk_singleton] at hstep
    exact isDir_of_enter hstep
  cases ss with
  | nil => exact hfirst name [] h
  | cons s ss => exact hfirst s (ss ++ [name]) h

/-- A walk that goes on to a name may leave out what stays where it is. -/
theorem walk_steps_concat {ss : List Path.Segment} {name : Path.Segment} :
    t.walk here (ss ++ [name]) = .ok place ↔
      t.walk here (ss.filter (Path.counts false) ++ [name]) = .ok place := by
  induction ss generalizing here with
  | nil => rfl
  | cons s ss ih =>
    by_cases hs : Path.counts false s = true
    · rw [List.filter_cons_of_pos hs, List.cons_append, List.cons_append, ← List.singleton_append,
        ← @List.singleton_append _ s (ss.filter _ ++ [name]), walk_append_eq_ok_iff,
        walk_append_eq_ok_iff]
      exact exists_congr fun between => and_congr_right fun _ => ih
    · have hstays : s = [] ∨ s = ['.'] := by
        simpa [Path.counts, or_iff_not_imp_left] using hs
      rw [List.filter_cons_of_neg hs, ← ih, List.cons_append, ← List.singleton_append,
        walk_append_eq_ok_iff]
      constructor
      · rintro ⟨between, hstep, hwalk⟩
        rw [walk_singleton] at hstep
        rw [enter_of_isDir (isDir_of_enter hstep), if_pos hstays] at hstep
        exact Except.ok.inj hstep ▸ hwalk
      · intro hwalk
        refine ⟨here, ?_, hwalk⟩
        rw [walk_singleton, enter_of_isDir (isDir_of_walk_concat hwalk), if_pos hstays]

/-- A walk that goes on to nothing but what stays where it is ends there. -/
theorem eq_of_walk_stays {ss : List Path.Segment} (hss : ss.filter (Path.counts false) = [])
    (h : t.walk here ss = .ok place) : place = here := by
  induction ss with
  | nil => exact (Except.ok.inj h).symm
  | cons s ss ih =>
    rw [List.filter_eq_nil_iff] at hss
    have hstays : s = [] ∨ s = ['.'] := by
      simpa [Path.counts, or_iff_not_imp_left] using hss s List.mem_cons_self
    rw [← List.singleton_append, walk_append_eq_ok_iff] at h
    obtain ⟨between, hstep, hwalk⟩ := h
    rw [walk_singleton] at hstep
    rw [enter_of_isDir (isDir_of_enter hstep), if_pos hstays] at hstep
    rw [← Except.ok.inj hstep] at hwalk
    exact ih (List.filter_eq_nil_iff.mpr fun r hr => hss r (List.mem_cons_of_mem s hr)) hwalk

/-- A path that ends with a name leads where its components lead. -/
theorem walk_of_resolve {p : Path} {front : List Path.Segment} {name : Path.Segment}
    (hcomponents : p.components = front ++ [name]) (h : t.resolve p = .ok place) :
    t.walk (t.start p) (front.filter (Path.counts false) ++ [name]) = .ok place := by
  obtain ⟨-, hwalk⟩ := resolve_eq_ok_iff.mp h
  rcases p.body_cases with ⟨-, hnone⟩ | ⟨before, s, tail, hsegments, -, hbefore, htail⟩
  · rw [hnone] at hcomponents
    exact absurd hcomponents.symm (List.concat_ne_nil name front)
  · rw [hbefore] at hcomponents
    obtain ⟨rfl, hs⟩ := List.append_inj' hcomponents rfl
    obtain rfl : s = name := List.head_eq_of_cons_eq hs
    rw [hsegments, ← List.singleton_append, ← List.append_assoc, walk_append_eq_ok_iff] at hwalk
    obtain ⟨between, hfront, hrest⟩ := hwalk
    rw [Path.filter_kept, ← walk_steps_concat, eq_of_walk_stays htail hrest]
    exact hfront

/-- A path with a file name leads to a place of that name. -/
theorem getLast?_of_resolve {p : Path} {name : Path.Segment} (hname : p.fileName? = some name)
    (h : t.resolve p = .ok place) : place.getLast? = some name := by
  obtain ⟨hlast, hdot, hdots⟩ := Path.fileName?_eq_some_iff.mp hname
  obtain ⟨front, hcomponents⟩ := List.getLast?_eq_some_iff.mp hlast
  have hwalk := walk_of_resolve hcomponents h
  rw [walk_concat_eq_ok_iff ⟨Path.fileName?_ne_nil hname, hdot, hdots⟩] at hwalk
  obtain ⟨dir, -, -, -, rfl⟩ := hwalk
  exact List.getLast?_concat

/-- A name that was joined to a path is looked up where the components of the path lead. -/
theorem resolve_join_iff {p : Path} {name : Path.Segment} (hname : IsName name)
    (hslash : '/' ∉ name) :
    t.resolve (p.join ⟨String.ofList name⟩) = .ok place ↔
      requirePath (p.join ⟨String.ofList name⟩) = .ok () ∧
        t.walk (t.start p) (p.components.filter (Path.counts false) ++ [name]) = .ok place := by
  obtain ⟨hne, hdot, -⟩ := hname
  obtain ⟨hrooted, hcomponents⟩ := p.components_join hne hslash
  obtain ⟨before, hsegments⟩ := p.segments_join hne hslash
  have hkept : (p.join ⟨String.ofList name⟩).components.filter (Path.counts false) =
      before.filter (Path.counts false) ++ [name] := by
    rw [Path.components, Path.filter_kept, hsegments, List.filter_append,
      List.filter_cons_of_pos (by simp [Path.counts, hne, hdot])]
    rfl
  have hfront : p.components.filter (Path.counts false) = before.filter (Path.counts false) := by
    rw [hcomponents, if_neg fun h => hdot h.1, List.filter_append,
      List.filter_cons_of_pos (by simp [Path.counts, hne, hdot])] at hkept
    exact List.append_cancel_right hkept
  have hstart : t.start (p.join ⟨String.ofList name⟩) = t.start p := by
    rw [start, start, hrooted]
  rw [resolve_eq_ok_iff, hsegments, hstart, walk_steps_concat, hfront]

end FileTree

end StackScript
