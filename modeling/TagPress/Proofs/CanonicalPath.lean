import TagPress.Path

/-!
# Canonical paths

`Path.normalize` follows the components of a path and writes down the trail that is left. The trail
of a path is canonical at every point: names that are not `.` or `..` and hold no slash, on top of
some `..` when the path does not start at the root. So the written form of a trail can be cut into
its segments again, and an absolute canonical path has no `.` and no `..` among them.

## Key results

- `Trail.canonical_trail`: the trail of every path is canonical
- `Trail.Canonical.segments_render`: the segments of a written trail
- `Trail.Canonical.isAbsolute_render`: the trails that are written as absolute paths
- `Trail.Canonical.trail_render`: a canonical trail is read back from its written form
- `normalize_normalize`: a canonical path is its own canonical form
- `plain_normalize`: an absolute canonical path has no dots to follow
- `plain_of_hasDotSlash`: a path without `./` can only end in dots
-/

namespace TagPress

namespace Path

/-! ## Components -/

/-- A segment that is a name. -/
structure IsName (segment : List Char) : Prop where
  notVoid : isVoid segment = false
  notParent : segment ≠ ['.', '.']
  noSlash : '/' ∉ segment

/-- A name is not empty. -/
theorem IsName.ne_nil {segment : List Char} (h : IsName segment) : segment ≠ [] := by
  rintro rfl
  exact absurd h.notVoid (by decide)

/-- A name is no single dot. -/
theorem IsName.ne_dot {segment : List Char} (h : IsName segment) : segment ≠ ['.'] := by
  rintro rfl
  exact absurd h.notVoid (by decide)

/-- A name is a component of its own. -/
theorem IsName.component?_eq {segment : List Char} (h : IsName segment) :
    component? segment = some (.normal segment) := by
  have hparent : (segment == ['.', '.']) = false := beq_eq_false_iff_ne.mpr h.notParent
  simp only [component?, h.notVoid, hparent, Bool.false_eq_true, if_false]

/-- The names of components are names. -/
theorem isName_of_mem_components {p : String} {name : List Char}
    (h : .normal name ∈ components p) : IsName name := by
  -- What stands at the front of a path is no name, so the name comes from a segment.
  have hinner : .normal name ∈ (segments p).filterMap component? := by
    simp only [components] at h
    split at h
    · simpa using h
    · split at h
      · simpa using h
      · exact h
  obtain ⟨segment, hsegment, hcomponent⟩ := List.mem_filterMap.mp hinner
  have hslash : '/' ∉ segment := fun hmem => (Text.mem_of_mem_splitOn hsegment hmem).2 rfl
  simp only [component?] at hcomponent
  split at hcomponent
  · cases hcomponent
  · rename_i hvoid
    split at hcomponent
    · cases hcomponent
    · rename_i hparent
      cases hcomponent
      exact ⟨Bool.not_eq_true _ ▸ hvoid, fun heq => hparent (by rw [heq]; rfl), hslash⟩

/-- Only absolute paths start at the root. -/
theorem root_mem_components_iff {p : String} : .root ∈ components p ↔ isAbsolute p = true := by
  -- No segment stands for the root; the components get it in front.
  have hinner : .root ∉ (segments p).filterMap component? := by
    intro hmem
    obtain ⟨segment, -, hcomponent⟩ := List.mem_filterMap.mp hmem
    unfold component? at hcomponent
    repeat' split at hcomponent
    all_goals cases hcomponent
  simp only [components]
  cases isAbsolute p with
  | true => simp
  | false =>
    simp only [Bool.false_eq_true, if_false, iff_false]
    split
    · rw [List.mem_cons, not_or]
      exact ⟨Component.noConfusion, hinner⟩
    · exact hinner

/-! ## Trails -/

/-- The trail that following a path leaves. -/
def trail (p : String) : Trail :=
  (components p).foldl Trail.follow {}

theorem normalize_eq_render (p : String) : normalize p = (trail p).render := rfl

/-- The front of a path only says whether its trail starts at the root. -/
theorem trail_eq_foldl (p : String) :
    trail p = ((segments p).filterMap component?).foldl Trail.follow ⟨isAbsolute p, []⟩ := by
  simp only [trail, components]
  cases isAbsolute p with
  | true => rfl
  | false =>
    simp only [Bool.false_eq_true, if_false]
    split <;> rfl

/-- Segments with a slash behind each of them. -/
def slashed (segs : List (List Char)) : List Char :=
  segs.flatMap (· ++ ['/'])

/-- Segments are written one list after the other, with a slash between the lists. -/
theorem joinSegments_append (xs : List (List Char)) {ys : List (List Char)} (h : ys ≠ []) :
    joinSegments (xs ++ ys) = slashed xs ++ joinSegments ys := by
  induction xs with
  | nil => rfl
  | cons x xs ih =>
    have hcons : ∀ zs, zs ≠ [] → joinSegments (x :: zs) = x ++ ['/'] ++ joinSegments zs := by
      intro zs hzs
      cases zs with
      | nil => exact absurd rfl hzs
      | cons z zs => simp [joinSegments]
    rw [List.cons_append, hcons _ (by simp [h]), ih, ← List.append_assoc]
    rfl

/-- With a slash behind each, segments end in one slash more than they are joined with. -/
theorem slashed_eq {segs : List (List Char)} (h : segs ≠ []) :
    slashed segs = joinSegments segs ++ ['/'] := by
  obtain ⟨front, last, rfl⟩ := (List.eq_nil_or_concat segs).resolve_left h
  rw [List.concat_eq_append, joinSegments_append front (List.cons_ne_nil _ _)]
  simp [slashed, joinSegments]

/-- A character of joined segments is a slash or belongs to a segment. -/
theorem mem_joinSegments {c : Char} {segs : List (List Char)} (h : c ∈ joinSegments segs) :
    c = '/' ∨ ∃ segment ∈ segs, c ∈ segment := by
  have hsegs : segs ≠ [] := by
    rintro rfl
    cases h
  -- With a slash behind every segment, the last one included, nothing is lost.
  have hslashed : c ∈ slashed segs := by
    rw [slashed_eq hsegs]
    exact List.mem_append_left _ h
  obtain ⟨segment, hsegment, hc⟩ := List.mem_flatMap.mp hslashed
  obtain hc | hc := List.mem_append.mp hc
  · exact .inr ⟨segment, hsegment, hc⟩
  · exact .inl (List.mem_singleton.mp hc)

namespace Trail

/-- A trail is canonical: names on top of some `..`, and names only if it starts at the root. -/
def Canonical (t : Trail) : Prop :=
  ∃ names climbs, t.back = names ++ List.replicate climbs ['.', '.'] ∧
    (∀ name ∈ names, IsName name) ∧ (t.rooted = true → climbs = 0)

/-- Following a component keeps a trail canonical. -/
theorem Canonical.follow {t : Trail} (h : t.Canonical) {c : Component}
    (hc : ∀ name, c = .normal name → IsName name) : (t.follow c).Canonical := by
  obtain ⟨names, climbs, hback, hnames, hrooted⟩ := h
  -- Only `..` looks at the trail: it takes a name back, and otherwise it is one more climb.
  cases c with
  | root => exact ⟨[], 0, rfl, by simp, fun _ => rfl⟩
  | current => exact ⟨names, climbs, hback, hnames, hrooted⟩
  | normal name =>
    refine ⟨name :: names, climbs, ?_, ?_, hrooted⟩
    · rw [Trail.follow, hback, List.cons_append]
    · exact List.forall_mem_cons.mpr ⟨hc name rfl, hnames⟩
  | parent =>
    cases names with
    | nil =>
      -- Nothing but climbs: the root stays where it is, any other trail climbs once more.
      rw [List.nil_append] at hback
      cases climbs with
      | zero =>
        rw [List.replicate_zero] at hback
        rw [Trail.follow, hback]
        cases hroot : t.rooted with
        | true => exact ⟨[], 0, by simpa using hback, by simp, fun _ => rfl⟩
        | false => exact ⟨[], 1, rfl, by simp, fun h => by cases h⟩
      | succ climbs =>
        rw [List.replicate_succ] at hback
        have hroot : t.rooted = false := by
          rw [← Bool.not_eq_true]
          exact fun hroot => absurd (hrooted hroot) (by omega)
        refine ⟨[], climbs + 2, ?_, by simp, fun h => ?_⟩
        · simp [Trail.follow, hback, List.replicate_succ]
        · simp [Trail.follow, hback, hroot] at h
    | cons last names =>
      obtain ⟨hlast, hnames⟩ := List.forall_mem_cons.mp hnames
      have hne : (last == ['.', '.']) = false := beq_eq_false_iff_ne.mpr hlast.notParent
      refine ⟨names, climbs, ?_, hnames, fun h => hrooted ?_⟩
      · simp [Trail.follow, hback, hne]
      · simpa [Trail.follow, hback, hne] using h

/-- So does following any number of them. -/
theorem Canonical.foldl {cs : List Component} {t : Trail} (h : t.Canonical)
    (hcs : ∀ name, .normal name ∈ cs → IsName name) : (cs.foldl Trail.follow t).Canonical := by
  induction cs generalizing t with
  | nil => exact h
  | cons c cs ih =>
    have hc : (t.follow c).Canonical :=
      h.follow fun name heq => hcs name (heq ▸ List.mem_cons_self)
    exact ih hc fun name hname => hcs name (List.mem_cons_of_mem _ hname)

/-- The trail of every path is canonical. -/
theorem canonical_trail (p : String) : (trail p).Canonical := by
  have hstart : ({} : Trail).Canonical := ⟨[], 0, rfl, by simp, fun _ => rfl⟩
  exact hstart.foldl fun name hname => isName_of_mem_components hname

/-- The segments of a canonical trail are written between slashes. -/
theorem Canonical.segment {t : Trail} (h : t.Canonical) {segment : List Char}
    (hmem : segment ∈ t.back) : segment ≠ [] ∧ '/' ∉ segment := by
  obtain ⟨names, climbs, hback, hnames, -⟩ := h
  rw [hback, List.mem_append] at hmem
  obtain hname | hclimb := hmem
  · exact ⟨(hnames segment hname).ne_nil, (hnames segment hname).noSlash⟩
  · rw [List.eq_of_mem_replicate hclimb]
    decide

/-- A canonical trail from the root has names only. -/
theorem Canonical.isName {t : Trail} (h : t.Canonical) (hrooted : t.rooted = true)
    {segment : List Char} (hmem : segment ∈ t.back) : IsName segment := by
  obtain ⟨names, climbs, hback, hnames, hclimbs⟩ := h
  rw [hback, hclimbs hrooted, List.replicate_zero, List.append_nil] at hmem
  exact hnames segment hmem

/-! ## Written trails -/

/-- Segments without slashes are read off what they are joined to. -/
theorem splitOn_joinSegments {back : List (List Char)}
    (hback : ∀ segment ∈ back, '/' ∉ segment) :
    (joinSegments back.reverse).splitOn '/' = if back = [] then [[]] else back.reverse := by
  split
  · rename_i hnil
    rw [hnil]
    rfl
  · rename_i hne
    have hslash : ∀ segment ∈ back.reverse, '/' ∉ segment := fun segment hmem =>
      hback segment (List.mem_reverse.mp hmem)
    exact List.splitOn_intercalate '/' hslash fun hnil => hne (List.reverse_eq_nil_iff.mp hnil)

/-- A canonical trail is written so that its segments can be read off again. -/
theorem Canonical.segments_render {t : Trail} (h : t.Canonical) :
    segments t.render =
      (if t.rooted then [[]] else []) ++ (if t.back = [] then [[]] else t.back.reverse) := by
  have hjoin := splitOn_joinSegments fun segment hmem => (h.segment hmem).2
  rw [segments, Trail.render, String.toList_ofList]
  -- The slash of the root makes an empty segment at the front.
  cases t.rooted with
  | true =>
    have hroot := List.splitOn_append_cons_self (a := '/') [] (joinSegments t.back.reverse)
    rw [List.nil_append, hjoin, List.splitOn_nil] at hroot
    exact hroot
  | false => exact hjoin

/-- A canonical trail is written as an absolute path exactly if it starts at the root. -/
theorem Canonical.isAbsolute_render {t : Trail} (h : t.Canonical) :
    isAbsolute t.render = t.rooted := by
  rw [isAbsolute, Trail.render, String.toList_ofList]
  cases hrooted : t.rooted with
  | true => rfl
  | false =>
    cases hback : t.back.reverse with
    | nil => rfl
    | cons first rest =>
      obtain ⟨hne, hslash⟩ := h.segment (List.mem_reverse.mp (hback ▸ List.mem_cons_self))
      -- The first segment is not empty and has no slash, so what is written starts with neither.
      match first, hne with
      | c :: cs, _ =>
        have hc : c ≠ '/' := fun heq => hslash (heq ▸ List.mem_cons_self)
        cases rest <;> simp [joinSegments, List.intercalate, hc]

/-! ## Reading a trail back -/

/-- Names are put on the trail one after the other. -/
theorem foldl_follow_names {names : List (List Char)} (hnames : ∀ name ∈ names, IsName name)
    (t : Trail) :
    (names.filterMap component?).foldl Trail.follow t = ⟨t.rooted, names.reverse ++ t.back⟩ := by
  induction names generalizing t with
  | nil => rfl
  | cons name names ih =>
    obtain ⟨hname, hnames⟩ := List.forall_mem_cons.mp hnames
    rw [List.filterMap_cons_some hname.component?_eq, List.foldl_cons, ih hnames]
    simp [Trail.follow]

/-- Climbs from nowhere are kept as they are. -/
theorem foldl_follow_climbs (climbs : Nat) :
    ((List.replicate climbs ['.', '.']).filterMap component?).foldl Trail.follow ⟨false, []⟩ =
      ⟨false, List.replicate climbs ['.', '.']⟩ := by
  induction climbs with
  | zero => rfl
  | succ climbs ih =>
    -- The last climb is put on the climbs before it.
    rw [List.replicate_succ', List.filterMap_append, List.foldl_append, ih, ← List.replicate_succ']
    cases climbs with
    | zero => rfl
    | succ climbs => simp [component?, isVoid, Trail.follow, List.replicate_succ]

/-- The slashes around a written trail add nothing to what its segments stand for. -/
theorem Canonical.filterMap_segments_render {t : Trail} (h : t.Canonical) :
    (segments t.render).filterMap component? = t.back.reverse.filterMap component? := by
  rw [h.segments_render, List.filterMap_append]
  cases t.rooted <;> by_cases hback : t.back = [] <;> simp [hback, component?, isVoid]

/-- A canonical trail can be read off its written form. -/
theorem Canonical.trail_render {t : Trail} (h : t.Canonical) : trail t.render = t := by
  rw [trail_eq_foldl, h.filterMap_segments_render, h.isAbsolute_render]
  obtain ⟨names, climbs, hback, hnames, hrooted⟩ := h
  have hreverse : ∀ name ∈ names.reverse, IsName name := fun name hname =>
    hnames name (List.mem_reverse.mp hname)
  rw [hback, List.reverse_append, List.reverse_replicate, List.filterMap_append, List.foldl_append]
  -- From the root there are no climbs; otherwise they come first and the names on top of them.
  cases hroot : t.rooted with
  | true =>
    rw [hrooted hroot, List.replicate_zero, List.append_nil] at hback
    rw [hrooted hroot, List.replicate_zero, List.filterMap_nil, List.foldl_nil,
      foldl_follow_names hreverse, List.reverse_reverse, List.append_nil, ← hback, ← hroot]
  | false =>
    rw [foldl_follow_climbs, foldl_follow_names hreverse, List.reverse_reverse, ← hback, ← hroot]

end Trail

/-- A canonical path is its own canonical form. -/
theorem normalize_normalize (p : String) : normalize (normalize p) = normalize p := by
  rw [normalize_eq_render, normalize_eq_render p, (Trail.canonical_trail p).trail_render]

/-! ## Paths without dots -/

/-- No segment of the path is `.` or `..`. -/
def Plain (p : String) : Prop :=
  ∀ segment ∈ segments p, segment ≠ ['.'] ∧ segment ≠ ['.', '.']

/-- A path without dots has none among its components. -/
theorem Plain.not_mem_components {p : String} (h : Plain p) :
    .current ∉ components p ∧ .parent ∉ components p := by
  -- Only a segment of two dots stands for a parent, and no segment for the current directory.
  have hinner : ∀ c, c ∈ (segments p).filterMap component? → c ≠ .current ∧ c ≠ .parent := by
    intro c hc
    obtain ⟨segment, hsegment, hcomponent⟩ := List.mem_filterMap.mp hc
    have hparent : (segment == ['.', '.']) = false :=
      beq_eq_false_iff_ne.mpr (h segment hsegment).2
    simp only [component?, hparent, Bool.false_eq_true, if_false] at hcomponent
    split at hcomponent
    · cases hcomponent
    · cases hcomponent
      exact ⟨Component.noConfusion, Component.noConfusion⟩
  -- The first segment of a relative path is looked at a second time.
  have hfirst : (segments p).head? ≠ some ['.'] := fun hhead =>
    (h ['.'] (List.mem_of_mem_head? hhead)).1 rfl
  have hhead : ((segments p).head? == some ['.']) = false := beq_eq_false_iff_ne.mpr hfirst
  simp only [components, hhead, Bool.false_eq_true, if_false]
  split
  · refine ⟨?_, ?_⟩ <;> rintro (_ | ⟨_, hmem⟩)
    · exact (hinner _ hmem).1 rfl
    · exact (hinner _ hmem).2 rfl
  · exact ⟨fun hmem => (hinner _ hmem).1 rfl, fun hmem => (hinner _ hmem).2 rfl⟩

/-- The canonical form of a path has no dots to follow if it is absolute. -/
theorem plain_normalize {p : String} (h : isAbsolute (normalize p) = true) :
    Plain (normalize p) := by
  have hcanonical := Trail.canonical_trail p
  rw [normalize_eq_render] at h ⊢
  rw [hcanonical.isAbsolute_render] at h
  intro segment hsegment
  rw [hcanonical.segments_render, h, if_pos rfl] at hsegment
  have hnil : ([] : List Char) ≠ ['.'] ∧ ([] : List Char) ≠ ['.', '.'] := by decide
  -- The segments are the empty one of the root, and names.
  obtain hroot | hsegment := List.mem_append.mp hsegment
  · rw [List.mem_singleton.mp hroot]
    exact hnil
  · split at hsegment
    · rw [List.mem_singleton.mp hsegment]
      exact hnil
    · have hname := hcanonical.isName h (List.mem_reverse.mp hsegment)
      exact ⟨hname.ne_dot, hname.notParent⟩

/-- An empty first segment with others behind it comes from a slash at the front. -/
theorem head_of_splitOn_eq_nil_cons {cs : List Char} {rest : List (List Char)}
    (h : cs.splitOn '/' = [] :: rest) (hrest : rest ≠ []) : ∃ cs', cs = '/' :: cs' := by
  -- Any first character but a slash would be in the first segment.
  cases cs with
  | nil =>
    rw [List.splitOn_nil] at h
    exact absurd (List.cons.inj h).2.symm hrest
  | cons c cs =>
    rw [List.splitOn_cons_eq_if_modifyHead] at h
    split at h
    · rename_i hc
      exact ⟨cs, by rw [eq_of_beq hc]⟩
    · obtain ⟨first, others, hsplit⟩ := List.exists_cons_of_ne_nil (List.splitOn_ne_nil '/' cs)
      rw [hsplit] at h
      cases h

/-- Where no dot is followed by a slash, only the last segment can end in a dot. -/
theorem getLast?_of_mem_dropLast_splitOn {cs : List Char} (h : Text.occurs ['.', '/'] cs = false)
    {segment : List Char} (hmem : segment ∈ (cs.splitOn '/').dropLast) :
    segment.getLast? ≠ some '.' := by
  -- By induction on the text; the segment in question may be the one that grows at the front.
  induction cs generalizing segment with
  | nil =>
    rw [List.splitOn_nil] at hmem
    cases hmem
  | cons c cs ih =>
    rw [Text.occurs, Bool.or_eq_false_iff] at h
    obtain ⟨hlead, hoccurs⟩ := h
    obtain ⟨first, rest, hsplit⟩ := List.exists_cons_of_ne_nil (List.splitOn_ne_nil '/' cs)
    rw [List.splitOn_cons_eq_if_modifyHead, hsplit] at hmem
    rw [hsplit] at ih
    split at hmem
    · obtain rfl | hmem := List.mem_cons.mp hmem
      · simp
      · exact ih hoccurs hmem
    · cases rest with
      | nil => cases hmem
      | cons second rest =>
        obtain rfl | hmem := List.mem_cons.mp hmem
        · cases hfirst : first with
          | nil =>
            -- The segment is the one character `c`, and a slash follows.
            rw [hfirst] at hsplit
            obtain ⟨cs', rfl⟩ := head_of_splitOn_eq_nil_cons hsplit (List.cons_ne_nil _ _)
            intro hdot
            rw [List.getLast?_singleton, Option.some.injEq] at hdot
            rw [hdot] at hlead
            exact absurd hlead (by simp)
          | cons d ds =>
            rw [List.getLast?_cons_cons, ← hfirst]
            exact ih hoccurs List.mem_cons_self
        · exact ih hoccurs (List.mem_cons_of_mem _ hmem)

/-- Where no dot is followed by a slash, only the last segment can be `.` or `..`. -/
theorem plain_of_hasDotSlash {p : String} (h : hasDotSlash p = false)
    (hlast : ∀ segment, (segments p).getLast? = some segment →
      segment ≠ ['.'] ∧ segment ≠ ['.', '.']) : Plain p := by
  intro segment hmem
  have hne : segments p ≠ [] := List.ne_nil_of_mem hmem
  rw [← List.dropLast_concat_getLast hne, List.mem_append, List.mem_singleton] at hmem
  -- A segment before the last has a slash behind it, and so cannot end in a dot.
  obtain hinner | hend := hmem
  · have hdot := getLast?_of_mem_dropLast_splitOn h hinner
    refine ⟨?_, ?_⟩ <;> rintro rfl <;> exact hdot rfl
  · exact hlast segment (by rw [hend]; exact List.getLast?_eq_some_getLast hne)

/-! ## Joined paths -/

/-- What stands behind a slash adds its components to those before the slash. -/
theorem filterMap_splitOn_slash (front behind : List Char) :
    ((front ++ '/' :: behind).splitOn '/').filterMap component? =
      (front.splitOn '/').filterMap component? ++ (behind.splitOn '/').filterMap component? := by
  rw [List.splitOn_append_cons_self, List.filterMap_append]

/-- A relative path is put behind a slash, the one that is there or a new one. -/
theorem exists_toList_join {a b : String} (ha : a ≠ "") (hb : isAbsolute b = false) :
    ∃ front, (join a b).toList = front ++ '/' :: b.toList ∧
      (segments a).filterMap component? = (front.splitOn '/').filterMap component? := by
  have hempty : a.isEmpty = false := by
    rw [← Bool.not_eq_true, String.isEmpty_iff]
    exact ha
  rw [join, hb, hempty, Bool.or_false, if_neg Bool.false_ne_true]
  by_cases hslash : a.toList.getLast? = some '/'
  · -- The slash at the end of `a` is the one, and behind it `a` has no component.
    obtain ⟨front, hfront⟩ := List.getLast?_eq_some_iff.mp hslash
    refine ⟨front, ?_, ?_⟩
    · rw [if_pos (by simpa using hslash), String.toList_append, hfront, List.append_assoc]
      rfl
    · rw [segments, hfront, filterMap_splitOn_slash]
      simp [component?, isVoid]
  · refine ⟨a.toList, ?_, rfl⟩
    rw [if_neg (by simpa using hslash), String.toList_append, String.toList_append,
      List.append_assoc]
    rfl

/-- A path that a relative one is joined to decides where the whole starts. -/
theorem isAbsolute_join_of_relative {a b : String} (hb : isAbsolute b = false) :
    isAbsolute (join a b) = isAbsolute a := by
  unfold join
  rw [hb, Bool.false_or]
  split
  · rename_i hempty
    rw [hb, String.isEmpty_iff.mp hempty]
    rfl
  · rename_i hempty
    have hne : a.toList ≠ [] := fun hnil =>
      hempty (String.isEmpty_iff.mpr (String.toList_eq_nil_iff.mp hnil))
    obtain ⟨c, cs, hcs⟩ := List.exists_cons_of_ne_nil hne
    split <;> simp [isAbsolute, hcs]

end Path

end TagPress
