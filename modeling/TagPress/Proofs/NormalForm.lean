import TagPress.Proofs.DirectorySegments

/-!
# The normal form of a path

`Path.normalize` brings every path into one form: no `.`, no double slash and no slash at the end,
and either the root with names behind it or some `..` with names behind them. The paths of this form
are exactly those that it leaves as they are. A path that is joined to another one goes on where the
trail of the first one ends, so all that counts of the first path is its normal form.

## Key results

- `Path.trail_join`: the trail of a joined path goes on from the trail of its first part
- `Path.Trail.Canonical.components_render`: the components of a written trail
- `Path.inNormalForm_normalize`, `Path.InNormalForm.normalize_eq`: the paths that `normalize` gives
  and the paths that it keeps
- `normalize_canonical_form`: the normal form, and joining from it
-/

namespace TagPress

namespace Path

/-! ## Joined paths -/

/-- Following a joined path is following its first part and going on from there. -/
theorem trail_join {a b : String} (hb : isAbsolute b = false) :
    trail (join a b) = ((segments b).filterMap component?).foldl Trail.follow (trail a) := by
  -- An empty first part has no slash behind it.
  by_cases ha : a = ""
  · subst ha
    have hjoin : join "" b = b := by simp [join]
    rw [hjoin, trail_eq_foldl, hb]
    rfl
  · obtain ⟨front, hjoin, hfront⟩ := exists_toList_join ha hb
    rw [trail_eq_foldl, trail_eq_foldl a, isAbsolute_join_of_relative hb, segments, hjoin,
      filterMap_splitOn_slash, List.foldl_append, ← hfront, ← segments]

/-- An absolute path replaces the one that it is joined to. -/
theorem join_of_isAbsolute {b : String} (hb : isAbsolute b = true) (a : String) : join a b = b := by
  rw [join, hb, Bool.true_or, if_pos rfl]

/-- All that counts of the first part is its normal form. -/
theorem normalize_join (a b : String) :
    normalize (join a b) = normalize (join (normalize a) b) := by
  cases hb : isAbsolute b with
  | true => rw [join_of_isAbsolute hb, join_of_isAbsolute hb]
  | false =>
    rw [normalize_eq_render, normalize_eq_render (join (normalize a) b), trail_join hb,
      trail_join hb, trail_normalize]

/-! ## Components of a normal form -/

/-- A path in normal form. No segment is `.`, no two slashes stand next to each other, and only the
    root ends in a slash. The components are the root and names, or some `..` and names. -/
structure InNormalForm (p : String) : Prop where
  noDot : ['.'] ∉ segments p
  noDoubleSlash : hasDoubleSlash p = false
  noTrailingSlash : p ≠ "/" → p.toList.getLast? ≠ some '/'
  shape : ∃ climbs, ∃ names : List (List Char), components p =
    (if isAbsolute p then [.root] else List.replicate climbs .parent) ++ names.map .normal

/-- Without a dot in front, the components are the root and what the segments stand for. -/
theorem components_of_noDot {p : String} (h : ['.'] ∉ segments p) :
    components p =
      (if isAbsolute p then [.root] else []) ++ (segments p).filterMap component? := by
  have hhead : ((segments p).head? == some ['.']) = false := by
    rw [beq_eq_false_iff_ne]
    exact fun hhead => h (List.mem_of_mem_head? hhead)
  simp only [components, hhead, Bool.false_eq_true, if_false]
  split <;> rfl

/-- Names are components of their own. -/
theorem filterMap_names {names : List (List Char)} (hnames : ∀ name ∈ names, IsName name) :
    names.filterMap component? = names.map .normal := by
  rw [← List.filterMap_eq_map]
  exact List.filterMap_congr fun name hname => (hnames name hname).component?_eq

/-- A canonical trail is written without a dot of its own. -/
theorem Trail.Canonical.noDot {t : Trail} (h : t.Canonical) : ['.'] ∉ segments t.render := by
  -- A dot would be the segment of the root, a name or a `..`.
  rw [h.segments_render, List.mem_append]
  rintro (hroot | hback)
  · split at hroot <;> simp at hroot
  · split at hback
    · simp at hback
    · obtain ⟨names, climbs, hsegments, hnames, -⟩ := h
      rw [List.mem_reverse, hsegments, List.mem_append] at hback
      obtain hname | hclimb := hback
      · exact (hnames _ hname).ne_dot rfl
      · exact absurd (List.eq_of_mem_replicate hclimb) (by decide)

/-- The components of a canonical trail, in the order in which they are written. -/
theorem Trail.Canonical.components_render {t : Trail} (h : t.Canonical) :
    ∃ climbs, ∃ names : List (List Char), components t.render =
      (if t.rooted then [.root] else List.replicate climbs .parent) ++ names.map .normal := by
  rw [components_of_noDot h.noDot, h.isAbsolute_render, h.filterMap_segments_render]
  obtain ⟨names, climbs, hback, hnames, hrooted⟩ := h
  have hreverse : ∀ name ∈ names.reverse, IsName name := fun name hname =>
    hnames name (List.mem_reverse.mp hname)
  have hclimbs : (List.replicate climbs ['.', '.']).filterMap component? =
      List.replicate climbs .parent := by
    rw [List.filterMap_replicate]
    rfl
  refine ⟨climbs, names.reverse, ?_⟩
  rw [hback, List.reverse_append, List.reverse_replicate, List.filterMap_append, hclimbs,
    filterMap_names hreverse]
  -- With the root in front there are no climbs.
  cases hroot : t.rooted with
  | true => simp [hrooted hroot]
  | false => simp

/-- The canonical form of a path is in normal form. -/
theorem inNormalForm_normalize (p : String) : InNormalForm (normalize p) := by
  have hcanonical := Trail.canonical_trail p
  refine ⟨hcanonical.noDot, hasDoubleSlash_normalize p, fun hne => ?_, ?_⟩
  · by_cases hback : (trail p).back = []
    · -- Only the root and the empty path have no segment.
      rw [normalize_eq_render, Trail.render, hback] at hne ⊢
      cases hrooted : (trail p).rooted with
      | true =>
        rw [hrooted] at hne
        exact absurd rfl hne
      | false => simp [joinSegments]
    · exact hcanonical.getLast?_render hback
  · rw [isAbsolute_normalize, ← rooted_trail]
    exact hcanonical.components_render

/-! ## Paths in normal form -/

/-- The segment that a component is written as. -/
def segmentOf : Component → List Char
  | .root => []
  | .current => ['.']
  | .parent => ['.', '.']
  | .normal name => name

/-- Segments that all count can be read off their components. -/
theorem map_segmentOf_filterMap {segs : List (List Char)}
    (h : ∀ segment ∈ segs, isVoid segment = false) :
    (segs.filterMap component?).map segmentOf = segs := by
  induction segs with
  | nil => rfl
  | cons segment segs ih =>
    obtain ⟨hsegment, hsegs⟩ := List.forall_mem_cons.mp h
    have hcomponent : ∃ c, component? segment = some c ∧ segmentOf c = segment := by
      by_cases hparent : segment = ['.', '.']
      · exact ⟨.parent, by rw [hparent]; rfl, hparent.symm⟩
      · exact ⟨.normal segment, by simp [component?, hsegment, hparent], rfl⟩
    obtain ⟨c, hc, htext⟩ := hcomponent
    rw [List.filterMap_cons_some hc, List.map_cons, htext, ih hsegs]

/-- A path in normal form is its own canonical form. -/
theorem InNormalForm.normalize_eq {p : String} (h : InNormalForm p) : normalize p = p := by
  by_cases hroot : p = "/"
  · rw [hroot]
    decide
  by_cases hempty : p = ""
  · rw [hempty]
    decide
  have hlast : (segments p).getLast? ≠ some [] := by
    intro hlast
    obtain hnil | hslash := getLast?_of_splitOn_getLast? hlast
    · exact hempty (String.toList_eq_nil_iff.mp hnil)
    · exact h.noTrailingSlash hroot hslash
  obtain ⟨segs, hne, hnil, hsegments⟩ := exists_segments_eq h.noDoubleSlash hlast
  have hmem : ∀ segment ∈ segs, segment ∈ segments p := fun segment hsegment =>
    hsegments ▸ List.mem_append_right _ hsegment
  have hvoid : ∀ segment ∈ segs, isVoid segment = false := by
    intro segment hsegment
    have hnonempty : segment ≠ [] := fun heq => hnil (heq ▸ hsegment)
    have hdot : segment ≠ ['.'] := fun heq => h.noDot (heq ▸ hmem segment hsegment)
    simp [isVoid, hnonempty, hdot]
  obtain ⟨climbs, names, hshape⟩ := h.shape
  have hnames : ∀ name ∈ names, IsName name := fun name hname =>
    isName_of_mem_components (p := p) (by rw [hshape]; simp [hname])
  -- The segments are written out of the components, so they are some `..` and names.
  have hcomponents : segs.filterMap component? =
      List.replicate (if isAbsolute p then 0 else climbs) .parent ++ names.map .normal := by
    rw [components_of_noDot h.noDot, hsegments, List.filterMap_append] at hshape
    cases habsolute : isAbsolute p with
    | true => simpa [habsolute, component?, isVoid] using hshape
    | false => simpa [habsolute] using hshape
  have hsegs : segs = List.replicate (if isAbsolute p then 0 else climbs) ['.', '.'] ++ names := by
    rw [← map_segmentOf_filterMap hvoid, hcomponents, List.map_append, List.map_replicate,
      List.map_map]
    simp [segmentOf, Function.comp_def]
  -- So the path is a canonical trail as it is written.
  have hcanonical : Trail.Canonical ⟨isAbsolute p, segs.reverse⟩ := by
    refine ⟨names.reverse, if isAbsolute p then 0 else climbs, ?_, ?_, fun habsolute => ?_⟩
    · rw [hsegs, List.reverse_append, List.reverse_replicate]
    · exact fun name hname => hnames name (List.mem_reverse.mp hname)
    · exact if_pos habsolute
  have hwritten : p = Trail.render ⟨isAbsolute p, segs.reverse⟩ := by
    have hback : (⟨isAbsolute p, segs.reverse⟩ : Trail).back ≠ [] := by simpa using hne
    apply segments_inj
    rw [hcanonical.segments_render, if_neg hback, hsegments, List.reverse_reverse]
  rw [hwritten, normalize_eq_render, hcanonical.trail_render]

end Path

/-- The canonical form of every path is in normal form, and absolute exactly if the path is: the
    root and names, or some `..` and names, without `.`, double slashes and a slash at the end. The
    paths in normal form are those that are their own canonical form, so bringing a path into it
    twice changes nothing more.

    Joining a path to another and bringing the first one into normal form before have the same
    normal form, for all paths. An absolute path replaces the one that it is joined to. -/
theorem normalize_canonical_form (p a b : String) :
    Path.InNormalForm (Path.normalize p) ∧
      Path.isAbsolute (Path.normalize p) = Path.isAbsolute p ∧
      (Path.InNormalForm p ↔ Path.normalize p = p) ∧
      Path.normalize (Path.normalize p) = Path.normalize p ∧
      Path.normalize (Path.join a b) = Path.normalize (Path.join (Path.normalize a) b) ∧
      (Path.isAbsolute b = true → Path.join a b = b) := by
  refine ⟨Path.inNormalForm_normalize p, Path.isAbsolute_normalize p, ?_,
    Path.normalize_normalize p, Path.normalize_join a b, fun hb => Path.join_of_isAbsolute hb a⟩
  exact ⟨Path.InNormalForm.normalize_eq, fun hsame => hsame ▸ Path.inNormalForm_normalize p⟩

/-- A path that climbs out, with everything that does not belong into a normal form, and a relative
    and an absolute path joined to one that climbs out. -/
theorem climbingPath_normal_form :
    Path.normalize "../a//./b/../c/" = "../a/c" ∧ Path.InNormalForm "../a/c" ∧
      Path.normalize "x/../.." = ".." ∧
      Path.normalize (Path.join "x/../.." "../y") = Path.normalize (Path.join ".." "../y") ∧
      Path.isAbsolute "/y" = true ∧ Path.join "x/../.." "/y" = "/y" := by
  have hclimbing : Path.normalize "../a//./b/../c/" = "../a/c" := by decide
  have hfirst : Path.normalize "x/../.." = ".." := by decide
  obtain ⟨hform, -, -, -, hjoin, -⟩ :=
    normalize_canonical_form "../a//./b/../c/" "x/../.." "../y"
  obtain ⟨-, -, -, -, -, habsolute⟩ := normalize_canonical_form "" "x/../.." "/y"
  rw [hclimbing] at hform
  rw [hfirst] at hjoin
  exact ⟨hclimbing, hform, hfirst, hjoin, rfl, habsolute rfl⟩

end TagPress
