import XiraNet.Middleware.Jwt

/-!
# Normalized paths

`normalize_path` of `middleware/jwt.rs` against the reference resolution of dot segments: the
exemption from the check of tokens judges what it returns.

* `normalizePath_eq`: the segments that remain, and a slash at the end where the path has one.
* `normalizePath_reference`: no dot segment is left, another normalization changes nothing, and a
  path may be normalized before more is appended to it.
-/

namespace XiraNet

variable {p : String}

/-- What is put behind the segments that remain. -/
def trailingSlash (p : String) : List Char :=
  if Text.endsWith p "/" = true ∧ Path.resolve p.toList ≠ [] then ['/'] else []

/-- A path that starts with a slash, and has a slash at its end and a segment left, has more than
the one character. -/
theorem one_lt_utf8ByteSize (hstart : Text.startsWith p "/" = true)
    (hstack : Path.resolve p.toList ≠ []) : 1 < p.utf8ByteSize := by
  obtain ⟨rest, hp⟩ := Text.startsWith_iff.mp hstart
  have hsplit : p = "/" ++ String.ofList rest := by
    rw [← String.toList_inj, String.toList_append, ← hp]
    exact congrArg _ String.toList_ofList.symm
  have hrest : String.ofList rest ≠ "" := by
    intro hempty
    rw [hsplit, hempty] at hstack
    exact hstack (by decide)
  have hpos := Nat.pos_of_ne_zero fun h => hrest (String.utf8ByteSize_eq_zero_iff.mp h)
  have hslash : "/".utf8ByteSize = 1 := by decide
  rw [hsplit, String.utf8ByteSize_append, hslash]
  omega

/-- Names that are joined do not end in a slash. -/
theorem endsWith_slash_iff {names : List (List Char)} (h : ∀ s ∈ names, Path.IsName s) :
    ['/'] <:+ '/' :: Path.join names ↔ names = [] := by
  constructor
  · intro hend
    by_contra hne
    -- The last segment would be empty.
    obtain ⟨before, hbefore⟩ := hend
    have hsegments := Path.segments_join h hne
    rw [← hbefore, Path.segments_append_slash] at hsegments
    have hlast := congrArg List.getLast? hsegments
    rw [List.getLast?_concat, List.getLast?_cons_of_ne_nil hne] at hlast
    exact (h _ (List.mem_of_getLast? hlast.symm)).ne_empty rfl
  · rintro rfl
    exact List.suffix_rfl

/-- A path that starts with a slash is normalized to the segments that remain of it, behind a slash
and before one where the path ends in one. -/
theorem normalizePath_eq (hstart : Text.startsWith p "/" = true) :
    (normalizePath p).toList =
      '/' :: Path.join (Path.resolve p.toList) ++ trailingSlash p := by
  have hnames : ∀ s ∈ Path.resolve p.toList, Path.IsName s :=
    fun s h => Path.isName_of_mem_resolve h
  have hresolved : (resolvedPath p).toList = '/' :: Path.join (Path.resolve p.toList) := by
    rw [resolvedPath, if_pos hstart, String.toList_append]
    exact congrArg _ String.toList_ofList
  have hend : Text.endsWith (resolvedPath p) "/" = true ↔ Path.resolve p.toList = [] := by
    rw [Text.endsWith_iff, hresolved]
    exact endsWith_slash_iff hnames
  unfold normalizePath trailingSlash
  dsimp only
  by_cases hstack : Path.resolve p.toList = []
  · rw [hend.mpr hstack, Bool.not_true, Bool.and_false, if_neg Bool.false_ne_true,
      if_neg fun h => h.2 hstack, hresolved, List.append_nil]
  · have hkept : Text.endsWith (resolvedPath p) "/" = false :=
      Bool.eq_false_iff.mpr fun h => hstack (hend.mp h)
    rw [hkept, decide_eq_true (one_lt_utf8ByteSize hstart hstack), Bool.true_and, Bool.not_false,
      Bool.and_true]
    by_cases hslash : Text.endsWith p "/" = true
    · rw [if_pos hslash, if_pos ⟨hslash, hstack⟩, String.toList_append, hresolved]
      rfl
    · rw [if_neg hslash, if_neg fun h => hslash h.1, hresolved, List.append_nil]

/-- A normalized path starts with a slash. -/
theorem startsWith_normalizePath (hstart : Text.startsWith p "/" = true) :
    Text.startsWith (normalizePath p) "/" = true := by
  rw [Text.startsWith_iff, normalizePath_eq hstart]
  exact ⟨_, rfl⟩

/-- What remains of a normalized path is what remained of the path. -/
theorem resolve_normalizePath (hstart : Text.startsWith p "/" = true) :
    Path.resolve (normalizePath p).toList = Path.resolve p.toList := by
  have hnames : ∀ s ∈ Path.resolve p.toList, Path.IsName s :=
    fun s h => Path.isName_of_mem_resolve h
  rw [normalizePath_eq hstart, trailingSlash]
  split
  next => rw [Path.resolve_append_slash, Path.resolve_join hnames]
  next => rw [List.append_nil, Path.resolve_join hnames]

/-- A normalized path ends in a slash where the path does, or nothing is left of it. -/
theorem endsWith_normalizePath (hstart : Text.startsWith p "/" = true) :
    Text.endsWith (normalizePath p) "/" = true ↔
      Text.endsWith p "/" = true ∨ Path.resolve p.toList = [] := by
  have hnames : ∀ s ∈ Path.resolve p.toList, Path.IsName s :=
    fun s h => Path.isName_of_mem_resolve h
  rw [Text.endsWith_iff, normalizePath_eq hstart]
  unfold trailingSlash
  by_cases hslash : Text.endsWith p "/" = true ∧ Path.resolve p.toList ≠ []
  · rw [if_pos hslash]
    exact iff_of_true (List.suffix_append _ _) (.inl hslash.1)
  · rw [if_neg hslash, List.append_nil]
    refine (endsWith_slash_iff hnames).trans ⟨.inr, ?_⟩
    rintro (hend | hempty)
    · by_contra hstack
      exact hslash ⟨hend, hstack⟩
    · exact hempty

/-- Paths with the same segments left, and a slash at the end of both or of none, are normalized to
the same. -/
theorem normalizePath_congr {p' : String} (hstart : Text.startsWith p "/" = true)
    (hstart' : Text.startsWith p' "/" = true)
    (hresolve : Path.resolve p.toList = Path.resolve p'.toList)
    (hend : Path.resolve p'.toList ≠ [] →
      (Text.endsWith p "/" = true ↔ Text.endsWith p' "/" = true)) :
    normalizePath p = normalizePath p' := by
  have hslash : trailingSlash p = trailingSlash p' := by
    unfold trailingSlash
    rw [hresolve]
    by_cases hstack : Path.resolve p'.toList = []
    · rw [if_neg fun h => h.2 hstack, if_neg fun h => h.2 hstack]
    · simp only [hend hstack]
  rw [← String.toList_inj, normalizePath_eq hstart, normalizePath_eq hstart', hresolve, hslash]

/-- What follows a slash decides whether a path ends in one. -/
theorem endsWith_append_slash (p r : String) :
    Text.endsWith (p ++ "/" ++ r) "/" = true ↔ ['/'] <:+ '/' :: r.toList := by
  rw [Text.endsWith_iff, String.toList_append, String.toList_append, List.append_assoc]
  show ['/'] <:+ p.toList ++ '/' :: r.toList ↔ _
  constructor
  · intro h
    have hlength : ['/'].length ≤ ('/' :: r.toList).length := by simp
    exact List.suffix_of_suffix_length_le h (List.suffix_append _ _) hlength
  · intro h
    exact h.trans (List.suffix_append _ _)

/-- The segments of a normalized path: an empty one, the names that are left, and perhaps an empty
one. -/
theorem segments_normalizePath (hstart : Text.startsWith p "/" = true) :
    Path.segments (normalizePath p).toList = [] :: Path.resolve p.toList ∨
      Path.segments (normalizePath p).toList = [] :: (Path.resolve p.toList ++ [[]]) := by
  have hnames : ∀ s ∈ Path.resolve p.toList, Path.IsName s :=
    fun s h => Path.isName_of_mem_resolve h
  rw [normalizePath_eq hstart, trailingSlash]
  by_cases hstack : Path.resolve p.toList = []
  · -- Nothing is left, and the slash at the start is the one at the end.
    rw [if_neg fun h => h.2 hstack, hstack]
    exact .inr rfl
  · split
    next =>
      rw [Path.segments_append_slash, Path.segments_join hnames hstack]
      exact .inr rfl
    next =>
      rw [List.append_nil, Path.segments_join hnames hstack]
      exact .inl rfl

/-- Normalization is the reference resolution, for every path that starts with a slash. -/
theorem normalizePath_reference (hstart : Text.startsWith p "/" = true) :
    (∃ stack, Path.Remains (Path.segments p.toList) stack ∧
        (normalizePath p).toList = '/' :: Path.join stack ++
          if Text.endsWith p "/" = true ∧ stack ≠ [] then ['/'] else []) ∧
      (∀ s ∈ Path.segments (normalizePath p).toList, s ≠ ['.'] ∧ s ≠ ['.', '.']) ∧
      (∀ s ∈ (Path.segments (normalizePath p).toList).tail.dropLast, s ≠ []) ∧
      normalizePath (normalizePath p) = normalizePath p ∧
      ∀ r, normalizePath (p ++ "/" ++ r) = normalizePath (normalizePath p ++ "/" ++ r) := by
  have hnames : ∀ s ∈ Path.resolve p.toList, Path.IsName s :=
    fun s h => Path.isName_of_mem_resolve h
  have hstart' := startsWith_normalizePath hstart
  have hsegments := segments_normalizePath hstart
  refine ⟨⟨_, Path.remains_iff.mpr rfl, normalizePath_eq hstart⟩, ?_, ?_, ?_, fun r => ?_⟩
  · -- No segment is a dot segment.
    intro s hs
    have hcases : s = [] ∨ s ∈ Path.resolve p.toList := by
      rcases hsegments with heq | heq
      · rw [heq] at hs
        exact List.mem_cons.mp hs
      · rw [heq, List.mem_cons, List.mem_append, List.mem_singleton] at hs
        rcases hs with hs | hs | hs
        · exact .inl hs
        · exact .inr hs
        · exact .inl hs
    rcases hcases with rfl | hs
    · exact ⟨by decide, by decide⟩
    · exact ⟨(hnames s hs).ne_dot, (hnames s hs).ne_parent⟩
  · -- An empty segment is the first one or the last one.
    intro s hs
    rcases hsegments with heq | heq
    · rw [heq, List.tail_cons] at hs
      exact (hnames s ((List.dropLast_sublist _).mem hs)).ne_empty
    · rw [heq, List.tail_cons, List.dropLast_concat] at hs
      exact (hnames s hs).ne_empty
  · refine normalizePath_congr hstart' hstart (resolve_normalizePath hstart) fun hstack => ?_
    rw [endsWith_normalizePath hstart, or_iff_left hstack]
  · -- What follows a slash meets the segments that are left.
    have hslash : ∀ q : String, Text.startsWith q "/" = true →
        Text.startsWith (q ++ "/" ++ r) "/" = true := by
      intro q hq
      rw [Text.startsWith_iff] at hq ⊢
      rw [String.toList_append, String.toList_append, List.append_assoc]
      exact hq.trans (List.prefix_append _ _)
    have hresolve : ∀ q : String, Path.resolve (q ++ "/" ++ r).toList =
        (Path.segments r.toList).foldl Path.push (Path.resolve q.toList) := by
      intro q
      rw [String.toList_append, String.toList_append, List.append_assoc]
      exact Path.resolve_append _ _
    refine normalizePath_congr (hslash p hstart) (hslash _ hstart') ?_ fun _ => ?_
    · rw [hresolve, hresolve, resolve_normalizePath hstart]
    · rw [endsWith_append_slash, endsWith_append_slash]

/-- The reference, for a path with all kinds of segments. -/
theorem normalizePath_reference_mixed :
    Text.startsWith "/../a//./b/../c/" "/" = true ∧
      normalizePath ("/../a//./b/../c/" ++ "/" ++ "../d") =
        normalizePath (normalizePath "/../a//./b/../c/" ++ "/" ++ "../d") :=
  ⟨by decide, (normalizePath_reference (p := "/../a//./b/../c/") (by decide)).2.2.2.2 "../d"⟩

end XiraNet
