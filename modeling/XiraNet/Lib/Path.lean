import Mathlib.Data.List.Induction

/-!
# Slash-separated paths

Paths as lists of characters, their segments, and the resolution of the dot segments on a stack.

* `remains_iff`: the resolution, read off its rules.
* `resolve_join`: names that are joined resolve to themselves.
* `resolve_append_slashes`: slashes at the end of a path do not matter to its resolution.
* `head_join_ne_slash`: the segments that remain, joined again, do not start with a slash.
* `prefix_cases`: where a prefix that ends before a slash can end.
-/

namespace Path

/-- The segments of a path, empty ones included. -/
def segments (path : List Char) : List (List Char) := path.splitOn '/'

/-- One segment on the stack: an empty segment and `.` are dropped, `..` takes the last one off. -/
def push (stack : List (List Char)) (segment : List Char) : List (List Char) :=
  if segment = [] ∨ segment = ['.'] then stack
  else if segment = ['.', '.'] then stack.dropLast
  else stack ++ [segment]

/-- The segments that remain. -/
def resolve (path : List Char) : List (List Char) := (segments path).foldl push []

/-- Segments, separated by slashes. -/
def join (segments : List (List Char)) : List Char := ['/'].intercalate segments

/-- What remains of segments, by the rules of the reference: empty segments and `.` do not count,
`..` takes the segment before it away, or nothing at the root. -/
inductive Remains : List (List Char) → List (List Char) → Prop
  | nil : Remains [] []
  | empty {segs stack : List (List Char)} (h : Remains segs stack) : Remains (segs ++ [[]]) stack
  | dot {segs stack : List (List Char)} (h : Remains segs stack) : Remains (segs ++ [['.']]) stack
  | root {segs : List (List Char)} (h : Remains segs []) : Remains (segs ++ [['.', '.']]) []
  | parent {segs stack : List (List Char)} {s : List Char} (h : Remains segs (stack ++ [s])) :
      Remains (segs ++ [['.', '.']]) stack
  | name {segs stack : List (List Char)} {s : List Char} (h : Remains segs stack) (hempty : s ≠ [])
      (hdot : s ≠ ['.']) (hparent : s ≠ ['.', '.']) : Remains (segs ++ [s]) (stack ++ [s])

/-- A segment that stays where it is. -/
structure IsName (s : List Char) : Prop where
  ne_empty : s ≠ []
  ne_dot : s ≠ ['.']
  ne_parent : s ≠ ['.', '.']
  noSlash : '/' ∉ s

/-- No segment contains a slash. -/
theorem slash_notMem_of_mem_segments {path segment : List Char} (h : segment ∈ segments path) :
    '/' ∉ segment := by
  unfold segments at h
  induction path generalizing segment with
  | nil =>
      rw [List.splitOn_nil, List.mem_singleton] at h
      rw [h]
      exact List.not_mem_nil
  | cons c path ih =>
      rw [List.splitOn_cons_eq_if_modifyHead] at h
      split at h
      next =>
        rcases List.mem_cons.mp h with rfl | hrest
        · exact List.not_mem_nil
        · exact ih hrest
      next hc =>
        -- The character goes in front of the first segment.
        obtain ⟨first, rest, hsplit⟩ := List.exists_cons_of_ne_nil (List.splitOn_ne_nil '/' path)
        rw [hsplit, List.modifyHead_cons] at h
        rcases List.mem_cons.mp h with rfl | hrest
        · have hfirst := ih (hsplit ▸ List.mem_cons_self)
          have hne : c ≠ '/' := by simpa using hc
          simp [hfirst, Ne.symm hne]
        · exact ih (hsplit ▸ List.mem_cons_of_mem _ hrest)

/-- A slash at the end adds an empty segment. -/
theorem segments_append_slash (path : List Char) :
    segments (path ++ ['/']) = segments path ++ [[]] :=
  List.splitOn_append_cons_self path []

/-- A slash at the end does not matter. -/
theorem resolve_append_slash (path : List Char) : resolve (path ++ ['/']) = resolve path := by
  rw [resolve, segments_append_slash, List.foldl_append]
  rfl

/-- Slashes at the end do not matter. -/
theorem resolve_append_slashes (path : List Char) (k : ℕ) :
    resolve (path ++ List.replicate k '/') = resolve path := by
  induction k with
  | zero => rw [List.replicate_zero, List.append_nil]
  | succ k ih => rw [List.replicate_succ', ← List.append_assoc, resolve_append_slash, ih]

/-- A slash between two paths separates their segments. -/
theorem segments_append (path path' : List Char) :
    segments (path ++ '/' :: path') = segments path ++ segments path' :=
  List.splitOn_append_cons_self path path'

/-- The second of two paths is resolved on what remains of the first. -/
theorem resolve_append (path path' : List Char) :
    resolve (path ++ '/' :: path') = (segments path').foldl push (resolve path) := by
  rw [resolve, segments_append, List.foldl_append]
  rfl

/-- The rules leave what the resolution leaves. -/
theorem remains_foldl_push (segs : List (List Char)) : Remains segs (segs.foldl push []) := by
  induction segs using List.reverseRecOn with
  | nil => exact .nil
  | append_singleton segs s ih =>
      rw [List.foldl_append, List.foldl_cons, List.foldl_nil]
      generalize segs.foldl push [] = stack at ih
      unfold push
      by_cases hempty : s = []
      · subst hempty
        exact .empty ih
      by_cases hdot : s = ['.']
      · subst hdot
        exact .dot ih
      rw [if_neg (not_or.mpr ⟨hempty, hdot⟩)]
      by_cases hparent : s = ['.', '.']
      · subst hparent
        rw [if_pos rfl]
        rcases List.eq_nil_or_concat stack with rfl | ⟨before, last, rfl⟩
        · exact .root ih
        · rw [List.concat_eq_append] at ih ⊢
          rw [List.dropLast_concat]
          exact .parent ih
      · rw [if_neg hparent]
        exact .name ih hempty hdot hparent

/-- The rules leave nothing else. -/
theorem Remains.eq_foldl_push {segs stack : List (List Char)} (h : Remains segs stack) :
    stack = segs.foldl push [] := by
  induction h with
  | nil => rfl
  | empty _ ih =>
      rw [List.foldl_append, ← ih]
      rfl
  | dot _ ih =>
      rw [List.foldl_append, ← ih]
      rfl
  | root _ ih =>
      rw [List.foldl_append, ← ih]
      rfl
  | parent _ ih =>
      rw [List.foldl_append, ← ih, List.foldl_cons, List.foldl_nil, push, if_neg (by simp),
        if_pos rfl, List.dropLast_concat]
  | name _ hempty hdot hparent ih =>
      rw [List.foldl_append, ← ih, List.foldl_cons, List.foldl_nil, push,
        if_neg (not_or.mpr ⟨hempty, hdot⟩), if_neg hparent]

/-- What remains of the segments of a path is its resolution. -/
theorem remains_iff {path : List Char} {stack : List (List Char)} :
    Remains (segments path) stack ↔ stack = resolve path := by
  constructor
  · exact Remains.eq_foldl_push
  · rintro rfl
    exact remains_foldl_push _

/-- What is on the stack after a segment was on it before or is that segment, and is none that the
resolution treats apart. -/
theorem of_mem_push {stack : List (List Char)} {segment s : List Char}
    (h : s ∈ push stack segment) :
    s ∈ stack ∨ s = segment ∧ s ≠ [] ∧ s ≠ ['.'] ∧ s ≠ ['.', '.'] := by
  unfold push at h
  split at h
  next => exact .inl h
  next hplain =>
    obtain ⟨hempty, hdot⟩ := not_or.mp hplain
    split at h
    next => exact .inl ((List.dropLast_sublist stack).mem h)
    next hparent =>
      rcases List.mem_append.mp h with hold | hnew
      · exact .inl hold
      · obtain rfl := List.mem_singleton.mp hnew
        exact .inr ⟨rfl, hempty, hdot, hparent⟩

/-- A segment that remains is a name. -/
theorem isName_of_mem_resolve {path s : List Char} (h : s ∈ resolve path) : IsName s := by
  have hfold : ∀ (segs stack : List (List Char)), s ∈ segs.foldl push stack →
      s ∈ stack ∨ s ∈ segs ∧ s ≠ [] ∧ s ≠ ['.'] ∧ s ≠ ['.', '.'] := by
    intro segs
    induction segs with
    | nil => exact fun stack h => .inl h
    | cons segment segs ih =>
        intro stack h
        rcases ih (push stack segment) h with hpush | ⟨hmem, hne⟩
        · rcases of_mem_push hpush with hold | ⟨rfl, hne⟩
          · exact .inl hold
          · exact .inr ⟨List.mem_cons_self, hne⟩
        · exact .inr ⟨List.mem_cons_of_mem _ hmem, hne⟩
  rcases hfold (segments path) [] h with hnil | ⟨hmem, hempty, hdot, hparent⟩
  · cases hnil
  · exact ⟨hempty, hdot, hparent, slash_notMem_of_mem_segments hmem⟩

/-- A name goes onto the stack. -/
theorem IsName.push {s : List Char} (h : IsName s) (stack : List (List Char)) :
    push stack s = stack ++ [s] := by
  rw [Path.push, if_neg (not_or.mpr ⟨h.ne_empty, h.ne_dot⟩), if_neg h.ne_parent]

/-- Names go onto the stack one after the other. -/
theorem foldl_push_names {names : List (List Char)} (h : ∀ s ∈ names, IsName s)
    (stack : List (List Char)) : names.foldl push stack = stack ++ names := by
  induction names generalizing stack with
  | nil => exact (List.append_nil stack).symm
  | cons s names ih =>
      rw [List.forall_mem_cons] at h
      rw [List.foldl_cons, h.1.push, ih h.2, List.append_assoc, List.singleton_append]

/-- The segments of names that are joined behind a slash. -/
theorem segments_join {names : List (List Char)} (h : ∀ s ∈ names, IsName s) (hne : names ≠ []) :
    segments ('/' :: join names) = [] :: names := by
  have hjoin : segments (join names) = names :=
    List.splitOn_intercalate '/' (fun s hs => (h s hs).noSlash) hne
  have happend := segments_append [] (join names)
  rw [List.nil_append, hjoin] at happend
  exact happend

/-- Names that are joined behind a slash resolve to themselves. -/
theorem resolve_join {names : List (List Char)} (h : ∀ s ∈ names, IsName s) :
    resolve ('/' :: join names) = names := by
  by_cases hne : names = []
  · subst hne
    rfl
  · rw [resolve, segments_join h hne]
    exact foldl_push_names h []

/-- What remains of a path, joined again, does not start with a slash. -/
theorem head_join_ne_slash (path : List Char) : (join (resolve path)).head? ≠ some '/' := by
  have hall : ∀ s ∈ resolve path, s ≠ [] ∧ '/' ∉ s :=
    fun s h => ⟨(isName_of_mem_resolve h).ne_empty, (isName_of_mem_resolve h).noSlash⟩
  cases hstack : resolve path with
  | nil => simp [join]
  | cons first rest =>
      obtain ⟨hne, hslash⟩ := hall first (hstack ▸ List.mem_cons_self)
      obtain ⟨c, cs, rfl⟩ := List.exists_cons_of_ne_nil hne
      have hc : c ≠ '/' := fun h => hslash (h ▸ List.mem_cons_self)
      cases rest with
      | nil => simp [join, hc]
      | cons second rest => simp [join, List.intercalate_cons_cons, hc]

/-- A prefix that ends before a slash ends at the start, at the first segment or behind it. -/
theorem prefix_cases {p w t : List Char} (hw : '/' ∉ w)
    (h : p ++ ['/'] <+: '/' :: w ++ '/' :: t) :
    p = [] ∨ p = '/' :: w ∨ '/' :: w ++ ['/'] <+: p := by
  obtain ⟨u, hu⟩ := h
  rw [List.append_assoc, List.singleton_append] at hu
  rcases List.append_eq_append_iff.mp hu with ⟨a, hleft, hright⟩ | ⟨c, hleft, hright⟩
  · cases a with
    | nil =>
        rw [List.append_nil] at hleft
        exact .inr (.inl hleft.symm)
    | cons x a =>
        obtain ⟨rfl, -⟩ := List.cons.inj hright
        cases p with
        | nil => exact .inl rfl
        | cons y p =>
            -- A slash inside the first segment.
            rw [List.cons_append] at hleft
            rw [(List.cons.inj hleft).2] at hw
            exact absurd (List.mem_append_right _ List.mem_cons_self) hw
  · cases c with
    | nil =>
        rw [List.append_nil] at hleft
        exact .inr (.inl hleft)
    | cons x c =>
        obtain ⟨rfl, -⟩ := List.cons.inj hright
        refine .inr (.inr ⟨c, ?_⟩)
        rw [hleft, List.append_assoc, List.singleton_append]

end Path
