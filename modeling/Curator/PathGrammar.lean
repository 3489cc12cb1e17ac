import Curator.Paths
import Curator.Support.Segments

/-!
# The znode path grammar

ZooKeeper's server takes as a path `/` or `/s₁/⋯/sₖ` with `k ≥ 1`, each
segment a node name: non-empty, neither `.` nor `..`, with no forbidden
character.  The server's `PathUtils.validatePath` checks UTF-16 units, so it
forbids U+0000–U+001F, U+007F–U+009F, U+D800–U+F8FF, U+FFF0–U+FFFF and, by
their surrogates, every code point at or above U+10000.

`ValidatePath` scans code points with the range table `invalidCharaters`,
which stops at U+FFFF.  It accepts exactly the grammar over the code points
the table allows (`validatePath_eq_none_iff`): the scan is read one segment
at a time, where only a segment's first two code points can meet a dot check.
So it accepts every code point of the astral planes, which the server
refuses.
-/

namespace Curator

open ListSegments

/-- A code point `ValidatePath`'s table allows. -/
def goPathChar (c : Char) : Prop := invalidCharaters c = false

instance (c : Char) : Decidable (goPathChar c) :=
  inferInstanceAs (Decidable (invalidCharaters c = false))

/-- A code point the server allows: one the table allows whose UTF-16 form is
a single unit. -/
def serverPathChar (c : Char) : Prop := invalidCharaters c = false ∧ c.toNat < 0x10000

instance (c : Char) : Decidable (serverPathChar c) :=
  inferInstanceAs (Decidable (invalidCharaters c = false ∧ c.toNat < 0x10000))

/-- A node name over the code points `ok` allows. -/
structure NodeName (ok : Char → Prop) (s : GoString) : Prop where
  ne_nil : s ≠ []
  sep_not_mem : '/' ∉ s
  ne_dot : s ≠ ['.']
  ne_dotDot : s ≠ ['.', '.']
  chars : ∀ c ∈ s, ok c

instance (ok : Char → Prop) [DecidablePred ok] (s : GoString) : Decidable (NodeName ok s) :=
  -- decide the characters one list element at a time, never over all of `Char`
  haveI : Decidable (∀ c ∈ s, ok c) := List.decidableBAll ok s
  decidable_of_iff (s ≠ [] ∧ '/' ∉ s ∧ s ≠ ['.'] ∧ s ≠ ['.', '.'] ∧ ∀ c ∈ s, ok c)
    ⟨fun ⟨h₁, h₂, h₃, h₄, h₅⟩ => ⟨h₁, h₂, h₃, h₄, h₅⟩, fun h => ⟨h.1, h.2, h.3, h.4, h.5⟩⟩

/-- The znode path grammar over the code points `ok` allows: the root, or node
names, each after a separator. -/
def ZnodePath (ok : Char → Prop) (p : GoString) : Prop :=
  p = pathSeparator ∨ ∃ segs, segs ≠ [] ∧ (∀ s ∈ segs, NodeName ok s) ∧ p = joinSegments '/' segs

/-- Every code point of a path in the grammar is a separator or one `ok`
allows. -/
theorem ZnodePath.mem {ok : Char → Prop} {p : GoString} (h : ZnodePath ok p) {c : Char}
    (hc : c ∈ p) : c = '/' ∨ ok c := by
  rcases h with rfl | ⟨segs, _, hnames, rfl⟩
  · exact .inl (List.mem_singleton.mp hc)
  rcases (mem_joinSegments '/').mp hc with ⟨rfl, _⟩ | ⟨s, hs, hcs⟩
  · exact .inl rfl
  · exact .inr ((hnames s hs).chars c hcs)

theorem ZnodePath.ne_nil {ok : Char → Prop} {p : GoString} (h : ZnodePath ok p) : p ≠ [] := by
  rcases h with rfl | ⟨segs, hne, _, rfl⟩
  · simp [pathSeparator]
  · exact joinSegments_ne_nil '/' hne

theorem NodeName.head?_ne {ok : Char → Prop} {s : GoString} (h : NodeName ok s) :
    s.head? ≠ some '/' :=
  fun hs => h.sep_not_mem (List.mem_of_mem_head? hs)

theorem NodeName.getLast?_ne {ok : Char → Prop} {s : GoString} (h : NodeName ok s) :
    s.getLast? ≠ some '/' :=
  fun hs => h.sep_not_mem (List.mem_of_getLast? hs)

/-- A join of node names is a separator followed by a text that is not empty
and ends inside the last name, not with a separator. -/
theorem joinSegments_cons_shape {ok : Char → Prop} {s : GoString} {rest : List GoString}
    (hnames : ∀ x ∈ s :: rest, NodeName ok x) :
    s ++ joinSegments '/' rest ≠ [] ∧ (s ++ joinSegments '/' rest).getLast? ≠ some '/' := by
  have hr : s ++ joinSegments '/' rest ≠ [] := by
    simp [(hnames s List.mem_cons_self).ne_nil]
  obtain ⟨init, last, hsplit⟩ : ∃ init last, s :: rest = init ++ [last] :=
    ⟨(s :: rest).dropLast, (s :: rest).getLast (by simp),
      (List.dropLast_append_getLast (by simp)).symm⟩
  have hlast : NodeName ok last := hnames last (by rw [hsplit]; simp)
  have hend : (joinSegments '/' (s :: rest)).getLast? = last.getLast? := by
    rw [hsplit, getLast?_joinSegments_concat '/' init hlast.ne_nil]
  rw [joinSegments_cons, List.getLast?_cons_of_ne_nil hr] at hend
  exact ⟨hr, hend ▸ hlast.getLast?_ne⟩

/-! ### The scan of `ValidatePath` -/

section Scan

/-- The offsets only name the errors. -/
theorem validatePathLoop_eq_none_index : ∀ (xs : GoString) (b l : Char) (i j : ℕ),
    validatePathLoop b l i xs = none ↔ validatePathLoop b l j xs = none
  | [], _, _, _, _ => Iff.rfl
  | c :: rest, b, l, i, j => by
    simp only [validatePathLoop]
    split_ifs
    all_goals first
      | exact validatePathLoop_eq_none_index rest _ _ _ _
      | simp

/-- Right after a separator the code point before it is never read: it
matters only after two dots. -/
theorem validatePathLoop_after_sep (b b' : Char) (i : ℕ) (xs : GoString) :
    validatePathLoop b '/' i xs = validatePathLoop b' '/' i xs := by
  cases xs with
  | nil => rfl
  | cons c rest => simp [validatePathLoop]

/-- A code point other than the separator where no dot check can fail is
accepted exactly when the table allows it. -/
theorem validatePathLoop_cons_eq_none_iff {b l c : Char} {i : ℕ} {rest : GoString}
    (hc : c ≠ '/') (hdot : c = '.' → l ≠ '/' ∧ (l = '.' → b ≠ '/')) :
    validatePathLoop b l i (c :: rest) = none ↔
      goPathChar c ∧ validatePathLoop l c (i + c.utf8Size) rest = none := by
  by_cases hnull : c.toNat = 0
  · have hinv : invalidCharaters c = true := by simp [invalidCharaters, hnull]
    simp [validatePathLoop, hnull, goPathChar, hinv]
  by_cases hd : c = '.'
  · subst hd
    obtain ⟨hl, hb⟩ := hdot rfl
    have hok : goPathChar '.' := by decide
    by_cases hll : l = '.'
    · simp [validatePathLoop, hll, hb hll, hok]
    · simp [validatePathLoop, hll, hl, hok]
  · cases hinv : invalidCharaters c <;> simp [validatePathLoop, hnull, hc, hd, goPathChar, hinv]

/-- At the end of a segment the scan stops, or passes the separator and starts
afresh. -/
theorem validatePathLoop_segmentEnd {b l : Char} (hl : l ≠ '/') (i : ℕ) {t : GoString}
    (ht : t = [] ∨ ∃ t', t = '/' :: t') :
    validatePathLoop b l i t = none ↔
      t = [] ∨ ∃ t', t = '/' :: t' ∧ validatePathLoop '/' '/' 0 t' = none := by
  rcases ht with rfl | ⟨t', rfl⟩
  · simp [validatePathLoop]
  · have hsep : invalidCharaters '/' = false := by decide
    have hstep : validatePathLoop b l i ('/' :: t') =
        validatePathLoop l '/' (i + '/'.utf8Size) t' := by
      simp [validatePathLoop, hl, hsep]
    rw [hstep, validatePathLoop_after_sep l '/', validatePathLoop_eq_none_index t' _ _ _ 0]
    simp

/-- Past the first code point of a segment, or its first two when they are
dots, only the table can refuse a code point. -/
theorem validatePathLoop_segment_rest : ∀ (xs : GoString), '/' ∉ xs → ∀ (b l : Char),
    l ≠ '/' → (l = '.' → b ≠ '/') → ∀ (i : ℕ) {t : GoString}, (t = [] ∨ ∃ t', t = '/' :: t') →
    (validatePathLoop b l i (xs ++ t) = none ↔ (∀ c ∈ xs, goPathChar c) ∧
      (t = [] ∨ ∃ t', t = '/' :: t' ∧ validatePathLoop '/' '/' 0 t' = none))
  | [], _, _, _, hl, _, i, _, ht => by
    simpa using validatePathLoop_segmentEnd hl i ht
  | c :: xs, hsep, b, l, hl, hb, i, _, ht => by
    have hc : c ≠ '/' := fun h => hsep (h ▸ List.mem_cons_self)
    have hxs : '/' ∉ xs := fun h => hsep (List.mem_cons_of_mem c h)
    rw [List.cons_append, validatePathLoop_cons_eq_none_iff hc (fun _ => ⟨hl, hb⟩),
      validatePathLoop_segment_rest xs hxs l c hc (fun _ => hl) _ ht]
    simp only [List.forall_mem_cons, and_assoc]

/-- A segment is accepted exactly when it is a node name: a first dot is
refused when it is the whole segment, a second one when the two are. -/
theorem validatePathLoop_segment {s : GoString} (hs : s ≠ []) (hsep : '/' ∉ s) (b : Char)
    (i : ℕ) {t : GoString} (ht : t = [] ∨ ∃ t', t = '/' :: t') :
    validatePathLoop b '/' i (s ++ t) = none ↔ NodeName goPathChar s ∧
      (t = [] ∨ ∃ t', t = '/' :: t' ∧ validatePathLoop '/' '/' 0 t' = none) := by
  have hname : NodeName goPathChar s ↔ (s ≠ ['.'] ∧ s ≠ ['.', '.']) ∧ ∀ x ∈ s, goPathChar x :=
    ⟨fun h => ⟨⟨h.ne_dot, h.ne_dotDot⟩, h.chars⟩, fun h => ⟨hs, hsep, h.1.1, h.1.2, h.2⟩⟩
  rw [hname]
  obtain ⟨c, rest, rfl⟩ := List.exists_cons_of_ne_nil hs
  have hc : c ≠ '/' := fun h => hsep (h ▸ List.mem_cons_self)
  have hrest : '/' ∉ rest := fun h => hsep (List.mem_cons_of_mem c h)
  have hdot : goPathChar '.' := by decide
  by_cases hd : c = '.'
  · subst hd
    cases rest with
    | nil => rcases ht with rfl | ⟨t', rfl⟩ <;> simp [validatePathLoop]
    | cons d rest =>
      have hd' : d ≠ '/' := fun h => hrest (h ▸ List.mem_cons_self)
      have hrest' : '/' ∉ rest := fun h => hrest (List.mem_cons_of_mem d h)
      have hfirst : validatePathLoop b '/' i ('.' :: (d :: rest ++ t)) =
          validatePathLoop '/' '.' (i + '.'.utf8Size) (d :: rest ++ t) := by
        simp [validatePathLoop, hd']
      rw [List.cons_append, hfirst]
      by_cases hdd : d = '.'
      · subst hdd
        cases rest with
        | nil => rcases ht with rfl | ⟨t', rfl⟩ <;> simp [validatePathLoop]
        | cons e rest =>
          have he : e ≠ '/' := fun h => hrest' (h ▸ List.mem_cons_self)
          have hrest'' : '/' ∉ rest := fun h => hrest' (List.mem_cons_of_mem e h)
          have hsecond : validatePathLoop '/' '.' (i + '.'.utf8Size) ('.' :: (e :: rest ++ t)) =
              validatePathLoop '.' '.' (i + '.'.utf8Size + '.'.utf8Size) (e :: rest ++ t) := by
            simp [validatePathLoop, he]
          rw [List.cons_append, hsecond,
            validatePathLoop_segment_rest (e :: rest) hrest' '.' '.' (by decide) (by decide) _ ht]
          simp [hdot]
      · rw [List.cons_append, validatePathLoop_cons_eq_none_iff hd' (fun h => absurd h hdd),
          validatePathLoop_segment_rest rest hrest' '.' d hd' (fun h => absurd h hdd) _ ht]
        simp [hdot, hdd, and_assoc]
  · rw [List.cons_append, validatePathLoop_cons_eq_none_iff hc (fun h => absurd h hd),
      validatePathLoop_segment_rest rest hrest '/' c hc (fun h => absurd h hd) _ ht]
    simp [hd, and_assoc]

/-- The scan of separator-free segments, the last one not empty, accepts
exactly node names. -/
theorem validatePathLoop_joinSegments : ∀ (segs : List GoString) (s : GoString),
    (∀ x ∈ s :: segs, '/' ∉ x) → (s :: segs).getLast? ≠ some [] → ∀ (b : Char) (i : ℕ),
    (validatePathLoop b '/' i (s ++ joinSegments '/' segs) = none ↔
      ∀ x ∈ s :: segs, NodeName goPathChar x)
  | [], s, hfree, hlast, b, i => by
    have hs : s ≠ [] := fun h => hlast (by simp [h])
    rw [joinSegments_nil, validatePathLoop_segment hs (hfree s List.mem_cons_self) b i (.inl rfl)]
    simp
  | s' :: segs, s, hfree, hlast, b, i => by
    have hrest : ∀ x ∈ s' :: segs, '/' ∉ x := fun x hx => hfree x (List.mem_cons_of_mem s hx)
    have hlast' : (s' :: segs).getLast? ≠ some [] := by
      simpa [List.getLast?_cons_cons] using hlast
    by_cases hs : s = []
    · subst hs
      have hempty : ¬ NodeName goPathChar [] := fun h => h.ne_nil rfl
      simp [validatePathLoop, hempty]
    · rw [joinSegments_cons,
        validatePathLoop_segment hs (hfree s List.mem_cons_self) b i (.inr ⟨_, rfl⟩),
        List.forall_mem_cons]
      simp only [List.cons.injEq, reduceCtorEq, false_or, true_and, exists_eq_left']
      rw [validatePathLoop_joinSegments segs s' hrest hlast' '/' 0]

end Scan

/-- The shape every path `ValidatePath` accepts has: the root, or a separator
followed by a text that does not end with one. -/
theorem validatePath_shape {path : GoString} (h : validatePath path = none) :
    path = pathSeparator ∨ ∃ r, path = '/' :: r ∧ r ≠ [] ∧ r.getLast? ≠ some '/' := by
  cases path with
  | nil => simp [validatePath] at h
  | cons c r =>
    have hc : c = '/' := by
      by_contra hc
      simp [validatePath, pathSeparator, List.isPrefixOf, Ne.symm hc] at h
    subst hc
    cases r with
    | nil => exact .inl rfl
    | cons d r =>
      refine .inr ⟨d :: r, rfl, List.cons_ne_nil d r, fun hlast => ?_⟩
      have hsuf : ['/'] <:+ '/' :: d :: r := by
        rw [List.singleton_suffix_iff_getLast?_eq_some, List.getLast?_cons_cons]
        exact hlast
      simp [validatePath, hsuf, pathSeparator, List.isPrefixOf] at h

/-- A path that starts with the separator, has more after it and does not end
with one is scanned from its second code point. -/
theorem validatePath_cons_sep {r : GoString} (hr : r ≠ []) (hlast : r.getLast? ≠ some '/') :
    validatePath ('/' :: r) = validatePathLoop '/' '/' 1 r := by
  obtain ⟨d, ds, rfl⟩ := List.exists_cons_of_ne_nil hr
  have hsuf : ¬ ['/'] <:+ '/' :: d :: ds := by
    rw [List.singleton_suffix_iff_getLast?_eq_some, List.getLast?_cons_cons]
    exact hlast
  simp [validatePath, pathSeparator, List.isPrefixOf, hsuf]

/-- `ValidatePath` accepts exactly the znode path grammar over the code points
its table allows. -/
theorem validatePath_eq_none_iff (p : GoString) :
    validatePath p = none ↔ ZnodePath goPathChar p := by
  constructor
  · intro h
    rcases validatePath_shape h with rfl | ⟨r, rfl, hr, hlast⟩
    · exact .inl rfl
    rw [validatePath_cons_sep hr hlast] at h
    obtain ⟨segs, hne, hfree, hjoin⟩ := exists_joinSegments '/' r
    obtain ⟨s, rest, rfl⟩ := List.exists_cons_of_ne_nil hne
    have hr' : r = s ++ joinSegments '/' rest := by simpa using hjoin
    have hlastSeg : (s :: rest).getLast? ≠ some [] := by
      intro hl
      obtain ⟨init, hinit⟩ : ∃ init, s :: rest = init ++ [[]] :=
        ⟨(s :: rest).dropLast, (List.dropLast_append_getLast? _ hl).symm⟩
      have hend : ('/' :: r).getLast? = some '/' := by
        rw [hjoin, hinit, joinSegments_concat]
        simp
      rw [List.getLast?_cons_of_ne_nil hr] at hend
      exact hlast hend
    rw [hr'] at h
    exact .inr ⟨s :: rest, hne,
      (validatePathLoop_joinSegments rest s hfree hlastSeg '/' 1).mp h, hjoin⟩
  · rintro (rfl | ⟨segs, hne, hnames, rfl⟩)
    · decide
    obtain ⟨s, rest, rfl⟩ := List.exists_cons_of_ne_nil hne
    have hfree : ∀ x ∈ s :: rest, '/' ∉ x := fun x hx => (hnames x hx).sep_not_mem
    have hlastSeg : (s :: rest).getLast? ≠ some [] := fun hl =>
      (hnames [] (List.mem_of_getLast? hl)).ne_nil rfl
    obtain ⟨hr, hlast⟩ := joinSegments_cons_shape hnames
    rw [joinSegments_cons, validatePath_cons_sep hr hlast]
    exact (validatePathLoop_joinSegments rest s hfree hlastSeg '/' 1).mpr hnames

/-- The converse fails at every code point of the astral planes: the table
allows it, and the server refuses its surrogates. -/
theorem validatePath_accepts_astral (c : Char) (hc : 0x10000 ≤ c.toNat) :
    validatePath ['/', c] = none ∧ ¬ ZnodePath serverPathChar ['/', c] := by
  have hsep : c ≠ '/' := fun h => by subst h; simp at hc
  have hdot : c ≠ '.' := fun h => by subst h; simp at hc
  have hok : goPathChar c := by
    simp only [goPathChar, invalidCharaters]
    simp only [Bool.or_eq_false_iff, Bool.and_eq_false_iff, decide_eq_false_iff_not]
    omega
  have hname : NodeName goPathChar [c] :=
    ⟨List.cons_ne_nil _ _, by simpa using Ne.symm hsep, by simpa using hdot, by simp,
      by simpa using hok⟩
  refine ⟨(validatePath_eq_none_iff _).mpr (.inr ⟨[[c]], by simp, by simpa using hname, rfl⟩),
    fun h => ?_⟩
  rcases h.mem (List.mem_cons_of_mem _ List.mem_cons_self) with h | h
  · exact hsep h
  · exact absurd h.2 (by omega)

theorem validatePath_accepts_U10000 :
    0x10000 ≤ (Char.ofNat 0x10000).toNat ∧ validatePath ['/', Char.ofNat 0x10000] = none ∧
      ¬ ZnodePath serverPathChar ['/', Char.ofNat 0x10000] :=
  ⟨by decide, validatePath_accepts_astral (Char.ofNat 0x10000) (by decide)⟩

end Curator
