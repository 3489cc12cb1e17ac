import Mathlib.Data.List.Basic

/-!
# Separated segments

A sequence written as segments, each after one separator,
`sep s₁ sep s₂ ⋯ sep sₖ`: the shape of an absolute slash-separated path.
Every list that follows a separator has this shape with separator-free
segments (`exists_joinSegments`), and its last element is the separator
exactly when its last segment is empty.
-/

namespace ListSegments

variable {α : Type*}

/-- The segments `segs`, each written after one `sep`. -/
def joinSegments (sep : α) (segs : List (List α)) : List α :=
  segs.flatMap (sep :: ·)

variable (sep : α)

@[simp] theorem joinSegments_nil : joinSegments sep [] = [] := rfl

@[simp] theorem joinSegments_cons (s : List α) (segs : List (List α)) :
    joinSegments sep (s :: segs) = sep :: (s ++ joinSegments sep segs) := by
  simp [joinSegments]

theorem joinSegments_append (a b : List (List α)) :
    joinSegments sep (a ++ b) = joinSegments sep a ++ joinSegments sep b := by
  simp [joinSegments]

theorem joinSegments_concat (segs : List (List α)) (s : List α) :
    joinSegments sep (segs ++ [s]) = joinSegments sep segs ++ sep :: s := by
  simp [joinSegments_append]

theorem joinSegments_ne_nil {segs : List (List α)} (h : segs ≠ []) :
    joinSegments sep segs ≠ [] := by
  obtain ⟨s, rest, rfl⟩ := List.exists_cons_of_ne_nil h
  simp

/-- What a joined sequence holds: the separator, when there is a segment, and
the elements of its segments. -/
theorem mem_joinSegments {segs : List (List α)} {x : α} :
    x ∈ joinSegments sep segs ↔ (x = sep ∧ segs ≠ []) ∨ ∃ s ∈ segs, x ∈ s := by
  simp only [joinSegments, List.mem_flatMap, List.mem_cons]
  constructor
  · rintro ⟨s, hs, rfl | hx⟩
    · exact .inl ⟨rfl, List.ne_nil_of_mem hs⟩
    · exact .inr ⟨s, hs, hx⟩
  · rintro (⟨rfl, hne⟩ | ⟨s, hs, hx⟩)
    · obtain ⟨s, rest, rfl⟩ := List.exists_cons_of_ne_nil hne
      exact ⟨s, List.mem_cons_self, .inl rfl⟩
    · exact ⟨s, hs, .inr hx⟩

/-- A sequence whose last segment is not empty ends in that segment's last
element. -/
theorem getLast?_joinSegments_concat (segs : List (List α)) {s : List α} (hs : s ≠ []) :
    (joinSegments sep (segs ++ [s])).getLast? = s.getLast? := by
  obtain ⟨c, cs, rfl⟩ := List.exists_cons_of_ne_nil hs
  rw [joinSegments_concat, List.getLast?_append_of_ne_nil _ (List.cons_ne_nil _ _),
    List.getLast?_cons_cons]

/-- A prefix that a separator ends, of a list whose last stretch after a
separator holds none, ends at that separator or before it. -/
theorem sep_prefix_of_prefix_cons {a b c : List α} (h : b ++ [sep] <+: a ++ sep :: c)
    (hc : sep ∉ c) : b ++ [sep] <+: a ++ [sep] := by
  have ha : a ++ [sep] <+: a ++ sep :: c := by simp
  rcases List.prefix_or_prefix_of_prefix h ha with h' | ⟨u, hu⟩
  · exact h'
  · have hu' : u <+: c := by
      have h'' : a ++ [sep] ++ u <+: a ++ [sep] ++ c := by simpa [hu] using h
      exact (List.prefix_append_right_inj (a ++ [sep])).mp h''
    rcases List.eq_nil_or_concat u with rfl | ⟨u', x, rfl⟩
    · have hba : b ++ [sep] = a ++ [sep] := by simpa using hu.symm
      simp [hba]
    · rw [List.concat_eq_append] at hu hu'
      have hx : x = sep := by
        have hlast := congrArg List.getLast? hu
        rw [← List.append_assoc, List.getLast?_concat, List.getLast?_concat] at hlast
        exact Option.some.inj hlast
      exact absurd (hu'.subset (by simp [hx])) hc

variable [DecidableEq α]

/-- Whatever follows a separator is a sequence of separator-free segments. -/
theorem exists_joinSegments (r : List α) :
    ∃ segs, segs ≠ [] ∧ (∀ s ∈ segs, sep ∉ s) ∧ sep :: r = joinSegments sep segs := by
  induction r with
  | nil => exact ⟨[[]], by simp, by simp, by simp⟩
  | cons c r ih =>
    obtain ⟨segs, hne, hfree, hr⟩ := ih
    by_cases hc : c = sep
    · subst hc
      refine ⟨[] :: segs, by simp, ?_, by simp [← hr]⟩
      intro s hs
      rcases List.mem_cons.mp hs with rfl | hs
      · simp
      · exact hfree s hs
    · obtain ⟨s, rest, rfl⟩ := List.exists_cons_of_ne_nil hne
      have hr' : r = s ++ joinSegments sep rest := by
        simpa using hr
      refine ⟨(c :: s) :: rest, by simp, ?_, by simp [hr']⟩
      intro t ht
      rcases List.mem_cons.mp ht with rfl | ht
      · simp only [List.mem_cons, not_or]
        exact ⟨Ne.symm hc, hfree s List.mem_cons_self⟩
      · exact hfree t (List.mem_cons_of_mem s ht)

/-- A list that holds the separator splits at its first occurrence. -/
theorem exists_append_sep_of_mem {l : List α} (h : sep ∈ l) :
    ∃ a b, l = a ++ sep :: b ∧ sep ∉ a := by
  induction l with
  | nil => cases h
  | cons c l ih =>
    by_cases hc : c = sep
    · exact ⟨[], l, by simp [hc], by simp⟩
    · obtain ⟨a, b, rfl, ha⟩ := ih (by simpa [Ne.symm hc] using h)
      exact ⟨c :: a, b, rfl, by simp [Ne.symm hc, ha]⟩

/-! ### The prefixes before a separator

The prefixes of a list that a separator follows, shortest first: for an
absolute path, the empty prefix for the root's separator and then every
proper ancestor below the root. -/

/-- The prefixes of a list that stand right before a separator, shortest
first. -/
def prefixesBefore : List α → List (List α)
  | [] => []
  | c :: rest => (if c = sep then [[]] else []) ++ (prefixesBefore rest).map (c :: ·)

@[simp] theorem prefixesBefore_nil : prefixesBefore sep [] = [] := rfl

theorem prefixesBefore_cons (c : α) (rest : List α) :
    prefixesBefore sep (c :: rest) =
      (if c = sep then [[]] else []) ++ (prefixesBefore sep rest).map (c :: ·) := rfl

theorem prefixesBefore_of_not_mem {l : List α} (h : sep ∉ l) : prefixesBefore sep l = [] := by
  induction l with
  | nil => rfl
  | cons c l ih =>
    have hc : c ≠ sep := fun hc => h (hc ▸ List.mem_cons_self)
    rw [prefixesBefore_cons, if_neg hc, ih (fun hl => h (List.mem_cons_of_mem c hl))]
    rfl

/-- The first prefix is the text before the first separator; the others
continue after it. -/
theorem prefixesBefore_append_sep {a : List α} (ha : sep ∉ a) (b : List α) :
    prefixesBefore sep (a ++ sep :: b) = a :: (prefixesBefore sep b).map (a ++ sep :: ·) := by
  induction a with
  | nil => simp [prefixesBefore_cons]
  | cons c a ih =>
    have hc : c ≠ sep := fun hc => ha (hc ▸ List.mem_cons_self)
    rw [List.cons_append, prefixesBefore_cons, if_neg hc,
      ih (fun h => ha (List.mem_cons_of_mem c h))]
    simp [Function.comp_def]

theorem length_prefixesBefore_le (l : List α) : (prefixesBefore sep l).length ≤ l.length := by
  induction l with
  | nil => simp
  | cons c l ih =>
    rw [prefixesBefore_cons, List.length_append, List.length_map, List.length_cons]
    split <;> simp <;> omega

/-- A prefix is listed exactly when the separator follows it. -/
theorem mem_prefixesBefore {q l : List α} : q ∈ prefixesBefore sep l ↔ q ++ [sep] <+: l := by
  induction l generalizing q with
  | nil => simp
  | cons c l ih =>
    rw [prefixesBefore_cons, List.mem_append, List.mem_map]
    cases q with
    | nil =>
      by_cases hc : c = sep
      · simp [hc]
      · simp [hc, Ne.symm hc]
    | cons d q =>
      have hif : d :: q ∉ (if c = sep then [[]] else []) := by split <;> simp
      simp only [hif, false_or, List.cons_append, List.cons_prefix_cons, ← ih]
      constructor
      · rintro ⟨q', hq', hq⟩
        obtain ⟨rfl, rfl⟩ := List.cons.inj hq
        exact ⟨rfl, hq'⟩
      · rintro ⟨rfl, hq⟩
        exact ⟨q, hq, rfl⟩

/-- The prefixes are listed by increasing length. -/
theorem pairwise_length_prefixesBefore (l : List α) :
    (prefixesBefore sep l).Pairwise (fun a b => a.length < b.length) := by
  induction l with
  | nil => simp
  | cons c l ih =>
    have hmap : ((prefixesBefore sep l).map (c :: ·)).Pairwise
        (fun a b => a.length < b.length) := by
      rw [List.pairwise_map]
      exact ih.imp fun h => by simpa using h
    rw [prefixesBefore_cons]
    split
    · refine List.pairwise_append.mpr ⟨by simp, hmap, ?_⟩
      intro a ha b hb
      obtain ⟨b', -, rfl⟩ := List.mem_map.mp hb
      simp [List.mem_singleton.mp ha]
    · simpa using hmap

theorem length_lt_of_mem_prefixesBefore {q l : List α} (h : q ∈ prefixesBefore sep l) :
    q.length < l.length := by
  have hle := ((mem_prefixesBefore sep).mp h).length_le
  simp only [List.length_append, List.length_singleton] at hle
  omega

end ListSegments
