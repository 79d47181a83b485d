import TraceLog.Proofs.Store.Grounded

/-!
# TraceLog.Proofs.Store.Relocation

Entries that get a new name in the directory that they are in.

Everything inside such an entry moves with it, and nothing else does.  So a
walk gets where it got, unless it enters by the old name.

* `Path.entered` — the places that names lead into;
* `FileTree.Grounded.node?_relocate` — what stood somewhere stands where that
  has moved to;
* `FileTree.Grounded.move` — everything still stands in a directory;
* `FileTree.Grounded.walk_move` — a walk that does not enter by the old name.
-/

namespace TraceLog

/-- The places that names lead into; a way up leads into none. -/
def Path.entered (place : Place) : List String → List Place
  | [] => []
  | name :: rest =>
    if name = "." then entered place rest
    else if name = ".." then entered place.tail rest
    else (name :: place) :: entered (name :: place) rest

namespace FileTree

variable {t : FileTree} {a b name : String} {dir place p q : Place} {names : List String}

/-! ## Where a new name takes a place -/

theorem relocate_nil (new : Place) : relocate (a :: dir) new [] = [] :=
  relocate_of_not_inside _ (by simp [inside])

/-- What is in the directory of an entry stays there when the entry moves. -/
theorem relocate_tail (a b : String) (dir q : Place) :
    relocate (a :: dir) (b :: dir) q.tail = (relocate (a :: dir) (b :: dir) q).tail := by
  by_cases hinside : inside (a :: dir) q = true
  · obtain ⟨above, rfl⟩ := List.isSuffixOf_iff_suffix.1 hinside
    cases above with
    | nil =>
        have houtside : ¬inside (a :: dir) dir = true := by
          intro hin
          have hlength := (List.isSuffixOf_iff_suffix.1 hin).length_le
          rw [List.length_cons] at hlength
          omega
        have hmoved := relocate_append [] (a :: dir) (b :: dir)
        rw [List.nil_append, List.nil_append] at hmoved
        rw [List.nil_append, hmoved, List.tail_cons, List.tail_cons,
          relocate_of_not_inside _ houtside]
    | cons inner above =>
        rw [relocate_append, List.cons_append, List.tail_cons, relocate_append, List.cons_append,
          List.tail_cons]
  · have houtside : ¬inside (a :: dir) q.tail = true := by
      intro hin
      exact hinside (List.isSuffixOf_iff_suffix.2
        ((List.isSuffixOf_iff_suffix.1 hin).trans (List.tail_suffix q)))
    rw [relocate_of_not_inside _ hinside, relocate_of_not_inside _ houtside]

/-- Other names in a directory that moves are as before. -/
theorem relocate_cons {old new : Place} (hne : old ≠ name :: q) :
    relocate old new (name :: q) = name :: relocate old new q := by
  by_cases hinside : inside old q = true
  · obtain ⟨above, rfl⟩ := List.isSuffixOf_iff_suffix.1 hinside
    rw [← List.cons_append, relocate_append, relocate_append, List.cons_append]
  · have houtside : ¬inside old (name :: q) = true := by
      intro hin
      rcases List.suffix_cons_iff.1 (List.isSuffixOf_iff_suffix.1 hin) with hsame | hsuffix
      · exact hne hsame
      · exact hinside (List.isSuffixOf_iff_suffix.2 hsuffix)
    rw [relocate_of_not_inside _ hinside, relocate_of_not_inside _ houtside]

/-- No two places outside the new one get to the same place. -/
theorem relocate_injective {old new : Place} (hp : ¬inside new p = true)
    (hq : ¬inside new q = true) (h : relocate old new p = relocate old new q) : p = q := by
  by_cases hpold : inside old p = true
  · by_cases hqold : inside old q = true
    · obtain ⟨above, rfl⟩ := List.isSuffixOf_iff_suffix.1 hpold
      obtain ⟨above', rfl⟩ := List.isSuffixOf_iff_suffix.1 hqold
      rw [relocate_append, relocate_append, List.append_cancel_right_eq] at h
      rw [h]
    · have hin := inside_relocate new hpold
      rw [h, relocate_of_not_inside _ hqold] at hin
      exact absurd hin hq
  · rw [relocate_of_not_inside _ hpold] at h
    by_cases hqold : inside old q = true
    · exact absurd (h ▸ inside_relocate new hqold) hp
    · rw [relocate_of_not_inside _ hqold] at h
      exact h

/-! ## What stands where -/

theorem find?_map {nodes : List (Place × Node)} {f : Place → Place}
    (h : ∀ entry ∈ nodes, f entry.1 = f q → entry.1 = q) :
    find? (nodes.map fun entry => (f entry.1, entry.2)) (f q) = find? nodes q := by
  induction nodes with
  | nil => rfl
  | cons entry rest ih =>
      have hrest := ih fun other hother => h other (List.mem_cons_of_mem _ hother)
      have hfirst : f q = f entry.1 ↔ q = entry.1 :=
        ⟨fun heq => (h entry List.mem_cons_self heq.symm).symm, congrArg f⟩
      rw [List.map_cons, find?, find?, hrest]
      simp only [hfirst]

/-- Nothing is inside a place where nothing stands. -/
theorem Grounded.not_inside_of_mem (h : t.Grounded) (hfree : t.node? place = none)
    {entry : Place × Node} (hentry : entry ∈ t.nodes) : ¬inside place entry.1 = true := by
  intro hinside
  have hnone : t.node? entry.1 = none := by
    by_cases hsame : entry.1 = place
    · exact hsame ▸ hfree
    · exact h.bare (by simp [hfree]) _ hinside hsame
  exact ne_of_node?_eq_none hnone entry hentry rfl

/-- **What stood somewhere** stands where that has moved to. -/
theorem Grounded.node?_relocate (h : t.Grounded) (hfree : t.node? (b :: dir) = none) {node : Node}
    (hq : t.node? q = some node) :
    (t.move (a :: dir) (b :: dir)).node? (relocate (a :: dir) (b :: dir) q) = some node := by
  by_cases hroot : q = []
  · rw [hroot, relocate_nil]
    rwa [hroot] at hq
  · rw [node?, if_neg hroot] at hq
    have hlisted := mem_of_find?_eq_some hq
    have hmoved : relocate (a :: dir) (b :: dir) q ≠ [] := by
      rw [relocate]
      split
      · simp
      · exact hroot
    have hkept : (t.erase (b :: dir)).nodes = t.nodes := by
      refine List.filter_eq_self.2 fun entry hentry => ?_
      simpa using ne_of_node?_eq_none hfree entry hentry
    rw [node?, if_neg hmoved, move, hkept, ← hq]
    refine find?_map fun entry hentry heq => ?_
    exact relocate_injective (h.not_inside_of_mem hfree hentry) (h.not_inside_of_mem hfree hlisted)
      heq

/-- **Everything stands in a directory** after an entry got a new name. -/
theorem Grounded.move (h : t.Grounded) (hfree : t.node? (b :: dir) = none) :
    (t.move (a :: dir) (b :: dir)).Grounded := by
  refine ⟨fun moved hmoved => ?_, h.node?_relocate hfree h.2⟩
  obtain ⟨entry, hentry, rfl⟩ := List.mem_map.1 hmoved
  dsimp only
  rw [← relocate_tail]
  exact h.node?_relocate hfree (h.1 entry (List.mem_filter.1 hentry).1)

/-! ## Walks -/

/-- Names that do not lead in by the old name lead where they did. -/
theorem entered_relocate (hold : a :: dir ∉ Path.entered p names) :
    Path.entered (relocate (a :: dir) (b :: dir) p) names =
      (Path.entered p names).map (relocate (a :: dir) (b :: dir)) := by
  induction names generalizing p with
  | nil => rfl
  | cons name rest ih =>
      rw [Path.entered] at hold
      rw [Path.entered, Path.entered]
      by_cases hhere : name = "."
      · rw [if_pos hhere] at hold ⊢
        rw [if_pos hhere, ih hold]
      · rw [if_neg hhere] at hold ⊢
        by_cases habove : name = ".."
        · rw [if_pos habove] at hold ⊢
          rw [if_neg hhere, if_pos habove, ← relocate_tail, ih hold]
        · rw [if_neg habove, List.mem_cons, not_or] at hold
          rw [if_neg habove, if_neg hhere, if_neg habove, List.map_cons, ← ih hold.2,
            relocate_cons hold.1]

/-- **A walk gets where it got** after an entry got a new name, unless it
enters by the old one. -/
theorem Grounded.walk_move (h : t.Grounded) (hfree : t.node? (b :: dir) = none)
    (hold : a :: dir ∉ Path.entered p names) (hwalk : t.walk p names = .ok q) :
    (t.move (a :: dir) (b :: dir)).walk (relocate (a :: dir) (b :: dir) p) names =
      .ok (relocate (a :: dir) (b :: dir) q) := by
  induction names generalizing p with
  | nil =>
      rw [walk, Except.ok.injEq] at hwalk
      rw [walk, hwalk]
  | cons name rest ih =>
      rw [Path.entered] at hold
      by_cases hhere : name = "."
      · rw [if_pos hhere] at hold
        rw [walk, if_pos hhere] at hwalk ⊢
        exact ih hold hwalk
      · rw [if_neg hhere] at hold
        by_cases habove : name = ".."
        · rw [if_pos habove] at hold
          rw [walk, if_neg hhere, if_pos habove] at hwalk ⊢
          rw [← relocate_tail]
          exact ih hold hwalk
        · rw [if_neg habove, List.mem_cons, not_or] at hold
          rw [walk_cons_eq_ok_iff hhere habove] at hwalk ⊢
          obtain ⟨hsize, hnode, hrest⟩ := hwalk
          have hnode' := h.node?_relocate (a := a) hfree hnode
          have hrest' := ih hold.2 hrest
          rw [relocate_cons hold.1] at hnode' hrest'
          exact ⟨hsize, hnode', hrest'⟩

end FileTree

end TraceLog
