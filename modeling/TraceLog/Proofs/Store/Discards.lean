import Mathlib.Algebra.Order.Group.Multiset
import TraceLog.Proofs.Store.Uses

/-!
# TraceLog.Proofs.Store.Discards

What is discarded over a run.

The oldest generation goes first, so a turn that fails later has discarded it
all the same, and the next turn discards another one.  But only a turn that
succeeds adds one.  So what is gone and the older generations that are left
come to those that were there and those that were added.

* `Generations.lost` — the contents that are in no generation any more;
* `Generations.Turned.lost_add_older` — the account of a turn;
* `Generations.discarded_add_older` — what is gone after a run, and what is
  left;
* `Generations.discarded_without_rotation` — turns that fail again and again
  cost all older generations.
-/

namespace TraceLog

namespace Generations

variable {g : Generations} {t t' : FileTree} {d d' : Disk} {stop k : Nat}
  {outcome : Except SystemFault Bool × Disk}

/-! ## Contents -/

/-- The contents of the generations, the active one first. -/
def contents (g : Generations) (t : FileTree) : List String :=
  (List.range g.count).filterMap (g.held t)

/-- How many generations there are besides the active one. -/
def older (g : Generations) (t : FileTree) : Nat :=
  ((List.range (g.count - 1)).filterMap fun k => g.held t (k + 1)).length

/-- How many contents are in no generation any more. -/
def lost (g : Generations) (t t' : FileTree) : Nat :=
  Multiset.card ((g.contents t : Multiset String) - (g.contents t' : Multiset String))

theorem filterMap_singleton {α β : Type} (f : α → Option β) (a : α) :
    [a].filterMap f = (f a).toList := by
  rw [List.filterMap_eq_flatMap_toList, List.flatMap_singleton]

theorem length_contents (g : Generations) (t : FileTree) :
    (g.contents t).length = (g.held t 0).toList.length + g.older t := by
  have hrange : List.range g.count = [0] ++ (List.range (g.count - 1)).map (· + 1) := by
    rw [List.singleton_append, ← List.range_succ_eq_map, Nat.sub_add_cancel g.count_pos]
  rw [contents, older, hrange, List.filterMap_append, List.length_append, filterMap_singleton,
    List.filterMap_map]
  rfl

theorem older_le (g : Generations) (t : FileTree) : g.older t ≤ g.count - 1 := by
  have hlength := List.length_filterMap_le (fun k => g.held t (k + 1)) (List.range (g.count - 1))
  rwa [List.length_range] at hlength

/-- What is lost is what is there besides what stays. -/
theorem lost_of_append {gone : List String} (h : g.contents t = g.contents t' ++ gone) :
    g.lost t t' = gone.length := by
  rw [lost, h, ← Multiset.coe_add, add_tsub_cancel_left, Multiset.coe_card]

/-- If all from `stop` on move on by one, the last one is lost. -/
theorem filterMap_slid {α : Type} (files : Nat → Option α) (stop more : Nat) :
    (List.range (stop + more + 1)).filterMap (slid stop files) ++ (files (stop + more)).toList =
      (List.range (stop + more + 1)).filterMap files := by
  induction more with
  | zero =>
      have hkept : (List.range stop).filterMap (slid stop files) =
          (List.range stop).filterMap files :=
        List.filterMap_congr fun k hk => slid_of_lt files (List.mem_range.1 hk)
      simp only [Nat.add_zero]
      rw [List.range_succ, List.filterMap_append, List.filterMap_append, hkept,
        filterMap_singleton, filterMap_singleton, slid_self, Option.toList_none, List.append_nil]
  | succ more ih =>
      rw [← Nat.add_assoc, List.range_succ, List.filterMap_append, List.filterMap_append,
        filterMap_singleton, filterMap_singleton, slid_succ files (by omega), ih]

/-- **Moving on costs the oldest generation at most.** -/
theorem MovedOn.exists_contents (hmoved : g.MovedOn stop t t') (hstop : stop ≤ g.count) :
    ∃ gone : Option String, g.contents t = g.contents t' ++ gone.toList := by
  have hcontents : g.contents t' = (List.range g.count).filterMap (slid stop (g.held t)) :=
    List.filterMap_congr fun k hk => hmoved.held_eq (List.mem_range.1 hk)
  rcases Nat.lt_or_eq_of_le hstop with hlt | rfl
  · obtain ⟨more, hcount⟩ := Nat.exists_eq_add_of_lt hlt
    refine ⟨g.held t (stop + more), ?_⟩
    rw [hcontents, contents, hcount]
    exact (filterMap_slid _ _ _).symm
  · refine ⟨none, ?_⟩
    rw [hcontents, Option.toList_none, List.append_nil]
    exact List.filterMap_congr fun k hk => (slid_of_lt _ (List.mem_range.1 hk)).symm

/-! ## The account of a use -/

/-- **The account of a turn.** -/
theorem Turned.lost_add_older (h : g.Turned stop d outcome) :
    g.lost d.tree outcome.2.tree + g.older outcome.2.tree =
      g.older d.tree + if outcome.1 = .ok true then 1 else 0 := by
  obtain ⟨gone, hgone⟩ := h.moved.exists_contents h.stop_le
  have hlost := lost_of_append hgone
  have hbefore := g.length_contents d.tree
  have hafter := g.length_contents outcome.2.tree
  have hlength := congrArg List.length hgone
  have hactive := h.moved.held_eq g.count_pos
  rw [List.length_append] at hlength
  by_cases hstop : stop = 0
  · obtain ⟨content, hcontent⟩ := Option.isSome_iff_exists.1 (h.active hstop)
    rw [if_pos (h.rotated_iff.2 hstop)]
    rw [hstop, slid_self] at hactive
    rw [hactive, Option.toList_none, List.length_nil] at hafter
    rw [hcontent, Option.toList_some, List.length_singleton] at hbefore
    omega
  · rw [if_neg (mt h.rotated_iff.1 hstop)]
    rw [slid_of_lt _ (Nat.pos_of_ne_zero hstop)] at hactive
    rw [hactive] at hafter
    omega

theorem Extended.older_eq (h : g.Extended t t') : g.older t' = g.older t := by
  rw [older, older]
  simp only [h.held_older (Nat.succ_ne_zero _)]

/-! ## Runs -/

/-- How many turns of a run have replaced the active file. -/
def rotations (g : Generations) (d : Disk) : List Use → Nat
  | [] => 0
  | use :: uses =>
    (if (g.turn d use).1 = .ok true then 1 else 0) + g.rotations (g.after d use) uses

/-- How many generations the turns of a run have discarded. -/
def discarded (g : Generations) (d : Disk) : List Use → Nat
  | [] => 0
  | use :: uses => g.lost d.tree (g.turn d use).2.tree + g.discarded (g.after d use) uses

/-- **The account of a run.** -/
theorem Orderly.account (h : g.Orderly d) (uses : List Use) :
    g.discarded d uses + g.older (uses.foldl g.after d).tree =
      g.older d.tree + g.rotations d uses := by
  induction uses generalizing d with
  | nil => simp [discarded, rotations]
  | cons use uses ih =>
      obtain ⟨stop, hturned⟩ := h.exists_turned use
      have hturn := hturned.lost_add_older
      have hrest := ih (h.after use)
      rw [(g.extended_after d use).older_eq] at hrest
      rw [discarded, rotations, List.foldl_cons]
      omega

/-- What a use costs: its turn discards one generation at most, and has left
the active file alone unless it has succeeded; what follows loses nothing. -/
structure Spares (g : Generations) (d : Disk) (use : Use) : Prop where
  lost_le_one : g.lost d.tree (g.turn d use).2.tree ≤ 1
  active_kept : (g.turn d use).1 ≠ .ok true →
    g.held (g.turn d use).2.tree 0 = g.held d.tree 0
  exists_held : ∀ k content, g.held (g.turn d use).2.tree k = some content →
    ∃ more, g.held (g.after d use).tree k = some (content ++ more)

theorem Orderly.spares (h : g.Orderly d) (use : Use) : g.Spares d use := by
  obtain ⟨stop, hturned⟩ := h.exists_turned use
  refine ⟨?_, fun hfailed => ?_, fun k content => (g.extended_after d use).exists_held⟩
  · obtain ⟨gone, hgone⟩ := hturned.moved.exists_contents hturned.stop_le
    rw [lost_of_append hgone]
    exact Option.length_toList_le
  · have hstop := mt hturned.rotated_iff.2 hfailed
    rw [hturned.moved.held_eq g.count_pos, slid_of_lt _ (Nat.pos_of_ne_zero hstop)]

/-- **What is gone after a run.**  Let the generations be files or missing, in
any pattern, and let any call but those for a length fail by itself.  After any
uses of the generations, those that were discarded and the older ones that are
left come to the older ones that were there and the turns that succeeded.  So
what the failed turns cost is never more than the older generations that were
there; each of them costs one at most, and never the active file. -/
theorem discarded_add_older (hgrounded : d.tree.Grounded)
    (hplain : ∀ k, k < g.count → g.Plain d.tree k) (hsight : d.Sighted) (uses : List Use) :
    g.discarded d uses + g.older (uses.foldl g.after d).tree =
        g.older d.tree + g.rotations d uses ∧
      g.discarded d uses ≤ g.rotations d uses + g.older d.tree ∧ g.older d.tree ≤ g.count - 1 ∧
      ∀ before use rest, uses = before ++ use :: rest →
        g.Spares (before.foldl g.after d) use := by
  have horderly : g.Orderly d := ⟨hgrounded, hplain, hsight⟩
  have haccount := horderly.account uses
  refine ⟨haccount, by omega, g.older_le d.tree, ?_⟩
  rintro before use rest -
  exact (horderly.foldl_after before).spares use

/-- The active file of three cannot be renamed, and two batches are written: the
first turn discards the oldest generation, the second one the other. -/
theorem discarded_add_older_of_two_writes :
    let g : Generations := ⟨"t.log", 3, ⟨0⟩, by decide⟩
    let tree : FileTree := ⟨[(["t.log"], .file "a\n"), (["t.log.1"], .file "b\n"),
      (["t.log.2"], .file "c\n")], [], 4096⟩
    let d : Disk := ⟨tree, 0, fun _ c =>
      if c = .rename (Path.route "t.log") (Path.route "t.log.1") then some .denied else none⟩
    let uses : List Use := [.write ["x"], .write ["y"]]
    d.tree.Grounded ∧ (∀ k, k < g.count → g.Plain d.tree k) ∧ d.Sighted ∧
      g.rotations d uses = 0 ∧ g.older d.tree = 2 ∧ g.discarded d uses ≤ 2 ∧
      g.discarded d uses + g.older (uses.foldl g.after d).tree = 2 := by
  intro g tree d uses
  have hgrounded : d.tree.Grounded := by decide +kernel
  have hplain : ∀ k, k < g.count → g.Plain d.tree k := by decide +kernel
  have hsight : d.Sighted := fun _ _ => rfl
  have hrotations : g.rotations d uses = 0 := by decide +kernel
  have holder : g.older d.tree = 2 := by decide +kernel
  obtain ⟨haccount, hbound, -⟩ := discarded_add_older hgrounded hplain hsight uses
  rw [hrotations, holder] at haccount hbound
  exact ⟨hgrounded, hplain, hsight, hrotations, holder, hbound, haccount⟩

/-- **Turns that fail may discard more than one generation.**  No turn succeeds
here, and both older generations are gone; the active file has both batches. -/
theorem discarded_without_rotation :
    let g : Generations := ⟨"t.log", 3, ⟨0⟩, by decide⟩
    let tree : FileTree := ⟨[(["t.log"], .file "a\n"), (["t.log.1"], .file "b\n"),
      (["t.log.2"], .file "c\n")], [], 4096⟩
    let d : Disk := ⟨tree, 0, fun _ c =>
      if c = .rename (Path.route "t.log") (Path.route "t.log.1") then some .denied else none⟩
    let uses : List Use := [.write ["x"], .write ["y"]]
    d.tree.Grounded ∧ (∀ k, k < g.count → g.Plain d.tree k) ∧ d.Sighted ∧
      g.rotations d uses = 0 ∧ g.discarded d uses = 2 ∧
      g.contents (uses.foldl g.after d).tree = ["a\nx\ny\n"] :=
  ⟨by decide +kernel, by decide +kernel, fun _ _ => rfl, by decide +kernel, by decide +kernel,
    by decide +kernel⟩

end Generations

end TraceLog
