import Schematic.Files

/-! What a write leaves to be found. It changes one place, which is no directory, so every path
leads to where it led before. -/

namespace Schematic.Files

variable {f f' : Files} {place other : List Text} {content : FileContent} {p : FilePath}
  {text : String}

theorem lookup_erased (entries : List (List Text × FileContent)) (h : (other == place) = false) :
    (entries.filter fun e => e.1 != place).lookup other = entries.lookup other := by
  induction entries with
  | nil => rfl
  | cons e entries ih =>
    obtain ⟨k, c⟩ := e
    by_cases same : k = place
    · subst same
      simpa [List.lookup_cons, h] using ih
    · simp only [List.filter_cons, bne_iff_ne, ne_eq, same, not_false_eq_true, if_true,
        List.lookup_cons, ih]

theorem at?_set_same (h : isBase place = false) :
    (f.set place content).at? place = some content := by
  simp [at?, h, set]

theorem at?_set_of_ne (h : other ≠ place) : (f.set place content).at? other = f.at? other := by
  have apart : (other == place) = false := beq_eq_false_iff_ne.mpr h
  simp only [at?, set, List.lookup_cons, apart, lookup_erased f.entries apart]

theorem walk_set (new : f.at? place ≠ some .directory) (origin steps : List Text)
    (done : f.walk origin steps = .ok other) :
    (f.set place content).walk origin steps = .ok other := by
  induction steps generalizing origin with
  | nil => exact done
  | cons step steps ih =>
    rw [walk] at done ⊢
    by_cases here : origin = place
    · -- a walk goes on from directories only
      subst here
      split at done
      · cases done
      · next found => exact absurd found new
      · cases done
    · rw [at?_set_of_ne here]
      split at done
      · cases done
      · split at done
        · cases done
        · next short =>
          rw [if_neg short]
          exact ih _ done
      · cases done

theorem exists_of_write (written : f.write p text = .ok f') : ∃ place, f.locate p = .ok place ∧
    f.at? place ≠ some .directory ∧ f' = f.set place (.text text) := by
  unfold write at written
  split at written
  · cases written
  · split at written
    · cases written
    · next place located =>
      split at written
      · cases written
      · next other => exact ⟨place, located, other, (Except.ok.inj written).symm⟩

/-- Where a path leads after a write to it: to where it led before, and there to the text. -/
theorem locate_written (written : f.write p text = .ok f') : ∃ place, f.locate p = .ok place ∧
    f'.locate p = .ok place ∧ f'.at? place = some (.text text) ∧
      ∀ other, other ≠ place → f'.at? other = f.at? other := by
  obtain ⟨place, located, new, rfl⟩ := exists_of_write written
  have free : isBase place = false := Bool.eq_false_iff.mpr fun base => new (if_pos base)
  refine ⟨place, located, ?_, at?_set_same free, fun other apart => at?_set_of_ne apart⟩
  unfold locate at located ⊢
  split at located
  · cases located
  · next short =>
    rw [if_neg short]
    exact walk_set new _ _ located

theorem find_of_write (written : f.write p text = .ok f') : f'.find p = .ok (.text text) := by
  obtain ⟨place, -, again, found, -⟩ := locate_written written
  simp [find, again, contentAt, found]

/-- A write that is cut off changes the file at the place that the path leads to, too. -/
theorem locate_cut (written : f.write p text = .ok f') (kept : Nat) :
    ∃ place, f.locate p = .ok place ∧
      ∀ other, other ≠ place → (f'.cut p kept).at? other = f.at? other := by
  obtain ⟨place, located, again, found, elsewhere⟩ := locate_written written
  refine ⟨place, located, fun other apart => ?_⟩
  simp only [cut, again, found]
  rw [at?_set_of_ne apart, elsewhere other apart]

/-- What stands in the way of writes does so after a write as before. -/
theorem obstacle_of_write (written : f.write p text = .ok f') : f'.obstacle = f.obstacle := by
  obtain ⟨place, -, -, rfl⟩ := exists_of_write written
  rfl

end Schematic.Files
