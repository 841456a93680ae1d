import DataClasses.Files.Tree

/-!
# What has been written can be read
-/

set_option autoImplicit false

namespace DataClasses.Files

variable {content : Content} {asFolder : Bool}

/-- A file stands where it was put, and it is not put where only a folder can be. -/
theorem find_of_place {names : List String} {files after : Files}
    (h : place content asFolder files names = .ok after) :
    find after names = .ok (.file content) ∧ asFolder = false := by
  induction names generalizing files after with
  | nil => simp [place] at h
  | cons name rest ih =>
    cases rest with
    | nil =>
      rw [place] at h
      split at h
      · contradiction
      · cases asFolder with
        | true => simp at h
        | false =>
          simp only [Bool.false_eq_true, if_false, Except.ok.injEq] at h
          simp [find, ← h, Entries.get?_put]
    | cons next rest =>
      simp only [place] at h
      split at h
      · contradiction
      · contradiction
      · next entries hget =>
        cases hsub : place content asFolder entries (next :: rest) with
        | error fault => simp [hsub, Except.map] at h
        | ok sub =>
          simp only [hsub, Except.map, Except.ok.injEq] at h
          obtain ⟨hfind, hfile⟩ := ih hsub
          refine ⟨?_, hfile⟩
          rw [← h, find, Entries.get?_put, if_pos rfl]
          exact hfind

theorem read_of_write {files after : Files} {path : String} (h : files.write path content = .ok after) :
    after.read path = .ok content := by
  rw [write] at h
  split at h
  · contradiction
  · next hpath =>
    simp only at h
    split at h
    · contradiction
    · obtain ⟨hfind, hfile⟩ := find_of_place h
      simp [read, hpath, hfind, hfile]

theorem read_of_writeDeep {files after : Files} {path : String}
    (h : files.writeDeep path content = (.ok (), after)) : after.read path = .ok content := by
  rw [writeDeep] at h
  split at h
  · simp at h
  · split at h
    · simp at h
    · next hwrite =>
      obtain rfl := (Prod.mk.inj h).2
      exact read_of_write hwrite

end DataClasses.Files
