import Appraisal.FileStore
import Appraisal.Number.Numeral
import Mathlib.Data.List.Basic

/-! Files that are written and deleted. The entries of a store are a tree (`IsTree`), and stay one: directories are made
    one below another, and a file is put where there is no directory. In a tree a path that leads through directories
    goes on doing so when directories are added (`IsTree.walk_of_more`). So a file that was written is found at its path
    with its bytes (`entry_write`), one that was deleted is not found (`entry_delete`), and every other is found as
    before (`entry_write_other`, `entry_delete_other`). -/

namespace Appraisal.FileStore

/-- Every file and every directory but the root stands in a directory, and none is both. -/
structure IsTree (s : FileStore) : Prop where
  apart : ∀ {place}, s.isDirectory place = true → s.file? place = none
  above : ∀ {place part}, s.isDirectory (place ++ [part]) = true → s.isDirectory place = true
  aboveFile : ∀ {place part}, (s.file? (place ++ [part])).isSome = true → s.isDirectory place = true

variable {s t : FileStore} {p q : Path} {place last : List String} {name part : String} {parts more : List String}
  {bytes : List UInt8}

theorem isDirectory_iff : s.isDirectory place = true ↔ place <+: s.working ∨ place ∈ s.directories := by
  simp [isDirectory]

theorem isTree_empty (working : List String) : (empty working).IsTree where
  apart _ := rfl
  above {place part} h := by
    have hprefix : place ++ [part] <+: working := by simpa [empty] using isDirectory_iff.1 h
    exact isDirectory_iff.2 (.inl ((List.prefix_append place [part]).trans hprefix))
  aboveFile h := by cases h

theorem IsTree.dropLast (h : s.IsTree) (hplace : s.isDirectory place = true) : s.isDirectory place.dropLast = true := by
  rcases List.eq_nil_or_concat place with rfl | ⟨above, part, rfl⟩
  · exact hplace
  · rw [List.concat_eq_append] at hplace ⊢
    rw [List.dropLast_concat]
    exact h.above hplace

/-! ### Looking up -/

theorem walk_cons_eq_ok_iff : s.walk place (part :: parts) = .ok last ↔
    s.file? place = none ∧ s.isDirectory place = true ∧ (part = ".." ∧ s.walk place.dropLast parts = .ok last ∨
      part ≠ ".." ∧ part.utf8ByteSize ≤ Path.partLimit ∧ s.walk (place ++ [part]) parts = .ok last) := by
  rw [walk]
  cases hfile : s.file? place with
  | some bytes => simp
  | none =>
    by_cases hplace : s.isDirectory place = true
    · by_cases hup : part = ".."
      · simp [hplace, hup]
      · by_cases hlong : Path.partLimit < part.utf8ByteSize
        · simp [hplace, hup, hlong, Nat.not_le.2 hlong]
        · simp [hplace, hup, hlong, Nat.not_lt.1 hlong]
    · simp [hplace]

/-- A path leads to the same place when there are more directories. -/
theorem IsTree.walk_of_more (ht : t.IsTree)
    (hmore : ∀ {place}, s.isDirectory place = true → t.isDirectory place = true)
    (h : s.walk place parts = .ok last) : t.walk place parts = .ok last := by
  induction parts generalizing place with
  | nil => exact h
  | cons part rest ih =>
    obtain ⟨-, hplace, hrest⟩ := walk_cons_eq_ok_iff.1 h
    refine walk_cons_eq_ok_iff.2 ⟨ht.apart (hmore hplace), hmore hplace, ?_⟩
    exact hrest.imp (And.imp_right ih) (And.imp_right (And.imp_right ih))

/-- The same from where the path begins. -/
theorem IsTree.walk_start_of_more (ht : t.IsTree) (hworking : t.working = s.working)
    (hmore : ∀ {place}, s.isDirectory place = true → t.isDirectory place = true)
    (h : s.walk (s.start p) p.parts = .ok last) : t.walk (t.start p) p.parts = .ok last := by
  have hstart : t.start p = s.start p := by rw [start, start, hworking]
  rw [hstart]
  exact ht.walk_of_more hmore h

theorem walk_append {mid : List String} (h : s.walk place parts = .ok mid) (hmore : s.walk mid more = .ok last) :
    s.walk place (parts ++ more) = .ok last := by
  induction parts generalizing place with
  | nil =>
    cases h
    exact hmore
  | cons part rest ih =>
    obtain ⟨hfile, hplace, hrest⟩ := walk_cons_eq_ok_iff.1 h
    exact walk_cons_eq_ok_iff.2 ⟨hfile, hplace, hrest.imp (And.imp_right ih) (And.imp_right (And.imp_right ih))⟩

theorem entryAt_eq_file_iff : s.entryAt place = .ok (.file bytes) ↔ s.file? place = some bytes := by
  unfold entryAt
  cases s.file? place with
  | some content => simp
  | none => cases hplace : s.isDirectory place <;> simp

theorem entry_eq_file_iff : s.entry p = .ok (.file bytes) ↔
    pathFault? p = none ∧ ∃ place, s.walk (s.start p) p.parts = .ok place ∧ s.file? place = some bytes := by
  unfold entry
  cases hfault : pathFault? p with
  | some f => simp
  | none => cases s.walk (s.start p) p.parts <;> simp [Except.bind, entryAt_eq_file_iff]

/-! ### Making directories -/

/-- What making directories leads to: a tree with the same files, in which the parts lead to a directory. -/
structure Made (s : FileStore) (place parts : List String) (t : FileStore) (last : List String) : Prop where
  isTree : t.IsTree
  files : t.files = s.files
  working : t.working = s.working
  more : ∀ {place}, s.isDirectory place = true → t.isDirectory place = true
  walk : t.walk place parts = .ok last
  last : t.isDirectory last = true

theorem isDirectory_addDirectory {new : List String} :
    isDirectory { s with directories := s.directories ++ [new] } place = true ↔
      s.isDirectory place = true ∨ place = new := by
  simp [isDirectory_iff, or_assoc]

theorem IsTree.addDirectory (h : s.IsTree) (hplace : s.isDirectory place = true)
    (hfile : s.file? (place ++ [part]) = none) :
    IsTree { s with directories := s.directories ++ [place ++ [part]] } where
  apart {other} hother := by
    rcases isDirectory_addDirectory.1 hother with hother | rfl
    · exact h.apart hother
    · exact hfile
  above {other x} hother := by
    rcases isDirectory_addDirectory.1 hother with hother | hnew
    · exact isDirectory_addDirectory.2 (.inl (h.above hother))
    · obtain ⟨rfl, -⟩ := List.append_inj' hnew rfl
      exact isDirectory_addDirectory.2 (.inl hplace)
  aboveFile hother := isDirectory_addDirectory.2 (.inl (h.aboveFile hother))

theorem made_of_makeDirectories (hs : s.IsTree) (hplace : s.isDirectory place = true)
    (h : s.makeDirectories place parts = .ok (t, last)) : Made s place parts t last := by
  induction parts generalizing s place with
  | nil =>
    cases h
    exact ⟨hs, rfl, rfl, id, rfl, hplace⟩
  | cons part rest ih =>
    rw [makeDirectories] at h
    split at h
    · have hmade := ih hs (hs.dropLast hplace) h
      have hthere : t.isDirectory place = true := hmade.more hplace
      exact { hmade with walk := walk_cons_eq_ok_iff.2 ⟨hmade.isTree.apart hthere, hthere, .inl ⟨‹_›, hmade.walk⟩⟩ }
    · rename_i hup
      split at h
      · cases h
      · rename_i hshort
        -- The directory of this part is there now, whether or not it was before.
        have hdown : ∀ {u : FileStore}, Made u (place ++ [part]) rest t last → u.isDirectory place = true →
            t.walk place (part :: rest) = .ok last := fun hmade hthere =>
          walk_cons_eq_ok_iff.2 ⟨hmade.isTree.apart (hmade.more hthere), hmade.more hthere,
            .inr ⟨hup, Nat.not_lt.1 hshort, hmade.walk⟩⟩
        dsimp only at h
        split at h
        · cases h
        · rename_i hfile
          split at h
          · rename_i hnext
            have hmade := ih hs hnext h
            exact { hmade with walk := hdown hmade hplace }
          · have hmade := ih (hs.addDirectory hplace (by simpa using hfile)) (isDirectory_addDirectory.2 (.inr rfl)) h
            have hmore : ∀ {other}, s.isDirectory other = true → t.isDirectory other = true :=
              fun hother => hmade.more (isDirectory_addDirectory.2 (.inl hother))
            exact ⟨hmade.isTree, hmade.files, hmade.working, hmore,
              hdown hmade (isDirectory_addDirectory.2 (.inl hplace)), hmade.last⟩

/-! ### Writing -/

theorem find?_filter_ne (files : List (List String × List UInt8)) (gone other : List String) :
    (files.filter (·.1 != gone)).find? (·.1 == other) = if other = gone then none else files.find? (·.1 == other) := by
  rw [List.find?_filter]
  split
  · rename_i heq
    subst heq
    simp
  · rename_i hne
    congr 1
    funext e
    by_cases he : e.1 = other
    · simp [he, hne]
    · simp [he]

/-- What putting a file somewhere does, if it can be put there. -/
theorem put_eq_ok (h : s.put place name bytes = .ok t) :
    name ≠ ".." ∧ name.utf8ByteSize ≤ Path.partLimit ∧ s.isDirectory (place ++ [name]) = false ∧
      (∀ other, t.isDirectory other = s.isDirectory other) ∧ t.working = s.working ∧
      ∀ other, t.file? other = if other = place ++ [name] then some bytes else s.file? other := by
  unfold put at h
  dsimp only at h
  split at h
  · cases h
  · rename_i hfree
    split at h
    · cases h
    · rename_i hshort
      cases h
      simp only [Bool.or_eq_true, decide_eq_true_eq, not_or, Bool.not_eq_true] at hfree
      refine ⟨hfree.1, Nat.not_lt.1 hshort, hfree.2, fun _ => rfl, rfl, fun other => ?_⟩
      unfold file?
      rw [List.find?_append, find?_filter_ne]
      by_cases hother : other = place ++ [name]
      · simp [hother]
      · simp [hother, Ne.symm hother]

theorem IsTree.put (hs : s.IsTree) (hplace : s.isDirectory place = true) (h : s.put place name bytes = .ok t) :
    t.IsTree := by
  obtain ⟨-, -, hfree, hdirectory, -, hfile⟩ := put_eq_ok h
  refine ⟨fun {other} hother => ?_, fun {other part} hother => ?_, fun {other part} hother => ?_⟩
  · rw [hdirectory] at hother
    have hne : other ≠ place ++ [name] := by
      rintro rfl
      rw [hfree] at hother
      cases hother
    rw [hfile, if_neg hne]
    exact hs.apart hother
  · rw [hdirectory] at hother ⊢
    exact hs.above hother
  · rw [hdirectory]
    rw [hfile] at hother
    split at hother
    · rename_i hnew
      obtain ⟨rfl, -⟩ := List.append_inj' hnew rfl
      exact hplace
    · exact hs.aboveFile hother

/-- How a file comes to be written: directories are made for it, and it is put into the last. -/
theorem write_eq_ok (h : s.write p bytes = .ok t) : pathFault? p = none ∧ ∃ made directory name,
    p.parts = p.parts.dropLast ++ [name] ∧ s.makeDirectories (s.start p) p.parts.dropLast = .ok (made, directory) ∧
      made.put directory name bytes = .ok t := by
  unfold write at h
  split at h
  · cases h
  · rename_i hfault
    split at h
    · cases h
    · rename_i name hname
      obtain ⟨⟨made, directory⟩, hmade, hput⟩ := Outcome.bind_eq_ok_iff.1 h
      refine ⟨hfault, made, directory, name, ?_, hmade, hput⟩
      rw [List.dropLast_append_getLast? name hname]

theorem isDirectory_start (s : FileStore) (p : Path) : s.isDirectory (s.start p) = true := by
  unfold start
  split
  · exact isDirectory_iff.2 (.inl List.nil_prefix)
  · exact isDirectory_iff.2 (.inl (List.prefix_refl _))

/-- What writing a file leads to: a tree with this file at the place that its path leads to, and all that was there
    before. -/
structure Written (s : FileStore) (p : Path) (bytes : List UInt8) (t : FileStore) (place : List String) : Prop where
  isTree : t.IsTree
  working : t.working = s.working
  more : ∀ {other}, s.isDirectory other = true → t.isDirectory other = true
  file : ∀ other, t.file? other = if other = place then some bytes else s.file? other
  fault : pathFault? p = none
  walk : t.walk (t.start p) p.parts = .ok place

theorem exists_written (hs : s.IsTree) (h : s.write p bytes = .ok t) : ∃ place, Written s p bytes t place := by
  obtain ⟨hfault, made, directory, name, hparts, hmake, hput⟩ := write_eq_ok h
  have hmade : Made s (s.start p) p.parts.dropLast made directory :=
    made_of_makeDirectories hs (isDirectory_start s p) hmake
  have htree : t.IsTree := hmade.isTree.put hmade.last hput
  obtain ⟨hup, hshort, -, hdirectory, hworking, hfile⟩ := put_eq_ok hput
  have hmore : ∀ {other}, made.isDirectory other = true → t.isDirectory other = true :=
    fun hother => (hdirectory _).trans hother
  refine ⟨directory ++ [name], htree, hworking.trans hmade.working, fun hother => hmore (hmade.more hother),
    fun other => ?_, hfault, ?_⟩
  · rw [hfile, file?, file?, hmade.files]
  · have hstart : t.start p = s.start p := by rw [start, start, hworking, hmade.working]
    have hlast : t.walk directory [name] = .ok (directory ++ [name]) :=
      walk_cons_eq_ok_iff.2 ⟨htree.apart (hmore hmade.last), hmore hmade.last, .inr ⟨hup, hshort, rfl⟩⟩
    rw [hstart, hparts]
    exact walk_append (htree.walk_of_more hmore hmade.walk) hlast

theorem isTree_write (hs : s.IsTree) (h : s.write p bytes = .ok t) : t.IsTree := by
  obtain ⟨place, hwritten⟩ := exists_written hs h
  exact hwritten.isTree

/-- A file that was written is found at its path. -/
theorem entry_write (hs : s.IsTree) (h : s.write p bytes = .ok t) : t.entry p = .ok (.file bytes) := by
  obtain ⟨place, hwritten⟩ := exists_written hs h
  exact entry_eq_file_iff.2 ⟨hwritten.fault, place, hwritten.walk, by rw [hwritten.file, if_pos rfl]⟩

/-- Every other file is found as before. -/
theorem entry_write_other {content : List UInt8} (hs : s.IsTree) (h : s.write p bytes = .ok t)
    (hq : s.entry q = .ok (.file content)) (hother : t.walk (t.start p) p.parts ≠ t.walk (t.start q) q.parts) :
    t.entry q = .ok (.file content) := by
  obtain ⟨place, hwritten⟩ := exists_written hs h
  obtain ⟨hfault, found, hwalk, hfile⟩ := entry_eq_file_iff.1 hq
  have hwalk_t : t.walk (t.start q) q.parts = .ok found :=
    hwritten.isTree.walk_start_of_more hwritten.working hwritten.more hwalk
  have hne : found ≠ place := by
    rintro rfl
    exact hother (hwritten.walk.trans hwalk_t.symm)
  exact entry_eq_file_iff.2 ⟨hfault, found, hwalk_t, by rw [hwritten.file, if_neg hne, hfile]⟩

/-! ### Deleting -/

/-- What deleting a file leads to: the path led to it, and it is gone. -/
theorem delete_eq_ok (h : s.delete p = .ok t) : pathFault? p = none ∧ ∃ place, s.walk (s.start p) p.parts = .ok place ∧
    (s.file? place).isSome = true ∧ t.working = s.working ∧ (∀ other, t.isDirectory other = s.isDirectory other) ∧
      ∀ other, t.file? other = if other = place then none else s.file? other := by
  unfold delete at h
  split at h
  · cases h
  · obtain ⟨place, hwalk, h⟩ := Outcome.bind_eq_ok_iff.1 h
    obtain ⟨entry, hentry, h⟩ := Outcome.bind_eq_ok_iff.1 h
    cases entry with
    | directory => cases h
    | file bytes =>
      cases h
      refine ⟨‹_›, place, hwalk, by rw [entryAt_eq_file_iff.1 hentry]; rfl, rfl, fun _ => rfl, fun other => ?_⟩
      unfold file?
      rw [find?_filter_ne]
      split <;> rfl

theorem isTree_delete (hs : s.IsTree) (h : s.delete p = .ok t) : t.IsTree := by
  obtain ⟨-, place, -, -, -, hdirectory, hfile⟩ := delete_eq_ok h
  refine ⟨fun hother => ?_, fun hother => ?_, fun hother => ?_⟩
  · rw [hdirectory] at hother
    rw [hfile, hs.apart hother, ite_self]
  · rw [hdirectory] at hother ⊢
    exact hs.above hother
  · rw [hdirectory]
    rw [hfile] at hother
    split at hother
    · cases hother
    · exact hs.aboveFile hother

/-- A file that was deleted is not found. -/
theorem entry_delete (hs : s.IsTree) (h : s.delete p = .ok t) : t.entry p = .error .absent := by
  obtain ⟨hfault, place, hwalk, hthere, hworking, hdirectory, hfile⟩ := delete_eq_ok h
  have hwalk_t : t.walk (t.start p) p.parts = .ok place :=
    (isTree_delete hs h).walk_start_of_more hworking (fun hother => (hdirectory _).trans hother) hwalk
  have hfree : t.isDirectory place = false := by
    rw [hdirectory, Bool.eq_false_iff]
    intro hplace
    rw [hs.apart hplace] at hthere
    cases hthere
  rw [entry, hfault, hwalk_t]
  simp [entryAt, hfile, hfree, Except.bind]

/-- Every other file is found as before. -/
theorem entry_delete_other {content : List UInt8} (hs : s.IsTree) (h : s.delete p = .ok t)
    (hq : s.entry q = .ok (.file content)) (hother : s.walk (s.start p) p.parts ≠ s.walk (s.start q) q.parts) :
    t.entry q = .ok (.file content) := by
  obtain ⟨-, place, hwalk, -, hworking, hdirectory, hfile⟩ := delete_eq_ok h
  obtain ⟨hfault, found, hwalk_q, hfound⟩ := entry_eq_file_iff.1 hq
  have hwalk_t : t.walk (t.start q) q.parts = .ok found :=
    (isTree_delete hs h).walk_start_of_more hworking (fun hother => (hdirectory _).trans hother) hwalk_q
  have hne : found ≠ place := by
    rintro rfl
    exact hother (hwalk.trans hwalk_q.symm)
  exact entry_eq_file_iff.2 ⟨hfault, found, hwalk_t, by rw [hfile, if_neg hne, hfound]⟩

end Appraisal.FileStore
