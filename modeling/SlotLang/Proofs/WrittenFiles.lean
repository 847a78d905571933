import SlotLang.Files.Directory
import SlotLang.Proofs.Results

/-!
# Files that are written

A command that writes a file relies on two things, whatever system it runs on.  What was
written is read back, and the other files are as they were; the second also holds if the
write fails.  Many paths may lead to one file, and which paths do is left to the system.

A directory by itself is a system of this kind.  A file at its top is in the way of no other
file: a path goes through folders only, and a file is not written where a folder is.

* `OperatingSystem.Reliable` — what is assumed of a system about the file of a name.
* `Directory.Gains` — the directory has one file more, or one with new contents.
* `Directory.Gains.toOption_resolve` — the other paths lead where they led.
* `Directory.reliable` — a directory is a system of this kind.
-/

namespace SlotLang

/-! ## What is assumed of a system -/

namespace OperatingSystem

variable {σ : Type} [OperatingSystem σ]

/-- There are the same files with the same contents in the second state, but for the paths that
lead to one file. -/
def Unchanged (leads : String → σ → Prop) (system system' : σ) : Prop :=
  ∀ path, ¬ leads path system' → (read path system').toOption = (read path system).toOption

/-- What is assumed of a system about the file of a name, to which certain paths lead: if a
write succeeds the contents are read back, and no write changes another file. -/
structure Reliable (leads : String → σ → Prop) (system : σ) (name : String) : Prop where
  back : ∀ contents system', write name contents system = (.ok (), system') →
    read name system' = .ok contents
  others : ∀ contents, Unchanged leads system (write name contents system).2

end OperatingSystem

/-! ## A file at the top of a directory -/

namespace Directory

variable {dir dir' : Directory} {name : String} {contents : List UInt8}

theorem lookup_put_self (path : List String) (contents : List UInt8)
    (files : List (List String × List UInt8)) :
    (put path contents files).lookup path = some contents := by
  induction files with
  | nil => simp [put]
  | cons entry rest ih =>
      unfold put
      split
      next => simp
      next hne => rw [List.lookup_cons, beq_eq_false_iff_ne.mpr (Ne.symm hne), ih]

theorem lookup_put_of_ne {path other : List String} (hne : other ≠ path) (contents : List UInt8)
    (files : List (List String × List UInt8)) :
    (put path contents files).lookup other = files.lookup other := by
  have hother : (other == path) = false := beq_eq_false_iff_ne.mpr hne
  induction files with
  | nil => rw [put, List.lookup_cons, hother]
  | cons entry rest ih =>
      unfold put
      split
      next hpath => rw [List.lookup_cons, List.lookup_cons, hpath, hother]
      next => rw [List.lookup_cons, List.lookup_cons, ih]

/-- What holds of some path holds of one more path if that is put there. -/
theorem any_put (p : List String → Bool) (path : List String) (contents : List UInt8)
    (files : List (List String × List UInt8)) :
    ((put path contents files).any fun entry => p entry.1) =
      (p path || files.any fun entry => p entry.1) := by
  induction files with
  | nil => rfl
  | cons entry rest ih =>
      unfold put
      split
      next hpath => simp [hpath]
      next => simp [ih, Bool.or_left_comm]

/-- The directory has the file with the given name and contents at its top, where no folder
was, and otherwise the files and folders that it had. -/
structure Gains (dir : Directory) (name : String) (contents : List UInt8) (dir' : Directory) :
    Prop where
  written : dir'.file? [name] = some contents
  files : ∀ path, path ≠ [name] → dir'.file? path = dir.file? path
  folders : ∀ path, dir'.hasFolder path = dir.hasFolder path
  free : dir.hasFolder [name] = false

/-- A file is written unless its name is too long or a folder has it. -/
theorem write_cases (dir : Directory) (name : String) (contents : List UInt8) :
    (∃ error, dir.write name contents = .error error) ∨
      name.utf8ByteSize ≤ nameLimit ∧
        ∃ dir', dir.write name contents = .ok dir' ∧ dir.Gains name contents dir' := by
  unfold write
  split
  next => exact .inl ⟨_, rfl⟩
  next hname =>
      split
      next => exact .inl ⟨_, rfl⟩
      next hfolder =>
          refine .inr ⟨Nat.le_of_not_lt hname, _, rfl, lookup_put_self _ _ _,
            fun path hpath => lookup_put_of_ne hpath _ _, fun path => ?_,
            Bool.eq_false_iff.mpr hfolder⟩
          -- The only folder on the way to a file at the top is the directory itself.
          simp only [hasFolder, any_put fun entry => path.isPrefixOf entry && path != entry]
          cases path with
          | nil => rfl
          | cons first rest =>
              have htop :
                  ((first :: rest).isPrefixOf [name] && (first :: rest) != [name]) = false := by
                cases rest with
                | nil => by_cases hfirst : first = name <;> simp [List.isPrefixOf, hfirst]
                | cons second others => simp [List.isPrefixOf]
              rw [htop, Bool.false_or]

/-- A file at the top is read under its name. -/
theorem read_of_file? (hroot : dir.file? [] = none) (hslash : '/' ∉ name.toList)
    (hname : name ∉ ["", ".", ".."]) (hsize : name.utf8ByteSize ≤ nameLimit)
    (hfile : dir.file? [name] = some contents) : dir.read name = .ok contents := by
  have hpath : pathOf name = [name] := by
    rw [pathOf, FileName.components, List.splitOn_eq_singleton hslash, List.map_singleton,
      String.ofList_toList]
  simp only [List.mem_cons, List.not_mem_nil, or_false, not_or] at hname
  obtain ⟨hempty, hdot, hdots⟩ := hname
  have henter : dir.enter (some []) name = .ok (some [name]) := by
    simp [enter, descend, hroot, hempty, hdot, hdots, Nat.not_lt.mpr hsize, hfile]
  have hresolve : dir.resolve name = .ok (some [name]) := by
    rw [resolve, if_neg (by unfold pathLimit nameLimit at *; omega), hpath]
    split
    next h => cases h
    next h => cases h; exact absurd rfl hempty
    next h => cases h; exact absurd rfl hempty
    next => simp [henter]
  refine bind_eq_ok.mpr ⟨some [name], hresolve, ?_⟩
  simp only [Option.bind_some, hfile]
  rfl

/-! ## The other paths -/

/-- The place is neither the file of the name nor below it. -/
def Avoids (name : String) (place : Option (List String)) : Prop :=
  place.bind List.head? ≠ some name

theorem Gains.bind_file? (hgains : dir.Gains name contents dir') {place : Option (List String)}
    (hplace : place ≠ some [name]) : place.bind dir'.file? = place.bind dir.file? := by
  cases place with
  | none => rfl
  | some folder => exact hgains.files folder fun heq => hplace (heq ▸ rfl)

theorem avoids_none : Avoids name none := nofun

theorem avoids_nil : Avoids name (some []) := nofun

theorem Avoids.back {place : Option (List String)} (havoids : Avoids name place) :
    Avoids name (back place) := by
  unfold Directory.back
  split
  next first rest =>
      cases rest with
      | nil => nofun
      | cons second others => exact havoids
  next => nofun

/-- One name further both directories are at the same place, or the new one is at the written
file; there the old one has a file, too, or nothing. -/
theorem Gains.descend_cases (hgains : dir.Gains name contents dir')
    {place : Option (List String)} (havoids : Avoids name place) (part : String) :
    (dir'.descend place part = dir.descend place part ∧
      ∀ next, dir.descend place part = .ok next → Avoids name next) ∨
    dir'.descend place part = .ok (some [name]) ∧
      ∀ next, dir.descend place part = .ok next →
        next = some [name] ∧ (dir.file? [name]).isSome := by
  cases place with
  | none => exact .inl ⟨rfl, nofun⟩
  | some folder =>
      simp only [descend, hgains.folders]
      by_cases hpath : folder ++ [part] = [name]
      · refine .inr ⟨by simp [hpath, hgains.written], fun next hnext => ?_⟩
        rw [hpath, hgains.free, Bool.or_false] at hnext
        split at hnext
        next hfile => exact ⟨(Except.ok.inj hnext).symm, hfile⟩
        next => cases hnext
      · refine .inl ⟨by rw [hgains.files _ hpath], fun next hnext => ?_⟩
        split at hnext
        next =>
            cases hnext
            cases folder with
            | nil => simpa [Avoids] using hpath
            | cons first rest => exact havoids
        next => cases hnext

theorem Gains.enter_cases (hgains : dir.Gains name contents dir') {place : Option (List String)}
    (havoids : Avoids name place) (part : String) :
    (dir'.enter place part = dir.enter place part ∧
      ∀ next, dir.enter place part = .ok next → Avoids name next) ∨
    dir'.enter place part = .ok (some [name]) ∧
      ∀ next, dir.enter place part = .ok next →
        next = some [name] ∧ (dir.file? [name]).isSome := by
  have hplace : place ≠ some [name] := fun heq => havoids (heq ▸ rfl)
  unfold enter
  rw [hgains.bind_file? hplace]
  split
  next => exact .inl ⟨rfl, nofun⟩
  next =>
      split
      next => exact .inl ⟨rfl, fun next hnext => Except.ok.inj hnext ▸ havoids⟩
      next =>
          split
          next => exact .inl ⟨rfl, fun next hnext => Except.ok.inj hnext ▸ havoids.back⟩
          next =>
              split
              next => exact .inl ⟨rfl, nofun⟩
              next => exact hgains.descend_cases havoids part

/-- No path goes through a file. -/
theorem toOption_foldlM_of_file? {folder : List String} (hfile : (dir.file? folder).isSome)
    (part : String) (rest : List String) :
    ((part :: rest).foldlM dir.enter (some folder)).toOption = none := by
  have henter : dir.enter (some folder) part = .error .notDirectory := by
    simp only [enter, Option.bind_some, hfile, if_true]
  rw [List.foldlM_cons, henter]
  rfl

/-- A path leads to the same place in both directories, or to the written file. -/
theorem Gains.toOption_foldlM (hgains : dir.Gains name contents dir') (parts : List String)
    {place : Option (List String)} (havoids : Avoids name place) :
    (parts.foldlM dir'.enter place).toOption = (parts.foldlM dir.enter place).toOption ∨
      parts.foldlM dir'.enter place = .ok (some [name]) := by
  induction parts generalizing place with
  | nil => exact .inl rfl
  | cons part rest ih =>
      rw [List.foldlM_cons, List.foldlM_cons]
      rcases hgains.enter_cases havoids part with ⟨hsame, hnext⟩ | ⟨hfile, hnext⟩
      · rw [hsame]
        cases henter : dir.enter place part with
        | error error => exact .inl rfl
        | ok next => exact ih (hnext next henter)
      · rw [hfile]
        cases rest with
        | nil => exact .inr rfl
        | cons second others =>
            -- The path goes on behind the file, which neither of the directories allows.
            have hwritten : (dir'.file? [name]).isSome := by rw [hgains.written]; rfl
            refine .inl ((toOption_foldlM_of_file? hwritten second others).trans ?_)
            cases henter : dir.enter place part with
            | error error => rfl
            | ok next =>
                obtain ⟨rfl, hold⟩ := hnext next henter
                exact (toOption_foldlM_of_file? hold second others).symm

/-- The path leads to the file with the given name at the top of the directory. -/
def Leads (name path : String) (dir : Directory) : Prop :=
  dir.resolve path = .ok (some [name])

theorem Gains.toOption_resolve (hgains : dir.Gains name contents dir') (path : String) :
    (dir'.resolve path).toOption = (dir.resolve path).toOption ∨ Leads name path dir' := by
  unfold Leads resolve
  split
  next => exact .inl rfl
  next =>
      split
      next => exact .inl rfl
      next => exact .inl rfl
      next rest _ _ => exact hgains.toOption_foldlM rest avoids_none
      next => exact hgains.toOption_foldlM _ avoids_nil

/-- What is read depends on where the path leads, and on the file there. -/
theorem toOption_read (dir : Directory) (path : String) :
    (dir.read path).toOption =
      (dir.resolve path).toOption.bind fun place => place.bind dir.file? := by
  unfold read
  cases dir.resolve path with
  | error error => rfl
  | ok place =>
      cases hfile : place.bind dir.file? with
      | none =>
          simp only [bind, Except.bind, hfile]
          exact hfile.symm
      | some contents =>
          simp only [bind, Except.bind, hfile]
          exact hfile.symm

/-- A path that does not lead to the written file has the contents that it had. -/
theorem Gains.toOption_read (hgains : dir.Gains name contents dir') {path : String}
    (hleads : ¬ Leads name path dir') : (dir'.read path).toOption = (dir.read path).toOption := by
  rw [Directory.toOption_read, Directory.toOption_read,
    ← (hgains.toOption_resolve path).resolve_right hleads]
  cases hresolve : dir'.resolve path with
  | error error => rfl
  | ok place =>
      refine hgains.bind_file? ?_
      rintro rfl
      exact hleads hresolve

/-- A directory keeps its files, as long as it is not a file itself. -/
theorem reliable (hroot : dir.file? [] = none) (hslash : '/' ∉ name.toList)
    (hname : name ∉ ["", ".", ".."]) : OperatingSystem.Reliable (Leads name) dir name where
  back contents dir' hwrite := by
    rcases dir.write_cases name contents with ⟨error, herror⟩ | ⟨hsize, found, hfound, hgains⟩
    · simp only [OperatingSystem.write, herror] at hwrite
      cases hwrite
    · simp only [OperatingSystem.write, hfound] at hwrite
      cases hwrite
      have hroot' : dir'.file? [] = none := (hgains.files [] (by simp)).trans hroot
      exact read_of_file? hroot' hslash hname hsize hgains.written
  others contents path := by
    rcases dir.write_cases name contents with ⟨error, herror⟩ | ⟨-, found, hfound, hgains⟩
    · simp only [OperatingSystem.write, herror, implies_true]
    · simp only [OperatingSystem.write, OperatingSystem.read, hfound]
      exact hgains.toOption_read

end Directory

end SlotLang
