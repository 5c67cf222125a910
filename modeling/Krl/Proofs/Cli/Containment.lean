import Krl.Cli.Folder

/-!
# Where safe paths lead

A path is followed from a directory component by component (`follow`). No component of a safe path
goes up, so that each of them stays or goes down, and all places on the way lie in the directory in
which the path starts (`resolve_eq`).

* `Safe.join`: a safe path stays safe with more behind it that has no component that goes up and
  no forbidden character.
* `isSafe_contained`: a safe path leads nowhere else, and two of them make up another one.
-/

set_option autoImplicit false

namespace Krl.Cli.Path

/-! ## Following a path -/

/-- The directory that a component leads to. A directory is given by the names on the way to it, and
the root is above itself. -/
def follow (directory : List (List Char)) (component : List Char) : List (List Char) :=
  if component = [] ∨ component = ['.'] then directory
  else if component = up then directory.dropLast
  else directory ++ [component]

/-- The directory that components lead to, one after the other. -/
def resolve (base way : List (List Char)) : List (List Char) := way.foldl follow base

theorem follow_eq {directory : List (List Char)} {component : List Char} (h : component ≠ up) :
    follow directory component = directory ++ Folder.steps [component] := by
  unfold follow
  by_cases hstay : component = [] ∨ component = ['.']
  · have hsteps : Folder.steps [component] = [] := by
      rcases hstay with rfl | rfl <;> rfl
    rw [if_pos hstay, hsteps, List.append_nil]
  · have hsteps : Folder.steps [component] = [component] := by
      rw [not_or] at hstay
      simp [Folder.steps, hstay]
    rw [if_neg hstay, if_neg h, hsteps]

/-- Where nothing goes up, each component that goes somewhere leads one level down. -/
theorem resolve_eq {way : List (List Char)} (h : up ∉ way) (base : List (List Char)) :
    resolve base way = base ++ Folder.steps way := by
  induction way generalizing base with
  | nil => exact (List.append_nil base).symm
  | cons c way ih =>
    rw [List.mem_cons, not_or] at h
    have hsteps : Folder.steps (c :: way) = Folder.steps [c] ++ Folder.steps way :=
      List.filter_append [c] way
    rw [hsteps, ← List.append_assoc, ← follow_eq (Ne.symm h.1)]
    exact ih h.2 _

/-! ## Safe paths -/

/-- What makes a path safe. -/
structure Safe (path : List Char) : Prop where
  nonempty : path ≠ []
  relative : path.head? ≠ some '/'
  downward : up ∉ components path
  allowed : ∀ c ∈ path, isForbidden c = false
  driveless : startsWithDrive path = false

theorem isSafe_iff {path : List Char} : isSafe path = true ↔ Safe path := by
  simp only [isSafe, Bool.and_eq_true, Bool.not_eq_true', bne_iff_ne, List.isEmpty_eq_false_iff,
    List.any_eq_false, List.contains_eq_mem, decide_eq_false_iff_not, Bool.not_eq_true]
  constructor
  · rintro ⟨⟨⟨⟨hnonempty, hrelative⟩, hdownward⟩, hallowed⟩, hdriveless⟩
    exact ⟨hnonempty, hrelative, hdownward, hallowed, hdriveless⟩
  · rintro ⟨hnonempty, hrelative, hdownward, hallowed, hdriveless⟩
    exact ⟨⟨⟨⟨hnonempty, hrelative⟩, hdownward⟩, hallowed⟩, hdriveless⟩

theorem components_join (path other : List Char) :
    components (path ++ '/' :: other) = components path ++ components other :=
  Text.split_append _ path rfl other

/-- The character behind the first one is that of the path, or else the slash. -/
theorem startsWithDrive_join {path : List Char} (h : path ≠ []) (other : List Char) :
    startsWithDrive (path ++ '/' :: other) = startsWithDrive path := by
  match path, h with
  | [c], _ => rfl
  | c :: d :: path, _ =>
    by_cases hd : d = ':'
    · rw [hd]
      rfl
    · simp [startsWithDrive, hd]

theorem Safe.join {path other : List Char} (h : Safe path) (hup : up ∉ components other)
    (hchars : ∀ c ∈ other, isForbidden c = false) : Safe (path ++ '/' :: other) where
  nonempty := by simp
  relative := by
    obtain ⟨c, cs, rfl⟩ := List.exists_cons_of_ne_nil h.nonempty
    exact h.relative
  downward := by
    rw [components_join, List.mem_append]
    exact not_or.2 ⟨h.downward, hup⟩
  allowed := by
    intro c hc
    rcases List.mem_append.1 hc with hc | hc
    · exact h.allowed c hc
    · rcases List.mem_cons.1 hc with rfl | hc
      · rfl
      · exact hchars c hc
  driveless := (startsWithDrive_join h.nonempty other).trans h.driveless

/-- Followed from any directory, a safe path is in this directory after each of its components. Two
safe paths with a slash between them are a safe path. -/
theorem isSafe_contained {path : List Char} (h : isSafe path = true) :
    (∀ base way, way <+: components path → base <+: resolve base way) ∧
      ∀ other, isSafe other = true → isSafe (path ++ '/' :: other) = true := by
  have hpath := isSafe_iff.1 h
  constructor
  · intro base way hway
    have hup : up ∉ way := fun hmem => hpath.downward (hway.subset hmem)
    rw [resolve_eq hup]
    exact List.prefix_append ..
  · intro other hother
    have hother := isSafe_iff.1 hother
    exact isSafe_iff.2 (hpath.join hother.downward hother.allowed)

/-- Names with dots in them, components that stay, and a colon behind a character of several
bytes. -/
theorem isSafe_contained_dots :
    isSafe "a./..b//./c".toList = true ∧ isSafe "é:x/".toList = true ∧
      ["a.".toList, "..b".toList, [], ['.']] <+: components "a./..b//./c".toList ∧
      ["home".toList] <+:
        resolve ["home".toList] ["a.".toList, "..b".toList, [], ['.']] ∧
      isSafe ("a./..b//./c".toList ++ '/' :: "é:x/".toList) = true := by
  have hpath : isSafe "a./..b//./c".toList = true := by decide +kernel
  have hother : isSafe "é:x/".toList = true := by decide +kernel
  have hway : ["a.".toList, "..b".toList, [], ['.']] <+: components "a./..b//./c".toList := by
    decide +kernel
  obtain ⟨hinside, hjoin⟩ := isSafe_contained hpath
  exact ⟨hpath, hother, hway, hinside _ _ hway, hjoin _ hother⟩

end Krl.Cli.Path
