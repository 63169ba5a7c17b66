import TwoPass.FileTree
import TwoPass.Proofs.Grammar

/-! What writing changes in a tree.

A file can only be written in a directory that is there, so that writing makes no directory and every
path leads where it led before. All that changes are the bytes at one place. Both carry over from one
file to any number of files written after each other. -/

set_option autoImplicit false

namespace TwoPass.FileTree

variable {tree before after : FileTree} {place final : Place} {path : Text}

def holding (tree : FileTree) (place : Place) (bytes : List UInt8) : FileTree :=
  { tree with files := put place bytes tree.files }

theorem bytes?_holding (tree : FileTree) (place : Place) (bytes : List UInt8) :
    (tree.holding place bytes).bytes? place = some bytes := by
  unfold holding bytes?
  dsimp only
  induction tree.files with
  | nil => simp [put]
  | cons entry rest ih =>
    obtain ⟨file, held⟩ := entry
    by_cases same : file = place
    · simp [put, same]
    · simp [put, same, List.lookup_cons, beq_eq_false_iff_ne.mpr (Ne.symm same), ih]

theorem bytes?_holding_of_ne {changed : Place} (other : place ≠ changed) (bytes : List UInt8) :
    (tree.holding changed bytes).bytes? place = tree.bytes? place := by
  have apart : (place == changed) = false := beq_eq_false_iff_ne.mpr other
  unfold holding bytes?
  dsimp only
  induction tree.files with
  | nil => simp [put, List.lookup_cons, apart]
  | cons entry rest ih =>
    obtain ⟨file, held⟩ := entry
    by_cases same : file = changed
    · simp [put, same, List.lookup_cons, apart]
    · simp [put, same, List.lookup_cons, ih]

theorem any_put (test : Place → Bool) (place : Place) (bytes : List UInt8)
    (files : List (Place × List UInt8)) :
    (put place bytes files).any (fun file => test file.1) =
      (files.any (fun file => test file.1) || test place) := by
  induction files with
  | nil => simp [put]
  | cons file rest ih =>
    by_cases same : file.1 = place
    · simp only [put, same, beq_self_eq_true, if_true, List.any_cons]
      cases test place <;> simp
    · simp only [put, same, beq_iff_eq, if_false, List.any_cons, ih, Bool.or_assoc]

/-- A place with directories all the way down to it. -/
def Grounded (tree : FileTree) (place : Place) : Prop :=
  ∀ front, front <+: place → front ≠ place → tree.isDirectory front = true

theorem isDirectory_of_parents (parents : ∀ name ∈ place, name = parent) :
    tree.isDirectory place = true := by
  have all : place.all (· == parent) = true := by simpa using parents
  simp [isDirectory, all]

theorem grounded_of_parents (parents : ∀ name ∈ place, name = parent) : tree.Grounded place := by
  intro front ahead _
  exact isDirectory_of_parents fun name member => parents name (ahead.subset member)

theorem Grounded.append (grounded : tree.Grounded place) (directory : tree.isDirectory place = true)
    (name : Text) : tree.Grounded (place ++ [name]) := by
  intro front ahead other
  rcases List.prefix_concat_iff.mp ahead with whole | ahead
  · exact absurd whole other
  · by_cases same : front = place
    · rw [same]
      exact directory
    · exact grounded front ahead same

theorem grounded_root : tree.Grounded [['/']] := by
  have empty : tree.Grounded [] := grounded_of_parents (by simp)
  exact empty.append (isDirectory_of_parents (by simp)) ['/']

theorem start_eq_ok (begun : start path = .ok place) :
    place = if Path.rootOf path = [] then [] else [['/']] := by
  unfold start at begun
  split at begun
  · cases begun
  split at begun
  · cases begun
  split at begun
  · cases begun
  cases begun
  simp

theorem grounded_start (begun : start path = .ok place) :
    tree.isDirectory place = true ∧ tree.Grounded place := by
  rw [start_eq_ok begun]
  split
  · exact ⟨isDirectory_of_parents (by simp), grounded_of_parents (by simp)⟩
  · exact ⟨by simp [isDirectory], grounded_root⟩

theorem Grounded.above (grounded : tree.Grounded place) :
    tree.isDirectory (above place) = true ∧ tree.Grounded (above place) := by
  unfold FileTree.above
  split
  · next parents =>
    have all : ∀ name ∈ place ++ [parent], name = parent := by
      simpa [or_imp, forall_and] using parents
    exact ⟨isDirectory_of_parents all, grounded_of_parents all⟩
  split
  · next root =>
    rw [eq_of_beq root]
    exact ⟨by simp [isDirectory], grounded_root⟩
  · next named _ =>
    -- a place with a name of its own is left by dropping that name
    have ahead : place.dropLast <+: place := List.dropLast_prefix place
    have shorter : place.dropLast ≠ place := by
      intro same
      have lengths := congrArg List.length same
      rw [List.length_dropLast] at lengths
      have empty : place = [] := List.eq_nil_of_length_eq_zero (by omega)
      simp [empty] at named
    refine ⟨grounded _ ahead shorter, fun front short _ => ?_⟩
    refine grounded front (short.trans ahead) ?_
    rintro rfl
    exact shorter (ahead.eq_of_length_le short.length_le)

theorem kind_eq_directory_iff : tree.kind place = .directory ↔ tree.isDirectory place = true := by
  unfold kind
  split
  · simp [*]
  · split <;> simp [*]

theorem enter_eq_ok_iff : tree.enter path place = .ok () ↔ tree.isDirectory place = true := by
  rw [← kind_eq_directory_iff]
  unfold enter
  split <;> simp [*]

inductive Leads (tree : FileTree) (place : Place) : Text → Place → Prop where
  | here : tree.isDirectory place = true → Leads tree place ['.'] place
  | up : tree.isDirectory place = true → Leads tree place parent (above place)
  | down {name : Text} : tree.isDirectory place = true → name ≠ ['.'] → name ≠ parent →
      (Utf8.encode name).length ≤ nameLimit → Leads tree place name (place ++ [name])

theorem follow_cons_eq_ok_iff {name : Text} {rest : List Text} :
    tree.follow path place (name :: rest) = .ok final ↔
      ∃ next, tree.Leads place name next ∧ tree.follow path next rest = .ok final := by
  rw [follow, Except.bind_eq_ok_iff]
  constructor
  · rintro ⟨⟨⟩, entered, rest⟩
    have directory := enter_eq_ok_iff.mp entered
    split at rest
    · next same =>
      rw [eq_of_beq same]
      exact ⟨place, .here directory, rest⟩
    split at rest
    · next same =>
      rw [eq_of_beq same]
      exact ⟨above place, .up directory, rest⟩
    split at rest
    · cases rest
    · next own named short =>
      exact ⟨_, .down directory (by simpa using own) (by simpa using named) (by omega), rest⟩
  · rintro ⟨next, leads, rest⟩
    cases leads with
    | here directory => exact ⟨(), enter_eq_ok_iff.mpr directory, rest⟩
    | up directory => exact ⟨(), enter_eq_ok_iff.mpr directory, rest⟩
    | down directory own named short =>
      refine ⟨(), enter_eq_ok_iff.mpr directory, ?_⟩
      simpa [own, named, Nat.not_lt.mpr short] using rest

theorem Leads.grounded {name : Text} {next : Place} (leads : tree.Leads place name next)
    (grounded : tree.Grounded place) : tree.Grounded next := by
  cases leads with
  | here directory => exact grounded
  | up directory => exact grounded.above.2
  | down directory own named short => exact grounded.append directory name

theorem grounded_of_follow {names : List Text} (grounded : tree.Grounded place)
    (followed : tree.follow path place names = .ok final) : tree.Grounded final := by
  induction names generalizing place with
  | nil =>
    cases followed
    exact grounded
  | cons name rest ih =>
    obtain ⟨next, leads, rest⟩ := follow_cons_eq_ok_iff.mp followed
    exact ih (leads.grounded grounded) rest

theorem grounded_of_locate (located : tree.locate path = .ok place) : tree.Grounded place := by
  obtain ⟨origin, begun, followed⟩ := Except.bind_eq_ok_iff.mp located
  exact grounded_of_follow (grounded_start begun).2 followed

theorem isDirectory_holding (grounded : tree.Grounded place) (bytes : List UInt8) (other : Place) :
    (tree.holding place bytes).isDirectory other = tree.isDirectory other := by
  have files := any_put (fun file => other.isPrefixOf file && other != file) place bytes tree.files
  have whole : (tree.holding place bytes).isDirectory other =
      (tree.isDirectory other || (other.isPrefixOf place && other != place)) := by
    simp only [isDirectory, holding, Bool.or_assoc]
    rw [files]
  rw [whole]
  -- only a place above the file could become a directory, and those are directories already
  by_cases ahead : (other.isPrefixOf place && other != place) = true
  · obtain ⟨front, shorter⟩ := Bool.and_eq_true_iff.mp ahead
    simp [grounded other (List.isPrefixOf_iff_prefix.mp front) (by simpa using shorter)]
  · simp [ahead]

def SameDirectories (before after : FileTree) : Prop :=
  ∀ place, after.isDirectory place = before.isDirectory place

namespace SameDirectories

theorem refl (tree : FileTree) : SameDirectories tree tree := fun _ => rfl

theorem symm (same : SameDirectories before after) : SameDirectories after before :=
  fun place => (same place).symm

theorem leads (same : SameDirectories before after) {name : Text} {next : Place}
    (leads : before.Leads place name next) : after.Leads place name next := by
  cases leads with
  | here directory => exact .here (same place ▸ directory)
  | up directory => exact .up (same place ▸ directory)
  | down directory own named short => exact .down (same place ▸ directory) own named short

/-- How a path is written matters to what is said if it leads nowhere, and to nothing else. -/
theorem follow (same : SameDirectories before after) {names : List Text} (other : Text)
    (followed : before.follow path place names = .ok final) :
    after.follow other place names = .ok final := by
  induction names generalizing place with
  | nil => exact followed
  | cons name rest ih =>
    obtain ⟨next, leads, rest⟩ := follow_cons_eq_ok_iff.mp followed
    exact follow_cons_eq_ok_iff.mpr ⟨next, same.leads leads, ih rest⟩

theorem locate (same : SameDirectories before after) :
    after.locate path = .ok place ↔ before.locate path = .ok place := by
  simp only [FileTree.locate, Except.bind_eq_ok_iff]
  constructor
  · rintro ⟨origin, begun, followed⟩
    exact ⟨origin, begun, same.symm.follow path followed⟩
  · rintro ⟨origin, begun, followed⟩
    exact ⟨origin, begun, same.follow path followed⟩

end SameDirectories

theorem target_eq_ok_iff : tree.target path = .ok place ↔
    endsInSlash path = false ∧ tree.locate path = .ok place ∧ tree.isDirectory place = false := by
  unfold target
  split
  · next slash => simp [slash, Except.bind_eq_ok_iff]
  · next slash =>
    simp only [slash, Except.bind_eq_ok_iff, kind_eq_directory_iff, true_and]
    constructor
    · rintro ⟨found, located, rest⟩
      split at rest
      · cases rest
      · next free =>
        cases rest
        exact ⟨located, by simpa using free⟩
    · rintro ⟨located, free⟩
      exact ⟨place, located, by simp [free, pure, Except.pure]⟩

theorem SameDirectories.target (same : SameDirectories before after) :
    after.target path = .ok place ↔ before.target path = .ok place := by
  rw [target_eq_ok_iff, target_eq_ok_iff, same.locate, same place]

theorem SameDirectories.writable (same : SameDirectories before after)
    (writable : ∃ place, before.target path = .ok place) : ∃ place, after.target path = .ok place := by
  obtain ⟨place, found⟩ := writable
  exact ⟨place, same.target.mpr found⟩

theorem SameDirectories.target_ne (same : SameDirectories before after) {other : Text}
    (writable : ∃ place, before.target path = .ok place)
    (distinct : before.target path ≠ before.target other) : after.target path ≠ after.target other := by
  intro shared
  obtain ⟨place, found⟩ := writable
  have both := shared ▸ same.target.mpr found
  exact distinct (found.trans (same.target.mp both).symm)

theorem read_eq_ok_iff {path : Path} {bytes : List UInt8} : tree.read path = .ok bytes ↔
    ∃ place, tree.locate path.text = .ok place ∧ tree.isDirectory place = false ∧
      tree.bytes? place = some bytes := by
  unfold read
  rw [Except.bind_eq_ok_iff]
  refine exists_congr fun place => and_congr_right fun _ => ?_
  unfold kind
  cases tree.isDirectory place <;> cases tree.bytes? place <;> simp

theorem read_of_target {path : Path} {bytes : List UInt8} (writable : tree.target path.text = .ok place)
    (held : tree.bytes? place = some bytes) : tree.read path = .ok bytes := by
  obtain ⟨-, located, free⟩ := target_eq_ok_iff.mp writable
  exact read_eq_ok_iff.mpr ⟨place, located, free, held⟩

theorem writeText_eq_ok_iff {text : Text} : tree.writeText path text = .ok after ↔
    ∃ place, tree.target path = .ok place ∧ after = tree.holding place (Utf8.encode text) := by
  unfold writeText
  rw [Except.bind_eq_ok_iff]
  refine exists_congr fun place => and_congr_right fun _ => ?_
  simp [holding, pure, Except.pure, eq_comm]

theorem writeText_of_target (writable : tree.target path = .ok place) (text : Text) :
    tree.writeText path text = .ok (tree.holding place (Utf8.encode text)) :=
  writeText_eq_ok_iff.mpr ⟨place, writable, rfl⟩

theorem sameDirectories_of_writeText {text : Text} (written : tree.writeText path text = .ok after) :
    SameDirectories tree after := by
  obtain ⟨place, writable, rfl⟩ := writeText_eq_ok_iff.mp written
  exact isDirectory_holding (grounded_of_locate (target_eq_ok_iff.mp writable).2.1) _

theorem read_of_writeText {path : Path} {text : Text}
    (written : tree.writeText path.text text = .ok after) :
    after.read path = .ok (Utf8.encode text) := by
  have same := sameDirectories_of_writeText written
  obtain ⟨place, writable, rfl⟩ := writeText_eq_ok_iff.mp written
  exact read_of_target (same.target.mpr writable) (bytes?_holding tree place _)

/-- Writes texts to paths, one after the other, up to the first that cannot be written. -/
def writeAll : FileTree → List (Path × Text) → FileTree × Option FileFault
  | tree, [] => (tree, none)
  | tree, (path, text) :: rest =>
    match tree.writeText path.text text with
    | .error fault => (tree, some fault)
    | .ok after => after.writeAll rest

theorem writeAll_append (tree : FileTree) (files others : List (Path × Text)) :
    tree.writeAll (files ++ others) =
      match tree.writeAll files with
      | (after, none) => after.writeAll others
      | (after, some fault) => (after, some fault) := by
  induction files generalizing tree with
  | nil => rfl
  | cons file rest ih =>
    rw [List.cons_append, writeAll, writeAll]
    cases tree.writeText file.1.text file.2 with
    | error fault => rfl
    | ok after => exact ih after

theorem sameDirectories_writeAll (tree : FileTree) (files : List (Path × Text)) :
    SameDirectories tree (tree.writeAll files).1 := by
  induction files generalizing tree with
  | nil => exact .refl tree
  | cons file rest ih =>
    rw [writeAll]
    split
    · exact .refl tree
    · next after written =>
      intro place
      rw [ih after place, sameDirectories_of_writeText written place]

theorem bytes?_writeAll {files : List (Path × Text)}
    (apart : ∀ file ∈ files, tree.target file.1.text ≠ .ok place) :
    (tree.writeAll files).1.bytes? place = tree.bytes? place := by
  induction files generalizing tree with
  | nil => rfl
  | cons file rest ih =>
    rw [writeAll]
    split
    · rfl
    · next after written =>
      obtain ⟨first, others⟩ := List.forall_mem_cons.mp apart
      have same := sameDirectories_of_writeText written
      rw [ih fun other member => mt same.target.mp (others other member)]
      obtain ⟨changed, writable, rfl⟩ := writeText_eq_ok_iff.mp written
      apply bytes?_holding_of_ne
      rintro rfl
      exact first writable

theorem bytes?_writeAll_cons {first : Path} {rest : List (Path × Text)}
    (writable : tree.target first.text = .ok place) (text : Text)
    (apart : ∀ file ∈ rest, tree.target file.1.text ≠ .ok place) :
    (tree.writeAll ((first, text) :: rest)).1.bytes? place = some (Utf8.encode text) := by
  have written := writeText_of_target writable text
  have same := sameDirectories_of_writeText written
  rw [writeAll, written]
  dsimp only
  rw [bytes?_writeAll fun other member => mt same.target.mp (apart other member), bytes?_holding]

theorem writeAll_of_writable {files : List (Path × Text)}
    (writable : ∀ file ∈ files, ∃ place, tree.target file.1.text = .ok place) :
    (tree.writeAll files).2 = none := by
  induction files generalizing tree with
  | nil => rfl
  | cons file rest ih =>
    obtain ⟨⟨place, first⟩, others⟩ := List.forall_mem_cons.mp writable
    have written := writeText_of_target first file.2
    have same := sameDirectories_of_writeText written
    rw [writeAll, written]
    exact ih fun other member => same.writable (others other member)

theorem read_writeAll {files : List (Path × Text)} {path : Path} {text : Text}
    (writable : ∀ file ∈ files, ∃ place, tree.target file.1.text = .ok place)
    (distinct : files.Pairwise fun file other => tree.target file.1.text ≠ tree.target other.1.text)
    (member : (path, text) ∈ files) :
    (tree.writeAll files).1.read path = .ok (Utf8.encode text) := by
  induction files generalizing tree with
  | nil => cases member
  | cons file rest ih =>
    obtain ⟨⟨place, first⟩, others⟩ := List.forall_mem_cons.mp writable
    obtain ⟨apart, distinct⟩ := List.pairwise_cons.mp distinct
    rcases List.mem_cons.mp member with rfl | later
    · -- what is written later goes to other places
      refine read_of_target ((sameDirectories_writeAll tree _).target.mpr first)
        (bytes?_writeAll_cons first text ?_)
      exact fun other member shared => apart other member (first.trans shared.symm)
    · have written := writeText_of_target first file.2
      have same := sameDirectories_of_writeText written
      rw [writeAll, written]
      apply ih (fun other member => same.writable (others other member)) _ later
      exact distinct.imp_of_mem fun member _ differ => same.target_ne (others _ member) differ

end TwoPass.FileTree
