import SampleMethods.CommandLine.Output
import SampleMethods.Proofs.FileTree.Atomicity

/-!
# What writing an output file changes

A result goes to a file with another extension first, which then takes the place of the
output file. If nothing stands there, or if it is the output file itself (`HasRoom`), then
the tree afterwards is the tree with the missing directories and the output file in it
(`exists_eq_of_writeOutput`): everything else is as it was (`writesOnly_of_hasRoom`).
Otherwise what stands there is lost (`not_writesOnly_beside`).
-/

set_option autoImplicit false

namespace SampleMethods.CommandLine

open FileTree

/-! ## The steps of writing -/

section Steps

variable {tree after made : FileTree} {path : Path} {text : String}

theorem change_of_step {name : String} {change : Change Unit}
    (isDone : step name change tree = .ok () after) : change tree = .ok () after := by
  rw [step] at isDone
  cases changed : change tree with
  | ok result between =>
      rw [changed] at isDone
      cases isDone
      rfl
  | error error between =>
      rw [changed] at isDone
      cases isDone

theorem step_of_change {name : String} {change : Change Unit}
    (isDone : change tree = .ok () after) : step name change tree = .ok () after := by
  rw [step, isDone]

theorem treeAfter_step (name : String) (change : Change Unit) (tree : FileTree) :
    treeAfter (step name change tree) = treeAfter (change tree) := by
  rw [step]
  cases change tree with
  | ok result after => rfl
  | error error after => rfl

/-- Before anything is written, directories are made above the file. Those that are made stay also
if one of them cannot be made. -/
theorem grows_treeAfter_makeParents (tree : FileTree) (path : Path) :
    Grows (·.IsAbove path) tree (treeAfter (makeParents path tree)) := by
  rw [makeParents]
  cases isParent : path.parent? with
  | none => exact .refl tree
  | some parent =>
      by_cases isEmpty : parent.text.isEmpty = true
      · simp only [isEmpty, if_true]
        exact .refl tree
      · simp only [isEmpty, Bool.false_eq_true, if_false, treeAfter_step]
        exact (grows_treeAfter_makeDirectories tree parent).mono fun above isAbove =>
          .of_parent isParent isAbove

theorem grows_makeParents (isDone : makeParents path tree = .ok () made) :
    Grows (·.IsAbove path) tree made := by
  have grows := grows_treeAfter_makeParents tree path
  rwa [isDone] at grows

/-- The target is no directory, and it has a name. -/
def IsFilePlace (target : Target) (directory : Place) (name : Text.Bytes) : Prop :=
  target.place = name :: directory ∧ ∀ place entries, target ≠ .found place (.directory entries)

/-- What the file system permits is done. -/
theorem permit_of_ok {operation : Operation}
    (isDone : Change.permit operation tree = .ok () after) : after = tree := by
  rw [permit_eq] at isDone
  cases refused : tree.refuses operation with
  | none =>
      rw [refused] at isDone
      cases isDone
      rfl
  | some error =>
      rw [refused] at isDone
      cases isDone

theorem exists_target_of_openFile {opened : Place × Text.Bytes}
    (isDone : Change.openFile path tree = .ok opened after) :
    ∃ target, tree.locate true path = .ok target ∧ IsFilePlace target opened.1 opened.2 := by
  rw [Change.openFile] at isDone
  by_cases slash :
      (path.text.getLast? == some Text.slash && !(Change.trimmed path).text.isEmpty) = true
  · rw [if_pos slash] at isDone
    obtain ⟨_, _, _, isDone⟩ := exists_of_bind_ok isDone
    cases isDone
  rw [if_neg slash] at isDone
  obtain ⟨target, between, isLocated, isOpened⟩ := exists_of_bind_ok isDone
  obtain ⟨leads, rfl⟩ := locate_of_ok isLocated
  split at isOpened
  · cases isOpened
  · cases isOpened
  · rename_i name directory entry notDirectory
    obtain ⟨_, _, _, isOpened⟩ := exists_of_bind_ok isOpened
    cases isOpened
    refine ⟨_, leads, rfl, ?_⟩
    rintro place entries ⟨⟩
    exact notDirectory _ rfl
  · rename_i directory name
    obtain ⟨_, _, _, isOpened⟩ := exists_of_bind_ok isOpened
    cases isOpened
    refine ⟨_, leads, rfl, ?_⟩
    rintro _ _ ⟨⟩

theorem exists_target_of_writeText (isDone : Change.writeText path text tree = .ok () after) :
    ∃ target directory name, tree.locate true path = .ok target ∧ IsFilePlace target directory name ∧
      after = tree.withEntry directory name (some (.file (some text))) := by
  rw [writeText_eq] at isDone
  cases isOpen : Change.openFile path tree with
  | error error between =>
      rw [isOpen] at isDone
      cases isDone
  | ok opened between =>
      rw [isOpen] at isDone
      obtain ⟨target, leads, isPlace⟩ := exists_target_of_openFile isOpen
      refine ⟨target, opened.1, opened.2, leads, isPlace, ?_⟩
      dsimp only at isDone
      split at isDone
      · cases isDone
        rfl
      · cases isDone

theorem trimmed_of_getLast? (noSlash : path.text.getLast? ≠ some Text.slash) :
    Change.trimmed path = path := by
  refine congrArg Path.mk ?_
  refine List.rdropWhile_eq_self_iff.mpr fun nonempty isSlash => noSlash ?_
  rw [List.getLast?_eq_some_getLast nonempty, beq_iff_eq.mp isSlash]

/-- A file or a link is moved, unless it is where it is to be. -/
theorem exists_target_of_moveFile {source : Path}
    (isDone : Change.moveFile source path tree = .ok () after) :
    ∃ directory name entry target newDirectory newName,
      tree.locate false source = .ok (.found (name :: directory) entry) ∧
      tree.locate false path = .ok target ∧ IsFilePlace target newDirectory newName ∧
      after =
        if newName :: newDirectory = name :: directory then tree
        else (tree.withEntry directory name none).withEntry newDirectory newName (some entry) := by
  rw [Change.moveFile] at isDone
  obtain ⟨found, between, isLocated, isMoved⟩ := exists_of_bind_ok isDone
  obtain ⟨isSource, rfl⟩ := locate_of_ok isLocated
  split at isMoved
  · cases isMoved
  · cases isMoved
  · cases isMoved
  rename_i name directory entry _
  obtain ⟨target, between, isLocated, isPut⟩ := exists_of_bind_ok isMoved
  obtain ⟨leads, rfl⟩ := locate_of_ok isLocated
  by_cases slash : (path.text.getLast? == some Text.slash) = true
  · simp only [slash, if_true] at isPut
    cases isPut
  rw [trimmed_of_getLast? (by simpa using slash)] at leads
  simp only [slash, Bool.false_eq_true, if_false] at isPut
  have isAfter : ∀ (newDirectory : Place) (newName : Text.Bytes),
      (do
        Change.permit (.rename source path)
        unless newName :: newDirectory = name :: directory do
          Change.put directory name none
          Change.put newDirectory newName (some entry) : Change Unit) between = .ok () after →
      after =
        if newName :: newDirectory = name :: directory then between
        else (between.withEntry directory name none).withEntry newDirectory newName (some entry) := by
    intro newDirectory newName isDone
    obtain ⟨_, _, isPermitted, isMade⟩ := exists_of_bind_ok isDone
    rw [permit_of_ok isPermitted] at isMade
    split_ifs at isMade ⊢
    · cases isMade
      rfl
    · cases isMade
      rfl
  split at isPut
  · cases isPut
  · cases isPut
  · rename_i newName newDirectory old notDirectory
    refine ⟨directory, name, entry, _, newDirectory, newName, isSource, leads, ⟨rfl, ?_⟩,
      isAfter newDirectory newName isPut⟩
    rintro place entries ⟨⟩
    exact notDirectory _ rfl
  · rename_i newDirectory newName
    refine ⟨directory, name, entry, _, newDirectory, newName, isSource, leads, ⟨rfl, ?_⟩,
      isAfter newDirectory newName isPut⟩
    rintro _ _ ⟨⟩

end Steps

/-! ## The whole of writing -/

/-- Nothing stands where the result is put first, unless that is the output file itself. -/
def HasRoom (made : FileTree) (path : Path) : Prop :=
  ∀ place entry, made.locate false (temporaryPath path) = .ok (.found place entry) →
    temporaryPath path = path ∧ ∀ target, entry ≠ .link target

section Writing

variable {tree made after : FileTree} {path : Path} {text : String}

theorem IsFilePlace.exists_directory {target : Target} {directory : Place} {name : Text.Bytes}
    (isPlace : IsFilePlace target directory name) (stands : target.StandsIn tree) :
    ∃ entries, tree.entryAt? directory = some (.directory entries) := by
  cases target with
  | found place entry =>
      obtain rfl : place = name :: directory := isPlace.1
      exact exists_directory_of_entryAt?_cons stands
  | absent around other =>
      cases isPlace.1
      obtain ⟨entries, isThere, _⟩ := stands
      exact ⟨entries, isThere⟩

/-- What stands at the place is what the path leads to. -/
theorem IsFilePlace.eq_found {target : Target} {directory : Place} {name : Text.Bytes}
    (isPlace : IsFilePlace target directory name) (stands : target.StandsIn tree) {entry : Entry}
    (isThere : tree.entryAt? (name :: directory) = some entry) :
    target = .found (name :: directory) entry := by
  cases target with
  | found place other =>
      obtain rfl : place = name :: directory := isPlace.1
      rw [Option.some.inj (isThere.symm.trans stands)]
  | absent around other =>
      cases isPlace.1
      obtain ⟨entries, isAround, noEntry⟩ := stands
      rw [entryAt?_name isAround, noEntry] at isThere
      cases isThere

theorem IsFilePlace.not_directory {target : Target} {directory : Place} {name : Text.Bytes}
    (isPlace : IsFilePlace target directory name) (stands : target.StandsIn tree)
    (entries : List (Text.Bytes × Entry)) :
    tree.entryAt? (name :: directory) ≠ some (.directory entries) :=
  fun isThere => isPlace.2 _ entries (isPlace.eq_found stands isThere)

/-- A place for a file is one also where the same ways lead. -/
theorem IsFilePlace.of_keepsWays {target : Target} {directory : Place} {name : Text.Bytes}
    (isPlace : IsFilePlace target directory name) (stands : target.StandsIn after)
    (keeps : tree.KeepsWays after) :
    IsFilePlace (tree.targetAt (name :: directory)) directory name := by
  refine ⟨place_targetAt tree name directory, fun place inner isDirectory => ?_⟩
  cases isEntry : tree.entryAt? (name :: directory) with
  | none =>
      rw [targetAt_of_none isEntry] at isDirectory
      cases isDirectory
  | some entry =>
      rw [targetAt_of_some isEntry] at isDirectory
      cases isDirectory
      obtain ⟨others, isOther⟩ := keeps.directory isEntry
      exact isPlace.not_directory stands others isOther

/-- Where there is room, the result goes first where the path of the temporary file says. -/
theorem HasRoom.exists_temporary (room : HasRoom made path) {target : Target}
    {directory : Place} {name : Text.Bytes}
    (leads : made.locate true (temporaryPath path) = .ok target)
    (isPlace : IsFilePlace target directory name) :
    made.locate false (temporaryPath path) = .ok target ∧
      ∀ old, made.entryAt? (name :: directory) = some old →
        old.isFile = true ∧ temporaryPath path = path := by
  have unfollowed := unfollowed_locate made (temporaryPath path)
  rw [leads] at unfollowed
  have same : made.locate false (temporaryPath path) = .ok target := by
    generalize isResult : made.locate false (temporaryPath path) = result at unfollowed
    cases unfollowed with
    | same => rfl
    | link place link => exact absurd rfl ((room _ _ isResult).2 link)
  refine ⟨same, fun old isOld => ?_⟩
  have stands := standsIn_locate same
  rw [isPlace.eq_found stands isOld] at same
  obtain ⟨isPath, noLink⟩ := room _ _ same
  refine ⟨?_, isPath⟩
  cases old with
  | file text => rfl
  | directory entries => exact absurd isOld (isPlace.not_directory stands entries)
  | link link => exact absurd rfl (noLink link)

/-- The first step puts the result into the tree, and every way leads where it led. Something
stood at its place only where that is the place of the output file. -/
theorem HasRoom.exists_put {written : FileTree} (room : HasRoom made path)
    (puts : Change.writeText (temporaryPath path) text made = .ok () written) :
    ∃ directory name entries, made.entryAt? directory = some (.directory entries) ∧
      written = made.withEntry directory name (some (.file (some text))) ∧
      made.KeepsWays written ∧ written.KeepsWays made ∧
      written.locate false (temporaryPath path) =
        .ok (.found (name :: directory) (.file (some text))) ∧
      (made.entryAt? (name :: directory) = none ∨ temporaryPath path = path) := by
  obtain ⟨target, directory, name, followed, isPlace, rfl⟩ := exists_target_of_writeText puts
  obtain ⟨leads, wasThere⟩ := room.exists_temporary followed isPlace
  obtain ⟨entries, isThere⟩ := isPlace.exists_directory (standsIn_locate leads)
  have wasFile := fun old isOld => (wasThere old isOld).1
  have keeps : made.KeepsWays (made.withEntry directory name (some (.file (some text)))) :=
    keepsWays_withEntry isThere wasFile fun _ => rfl
  refine ⟨directory, name, entries, isThere, rfl, keeps,
    keepsWays_of_withEntry_file isThere wasFile _, ?_, ?_⟩
  · rw [keeps.locate id leads fun isFollowed => absurd isFollowed Bool.false_ne_true, isPlace.1,
      targetAt_of_some (entryAt?_withEntry_self isThere _)]
  · cases isOld : made.entryAt? (name :: directory) with
    | none => exact .inl rfl
    | some old => exact .inr (wasThere old isOld).2

/-- **Writing puts the output file into the tree**, where there is room for the temporary one. -/
theorem exists_eq_of_writeOutput (makes : makeParents path tree = .ok () made)
    (room : HasRoom made path) (writes : writeOutput path text tree = .ok () after) :
    ∃ target directory name, made.locate false path = .ok target ∧
      IsFilePlace target directory name ∧
      after = made.withEntry directory name (some (.file (some text))) := by
  obtain ⟨_, between, isMade, isWritten⟩ := exists_of_bind_ok writes
  cases makes.symm.trans isMade
  obtain ⟨_, written, isPut, isMoved⟩ := exists_of_bind_ok isWritten
  obtain ⟨directory, name, entries, isThere, isChanged, keeps, keepsBack, source, wasThere⟩ :=
    room.exists_put (change_of_step isPut)
  obtain ⟨_, _, _, target, newDirectory, newName, isSource, leads, isPlace, isAfter⟩ :=
    exists_target_of_moveFile (change_of_step isMoved)
  cases source.symm.trans isSource
  have leadsBefore := keepsBack.locate id leads fun isFollowed =>
    absurd isFollowed Bool.false_ne_true
  rw [isPlace.1] at leadsBefore
  refine ⟨_, newDirectory, newName, leadsBefore,
    isPlace.of_keepsWays (standsIn_locate leads) keeps, ?_⟩
  split_ifs at isAfter with same
  · cases same
    rw [isAfter, isChanged]
  · rcases wasThere with absent | isPath
    · rw [isAfter, isChanged, withEntry_none_withEntry isThere absent]
    · -- The output file itself stood there, so the file is where it is to be.
      rw [isPath, leads] at source
      cases source
      exact absurd isPlace.1.symm same

/-- The output file has the text, and nothing else is changed, except that directories above it
are made. -/
def WritesOnly (path : Path) (text : String) (tree made after : FileTree) : Prop :=
  ∃ place, (∃ target, made.locate false path = .ok target ∧ target.place = place) ∧
    after.entryAt? place = some (.file (some text)) ∧
    ((∀ target, tree.entryAt? place ≠ some (.link target)) → after.readText path = .ok text) ∧
    ∀ other, other ≠ place →
      after.seenAt? other = tree.seenAt? other ∨
        tree.entryAt? other = none ∧
          ∃ above, above.IsAbove path ∧ made.LeadsToDirectory above other ∧
            after.seenAt? other = some (.directory [])

/-- **Writing an output file disturbs nothing else**, where there is room for the temporary file:
the file has the text, all that was there before is as it was, and only directories above the
file are new. -/
theorem writesOnly_of_hasRoom (makes : makeParents path tree = .ok () made)
    (room : HasRoom made path) (writes : writeOutput path text tree = .ok () after) :
    WritesOnly path text tree made after := by
  obtain ⟨target, directory, name, leads, isPlace, rfl⟩ :=
    exists_eq_of_writeOutput makes room writes
  have grows := grows_makeParents makes
  have stands := standsIn_locate leads
  obtain ⟨entries, isThere⟩ := isPlace.exists_directory stands
  have isWritten := @entryAt?_withEntry_self _ _ name _ isThere (.file (some text))
  refine ⟨name :: directory, ⟨target, leads, isPlace.1⟩, isWritten, fun noLink => ?_,
    fun other elsewhere => ?_⟩
  · have wasFile : ∀ old, made.entryAt? (name :: directory) = some old → old.isFile = true := by
      intro old isOld
      cases old with
      | file text => rfl
      | directory inner => exact absurd isOld (isPlace.not_directory stands inner)
      | link link =>
          have isSeen := (seenAt?_eq_some_iff rfl).mpr isOld
          rcases grows.grown (name :: directory) with same | ⟨_, _, _, leadsThere⟩
          · exact absurd ((seenAt?_eq_some_iff rfl).mp (same ▸ isSeen)) (noLink link)
          · cases isSeen.symm.trans leadsThere.seen
    have keeps : made.KeepsWays (made.withEntry directory name (some (.file (some text)))) :=
      keepsWays_withEntry isThere wasFile fun _ => rfl
    have leadsNow : (made.withEntry directory name (some (.file (some text)))).locate true path = _ :=
      keeps.locate (fun _ => rfl) leads fun _ link isLink => by
        rw [isPlace.1, isWritten] at isLink
        cases isLink
    rw [isPlace.1, targetAt_of_some isWritten] at leadsNow
    simp only [readText, FileTree.entry, leadsNow]
  · have wasBare : ∀ old, made.entryAt? (name :: directory) = some old →
        ∀ other, old.child? other = none := by
      intro old isOld other
      cases old with
      | file text => rfl
      | link target => rfl
      | directory inner => exact absurd isOld (isPlace.not_directory stands inner)
    rw [seenAt?_withEntry isThere (fun _ => rfl) wasBare elsewhere]
    rcases grows.grown other with same | ⟨absent, above, isAbove, leadsThere⟩
    · exact .inl same
    · exact .inr ⟨absent, above, isAbove, leadsThere, leadsThere.seen⟩

end Writing

/-! ## What stands in the way of the temporary file -/

/-- The file is written where its three steps succeed. -/
theorem writeOutput_of_steps {tree made written after : FileTree} {path temporary : Path}
    {text : String} (isTemporary : temporaryPath path = temporary)
    (makes : makeParents path tree = .ok () made)
    (puts : Change.writeText temporary text made = .ok () written)
    (moves : Change.moveFile temporary path written = .ok () after) :
    writeOutput path text tree = .ok () after := by
  rw [writeOutput, bind_of_ok makes, isTemporary,
    bind_of_ok (step_of_change puts), step_of_change moves]

/-- A tree with a directory for results. -/
def outTree (entries : List (Text.Bytes × Entry)) : FileTree where
  root := .directory [(Text.bytes "out", .directory entries)]
  workingDirectory := []

/-- A list. -/
def listFile (text : String) : Text.Bytes × Entry :=
  (Text.bytes "list.json", .file (some text))

/-- A list in a directory that has to be made, beside an older one. -/
theorem writesOnly_of_hasRoom_newDirectory :
    makeParents (.ofString "out/new/list.json") (outTree [listFile "[]"]) =
        .ok () (outTree [listFile "[]", (Text.bytes "new", .directory [])]) ∧
      HasRoom (outTree [listFile "[]", (Text.bytes "new", .directory [])])
        (.ofString "out/new/list.json") ∧
      writeOutput (.ofString "out/new/list.json") "[1]" (outTree [listFile "[]"]) =
        .ok () (outTree [listFile "[]", (Text.bytes "new", .directory [listFile "[1]"])]) ∧
      WritesOnly (.ofString "out/new/list.json") "[1]" (outTree [listFile "[]"])
        (outTree [listFile "[]", (Text.bytes "new", .directory [])])
        (outTree [listFile "[]", (Text.bytes "new", .directory [listFile "[1]"])]) := by
  have isTemporary : temporaryPath (.ofString "out/new/list.json") =
      .ofString "out/new/list.tmp" := by decide
  have makes : makeParents (.ofString "out/new/list.json") (outTree [listFile "[]"]) =
      .ok () (outTree [listFile "[]", (Text.bytes "new", .directory [])]) := rfl
  have puts : Change.writeText (.ofString "out/new/list.tmp") "[1]"
      (outTree [listFile "[]", (Text.bytes "new", .directory [])]) =
        .ok () (outTree [listFile "[]", (Text.bytes "new",
          .directory [(Text.bytes "list.tmp", .file (some "[1]"))])]) := rfl
  have room : HasRoom (outTree [listFile "[]", (Text.bytes "new", .directory [])])
      (.ofString "out/new/list.json") := by
    intro place entry leads
    have nothing : (outTree [listFile "[]", (Text.bytes "new", .directory [])]).locate false
        (.ofString "out/new/list.tmp") =
          .ok (.absent [Text.bytes "new", Text.bytes "out"] (Text.bytes "list.tmp")) := rfl
    rw [isTemporary, nothing] at leads
    cases leads
  have writes := writeOutput_of_steps isTemporary makes puts rfl
  exact ⟨makes, room, writes, writesOnly_of_hasRoom makes room writes⟩

/-- **A file with the name of the temporary one is lost**, although nothing fails. -/
theorem not_writesOnly_beside :
    makeParents (.ofString "out/list.json")
        (outTree [listFile "[]", (Text.bytes "list.tmp", .file (some "kept"))]) =
          .ok () (outTree [listFile "[]", (Text.bytes "list.tmp", .file (some "kept"))]) ∧
      writeOutput (.ofString "out/list.json") "[1]"
        (outTree [listFile "[]", (Text.bytes "list.tmp", .file (some "kept"))]) =
          .ok () (outTree [listFile "[1]"]) ∧
      (outTree [listFile "[]", (Text.bytes "list.tmp", .file (some "kept"))]).readText
        (.ofString "out/list.tmp") = .ok "kept" ∧
      (outTree [listFile "[1]"]).readText (.ofString "out/list.tmp") = .error .notFound ∧
      ¬WritesOnly (.ofString "out/list.json") "[1]"
        (outTree [listFile "[]", (Text.bytes "list.tmp", .file (some "kept"))])
        (outTree [listFile "[]", (Text.bytes "list.tmp", .file (some "kept"))])
        (outTree [listFile "[1]"]) := by
  have makes : makeParents (.ofString "out/list.json")
      (outTree [listFile "[]", (Text.bytes "list.tmp", .file (some "kept"))]) =
        .ok () (outTree [listFile "[]", (Text.bytes "list.tmp", .file (some "kept"))]) := rfl
  have puts : Change.writeText (.ofString "out/list.tmp") "[1]"
      (outTree [listFile "[]", (Text.bytes "list.tmp", .file (some "kept"))]) =
        .ok () (outTree [listFile "[]", (Text.bytes "list.tmp", .file (some "[1]"))]) := rfl
  refine ⟨makes, writeOutput_of_steps (by decide) makes puts rfl, rfl, rfl, ?_⟩
  rintro ⟨place, _, isWritten, _, others⟩
  have elsewhere : [Text.bytes "list.tmp", Text.bytes "out"] ≠ place := by
    rintro rfl
    cases isWritten
  rcases others _ elsewhere with same | ⟨absent, _⟩
  · cases same
  · cases absent

end SampleMethods.CommandLine
